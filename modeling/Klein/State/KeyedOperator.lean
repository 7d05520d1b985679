import Klein.Coroutine
import Klein.State.ManagedStateOperator

/-! Callbacks of a keyed operator and the timers that fire them
(`runtime/operator/managed_state_operator.py`, `state/timer_service.py`,
`state/keyed_state_context.py`), over the memory backend. A callback is a coroutine
over what it keeps outside managed state, and what it emits; the context answers
its calls. -/
namespace Klein.State

inductive ContextCall (Key Value : Type) where
  | get (descriptor : StateDescriptor Value) (space : Key) (now later : Int)
  | put (descriptor : StateDescriptor Value) (value : Value) (space : Key) (now : Int)
  | delete (descriptor : StateDescriptor Value) (space : Key)
  | namespaces (descriptor : StateDescriptor Value)
  | registerTimer (timestamp : Int) (space : Key) (domain : TimerDomain)
  | deleteTimer (timestamp : Int) (space : Key) (domain : TimerDomain)
  | currentWatermark

inductive ContextReply (Key Value : Type) where
  | done (result : Except String Unit)
  | value (result : Except String (Option Value))
  | namespaces (result : Except String (List Key))
  | watermark (timestamp : Int)

abbrev Callback (Key Value Rest : Type) : Type := Coroutine Rest (ContextCall Key Value) (ContextReply Key Value) String Unit

/-- A keyed operator while it runs; `rest` is whatever its callbacks keep outside
managed state. -/
structure KeyedOperator (Key Rest : Type) where
  managed : ManagedStateOperator (MemoryStateBackend Key)
  rest : Rest

namespace KeyedOperator
variable {Key Value Rest : Type}

def withBackend (o : KeyedOperator Key Rest) (backend : MemoryStateBackend Key) : KeyedOperator Key Rest :=
  {o with managed := {o.managed with backend := backend}}

def bound (o : KeyedOperator Key Rest) (key : Key) : KeyedOperator Key Rest :=
  o.withBackend {o.managed.backend with currentKey := some key}

def watermark (o : KeyedOperator Key Rest) : Int := o.managed.timerService.watermark

variable (codec : KeyCodec Key)

def answer (o : KeyedOperator Key Rest) : ContextCall Key Value → ContextReply Key Value × KeyedOperator Key Rest
  | .get descriptor space now later => (o.managed.backend.get codec descriptor space now later).map .value o.withBackend
  | .put descriptor value space now => (o.managed.backend.put codec descriptor value space now).map .done o.withBackend
  | .delete descriptor space => (o.managed.backend.delete codec descriptor space).map .done o.withBackend
  | .namespaces descriptor => (.namespaces (o.managed.backend.namespaces codec descriptor),o)
  | .registerTimer timestamp space domain =>
    (o.managed.backend.registerTimer codec timestamp space domain).map .done o.withBackend
  | .deleteTimer timestamp space domain =>
    (o.managed.backend.deleteTimer codec timestamp space domain).map .done o.withBackend
  | .currentWatermark => (.watermark o.watermark,o)

def call : Callback Key Value Rest → KeyedOperator Key Rest → Except String Unit × KeyedOperator Key Rest
  | .ret _,o => (.ok (),o)
  | .throw raised,o => (.error raised,o)
  | .access update next,o => call (next o.rest) {o with rest := update o.rest}
  | .await request next,o => call (next (o.answer codec request).1) (o.answer codec request).2

end KeyedOperator

/-- The callbacks and options of an operator. `keyAndTimestamp` is
`_key_and_timestamp`; `shouldIgnoreException` lets the task go on after a record. -/
structure KeyedCallbacks (Key Value Rest Rec : Type) where
  keyAndTimestamp : Rec → Except String (Key × Option Int)
  processManagedElement : Rec → Option Int → Callback Key Value Rest
  onTimer : TimerEvent Key → Callback Key Value Rest
  ttlCleanupBatchSize : Int
  shouldIgnoreException : String → Bool

/-- How a call of the operator ended, and the timers for which `on_timer` was called. -/
structure Outcome (Key Rest : Type) where
  result : Except String Unit
  operator : KeyedOperator Key Rest
  fired : List (TimerEvent Key)

def Outcome.andThen {Key Rest : Type} (o : Outcome Key Rest) (next : KeyedOperator Key Rest → Outcome Key Rest) :
    Outcome Key Rest :=
  match o.result with
  | .error _ => o
  | .ok () => {next o.operator with fired := o.fired ++ (next o.operator).fired}

namespace KeyedOperator
variable {Key Value Rest Rec : Type} (codec : KeyCodec Key) (c : KeyedCallbacks Key Value Rest Rec)

def run (callback : Callback Key Value Rest) (o : KeyedOperator Key Rest) : Outcome Key Rest :=
  ⟨(o.call codec callback).1,(o.call codec callback).2,[]⟩

def failed (raised : String) (o : KeyedOperator Key Rest) : Outcome Key Rest := ⟨.error raised,o,[]⟩

/-- `_fire_timer` -/
def fireTimer (event : TimerEvent Key) (o : KeyedOperator Key Rest) : Outcome Key Rest :=
  {(o.bound event.key).run codec (c.onTimer event) with fired := [event]}

def fireTimers : List (TimerEvent Key) → KeyedOperator Key Rest → Outcome Key Rest
  | [],o => ⟨.ok (),o,[]⟩
  | event::rest,o => (o.fireTimer codec c event).andThen (fireTimers rest)

/-- `_cleanup_expired` -/
def cleanupExpired (now : Int) (o : KeyedOperator Key Rest) : Outcome Key Rest :=
  let (removed,backend) := o.managed.backend.cleanupExpired none (some c.ttlCleanupBatchSize) now
  ⟨removed.map (fun _ => ()),o.withBackend backend,[]⟩

def fireDue (timestamp : Int) (domain : TimerDomain) (o : KeyedOperator Key Rest) : Outcome Key Rest :=
  match o.managed.backend.popDueTimers codec timestamp domain none with
  | (.error raised,backend) => (o.withBackend backend).failed raised
  | (.ok events,backend) => (o.withBackend backend).fireTimers codec c events

/-- No operator overrides `after_time_advanced`. -/
def afterTimeAdvanced (o : KeyedOperator Key Rest) : Outcome Key Rest := ⟨.ok (),o,[]⟩

def maintain (now : Int) (o : KeyedOperator Key Rest) : Outcome Key Rest :=
  o.afterTimeAdvanced.andThen (cleanupExpired c now)

def invalidTimestamp : String := "stateful timestamp selectors must return a non-negative integer"

def foreignKeyGroup (keyGroup : Nat) (range : KeyGroupRange) : String :=
  "key group " ++ toString keyGroup ++ " is not owned by task range KeyGroupRange(start=" ++ toString range.start ++
    ", end=" ++ toString range.stop ++ "); keyed routing and state max-parallelism must match"

/-- The checks at the beginning of `process_element`. -/
def admitted (o : KeyedOperator Key Rest) (record : Rec) : Except String (Key × Option Int) := do
  let (key,timestamp) ← c.keyAndTimestamp record
  if timestamp.any (fun timestamp => timestamp < 0) then throw invalidTimestamp
  let keyGroup ← keyGroupForKey codec key o.managed.maxParallelism
  if keyGroup ∉ o.managed.keyGroupRange then throw (foreignKeyGroup keyGroup o.managed.keyGroupRange)
  return (key,timestamp)

/-- `now` is the reading of the clock by `pop_due_processing_time_timers`, `later`
the one by `cleanup_expired`. -/
def processElement (record : Rec) (now later : Int) (o : KeyedOperator Key Rest) : Outcome Key Rest :=
  match o.admitted codec c record with
  | .error raised => o.failed raised
  | .ok (key,timestamp) =>
    (((o.bound key).run codec (c.processManagedElement record timestamp)).andThen
      (fireDue codec c now .processingTime)).andThen (maintain c later)

def onIdle (now later : Int) (o : KeyedOperator Key Rest) : Outcome Key Rest :=
  (o.fireDue codec c now .processingTime).andThen (cleanupExpired c later)

def advanced (timestamp : Int) (o : KeyedOperator Key Rest) : KeyedOperator Key Rest :=
  if later : o.watermark < timestamp then
    {o with managed := {o.managed with
      timerService := ⟨timestamp,o.managed.timerService.started.trans (Int.le_of_lt later)⟩}}
  else o

/-- `TimerService.advance_watermark`, with the loop over what it returns. -/
def fireToWatermark (timestamp : Int) (o : KeyedOperator Key Rest) : Outcome Key Rest :=
  if timestamp ≤ o.watermark then o.fireTimers codec c []
  else (o.advanced timestamp).fireDue codec c timestamp .eventTime

def onEventTimeWatermark (timestamp now : Int) (o : KeyedOperator Key Rest) : Outcome Key Rest :=
  (o.fireToWatermark codec c timestamp).andThen (maintain c now)

end KeyedOperator

inductive OperatorInput (Rec : Type) where
  | record (record : Rec) (now later : Int)
  | idle (now later : Int)
  | watermark (timestamp now : Int)

namespace KeyedOperator
variable {Key Value Rest Rec : Type} (codec : KeyCodec Key) (c : KeyedCallbacks Key Value Rest Rec)

def handle (o : KeyedOperator Key Rest) : OperatorInput Rec → Outcome Key Rest
  | .record record now later => o.processElement codec c record now later
  | .idle now later => o.onIdle codec c now later
  | .watermark timestamp now => o.onEventTimeWatermark codec c timestamp now

end KeyedOperator

def Outcome.continues {Key Value Rest Rec : Type} (c : KeyedCallbacks Key Value Rest Rec) (outcome : Outcome Key Rest) :
    OperatorInput Rec → Bool
  | .record _ _ _ => match outcome.result with
    | .error raised => c.shouldIgnoreException raised
    | .ok () => true
  | _ => match outcome.result with
    | .error _ => false
    | .ok () => true

end Klein.State
