import Klein.State.DueTimers

/-! Event-time timers fired one at a time. The reference loop takes the earliest
registered timer that the watermark has reached, removes it and fires it, until
none is left. The operator pops them all before the first callback, which makes
no difference to callbacks that leave the due timers alone. -/
namespace Klein.State
open Fallible List Option

namespace MemoryStateBackend
variable {Key Value : Type} (codec : KeyCodec Key) (b : MemoryStateBackend Key) (timers : Dict Bytes Bytes)

def withTimers : MemoryStateBackend Key := {b with timers := timers}

@[simp] theorem state_withTimers : (b.withTimers timers).state = b.state := rfl

section
variable (descriptor : StateDescriptor Value)
include descriptor

theorem stateKey_withTimers (space : Key) :
    (b.withTimers timers).stateKey codec descriptor space = b.stateKey codec descriptor space := rfl

/-! Access to state neither reads nor writes timers. -/

theorem put_withTimers (value : Value) (space : Key) (now : Int) :
    (b.withTimers timers).put codec descriptor value space now =
      (b.put codec descriptor value space now).map id (fun next => next.withTimers timers) := by
  unfold put
  rw [stateKey_withTimers]
  cases b.stateKey codec descriptor space with
  | error raised => rfl
  | ok stateKey =>
    dsimp only
    rw [state_withTimers]
    cases indexKey stateKey (b.state.get? stateKey) with
    | error raised => rfl
    | ok previous =>
      have popped : (b.withTimers timers).popExpiry previous = (b.popExpiry previous).withTimers timers := by
        cases previous <;> rfl
      dsimp only
      rw [popped]
      cases encodeValue descriptor value (expiryFor descriptor now) with
      | error raised => rfl
      | ok encoded =>
        dsimp only
        cases expiryKey stateKey (expiryFor descriptor now) with
        | error raised => rfl
        | ok entry => cases entry <;> rfl

theorem get_withTimers (space : Key) (now later : Int) :
    (b.withTimers timers).get codec descriptor space now later =
      (b.get codec descriptor space now later).map id (fun next => next.withTimers timers) := by
  unfold get
  rw [stateKey_withTimers]
  cases b.stateKey codec descriptor space with
  | error raised => rfl
  | ok stateKey =>
    dsimp only
    rw [state_withTimers]
    cases b.state.get? stateKey with
    | none => rfl
    | some encoded =>
      dsimp only
      cases decodeStateValue encoded with
      | error raised => rfl
      | ok decoded =>
        dsimp only
        split
        next => rfl
        next =>
          cases descriptor.loads decoded.2 with
          | error raised => rfl
          | ok value =>
            dsimp only
            split
            next =>
              rw [put_withTimers]
              rfl
            next => rfl

theorem delete_withTimers (space : Key) :
    (b.withTimers timers).delete codec descriptor space =
      (b.delete codec descriptor space).map id (fun next => next.withTimers timers) := by
  unfold delete
  rw [stateKey_withTimers]
  cases b.stateKey codec descriptor space with
  | error raised => rfl
  | ok stateKey =>
    dsimp only
    rw [state_withTimers]
    cases indexKey stateKey (b.state.get? stateKey) with
    | error raised => rfl
    | ok previous => cases previous <;> rfl

end

theorem timers_kept {α : Type} (action : MemoryStateBackend Key → α × MemoryStateBackend Key)
    (commutes : ∀ b timers, action (b.withTimers timers) = (action b).map id (fun next => next.withTimers timers)) :
    (action b).2.timers = b.timers :=
  congrArg (fun result => result.2.timers) (commutes b b.timers)

theorem cleanupLoop_timers (now : Int) (limit : Option Int) (entries : List Bytes) (processed removed : Nat) :
    (cleanupLoop now limit b processed removed entries).2.timers = b.timers := by
  induction entries generalizing b processed removed with
  | nil => rfl
  | cons entry rest ih =>
    unfold cleanupLoop
    cases decodeExpiryKey entry with
    | error raised => rfl
    | ok decoded =>
      dsimp only
      split
      next => rfl
      next =>
        cases isCurrent decoded.1 (b.state.get? decoded.2) with
        | error raised => rfl
        | ok current => cases current <;> exact ih _ _ _

theorem registerTimer_cases (timestamp : Int) (space : Key) (domain : TimerDomain) :
    (∃ raised, ∀ timers, (b.withTimers timers).registerTimer codec timestamp space domain = (.error raised,b.withTimers timers)) ∨
      ∃ key encodedKey encodedValue, 0 ≤ timestamp ∧ encodeTimerKey codec timestamp key space domain = .ok encodedKey ∧
        encodeTimerValue codec key space = .ok encodedValue ∧
        ∀ timers, (b.withTimers timers).registerTimer codec timestamp space domain =
          (.ok (),b.withTimers (timers.set encodedKey encodedValue)) := by
  have current (timers : Dict Bytes Bytes) : (b.withTimers timers).requireCurrentKey = b.requireCurrentKey := rfl
  unfold registerTimer
  by_cases negative : timestamp < 0
  · exact .inl ⟨negativeTimer,fun timers => if_pos negative⟩
  · simp only [if_neg negative,current]
    cases entry : timerEntry codec b.requireCurrentKey timestamp space domain with
    | error raised => exact .inl ⟨raised,fun timers => rfl⟩
    | ok entry' =>
      obtain ⟨key,-,entry⟩ := bind_ok entry
      obtain ⟨value,valued,entry⟩ := bind_ok entry
      obtain ⟨key',keyed,entry⟩ := bind_ok entry
      obtain rfl := Except.ok.inj entry
      exact .inr ⟨key,key',value,by omega,keyed,valued,fun timers => rfl⟩

theorem deleteTimer_cases (timestamp : Int) (space : Key) (domain : TimerDomain) :
    (∃ raised, ∀ timers, (b.withTimers timers).deleteTimer codec timestamp space domain = (.error raised,b.withTimers timers)) ∨
      ∃ key encodedKey, b.currentKey = some key ∧ encodeTimerKey codec timestamp key space domain = .ok encodedKey ∧
        ∀ timers, (b.withTimers timers).deleteTimer codec timestamp space domain =
          (.ok (),b.withTimers (timers.erase encodedKey)) := by
  have current (timers : Dict Bytes Bytes) : (b.withTimers timers).requireCurrentKey = b.requireCurrentKey := rfl
  unfold deleteTimer
  simp only [current]
  cases found : b.requireCurrentKey >>= fun key => encodeTimerKey codec timestamp key space domain with
  | error raised => exact .inl ⟨raised,fun timers => rfl⟩
  | ok encodedKey =>
    obtain ⟨key,bound,keyed⟩ := bind_ok found
    refine .inr ⟨key,encodedKey,?_,keyed,fun timers => rfl⟩
    unfold requireCurrentKey at bound
    cases same : b.currentKey with
    | none =>
      rw [same] at bound
      contradiction
    | some other =>
      rw [same] at bound
      exact congrArg some (Except.ok.inj bound)

end MemoryStateBackend

namespace KeyedOperator
variable {Key Value Rest Rec : Type} (codec : KeyCodec Key) (c : KeyedCallbacks Key Value Rest Rec) (timestamp : Int)

def timers (o : KeyedOperator Key Rest) : Dict Bytes Bytes := o.managed.backend.timers

def held (o : KeyedOperator Key Rest) : KeyedOperator Key Rest :=
  o.withBackend (o.managed.backend.withTimers (keepLater timestamp .eventTime o.timers))

def due (o : KeyedOperator Key Rest) : List (Bytes × Bytes) := dueItems timestamp .eventTime o.timers

def TimersRegistered (o : KeyedOperator Key Rest) : Prop := o.managed.backend.TimersRegistered codec

/-- The reference loop; `fuel` bounds the number of its rounds. -/
def fireOneByOne : Nat → KeyedOperator Key Rest → Option (Outcome Key Rest)
  | 0,_ => none
  | fuel + 1,o =>
    match o.managed.backend.popDueTimers codec timestamp .eventTime (some 1) with
    | (.error raised,backend) => some ((o.withBackend backend).failed raised)
    | (.ok [],_) => some ⟨.ok (),o,[]⟩
    | (.ok (event::_),backend) =>
      match ((o.withBackend backend).fireTimer codec c event).result with
      | .error _ => some ((o.withBackend backend).fireTimer codec c event)
      | .ok () => (fireOneByOne fuel ((o.withBackend backend).fireTimer codec c event).operator).map
        (fun later => {later with fired := event::later.fired})

def handleOneByOne (fuel : Nat) (o : KeyedOperator Key Rest) : OperatorInput Rec → Option (Outcome Key Rest)
  | .watermark timestamp now =>
    (fireOneByOne codec c timestamp fuel (o.advanced timestamp)).map (fun outcome => outcome.andThen (maintain c now))
  | input => some (o.handle codec c input)

/-- A call that leaves alone the event-time timers which the watermark has reached:
it registers none, and deletes none of those that are still to fire. -/
def Quiet (pending : List (TimerEvent Key)) (o : KeyedOperator Key Rest) : ContextCall Key Value → Prop
  | .registerTimer stamp _ .eventTime => stamp < 0 ∨ timestamp < stamp
  | .deleteTimer stamp space .eventTime => ∀ key encodedKey, o.managed.backend.currentKey = some key →
      encodeTimerKey codec stamp key space .eventTime = .ok encodedKey →
      ∀ event ∈ pending, encodeTimerKey codec event.timestamp event.key event.space event.domain ≠ .ok encodedKey
  | _ => True

def Calm (pending : List (TimerEvent Key)) : Callback Key Value Rest → KeyedOperator Key Rest → Prop
  | .ret _,_ => True
  | .throw _,_ => True
  | .access update next,o => Calm pending (next o.rest) {o with rest := update o.rest}
  | .await request next,o => Quiet codec timestamp pending o request ∧
      Calm pending (next (o.answer codec request).1) (o.answer codec request).2

def CalmFiring : List (TimerEvent Key) → KeyedOperator Key Rest → Prop
  | [],_ => True
  | event::rest,o => Calm codec timestamp rest (c.onTimer event) (o.bound event.key) ∧
      CalmFiring rest (o.fireTimer codec c event).operator

section frames
variable (o : KeyedOperator Key Rest) (pending : List (TimerEvent Key))

theorem held_eq_self (none : o.due timestamp = []) : o.held timestamp = o := by
  have same := (dueItems_nil timestamp .eventTime o.timers).mp none
  unfold held
  rw [same]
  rfl

theorem access_held {α : Type} (action : MemoryStateBackend Key → α × MemoryStateBackend Key)
    (commutes : ∀ b timers, action (b.withTimers timers) = (action b).map id (fun next => next.withTimers timers))
    (reply : α → ContextReply Key Value) :
    (action (o.held timestamp).managed.backend).map reply (o.held timestamp).withBackend =
        (reply (action o.managed.backend).1,(o.withBackend (action o.managed.backend).2).held timestamp) ∧
      (o.withBackend (action o.managed.backend).2).due timestamp = o.due timestamp := by
  have kept := o.managed.backend.timers_kept action commutes
  constructor
  · change (action (o.managed.backend.withTimers (keepLater timestamp .eventTime o.timers))).map reply _ = _
    rw [commutes]
    unfold held timers
    change _ = (_,KeyedOperator.withBackend _ ((action o.managed.backend).2.withTimers
      (keepLater timestamp .eventTime (action o.managed.backend).2.timers)))
    rw [kept]
    rfl
  · unfold due timers
    change dueItems timestamp .eventTime (action o.managed.backend).2.timers = _
    rw [kept]

theorem change_held (action : MemoryStateBackend Key → Except String Unit × MemoryStateBackend Key)
    (result : Except String Unit) (change : Dict Bytes Bytes → Dict Bytes Bytes)
    (does : ∀ timers, action (o.managed.backend.withTimers timers) = (result,o.managed.backend.withTimers (change timers)))
    (later : keepLater timestamp .eventTime (change o.timers) = change (keepLater timestamp .eventTime o.timers))
    (same : dueItems timestamp .eventTime (change o.timers) = o.due timestamp) :
    (action (o.held timestamp).managed.backend).map (@ContextReply.done Key Value) (o.held timestamp).withBackend =
        (.done (action o.managed.backend).1,(o.withBackend (action o.managed.backend).2).held timestamp) ∧
      (o.withBackend (action o.managed.backend).2).due timestamp = o.due timestamp := by
  have own : action o.managed.backend = (result,o.managed.backend.withTimers (change o.timers)) := does o.timers
  have popped : action (o.held timestamp).managed.backend =
      (result,o.managed.backend.withTimers (change (keepLater timestamp .eventTime o.timers))) := does _
  rw [own,popped,← later]
  exact ⟨rfl,same⟩

theorem absent_of_read (items : List (Bytes × Bytes)) (read : List.Forall₂ (ReadAs codec) items pending) (encodedKey : Bytes)
    (others : ∀ event ∈ pending, encodeTimerKey codec event.timestamp event.key event.space event.domain ≠ .ok encodedKey) :
    ∀ item ∈ items, item.1 ≠ encodedKey := by
  induction read with
  | nil => simp
  | cons first _ ih =>
    obtain ⟨here,rest⟩ := forall_mem_cons.mp others
    refine forall_mem_cons.mpr ⟨fun same => here (same ▸ first.encoded),ih rest⟩

section
variable (read : List.Forall₂ (ReadAs codec) (o.due timestamp) pending)
include read

theorem answer_held (request : ContextCall Key Value)
    (quiet : Quiet codec timestamp pending (o.held timestamp) request) :
    (o.held timestamp).answer codec request = ((o.answer codec request).1,(o.answer codec request).2.held timestamp) ∧
      (o.answer codec request).2.due timestamp = o.due timestamp := by
  cases request with
  | get descriptor space now later =>
    exact access_held timestamp o (fun b => b.get codec descriptor space now later)
      (fun b timers => b.get_withTimers codec timers descriptor space now later) .value
  | put descriptor value space now =>
    exact access_held timestamp o (fun b => b.put codec descriptor value space now)
      (fun b timers => b.put_withTimers codec timers descriptor value space now) .done
  | delete descriptor space =>
    exact access_held timestamp o (fun b => b.delete codec descriptor space)
      (fun b timers => b.delete_withTimers codec timers descriptor space) .done
  | namespaces descriptor => exact ⟨rfl,rfl⟩
  | currentWatermark => exact ⟨rfl,rfl⟩
  | registerTimer stamp space domain =>
    rcases o.managed.backend.registerTimer_cases codec stamp space domain with
      ⟨raised,raises⟩ | ⟨key,encodedKey,encodedValue,started,keyed,-,registers⟩
    · exact change_held timestamp o (fun b => b.registerTimer codec stamp space domain) _ id raises rfl rfl
    · have later : isDue timestamp .eventTime encodedKey = false := by
        rw [isDue_encodeTimerKey timestamp .eventTime keyed]
        cases domain with
        | processingTime => rfl
        | eventTime =>
          have above : timestamp < stamp := quiet.resolve_left (by omega)
          rw [decide_eq_false (show ¬ stamp ≤ timestamp by omega),Bool.and_false]
      exact change_held timestamp o (fun b => b.registerTimer codec stamp space domain) _
        (fun timers => timers.set encodedKey encodedValue) registers
        (keepLater_set timestamp .eventTime o.timers encodedKey encodedValue later)
        (dueItems_set timestamp .eventTime o.timers encodedKey encodedValue later)
  | deleteTimer stamp space domain =>
    rcases o.managed.backend.deleteTimer_cases codec stamp space domain with ⟨raised,raises⟩ | ⟨key,encodedKey,current,keyed,deletes⟩
    · exact change_held timestamp o (fun b => b.deleteTimer codec stamp space domain) _ id raises rfl rfl
    · have absent : ∀ item ∈ o.due timestamp, item.1 ≠ encodedKey := by
        cases domain with
        | eventTime => exact absent_of_read codec pending _ read encodedKey (quiet key encodedKey current keyed)
        | processingTime =>
          rintro item listed rfl
          have reached := ((mem_dueItems timestamp .eventTime o.timers item).mp listed).2
          rw [isDue_encodeTimerKey timestamp .eventTime keyed] at reached
          contradiction
      exact change_held timestamp o (fun b => b.deleteTimer codec stamp space domain) _ (fun timers => timers.erase encodedKey)
        deletes (keepLater_erase timestamp .eventTime o.timers encodedKey)
        (dueItems_erase timestamp .eventTime o.timers encodedKey absent)

theorem call_held (callback : Callback Key Value Rest)
    (calm : Calm codec timestamp pending callback (o.held timestamp)) :
    (o.held timestamp).call codec callback = ((o.call codec callback).1,(o.call codec callback).2.held timestamp) ∧
      (o.call codec callback).2.due timestamp = o.due timestamp := by
  induction callback generalizing o with
  | ret value => exact ⟨rfl,rfl⟩
  | throw raised => exact ⟨rfl,rfl⟩
  | access update next ih => exact ih o.rest {o with rest := update o.rest} read calm
  | await request next ih =>
    obtain ⟨quiet,calm⟩ := calm
    obtain ⟨answered,kept⟩ := answer_held codec timestamp o pending read request quiet
    unfold call
    rw [answered] at calm ⊢
    obtain ⟨called,kept'⟩ := ih (o.answer codec request).1 (o.answer codec request).2 (kept ▸ read) calm
    exact ⟨called,kept'.trans kept⟩

end

end frames

section registered
variable (o : KeyedOperator Key Rest) (registered : o.TimersRegistered codec)
include registered

theorem TimersRegistered.answer (request : ContextCall Key Value) : (o.answer codec request).2.TimersRegistered codec := by
  have kept {α : Type} (action : MemoryStateBackend Key → α × MemoryStateBackend Key)
      (commutes : ∀ b timers, action (b.withTimers timers) = (action b).map id (fun next => next.withTimers timers)) :
      (action o.managed.backend).2.TimersRegistered codec := by
    unfold MemoryStateBackend.TimersRegistered
    rw [o.managed.backend.timers_kept action commutes]
    exact registered
  cases request with
  | get descriptor space now later =>
    exact kept (fun b => b.get codec descriptor space now later)
      (fun b timers => b.get_withTimers codec timers descriptor space now later)
  | put descriptor value space now =>
    exact kept (fun b => b.put codec descriptor value space now)
      (fun b timers => b.put_withTimers codec timers descriptor value space now)
  | delete descriptor space =>
    exact kept (fun b => b.delete codec descriptor space) (fun b timers => b.delete_withTimers codec timers descriptor space)
  | namespaces descriptor => exact registered
  | currentWatermark => exact registered
  | registerTimer stamp space domain =>
    change (o.managed.backend.registerTimer codec stamp space domain).2.TimersRegistered codec
    rcases o.managed.backend.registerTimer_cases codec stamp space domain with
      ⟨raised,raises⟩ | ⟨key,encodedKey,encodedValue,-,keyed,valued,registers⟩
    · rw [show o.managed.backend.registerTimer codec stamp space domain = _ from raises o.timers]
      exact registered
    · rw [show o.managed.backend.registerTimer codec stamp space domain = _ from registers o.timers]
      intro other value found
      change (o.timers.set encodedKey encodedValue).get? other = some value at found
      rw [Dict.get?_set] at found
      split at found
      next same =>
        obtain rfl := some.inj found
        exact ⟨stamp,key,space,domain,same ▸ keyed,valued⟩
      next => exact registered other value found
  | deleteTimer stamp space domain =>
    change (o.managed.backend.deleteTimer codec stamp space domain).2.TimersRegistered codec
    rcases o.managed.backend.deleteTimer_cases codec stamp space domain with ⟨raised,raises⟩ | ⟨key,encodedKey,-,-,deletes⟩
    · rw [show o.managed.backend.deleteTimer codec stamp space domain = _ from raises o.timers]
      exact registered
    · rw [show o.managed.backend.deleteTimer codec stamp space domain = _ from deletes o.timers]
      intro other value found
      change (o.timers.erase encodedKey).get? other = some value at found
      rw [Dict.get?_erase] at found
      exact registered other value (ite_none_left_eq_some.mp found).2

theorem TimersRegistered.call (callback : Callback Key Value Rest) : (o.call codec callback).2.TimersRegistered codec := by
  induction callback generalizing o with
  | ret value => exact registered
  | throw raised => exact registered
  | access update next ih => exact ih o.rest {o with rest := update o.rest} registered
  | await request next ih => exact ih _ _ (registered.answer codec o request)

theorem TimersRegistered.fireTimer (event : TimerEvent Key) : (o.fireTimer codec c event).operator.TimersRegistered codec :=
  TimersRegistered.call codec (o.bound event.key) registered (c.onTimer event)

theorem TimersRegistered.fireTimers (events : List (TimerEvent Key)) :
    (o.fireTimers codec c events).operator.TimersRegistered codec := by
  induction events generalizing o with
  | nil => exact registered
  | cons event rest ih =>
    have first := TimersRegistered.fireTimer codec c o registered event
    unfold KeyedOperator.fireTimers Outcome.andThen
    split
    next => exact first
    next => exact ih _ first

theorem TimersRegistered.fireDue (domain : TimerDomain) :
    (o.fireDue codec c timestamp domain).operator.TimersRegistered codec := by
  have kept : (o.withBackend (o.managed.backend.popDueTimers codec timestamp domain none).2).TimersRegistered codec :=
    fun encodedKey encodedValue found => registered encodedKey encodedValue
      (o.managed.backend.popDueTimers_kept codec timestamp domain none encodedKey encodedValue found)
  unfold KeyedOperator.fireDue
  generalize o.managed.backend.popDueTimers codec timestamp domain none = popped at kept
  obtain ⟨result,backend⟩ := popped
  cases result with
  | error raised => exact kept
  | ok events => exact TimersRegistered.fireTimers codec c _ kept events

theorem TimersRegistered.cleanupExpired (now : Int) : (o.cleanupExpired c now).operator.TimersRegistered codec := by
  intro encodedKey encodedValue found
  change (o.managed.backend.cleanupExpired none (some c.ttlCleanupBatchSize) now).2.timers.get? encodedKey = _ at found
  rw [MemoryStateBackend.cleanupExpired,MemoryStateBackend.cleanupLoop_timers] at found
  exact registered encodedKey encodedValue found

end registered

theorem TimersRegistered.andThen (outcome : Outcome Key Rest) (next : KeyedOperator Key Rest → Outcome Key Rest)
    (first : outcome.operator.TimersRegistered codec)
    (rest : ∀ o, o.TimersRegistered codec → (next o).operator.TimersRegistered codec) :
    (outcome.andThen next).operator.TimersRegistered codec := by
  unfold Outcome.andThen
  split
  next => exact first
  next => exact rest outcome.operator first

theorem TimersRegistered.maintain (o : KeyedOperator Key Rest) (registered : o.TimersRegistered codec) (now : Int) :
    (o.maintain c now).operator.TimersRegistered codec :=
  TimersRegistered.andThen codec _ _ registered (fun o registered => registered.cleanupExpired codec c o now)

theorem TimersRegistered.advanced (o : KeyedOperator Key Rest) (registered : o.TimersRegistered codec) :
    (o.advanced timestamp).TimersRegistered codec := by
  unfold KeyedOperator.advanced
  split
  · exact registered
  · exact registered

theorem TimersRegistered.handle (o : KeyedOperator Key Rest) (registered : o.TimersRegistered codec)
    (input : OperatorInput Rec) : (o.handle codec c input).operator.TimersRegistered codec := by
  cases input with
  | record record now later =>
    change (o.processElement codec c record now later).operator.TimersRegistered codec
    unfold processElement
    split
    next => exact registered
    next key stamp _ =>
      refine TimersRegistered.andThen codec _ _ (TimersRegistered.andThen codec _ _ ?_ (fun o registered => ?_))
        (fun o registered => registered.maintain codec c o later)
      · exact TimersRegistered.call codec (o.bound key) registered _
      · exact registered.fireDue codec c now o .processingTime
  | idle now later =>
    exact TimersRegistered.andThen codec _ _ (registered.fireDue codec c now o .processingTime)
      (fun o registered => registered.cleanupExpired codec c o later)
  | watermark stamp now =>
    refine TimersRegistered.andThen codec _ _ ?_ (fun o registered => registered.maintain codec c o now)
    unfold fireToWatermark
    split
    · exact registered
    · exact TimersRegistered.fireDue codec c stamp _ (registered.advanced codec stamp o) .eventTime

section first
variable (o : KeyedOperator Key Rest) (item : Bytes × Bytes) (items : List (Bytes × Bytes))
  (waiting : o.due timestamp = item::items)
include waiting

theorem due_removed : (o.withBackend {o.managed.backend with timers := o.timers.erase item.1}).due timestamp = items :=
  dueItems_tail timestamp .eventTime o.timers item items waiting

theorem held_removed : (o.withBackend {o.managed.backend with timers := o.timers.erase item.1}).held timestamp = o.held timestamp := by
  have listed : item ∈ o.due timestamp := waiting ▸ mem_cons_self
  have reached := ((mem_dueItems timestamp .eventTime o.timers item).mp listed).2
  unfold held
  change KeyedOperator.withBackend _ (MemoryStateBackend.withTimers _ (keepLater timestamp .eventTime (o.timers.erase item.1))) = _
  rw [keepLater_erase_due timestamp .eventTime o.timers item.1 reached]
  rfl

theorem fireTimer_held (event : TimerEvent Key) (rest : List (TimerEvent Key)) (read : List.Forall₂ (ReadAs codec) items rest)
    (calm : Calm codec timestamp rest (c.onTimer event) ((o.held timestamp).bound event.key)) (first : Outcome Key Rest)
    (fired : (o.withBackend {o.managed.backend with timers := o.timers.erase item.1}).fireTimer codec c event = first) :
    (o.held timestamp).fireTimer codec c event = {first with operator := first.operator.held timestamp} ∧
      first.operator.due timestamp = items := by
  have removed := due_removed timestamp o item items waiting
  rw [← held_removed timestamp o item items waiting] at calm ⊢
  generalize o.withBackend {o.managed.backend with timers := o.timers.erase item.1} = o at removed calm fired ⊢
  obtain ⟨called,kept⟩ := call_held codec timestamp (o.bound event.key) rest (removed.symm ▸ read) (c.onTimer event) calm
  subst fired
  refine ⟨?_,kept.trans removed⟩
  unfold fireTimer run
  change Outcome.mk (((o.bound event.key).held timestamp).call codec (c.onTimer event)).1
    (((o.bound event.key).held timestamp).call codec (c.onTimer event)).2 [event] = _
  rw [called]

end first

theorem fireOneByOne_pop (fuel : Nat) (o : KeyedOperator Key Rest) (event : TimerEvent Key) (backend : MemoryStateBackend Key)
    (popped : o.managed.backend.popDueTimers codec timestamp .eventTime (some 1) = (.ok [event],backend))
    (first : Outcome Key Rest) (fired : (o.withBackend backend).fireTimer codec c event = first) :
    fireOneByOne codec c timestamp (fuel + 1) o =
      if first.result.isOk then (fireOneByOne codec c timestamp fuel first.operator).map
        (fun later => {later with fired := event::later.fired})
      else some first := by
  rw [fireOneByOne,popped]
  dsimp only
  rw [fired]
  cases first.result with
  | error raised => rfl
  | ok done =>
    cases done
    rfl

omit c in
theorem reencodes_of_read (items : List (Bytes × Bytes)) (events : List (TimerEvent Key))
    (read : List.Forall₂ (ReadAs codec) items events) : ∀ item ∈ items, Reencodes codec item.1 item.2 := by
  induction read with
  | nil => simp
  | cons first _ ih =>
    exact forall_mem_cons.mpr ⟨⟨_,_,_,_,first.decoded,first.encoded⟩,ih⟩

theorem fireOneByOne_calm (readable : codec.Readable) (events : List (TimerEvent Key)) (o : KeyedOperator Key Rest)
    (registered : o.TimersRegistered codec) (read : List.Forall₂ (ReadAs codec) (o.due timestamp) events)
    (calm : CalmFiring codec c timestamp events (o.held timestamp)) (fuel : Nat) (enough : events.length < fuel) :
    ∃ outcome, fireOneByOne codec c timestamp fuel o = some outcome ∧
      outcome.result = ((o.held timestamp).fireTimers codec c events).result ∧
      outcome.fired = ((o.held timestamp).fireTimers codec c events).fired ∧
      (outcome.result = .ok () → outcome.operator = ((o.held timestamp).fireTimers codec c events).operator ∧
        outcome.operator.due timestamp = []) := by
  induction events generalizing o fuel with
  | nil =>
    obtain ⟨fuel,rfl⟩ := Nat.exists_eq_add_one_of_ne_zero (show fuel ≠ 0 by omega)
    have none : o.due timestamp = [] := by
      cases found : o.due timestamp with
      | nil => rfl
      | cons item rest =>
        rw [found] at read
        cases read
    unfold fireOneByOne
    have again : ∀ item ∈ dueItems timestamp .eventTime o.timers, Reencodes codec item.1 item.2 := reencodes_of_read codec _ _ read
    rw [(o.managed.backend.popDueTimers_one codec timestamp .eventTime readable registered again).1 none]
    exact ⟨_,rfl,rfl,rfl,fun _ => ⟨(held_eq_self timestamp o none).symm,none⟩⟩
  | cons event rest ih =>
    obtain ⟨fuel,rfl⟩ := Nat.exists_eq_add_one_of_ne_zero (show fuel ≠ 0 by omega)
    rw [length_cons] at enough
    cases due : o.due timestamp with
    | nil =>
      rw [due] at read
      cases read
    | cons item items =>
      obtain ⟨event',read',popped⟩ : ∃ event', ReadAs codec item event' ∧
          o.managed.backend.popDueTimers codec timestamp .eventTime (some 1) =
            (.ok [event'],{o.managed.backend with timers := o.timers.erase item.1}) :=
        (o.managed.backend.popDueTimers_one codec timestamp .eventTime readable registered (reencodes_of_read codec _ _ read)).2
          item items due
      rw [due] at read
      obtain ⟨here,later⟩ := forall₂_cons.mp read
      obtain rfl := read'.unique here
      obtain ⟨quiet,calm⟩ := calm
      obtain ⟨alike,left⟩ := fireTimer_held codec c timestamp o item items due event' rest later quiet _ rfl
      have registered' : (o.withBackend {o.managed.backend with timers := o.timers.erase item.1}).TimersRegistered codec := by
        intro encodedKey encodedValue found
        change (o.timers.erase item.1).get? encodedKey = some encodedValue at found
        rw [Dict.get?_erase] at found
        exact registered encodedKey encodedValue (ite_none_left_eq_some.mp found).2
      have next := registered'.fireTimer codec c _ event'
      have single : ((o.withBackend {o.managed.backend with timers := o.timers.erase item.1}).fireTimer codec c event').fired =
          [event'] := rfl
      rw [fireOneByOne_pop codec c timestamp fuel o event' _ popped _ rfl]
      rw [alike] at calm
      unfold fireTimers Outcome.andThen
      rw [alike]
      generalize (o.withBackend {o.managed.backend with timers := o.timers.erase item.1}).fireTimer codec c event' = first
        at left calm next single ⊢
      dsimp only
      cases result : first.result with
      | error raised => exact ⟨first,rfl,result,rfl,fun done => by rw [result] at done; contradiction⟩
      | ok value =>
        cases value
        have returned : (Except.ok () : Except String Unit).isOk = true := rfl
        obtain ⟨outcome,done,same,fired,settled⟩ := ih first.operator next (left.symm ▸ later) calm fuel (by omega)
        rw [if_pos returned,done,single]
        exact ⟨_,rfl,same,congrArg (List.cons event') fired,settled⟩

/-- A watermark is handled in the order of the reference loop: it is ahead of the present
one or finds no due timer, the due timers encode as they did when they are read back, and
the callbacks that it fires leave the due timers alone. -/
def Undisturbed (o : KeyedOperator Key Rest) : OperatorInput Rec → Prop
  | .watermark timestamp _ => (timestamp ≤ o.watermark → o.due timestamp = []) ∧
      (∀ item ∈ o.due timestamp, Reencodes codec item.1 item.2) ∧
      (o.watermark < timestamp → ∀ events,
        ((o.advanced timestamp).managed.backend.popDueTimers codec timestamp .eventTime none).1 = .ok events →
        CalmFiring codec c timestamp events ((o.advanced timestamp).held timestamp))
  | _ => True

def next (o : KeyedOperator Key Rest) (input : OperatorInput Rec) : Option (KeyedOperator Key Rest) :=
  if (o.handle codec c input).continues c input then some (o.handle codec c input).operator else none

/-- Handle inputs until the task stops: the timers fired for each of them, and the last
operator or what stopped the task. -/
def runInputs (handler : KeyedOperator Key Rest → OperatorInput Rec → Option (Outcome Key Rest)) :
    List (OperatorInput Rec) → KeyedOperator Key Rest →
      Option (List (List (TimerEvent Key)) × Except String (KeyedOperator Key Rest))
  | [],o => some ([],.ok o)
  | input::rest,o => do
    let outcome ← handler o input
    if outcome.continues c input then
      let (fired,last) ← runInputs handler rest outcome.operator
      return (outcome.fired::fired,last)
    else return ([outcome.fired],outcome.result.map (fun _ => outcome.operator))

theorem due_advanced (o : KeyedOperator Key Rest) : (o.advanced timestamp).due timestamp = o.due timestamp := by
  unfold advanced
  split <;> rfl

theorem maintain_timers (o : KeyedOperator Key Rest) (now : Int) : (o.maintain c now).operator.timers = o.timers :=
  MemoryStateBackend.cleanupLoop_timers o.managed.backend now (some c.ttlCleanupBatchSize) _ 0 0

section
variable (readable : codec.Readable) (o : KeyedOperator Key Rest) (registered : o.TimersRegistered codec)
include readable registered

theorem handle_watermark (now : Int)
    (undisturbed : Undisturbed codec c o (.watermark timestamp now)) :
    ∃ enough, ∀ fuel ≥ enough, ∃ outcome, handleOneByOne codec c fuel o (.watermark timestamp now) = some outcome ∧
      outcome.result = (o.onEventTimeWatermark codec c timestamp now).result ∧
      outcome.fired = (o.onEventTimeWatermark codec c timestamp now).fired ∧
      (outcome.result = .ok () → outcome.operator = (o.onEventTimeWatermark codec c timestamp now).operator ∧
        outcome.operator.due timestamp = []) := by
  obtain ⟨events,popped,read⟩ := (o.advanced timestamp).managed.backend.popDueTimers_all codec timestamp .eventTime readable
    (registered.advanced codec timestamp o) ((due_advanced timestamp o).symm ▸ undisturbed.2.1 :
      ∀ item ∈ (o.advanced timestamp).due timestamp, Reencodes codec item.1 item.2)
  have loop : o.fireToWatermark codec c timestamp = ((o.advanced timestamp).held timestamp).fireTimers codec c events ∧
      CalmFiring codec c timestamp events ((o.advanced timestamp).held timestamp) := by
    unfold fireToWatermark
    by_cases reached : timestamp ≤ o.watermark
    · have none := undisturbed.1 reached
      have same : (o.advanced timestamp).held timestamp = o := by
        rw [held_eq_self timestamp _ ((due_advanced timestamp o).trans none)]
        exact dif_neg (not_lt.mpr reached)
      change List.Forall₂ _ ((o.advanced timestamp).due timestamp) events at read
      rw [due_advanced,none] at read
      cases read
      rw [if_pos reached,same]
      exact ⟨rfl,trivial⟩
    · rw [if_neg reached]
      refine ⟨?_,undisturbed.2.2 (not_le.mp reached) events (by rw [popped])⟩
      unfold fireDue
      rw [popped]
      rfl
  refine ⟨events.length + 1,fun fuel enough => ?_⟩
  obtain ⟨outcome,done,same,fired,settled⟩ := fireOneByOne_calm codec c timestamp readable events (o.advanced timestamp)
    (registered.advanced codec timestamp o) read loop.2 fuel (by omega)
  refine ⟨outcome.andThen (maintain c now),?_,?_⟩
  · exact congrArg (Option.map (fun outcome => outcome.andThen (maintain c now))) done
  · unfold onEventTimeWatermark
    rw [loop.1]
    unfold Outcome.andThen
    rw [← same,← fired]
    cases result : outcome.result with
    | error raised => exact ⟨same,fired,fun done => by rw [result] at done; contradiction⟩
    | ok value =>
      cases value
      obtain ⟨alike,none⟩ := settled result
      rw [← alike]
      refine ⟨rfl,rfl,fun _ => ⟨rfl,?_⟩⟩
      exact (congrArg (dueItems timestamp .eventTime) (maintain_timers c outcome.operator now)).trans none

theorem handleOneByOne_alike (input : OperatorInput Rec) (undisturbed : Undisturbed codec c o input) :
    ∃ enough, ∀ fuel ≥ enough, ∃ outcome, handleOneByOne codec c fuel o input = some outcome ∧
      outcome.fired = (o.handle codec c input).fired ∧
      outcome.continues c input = (o.handle codec c input).continues c input ∧
      outcome.result.map (fun _ => outcome.operator) = (o.handle codec c input).result.map (fun _ => (o.handle codec c input).operator) ∧
      (outcome.continues c input = true → outcome.operator = (o.handle codec c input).operator) := by
  cases input with
  | record record now later => exact ⟨0,fun _ _ => ⟨_,rfl,rfl,rfl,rfl,fun _ => rfl⟩⟩
  | idle now later => exact ⟨0,fun _ _ => ⟨_,rfl,rfl,rfl,rfl,fun _ => rfl⟩⟩
  | watermark timestamp now =>
    obtain ⟨enough,alike⟩ := handle_watermark codec c timestamp readable o registered now undisturbed
    refine ⟨enough,fun fuel large => ?_⟩
    obtain ⟨outcome,done,same,fired,settled⟩ := alike fuel large
    refine ⟨outcome,done,fired,?_,?_,fun continues => ?_⟩
    · unfold Outcome.continues
      dsimp only
      rw [same]
      rfl
    · change _ = (o.onEventTimeWatermark codec c timestamp now).result.map _
      rw [← same]
      cases result : outcome.result with
      | error raised => rfl
      | ok value =>
        cases value
        exact congrArg Except.ok (settled result).1
    · cases result : outcome.result with
      | error raised =>
        unfold Outcome.continues at continues
        rw [result] at continues
        contradiction
      | ok value =>
        cases value
        exact (settled result).1

end

/-- Timers behave as if they were fired one at a time, in every run whose watermarks are
handled undisturbed; no timer at or below a watermark is left by its call. -/
theorem timers_fire_one_by_one (readable : codec.Readable) (o : KeyedOperator Key Rest) (registered : o.TimersRegistered codec)
    (inputs : List (OperatorInput Rec)) (undisturbed : Runs.Along (next codec c) (Undisturbed codec c) o inputs) :
    (∃ enough, ∀ fuel ≥ enough, runInputs c (handleOneByOne codec c fuel) inputs o =
      runInputs c (fun o input => some (o.handle codec c input)) inputs o) ∧
    ∀ before timestamp now after reached, inputs = before ++ .watermark timestamp now::after →
      Runs.exec (next codec c) o (before ++ [.watermark timestamp now]) = some reached → reached.due timestamp = [] := by
  induction inputs generalizing o with
  | nil => exact ⟨⟨0,fun fuel _ => rfl⟩,fun before _ _ after _ whole => absurd whole (by simp)⟩
  | cons input rest ih =>
    obtain ⟨here,later⟩ := undisturbed
    have registered' := registered.handle codec c o input
    have going (continues : (o.handle codec c input).continues c input = true) :
        next codec c o input = some (o.handle codec c input).operator := if_pos continues
    constructor
    · obtain ⟨enough,alike⟩ := handleOneByOne_alike codec c readable o registered input here
      cases continues : (o.handle codec c input).continues c input with
      | false =>
        refine ⟨enough,fun fuel large => ?_⟩
        obtain ⟨outcome,done,fired,same,last,-⟩ := alike fuel large
        unfold runInputs
        rw [done]
        simp only [bind_eq_bind,bind_some]
        rw [same,continues,fired,last]
        rfl
      | true =>
        obtain ⟨⟨enough',rest'⟩,-⟩ := ih (o.handle codec c input).operator registered' (later _ (going continues))
        refine ⟨max enough enough',fun fuel large => ?_⟩
        obtain ⟨outcome,done,fired,same,-,operator⟩ := alike fuel (by omega)
        unfold runInputs
        rw [done]
        simp only [bind_eq_bind,bind_some]
        rw [same,continues,fired,operator (same.trans continues),rest' fuel (by omega)]
        rfl
    · intro before timestamp now after reached whole run
      cases before with
      | nil =>
        obtain ⟨rfl,rfl⟩ := List.cons.inj whole
        obtain ⟨enough,alike⟩ := handle_watermark codec c timestamp readable o registered now here
        obtain ⟨outcome,-,same,-,settled⟩ := alike enough le_rfl
        obtain ⟨middle,taken,run⟩ := bind_eq_some_iff.mp run
        obtain rfl := some.inj run
        obtain ⟨continues,same'⟩ := ite_none_right_eq_some.mp taken
        obtain rfl := some.inj same'
        cases result : outcome.result with
        | error raised =>
          change (o.onEventTimeWatermark codec c timestamp now).continues c (.watermark timestamp now) = true at continues
          unfold Outcome.continues at continues
          rw [← same,result] at continues
          contradiction
        | ok value =>
          cases value
          obtain ⟨operator,none⟩ := settled result
          exact operator ▸ none
      | cons first before =>
        obtain ⟨rfl,rfl⟩ := List.cons.inj whole
        obtain ⟨middle,taken,run⟩ := bind_eq_some_iff.mp run
        have step := taken
        obtain ⟨-,same⟩ := ite_none_right_eq_some.mp taken
        obtain rfl := some.inj same
        exact (ih _ registered' (later _ step)).2 before timestamp now after reached rfl run

section examples

def ask (request : ContextCall Key Value) : Callback Key Value Rest :=
  .await request (fun reply => match reply with
    | .done (.error raised) => .throw raised
    | _ => .ret ())

def opened : KeyedOperator (Option (Fin 256)) Unit :=
  ⟨⟨128,⟨0,127,by decide⟩,MemoryStateBackend.init,⟨-1,le_rfl⟩⟩,()⟩

def reminders : KeyedCallbacks (Option (Fin 256)) (Option (Fin 256)) Unit (Option (Fin 256)) where
  keyAndTimestamp := fun key => .ok (key,none)
  processManagedElement := fun _ _ => ask (.registerTimer 5 none .eventTime)
  onTimer := fun event => ask (.registerTimer (event.timestamp + 10) none .eventTime)
  ttlCleanupBatchSize := 1
  shouldIgnoreException := fun _ => false

/-- The reminders of two keys fire at a watermark that the repetitions are ahead of. -/
theorem reminders_one_by_one : ∃ enough, ∀ fuel ≥ enough,
    runInputs reminders (handleOneByOne smallKeys reminders fuel) [.record (some 1) 0 0,.record (some 2) 0 0,.watermark 7 0] opened =
      runInputs reminders (fun o input => some (o.handle smallKeys reminders input))
        [.record (some 1) 0 0,.record (some 2) 0 0,.watermark 7 0] opened := by
  refine (timers_fire_one_by_one smallKeys reminders smallKeys_lawful.readable opened (fun _ _ found => absurd found (by simp [opened,
    MemoryStateBackend.init])) [.record (some 1) 0 0,.record (some 2) 0 0,.watermark 7 0] ⟨trivial,?_⟩).1
  rintro _ ⟨⟩
  refine ⟨trivial,?_⟩
  rintro _ ⟨⟩
  let reminder (number : Fin 256) : Bytes × Bytes := ([101,0,0,0,0,0,0,0,5] ++ smallPair (some number) none,smallPair (some number) none)
  have waiting : ((opened.handle smallKeys reminders (.record (some 1) 0 0)).operator.handle smallKeys reminders
      (.record (some 2) 0 0)).operator.due 7 = [reminder 1,reminder 2] := by decide +kernel
  refine ⟨⟨fun reached => absurd reached (by decide +kernel),fun item listed => ?_,fun _ events popped => ?_⟩,fun _ _ => trivial⟩
  · obtain rfl | rfl := mem_pair.mp (waiting ▸ listed)
    · exact ⟨5,some 1,none,.eventTime,by decide +kernel,by decide +kernel⟩
    · exact ⟨5,some 2,none,.eventTime,by decide +kernel,by decide +kernel⟩
  obtain rfl : [⟨5,some 1,none,.eventTime⟩,⟨5,some 2,none,.eventTime⟩] = events := Except.ok.inj (.trans (by decide +kernel) popped)
  exact ⟨⟨.inr (by decide),trivial⟩,⟨.inr (by decide),trivial⟩,trivial⟩

def deadlines : KeyedCallbacks (Option (Fin 256)) (Option (Fin 256)) Unit (Option (Fin 256)) where
  keyAndTimestamp := fun key => .ok (key,none)
  processManagedElement := fun _ _ => (ask (.registerTimer 5 none .eventTime)).bind
    (fun _ => ask (.registerTimer 6 none .eventTime))
  onTimer := fun event => if event.timestamp = 5 then ask (.deleteTimer 6 none .eventTime) else .ret ()
  ttlCleanupBatchSize := 1
  shouldIgnoreException := fun _ => false

/-- A watermark that passes both fires the one that was deleted before its turn. -/
theorem deleted_timer_fires : ¬ ∀ inputs : List (OperatorInput (Option (Fin 256))), ∃ enough, ∀ fuel ≥ enough,
    runInputs deadlines (handleOneByOne smallKeys deadlines fuel) inputs opened =
      runInputs deadlines (fun o input => some (o.handle smallKeys deadlines input)) inputs opened := by
  intro alike
  obtain ⟨enough,same⟩ := alike [.record (some 1) 0 0,.watermark 10 0]
  have one : (runInputs deadlines (handleOneByOne smallKeys deadlines (enough + 2)) [.record (some 1) 0 0,.watermark 10 0]
      opened).map Prod.fst = some [[],[⟨5,some 1,none,.eventTime⟩]] := rfl
  have both : (runInputs deadlines (fun o input => some (o.handle smallKeys deadlines input))
      [.record (some 1) 0 0,.watermark 10 0] opened).map Prod.fst =
        some [[],[⟨5,some 1,none,.eventTime⟩,⟨6,some 1,none,.eventTime⟩]] := by decide +kernel
  rw [same (enough + 2) (by omega),both] at one
  exact absurd one (by decide)

end examples

end KeyedOperator
end Klein.State
