import Klein.Runs

/-! The buffered Redis sink: the task thread writes and flushes, the background thread
flushes in a loop, and a third thread closes the sink. Each step is what a thread does
between two looks at a lock, the condition or a shared flag. -/
namespace Klein.Redis
variable {ρ : Type}

structure Config where
  batchSize : Nat
  bufferCapacity : Nat
  maxRetries : Nat

inductive Thread where
  | task
  | background
  | closer
deriving DecidableEq

/-- How `pipeline.execute` ends; only a `RedisError` or an `OSError` is tried again. -/
inductive Outcome where
  | succeeds
  | fails (takesEffect : Bool) (retryable : Bool)
deriving DecidableEq

structure Chance where
  due : Bool
  outcome : Outcome

structure Execution (ρ : Type) where
  batch : List ρ
  succeeded : Bool
deriving DecidableEq

/-- `written` and `executions` are the history of the sink: the records whose write returned and
the batches that took effect at the server. -/
structure Sink (ρ : Type) where
  buffer : List ρ
  inflight : Nat
  flushLock : Option Thread
  stopEvent : Bool
  flushThread : Bool
  backgroundError : Bool
  pool : Bool
  written : List ρ
  executions : List (Execution ρ)

/-- A place in `_flush_available` behind its lock, in `_write_with_retries` and `_write_batch`. -/
inductive Flushing (ρ : Type) where
  | checking
  | attempting (attempt : Nat)
  | taken (attempt : Nat) (batch : List ρ)
  | executing (attempt : Nat) (batch : List ρ)
  | completing (batch : List ρ)
  | restoring (attempt : Nat) (batch : List ρ) (retry : Bool)
  | sleeping (attempt : Nat)
  | replacing (attempt : Nat)
  | leaving (raises : Bool)

/-- The next place, or how `_flush_available` ends. -/
inductive Next (π : Type) where
  | move (place : π)
  | returned
  | raised

section flush
variable (c : Config)

/-- `_should_flush` -/
def shouldFlush (force due : Bool) (s : Sink ρ) : Bool :=
  s.buffer.length > 0 && (force || c.batchSize ≤ s.buffer.length || due)

/-- `_take_batch` -/
def takeBatch (s : Sink ρ) : Sink ρ :=
  { s with
    buffer := s.buffer.drop c.batchSize
    inflight := (s.buffer.take c.batchSize).length }

/-- `_restore_batch` -/
def restoreBatch (batch : List ρ) (s : Sink ρ) : Sink ρ :=
  { s with
    buffer := batch ++ s.buffer
    inflight := 0 }

def effect (batch : List ρ) (succeeded : Bool) (s : Sink ρ) : Sink ρ :=
  { s with executions := s.executions ++ [⟨batch,succeeded⟩] }

def execute (attempt : Nat) (batch : List ρ) (s : Sink ρ) : Outcome → Sink ρ × Next (Flushing ρ)
  | .succeeds => (effect batch true s,.move (.completing batch))
  | .fails takesEffect retryable => (if takesEffect then effect batch false s else s,.move (.restoring attempt batch retryable))

def flushStep (force : Bool) (chance : Chance) (s : Sink ρ) : Flushing ρ → Sink ρ × Next (Flushing ρ)
  | .checking => (s,.move (if shouldFlush c force chance.due s then .attempting 0 else .leaving false))
  | .attempting attempt =>
    (takeBatch c s,.move (if s.buffer.take c.batchSize = [] then .checking else .taken attempt (s.buffer.take c.batchSize)))
  | .taken attempt batch => (s,.move (if s.pool then .executing attempt batch else .restoring attempt batch false))
  | .executing attempt batch => execute attempt batch s chance.outcome
  | .completing _ => ({ s with inflight := 0 },.move .checking)
  | .restoring attempt batch retry =>
    (restoreBatch batch s,.move (if retry = true ∧ attempt < c.maxRetries then .sleeping attempt else .leaving true))
  | .sleeping attempt => (s,.move (if s.stopEvent then .leaving true else .replacing attempt))
  | .replacing attempt => ({ s with pool := true },.move (.attempting (attempt + 1)))
  | .leaving raises => ({ s with flushLock := none },if raises then .raised else .returned)

/-- A place in `flush` behind its first look at the stored error. -/
inductive FlushCall (ρ : Type) where
  | lookingAtPool
  | unopened
  | acquiring
  | available (place : Flushing ρ)
  | ending

/-- `flush`; nothing while the lock is held. -/
def flushCall (thread : Thread) (chance : Chance) (s : Sink ρ) : FlushCall ρ → Option (Sink ρ × Next (FlushCall ρ))
  | .lookingAtPool => some (s,.move (if s.pool then .acquiring else .unopened))
  | .unopened => some (s,if s.buffer = [] then .returned else .raised)
  | .acquiring => if s.flushLock = none then some ({ s with flushLock := some thread },.move (.available .checking)) else none
  | .available place =>
    let (s,next) := flushStep c true chance s place
    some (s,match next with
      | .move place => .move (.available place)
      | .returned => .move .ending
      | .raised => .raised)
  | .ending => some (s,if s.backgroundError then .raised else .returned)

end flush

/-! ### Threads -/

structure Call (ρ : Type) where
  before : List ρ
  failed : Bool

inductive Task (ρ : Type) where
  | idle
  | writing (record : ρ) (call : Call ρ)
  | flushing (call : Call ρ) (place : FlushCall ρ)

inductive Background (ρ : Type) where
  | waiting
  | acquiring
  | flushing (place : Flushing ρ)
  | failing
  | ended

inductive Closer (ρ : Type) where
  | idle
  | flushing (place : FlushCall ρ)
  | stopping
  | joining (thread : Bool)
  | disconnecting

structure World (ρ : Type) where
  sink : Sink ρ
  task : Task ρ
  background : Background ρ
  closer : Closer ρ

inductive Label (ρ : Type) where
  | write (record : ρ)
  | flush
  | close
  | task (chance : Chance)
  | background (chance : Chance)
  | closer (chance : Chance)

inductive Event (ρ : Type) where
  | wrote (call : Call ρ)
  | writeRaised (call : Call ρ)
  | flushed (call : Call ρ)
  | flushRaised (call : Call ρ)

/-- The sink behind `open`. -/
def World.opened : World ρ where
  sink := ⟨[],0,none,false,true,false,true,[],[]⟩
  task := .idle
  background := .waiting
  closer := .idle

namespace World
variable (c : Config) (w : World ρ)

def call : Call ρ := ⟨w.sink.written,w.sink.backgroundError⟩

/-- `write` behind its look at the pool; nothing while it waits. -/
def writeStep (record : ρ) (call : Call ρ) : Option (World ρ × Option (Event ρ)) :=
  let s := w.sink
  if c.bufferCapacity ≤ s.buffer.length + s.inflight then
    if s.backgroundError || s.stopEvent then some ({ w with task := .idle },some (.writeRaised call)) else none
  else if s.backgroundError then some ({ w with task := .idle },some (.writeRaised call))
  else
    some ({ w with
      sink := { s with
        buffer := s.buffer ++ [record]
        written := s.written ++ [record] }
      task := .idle },some (.wrote call))

def taskStep (chance : Chance) : Option (World ρ × Option (Event ρ)) :=
  match w.task with
  | .idle => none
  | .writing record call => writeStep c w record call
  | .flushing call place =>
    (flushCall c .task chance w.sink place).map (fun result =>
      match result.2 with
      | .move place => ({ w with sink := result.1, task := .flushing call place },none)
      | .returned => ({ w with sink := result.1, task := .idle },some (.flushed call))
      | .raised => ({ w with sink := result.1, task := .idle },some (.flushRaised call)))

/-- `_flush_loop` -/
def backgroundStep (chance : Chance) : Option (World ρ) :=
  match w.background with
  | .waiting =>
    if w.sink.stopEvent then some { w with background := .ended }
    else if c.batchSize ≤ w.sink.buffer.length ∨ (w.sink.buffer ≠ [] ∧ chance.due = true) then some { w with background := .acquiring }
    else none
  | .acquiring =>
    if w.sink.flushLock = none then
      some { w with
        sink := { w.sink with flushLock := some .background }
        background := .flushing .checking }
    else none
  | .flushing place =>
    let (s,next) := flushStep c false chance w.sink place
    some { w with
      sink := s
      background := match next with
        | .move place => .flushing place
        | .returned => .waiting
        | .raised => .failing }
  | .failing =>
    some { w with
      sink := { w.sink with
        backgroundError := true
        stopEvent := true }
      background := .ended }
  | .ended => none

/-- `close`, which flushes first and goes on whatever comes of it. -/
def closerStep (chance : Chance) : Option (World ρ) :=
  match w.closer with
  | .idle => none
  | .flushing place =>
    (flushCall c .closer chance w.sink place).map (fun result =>
      match result.2 with
      | .move place => { w with sink := result.1, closer := .flushing place }
      | _ => { w with sink := result.1, closer := .stopping })
  | .stopping =>
    some { w with
      sink := { w.sink with
        stopEvent := true
        flushThread := false }
      closer := .joining w.sink.flushThread }
  | .joining thread =>
    match thread,w.background with
    | true,.ended => some { w with closer := .disconnecting }
    | true,_ => none
    | false,_ => some { w with closer := .disconnecting }
  | .disconnecting =>
    some { w with
      sink := { w.sink with pool := false }
      closer := .idle }

def step : Label ρ → Option (World ρ × Option (Event ρ))
  | .write record =>
    match w.task with
    | .idle => some (if w.sink.pool then ({ w with task := .writing record w.call },none) else (w,some (.writeRaised w.call)))
    | _ => none
  | .flush =>
    match w.task with
    | .idle =>
      some (if w.sink.backgroundError then (w,some (.flushRaised w.call)) else ({ w with task := .flushing w.call .lookingAtPool },none))
    | _ => none
  | .close =>
    match w.closer with
    | .idle => some ({ w with closer := if w.sink.backgroundError then .stopping else .flushing .lookingAtPool },none)
    | _ => none
  | .task chance => w.taskStep c chance
  | .background chance => (w.backgroundStep c chance).map (fun next => (next,none))
  | .closer chance => (w.closerStep c chance).map (fun next => (next,none))

end World

/-! ### What the claims are about -/

def succeeded (executions : List (Execution ρ)) : List ρ := (executions.filter Execution.succeeded).flatMap Execution.batch

def InOrder (written : List ρ) (executions : List (Execution ρ)) : Prop :=
  ∀ before execution after, executions = before ++ execution :: after →
    execution.batch <+: written.drop (succeeded before).length

structure Safe (c : Config) (s : Sink ρ) : Prop where
  bounded : s.buffer.length + s.inflight ≤ c.bufferCapacity
  /-- A written record was executed with success, or is of the batch in flight, or waits. -/
  kept : ∃ pending, s.written = succeeded s.executions ++ pending ++ s.buffer ∧ pending.length ≤ s.inflight
  inOrder : InOrder s.written s.executions

def Event.Honest (s : Sink ρ) : Event ρ → Prop
  | .wrote call => call.failed = false
  | .flushed call => call.failed = false ∧ call.before <+: succeeded s.executions
  | _ => True

/-- A call of `flush` raises at once, and one of `write` at once or with its next step,
whatever the other threads do before it. -/
structure Refuses (c : Config) (w : World ρ) : Prop where
  flush : w.task = .idle → w.step c .flush = some (w,some (.flushRaised w.call))
  write : ∀ record, w.task = .idle → w.step c (.write record) = some (w,some (.writeRaised w.call)) ∨
    w.step c (.write record) = some ({ w with task := .writing record w.call },none)
  writing : ∀ record call chance, w.task = .writing record call →
    w.step c (.task chance) = some ({ w with task := .idle },some (.writeRaised call))

end Klein.Redis
