import Klein.Dataflow.RecordRouter

/-! One output edge of a task (`edge_output.py`, `downstream_batcher.py`) and the output
of a task over its edges (`task_output.py`). What an inline send comes to is read off a
list of outcomes; the clock of a batch is the argument `idle` of a flush. -/
namespace Klein.Dataflow
open Effects Function List

inductive DeliveryMode where
  | inline
  | pipelined
deriving DecidableEq, Repr

/-- `γ` are barriers and event-time controls. -/
inductive EdgeCommand (β γ : Type) where
  | data (target : Nat) (retryRing : List Nat) (records : List (Record β))
  | barrier (barrier : γ)
  | control (control : γ)

inductive EdgeInput (β γ : Type) where
  | record (record : Record β)
  | barrier (barrier : γ)
  | control (control : γ)

structure EdgeSettings (π β : Type) where
  taskName : String
  router : RecordRouter π β
  bufferLimit : Nat
  bufferByteLimit : Nat
  batchSize : Nat
  batchMaxRows : Option Nat
  batchMaxBytes : Option Nat
  deliveryMode : DeliveryMode

/-- `sent` are the commands that inline sends have delivered. -/
structure EdgeOutput (π β γ : Type) where
  cursor : π
  batches : Nat → List (Record β)
  pending : List (EdgeCommand β γ)
  bufferedRows : Nat
  bufferedBytes : Nat
  outcomes : List (Option String)
  sent : List (EdgeCommand β γ)

def rowsOf {β : Type} (records : List (Record β)) : Nat := (records.map Record.rows).sum

def bytesOf {β : Type} (ops : BlockOps β) (records : List (Record β)) : Nat := (records.map ops.retainedSize).sum

namespace EdgeOutput
variable {π β γ : Type}

def init (cursor : π) (outcomes : List (Option String)) : EdgeOutput π β γ := ⟨cursor,fun _ => [],[],0,0,outcomes,[]⟩

variable (ops : RouteOps β) (settings : EdgeSettings π β)

def reserve (record : Record β) : EStateM String (EdgeOutput π β γ) PUnit := fun edge =>
  let nextRows := edge.bufferedRows + record.rows
  let nextBytes := edge.bufferedBytes + ops.retainedSize record
  let hasBufferedOutput := 0 < edge.bufferedRows ∨ 0 < edge.bufferedBytes
  if hasBufferedOutput ∧ settings.bufferLimit < nextRows then
    .error (settings.taskName ++ " output edge would retain " ++ toString nextRows ++ " rows, above configured " ++
      "pipeline.output-buffer.max-rows=" ++ toString settings.bufferLimit) edge
  else if hasBufferedOutput ∧ settings.bufferByteLimit < nextBytes then
    .error (settings.taskName ++ " output edge would retain " ++ toString nextBytes ++ " bytes, above configured " ++
      "pipeline.output-buffer.max-bytes=" ++ toString settings.bufferByteLimit) edge
  else .ok ⟨⟩ {edge with
    bufferedRows := nextRows
    bufferedBytes := nextBytes}

def release (records : List (Record β)) : EStateM String (EdgeOutput π β γ) PUnit := fun edge =>
  let released := {edge with
    bufferedRows := edge.bufferedRows - rowsOf records
    bufferedBytes := edge.bufferedBytes - bytesOf ops.toBlockOps records}
  if edge.bufferedRows < rowsOf records then .error "output edge row accounting became negative" released
  else if edge.bufferedBytes < bytesOf ops.toBlockOps records then
    .error "output edge byte accounting became negative" released
  else .ok ⟨⟩ released

/-- `DownstreamBatcher.append` -/
def append (target : Nat) (record : Record β) : EStateM String (EdgeOutput π β γ) PUnit := fun edge =>
  .ok ⟨⟩ {edge with batches := Function.update edge.batches target (edge.batches target ++ [record])}

def batchFull (batch : List (Record β)) : Bool :=
  max 1 settings.batchSize ≤ batch.length ∨ settings.batchMaxRows.any (fun limit => limit ≤ rowsOf batch) ∨
    settings.batchMaxBytes.any (fun limit => limit ≤ bytesOf ops.toBlockOps batch)

/-- `DownstreamBatcher.take_full` -/
def takeFull (target : Nat) : EStateM String (EdgeOutput π β γ) (List (Record β)) := fun edge =>
  let batch := edge.batches target
  if batchFull ops settings batch then .ok batch {edge with batches := Function.update edge.batches target []}
  else .ok [] edge

/-- One inline send of `DownstreamSender`. -/
def sendSync (command : EdgeCommand β γ) : EStateM String (EdgeOutput π β γ) PUnit := fun edge =>
  match edge.outcomes with
  | some text::rest => .error text {edge with outcomes := rest}
  | _ => .ok ⟨⟩ {edge with
    outcomes := edge.outcomes.tail
    sent := edge.sent ++ [command]}

def bufferCommands (commands : List (EdgeCommand β γ)) : EStateM String (EdgeOutput π β γ) PUnit := fun edge =>
  .ok ⟨⟩ {edge with pending := edge.pending ++ commands}

/-- `_dispatch_or_buffer` of one command, the loop body of `_dispatch_data_commands`. -/
def dispatchOrBuffer (command : EdgeCommand β γ) : EStateM String (EdgeOutput π β γ) PUnit :=
  match settings.deliveryMode with
  | .pipelined => bufferCommands [command]
  | .inline => do
    sendSync command
    match command with
    | .data _ _ records => release ops records
    | _ => pure ⟨⟩

def dispatchDataCommands (commands : List (EdgeCommand β γ)) : EStateM String (EdgeOutput π β γ) PUnit :=
  forM commands (dispatchOrBuffer ops settings)

def takeIn : List (Nat × List Nat × Record β) → EStateM String (EdgeOutput π β γ) (List (EdgeCommand β γ))
  | [] => pure []
  | (target,ring,routed)::rest => do
    reserve ops settings routed
    append target routed
    let records ← takeFull ops settings target
    let ready ← takeIn rest
    return if records = [] then ready else .data target ring records::ready

def acceptRecord (record : Record β) : EStateM String (EdgeOutput π β γ) PUnit := do
  let edge ← get
  match settings.router.route ops edge.cursor record with
  | .error text => throw text
  | .ok (routes,cursor) =>
    set {edge with cursor}
    let ready ← takeIn ops settings routes.items
    match routes.raised with
    | some text => throw text
    | none => dispatchDataCommands ops settings ready

def drainTargets (due : Nat → Bool) : List Nat → EStateM String (EdgeOutput π β γ) (List (EdgeCommand β γ))
  | [] => pure []
  | target::rest => do
    let edge ← get
    let batch := edge.batches target
    if batch = [] ∨ ¬ due target then drainTargets due rest
    else
      set {edge with batches := Function.update edge.batches target []}
      match settings.router.retryRing target with
      | .error text => throw text
      | .ok ring =>
        let ready ← drainTargets due rest
        return .data target ring batch::ready

/-- `_drain_batcher`; a forced drain takes every batch. -/
def drainBatcher (due : Nat → Bool) : EStateM String (EdgeOutput π β γ) PUnit := do
  let ready ← drainTargets settings due (List.range settings.router.targetCount)
  dispatchDataCommands ops settings ready

def flush (force : Bool) (idle : Nat → Bool) : EStateM String (EdgeOutput π β γ) PUnit :=
  drainBatcher ops settings (fun target => force || idle target)

def accept : EdgeInput β γ → EStateM String (EdgeOutput π β γ) PUnit
  | .record record => acceptRecord ops settings record
  | .barrier barrier => do
    drainBatcher ops settings (fun _ => true)
    dispatchOrBuffer ops settings (.barrier barrier)
  | .control control => do
    drainBatcher ops settings (fun _ => true)
    dispatchOrBuffer ops settings (.control control)

/-- `take_pending_commands` -/
def takePendingCommands : EStateM String (EdgeOutput π β γ) (List (EdgeCommand β γ)) := do
  let edge ← get
  set {edge with pending := []}
  forM edge.pending (fun command => match command with
    | .data _ _ records => release ops records
    | _ => pure ⟨⟩)
  return edge.pending

section held
variable (holds : Record β → Prop)

def commandRecords : EdgeCommand β γ → List (Record β)
  | .data _ _ records => records
  | _ => []

structure Held (edge : EdgeOutput π β γ) : Prop where
  batches : ∀ target, ∀ record ∈ edge.batches target, holds record
  pending : ∀ command ∈ edge.pending, ∀ record ∈ commandRecords command, holds record
  sent : ∀ command ∈ edge.sent, ∀ record ∈ commandRecords command, holds record

theorem reserve_held (record : Record β) : Keeps (Held (π := π) (γ := γ) holds) (reserve ops settings record) := by
  intro edge held
  unfold reserve
  dsimp only
  split_ifs
  all_goals exact {held with}

theorem release_held (records : List (Record β)) : Keeps (Held (π := π) (γ := γ) holds) (release ops records) := by
  intro edge held
  unfold release
  split_ifs
  all_goals exact {held with}

theorem append_held (target : Nat) (record : Record β) (good : holds record) :
    Keeps (Held (π := π) (γ := γ) holds) (append target record) := by
  intro edge held
  refine ⟨fun other => ?_,held.pending,held.sent⟩
  dsimp only
  by_cases same : other = target
  · rw [same,update_self]
    exact forall_mem_append.mpr ⟨held.batches target,by simpa using good⟩
  · rw [update_of_ne same]
    exact held.batches other

theorem Held.empty (edge : EdgeOutput π β γ) (held : Held holds edge) (target : Nat) :
    Held holds {edge with batches := Function.update edge.batches target []} := by
  refine ⟨fun other => ?_,held.pending,held.sent⟩
  dsimp only
  by_cases same : other = target
  · rw [same,update_self]
    simp
  · rw [update_of_ne same]
    exact held.batches other

theorem takeFull_held (target : Nat) : Ensures (takeFull ops settings target) (Held (π := π) (γ := γ) holds)
    (fun records edge => Held holds edge ∧ ∀ record ∈ records, holds record) (fun _ => Held holds) := by
  intro edge held
  unfold takeFull
  dsimp only
  split_ifs
  · exact ⟨held.empty holds edge target,held.batches target⟩
  · exact ⟨held,by simp⟩

section
variable (command : EdgeCommand β γ) (good : ∀ record ∈ commandRecords command, holds record)
include good

theorem sendSync_held :
    Keeps (Held (π := π) holds) (sendSync command) := by
  rintro ⟨cursor,batches,pending,rows,bytes,outcomes,sent⟩ held
  have delivered := forall_mem_append.mpr ⟨held.sent,forall_mem_singleton.mpr good⟩
  rcases outcomes with _ | ⟨_ | text,rest⟩
  · exact {held with sent := delivered}
  · exact {held with sent := delivered}
  · exact {held with}

theorem dispatchOrBuffer_held :
    Keeps (Held (π := π) holds) (dispatchOrBuffer ops settings command) := by
  unfold dispatchOrBuffer
  split
  · intro edge held
    exact ⟨held.batches,forall_mem_append.mpr ⟨held.pending,by simpa using good⟩,held.sent⟩
  · refine Ensures.bind _ (sendSync_held holds command good) (fun _ => ?_)
    split
    · exact release_held ops holds _
    · exact Ensures.pure (fun _ here => here)

end

theorem dispatchDataCommands_held (commands : List (EdgeCommand β γ))
    (good : ∀ command ∈ commands, ∀ record ∈ commandRecords command, holds record) :
    Keeps (Held (π := π) holds) (dispatchDataCommands ops settings commands) :=
  Ensures.forM commands (fun command inside => dispatchOrBuffer_held ops settings holds command (good command inside))

theorem takeIn_held (items : List (Nat × List Nat × Record β)) (good : ∀ item ∈ items, holds item.2.2) :
    Ensures (takeIn ops settings items) (Held (π := π) (γ := γ) holds)
      (fun ready edge => Held holds edge ∧ ∀ command ∈ ready, ∀ record ∈ commandRecords command, holds record)
      (fun _ => Held holds) := by
  induction items with
  | nil => exact Ensures.pure (fun _ held => ⟨held,by simp⟩)
  | cons item rest ih =>
    obtain ⟨target,ring,routed⟩ := item
    obtain ⟨here,later⟩ := forall_mem_cons.mp good
    rw [takeIn]
    refine Ensures.bind _ (reserve_held ops settings holds routed) (fun _ => ?_)
    refine Ensures.bind _ (append_held holds target routed here) (fun _ => ?_)
    refine Ensures.bind _ (takeFull_held ops settings holds target) (fun records => ?_)
    intro edge taken
    refine Ensures.bind _ (ih later) (fun ready => ?_) edge taken.1
    refine Ensures.pure (fun edge held => ⟨held.1,?_⟩)
    split
    · exact held.2
    · exact forall_mem_cons.mpr ⟨taken.2,held.2⟩

theorem drainTargets_held (due : Nat → Bool) (targets : List Nat) :
    Ensures (drainTargets settings due targets) (Held (γ := γ) holds)
      (fun ready edge => Held holds edge ∧ ∀ command ∈ ready, ∀ record ∈ commandRecords command, holds record)
      (fun _ => Held holds) := by
  induction targets with
  | nil => exact Ensures.pure (fun _ held => ⟨held,by simp⟩)
  | cons target rest ih =>
    rw [drainTargets]
    refine Ensures.get (fun found held => ?_)
    dsimp only
    split
    · exact Ensures.weaken ih (fun _ same => same ▸ held) (fun _ _ here => here) (fun _ _ here => here)
    · refine Ensures.bind (fun _ => Held holds) ?_ (fun _ => ?_)
      · rintro _ rfl
        exact held.empty holds _ target
      · split
        · exact Ensures.throw (fun _ here => here)
        · refine Ensures.bind _ ih (fun ready => ?_)
          exact Ensures.pure (fun edge drained =>
            ⟨drained.1,forall_mem_cons.mpr ⟨held.batches target,drained.2⟩⟩)

theorem drainBatcher_held (due : Nat → Bool) : Keeps (Held (γ := γ) holds) (drainBatcher ops settings due) := by
  refine Ensures.bind _ (drainTargets_held settings holds due _) (fun ready => ?_)
  intro edge drained
  exact dispatchDataCommands_held ops settings holds ready drained.2 edge drained.1

theorem acceptRecord_held (record : Record β) (good : ∀ routed, RecordRouter.Slice ops record routed → holds routed) :
    Keeps (Held (γ := γ) holds) (acceptRecord ops settings record) := by
  unfold acceptRecord
  refine Ensures.get (fun found held => ?_)
  split
  · exact Ensures.throw (fun _ same => same ▸ held)
  next routes cursor routed =>
    have items := settings.router.route_items ops found.cursor cursor record routes routed
    refine Ensures.bind (fun _ => Held holds) ?_ (fun _ => ?_)
    · rintro _ rfl
      exact {held with}
    · refine Ensures.bind _
        (takeIn_held ops settings holds routes.items (fun item inside => good _ (items item inside))) (fun ready => ?_)
      intro edge taken
      cases routes.raised with
      | some text => exact taken.1
      | none => exact dispatchDataCommands_held ops settings holds ready taken.2 edge taken.1

theorem takePendingCommands_held : Ensures (takePendingCommands ops) (Held (π := π) (γ := γ) holds)
    (fun commands edge => Held holds edge ∧ ∀ command ∈ commands, ∀ record ∈ commandRecords command, holds record)
    (fun _ => Held holds) := by
  unfold takePendingCommands
  refine Ensures.get (fun found held => ?_)
  refine Ensures.bind (fun _ => Held holds) ?_ (fun _ => ?_)
  · rintro _ rfl
    exact ⟨held.batches,by simp,held.sent⟩
  · refine Ensures.bind (fun _ => Held holds) (Ensures.forM _ (fun command _ => ?_)) (fun _ => ?_)
    · split
      · exact release_held ops holds _
      · exact Ensures.pure (fun _ here => here)
    · exact Ensures.pure (fun _ here => ⟨here,held.pending⟩)

end held

end EdgeOutput
end Klein.Dataflow
