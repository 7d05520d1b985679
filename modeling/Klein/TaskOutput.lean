import Klein.DeliveryJournal
import Klein.Runs

/-! The output boundary of one task (`runtime/collector/task_output.py`). Its edges
are objects, numbered in the order they were built, which an edge swap exposes, keeps
or drops. Batches leave over an edge object, and the acknowledgements that downstream
tasks push back name an edge index, a target and a sequence. -/
namespace Klein
open DeliveryJournal Runs

inductive OutputError where
  | runtimeError (message : String)
  | valueError (message : String)
  | indexError
deriving DecidableEq, Repr

/-- The commands of an edge that carry batches; `target` is the lane they start on. -/
inductive EdgeCommand (ρ : Type) where
  | data (target : Nat) (records : List ρ)
  | replay (target : Nat) (sequence : Int) (records : List ρ)

def EdgeCommand.target {ρ : Type} : EdgeCommand ρ → Nat
  | .data target _ => target
  | .replay target _ _ => target

/-- A command that was handed to the sender, the target it tries now, and the
sequence of its request in flight. -/
structure Delivering (ρ : Type) where
  command : EdgeCommand ρ
  target : Nat
  request : Option Int

structure EdgeOutput (ρ : Type) where
  targetCount : Nat
  journal : DeliveryJournal ρ targetCount
  pending : List (EdgeCommand ρ)
  delivering : List (Delivering ρ)

/-- The arguments of `configure_replay`. -/
structure ReplayConfig where
  enabled : Bool
  senderVertexId : Option ExecutionVertexId
  maxBytes : Int
  senderTaskName : Option String
  topologyEpochs : Option (List (Option String))

/-- `tuple(topology_epochs or (None,) * len(edges))` -/
def ReplayConfig.epochs (config : ReplayConfig) (edgeCount : Nat) : List (Option String) :=
  match config.topologyEpochs with
  | none | some [] => List.replicate edgeCount none
  | some epochs => epochs

namespace EdgeOutput
variable {ρ : Type}

def new (ρ : Type) (targetCount : Nat) : EdgeOutput ρ := ⟨targetCount,DeliveryJournal.init ρ targetCount,[],[]⟩

/-- `ensure_quiescent`, as a test -/
def quiescent (edge : EdgeOutput ρ) : Bool :=
  edge.pending.isEmpty && edge.delivering.all (fun delivering => delivering.request.isNone)

def configureReplay (edge : EdgeOutput ρ) (config : ReplayConfig) (edgeIndex : Nat) (topologyEpoch : Option String) :
    Except JournalError (EdgeOutput ρ) :=
  (edge.journal.configure config.enabled config.senderVertexId config.maxBytes config.senderTaskName (some edgeIndex)
    topologyEpoch).map (fun journal => {edge with journal})

def acknowledge (edge : EdgeOutput ρ) (targetIndex : Nat) (forwardedSequence : Int) : Except OutputError (EdgeOutput ρ) :=
  if inside : targetIndex < edge.targetCount then
    .ok {edge with journal := edge.journal.acknowledge ⟨targetIndex,inside⟩ forwardedSequence}
  else .error .indexError

def recordDelivery (measure : RecordMeasure ρ) (edge : EdgeOutput ρ) (targetIndex : Nat) (records : List ρ)
    (sequence : Int) : Option (EdgeOutput ρ) :=
  if inside : targetIndex < edge.targetCount then
    (edge.journal.recordDelivery measure ⟨targetIndex,inside⟩ records sequence).toOption.map
      (fun journal => {edge with journal})
  else none

def pendingSequences (edge : EdgeOutput ρ) (targetIndex : Nat) : List Int :=
  if inside : targetIndex < edge.targetCount then edge.journal.pendingSequences ⟨targetIndex,inside⟩ else []

def forwarded (edge : EdgeOutput ρ) (targetIndex : Nat) : Int :=
  if inside : targetIndex < edge.targetCount then edge.journal.forwarded ⟨targetIndex,inside⟩ else -1

def sequence (edge : EdgeOutput ρ) (targetIndex : Nat) : Int :=
  if inside : targetIndex < edge.targetCount then edge.journal.sequence ⟨targetIndex,inside⟩ else 0

section operations
variable (edge next : EdgeOutput ρ) (targetIndex : Nat)

theorem mem_pendingSequences (wanted : Int) : wanted ∈ edge.pendingSequences targetIndex ↔
    ∃ inside : targetIndex < edge.targetCount, ∃ entry ∈ edge.journal.buffer ⟨targetIndex,inside⟩,
      entry.sequence = wanted := by
  unfold pendingSequences
  split
  next inside => simp [DeliveryJournal.mem_pendingSequences,inside]
  next outside => simp [outside]

theorem configureReplay_ok (config : ReplayConfig) (edgeIndex : Nat) (topologyEpoch : Option String)
    (configured : edge.configureReplay config edgeIndex topologyEpoch = .ok next) :
    next.pending = edge.pending ∧ next.delivering = edge.delivering ∧ next.sequence = edge.sequence ∧
      next.forwarded = edge.forwarded ∧ next.pendingSequences = edge.pendingSequences := by
  unfold configureReplay at configured
  cases done : edge.journal.configure config.enabled config.senderVertexId config.maxBytes config.senderTaskName
      (some edgeIndex) topologyEpoch with
  | error error => simp [done,Except.map] at configured
  | ok journal =>
    obtain ⟨sequences,buffers,marks⟩ := configure_ok _ _ _ _ _ _ _ _ done
    simp only [done,Except.map,Except.ok.injEq] at configured
    subst configured
    refine ⟨rfl,rfl,?_,?_,?_⟩
    · funext target
      simp only [sequence,sequences]
    · funext target
      simp only [forwarded,marks]
    · funext target
      simp only [pendingSequences,DeliveryJournal.pendingSequences,DeliveryJournal.pendingFor,buffers]

section acknowledge
variable (watermark : Int) (acknowledged : edge.acknowledge targetIndex watermark = .ok next)

include acknowledged in
theorem acknowledge_ok : next.pending = edge.pending ∧ next.delivering = edge.delivering ∧
    next.sequence = edge.sequence ∧
    next.journal.enabled = edge.journal.enabled ∧
    (∀ target, next.forwarded target = edge.forwarded target ∨ target = targetIndex ∧ next.forwarded target = watermark) ∧
    ∀ target wanted, wanted ∈ edge.pendingSequences target → (target = targetIndex → watermark < wanted) →
      wanted ∈ next.pendingSequences target := by
  unfold acknowledge at acknowledged
  split at acknowledged
  next inside =>
    cases acknowledged
    refine ⟨rfl,rfl,?_,by simp,fun target => ?_,fun target wanted member above => ?_⟩
    · funext target
      simp only [sequence,acknowledge_sequence]
    · by_cases within : target < edge.targetCount
      · simp only [forwarded,within,dif_pos]
        by_cases same : target = targetIndex
        · subst same
          unfold DeliveryJournal.acknowledge
          split
          · exact .inl rfl
          · exact .inr ⟨rfl,Function.update_self _ _ _⟩
        · exact .inl (acknowledge_other _ _ _ _ (by simpa using same)).1
      · simp [forwarded,within]
    · obtain ⟨within,entry,listed,rfl⟩ := (mem_pendingSequences edge target _).mp member
      refine (mem_pendingSequences _ target _).mpr ⟨within,?_⟩
      by_cases same : target = targetIndex
      · subst same
        refine (DeliveryJournal.mem_pendingSequences _ _ _).mp ?_
        exact acknowledge_keeps _ _ _ _ ((DeliveryJournal.mem_pendingSequences _ _ _).mpr
          ⟨entry,listed,rfl⟩) (above rfl)
      · have kept := (acknowledge_other edge.journal ⟨targetIndex,inside⟩ ⟨target,within⟩ watermark
          (by simpa using same)).2
        exact ⟨entry,kept ▸ listed,rfl⟩
  next => contradiction

include acknowledged in
theorem acknowledge_stale (stale : edge.journal.enabled = true → watermark ≤ edge.forwarded targetIndex) :
    next = edge := by
  unfold acknowledge at acknowledged
  split at acknowledged
  next inside =>
    cases acknowledged
    have unchanged : edge.journal.acknowledge ⟨targetIndex,inside⟩ watermark = edge.journal := by
      refine if_pos ?_
      by_cases on : edge.journal.enabled = true
      · have old := stale on
        simp only [forwarded,inside,dif_pos] at old
        exact .inr old
      · exact .inl on
    rw [unchanged]
  next => contradiction

end acknowledge

theorem recordDelivery_ok (measure : RecordMeasure ρ) (records : List ρ) (number : Int)
    (landed : edge.recordDelivery measure targetIndex records number = some next) :
    next.pending = edge.pending ∧ next.delivering = edge.delivering ∧ next.forwarded = edge.forwarded ∧
      (∀ target, next.sequence target = if target = targetIndex then number else edge.sequence target) ∧
      (∀ target wanted, wanted ∈ edge.pendingSequences target → wanted ∈ next.pendingSequences target) ∧
      (edge.journal.enabled = true → edge.forwarded targetIndex < number → number ∈ next.pendingSequences targetIndex) := by
  unfold recordDelivery at landed
  split at landed
  next inside =>
    obtain ⟨journal,done,rfl⟩ := Option.map_eq_some_iff.mp landed
    have committed : edge.journal.recordDelivery measure ⟨targetIndex,inside⟩ records number = .ok journal := by
      cases result : edge.journal.recordDelivery measure ⟨targetIndex,inside⟩ records number with
      | error error => simp [result,Except.toOption] at done
      | ok other => simpa [result,Except.toOption] using done
    obtain ⟨sequences,marks,-,kept⟩ := recordDelivery_frame measure _ _ _ _ _ committed
    refine ⟨rfl,rfl,?_,fun target => ?_,fun target wanted member => ?_,fun on above => ?_⟩
    · funext target
      simp only [forwarded,marks]
    · by_cases within : target < edge.targetCount
      · by_cases same : target = targetIndex
        · subst same
          simp [sequence,within,sequences]
        · simp [sequence,within,sequences,same]
      · have different : target ≠ targetIndex := by
          rintro rfl
          exact within inside
        simp [sequence,within,different]
    · obtain ⟨within,entry,listed,same⟩ := (mem_pendingSequences edge target wanted).mp member
      exact (mem_pendingSequences _ target wanted).mpr ⟨within,entry,kept _ _ listed,same⟩
    · simp only [forwarded,inside,dif_pos] at above
      obtain ⟨-,-,-,pending⟩ := DeliveryJournal.recordDelivery_ok measure _ _ _ _ _ on committed
      simp [pendingSequences,inside,pending,above]
  next => contradiction

end operations

end EdgeOutput

structure EdgeSwap where
  operationId : String
  previousEdges : List Nat
  replacementEdges : List Nat
  changedIndices : List Nat
  active : Bool
deriving DecidableEq

structure TaskOutput where
  edges : List Nat
  edgeSwap : Option EdgeSwap
deriving DecidableEq

namespace TaskOutput

def notPrepared (operationId : String) : OutputError :=
  .runtimeError ("edge swap " ++ operationId ++ " has not been prepared")

def notOwner (swap : EdgeSwap) (operationId : String) : OutputError :=
  .runtimeError ("edge swap " ++ swap.operationId ++ " does not belong to " ++ operationId)

def prepareEdgeSwap (output : TaskOutput) (quiescent : Nat → Bool) (operationId : String) (edges : List (Option Nat)) :
    Except OutputError TaskOutput :=
  match output.edgeSwap with
  | some swap =>
    if swap.operationId = operationId then .ok output
    else .error (.runtimeError ("edge swap " ++ swap.operationId ++ " is already prepared"))
  | none =>
    if edges.length ≠ output.edges.length then
      .error (.valueError "runtime rescale cannot change an operator's logical output edge count")
    else
      let changedIndices := (List.range edges.length).filter (fun index => ((edges[index]?).getD none).isSome)
      if ∃ index ∈ changedIndices, ∃ current ∈ output.edges[index]?, quiescent current = false then
        .error (.runtimeError "cannot replace an output edge while delivery is in flight")
      else .ok {output with edgeSwap := some {
        operationId
        previousEdges := output.edges
        replacementEdges := List.zipWith (fun current replacement => replacement.getD current) output.edges edges
        changedIndices
        active := false}}

def requireEdgeSwap (output : TaskOutput) (operationId : String) : Except OutputError EdgeSwap :=
  match output.edgeSwap with
  | none => .error (notPrepared operationId)
  | some swap => if swap.operationId ≠ operationId then .error (notOwner swap operationId) else .ok swap

def activateEdgeSwap (output : TaskOutput) (operationId : String) : Except OutputError TaskOutput :=
  match output.requireEdgeSwap operationId with
  | .error error => .error error
  | .ok swap =>
    if swap.active then .ok output
    else .ok ⟨swap.replacementEdges,some {swap with active := true}⟩

def rollbackEdgeSwap (output : TaskOutput) (operationId : String) : Except OutputError (TaskOutput × Bool) :=
  match output.edgeSwap with
  | none => .ok (output,false)
  | some swap =>
    if swap.operationId ≠ operationId then .error (notOwner swap operationId)
    else .ok (⟨if swap.active then swap.previousEdges else output.edges,none⟩,true)

def commitEdgeSwap (output : TaskOutput) (operationId : String) : Except OutputError (TaskOutput × Bool) :=
  match output.edgeSwap with
  | none => .ok (output,false)
  | some swap =>
    if swap.operationId ≠ operationId then .error (notOwner swap operationId)
    else if ¬ swap.active then .error (.runtimeError ("edge swap " ++ operationId ++ " has not been activated"))
    else .ok ({output with edgeSwap := none},true)

end TaskOutput

structure OutputEdges (ρ : Type) where
  objects : Nat → EdgeOutput ρ
  built : Nat
  output : TaskOutput

namespace OutputEdges
variable {ρ : Type}

def store (edges : OutputEdges ρ) (edge : Nat) (object : EdgeOutput ρ) : OutputEdges ρ :=
  {edges with objects := Function.update edges.objects edge object}

def build (edges : OutputEdges ρ) : List (Option Nat) → OutputEdges ρ × List (Option Nat)
  | [] => (edges,[])
  | none::rest =>
    let made := edges.build rest
    (made.1,none::made.2)
  | some targetCount::rest =>
    let made := build {edges with
      objects := Function.update edges.objects edges.built (EdgeOutput.new ρ targetCount)
      built := edges.built + 1} rest
    (made.1,some edges.built::made.2)

def configureEdges (edges : OutputEdges ρ) (config : ReplayConfig) :
    List (Nat × Option String) → Nat → Except JournalError (OutputEdges ρ)
  | [],_ => .ok edges
  | (edge,topologyEpoch)::rest,edgeIndex =>
    match (edges.objects edge).configureReplay config edgeIndex topologyEpoch with
    | .error error => .error error
    | .ok object => (edges.store edge object).configureEdges config rest (edgeIndex + 1)

def configureReplay (edges : OutputEdges ρ) (config : ReplayConfig) : Except JournalError (OutputEdges ρ) :=
  let epochs := config.epochs edges.output.edges.length
  if epochs.length ≠ edges.output.edges.length then
    .error (.valueError "topology epoch count must match output edge count")
  else edges.configureEdges config (edges.output.edges.zip epochs) 0

def acknowledgeDelivery (edges : OutputEdges ρ) (edgeIndex targetIndex : Nat) (forwardedSequence : Int) :
    Except OutputError (OutputEdges ρ) :=
  match edges.output.edges[edgeIndex]? with
  | none => .error .indexError
  | some edge => ((edges.objects edge).acknowledge targetIndex forwardedSequence).map (edges.store edge)

end OutputEdges
end Klein
