import Klein.Graph.PhysicalRescale

/-! The record of an operator rescale (`runtime/job_manager/rescale_operation.py`): its
status and phase, the moves of the status that are allowed, and what a result changes. -/
namespace Klein.JobManager
open Graph.LogicalGraph List

inductive RescaleOperationStatus where
  | accepted | running | stabilizing | completed | noop | rejected | failed
deriving DecidableEq, Repr

namespace RescaleOperationStatus

def terminal : RescaleOperationStatus → Bool
  | completed | noop | rejected | failed => true
  | accepted | running | stabilizing => false

def value : RescaleOperationStatus → String
  | accepted => "ACCEPTED"
  | running => "RUNNING"
  | stabilizing => "STABILIZING"
  | completed => "COMPLETED"
  | noop => "NOOP"
  | rejected => "REJECTED"
  | failed => "FAILED"

end RescaleOperationStatus

inductive RescaleOperationPhase where
  | queued | coordinating | stabilizing | completed
deriving DecidableEq, Repr

def RescaleOperationPhase.rank : RescaleOperationPhase → Nat
  | queued => 0
  | coordinating => 1
  | stabilizing => 2
  | completed => 3

def allowedStatusTransitions : RescaleOperationStatus → List RescaleOperationStatus
  | .accepted => [.running,.failed]
  | .running => [.stabilizing,.noop,.rejected,.failed]
  | .stabilizing => [.completed,.failed]
  | .completed | .noop | .rejected | .failed => []

structure RescaleOperation where
  operationId : Nat
  operatorId : OperatorId
  operatorName : Option String
  previousParallelism : Option Nat
  targetParallelism : Int
  status : RescaleOperationStatus
  phase : RescaleOperationPhase
  error : Option String
deriving DecidableEq

/-- What `_rescale_result` reports of a rescale. -/
structure RescaleResult where
  operatorId : OperatorId
  operatorName : Option String
  previousParallelism : Option Nat
  targetParallelism : Int
  status : RescaleOperationStatus
  error : Option String

namespace RescaleOperation

/-- `RescaleOperation.accepted` -/
def admitted (operationId : Nat) (operatorId : OperatorId) (operatorName : String) (previousParallelism : Nat)
    (targetParallelism : Int) : RescaleOperation :=
  ⟨operationId,operatorId,some operatorName,some previousParallelism,targetParallelism,.accepted,.queued,none⟩

/-- `RescaleOperation.terminal`, for a status that is terminal. -/
def terminal (operationId : Nat) (operatorId : OperatorId) (operatorName : Option String) (previousParallelism : Option Nat)
    (targetParallelism : Int) (status : RescaleOperationStatus) (error : Option String) : RescaleOperation :=
  ⟨operationId,operatorId,operatorName,previousParallelism,targetParallelism,status,.completed,error⟩

variable (operation : RescaleOperation)

/-- `transition`; `error` is the new error where one is given. -/
def transition (status : RescaleOperationStatus) (phase : RescaleOperationPhase) (error : Option (Option String)) :
    Except String RescaleOperation :=
  if status ∉ allowedStatusTransitions operation.status then
    .error ("invalid rescale status transition " ++ operation.status.value ++ " -> " ++ status.value)
  else if phase.rank < operation.phase.rank then .error "rescale phase cannot move backward"
  else if status.terminal ∧ phase ≠ .completed then .error "a terminal rescale status requires the COMPLETED phase"
  else .ok {
    operation with
    status := status
    phase := phase
    error := error.getD operation.error}

/-- `merge_result` -/
def mergeResult (result : RescaleResult) : RescaleOperation :=
  {
    operation with
    operatorId := result.operatorId
    operatorName := result.operatorName
    previousParallelism := result.previousParallelism
    targetParallelism := result.targetParallelism
    error := result.error}

def phaseOf : RescaleOperationStatus → RescaleOperationPhase
  | .accepted => .queued
  | .running => .coordinating
  | .stabilizing => .stabilizing
  | .completed | .noop | .rejected | .failed => .completed

theorem transition_ok (status : RescaleOperationStatus) (error : Option (Option String))
    (phased : operation.phase = phaseOf operation.status) (allowed : status ∈ allowedStatusTransitions operation.status) :
    operation.transition status (phaseOf status) error = .ok {
      operation with
      status := status
      phase := phaseOf status
      error := error.getD operation.error} := by
  have forward : ¬ (phaseOf status).rank < operation.phase.rank := by
    rw [phased]
    cases from' : operation.status <;> rw [from'] at allowed <;> cases status <;> revert allowed <;> decide
  have ended : ¬ (status.terminal = true ∧ phaseOf status ≠ .completed) := by
    cases status <;> decide
  unfold transition
  rw [if_neg (not_not_intro allowed),if_neg forward,if_neg ended]

end RescaleOperation

def statusPaths : List (List RescaleOperationStatus) :=
  [[],[.noop],[.rejected],[.accepted],[.accepted,.running],[.accepted,.running,.noop],[.accepted,.running,.rejected],
    [.accepted,.running,.failed],[.accepted,.running,.stabilizing],[.accepted,.running,.stabilizing,.completed],
    [.accepted,.running,.stabilizing,.failed]]

theorem statusPaths_snoc (path : List RescaleOperationStatus) (last next : RescaleOperationStatus) (known : path ∈ statusPaths)
    (ends : path.getLast? = some last) (allowed : next ∈ allowedStatusTransitions last) (started : last ≠ .accepted ∨ next = .running) :
    path ++ [next] ∈ statusPaths := by
  unfold statusPaths at known
  simp only [mem_cons,not_mem_nil,or_false] at known
  rcases known with rfl | rfl | rfl | rfl | rfl | rfl | rfl | rfl | rfl | rfl | rfl
  case inl => cases ends
  all_goals
    obtain rfl := Option.some.inj ends
    cases next <;> revert allowed started <;> decide

theorem statusPaths_settled : ∀ path ∈ statusPaths, ∀ longer ∈ statusPaths, path <+: longer →
    path.getLast?.any RescaleOperationStatus.terminal = true → longer = path := by decide

end Klein.JobManager
