import Klein.Dict
import Klein.Message

/-! The rescale of a retained actor (`prepare_runtime_rescale`, `commit_runtime_rescale`,
`rollback_runtime_rescale` and `resume_rescale` of `runtime/worker/stream_task.py`). The
first three hold one lock across their awaits, so a call is a step or a step for each
part between two awaits. Failures other than those of `_build_runtime` and the checks,
and the topology transaction that only other roles take part in, are left out. -/
namespace Klein.RuntimeRescale

inductive OperatorType where
  | source
  | oneInput
  | twoInput
  | sink
  | collect
  | reduce
deriving DecidableEq, Repr

inductive OperatorSpec where
  | mk (id : Int) (name : String) (operatorType : OperatorType) (classModule classQualname : String) (ownsState : Bool)
      (children : List OperatorSpec)

mutual
/-- Equality of `_operator_runtime_identity` -/
def OperatorSpec.sameRuntimeIdentity : OperatorSpec → OperatorSpec → Bool
  | .mk id name operatorType classModule classQualname ownsState children,
    .mk id' name' operatorType' classModule' classQualname' ownsState' children' =>
    decide ((id,name,operatorType,classModule,classQualname,ownsState) =
        (id',name',operatorType',classModule',classQualname',ownsState')) &&
      OperatorSpec.sameRuntimeIdentities children children'

def OperatorSpec.sameRuntimeIdentities : List OperatorSpec → List OperatorSpec → Bool
  | [],[] => true
  | first::rest,first'::rest' => first.sameRuntimeIdentity first' && OperatorSpec.sameRuntimeIdentities rest rest'
  | _,_ => false
end

def OperatorSpec.source : OperatorSpec → Bool
  | .mk _ _ operatorType _ _ _ _ => operatorType = .source

mutual
def OperatorSpec.stateful : OperatorSpec → Bool
  | .mk _ _ _ _ _ ownsState children => ownsState || OperatorSpec.anyStateful children

def OperatorSpec.anyStateful : List OperatorSpec → Bool
  | [] => false
  | first::rest => first.stateful || OperatorSpec.anyStateful rest
end

structure OutputEdgeDescriptor where
  targetTaskNames : List String
  controlTargetIndices : List Nat
  topologyEpoch : Option String
deriving DecidableEq, Repr

structure TaskDeploymentDescriptor where
  operator : OperatorSpec
  vertexId : ExecutionVertexId
  taskName : String
  taskGeneration : String
  taskIndex : Nat
  parallelism : Int
  jobNamespace : String
  outEdges : List OutputEdgeDescriptor
  inputVertexIds : List ExecutionVertexId
  inputChannels : Option (List DeliveryChannel)
  restoreOperationId : Option String

/-- Equality of `_runtime_rescale_descriptor_identity` -/
def TaskDeploymentDescriptor.sameIdentity (first second : TaskDeploymentDescriptor) : Bool :=
  decide ((first.vertexId,first.taskName,first.taskGeneration,first.taskIndex) =
      (second.vertexId,second.taskName,second.taskGeneration,second.taskIndex)) &&
    decide ((first.parallelism,first.jobNamespace,first.restoreOperationId) =
      (second.parallelism,second.jobNamespace,second.restoreOperationId)) &&
    first.operator.sameRuntimeIdentity second.operator &&
    decide ((first.inputVertexIds,first.inputChannels,first.outEdges) =
      (second.inputVertexIds,second.inputChannels,second.outEdges))

structure TaskRuntime where
  number : Nat
  operation : Option String
  descriptor : TaskDeploymentDescriptor

structure RuntimeRescaleTransaction where
  operationId : String
  previous : TaskRuntime
  pending : TaskRuntime

inductive RuntimeRescaleOutcome where
  | committed
  | rolledBack
deriving DecidableEq, Repr

inductive Role where
  | replacement
  | upstream
  | target
  | downstream
deriving DecidableEq, Repr

inductive TaskError where
  | runtimeError (message : String)
  | valueError (message : String)
  | buildError
deriving DecidableEq, Repr

inductive Call where
  | prepare
  | commit
  | rollback
  | resume
deriving DecidableEq, Repr

def Role.text : Role → String
  | .replacement => "replacement"
  | .upstream => "upstream"
  | .target => "target"
  | .downstream => "downstream"

structure Answer where
  call : Call
  operationId : String
  result : Except TaskError Bool
  left : Option String

inductive Awaiting where
  | building (operationId : String) (descriptor : TaskDeploymentDescriptor) (previous : TaskRuntime)
  | discarding (operationId : String) (pending : TaskRuntime)
  | closing (operationId : String)

/-- The actor. `built`, `installed`, `closed`, `entered`, `untouched` and `answers` are
ghosts: every runtime built, those that were ever active, those closed again, the
operations entered, those whose rollback was acknowledged while nothing was prepared,
and the answers given. -/
structure StreamTask where
  vertexId : ExecutionVertexId
  taskName : String
  taskGeneration : String
  descriptor : TaskDeploymentDescriptor
  running : Bool
  activeRuntime : Option TaskRuntime
  runtimeRescaleOutcomes : Dict String RuntimeRescaleOutcome
  runtimeRescaleTransaction : Option RuntimeRescaleTransaction
  runtimeRescalePreparing : Option String
  runtimeRescaleLock : Option Awaiting
  retiredRuntimes : List TaskRuntime
  rescaleOperationId : Option String
  rescaleRole : Option Role
  rescaleReady : Bool
  rescaleTombstones : List String
  built : List TaskRuntime
  installed : List TaskRuntime
  closed : List TaskRuntime
  entered : List String
  untouched : List String
  answers : List Answer

def retiredRuntimeLimit : Nat := 8
def outcomeLimit : Nat := 16
def tombstoneLimit : Nat := 16

def initial (descriptor : TaskDeploymentDescriptor) : StreamTask :=
  let runtime : TaskRuntime := ⟨0,none,descriptor⟩
  { vertexId := descriptor.vertexId
    taskName := descriptor.taskName
    taskGeneration := descriptor.taskGeneration
    descriptor
    running := true
    activeRuntime := some runtime
    runtimeRescaleOutcomes := ∅
    runtimeRescaleTransaction := none
    runtimeRescalePreparing := none
    runtimeRescaleLock := none
    retiredRuntimes := []
    rescaleOperationId := none
    rescaleRole := none
    rescaleReady := false
    rescaleTombstones := []
    built := [runtime]
    installed := [runtime]
    closed := []
    entered := []
    untouched := []
    answers := [] }

namespace StreamTask
variable (task : StreamTask)

def answer (call : Call) (operationId : String) (result : Except TaskError Bool) : StreamTask :=
  {task with answers := task.answers ++
    [⟨call,operationId,result,task.runtimeRescaleTransaction.map RuntimeRescaleTransaction.operationId⟩]}

/-- `_remember_runtime_rescale_outcome` -/
def rememberRuntimeRescaleOutcome (operationId : String) (outcome : RuntimeRescaleOutcome) : StreamTask :=
  let outcomes := task.runtimeRescaleOutcomes.set operationId outcome
  {task with runtimeRescaleOutcomes := outcomes.dropFirst (outcomes.entries.length - outcomeLimit)}

/-- `_validate_runtime_rescale_descriptor` -/
def validateRuntimeRescaleDescriptor (descriptor : TaskDeploymentDescriptor) (operationId : String) :
    Except TaskError Unit :=
  let current := task.descriptor
  if descriptor.vertexId ≠ task.vertexId then .error (.valueError "a retained task must keep its execution vertex id")
  else if descriptor.taskName ≠ task.taskName then
    .error (.valueError "a retained task must keep its Ray actor name")
  else if descriptor.taskGeneration ≠ task.taskGeneration then
    .error (.valueError "a retained task must keep its task generation")
  else if descriptor.taskIndex ≠ current.taskIndex then
    .error (.valueError "a retained task must keep its subtask index")
  else if descriptor.jobNamespace ≠ current.jobNamespace then
    .error (.valueError "a retained task cannot move to another job namespace")
  else if ¬ descriptor.operator.sameRuntimeIdentity current.operator then
    .error (.valueError "runtime rescale cannot replace the retained task's operator")
  else if descriptor.operator.source then
    .error (.valueError "source operators cannot prepare a retained runtime")
  else if descriptor.parallelism ≤ 0 then .error (.valueError "runtime rescale parallelism must be positive")
  else if descriptor.operator.stateful ∧ descriptor.restoreOperationId ≠ some operationId then
    .error (.valueError "a managed-state runtime must restore the active rescale cut")
  else .ok ()

/-- `_validate_existing_runtime_rescale` -/
def validateExistingRuntimeRescale (transaction : RuntimeRescaleTransaction) (operationId : String)
    (descriptor : TaskDeploymentDescriptor) : Except TaskError Bool :=
  if transaction.operationId ≠ operationId then
    .error (.runtimeError ("runtime rescale " ++ transaction.operationId ++ " is already prepared"))
  else if ¬ transaction.pending.descriptor.sameIdentity descriptor then
    .error (.valueError ("runtime rescale " ++ operationId ++ " was retried with a different descriptor"))
  else .ok true

def checkPreparation (operationId : String) (descriptor : TaskDeploymentDescriptor) : Except TaskError TaskRuntime :=
  if task.rescaleOperationId ≠ some operationId ∨ task.rescaleRole ≠ some .target then
    .error (.runtimeError (task.taskName ++ " is not an old target of rescale " ++ operationId))
  else if ¬ task.rescaleReady then .error (.runtimeError (task.taskName ++ " has not reached the rescale cut"))
  else
    match task.running,task.activeRuntime with
    | true,some previous => (task.validateRuntimeRescaleDescriptor descriptor operationId).map (fun _ => previous)
    | _,_ => .error (.runtimeError (task.taskName ++ " has no live runtime to retain"))

def capacityMessage : String :=
  task.taskName ++ " has " ++ toString retiredRuntimeLimit ++ " retired runtimes awaiting cleanup; " ++
    "rejecting rescale until cleanup catches up"

/-- `prepare_runtime_rescale`, up to the building of the pending runtime -/
def prepareRuntimeRescale (operationId : String) (descriptor : TaskDeploymentDescriptor) : StreamTask :=
  match task.runtimeRescaleOutcomes.get? operationId with
  | some outcome => task.answer .prepare operationId (.ok (outcome = .committed))
  | none =>
    match task.runtimeRescaleTransaction with
    | some transaction =>
      task.answer .prepare operationId (validateExistingRuntimeRescale transaction operationId descriptor)
    | none =>
      match task.runtimeRescalePreparing with
      | some other => task.answer .prepare operationId
          (.error (.runtimeError ("runtime rescale " ++ other ++ " is already being prepared")))
      | none =>
        if retiredRuntimeLimit ≤ task.retiredRuntimes.length then
          task.answer .prepare operationId (.error (.runtimeError task.capacityMessage))
        else
          match task.checkPreparation operationId descriptor with
          | .error error =>
            (task.rememberRuntimeRescaleOutcome operationId .rolledBack).answer .prepare operationId (.error error)
          | .ok previous => {task with
              runtimeRescalePreparing := some operationId
              runtimeRescaleLock := some (.building operationId descriptor previous)}

def abandonPreparation (operationId : String) (error : TaskError) : StreamTask :=
  ({task with runtimeRescalePreparing := none,runtimeRescaleLock := none}.rememberRuntimeRescaleOutcome operationId
    .rolledBack).answer .prepare operationId (.error error)

/-- `_build_runtime` returned or raised. -/
def runtimeBuilt (succeeds : Bool) : Option StreamTask :=
  match task.runtimeRescaleLock with
  | some (.building operationId descriptor previous) =>
    if succeeds then
      let pending : TaskRuntime := ⟨task.built.length,some operationId,descriptor⟩
      let built := {task with built := task.built ++ [pending]}
      if task.activeRuntime.map TaskRuntime.number ≠ some previous.number then
        some {built with runtimeRescaleLock := some (.discarding operationId pending)}
      else some ({built with
        runtimeRescaleTransaction := some ⟨operationId,previous,pending⟩
        runtimeRescalePreparing := none
        runtimeRescaleLock := none}.answer .prepare operationId (.ok true))
    else some (task.abandonPreparation operationId .buildError)
  | _ => none

def pendingDiscarded : Option StreamTask :=
  match task.runtimeRescaleLock with
  | some (.discarding operationId pending) =>
    some ({task with closed := task.closed ++ [pending]}.abandonPreparation operationId
      (.runtimeError (task.taskName ++ "'s active runtime changed while preparing rescale")))
  | _ => none

/-- `_install_runtime` -/
def installRuntime (runtime : TaskRuntime) : StreamTask :=
  {task with
    descriptor := runtime.descriptor
    activeRuntime := some runtime
    installed := task.installed ++ [runtime]}

/-- `_retire_runtime` -/
def retireRuntime (runtime : TaskRuntime) : Except TaskError StreamTask :=
  if runtime.number ∈ task.retiredRuntimes.map TaskRuntime.number then .ok task
  else if retiredRuntimeLimit ≤ task.retiredRuntimes.length then
    .error (.runtimeError "retired runtime cleanup queue is full after rescale admission")
  else .ok {task with retiredRuntimes := task.retiredRuntimes ++ [runtime]}

def publishTransaction (transaction : RuntimeRescaleTransaction) (operationId : String) : StreamTask :=
  {task.installRuntime transaction.pending with
    runtimeRescaleTransaction := none}.rememberRuntimeRescaleOutcome operationId .committed

/-- `commit_runtime_rescale` -/
def commitRuntimeRescale (operationId : String) : StreamTask :=
  match task.runtimeRescaleOutcomes.get? operationId,task.runtimeRescaleTransaction with
  | some outcome,_ => task.answer .commit operationId (.ok (outcome = .committed))
  | none,none => task.answer .commit operationId
      (.error (.runtimeError ("runtime rescale " ++ operationId ++ " has not been prepared")))
  | none,some transaction =>
    if transaction.operationId ≠ operationId then task.answer .commit operationId
      (.error (.runtimeError ("runtime rescale " ++ operationId ++ " has not been prepared")))
    else if task.activeRuntime.map TaskRuntime.number ≠ some transaction.previous.number then
      task.answer .commit operationId
        (.error (.runtimeError (task.taskName ++ "'s previous runtime is no longer active")))
    else
      let committed := task.publishTransaction transaction operationId
      match committed.retireRuntime transaction.previous with
      | .error error => committed.answer .commit operationId (.error error)
      | .ok retired => retired.answer .commit operationId (.ok true)

/-- `rollback_runtime_rescale`, up to the closing of the pending runtime -/
def rollbackRuntimeRescale (operationId : String) : StreamTask :=
  match task.runtimeRescaleOutcomes.get? operationId,task.runtimeRescaleTransaction with
  | some outcome,_ => task.answer .rollback operationId (.ok (outcome = .rolledBack))
  | none,none => {task with untouched := task.untouched ++ [operationId]}.answer .rollback operationId (.ok true)
  | none,some transaction =>
    if transaction.operationId ≠ operationId then task.answer .rollback operationId
      (.error (.runtimeError ("runtime rescale " ++ transaction.operationId ++ " is already prepared")))
    else {task with runtimeRescaleLock := some (.closing operationId)}

def pendingClosed : Option StreamTask :=
  match task.runtimeRescaleLock,task.runtimeRescaleTransaction with
  | some (.closing operationId),some transaction =>
    some (({task with
      closed := task.closed ++ [transaction.pending]
      runtimeRescaleTransaction := none
      runtimeRescaleLock := none}.rememberRuntimeRescaleOutcome operationId .rolledBack).answer .rollback operationId
        (.ok true))
  | _,_ => none

/-- `_begin_rescale` -/
def beginRescale (operationId : String) (role : Role) : Except TaskError StreamTask :=
  match task.rescaleOperationId with
  | some current =>
    if current = operationId then
      if task.rescaleRole ≠ some role then
        .error (.runtimeError (task.taskName ++ " already participates in rescale " ++ operationId ++ " as " ++
          (task.rescaleRole.map Role.text).getD "None"))
      else .ok task
    else .error (.runtimeError (task.taskName ++ " already participates in rescale " ++ current))
  | none => .ok {task with rescaleOperationId := some operationId,rescaleRole := some role,rescaleReady := false}

/-- `_clear_rescale` -/
def clearRescale : StreamTask :=
  let tombstones := task.rescaleTombstones ++ task.rescaleOperationId.toList
  {task with
    rescaleTombstones := tombstones.drop (tombstones.length - tombstoneLimit)
    rescaleOperationId := none
    rescaleRole := none
    rescaleReady := false}

/-- `resume_rescale` -/
def resumeRescale (operationId : String) : StreamTask :=
  if operationId ∈ task.rescaleTombstones ∨ task.rescaleOperationId = none then
    task.answer .resume operationId (.ok true)
  else if task.rescaleOperationId ≠ some operationId then task.answer .resume operationId (.ok false)
  else if task.runtimeRescalePreparing = some operationId then task.answer .resume operationId
    (.error (.runtimeError ("runtime rescale " ++ operationId ++ " is still being prepared")))
  else if ∃ transaction ∈ task.runtimeRescaleTransaction, transaction.operationId = operationId then
    task.answer .resume operationId (.error (.runtimeError
      ("runtime rescale " ++ operationId ++ " must be committed or rolled back before resume")))
  else task.clearRescale.answer .resume operationId (.ok true)

end StreamTask

/-- The calls, the ends of their awaits, and what goes on around them: the actor enters
a rescale, its fence has aligned, or a retired runtime has been closed. -/
inductive Action where
  | prepare (operationId : String) (descriptor : TaskDeploymentDescriptor)
  | built (succeeds : Bool)
  | discarded
  | commit (operationId : String)
  | rollback (operationId : String)
  | closed
  | resume (operationId : String)
  | enter (operationId : String) (role : Role)
  | fenced
  | cleaned (position : Nat)

def Action.operationId : Action → Option String
  | .prepare operationId _ => some operationId
  | .commit operationId => some operationId
  | .rollback operationId => some operationId
  | .resume operationId => some operationId
  | .enter operationId _ => some operationId
  | _ => none

/-- The job master enters an operation at an actor once; calls other than `resume`
wait for the lock. -/
def step (task : StreamTask) : Action → Option StreamTask
  | .prepare operationId descriptor =>
    if task.runtimeRescaleLock.isNone then some (task.prepareRuntimeRescale operationId descriptor) else none
  | .built succeeds => task.runtimeBuilt succeeds
  | .discarded => task.pendingDiscarded
  | .commit operationId =>
    if task.runtimeRescaleLock.isNone then some (task.commitRuntimeRescale operationId) else none
  | .rollback operationId =>
    if task.runtimeRescaleLock.isNone then some (task.rollbackRuntimeRescale operationId) else none
  | .closed => task.pendingClosed
  | .resume operationId => some (task.resumeRescale operationId)
  | .enter operationId role =>
    if operationId ∈ task.entered then none
    else
      match task.beginRescale operationId role with
      | .error _ => none
      | .ok next => some {next with entered := task.entered ++ [operationId]}
  | .fenced => some {task with rescaleReady := true}
  | .cleaned position =>
    match task.retiredRuntimes[position]? with
    | none => none
    | some runtime => some {task with
        retiredRuntimes := task.retiredRuntimes.eraseIdx position
        closed := task.closed ++ [runtime]}

end Klein.RuntimeRescale
