import Klein.JobManager.RescaleOperation
import Klein.Runs

/-! Rescale requests at the job manager (`runtime/job_manager/job_manager.py`). The methods
of the actor interleave at awaits: a step runs one of them from an await to the next one.
`submit_operator_rescale` has no await, `rescale_operator` sleeps between two polls or waits
for `_rescale_done`, and the task of the admitted operation waits for the lifecycle lock,
for the writer, for the progress reporter and for the coordinator. -/
namespace Klein.JobManager
open Klein.Graph LogicalGraph

inductive JobStatus where
  | created | submitting | deploying | initializing | running | finished | cancelled | failed
deriving DecidableEq, Repr

def JobStatus.isTerminal : JobStatus → Bool
  | .finished | .cancelled | .failed => true
  | .created | .submitting | .deploying | .initializing | .running => false

def JobStatus.name : JobStatus → String
  | .created => "CREATED"
  | .submitting => "SUBMITTING"
  | .deploying => "DEPLOYING"
  | .initializing => "INITIALIZING"
  | .running => "RUNNING"
  | .finished => "FINISHED"
  | .cancelled => "CANCELLED"
  | .failed => "FAILED"

structure Capabilities where
  stateful : Bool
  transactionalSink : Bool
  collecting : Bool
  supportsConcurrentRescale : Bool

structure Settings (ω : Type) where
  maxParallelism : Nat
  capabilities : ω → Capabilities

structure Request where
  operatorId : OperatorId
  parallelism : Int
deriving DecidableEq

/-- Where a call of `rescale_operator` is. -/
inductive Position where
  | waitingTerminal (operationId : Nat)
  | waitingDone (operationId : Nat) (woken : Bool)
  | returned (operation : RescaleOperation)
  | keyError (operationId : Nat)
  | hangs
deriving DecidableEq

/-- A call of `rescale_operator`; `own` is the operation of its last submission. -/
structure Call where
  request : Request
  own : Nat
  position : Position
deriving DecidableEq

inductive Holder where
  | free | rescale | other
deriving DecidableEq

variable {ω τ : Type} [OperatorRecipe ω]

inductive Stage (ω : Type) [OperatorRecipe ω] where
  | queued
  | writing (resized : LogicalGraph ω) (result : RescaleResult)
  | written (resized : LogicalGraph ω) (result : RescaleResult)
  | reporting (result : RescaleResult)
  | probing
  | sleeping
  | lastProbe

structure Task (ω : Type) [OperatorRecipe ω] where
  operationId : Nat
  key : Nat
  parallelism : Int
  stage : Stage ω

/-- The job manager with the graph of its job master and the calls that wait; `paths` is
what the status of each operation has been, and `invalid` whether an update of a record raised. -/
structure Manager (ω τ : Type) [OperatorRecipe ω] where
  jobStatus : JobStatus
  logicalGraph : LogicalGraph ω
  executionGraph : PhysicalGraph τ
  masterGraph : PhysicalGraph τ
  operations : Dict Nat RescaleOperation
  active : Option Nat
  inProgress : Bool
  done : Bool
  lock : Holder
  task : Option (Task ω)
  calls : Dict Nat Call
  issued : Nat
  paths : Nat → List RescaleOperationStatus
  invalid : Bool

def submitted (logical : LogicalGraph ω) (physical : PhysicalGraph τ) : Manager ω τ :=
  ⟨.running,logical,physical,physical,∅,none,false,true,.free,none,∅,0,fun _ => [],false⟩

def historyLimit : Nat := 20

/-- The loop of `_remember_rescale_operation`. -/
def evict (active : Option Nat) : Nat → Dict Nat RescaleOperation → Dict Nat RescaleOperation
  | 0,operations => operations
  | fuel + 1,operations =>
    if operations.entries.length ≤ historyLimit then operations
    else match operations.entries with
      | [] => operations
      | (oldest,_)::_ => if active = some oldest then operations else evict active fuel (operations.dropFirst 1)

namespace Manager
variable (settings : Settings ω) (fresh : ExecutionVertexId → τ) (manager : Manager ω τ)

def issue (status : RescaleOperationStatus) : Manager ω τ :=
  {
    manager with
    issued := manager.issued + 1
    paths := Function.update manager.paths manager.issued [status]}

/-- `_remember_rescale_operation` -/
def remember (operation : RescaleOperation) : Manager ω τ :=
  let operations := manager.operations.set operation.operationId operation
  {manager with operations := evict manager.active operations.entries.length operations}

/-- `_update_rescale_operation`; what it raises is only recorded. -/
def update (operationId : Nat) (status : RescaleOperationStatus) (phase : RescaleOperationPhase) (error : Option (Option String)) :
    Manager ω τ :=
  match manager.operations.get? operationId with
  | none => {manager with invalid := true}
  | some operation =>
    match operation.transition status phase error with
    | .error _ => {manager with invalid := true}
    | .ok operation => {
        manager with
        operations := manager.operations.set operationId operation
        paths := Function.update manager.paths operationId (manager.paths operationId ++ [status])}

/-- `_merge_rescale_result` -/
def merge (operationId : Nat) (result : RescaleResult) : Manager ω τ :=
  match manager.operations.get? operationId with
  | none => {manager with invalid := true}
  | some operation => {manager with operations := manager.operations.set operationId (operation.mergeResult result)}

/-- `_rescale_done.set()` -/
def signal : Manager ω τ :=
  {
    manager with
    done := true
    calls := manager.calls.mapValues (fun _ call => match call.position with
      | .waitingDone operationId _ => {call with position := .waitingDone operationId true}
      | .waitingTerminal _ | .returned _ | .keyError _ | .hangs => call)}

def unresolvedText (operatorId : OperatorId) (text : String) : String :=
  if manager.logicalGraph.matchesOf operatorId ≠ [] then text
  else match operatorId with
    | .number _ => "'" ++ text ++ "'"
    | .name _ => "\"" ++ text ++ "\""

def unsupportedRescaleReason (vertex : VertexSpec ω) (parallelism : Int) : Option String :=
  let capabilities := settings.capabilities vertex.operator
  if capabilities.stateful ∧ parallelism > settings.maxParallelism then
    some ("parallelism " ++ toString parallelism ++ " exceeds state.keyed.max-parallelism=" ++ toString settings.maxParallelism)
  else if OperatorRecipe.source vertex.operator then some "source operators cannot be locally rescaled"
  else if capabilities.transactionalSink then some "transactional sink operators cannot be locally rescaled"
  else if capabilities.collecting then some "collecting sink operators cannot be locally rescaled"
  else if ¬ capabilities.supportsConcurrentRescale then
    some ("operator lifecycle does not allow an old and pending runtime to overlap; " ++
      "set supports_concurrent_rescale=True only when its external resources support handoff")
  else none

/-- `_resolve_rescale_request`; `unavailable` names the tasks of the checkpoint domains of
an operator that are not running. -/
def resolveRescaleRequest (unavailable : Nat → List String) (operatorId : OperatorId) (parallelism : Int) :
    Except String (Nat × VertexSpec ω) :=
  if manager.jobStatus ≠ .running then .error "operator rescale requires a RUNNING job"
  else if parallelism ≤ 0 then .error "parallelism must be a positive integer"
  else match manager.logicalGraph.resolveOperator operatorId with
    | .error text => .error (manager.unresolvedText operatorId text)
    | .ok key =>
      if unavailable key ≠ [] then
        .error ("operator rescale requires every task instance in the target checkpoint domain " ++
          "to be RUNNING; unavailable: " ++ String.intercalate ", " (unavailable key))
      else match manager.logicalGraph.vertices.get? key with
        | none => .error (vertexText manager.logicalGraph.jobName key)
        | some vertex =>
          if (vertex.concurrency : Int) = parallelism then .ok (key,vertex)
          else match unsupportedRescaleReason settings vertex parallelism with
            | some error => .error error
            | none => .ok (key,vertex)

/-- `submit_operator_rescale`: the record that it returns and the active operation that it names. -/
def submitOperatorRescale (unavailable : Nat → List String) (request : Request) :
    (RescaleOperation × Option Nat) × Manager ω τ :=
  if manager.active.isSome ∨ manager.inProgress then
    let operation := RescaleOperation.terminal manager.issued request.operatorId none none request.parallelism .rejected
      (some "another operator rescale is already in progress")
    ((operation,manager.active),manager.issue .rejected)
  else match manager.resolveRescaleRequest settings unavailable request.operatorId request.parallelism with
    | .error text =>
      let operation := RescaleOperation.terminal manager.issued request.operatorId none none request.parallelism .rejected (some text)
      ((operation,none),(manager.issue .rejected).remember operation)
    | .ok (key,vertex) =>
      if (vertex.concurrency : Int) = request.parallelism then
        let operation := RescaleOperation.terminal manager.issued (.number key) (some vertex.name)
          (some vertex.concurrency) request.parallelism .noop none
        ((operation,none),(manager.issue .noop).remember operation)
      else
        let operation := RescaleOperation.admitted manager.issued (.number key) vertex.name vertex.concurrency request.parallelism
        ((operation,none),{
          (manager.issue .accepted).remember operation with
          active := some manager.issued
          inProgress := true
          done := false
          task := some ⟨manager.issued,key,request.parallelism,.queued⟩})

/-- `_wait_for_rescale_operation_terminal` from its check on. A call that finds the active
operation terminal asks again, is rejected again and never comes to an await. -/
def awaitTerminal (operationId : Nat) : Position :=
  match manager.operations.get? operationId with
  | none => .keyError operationId
  | some operation => if operation.status.terminal then .hangs else .waitingTerminal operationId

/-- `_wait_for_rescale_operation` from its check on. -/
def awaitOperation (operationId : Nat) : Position :=
  match manager.operations.get? operationId with
  | none => .keyError operationId
  | some operation =>
    if operation.status = .stabilizing then .returned {operation with status := .completed}
    else if operation.status.terminal then .returned operation
    else if manager.done then .hangs
    else .waitingDone operationId false

/-- `rescale_operator` from the submission on. -/
def rescaleOperator (unavailable : Nat → List String) (call : Nat) (request : Request) : Manager ω τ :=
  let ((operation,active),manager) := manager.submitOperatorRescale settings unavailable request
  let position := match active with
    | some active => manager.awaitTerminal active
    | none => if operation.status ≠ .accepted then .returned operation else manager.awaitOperation operation.operationId
  {manager with calls := manager.calls.set call ⟨request,operation.operationId,position⟩}

/-- The end of `_execute_rescale_operation`. -/
def finish (operationId : Nat) : Manager ω τ :=
  signal {
    manager with
    active := if manager.active = some operationId then none else manager.active
    inProgress := false
    task := none}

def settle (operationId : Nat) (result : RescaleResult) : Manager ω τ :=
  ((manager.merge operationId result).update operationId result.status .completed (some result.error)).finish operationId

/-- `_wait_for_rescale_stabilization` has returned. -/
def stabilized (operationId : Nat) (stabilizationError : Option String) : Manager ω τ :=
  match stabilizationError with
  | none => (manager.update operationId .completed .completed none).finish operationId
  | some error => (manager.update operationId .failed .completed (some (some error))).finish operationId

def begin (unavailable : Nat → List String) (task : Task ω) : Manager ω τ :=
  let manager := manager.update task.operationId .running .coordinating none
  match manager.resolveRescaleRequest settings unavailable (.number task.key) task.parallelism with
  | .error text => manager.settle task.operationId ⟨.number task.key,none,none,task.parallelism,.rejected,some text⟩
  | .ok (key,vertex) =>
    let result : RescaleResult := ⟨.number key,some vertex.name,some vertex.concurrency,task.parallelism,.noop,none⟩
    if (vertex.concurrency : Int) = task.parallelism then manager.settle task.operationId result
    else match manager.logicalGraph.rescaleOperator (.number key) task.parallelism.toNat with
      | .error text => manager.settle task.operationId {
          result with
          status := .rejected
          error := some text}
      | .ok resized => {
          manager with
          lock := .rescale
          task := some {task with stage := .writing resized {result with status := .completed}}}

/-- The writer has run `JobMaster.rescale_operator`, which installs the new graph or not
and raises or not; without an error the graph is installed. -/
def write (task : Task ω) (committed : Bool) (error : Option String) : Option (Manager ω τ) :=
  match task.stage with
  | .writing resized result =>
    let result := match error with
      | none => result
      | some _ => {
          result with
          status := .failed
          error := error}
    let task := {task with stage := .written resized result}
    if committed then
      match manager.masterGraph.resizeOperator fresh task.key task.parallelism.toNat with
      | .error _ => none
      | .ok graph => some {
          manager with
          masterGraph := graph
          task := some task}
    else if error = none then none
    else some {manager with task := some task}
  | _ => none

/-- `_run_operator_rescale` after the writer; the graph of the job master is adopted where
it has the new parallelism. -/
def resume (task : Task ω) : Option (Manager ω τ) :=
  match task.stage with
  | .written resized result =>
    let adopted (graph : PhysicalGraph τ) : Manager ω τ := {
      manager with
      logicalGraph := resized
      executionGraph := graph
      task := some {task with stage := .reporting result}}
    if (manager.masterGraph.concurrencyOf task.key : Int) = task.parallelism then some (adopted manager.masterGraph)
    else if result.status = .completed then
      match manager.executionGraph.resizeOperator fresh task.key task.parallelism.toNat with
      | .ok graph => some (adopted graph)
      | .error text => some (({manager with lock := .free}).stabilized task.operationId (some text))
    else some (({manager with lock := .free}).settle task.operationId result)
  | _ => none

/-- `_replace_progress_execution_graph` has returned, or has raised an error. -/
def reported (task : Task ω) (raised : Option String) (coordinator : Bool) : Option (Manager ω τ) :=
  match task.stage with
  | .reporting result =>
    let manager := {manager with lock := .free}
    match raised with
    | some error => some (manager.stabilized task.operationId (some error))
    | none =>
      if result.status ≠ .completed then some (manager.settle task.operationId result)
      else
        let manager := ((manager.merge task.operationId result).update task.operationId .stabilizing .stabilizing none).signal
        if coordinator then some {manager with task := some {task with stage := .probing}}
        else some (manager.stabilized task.operationId none)
  | _ => none

/-- The coordinator has answered `operator_rescale_recovery_fenced`, or the call failed. -/
def probed (task : Task ω) (fenced : Option Bool) : Option (Manager ω τ) :=
  match task.stage with
  | .probing =>
    if fenced = some false then some (manager.stabilized task.operationId none)
    else if manager.jobStatus.isTerminal then some {manager with task := some {task with stage := .lastProbe}}
    else some {manager with task := some {task with stage := .sleeping}}
  | .lastProbe =>
    if fenced = some false then some (manager.stabilized task.operationId none)
    else some (manager.stabilized task.operationId
      (some ("job became " ++ manager.jobStatus.name ++ " before the stabilization checkpoint completed")))
  | _ => none

def polled (task : Task ω) : Option (Manager ω τ) :=
  match task.stage with
  | .sleeping =>
    if manager.active = some task.operationId then some {manager with task := some {task with stage := .probing}}
    else some (manager.stabilized task.operationId (some "operator rescale was superseded before stabilization completed"))
  | _ => none

end Manager

/-- A step of one of the methods, of the task, or of what surrounds them: another lifecycle
transaction (a cancellation, a failover) takes or releases the lock or changes the job status. -/
inductive Step where
  | submitOperatorRescale (unavailable : Nat → List String) (request : Request)
  | rescaleOperator (unavailable : Nat → List String) (call : Nat) (request : Request)
  | poll (unavailable : Nat → List String) (call : Nat)
  | wake (call : Nat)
  | begin (unavailable : Nat → List String)
  | write (committed : Bool) (error : Option String)
  | resume
  | reported (raised : Option String) (coordinator : Bool)
  | probed (fenced : Option Bool)
  | polled
  | acquire
  | release
  | jobStatus (status : JobStatus)

namespace Manager
variable (settings : Settings ω) (fresh : ExecutionVertexId → τ)

def step (manager : Manager ω τ) : Step → Option (Manager ω τ)
  | .submitOperatorRescale unavailable request => some (manager.submitOperatorRescale settings unavailable request).2
  | .rescaleOperator unavailable call request =>
    if manager.calls.contains call then none else some (manager.rescaleOperator settings unavailable call request)
  | .poll unavailable call =>
    match manager.calls.get? call with
    | none => none
    | some waiting =>
      match waiting.position with
      | .waitingTerminal operationId =>
        match manager.operations.get? operationId with
        | none => some {manager with calls := manager.calls.set call {waiting with position := .keyError operationId}}
        | some operation =>
          if operation.status.terminal then some (manager.rescaleOperator settings unavailable call waiting.request)
          else some manager
      | _ => none
  | .wake call =>
    match manager.calls.get? call with
    | none => none
    | some waiting =>
      match waiting.position with
      | .waitingDone operationId true =>
        some {manager with calls := manager.calls.set call {waiting with position := manager.awaitOperation operationId}}
      | _ => none
  | .begin unavailable =>
    match manager.task with
    | none => none
    | some task =>
      match task.stage with
      | .queued => if manager.lock = .free then some (manager.begin settings unavailable task) else none
      | _ => none
  | .write committed error => manager.task.bind (fun task => manager.write fresh task committed error)
  | .resume => manager.task.bind (manager.resume fresh)
  | .reported raised coordinator => manager.task.bind (fun task => manager.reported task raised coordinator)
  | .probed fenced => manager.task.bind (fun task => manager.probed task fenced)
  | .polled => manager.task.bind manager.polled
  | .acquire => if manager.lock = .free then some {manager with lock := .other} else none
  | .release => if manager.lock = .other then some {manager with lock := .free} else none
  | .jobStatus status => some {manager with jobStatus := status}

end Manager
end Klein.JobManager
