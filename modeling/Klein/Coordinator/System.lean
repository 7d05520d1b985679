import Klein.Coordinator.Actor

/-! The coordinator as a system: its entry points, the answers of its environment
(sources, sinks, checkpoint storage) and the rebuild of the actor. -/
namespace Klein.Coordinator
open Coroutine

variable {β : Type} (c : Config β) (me : Nat)

def detachInflightCheckpoints (s : State β) : State β :=
  s.inflightCheckpoints.entries.foldl
    (fun state item => releaseDomainSlot
      {state with inflightCheckpoints := state.inflightCheckpoints.erase item.1} item.2) s

def failEach : List (Int × Checkpoint) → Co β Unit
  | [] => return
  | (barrierId,checkpoint)::rest => do
    failCheckpoint checkpoint barrierId true
    failEach rest

def abortInflightCheckpointsForRescale : Co β Unit := do
  let aborted := (← get).inflightCheckpoints.entries
  modify detachInflightCheckpoints
  failEach aborted

def lockRescaleGate (s : State β) : State β := {s with rescaleGateLock := some me}
def unlockRescaleGate (s : State β) : State β := {s with rescaleGateLock := none}

/-- The body of `begin_operator_rescale` under the gate lock. -/
def closeAdmission (operationId : String) : Co β Bool := do
  match ← ask (.waitFence operationId) with
  | .done =>
    let s ← get
    if s.rescaleOperationId.any (· ≠ operationId) then
      raise (.runtimeError ("checkpoint coordinator is busy with rescale " ++ s.rescaleOperationId.getD ""))
    else do
      modify (fun s => {s with rescaleOperationId := some operationId})
      abortInflightCheckpointsForRescale
      match ← ask .waitCompleting with
      | .done => return true
      | _ => do
        modify (fun s => {s with rescaleOperationId := none})
        raise (.timeoutError "timed out waiting for checkpoint completion before rescale")
  | _ =>
    raise (.timeoutError "timed out waiting for the committed topology to complete its stabilization checkpoint")

def beginOperatorRescale (operationId : String) : Co β Bool := do
  if operationId.toList.all Char.isWhitespace then raise (.valueError "rescale operation_id cannot be empty")
  else
    match ← ask .acquireRescaleGate with
    | .done => do
      modify (lockRescaleGate me)
      finish (closeAdmission operationId) (modify unlockRescaleGate)
    | _ => raise (.timeoutError "timed out waiting for another checkpoint gate transition")

def checkpointDomainBoundaryVertexIds (graph : Option ExecutionGraph) (targets : List Nat) (sources : Bool) :
    List Vertex :=
  match graph with
  | none => []
  | some graph =>
    let candidates := if sources then graph.sources else graph.sinks
    let domains := targets.flatMap graph.domainsForJobVertex
    if targets = [] ∨ domains = [] then candidates.dedup
    else (domains.flatMap (fun domain => if sources then domain.sourceVertexIds else domain.sinkVertexIds)).dedup

def finishOperatorRescale (operationId : String) (committed : Bool) (target : Option Nat) (s : State β) : State β :=
  if s.rescaleOperationId ≠ some operationId then s
  else if ¬ committed then {s with rescaleOperationId := none}
  else {s with
    rescaleOperationId := none
    rescaleRecoveryFence := some operationId
    rescaleRecoveryPendingSources := checkpointDomainBoundaryVertexIds s.executionGraph target.toList true
    rescaleRecoveryPendingSinks := checkpointDomainBoundaryVertexIds s.executionGraph target.toList false
    rescaleRecoveryRequiredStateRevision := none
    coordinatedCheckpointBarrierId := none
    coordinatedCheckpointRegisteredSources := []}

/-- Publish the pre-partitioned local cut; the repartition runs in a thread, so the
operation is checked again afterwards. -/
def stageOperatorRescaleState (operationId : String) (jobVertexId targetParallelism : Nat) (snapshots : List β)
    (s : State β) : Except Error (State β) :=
  if s.rescaleOperationId ≠ some operationId then
    .error (.runtimeError ("operator rescale " ++ operationId ++ " is not active"))
  else if targetParallelism < 1 then .error (.valueError "target_parallelism must be at least 1")
  else .ok {s with transientRescaleStates :=
    s.transientRescaleStates.set (operationId,jobVertexId) (c.repartition snapshots targetParallelism)}

def reconfigureExecutionGraph (graph : ExecutionGraph) (s : State β) : Except Error (State β) :=
  if graph.jobId ≠ c.jobId then .error (.valueError "execution graph belongs to a different job")
  else if s.rescaleOperationId.isNone then
    .error (.runtimeError "execution graph can only be reconfigured inside an operator rescale")
  else if ¬ (s.inflightCheckpoints.isEmpty ∧ s.completingCheckpoints = []) then
    .error (.runtimeError "cannot reconfigure checkpoint topology with checkpoints in flight")
  else
    let remapped := remapCarriedSinkDomains s graph
    .ok {remapped with
      executionGraph := some graph
      requiredAcknowledgements := graph.ackCounts
      activeCheckpointByDomain := ∅
      finishedSources := s.finishedSources.filter (· ∈ graph.sources)}

/-- The end of `_run`: persist when the persistence interval has passed. -/
def persistIfDue : Co β Unit := do
  let s ← get
  if c.persistenceInterval ≤ 0 then return
  else if s.nowMs < s.nextPersistenceAt then return
  else do
    modify (fun s => {s with nextPersistenceAt := s.nowMs + c.persistenceInterval * 1000})
    let _ ← persistCheckpointMetadata me true false

def run : Co β Unit := do
  let _ ← ask .sleep
  retryPendingCheckpointReleases (← get).pendingCheckpointReleases.entries
  expireStaleCheckpoints c
  if ← commitDurableSinkCommittables false then
    notifyDurableSourceCheckpoints
    modify clearRescaleRecoveryFenceIfDurable
  persistIfDue c me

/-- One turn of `AsyncWorker._loop`: an exception ends the worker for good. -/
def tick : Co β Unit := do
  let s ← get
  if s.worker ≠ .idle ∨ s.stopping then return
  else do
    modify (fun s => {s with worker := .running me})
    handle (do run c me; modify (fun s => {s with worker := .idle}))
      (fun _ => modify (fun s => {s with worker := .dead}))

def persistNow (notifySources requireResolvedSinks : Bool) : Co β Unit := do
  match ← ask .waitCompleting with
  | .done =>
    let s ← get
    if requireResolvedSinks ∧ ¬ (s.carriedSinkCommittables.isEmpty ∧ s.inflightSinkCommittables.isEmpty) then
      raise (.runtimeError "cannot finish the job with sink transactions whose checkpoint cut did not complete")
    else do
      let _ ← persistCheckpointMetadata me notifySources requireResolvedSinks
      if ¬ requireResolvedSinks then return
      else do
        let _ ← commitDurableSinkCommittables true
        if ¬ (← get).pendingSinkCommittables.isEmpty then
          raise (.runtimeError "cannot finish the job with uncommitted sink transactions")
        else if ¬ notifySources then return
        else do
          notifyDurableSourceCheckpoints
          let s ← get
          if s.durableSourceStates.entries.any (fun item =>
              (s.notifiedSourceCheckpointIds.get? item.1).getD (-1) < item.2.checkpointId) then
            raise (.runtimeError "cannot finish the job with unacknowledged source checkpoint callbacks")
          else return
  | _ => return

inductive Call (β : Type) where
  | registerCheckpoint (vertex : Vertex) (force : Bool)
  | sourceCheckpointStarted (barrierId : Int) (vertex : Vertex) (isEof : Bool)
  | registerOperatorState (barrierId : Int) (vertex : Vertex) (reference : β)
  | registerSinkCommittable (barrierId : Int) (vertex : Vertex) (committable : SinkCommittable)
  | notifyCheckpointAligned (barrierId : Int) (vertex : Vertex)
  | beginOperatorRescale (operationId : String)
  | finishOperatorRescale (operationId : String) (committed : Bool) (target : Option Nat)
  | stageOperatorRescaleState (operationId : String) (jobVertexId targetParallelism : Nat) (snapshots : List β)
  | reconfigureExecutionGraph (graph : ExecutionGraph)
  | persistNow (notifySources requireResolvedSinks : Bool)
  | tick
  | finishOpen
  | stop

def attempt (method : State β → Except Error (State β)) : Co β Unit := do
  match method (← get) with
  | .error error => raise error
  | .ok after => modify (fun _ => after)

def call [DecidableEq β] : Call β → Co β Unit
  | .registerCheckpoint vertex force => modify (registerCheckpoint c vertex force)
  | .sourceCheckpointStarted barrierId vertex isEof => modify (sourceCheckpointStarted barrierId vertex isEof)
  | .registerOperatorState barrierId vertex reference => attempt (registerOperatorState barrierId vertex reference)
  | .registerSinkCommittable barrierId vertex committable =>
    attempt (fun s => (registerSinkCommittable barrierId vertex committable s).map Prod.fst)
  | .notifyCheckpointAligned barrierId vertex => do
    let _ ← notifyCheckpointAligned c me barrierId vertex
  | .beginOperatorRescale operationId => do
    let _ ← beginOperatorRescale me operationId
  | .finishOperatorRescale operationId committed target => modify (finishOperatorRescale operationId committed target)
  | .stageOperatorRescaleState operationId jobVertexId targetParallelism snapshots =>
    attempt (stageOperatorRescaleState c operationId jobVertexId targetParallelism snapshots)
  | .reconfigureExecutionGraph graph => attempt (reconfigureExecutionGraph c graph)
  | .persistNow notifySources requireResolvedSinks => persistNow me notifySources requireResolvedSinks
  | .tick => tick c me
  | .finishOpen => do
    let _ ← commitDurableSinkCommittables true
  | .stop => modify (fun s => {s with opened := false,stopping := true})

/-- `write_checkpoint` up to its metadata file: an existing revision with other
bytes is refused. -/
def writeMetadata [DecidableEq β] (metadata : Metadata β) (s : State β) : Option (State β) :=
  if ¬ validMetadata metadata then none
  else
    match s.storage.metadata.get? metadata.revision with
    | some existing => if existing = metadata then some s else none
    | none => some {s with
        storage := {s.storage with metadata := s.storage.metadata.set metadata.revision metadata}
        log := {s.log with written := s.log.written ++ [metadata]}}

/-- A complete `write_checkpoint`, which then moves the `_latest` pointer. -/
def writeCheckpoint [DecidableEq β] (metadata : Metadata β) (s : State β) : Option (State β) :=
  (writeMetadata metadata s).map
    (fun after => {after with storage := {after.storage with latest := some metadata.revision}})

/-- `cleanup_checkpoints`: the newest revisions stay. -/
def cleanupCheckpoints (s : State β) : State β :=
  let revisions := s.storage.metadata.keys.mergeSort (· ≤ ·)
  let dropped := revisions.take (revisions.length - c.retainedCount)
  {s with storage := {s.storage with
    metadata := s.storage.metadata.filter (fun revision _ => revision ∉ dropped)}}

def respond [DecidableEq β] (s : State β) : Request β → Reply β → Option (State β)
  | .acquirePersistenceLock,.done => if s.persistenceLock = none then some s else none
  | .waitCheckpointIo,.done => if s.checkpointIoTasks = [] then some s else none
  | .sleep,.done => some s
  | .release _ _ _,.flag _ => some s
  | .abortTasks _,.done => some s
  | .collectSourceStates _ sources _,.states sourceStates => if sourceStates.keys = sources then some s else none
  | .collectSourceStates _ _ _,.failed => some s
  | .commit entry,.done => some {s with log := {s.log with committed := s.log.committed ++ [entry]}}
  | .commit _,.failed => some s
  | .commit _,.timedOut => some s
  | .notifyPersisted _ _,.flag _ => some s
  | .notifyPersisted _ _,.failed => some s
  | .materialize _,.done => some s
  | .materialize _,.failed => some s
  | .write metadata,.done => writeCheckpoint metadata s
  | .write metadata,.failedLate => writeMetadata metadata s
  | .write _,.failed => some s
  | .write metadata,.timedOut => some {s with checkpointIoTasks := s.checkpointIoTasks ++ [metadata]}
  | .readBack metadata,.done => if s.storage.metadata.get? metadata.revision = some metadata then some s else none
  | .readBack _,.failed => some s
  | .readBack _,.timedOut => some s
  | .cleanup,.done => some (cleanupCheckpoints c s)
  | .cleanup,.failed => some s
  | .acquireRescaleGate,.done => if s.rescaleGateLock = none then some s else none
  | .acquireRescaleGate,.timedOut => some s
  | .waitFence _,.done => if s.rescaleRecoveryFence = none then some s else none
  | .waitFence _,.timedOut => some s
  | .waitCompleting,.done => if s.completingCheckpoints = [] then some s else none
  | .waitCompleting,.timedOut => some s
  | _,_ => none

/-- What happens outside the actor: time passes, and a write that outlived its
deadline lands, fails, or fails after its metadata file. -/
inductive Act where
  | elapse (milliseconds : Nat)
  | land (task : Nat)
  | landLate (task : Nat)
  | drop (task : Nat)

def forgetTask (task : Nat) (s : State β) : State β :=
  {s with checkpointIoTasks := s.checkpointIoTasks.eraseIdx task}

def act [DecidableEq β] : Act → State β → Option (State β)
  | .elapse milliseconds,s => some {s with nowMs := s.nowMs + milliseconds}
  | .land task,s => (s.checkpointIoTasks[task]?.bind (fun metadata => writeCheckpoint metadata s)).map (forgetTask task)
  | .landLate task,s => (s.checkpointIoTasks[task]?.bind (fun metadata => writeMetadata metadata s)).map (forgetTask task)
  | .drop task,s => if task < s.checkpointIoTasks.length then some (forgetTask task s) else none

/-- The newest completed checkpoint (`latest_checkpoint`); every stored metadata
file is readable. -/
def latestCheckpoint (storage : Storage β) : Option (Metadata β) :=
  storage.metadata.values.foldl (fun newest metadata =>
    match newest with
    | none => some metadata
    | some found => if found.revision < metadata.revision then some metadata else some found) none

/-- `CheckpointCoordinator.open` of a fresh object without a restore path, up to its
final commit. Before `open` returns the actor answers no call. -/
def openCoordinator (graph : ExecutionGraph) (s : State β) : State β :=
  let restored := latestCheckpoint s.storage
  let highWater := (restored.map Metadata.barrierHighWater).getD 0
  let sourceStates := (restored.map Metadata.sourceStates).getD ∅
  let sinks := Dict.ofList (((restored.map Metadata.sinkCommittables).getD []).map (fun entry => (entry.identity,entry)))
  let restoreOperations := graph.restoreOperations.map Prod.snd
  let restoreJobs := graph.restoreOperations.map (fun item => item.1.jobVertexId)
  let current := reseed 0 highWater
  {s with
    metadataRevision := (restored.map Metadata.revision).getD 0
    stateRevision := 0
    persistedStateRevision := 0
    persistedHighWater := highWater
    checkpointPath := restored.map Metadata.revision
    latestSourceStates := sourceStates
    durableSourceStates := sourceStates
    notifiedSourceCheckpointIds := ∅
    releasedSourceCheckpointIds := ∅
    latestOperatorStates := ∅
    restoredOperatorStates := Dict.ofList ((restored.map Metadata.operatorStates).getD [])
    inflightOperatorStates := ∅
    pendingSinkCommittables := sinks
    durableSinkCommittables := sinks
    inflightSinkCommittables := ∅
    carriedSinkCommittables := ∅
    executionGraph := some graph
    requiredAcknowledgements := graph.ackCounts
    inflightCheckpoints := ∅
    pendingCheckpointReleases := ∅
    activeCheckpointByDomain := ∅
    finishedSources := graph.sources.filter (· ∈ graph.finished)
    completingCheckpoints := []
    barrierIdCurrent := current
    barrierEpochFloor := current
    opened := true
    stopping := false
    persistenceLock := none
    rescaleGateLock := none
    checkpointIoTasks := []
    rescaleOperationId := none
    rescaleRecoveryFence := (sortedStrings restoreOperations).head?
    rescaleRecoveryPendingSources := if restoreOperations = [] then []
      else checkpointDomainBoundaryVertexIds (some graph) restoreJobs true
    rescaleRecoveryRequiredStateRevision := none
    coordinatedCheckpointBarrierId := none
    coordinatedCheckpointRegisteredSources := []
    rescaleRecoveryPendingSinks := if restoreOperations = [] then []
      else checkpointDomainBoundaryVertexIds (some graph) restoreJobs false
    nextPersistenceAt := s.nowMs + max 1000 (c.persistenceInterval * 1000)
    transientRescaleStates := ∅
    supersededRescaleOperations := []
    worker := .idle
    log := {s.log with
      earlier := s.log.issued
      durable := restored
      poppedByAck := []
      failedBySweep := []
      completed := []
      tracked := []
      failed := []
      completer := ∅}}

def system [DecidableEq β] :
    System (State β) (Request β) (Reply β) Error (Call β) Act ExecutionGraph where
  call me entry := call c me entry
  respond := respond c
  act := act
  restart graph s := some (openCoordinator c graph s)

/-- Memory before the first `open`, over an empty checkpoint directory. -/
def unopened : State β where
  metadataRevision := 0
  stateRevision := 0
  persistedStateRevision := 0
  persistedHighWater := 0
  checkpointPath := none
  latestSourceStates := ∅
  durableSourceStates := ∅
  notifiedSourceCheckpointIds := ∅
  releasedSourceCheckpointIds := ∅
  latestOperatorStates := ∅
  restoredOperatorStates := ∅
  inflightOperatorStates := ∅
  pendingSinkCommittables := ∅
  durableSinkCommittables := ∅
  inflightSinkCommittables := ∅
  carriedSinkCommittables := ∅
  executionGraph := none
  requiredAcknowledgements := ∅
  inflightCheckpoints := ∅
  pendingCheckpointReleases := ∅
  activeCheckpointByDomain := ∅
  finishedSources := []
  completingCheckpoints := []
  barrierIdCurrent := 0
  barrierEpochFloor := 0
  opened := false
  stopping := false
  persistenceLock := none
  rescaleGateLock := none
  checkpointIoTasks := []
  rescaleOperationId := none
  rescaleRecoveryFence := none
  rescaleRecoveryPendingSources := []
  rescaleRecoveryRequiredStateRevision := none
  coordinatedCheckpointBarrierId := none
  coordinatedCheckpointRegisteredSources := []
  rescaleRecoveryPendingSinks := []
  nextPersistenceAt := 0
  transientRescaleStates := ∅
  supersededRescaleOperations := []
  worker := .idle
  nowMs := 0
  storage := ⟨∅,none⟩
  log := ⟨[],[],none,[],[],[],[],[],[],[],[],∅⟩

def initial (graph : ExecutionGraph) : System.Config (State β) (Request β) (Reply β) Error :=
  ⟨openCoordinator c graph unopened,[]⟩

abbrev Label (β : Type) := System.Label (Call β) (Reply β) Act ExecutionGraph

def pipelineConfig : Config Nat where
  jobId := "job"
  checkpointTimeout := 60
  persistenceInterval := 30
  retainedCount := 1
  retainedPositive := Nat.le_refl 1
  maxConcurrentCheckpoints := 4
  sha256 text := text
  combine _ transactionId := some ⟨transactionId,none⟩
  repartition snapshots _ := snapshots

def pipelineGraph : ExecutionGraph where
  jobId := "job"
  domains := [⟨"a",[⟨1,0⟩,⟨2,0⟩],[⟨1,0⟩],[⟨2,0⟩]⟩,⟨"b",[⟨3,0⟩,⟨4,0⟩],[⟨3,0⟩],[⟨4,0⟩]⟩]
  sources := [⟨1,0⟩,⟨3,0⟩]
  sinks := [⟨2,0⟩,⟨4,0⟩]
  vertices := [⟨1,0⟩,⟨2,0⟩,⟨3,0⟩,⟨4,0⟩]
  edges := [(⟨1,0⟩,⟨2,0⟩),(⟨3,0⟩,⟨4,0⟩)]
  ackCounts := ∅
  tasks := [⟨1,0⟩,⟨2,0⟩,⟨3,0⟩,⟨4,0⟩]
  finished := []
  restoreOperations := []

end Klein.Coordinator
