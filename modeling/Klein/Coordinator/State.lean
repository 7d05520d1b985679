import Klein.Dict
import Klein.Message

/-! The data of the checkpoint coordinator: checkpoints, checkpoint entries, the
execution graph as the coordinator reads it, checkpoint metadata and the memory of
the actor (`runtime/coordinator/checkpoint_coordinator.py`, `checkpoint.py`,
`checkpoint_io.py`, `sink_committable_coalescer.py`). Task keys are the vertices
they are printed from. Metrics, logging and the dashboard are left out. -/
namespace Klein.Coordinator

abbrev Vertex := ExecutionVertexId

/-- `"job:index"`, or `"job:global"` for a coalesced sink transaction. -/
inductive TaskKey where
  | subtask (vertex : Vertex)
  | global (logicalSinkId : Nat)
deriving DecidableEq, Repr

/-- `task_key.partition(":")[0]` -/
def TaskKey.logicalId : TaskKey → Nat
  | .subtask vertex => vertex.jobVertexId
  | .global logicalSinkId => logicalSinkId

def TaskKey.text : TaskKey → String
  | .subtask vertex => toString vertex.jobVertexId ++ ":" ++ toString vertex.index
  | .global logicalSinkId => toString logicalSinkId ++ ":global"

inductive CheckpointStatus where
  | created
  | inProgress
  | notifying
  | completed
  | failed
deriving DecidableEq, Repr

def CheckpointStatus.isTerminal : CheckpointStatus → Bool
  | .completed | .failed => true
  | _ => false

structure Checkpoint where
  barrierId : Int
  requiredAcknowledgements : Nat
  triggerSources : List Vertex
  coordinated : Bool
  domainId : Option String
  requiredCommitters : List Vertex
  triggeredAtMs : Option Int
  status : CheckpointStatus
  acknowledgedBy : List Vertex
  startedSources : List Vertex
  eofSources : List Vertex
deriving DecidableEq, Repr

def Checkpoint.acknowledge (checkpoint : Checkpoint) (committer : Vertex) : Checkpoint × Bool :=
  if checkpoint.requiredCommitters ≠ [] ∧ committer ∉ checkpoint.requiredCommitters then (checkpoint,false)
  else if committer ∈ checkpoint.acknowledgedBy then (checkpoint,checkpoint.status = .notifying)
  else
    let acknowledgedBy := checkpoint.acknowledgedBy ++ [committer]
    let status := if 0 < checkpoint.requiredAcknowledgements ∧
        checkpoint.requiredAcknowledgements ≤ acknowledgedBy.length then .notifying else checkpoint.status
    ({checkpoint with acknowledgedBy,status},status = .notifying)

def Checkpoint.markSourceStarted (checkpoint : Checkpoint) (source : Vertex) (isEof : Bool) : Checkpoint × Bool :=
  if source ∉ checkpoint.triggerSources then (checkpoint,false)
  else ({checkpoint with
    startedSources := checkpoint.startedSources.insert source
    eofSources := if isEof then checkpoint.eofSources.insert source else checkpoint.eofSources},true)

structure SinkCommittable where
  transactionId : String
  globalCommitNamespace : Option String
deriving DecidableEq, Repr

structure Writer where
  vertex : Vertex
  checkpointId : Int
  transactionId : String
deriving DecidableEq, Repr

/-- One sink transaction owned by a task and checkpoint. `writers` is a ghost: the
registered transactions it publishes. -/
structure SinkEntry where
  taskKey : TaskKey
  checkpointId : Int
  committable : SinkCommittable
  writers : List Writer
deriving DecidableEq, Repr

abbrev SinkIdentity := TaskKey × Int × String

/-- The check of `SinkCommittableCheckpointEntry` on its transaction id. -/
def SinkCommittable.named (committable : SinkCommittable) : Bool :=
  committable.transactionId.toList.any (fun char => ¬ char.isWhitespace)

/-- `_sink_committable_identity` -/
def SinkEntry.identity (entry : SinkEntry) : SinkIdentity :=
  (entry.taskKey,entry.checkpointId,entry.committable.transactionId)

structure SourceEntry (β : Type) where
  checkpointId : Int
  state : β
deriving DecidableEq, Repr

structure CheckpointDomain where
  id : String
  vertexIds : List Vertex
  sourceVertexIds : List Vertex
  sinkVertexIds : List Vertex
deriving DecidableEq, Repr

/-- What the coordinator reads of an execution graph. `ackCounts` is
`coordinator_ack_counts`, `tasks` are the vertices with a live stream task. -/
structure ExecutionGraph where
  jobId : String
  domains : List CheckpointDomain
  sources : List Vertex
  sinks : List Vertex
  vertices : List Vertex
  edges : List (Vertex × Vertex)
  ackCounts : Dict Vertex Nat
  tasks : List Vertex
  finished : List Vertex
  restoreOperations : List (Vertex × String)
deriving DecidableEq

def ExecutionGraph.findCheckpointDomain (graph : ExecutionGraph) (vertex : Vertex) : Option CheckpointDomain :=
  graph.domains.find? (fun domain => vertex ∈ domain.vertexIds)

/-- `checkpoint_domains_for_job_vertex` -/
def ExecutionGraph.domainsForJobVertex (graph : ExecutionGraph) (jobVertexId : Nat) : List CheckpointDomain :=
  graph.domains.filter (fun domain => domain.vertexIds.any (fun vertex => vertex.jobVertexId = jobVertexId))

structure Metadata (β : Type) where
  revision : Nat
  sourceStates : Dict Vertex (SourceEntry β)
  barrierHighWater : Int
  operatorStates : List (Vertex × β)
  sinkCommittables : List SinkEntry
deriving DecidableEq

/-- The checkpoint directory of the job: `chk-N/_metadata` files and `_latest`. -/
structure Storage (β : Type) where
  metadata : Dict Nat (Metadata β)
  latest : Option Nat

inductive Worker where
  | idle
  | running (thread : Nat)
  | dead
deriving DecidableEq, Repr

/-- Ghosts: what has happened so far. `earlier` are the ids issued before the last
rebuild, `durable` is the metadata that was last published or restored; the others
from `poppedByAck` on are about this incarnation: the ids that left the flight, the
checkpoints as they were tracked, the ids marked as failed and the thread that
completes an id. -/
structure Log (β : Type) where
  issued : List Int
  earlier : List Int
  durable : Option (Metadata β)
  registered : List Writer
  committed : List SinkEntry
  written : List (Metadata β)
  poppedByAck : List Int
  failedBySweep : List Int
  completed : List Int
  tracked : List Checkpoint
  failed : List Int
  completer : Dict Int Nat

structure State (β : Type) where
  metadataRevision : Nat
  stateRevision : Nat
  persistedStateRevision : Nat
  persistedHighWater : Int
  checkpointPath : Option Nat
  latestSourceStates : Dict Vertex (SourceEntry β)
  durableSourceStates : Dict Vertex (SourceEntry β)
  notifiedSourceCheckpointIds : Dict Vertex Int
  releasedSourceCheckpointIds : Dict Vertex Int
  latestOperatorStates : Dict Vertex β
  restoredOperatorStates : Dict Vertex β
  inflightOperatorStates : Dict Int (Dict Vertex β)
  pendingSinkCommittables : Dict SinkIdentity SinkEntry
  durableSinkCommittables : Dict SinkIdentity SinkEntry
  inflightSinkCommittables : Dict Int (Dict Vertex SinkEntry)
  carriedSinkCommittables : Dict (Option String) (Dict SinkIdentity SinkEntry)
  executionGraph : Option ExecutionGraph
  requiredAcknowledgements : Dict Vertex Nat
  inflightCheckpoints : Dict Int Checkpoint
  pendingCheckpointReleases : Dict Int (List Vertex)
  activeCheckpointByDomain : Dict String Int
  finishedSources : List Vertex
  completingCheckpoints : List Int
  barrierIdCurrent : Int
  barrierEpochFloor : Int
  opened : Bool
  stopping : Bool
  persistenceLock : Option Nat
  rescaleGateLock : Option Nat
  checkpointIoTasks : List (Metadata β)
  rescaleOperationId : Option String
  rescaleRecoveryFence : Option String
  rescaleRecoveryPendingSources : List Vertex
  rescaleRecoveryRequiredStateRevision : Option Nat
  coordinatedCheckpointBarrierId : Option Int
  coordinatedCheckpointRegisteredSources : List Vertex
  rescaleRecoveryPendingSinks : List Vertex
  nextPersistenceAt : Int
  transientRescaleStates : Dict (String × Nat) (List β)
  supersededRescaleOperations : List (String × Nat)
  worker : Worker
  nowMs : Int
  storage : Storage β
  log : Log β

/-- Job configuration, the hash function and the code of the connectors: `combine` is
`combine_committables`. -/
structure Config (β : Type) where
  jobId : String
  checkpointTimeout : Int
  persistenceInterval : Int
  retainedCount : Nat
  retainedPositive : 1 ≤ retainedCount
  maxConcurrentCheckpoints : Nat
  sha256 : String → String
  combine : List SinkCommittable → String → Option SinkCommittable
  repartition : List β → Nat → List β

inductive Error where
  | keyError (barrierId : Int)
  | valueError (message : String)
  | runtimeError (message : String)
  | timeoutError (message : String)
  | connectorError
  | checkpointCommitError (message : String)
deriving DecidableEq, Repr

def unnamedTransaction : Error := .valueError "sink committable transaction_id must be a non-empty string"

def RESEED_STRIDE : Int := 1000000

/-- `BarrierIdGenerator.reseed` -/
def reseed (current highWater : Int) : Int :=
  if 0 < highWater then max current (highWater + RESEED_STRIDE) else current

end Klein.Coordinator
