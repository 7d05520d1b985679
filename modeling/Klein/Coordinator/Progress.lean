import Mathlib.Data.List.Sort
import Klein.Coordinator.State

/-! The synchronous bookkeeping of the coordinator: what its methods do to the
actor's memory between two awaits. -/
namespace Klein.Coordinator

variable {β : Type} (c : Config β)

def globalTransactionId (space : String) (logicalSinkId : Nat) (checkpointId : Int) (writerTransactionIds : List String) :
    String :=
  "klein:" ++ space ++ ":" ++ c.jobId ++ ":" ++ toString logicalSinkId ++ ":" ++ toString checkpointId ++ ":" ++
    c.sha256 (String.intercalate (String.singleton '\x00') writerTransactionIds)

def combineGroup (checkpointId : Int) (logicalSinkId : Nat) (group : List SinkEntry) : Except Error SinkEntry :=
  match (group.map (fun entry => entry.committable.globalCommitNamespace.getD "")).dedup with
  | [space] =>
    if space = "" ∨ ':' ∈ space.toList then
      .error (.valueError "global commit namespace must be a non-empty colon-free string")
    else
      let writerTransactionIds := (group.map (fun entry => entry.committable.transactionId)).insertionSort (· ≤ ·)
      match c.combine (group.map SinkEntry.committable)
          (globalTransactionId c space logicalSinkId checkpointId writerTransactionIds) with
      | some committable =>
        if committable.named then
          .ok ⟨.global logicalSinkId,checkpointId,committable,group.flatMap SinkEntry.writers⟩
        else .error unnamedTransaction
      | none => .error .connectorError
  | _ => .error (.valueError ("logical sink '" ++ toString logicalSinkId ++ "' mixes incompatible committable combiners"))

def combinableGroups (entries : List SinkEntry) : Dict Nat (List SinkEntry) :=
  (entries.filter (fun entry => entry.committable.globalCommitNamespace.isSome)).foldl
    (fun groups entry => groups.push entry.taskKey.logicalId entry) ∅

def coalesceGroup (checkpointId : Int) (result : Dict TaskKey SinkEntry) :
    Nat × List SinkEntry → Except Error (Dict TaskKey SinkEntry)
  | (_,[entry]) => .ok (result.set entry.taskKey entry)
  | (logicalSinkId,group) =>
    match combineGroup c checkpointId logicalSinkId group with
    | .ok entry => .ok (result.set (.global logicalSinkId) entry)
    | .error error => .error error

def coalesceSinkCommittables (entries : Dict TaskKey SinkEntry) (checkpointId : Int) :
    Except Error (Dict TaskKey SinkEntry) :=
  if entries.entries.length < 2 then .ok entries
  else (combinableGroups entries.values).entries.foldlM (coalesceGroup c checkpointId)
    (entries.filter (fun _ entry => entry.committable.globalCommitNamespace.isNone))

def fileCarried (groups : Dict Int (Dict TaskKey SinkEntry)) (entry : SinkEntry) :
    Except Error (Dict Int (Dict TaskKey SinkEntry)) :=
  match ((groups.get? entry.checkpointId).getD ∅).get? entry.taskKey with
  | some existing =>
    if existing.committable.transactionId ≠ entry.committable.transactionId then
      .error (.valueError ("sink " ++ entry.taskKey.text ++ " carried different transactions for checkpoint " ++
        toString entry.checkpointId))
    else .ok (groups.setInner entry.checkpointId entry.taskKey entry)
  | none => .ok (groups.setInner entry.checkpointId entry.taskKey entry)

def coalesceEpoch (coalesced : Dict SinkIdentity SinkEntry) (epoch : Int × Dict TaskKey SinkEntry) :
    Except Error (Dict SinkIdentity SinkEntry) := do
  let committables ← coalesceSinkCommittables c epoch.2 epoch.1
  return coalesced.update (committables.values.map (fun entry => (entry.identity,entry)))

def coalesceCarriedSinkCommittables (entries : List SinkEntry) : Except Error (Dict SinkIdentity SinkEntry) := do
  let byCheckpoint ← entries.foldlM fileCarried ∅
  (byCheckpoint.entries.mergeSort (fun left right => decide (left.1 ≤ right.1))).foldlM (coalesceEpoch c) ∅

variable (s : State β)

/-- `_release_domain_slot` -/
def releaseDomainSlot (checkpoint : Checkpoint) : State β :=
  match checkpoint.domainId with
  | some domainId =>
    if s.activeCheckpointByDomain.get? domainId = some checkpoint.barrierId then
      {s with activeCheckpointByDomain := s.activeCheckpointByDomain.erase domainId}
    else s
  | none => s

def carryInflightSinkCommittables (checkpoint : Checkpoint) : State β :=
  let entries := (s.inflightSinkCommittables.get? checkpoint.barrierId).getD ∅
  let inflight := s.inflightSinkCommittables.erase checkpoint.barrierId
  if entries.isEmpty then {s with inflightSinkCommittables := inflight}
  else
    let carried := (s.carriedSinkCommittables.get? checkpoint.domainId).getD ∅
    {s with
      inflightSinkCommittables := inflight
      carriedSinkCommittables := s.carriedSinkCommittables.set checkpoint.domainId
        (carried.update (entries.values.map (fun entry => (entry.identity,entry))))}

/-- `_checkpoint_domain_for_source` -/
def checkpointDomainForSource (vertex : Vertex) : Option CheckpointDomain :=
  s.executionGraph.bind (fun graph => graph.findCheckpointDomain vertex)

def sortedStrings (items : List String) : List String := items.mergeSort (· ≤ ·)

def carriedDomainsForCheckpoint (checkpoint : Checkpoint) : List (Option String) :=
  if ¬ checkpoint.coordinated then [checkpoint.domainId]
  else if s.executionGraph.isNone then
    match checkpoint.domainId with
    | none => [none]
    | some domainId => [none,some domainId]
  else
    let domainIds := checkpoint.triggerSources.filterMap
      (fun source => (checkpointDomainForSource s source).map CheckpointDomain.id) ++ checkpoint.domainId.toList
    none::(sortedStrings domainIds.dedup).map some

def remapCarriedSinkDomains (graph : ExecutionGraph) : State β :=
  let domainOf (previous : Option String) (entry : SinkEntry) : Option String :=
    match entry.taskKey with
    | .subtask vertex => (graph.findCheckpointDomain vertex).map CheckpointDomain.id
    | .global _ => previous
  let remapped := s.carriedSinkCommittables.entries.foldl (fun remapped bucket =>
    bucket.2.entries.foldl (fun remapped item =>
      remapped.setInner (domainOf bucket.1 item.2) item.1 item.2) remapped) ∅
  {s with carriedSinkCommittables := remapped}

/-- `_update_latest_source_state` -/
def updateLatestSourceState (vertex : Vertex) (entry : SourceEntry β) : State β :=
  match s.latestSourceStates.get? vertex with
  | some current =>
    if current.checkpointId < entry.checkpointId then
      {s with
        latestSourceStates := s.latestSourceStates.set vertex entry
        stateRevision := s.stateRevision + 1}
    else s
  | none =>
    {s with
      latestSourceStates := s.latestSourceStates.set vertex entry
      stateRevision := s.stateRevision + 1}

def replaceLogicalOperatorStates (completed : Dict Vertex β) : State β :=
  let logicalIds := completed.keys.map ExecutionVertexId.jobVertexId
  let kept (states : Dict Vertex β) : Dict Vertex β := states.filter (fun vertex _ => vertex.jobVertexId ∉ logicalIds)
  let superseded := s.transientRescaleStates.keys.filter (fun key => key.2 ∈ logicalIds)
  if completed.isEmpty then s
  else {s with
    latestOperatorStates := (kept s.latestOperatorStates).update completed.entries
    restoredOperatorStates := kept s.restoredOperatorStates
    supersededRescaleOperations := superseded ∪ s.supersededRescaleOperations
    transientRescaleStates := s.transientRescaleStates.filter (fun key _ => key.2 ∉ logicalIds)
    stateRevision := s.stateRevision + 1}

def mergeCheckpointOperatorStates (completed : Dict Vertex β) : State β :=
  if completed.isEmpty then s
  else {s with
    latestOperatorStates := s.latestOperatorStates.update completed.entries
    stateRevision := s.stateRevision + 1}

def finalizeRescaleOperatorStates (operationId : String) : State β :=
  let transientKeys := s.transientRescaleStates.keys.filter (fun key => key.1 = operationId)
  let logicalIds := transientKeys.map Prod.snd
  let live := (s.executionGraph.map ExecutionGraph.vertices).getD []
  let stale (vertex : Vertex) : Bool := vertex.jobVertexId ∈ logicalIds ∧ vertex ∉ live
  let changed := s.latestOperatorStates.keys.any stale || s.restoredOperatorStates.keys.any stale
  {s with
    latestOperatorStates := s.latestOperatorStates.filter (fun vertex _ => ¬ stale vertex)
    restoredOperatorStates := s.restoredOperatorStates.filter (fun vertex _ => ¬ stale vertex)
    supersededRescaleOperations := transientKeys ∪ s.supersededRescaleOperations
    transientRescaleStates := s.transientRescaleStates.filter (fun key _ => key.1 ≠ operationId)
    stateRevision := if changed then s.stateRevision + 1 else s.stateRevision}

/-- Validate one shared cut and report whether strict persistence is due. After
`_finalize_rescale_operator_states` no transient state of the operation is left. -/
def recordRescaleStabilizationProgress (checkpoint : Checkpoint) : State β × Bool :=
  match s.rescaleRecoveryFence with
  | none => (s,false)
  | some operationId =>
    if ¬ checkpoint.coordinated ∨ some checkpoint.barrierId ≠ s.coordinatedCheckpointBarrierId then (s,false)
    else if ¬ (checkpoint.triggerSources ⊆ s.rescaleRecoveryPendingSources ∧
        s.rescaleRecoveryPendingSources ⊆ checkpoint.triggerSources) then (s,false)
    else
      let finalized := finalizeRescaleOperatorStates s operationId
      if finalized.transientRescaleStates.keys.any (fun key => key.1 = operationId) then (finalized,false)
      else ({finalized with rescaleRecoveryRequiredStateRevision := some finalized.stateRevision},true)

def clearRescaleRecoveryFenceIfDurable : State β :=
  match s.rescaleRecoveryFence,s.rescaleRecoveryRequiredStateRevision,s.coordinatedCheckpointBarrierId with
  | some _,some required,some barrierId =>
    if s.persistedStateRevision < required then s
    else if s.rescaleRecoveryPendingSources.any
        (fun source => (s.releasedSourceCheckpointIds.get? source).getD (-1) < barrierId) then s
    else {s with
      rescaleRecoveryFence := none
      rescaleRecoveryPendingSources := []
      rescaleRecoveryPendingSinks := []
      rescaleRecoveryRequiredStateRevision := none
      coordinatedCheckpointBarrierId := none
      coordinatedCheckpointRegisteredSources := []}
  | _,_,_ => s

/-- The progress-lock body of `_merge_aligned_checkpoint_progress`. -/
def mergeAlignedCheckpointProgress (checkpoint : Checkpoint) (sourceStates : Dict Vertex β) :
    Except Error (State β × Bool × Bool) := do
  let barrierId := checkpoint.barrierId
  let inflight := (s.inflightSinkCommittables.get? barrierId).getD ∅
  let completed ← coalesceSinkCommittables c
    (Dict.ofList (inflight.entries.map (fun item => (TaskKey.subtask item.1,item.2)))) barrierId
  let carriedDomains := carriedDomainsForCheckpoint s checkpoint
  let carriedEntries := carriedDomains.flatMap
    (fun domainId => ((s.carriedSinkCommittables.get? domainId).getD ∅).values)
  let carried ← coalesceCarriedSinkCommittables c carriedEntries
  let sourced := sourceStates.entries.foldl
    (fun state item => updateLatestSourceState state item.1 ⟨barrierId,item.2⟩) s
  let completedStates := (sourced.inflightOperatorStates.get? barrierId).getD ∅
  let popped := {sourced with inflightOperatorStates := sourced.inflightOperatorStates.erase barrierId}
  let merged := if checkpoint.coordinated then replaceLogicalOperatorStates popped completedStates
    else mergeCheckpointOperatorStates popped completedStates
  let hasCommittables := ¬ (carried.isEmpty ∧ completed.isEmpty)
  let pending := (merged.pendingSinkCommittables.update carried.entries).update
    (completed.values.map (fun entry => (entry.identity,entry)))
  let (recorded,stabilizationReady) := recordRescaleStabilizationProgress {merged with
    inflightSinkCommittables := merged.inflightSinkCommittables.erase barrierId
    pendingSinkCommittables := pending
    stateRevision := if hasCommittables then merged.stateRevision + 1 else merged.stateRevision} checkpoint
  return ({recorded with carriedSinkCommittables :=
    recorded.carriedSinkCommittables.filter (fun domainId _ => domainId ∉ carriedDomains)},
    hasCommittables,stabilizationReady)

end Klein.Coordinator
