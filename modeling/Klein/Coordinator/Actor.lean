import Klein.Coordinator.Progress
import Klein.Coroutine

/-! The coordinator as an async actor: every method is a coroutine whose awaits
are requests to the environment. Locks that are never held across an await
(`_progress_lock`) need no step of their own; polling loops wait for their
condition or for their deadline. -/
namespace Klein.Coordinator
open Coroutine

/-- What a coroutine of the coordinator waits for. `sweeping` on a release is the
rest of the timeout sweep that waits for it, and empty elsewhere. -/
inductive Request (β : Type) where
  | acquirePersistenceLock
  | waitCheckpointIo
  | sleep
  | release (barrierId : Int) (sources : List Vertex) (sweeping : List Int)
  | abortTasks (barrierId : Int)
  | collectSourceStates (barrierId : Int) (sources : List Vertex) (coordinated : Bool)
  | commit (entry : SinkEntry)
  | notifyPersisted (source : Vertex) (checkpointId : Int)
  | materialize (vertex : Vertex)
  | write (metadata : Metadata β)
  | readBack (metadata : Metadata β)
  | cleanup
  | acquireRescaleGate
  | waitFence (operationId : String)
  | waitCompleting

inductive Reply (β : Type) where
  | done
  | flag (value : Bool)
  | states (sourceStates : Dict Vertex β)
  | failed
  | failedLate
  | timedOut

abbrev Co (β : Type) := Coroutine (State β) (Request β) (Reply β) Error

variable {β : Type} (c : Config β) (me : Nat)

/-- `_finish_checkpoint_release` -/
def finishCheckpointRelease (barrierId : Int) (s : State β) : State β :=
  let released := {s with pendingCheckpointReleases := s.pendingCheckpointReleases.erase barrierId}
  if s.coordinatedCheckpointBarrierId = some barrierId then
    {released with coordinatedCheckpointBarrierId := none,coordinatedCheckpointRegisteredSources := []}
  else released

def releaseCheckpointSources (barrierId : Int) (sources : List Vertex) (sweeping : List Int) : Co β Unit := do
  modify (fun s => {s with pendingCheckpointReleases := s.pendingCheckpointReleases.set barrierId sources})
  match ← ask (.release barrierId sources sweeping) with
  | .flag true => modify (finishCheckpointRelease barrierId)
  | _ => return

/-- `_retry_pending_checkpoint_releases` over the releases found at its start. -/
def retryPendingCheckpointReleases : List (Int × List Vertex) → Co β Unit
  | [] => return
  | (barrierId,sources)::rest => do
    match ← ask (.release barrierId sources []) with
    | .flag true => modify (finishCheckpointRelease barrierId)
    | _ => pure ()
    retryPendingCheckpointReleases rest

def expireCheckpoint (barrierId : Int) (checkpoint : Checkpoint) (s : State β) : State β :=
  let popped := releaseDomainSlot {s with inflightCheckpoints := s.inflightCheckpoints.erase barrierId} checkpoint
  let carried := carryInflightSinkCommittables
    {popped with inflightOperatorStates := popped.inflightOperatorStates.erase barrierId} checkpoint
  {carried with log := {carried.log with
    failedBySweep := carried.log.failedBySweep ++ [barrierId]
    failed := carried.log.failed ++ [barrierId]}}

def expireEach : List Int → Co β Unit
  | [] => return
  | barrierId::rest => do
    match (← get).inflightCheckpoints.get? barrierId with
    | none => raise (.keyError barrierId)
    | some checkpoint =>
      modify (expireCheckpoint barrierId checkpoint)
      releaseCheckpointSources barrierId checkpoint.triggerSources rest
      expireEach rest

def staleCheckpoints (s : State β) : List Int :=
  (s.inflightCheckpoints.entries.filter (fun item =>
    item.2.triggeredAtMs.any (fun triggered => c.checkpointTimeout * 1000 < s.nowMs - triggered))).map Prod.fst

def expireStaleCheckpoints : Co β Unit := do
  let s ← get
  if c.checkpointTimeout ≤ 0 then return
  else expireEach (staleCheckpoints c s)

def commitSucceeded (identity : SinkIdentity) (s : State β) : State β :=
  {s with
    durableSinkCommittables := s.durableSinkCommittables.erase identity
    pendingSinkCommittables := s.pendingSinkCommittables.erase identity
    stateRevision := if s.pendingSinkCommittables.contains identity then s.stateRevision + 1 else s.stateRevision}

def commitEach (strict : Bool) : List (SinkIdentity × SinkEntry) → Co β Bool
  | [] => return true
  | (identity,entry)::rest => do
    match ← ask (.commit entry) with
    | .done =>
      modify (commitSucceeded identity)
      commitEach strict rest
    | _ =>
      if strict then
        raise (.checkpointCommitError ("Failed to commit sink transaction '" ++ entry.committable.transactionId ++ "'"))
      else do
        let _ ← commitEach strict rest
        return false

def commitDurableSinkCommittables (strict : Bool) : Co β Bool := do
  commitEach strict (← get).durableSinkCommittables.entries

def sourceNotified (source : Vertex) (checkpointId : Int) (succeeded : Bool) (s : State β) : State β :=
  let released := {s with releasedSourceCheckpointIds := s.releasedSourceCheckpointIds.set source checkpointId}
  if succeeded then
    {released with notifiedSourceCheckpointIds := s.notifiedSourceCheckpointIds.set source checkpointId}
  else released

def notifyEach : List Vertex → Co β Unit
  | [] => return
  | source::rest => do
    let s ← get
    match s.durableSourceStates.get? source with
    | none => notifyEach rest
    | some entry =>
      let callbackNotified := entry.checkpointId ≤ (s.notifiedSourceCheckpointIds.get? source).getD (-1)
      let sourceReleased := entry.checkpointId ≤ (s.releasedSourceCheckpointIds.get? source).getD (-1)
      if callbackNotified ∧ sourceReleased then notifyEach rest
      else if ¬ s.executionGraph.any (fun graph => source ∈ graph.tasks) then notifyEach rest
      else
        match ← ask (.notifyPersisted source entry.checkpointId) with
        | .flag succeeded =>
          modify (sourceNotified source entry.checkpointId succeeded)
          notifyEach rest
        | _ => notifyEach rest

def notifyDurableSourceCheckpoints : Co β Unit := do
  let s ← get
  match s.executionGraph with
  | none => return
  | some graph =>
    if s.durableSourceStates.isEmpty then return
    else if ¬ s.durableSinkCommittables.isEmpty then return
    else notifyEach graph.sources

/-- The operator states that a persist writes: the live ones, and the restored
ones that no live one replaces. -/
def operatorStatesToPersist (s : State β) : Dict Vertex β :=
  let restored := if s.checkpointPath.isSome then
    s.restoredOperatorStates.filter (fun vertex _ => ¬ s.latestOperatorStates.contains vertex) else ∅
  s.latestOperatorStates.update restored.entries

def sortedByKey (states : List (Vertex × β)) : List (Vertex × β) :=
  states.mergeSort (fun left right => decide ((TaskKey.subtask left.1).text ≤ (TaskKey.subtask right.1).text))

/-- The snapshot that `_persist_checkpoint_metadata` takes under the progress lock. -/
def snapshot (s : State β) : Metadata β where
  revision := s.metadataRevision + 1
  sourceStates := s.latestSourceStates
  barrierHighWater := s.barrierIdCurrent
  operatorStates := sortedByKey (operatorStatesToPersist s).entries
  sinkCommittables := s.pendingSinkCommittables.values

/-- `_validate_sink_committables`, the check that can fail on entries of the model. -/
def validMetadata (metadata : Metadata β) : Bool :=
  (metadata.sinkCommittables.map (fun entry => (entry.taskKey,entry.checkpointId))).Nodup

def publish (metadata : Metadata β) (stateRevision : Nat) (s : State β) : State β :=
  {s with
    checkpointPath := some metadata.revision
    metadataRevision := metadata.revision
    persistedStateRevision := stateRevision
    persistedHighWater := metadata.barrierHighWater
    durableSourceStates := metadata.sourceStates
    durableSinkCommittables := Dict.ofList (metadata.sinkCommittables.map (fun entry => (entry.identity,entry)))
    restoredOperatorStates := Dict.ofList metadata.operatorStates
    log := {s.log with durable := some metadata}}

def persistFailed (strict : Bool) : Co β Bool :=
  if strict then raise (.checkpointCommitError "Failed to persist checkpoint metadata") else return false

def materializeEach : List Vertex → Co β Bool
  | [] => return true
  | vertex::rest => do
    match ← ask (.materialize vertex) with
    | .done => materializeEach rest
    | _ => return false

def writeSnapshot (metadata : Metadata β) : Co β Bool := do
  if ¬ (← materializeEach (metadata.operatorStates.map Prod.fst)) then return false
  else
    match ← ask (.write metadata) with
    | .done =>
      match ← ask (.readBack metadata) with
      | .done => return true
      | _ => return false
    | _ => return false

def afterPublish (notifySources : Bool) : Co β Bool := do
  if ¬ (← commitDurableSinkCommittables false) then return true
  else do
    if notifySources then notifyDurableSourceCheckpoints
    modify clearRescaleRecoveryFenceIfDurable
    let _ ← ask .cleanup
    return true

/-- The part of a persist that snapshots the progress and writes it, unless nothing
changed since the last one. -/
def persistProgress (notifySources strict : Bool) : Co β Bool := do
  let s ← get
  if s.stateRevision ≤ s.persistedStateRevision ∧ s.barrierIdCurrent ≤ s.persistedHighWater then
    modify clearRescaleRecoveryFenceIfDurable
    return true
  else if ¬ (← writeSnapshot (snapshot s)) then persistFailed strict
  else do
    modify (publish (snapshot s) s.stateRevision)
    afterPublish notifySources

/-- The body of `_persist_checkpoint_metadata` under the persistence lock. -/
def persistLocked (notifySources strict : Bool) : Co β Bool := do
  let _ ← ask .waitCheckpointIo
  if (← get).stopping then return false
  else if ¬ (← commitDurableSinkCommittables strict) then return false
  else do
    if notifySources then notifyDurableSourceCheckpoints
    persistProgress notifySources strict

def lockPersistence (s : State β) : State β := {s with persistenceLock := some me}
def unlockPersistence (s : State β) : State β := {s with persistenceLock := none}

def persistCheckpointMetadata (notifySources strict : Bool) : Co β Bool := do
  let _ ← ask .acquirePersistenceLock
  modify (lockPersistence me)
  finish (persistLocked notifySources strict) (modify unlockPersistence)

/-- `checkpoint.mark_failed` -/
def markFailed (barrierId : Int) (s : State β) : State β :=
  {s with log := {s.log with failed := s.log.failed ++ [barrierId]}}

def failCheckpoint (checkpoint : Checkpoint) (barrierId : Int) (waitForTaskAbort : Bool) : Co β Unit := do
  modify (fun s => carryInflightSinkCommittables
    {s with inflightOperatorStates := s.inflightOperatorStates.erase barrierId} checkpoint)
  releaseCheckpointSources barrierId checkpoint.triggerSources []
  if waitForTaskAbort then do
    let _ ← ask (.abortTasks barrierId)
    modify (markFailed barrierId)
  else modify (markFailed barrierId)

/-- `_collect_domain_source_states`: every source answers, or nothing counts. -/
def collectDomainSourceStates (checkpoint : Checkpoint) (barrierId : Int) : Co β (Option (Dict Vertex β)) := do
  let tasks := ((← get).executionGraph.map ExecutionGraph.tasks).getD []
  if ¬ checkpoint.triggerSources ⊆ tasks then return none
  else
    match ← ask (.collectSourceStates barrierId checkpoint.triggerSources checkpoint.coordinated) with
    | .states sourceStates => return some sourceStates
    | _ => return none

def markComplete (checkpoint : Checkpoint) (barrierId : Int) (s : State β) : State β :=
  {s with
    finishedSources := checkpoint.eofSources ∪ s.finishedSources
    log := {s.log with completed := s.log.completed ++ [barrierId]}}

/-- The `try` body of `_complete_aligned_checkpoint`. -/
def commitCut (checkpoint : Checkpoint) (barrierId : Int) : Co β Bool := do
  match ← collectDomainSourceStates checkpoint barrierId with
  | none =>
    failCheckpoint checkpoint barrierId false
    return false
  | some sourceStates =>
    match mergeAlignedCheckpointProgress c (← get) checkpoint sourceStates with
    | .error error => raise error
    | .ok (merged,hasCommittables,stabilizationReady) =>
      modify (fun _ => merged)
      if hasCommittables ∨ stabilizationReady then do
        let _ ← persistCheckpointMetadata me true true
      modify (markComplete checkpoint barrierId)
      return true

def completeAlignedCheckpoint (checkpoint : Checkpoint) (barrierId : Int) : Co β Bool :=
  handle (commitCut c me checkpoint barrierId) (fun error =>
    match error with
    | .checkpointCommitError _ => do
      modify (markFailed barrierId)
      releaseCheckpointSources barrierId checkpoint.triggerSources []
      raise error
    | _ => do
      modify (fun s => carryInflightSinkCommittables
        {s with inflightOperatorStates := s.inflightOperatorStates.erase barrierId} checkpoint)
      releaseCheckpointSources barrierId checkpoint.triggerSources []
      modify (markFailed barrierId)
      return false)

def beginCompletion (barrierId : Int) (s : State β) : State β :=
  {s with
    inflightCheckpoints := s.inflightCheckpoints.erase barrierId
    completingCheckpoints := s.completingCheckpoints.insert barrierId
    log := {s.log with poppedByAck := s.log.poppedByAck ++ [barrierId]}}

def noteCompleter (barrierId : Int) (s : State β) : State β :=
  {s with log := {s.log with completer := s.log.completer.set barrierId me}}

def endCompletion (checkpoint : Checkpoint) (barrierId : Int) (s : State β) : State β :=
  let released := releaseDomainSlot s checkpoint
  {released with completingCheckpoints := released.completingCheckpoints.erase barrierId}

def notifyCheckpointAligned (barrierId : Int) (vertex : Vertex) : Co β Bool := do
  let s ← get
  if s.stopping then return false
  else
    match s.inflightCheckpoints.get? barrierId with
    | none => return false
    | some checkpoint =>
      if checkpoint.status.isTerminal then return false
      else if checkpoint.requiredCommitters ≠ [] ∧ vertex ∉ checkpoint.requiredCommitters then return false
      else
        let (acknowledged,ready) := checkpoint.acknowledge vertex
        if ¬ ready then do
          modify (fun s => {s with inflightCheckpoints := s.inflightCheckpoints.set barrierId acknowledged})
          return true
        else do
          modify (beginCompletion barrierId)
          modify (noteCompleter me barrierId)
          finish (completeAlignedCheckpoint c me acknowledged barrierId)
            (modify (endCompletion acknowledged barrierId))

/-- `_track_checkpoint` with `next(self._barrier_id_gen)` -/
def trackCheckpoint (checkpoint : Checkpoint) (s : State β) : State β :=
  {s with
    barrierIdCurrent := checkpoint.barrierId
    inflightCheckpoints := s.inflightCheckpoints.set checkpoint.barrierId
      {checkpoint with triggeredAtMs := some s.nowMs,status := .inProgress}
    log := {s.log with
      issued := s.log.issued ++ [checkpoint.barrierId]
      tracked := s.log.tracked ++ [checkpoint]}}

def newCheckpoint (barrierId : Int) (requiredAcknowledgements : Nat) (triggerSources : List Vertex)
    (coordinated : Bool) (domainId : Option String) (requiredCommitters : List Vertex) : Checkpoint :=
  ⟨barrierId,requiredAcknowledgements,triggerSources,coordinated,domainId,requiredCommitters,none,.created,[],[],[]⟩

def vertexLe (left right : Vertex) : Bool :=
  left.jobVertexId < right.jobVertexId || (left.jobVertexId = right.jobVertexId && left.index ≤ right.index)

/-- Depth-first search; each edge is pushed once, so `fuel` bounds the pops. -/
def reachableFrom (edges : List (Vertex × Vertex)) : Nat → List Vertex → List Vertex → List Vertex
  | 0,_,reachable => reachable
  | _,[],reachable => reachable
  | fuel+1,vertex::stack,reachable =>
    if vertex ∈ reachable then reachableFrom edges fuel stack reachable
    else reachableFrom edges fuel
      ((edges.filter (fun edge => edge.1 = vertex)).map Prod.snd ++ stack) (vertex::reachable)

def reachableDomainSinks (graph : ExecutionGraph) (domain : CheckpointDomain) (sources : List Vertex) : List Vertex :=
  let edges := graph.edges.filter (fun edge => edge.1 ∈ domain.vertexIds ∧ edge.2 ∈ domain.vertexIds)
  let reachable := reachableFrom edges (sources.length + edges.length + 1) sources []
  (domain.sinkVertexIds.filter (· ∈ reachable)).insertionSort (fun left right => vertexLe left right)

/-- The end of `_register_rescale_stabilization_checkpoint`: join the shared epoch,
or start it. -/
def joinStabilizationEpoch (vertex : Vertex) (s : State β) : State β :=
  if vertex ∈ s.coordinatedCheckpointRegisteredSources then s
  else
    match s.coordinatedCheckpointBarrierId,s.executionGraph with
    | some _,_ => {s with
        coordinatedCheckpointRegisteredSources := s.coordinatedCheckpointRegisteredSources.insert vertex}
    | none,none => s
    | none,some graph =>
      let pendingSinks := if s.rescaleRecoveryPendingSinks = [] then graph.sinks else s.rescaleRecoveryPendingSinks
      if pendingSinks = [] then s
      else
        let barrierId := s.barrierIdCurrent + 1
        let sources := s.rescaleRecoveryPendingSources.mergeSort vertexLe
        let committers := pendingSinks.dedup.mergeSort vertexLe
        let domains := (sources.filterMap
          (fun source => (checkpointDomainForSource s source).map CheckpointDomain.id)).dedup
        let domainId := match domains with
          | [domain] => some domain
          | _ => none
        let tracked := trackCheckpoint
          (newCheckpoint barrierId committers.length sources true domainId committers) s
        {tracked with
          activeCheckpointByDomain := match domainId with
            | some domain => tracked.activeCheckpointByDomain.set domain barrierId
            | none => tracked.activeCheckpointByDomain
          coordinatedCheckpointBarrierId := some barrierId
          coordinatedCheckpointRegisteredSources := s.coordinatedCheckpointRegisteredSources.insert vertex}

def registerRescaleStabilizationCheckpoint (vertex : Vertex) (s : State β) : State β :=
  if vertex ∉ s.rescaleRecoveryPendingSources then s
  else if s.coordinatedCheckpointBarrierId.any (fun barrierId => s.pendingCheckpointReleases.contains barrierId) then s
  else
    let gone := s.coordinatedCheckpointBarrierId.any (fun barrierId =>
      ¬ s.inflightCheckpoints.contains barrierId ∧ barrierId ∉ s.completingCheckpoints)
    if gone ∧ s.rescaleRecoveryRequiredStateRevision.any (· ≤ s.persistedStateRevision) then s
    else if gone then joinStabilizationEpoch vertex
      {s with coordinatedCheckpointBarrierId := none,coordinatedCheckpointRegisteredSources := []}
    else joinStabilizationEpoch vertex s

/-- The domain slot, the trigger sources, the committers and the number of
acknowledgements of an ordinary checkpoint, or nothing when its source is finished. -/
def checkpointScope (vertex : Vertex) (s : State β) : Option (String × List Vertex × List Vertex × Nat) :=
  match s.executionGraph,checkpointDomainForSource s vertex with
  | some graph,some domain =>
    let triggerSources := domain.sourceVertexIds.filter (· ∉ s.finishedSources)
    if vertex ∉ triggerSources then none
    else
      let committers := reachableDomainSinks graph domain triggerSources
      some (domain.id,triggerSources,committers,committers.length)
  | _,_ =>
    some ("legacy-source-" ++ toString vertex.jobVertexId ++ "-" ++ toString vertex.index,[vertex],[],
      (s.requiredAcknowledgements.get? vertex).getD 0)

/-- `register_checkpoint`; a call that skips leaves the memory unchanged. -/
def registerCheckpoint (vertex : Vertex) (force : Bool) (s : State β) : State β :=
  if s.rescaleOperationId.isSome then s
  else if s.rescaleRecoveryFence.isSome then registerRescaleStabilizationCheckpoint vertex s
  else
    match checkpointScope vertex s with
    | none => s
    | some (domainId,triggerSources,committers,required) =>
      if s.activeCheckpointByDomain.contains domainId then s
      else if required = 0 then s
      else if ¬ force ∧ c.maxConcurrentCheckpoints ≤ s.inflightCheckpoints.entries.length then s
      else
        let barrierId := s.barrierIdCurrent + 1
        let tracked := trackCheckpoint
          (newCheckpoint barrierId required triggerSources false (some domainId) committers) s
        {tracked with activeCheckpointByDomain := tracked.activeCheckpointByDomain.set domainId barrierId}

def sourceCheckpointStarted (barrierId : Int) (vertex : Vertex) (isEof : Bool) (s : State β) : State β :=
  match s.inflightCheckpoints.get? barrierId with
  | none => s
  | some checkpoint =>
    if checkpoint.status.isTerminal then s
    else {s with inflightCheckpoints :=
      s.inflightCheckpoints.set barrierId (checkpoint.markSourceStarted vertex isEof).1}

def registerOperatorState [DecidableEq β] (barrierId : Int) (vertex : Vertex) (reference : β) (s : State β) :
    Except Error (State β) :=
  if ¬ s.inflightCheckpoints.contains barrierId then .ok s
  else
    match ((s.inflightOperatorStates.get? barrierId).getD ∅).get? vertex with
    | some existing =>
      if existing ≠ reference then
        .error (.valueError ("operator " ++ (TaskKey.subtask vertex).text ++
          " registered different state for checkpoint " ++ toString barrierId))
      else .ok {s with inflightOperatorStates := s.inflightOperatorStates.setInner barrierId vertex reference}
    | none => .ok {s with inflightOperatorStates := s.inflightOperatorStates.setInner barrierId vertex reference}

def putSinkCommittable (barrierId : Int) (vertex : Vertex) (committable : SinkCommittable) (s : State β) : State β :=
  let writer : Writer := ⟨vertex,barrierId,committable.transactionId⟩
  {s with
    inflightSinkCommittables := s.inflightSinkCommittables.setInner barrierId vertex
      ⟨.subtask vertex,barrierId,committable,[writer]⟩
    log := {s.log with registered := s.log.registered.insert writer}}

def registerSinkCommittable (barrierId : Int) (vertex : Vertex) (committable : SinkCommittable) (s : State β) :
    Except Error (State β × Bool) :=
  match s.inflightCheckpoints.get? barrierId with
  | none => .ok (s,false)
  | some checkpoint =>
    if checkpoint.status.isTerminal then .ok (s,false)
    else if checkpoint.requiredCommitters ≠ [] ∧ vertex ∉ checkpoint.requiredCommitters then .ok (s,false)
    else if ¬ committable.named then .error unnamedTransaction
    else
      match ((s.inflightSinkCommittables.get? barrierId).getD ∅).get? vertex with
      | some existing =>
        if existing.committable.transactionId ≠ committable.transactionId then
          .error (.valueError ("sink " ++ (TaskKey.subtask vertex).text ++
            " registered different transactions for checkpoint " ++ toString barrierId))
        else .ok (putSinkCommittable barrierId vertex committable s,true)
      | none => .ok (putSinkCommittable barrierId vertex committable s,true)

end Klein.Coordinator
