import Klein.Coordinator.System

/-! What the segments of the coordinator's methods do to the actor's memory. The
view of a state is the part of it that the results are about, in four groups;
`Effect` lists what a segment can do to the view apart from the maintenance worker
and the persistence path, with what is known where it happens. -/
namespace Klein.Coordinator
open List Option

variable {β : Type}

structure Durability (β : Type) where
  metadataRevision : Nat
  persistedStateRevision : Nat
  persistedHighWater : Int
  checkpointPath : Option Nat
  durableSourceStates : Dict Vertex (SourceEntry β)
  durableSinkCommittables : Dict SinkIdentity SinkEntry
  persistenceLock : Option Nat
  checkpointIoTasks : List (Metadata β)
  storage : Storage β
  durable : Option (Metadata β)
  committed : List SinkEntry
  written : List (Metadata β)
  worker : Worker
  barrierEpochFloor : Int
  earlier : List Int

structure Flight where
  inflightCheckpoints : Dict Int Checkpoint
  barrierIdCurrent : Int
  issued : List Int
  poppedByAck : List Int
  failedBySweep : List Int
  completed : List Int

structure Sinks where
  inflightSinkCommittables : Dict Int (Dict Vertex SinkEntry)
  carriedSinkCommittables : Dict (Option String) (Dict SinkIdentity SinkEntry)
  pendingSinkCommittables : Dict SinkIdentity SinkEntry
  registered : List Writer

structure Progress (β : Type) where
  stateRevision : Nat
  latestSourceStates : Dict Vertex (SourceEntry β)
  latestOperatorStates : Dict Vertex β
  restoredOperatorStates : Dict Vertex β

structure View (β : Type) where
  durability : Durability β
  flight : Flight
  sinks : Sinks
  progress : Progress β

def State.durability (s : State β) : Durability β :=
  ⟨s.metadataRevision,s.persistedStateRevision,s.persistedHighWater,s.checkpointPath,s.durableSourceStates,
    s.durableSinkCommittables,s.persistenceLock,s.checkpointIoTasks,s.storage,s.log.durable,s.log.committed,
    s.log.written,s.worker,s.barrierEpochFloor,s.log.earlier⟩

def State.flight (s : State β) : Flight :=
  ⟨s.inflightCheckpoints,s.barrierIdCurrent,s.log.issued,s.log.poppedByAck,s.log.failedBySweep,
    s.log.completed⟩

def State.sinks (s : State β) : Sinks :=
  ⟨s.inflightSinkCommittables,s.carriedSinkCommittables,s.pendingSinkCommittables,s.log.registered⟩

def State.progress (s : State β) : Progress β :=
  ⟨s.stateRevision,s.latestSourceStates,s.latestOperatorStates,s.restoredOperatorStates⟩

def State.view (s : State β) : View β := ⟨s.durability,s.flight,s.sinks,s.progress⟩

def Gone (barrierId : Int) (s : State β) : Prop :=
  barrierId ≤ s.barrierIdCurrent ∧ s.inflightCheckpoints.get? barrierId = none

abbrev Start (β : Type) := Contract.Segment (State β) (Request β) (Reply β) (Call β)

inductive Effect (c : Config β) (segment : Start β) (before after : State β) : Prop where
  | quiet (same : after.view = before.view)
  | carry (checkpoint : Checkpoint) (gone : Gone checkpoint.barrierId before)
      (changed : after.view = {before.view with sinks := (carryInflightSinkCommittables before checkpoint).sinks})
  | merge (checkpoint : Checkpoint) (sourceStates : Dict Vertex β) (hasCommittables stabilizationReady : Bool)
      (gone : Gone checkpoint.barrierId before)
      (done : mergeAlignedCheckpointProgress c before checkpoint sourceStates =
        .ok (after,hasCommittables,stabilizationReady))
  | complete (barrierId : Int) (popped : barrierId ∈ before.log.poppedByAck)
      (changed : after.view = {before.view with
        flight := {before.flight with completed := before.log.completed ++ [barrierId]}})
  | touch (barrierId : Int) (checkpoint touched : Checkpoint)
      (found : before.inflightCheckpoints.get? barrierId = some checkpoint)
      (same : touched.barrierId = checkpoint.barrierId)
      (changed : after.view = {before.view with
        flight := {before.flight with inflightCheckpoints := before.inflightCheckpoints.set barrierId touched}})
  | beginCompletion (barrierId : Int) (vertex : Vertex) (checkpoint : Checkpoint)
      (called : segment = ⟨.call (.notifyCheckpointAligned barrierId vertex),before⟩)
      (found : before.inflightCheckpoints.get? barrierId = some checkpoint)
      (ready : (checkpoint.acknowledge vertex).2 = true)
      (changed : after.view = (beginCompletion barrierId before).view)
  | track (checkpoint : Checkpoint) (fresh : checkpoint.barrierId = before.barrierIdCurrent + 1)
      (changed : after.view = {before.view with flight := {before.flight with
        barrierIdCurrent := checkpoint.barrierId
        inflightCheckpoints := before.inflightCheckpoints.set checkpoint.barrierId checkpoint
        issued := before.log.issued ++ [checkpoint.barrierId]}})
  | sink (barrierId : Int) (vertex : Vertex) (committable : SinkCommittable) (checkpoint : Checkpoint)
      (called : segment.origin = .call (.registerSinkCommittable barrierId vertex committable))
      (found : before.inflightCheckpoints.get? barrierId = some checkpoint)
      (agrees : ∀ existing, ((before.inflightSinkCommittables.get? barrierId).getD ∅).get? vertex = some existing →
        existing.committable.transactionId = committable.transactionId)
      (changed : after.view = (putSinkCommittable barrierId vertex committable before).view)
  | detach (operationId : String) (resumed : segment.origin = .reply (.waitFence operationId) .done)
      (admitted : segment.start.rescaleOperationId.any (· ≠ operationId) = false)
      (changed : after.view = {before.view with flight := {before.flight with inflightCheckpoints := ∅}})
  | remap (graph : ExecutionGraph)
      (changed : after.view = {before.view with sinks := (remapCarriedSinkDomains before graph).sinks})

theorem flight_fields (before after : State β) (flight : after.flight = before.flight) :
    after.inflightCheckpoints = before.inflightCheckpoints ∧ after.barrierIdCurrent = before.barrierIdCurrent ∧
      after.log.poppedByAck = before.log.poppedByAck ∧ after.log.failedBySweep = before.log.failedBySweep ∧
      after.log.completed = before.log.completed :=
  ⟨congrArg Flight.inflightCheckpoints flight,congrArg Flight.barrierIdCurrent flight,congrArg Flight.poppedByAck flight,
    congrArg Flight.failedBySweep flight,congrArg Flight.completed flight⟩

theorem sinks_fields (before after : State β) (sinks : after.sinks = before.sinks) :
    after.inflightSinkCommittables = before.inflightSinkCommittables ∧
      after.carriedSinkCommittables = before.carriedSinkCommittables ∧
      after.pendingSinkCommittables = before.pendingSinkCommittables :=
  ⟨congrArg Sinks.inflightSinkCommittables sinks,congrArg Sinks.carriedSinkCommittables sinks,
    congrArg Sinks.pendingSinkCommittables sinks⟩

theorem acknowledge_barrierId (checkpoint : Checkpoint) (vertex : Vertex) :
    (checkpoint.acknowledge vertex).1.barrierId = checkpoint.barrierId := by
  unfold Checkpoint.acknowledge
  split
  · rfl
  · split <;> rfl

section frames
variable (s : State β)

@[simp] theorem releaseDomainSlot_view (checkpoint : Checkpoint) : (releaseDomainSlot s checkpoint).view = s.view := by
  unfold releaseDomainSlot
  repeat' split
  all_goals rfl

@[simp] theorem finishCheckpointRelease_view (barrierId : Int) : (finishCheckpointRelease barrierId s).view = s.view := by
  unfold finishCheckpointRelease
  dsimp only
  split <;> rfl

@[simp] theorem clearRescaleRecoveryFenceIfDurable_view : (clearRescaleRecoveryFenceIfDurable s).view = s.view := by
  unfold clearRescaleRecoveryFenceIfDurable
  repeat' split
  all_goals rfl

@[simp] theorem endCompletion_view (checkpoint : Checkpoint) (barrierId : Int) :
    (endCompletion checkpoint barrierId s).view = s.view := releaseDomainSlot_view s checkpoint

@[simp] theorem finishOperatorRescale_view (operationId : String) (committed : Bool) (target : Option Nat) :
    (finishOperatorRescale operationId committed target s).view = s.view := by
  unfold finishOperatorRescale
  repeat' split
  all_goals rfl

@[simp] theorem sourceNotified_view (source : Vertex) (checkpointId : Int) (succeeded : Bool) :
    (sourceNotified source checkpointId succeeded s).view = s.view := by
  unfold sourceNotified
  dsimp only
  split <;> rfl

theorem carryInflightSinkCommittables_view (checkpoint : Checkpoint) :
    (carryInflightSinkCommittables s checkpoint).view =
      {s.view with sinks := (carryInflightSinkCommittables s checkpoint).sinks} := by
  unfold carryInflightSinkCommittables
  dsimp only
  split <;> rfl

private theorem foldl_erase_eq_empty (items : List (Int × Checkpoint)) (dict : Dict Int Checkpoint)
    (inside : ∀ item ∈ dict.entries, item.1 ∈ items.map Prod.fst) :
    items.foldl (fun rest item => rest.erase item.1) dict = ∅ := by
  induction items generalizing dict with
  | nil =>
    ext1
    exact eq_nil_iff_forall_not_mem.mpr (fun item found => by simpa using inside item found)
  | cons item rest ih =>
    refine ih (dict.erase item.1) (fun other found => ?_)
    obtain ⟨kept,different⟩ := mem_filter.mp found
    have listed := inside other kept
    rw [map_cons,mem_cons] at listed
    exact listed.resolve_left (by simpa using different)

private theorem detachEach_view (items : List (Int × Checkpoint)) (state : State β) :
    (items.foldl (fun state item => releaseDomainSlot
      {state with inflightCheckpoints := state.inflightCheckpoints.erase item.1} item.2) state).view =
    {state.view with flight := {state.view.flight with inflightCheckpoints := (items.foldl
      (fun rest item => rest.erase item.1) state.view.flight.inflightCheckpoints)}} := by
  induction items generalizing state with
  | nil => rfl
  | cons item rest ih =>
    rw [foldl_cons,ih,releaseDomainSlot_view]
    rfl

theorem detachInflightCheckpoints_view :
    (detachInflightCheckpoints s).view = {s.view with flight := {s.flight with inflightCheckpoints := ∅}} := by
  have nothing := foldl_erase_eq_empty s.inflightCheckpoints.entries s.inflightCheckpoints
    (fun item inside => List.mem_map.mpr ⟨item,inside,rfl⟩)
  unfold detachInflightCheckpoints
  rw [detachEach_view]
  exact congrArg (fun inflight => {s.view with flight := {s.flight with inflightCheckpoints := inflight}}) nothing

end frames

structure Advances (before after : State β) : Prop where
  revision : before.stateRevision ≤ after.stateRevision
  sources : ∀ vertex entry, before.latestSourceStates.get? vertex = some entry →
    ∃ latest, after.latestSourceStates.get? vertex = some latest ∧ entry.checkpointId ≤ latest.checkpointId
  still : after.stateRevision = before.stateRevision → after.progress = before.progress ∧
    after.pendingSinkCommittables = before.pendingSinkCommittables

theorem Advances.refl (s : State β) : Advances s s :=
  ⟨Nat.le_refl _,fun _ entry found => ⟨entry,found,Int.le_refl _⟩,fun _ => ⟨rfl,rfl⟩⟩

theorem Advances.trans (first second third : State β) (left : Advances first second) (right : Advances second third) :
    Advances first third := by
  refine ⟨Nat.le_trans left.revision right.revision,fun vertex entry found => ?_,fun same => ?_⟩
  · obtain ⟨middle,stored,lower⟩ := left.sources vertex entry found
    obtain ⟨latest,final,upper⟩ := right.sources vertex middle stored
    exact ⟨latest,final,Int.le_trans lower upper⟩
  · have low := left.revision
    have high := right.revision
    obtain ⟨progress,pending⟩ := left.still (by omega)
    obtain ⟨progress',pending'⟩ := right.still (by omega)
    exact ⟨progress'.trans progress,pending'.trans pending⟩

structure Moves (before after : State β) : Prop extends Advances before after where
  durability : after.durability = before.durability
  flight : after.flight = before.flight
  sinks : after.sinks = before.sinks

theorem Moves.refl (s : State β) : Moves s s := ⟨Advances.refl s,rfl,rfl,rfl⟩

theorem Moves.trans (first second third : State β) (left : Moves first second) (right : Moves second third) :
    Moves first third :=
  ⟨left.toAdvances.trans _ _ _ right.toAdvances,right.durability.trans left.durability,
    right.flight.trans left.flight,right.sinks.trans left.sinks⟩

theorem Moves.bumped (before after : State β) (revision : after.stateRevision = before.stateRevision + 1)
    (sources : ∀ vertex entry, before.latestSourceStates.get? vertex = some entry →
      ∃ latest, after.latestSourceStates.get? vertex = some latest ∧ entry.checkpointId ≤ latest.checkpointId)
    (durability : after.durability = before.durability) (flight : after.flight = before.flight)
    (sinks : after.sinks = before.sinks) : Moves before after :=
  ⟨⟨by omega,sources,fun same => by omega⟩,durability,flight,sinks⟩

theorem Moves.sources_refl (s : State β) (vertex : Vertex) (entry : SourceEntry β)
    (found : s.latestSourceStates.get? vertex = some entry) :
    ∃ latest, s.latestSourceStates.get? vertex = some latest ∧ entry.checkpointId ≤ latest.checkpointId :=
  ⟨entry,found,Int.le_refl _⟩

theorem updateLatestSourceState_moves (s : State β) (vertex : Vertex) (entry : SourceEntry β) :
    Moves s (updateLatestSourceState s vertex entry) := by
  have stored (newer : ∀ current, s.latestSourceStates.get? vertex = some current →
      current.checkpointId ≤ entry.checkpointId) :
      Moves s {s with
        latestSourceStates := s.latestSourceStates.set vertex entry
        stateRevision := s.stateRevision + 1} := by
    refine Moves.bumped _ _ rfl (fun other old found => ?_) rfl rfl rfl
    by_cases same : other = vertex
    · subst same
      exact ⟨entry,by simp,newer old found⟩
    · exact ⟨old,by simp [same,found],Int.le_refl _⟩
  unfold updateLatestSourceState
  split
  next current found =>
    split
    next older =>
      refine stored (fun other same => ?_)
      rw [found,some_inj] at same
      subst same
      omega
    next => exact Moves.refl s
  next missing => exact stored (fun other same => by simp [missing] at same)

theorem updateEach_moves (items : List (Vertex × β)) (barrierId : Int) (s : State β) :
    Moves s (items.foldl (fun state item => updateLatestSourceState state item.1 ⟨barrierId,item.2⟩) s) := by
  induction items generalizing s with
  | nil => exact Moves.refl s
  | cons item rest ih => exact (updateLatestSourceState_moves s item.1 ⟨barrierId,item.2⟩).trans _ _ _ (ih _)

theorem replaceLogicalOperatorStates_moves (s : State β) (completed : Dict Vertex β) :
    Moves s (replaceLogicalOperatorStates s completed) := by
  unfold replaceLogicalOperatorStates
  dsimp only
  split
  · exact Moves.refl s
  · exact Moves.bumped _ _ rfl (Moves.sources_refl s) rfl rfl rfl

theorem mergeCheckpointOperatorStates_moves (s : State β) (completed : Dict Vertex β) :
    Moves s (mergeCheckpointOperatorStates s completed) := by
  unfold mergeCheckpointOperatorStates
  split
  · exact Moves.refl s
  · exact Moves.bumped _ _ rfl (Moves.sources_refl s) rfl rfl rfl

private theorem filter_not_any (states : Dict Vertex β) (stale : Vertex → Bool)
    (nothing : states.keys.any stale = false) :
    states.filter (fun vertex _ => ! stale vertex) = states := by
  refine Dict.filter_eq_self _ states (fun item inside => ?_)
  have fresh := List.any_eq_false.mp nothing item.1 (List.mem_map.mpr ⟨item,inside,rfl⟩)
  simpa using fresh

theorem finalizeRescaleOperatorStates_moves (s : State β) (operationId : String) :
    Moves s (finalizeRescaleOperatorStates s operationId) := by
  refine ⟨⟨?_,Moves.sources_refl s,fun same => ⟨?_,rfl⟩⟩,rfl,rfl,rfl⟩
  · simp only [finalizeRescaleOperatorStates]
    split <;> omega
  · simp only [finalizeRescaleOperatorStates,State.progress] at same ⊢
    split at same
    next => omega
    next unchanged =>
      obtain ⟨latest,restored⟩ := Bool.or_eq_false_iff.mp (Bool.eq_false_iff.mpr unchanged)
      rw [if_neg unchanged]
      congr 1
      · simpa using filter_not_any _ _ latest
      · simpa using filter_not_any _ _ restored

theorem recordRescaleStabilizationProgress_moves (s : State β) (checkpoint : Checkpoint) :
    Moves s (recordRescaleStabilizationProgress s checkpoint).1 := by
  unfold recordRescaleStabilizationProgress
  split
  next => exact Moves.refl s
  next operationId fenced =>
    have finalized := finalizeRescaleOperatorStates_moves s operationId
    split
    next => exact Moves.refl s
    next =>
      split
      next => exact Moves.refl s
      next =>
        dsimp only
        split
        next => exact finalized
        next => exact {finalized with}

def ownSinkCommittables (s : State β) (barrierId : Int) : Dict TaskKey SinkEntry :=
  Dict.ofList (((s.inflightSinkCommittables.get? barrierId).getD ∅).entries.map
    (fun item => (TaskKey.subtask item.1,item.2)))

def coveredSinkCommittables (s : State β) (checkpoint : Checkpoint) : List SinkEntry :=
  (carriedDomainsForCheckpoint s checkpoint).flatMap
    (fun domainId => ((s.carriedSinkCommittables.get? domainId).getD ∅).values)

private theorem merged_moves (s : State β) (checkpoint : Checkpoint) (sourceStates : Dict Vertex β) :
    ∃ merged : State β, Moves s merged ∧ merged =
      (let sourced := sourceStates.entries.foldl
        (fun state item => updateLatestSourceState state item.1 ⟨checkpoint.barrierId,item.2⟩) s
      let completedStates := (sourced.inflightOperatorStates.get? checkpoint.barrierId).getD ∅
      let popped := {sourced with
        inflightOperatorStates := sourced.inflightOperatorStates.erase checkpoint.barrierId}
      if checkpoint.coordinated then replaceLogicalOperatorStates popped completedStates
      else mergeCheckpointOperatorStates popped completedStates) := by
  refine ⟨_,?_,rfl⟩
  have sourced := updateEach_moves sourceStates.entries checkpoint.barrierId s
  have popped (state : State β) : Moves state {state with
      inflightOperatorStates := state.inflightOperatorStates.erase checkpoint.barrierId} :=
    ⟨⟨Nat.le_refl _,Moves.sources_refl state,fun _ => ⟨rfl,rfl⟩⟩,rfl,rfl,rfl⟩
  dsimp only
  split
  · exact (sourced.trans _ _ _ (popped _)).trans _ _ _ (replaceLogicalOperatorStates_moves _ _)
  · exact (sourced.trans _ _ _ (popped _)).trans _ _ _ (mergeCheckpointOperatorStates_moves _ _)

private def settle (merged : State β) (checkpoint : Checkpoint) (completed : Dict TaskKey SinkEntry)
    (carried : Dict SinkIdentity SinkEntry) : State β :=
  {merged with
    inflightSinkCommittables := merged.inflightSinkCommittables.erase checkpoint.barrierId
    pendingSinkCommittables := (merged.pendingSinkCommittables.update carried.entries).update
      (completed.values.map (fun entry => (entry.identity,entry)))
    stateRevision := if ¬ (carried.isEmpty ∧ completed.isEmpty) then merged.stateRevision + 1
      else merged.stateRevision}

private theorem settle_advances (merged : State β) (checkpoint : Checkpoint) (completed : Dict TaskKey SinkEntry)
    (carried : Dict SinkIdentity SinkEntry) : Advances merged (settle merged checkpoint completed carried) := by
  refine ⟨?_,Moves.sources_refl merged,fun same => ?_⟩
  · simp only [settle]
    split <;> omega
  · simp only [settle] at same
    split at same
    next => omega
    next nothing =>
      obtain ⟨noCarried,noCompleted⟩ := not_not.mp nothing
      have carriedNil : carried.entries = [] := List.isEmpty_iff.mp noCarried
      have completedNil : completed.entries = [] := List.isEmpty_iff.mp noCompleted
      simp [settle,State.progress,carriedNil,completedNil,Dict.values,nothing]

structure Merged (c : Config β) (checkpoint : Checkpoint) (before after : State β) (completed : Dict TaskKey SinkEntry)
    (carried : Dict SinkIdentity SinkEntry) : Prop where
  completing : coalesceSinkCommittables c (ownSinkCommittables before checkpoint.barrierId) checkpoint.barrierId =
    .ok completed
  carrying : coalesceCarriedSinkCommittables c (coveredSinkCommittables before checkpoint) = .ok carried
  durability : after.durability = before.durability
  flight : after.flight = before.flight
  advances : Advances before after
  sinks : after.sinks = {before.sinks with
    inflightSinkCommittables := before.inflightSinkCommittables.erase checkpoint.barrierId
    carriedSinkCommittables := before.carriedSinkCommittables.filter
      (fun domainId _ => domainId ∉ carriedDomainsForCheckpoint before checkpoint)
    pendingSinkCommittables := (before.pendingSinkCommittables.update carried.entries).update
      (completed.values.map (fun entry => (entry.identity,entry)))}

theorem mergeAlignedCheckpointProgress_merged (c : Config β) (before after : State β) (checkpoint : Checkpoint)
    (sourceStates : Dict Vertex β) (hasCommittables stabilizationReady : Bool)
    (done : mergeAlignedCheckpointProgress c before checkpoint sourceStates =
      .ok (after,hasCommittables,stabilizationReady)) :
    ∃ completed carried, Merged c checkpoint before after completed carried := by
  simp only [mergeAlignedCheckpointProgress,bind,Except.bind] at done
  split at done
  next => contradiction
  next completed completing =>
    split at done
    next => contradiction
    next carried carrying =>
      simp only [pure,Except.pure,Except.ok.injEq,Prod.mk.injEq] at done
      obtain ⟨merged,moves,definition⟩ := merged_moves before checkpoint sourceStates
      dsimp only at definition
      rw [← definition] at done
      obtain ⟨rfl,-,-⟩ := done
      have settled := settle_advances merged checkpoint completed carried
      have recorded := recordRescaleStabilizationProgress_moves (settle merged checkpoint completed carried) checkpoint
      have advances := (moves.toAdvances.trans _ _ _ settled).trans _ _ _ recorded.toAdvances
      refine ⟨completed,carried,completing,carrying,recorded.durability.trans moves.durability,
        recorded.flight.trans moves.flight,{advances with},?_⟩
      refine (congrArg (fun sinks : Sinks => {sinks with
        carriedSinkCommittables := sinks.carriedSinkCommittables.filter
          (fun domainId _ => domainId ∉ carriedDomainsForCheckpoint before checkpoint)}) recorded.sinks).trans ?_
      exact congrArg (fun sinks : Sinks => {sinks with
        inflightSinkCommittables := sinks.inflightSinkCommittables.erase checkpoint.barrierId
        carriedSinkCommittables := sinks.carriedSinkCommittables.filter
          (fun domainId _ => domainId ∉ carriedDomainsForCheckpoint before checkpoint)
        pendingSinkCommittables := (sinks.pendingSinkCommittables.update carried.entries).update
          (completed.values.map (fun entry : SinkEntry => (entry.identity,entry)))}) moves.sinks

section methods
variable (c : Config β) (segment : Start β) (s : State β)

theorem Effect.trackCheckpoint (before after : State β) (checkpoint : Checkpoint) (same : s.view = before.view)
    (fresh : checkpoint.barrierId = s.barrierIdCurrent + 1)
    (changed : after.view = (trackCheckpoint checkpoint s).view) : Effect c segment before after := by
  have current : s.barrierIdCurrent = before.barrierIdCurrent :=
    congrArg (fun view => view.flight.barrierIdCurrent) same
  refine .track {checkpoint with triggeredAtMs := some s.nowMs,status := .inProgress} (fresh.trans (by rw [current]))
    (changed.trans ?_)
  exact congrArg (fun view : View β => {view with flight := {view.flight with
    barrierIdCurrent := checkpoint.barrierId
    inflightCheckpoints := view.flight.inflightCheckpoints.set checkpoint.barrierId
      {checkpoint with triggeredAtMs := some s.nowMs,status := .inProgress}
    issued := view.flight.issued ++ [checkpoint.barrierId]}}) same

theorem Effect.joinStabilizationEpoch (vertex : Vertex) (before : State β) (same : s.view = before.view) :
    Effect c segment before (joinStabilizationEpoch vertex s) := by
  unfold Coordinator.joinStabilizationEpoch
  split
  next => exact .quiet same
  next =>
    split
    next => exact .quiet same
    next => exact .quiet same
    next graph _ _ =>
      extract_lets pendingSinks barrierId sources committers domains domainId tracked
      split
      next => exact .quiet same
      next =>
        exact .trackCheckpoint c segment s before _
          (newCheckpoint barrierId committers.length sources true domainId committers) same rfl rfl

theorem Effect.registerRescaleStabilizationCheckpoint (vertex : Vertex) :
    Effect c segment s (registerRescaleStabilizationCheckpoint vertex s) := by
  unfold Coordinator.registerRescaleStabilizationCheckpoint
  split
  next => exact .quiet rfl
  split
  next => exact .quiet rfl
  dsimp only
  split
  next => exact .quiet rfl
  split
  next => exact .joinStabilizationEpoch c segment _ vertex s rfl
  next => exact .joinStabilizationEpoch c segment s vertex s rfl

theorem Effect.registerCheckpoint (vertex : Vertex) (force : Bool) :
    Effect c segment s (registerCheckpoint c vertex force s) := by
  unfold Coordinator.registerCheckpoint
  split
  next => exact .quiet rfl
  split
  next => exact .registerRescaleStabilizationCheckpoint c segment s vertex
  split
  next => exact .quiet rfl
  next domainId triggerSources committers required _ =>
    repeat' split
    all_goals try exact .quiet rfl
    exact .trackCheckpoint c segment s s _
      (newCheckpoint (s.barrierIdCurrent + 1) required triggerSources false (some domainId) committers) rfl rfl rfl

theorem Effect.sourceCheckpointStarted (barrierId : Int) (vertex : Vertex) (isEof : Bool) :
    Effect c segment s (sourceCheckpointStarted barrierId vertex isEof s) := by
  unfold Coordinator.sourceCheckpointStarted
  split
  next => exact .quiet rfl
  next checkpoint found =>
    split
    next => exact .quiet rfl
    next =>
      refine .touch barrierId checkpoint _ found ?_ rfl
      unfold Checkpoint.markSourceStarted
      split <;> rfl

theorem Effect.registerOperatorState [DecidableEq β] (barrierId : Int) (vertex : Vertex) (reference : β)
    (after : State β) (done : registerOperatorState barrierId vertex reference s = .ok after) :
    Effect c segment s after := by
  unfold Coordinator.registerOperatorState at done
  repeat' split at done
  all_goals cases done
  all_goals exact .quiet rfl

theorem Effect.registerSinkCommittable (barrierId : Int) (vertex : Vertex) (committable : SinkCommittable)
    (after : State β) (accepted : Bool)
    (called : segment.origin = .call (.registerSinkCommittable barrierId vertex committable))
    (done : registerSinkCommittable barrierId vertex committable s = .ok (after,accepted)) :
    Effect c segment s after := by
  unfold Coordinator.registerSinkCommittable at done
  split at done
  next =>
    cases done
    exact .quiet rfl
  next checkpoint found =>
    split at done
    next =>
      cases done
      exact .quiet rfl
    split at done
    next =>
      cases done
      exact .quiet rfl
    split at done
    next => contradiction
    split at done
    next existing stored =>
      split at done
      next => contradiction
      next agrees =>
        cases done
        refine .sink barrierId vertex committable checkpoint called found (fun other same => ?_) rfl
        rw [stored,some_inj] at same
        subst same
        exact not_not.mp agrees
    next missing =>
      cases done
      refine .sink barrierId vertex committable checkpoint called found (fun other same => ?_) rfl
      simp [missing] at same

theorem Effect.stageOperatorRescaleState (operationId : String) (jobVertexId targetParallelism : Nat)
    (snapshots : List β) (after : State β)
    (done : stageOperatorRescaleState c operationId jobVertexId targetParallelism snapshots s = .ok after) :
    Effect c segment s after := by
  unfold Coordinator.stageOperatorRescaleState at done
  repeat' split at done
  all_goals cases done
  exact .quiet rfl

theorem Effect.reconfigureExecutionGraph (graph : ExecutionGraph) (after : State β)
    (done : reconfigureExecutionGraph c graph s = .ok after) : Effect c segment s after := by
  unfold Coordinator.reconfigureExecutionGraph at done
  repeat' split at done
  all_goals cases done
  exact .remap graph rfl

end methods
end Klein.Coordinator
