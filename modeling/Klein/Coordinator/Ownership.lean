import Klein.Coordinator.Effects

/-! What the threads of the coordinator may count on whatever the others do: the
logs grow, an id that left the flight never returns, the maintenance worker belongs
to one thread, and so does the persisted state while the persistence lock is held. -/
namespace Klein.Coordinator
open List Option

variable {β : Type}

def Tracked (s : State β) : Prop :=
  ∀ barrierId checkpoint, s.inflightCheckpoints.get? barrierId = some checkpoint →
    checkpoint.barrierId = barrierId ∧ barrierId ≤ s.barrierIdCurrent

def Holding (me : Nat) (s : State β) : Prop := s.persistenceLock = some me ∧ s.checkpointIoTasks = []

structure Grows (me : Nat) (before after : State β) : Prop where
  gone : ∀ barrierId, Gone barrierId before → Gone barrierId after
  popped : before.log.poppedByAck ⊆ after.log.poppedByAck
  worker : before.worker = .running me → after.worker = .running me
  written : before.log.written ⊆ after.log.written
  committed : before.log.committed ⊆ after.log.committed
  current : before.barrierIdCurrent ≤ after.barrierIdCurrent

structure Guarded (before after : State β) : Prop extends Advances before after where
  persistenceLock : after.persistenceLock = before.persistenceLock
  metadataRevision : after.metadataRevision = before.metadataRevision
  persistedStateRevision : after.persistedStateRevision = before.persistedStateRevision
  persistedHighWater : after.persistedHighWater = before.persistedHighWater
  checkpointPath : after.checkpointPath = before.checkpointPath
  durableSourceStates : after.durableSourceStates = before.durableSourceStates
  durable : after.log.durable = before.log.durable
  drained : before.checkpointIoTasks = [] → after.checkpointIoTasks = [] ∧ after.storage = before.storage

structure Follows (me : Nat) (before after : State β) : Prop extends Grows me before after where
  guarded : before.persistenceLock = some me → Guarded before after

theorem Grows.refl (me : Nat) (s : State β) : Grows me s s :=
  ⟨fun _ gone => gone,fun _ inside => inside,fun running => running,fun _ inside => inside,fun _ inside => inside,
    Int.le_refl _⟩

theorem Grows.trans (me : Nat) (first second third : State β) (left : Grows me first second)
    (right : Grows me second third) : Grows me first third where
  gone barrierId gone := right.gone barrierId (left.gone barrierId gone)
  popped _ inside := right.popped (left.popped inside)
  worker running := right.worker (left.worker running)
  written _ inside := right.written (left.written inside)
  committed _ inside := right.committed (left.committed inside)
  current := Int.le_trans left.current right.current

theorem Guarded.refl (s : State β) : Guarded s s :=
  ⟨Advances.refl s,rfl,rfl,rfl,rfl,rfl,rfl,rfl,fun nothing => ⟨nothing,rfl⟩⟩

theorem Guarded.trans (first second third : State β) (left : Guarded first second) (right : Guarded second third) :
    Guarded first third where
  toAdvances := left.toAdvances.trans _ _ _ right.toAdvances
  persistenceLock := right.persistenceLock.trans left.persistenceLock
  metadataRevision := right.metadataRevision.trans left.metadataRevision
  persistedStateRevision := right.persistedStateRevision.trans left.persistedStateRevision
  persistedHighWater := right.persistedHighWater.trans left.persistedHighWater
  checkpointPath := right.checkpointPath.trans left.checkpointPath
  durableSourceStates := right.durableSourceStates.trans left.durableSourceStates
  durable := right.durable.trans left.durable
  drained nothing := by
    obtain ⟨middle,stored⟩ := left.drained nothing
    obtain ⟨last,kept⟩ := right.drained middle
    exact ⟨last,kept.trans stored⟩

theorem Follows.refl (me : Nat) (s : State β) : Follows me s s := ⟨Grows.refl me s,fun _ => Guarded.refl s⟩

theorem Follows.trans (me : Nat) (first second third : State β) (left : Follows me first second)
    (right : Follows me second third) : Follows me first third where
  toGrows := left.toGrows.trans me _ _ _ right.toGrows
  guarded owned := (left.guarded owned).trans _ _ _
    (right.guarded ((left.guarded owned).persistenceLock.trans owned))

theorem Follows.holding (me : Nat) (before after : State β) (follows : Follows me before after)
    (holding : Holding me before) : Holding me after :=
  ⟨(follows.guarded holding.1).persistenceLock.trans holding.1,((follows.guarded holding.1).drained holding.2).1⟩

theorem Follows.of_unlocked (me : Nat) (before after : State β) (grows : Grows me before after)
    (unlocked : before.persistenceLock ≠ some me) : Follows me before after :=
  ⟨grows,fun owned => absurd owned unlocked⟩

section effects
variable (me : Nat) (before after : State β)

theorem Follows.of_durability (durability : after.durability = before.durability)
    (gone : ∀ barrierId, Gone barrierId before → Gone barrierId after)
    (popped : before.log.poppedByAck ⊆ after.log.poppedByAck)
    (current : before.barrierIdCurrent ≤ after.barrierIdCurrent) (advances : Advances before after) :
    Follows me before after where
  gone := gone
  popped := popped
  worker running := (congrArg Durability.worker durability).trans running
  written := by
    have same : after.log.written = before.log.written := congrArg Durability.written durability
    simp [same]
  committed := by
    have same : after.log.committed = before.log.committed := congrArg Durability.committed durability
    simp [same]
  current := current
  guarded _ := {
    toAdvances := advances
    persistenceLock := congrArg Durability.persistenceLock durability
    metadataRevision := congrArg Durability.metadataRevision durability
    persistedStateRevision := congrArg Durability.persistedStateRevision durability
    persistedHighWater := congrArg Durability.persistedHighWater durability
    checkpointPath := congrArg Durability.checkpointPath durability
    durableSourceStates := congrArg Durability.durableSourceStates durability
    durable := congrArg Durability.durable durability
    drained := fun nothing => ⟨(congrArg Durability.checkpointIoTasks durability).trans nothing,
      congrArg Durability.storage durability⟩}

theorem Advances.of_progress (progress : after.progress = before.progress)
    (pending : after.pendingSinkCommittables = before.pendingSinkCommittables) : Advances before after := by
  have revision : after.stateRevision = before.stateRevision := congrArg Progress.stateRevision progress
  have sources : after.latestSourceStates = before.latestSourceStates := congrArg Progress.latestSourceStates progress
  refine ⟨by omega,fun vertex entry found => ⟨entry,?_,Int.le_refl _⟩,fun _ => ⟨progress,pending⟩⟩
  rw [sources]
  exact found

structure KeepsFlight : Prop where
  tracked : Tracked after
  gone : ∀ barrierId, Gone barrierId before → Gone barrierId after
  popped : before.log.poppedByAck ⊆ after.log.poppedByAck
  current : before.barrierIdCurrent ≤ after.barrierIdCurrent

theorem KeepsFlight.of_fields (inflight : ∀ barrierId checkpoint, after.inflightCheckpoints.get? barrierId = some checkpoint →
      checkpoint.barrierId = barrierId ∧
        ((∃ previous, before.inflightCheckpoints.get? barrierId = some previous) ∨
          before.barrierIdCurrent < barrierId ∧ barrierId ≤ after.barrierIdCurrent))
    (current : before.barrierIdCurrent ≤ after.barrierIdCurrent)
    (popped : before.log.poppedByAck ⊆ after.log.poppedByAck) (tracked : Tracked before) :
    KeepsFlight before after := by
  refine ⟨fun barrierId checkpoint found => ?_,fun barrierId gone => ⟨Int.le_trans gone.1 current,?_⟩,popped,current⟩
  · obtain ⟨own,⟨previous,was⟩ | fresh⟩ := inflight barrierId checkpoint found
    · exact ⟨own,Int.le_trans (tracked barrierId previous was).2 current⟩
    · exact ⟨own,fresh.2⟩
  · cases found : after.inflightCheckpoints.get? barrierId with
    | none => rfl
    | some checkpoint =>
      obtain ⟨-,⟨previous,was⟩ | fresh⟩ := inflight barrierId checkpoint found
      · rw [gone.2] at was
        contradiction
      · exact absurd gone.1 (by omega)

theorem KeepsFlight.of_subset (inflight : ∀ barrierId checkpoint, after.inflightCheckpoints.get? barrierId = some checkpoint →
      before.inflightCheckpoints.get? barrierId = some checkpoint)
    (current : before.barrierIdCurrent = after.barrierIdCurrent)
    (popped : before.log.poppedByAck ⊆ after.log.poppedByAck) (tracked : Tracked before) :
    KeepsFlight before after :=
  .of_fields before after (fun barrierId checkpoint found =>
    ⟨(tracked barrierId checkpoint (inflight barrierId checkpoint found)).1,
      .inl ⟨checkpoint,inflight barrierId checkpoint found⟩⟩) (by omega) popped tracked

theorem KeepsFlight.of_flight (flight : after.flight = before.flight) (tracked : Tracked before) :
    KeepsFlight before after := by
  obtain ⟨inflight,current,popped,-,-⟩ := flight_fields before after flight
  exact .of_subset before after (fun barrierId checkpoint found => by rw [← inflight]; exact found) current.symm
    (by simp [popped]) tracked

theorem Effect.flight (c : Config β) (segment : Start β) (effect : Effect c segment before after) (tracked : Tracked before) :
    KeepsFlight before after := by
  cases effect with
  | merge checkpoint sourceStates hasCommittables stabilizationReady gone done =>
    obtain ⟨_,_,merged⟩ := mergeAlignedCheckpointProgress_merged c before after checkpoint sourceStates _ _ done
    exact .of_flight before after merged.flight tracked
  | quiet changed | carry _ _ changed | sink _ _ _ _ _ _ _ changed | remap _ changed =>
    exact .of_flight before after (congrArg View.flight changed) tracked
  | complete barrierId popped changed =>
    have flight := congrArg View.flight changed
    have inflight : after.inflightCheckpoints = before.inflightCheckpoints := congrArg Flight.inflightCheckpoints flight
    have ids : after.log.poppedByAck = before.log.poppedByAck := congrArg Flight.poppedByAck flight
    exact .of_subset before after (fun other checkpoint found => by rw [← inflight]; exact found)
      (congrArg Flight.barrierIdCurrent flight).symm (by simp [ids]) tracked
  | touch barrierId checkpoint touched found same changed =>
    have flight := congrArg View.flight changed
    have inflight : after.inflightCheckpoints = before.inflightCheckpoints.set barrierId touched :=
      congrArg Flight.inflightCheckpoints flight
    have current : after.barrierIdCurrent = before.barrierIdCurrent := congrArg Flight.barrierIdCurrent flight
    have ids : after.log.poppedByAck = before.log.poppedByAck := congrArg Flight.poppedByAck flight
    refine .of_fields before after (fun other result stored => ?_) (by omega) (by simp [ids]) tracked
    rw [inflight,Dict.get?_set] at stored
    split at stored
    next equal =>
      cases stored
      subst equal
      exact ⟨same.trans (tracked _ _ found).1,.inl ⟨checkpoint,found⟩⟩
    next => exact ⟨(tracked _ _ stored).1,.inl ⟨result,stored⟩⟩
  | beginCompletion barrierId vertex checkpoint called found ready changed =>
    have flight := congrArg View.flight changed
    have inflight : after.inflightCheckpoints = before.inflightCheckpoints.erase barrierId :=
      congrArg Flight.inflightCheckpoints flight
    have ids : after.log.poppedByAck = before.log.poppedByAck ++ [barrierId] := congrArg Flight.poppedByAck flight
    refine .of_subset before after (fun other result stored => ?_) (congrArg Flight.barrierIdCurrent flight).symm
      (by simp [ids]) tracked
    rw [inflight,Dict.get?_erase] at stored
    split at stored
    next => contradiction
    next => exact stored
  | track checkpoint fresh changed =>
    have flight := congrArg View.flight changed
    have inflight : after.inflightCheckpoints = before.inflightCheckpoints.set checkpoint.barrierId checkpoint :=
      congrArg Flight.inflightCheckpoints flight
    have current : after.barrierIdCurrent = checkpoint.barrierId := congrArg Flight.barrierIdCurrent flight
    have ids : after.log.poppedByAck = before.log.poppedByAck := congrArg Flight.poppedByAck flight
    refine .of_fields before after (fun other result stored => ?_) (by omega) (by simp [ids]) tracked
    rw [inflight,Dict.get?_set] at stored
    split at stored
    next equal =>
      cases stored
      exact ⟨equal.symm,.inr (by omega)⟩
    next => exact ⟨(tracked _ _ stored).1,.inl ⟨result,stored⟩⟩
  | detach operationId resumed admitted changed =>
    have flight := congrArg View.flight changed
    have inflight : after.inflightCheckpoints = ∅ := congrArg Flight.inflightCheckpoints flight
    have ids : after.log.poppedByAck = before.log.poppedByAck := congrArg Flight.poppedByAck flight
    refine .of_subset before after (fun other result stored => ?_) (congrArg Flight.barrierIdCurrent flight).symm
      (by simp [ids]) tracked
    rw [inflight] at stored
    contradiction

theorem carryInflightSinkCommittables_pending (s : State β) (checkpoint : Checkpoint) :
    (carryInflightSinkCommittables s checkpoint).pendingSinkCommittables = s.pendingSinkCommittables := by
  unfold carryInflightSinkCommittables
  dsimp only
  split <;> rfl

section
variable (c : Config β) (segment : Start β) (effect : Effect c segment before after)
include effect

theorem Effect.advances :
    Advances before after := by
  cases effect with
  | carry checkpoint gone changed =>
    exact .of_progress before after (congrArg View.progress changed)
      ((congrArg (fun view => view.sinks.pendingSinkCommittables) changed).trans
        (carryInflightSinkCommittables_pending before checkpoint))
  | merge checkpoint sourceStates hasCommittables stabilizationReady gone done =>
    obtain ⟨_,_,merged⟩ := mergeAlignedCheckpointProgress_merged c before after checkpoint sourceStates _ _ done
    exact merged.advances
  | quiet changed | complete _ _ changed | touch _ _ _ _ _ changed | beginCompletion _ _ _ _ _ _ changed
  | track _ _ changed | sink _ _ _ _ _ _ _ changed | detach _ _ _ changed | remap _ changed =>
    exact .of_progress before after (congrArg View.progress changed)
      (congrArg (fun view => view.sinks.pendingSinkCommittables) changed)

theorem Effect.durability :
    after.durability = before.durability := by
  cases effect with
  | merge checkpoint sourceStates hasCommittables stabilizationReady gone done =>
    obtain ⟨_,_,merged⟩ := mergeAlignedCheckpointProgress_merged c before after checkpoint sourceStates _ _ done
    exact merged.durability
  | quiet changed | carry _ _ changed | complete _ _ changed | touch _ _ _ _ _ changed
  | beginCompletion _ _ _ _ _ _ changed | track _ _ changed | sink _ _ _ _ _ _ _ changed | detach _ _ _ changed
  | remap _ changed => exact congrArg View.durability changed

theorem Effect.follows (tracked : Tracked before) : Follows me before after := by
  have flight := effect.flight before after c segment tracked
  exact .of_durability me before after (effect.durability before after c segment) flight.gone flight.popped flight.current
    (effect.advances before after c segment)

end

end effects

theorem carryInflightSinkCommittables_congr (s other : State β) (checkpoint : Checkpoint) (same : s.sinks = other.sinks) :
    (carryInflightSinkCommittables s checkpoint).sinks = (carryInflightSinkCommittables other checkpoint).sinks := by
  have inflight : s.inflightSinkCommittables = other.inflightSinkCommittables :=
    congrArg Sinks.inflightSinkCommittables same
  have carried : s.carriedSinkCommittables = other.carriedSinkCommittables :=
    congrArg Sinks.carriedSinkCommittables same
  have pending : s.pendingSinkCommittables = other.pendingSinkCommittables :=
    congrArg Sinks.pendingSinkCommittables same
  have registered : s.log.registered = other.log.registered := congrArg Sinks.registered same
  simp only [carryInflightSinkCommittables,inflight,carried]
  split <;> simp only [State.sinks,pending,registered]

theorem expireCheckpoint_view (s : State β) (barrierId : Int) (checkpoint : Checkpoint) :
    (expireCheckpoint barrierId checkpoint s).view = {s.view with
      sinks := (carryInflightSinkCommittables s checkpoint).sinks
      flight := {s.flight with
        inflightCheckpoints := s.inflightCheckpoints.erase barrierId
        failedBySweep := s.log.failedBySweep ++ [barrierId]}} := by
  let erased := {s with inflightCheckpoints := s.inflightCheckpoints.erase barrierId}
  have slot := releaseDomainSlot_view erased checkpoint
  have popped : {releaseDomainSlot erased checkpoint with
      inflightOperatorStates := (releaseDomainSlot erased checkpoint).inflightOperatorStates.erase barrierId}.view =
      erased.view := slot
  have carried := carryInflightSinkCommittables_view {releaseDomainSlot erased checkpoint with
    inflightOperatorStates := (releaseDomainSlot erased checkpoint).inflightOperatorStates.erase barrierId} checkpoint
  have sinks := carryInflightSinkCommittables_congr {releaseDomainSlot erased checkpoint with
    inflightOperatorStates := (releaseDomainSlot erased checkpoint).inflightOperatorStates.erase barrierId} s checkpoint
    (congrArg View.sinks popped)
  rw [popped,sinks] at carried
  exact congrArg (fun view : View β => {view with flight := {view.flight with
    failedBySweep := view.flight.failedBySweep ++ [barrierId]}}) carried

section transitions
variable (me : Nat) (s : State β)

theorem expireCheckpoint_flight (barrierId : Int) (checkpoint : Checkpoint) (tracked : Tracked s) :
    KeepsFlight s (expireCheckpoint barrierId checkpoint s) := by
  have flight := congrArg View.flight (expireCheckpoint_view s barrierId checkpoint)
  have inflight : (expireCheckpoint barrierId checkpoint s).inflightCheckpoints =
      s.inflightCheckpoints.erase barrierId := congrArg Flight.inflightCheckpoints flight
  have ids : (expireCheckpoint barrierId checkpoint s).log.poppedByAck = s.log.poppedByAck :=
    congrArg Flight.poppedByAck flight
  refine .of_subset _ _ (fun other result stored => ?_) (congrArg Flight.barrierIdCurrent flight).symm
    (by simp [ids]) tracked
  rw [inflight,Dict.get?_erase] at stored
  split at stored
  next => contradiction
  next => exact stored

theorem expireCheckpoint_follows (barrierId : Int) (checkpoint : Checkpoint) (tracked : Tracked s) :
    Follows me s (expireCheckpoint barrierId checkpoint s) := by
  have view := expireCheckpoint_view s barrierId checkpoint
  have flight := expireCheckpoint_flight s barrierId checkpoint tracked
  refine .of_durability me _ _ (congrArg View.durability view) flight.gone flight.popped flight.current ?_
  refine .of_progress _ _ (congrArg View.progress view) ?_
  exact (congrArg (fun view => view.sinks.pendingSinkCommittables) view).trans
    (carryInflightSinkCommittables_pending s checkpoint)

/-- A successful `commit` call and its bookkeeping. -/
def sinkCommitted (identity : SinkIdentity) (entry : SinkEntry) (s : State β) : State β :=
  commitSucceeded identity {s with log := {s.log with committed := s.log.committed ++ [entry]}}

theorem sinkCommitted_advances (identity : SinkIdentity) (entry : SinkEntry) :
    Advances s (sinkCommitted identity entry s) := by
  refine ⟨?_,Moves.sources_refl s,fun same => ?_⟩
  · simp only [sinkCommitted,commitSucceeded]
    split <;> omega
  · simp only [sinkCommitted,commitSucceeded] at same
    split at same
    next => omega
    next absent =>
      refine ⟨?_,Dict.erase_of_absent _ _ (by simpa using absent)⟩
      simp [sinkCommitted,commitSucceeded,State.progress,absent]

theorem sinkCommitted_follows (identity : SinkIdentity) (entry : SinkEntry) :
    Follows me s (sinkCommitted identity entry s) := by
  refine ⟨⟨fun _ gone => gone,fun _ inside => inside,fun running => running,fun _ inside => inside,
    fun other inside => ?_,Int.le_refl _⟩,fun _ => ?_⟩
  · exact mem_append_left _ inside
  · exact ⟨sinkCommitted_advances s identity entry,rfl,rfl,rfl,rfl,rfl,rfl,rfl,fun nothing => ⟨nothing,rfl⟩⟩

theorem worker_follows (other : Nat) (worker : Worker) (different : other ≠ me)
    (owned : s.worker = .idle ∨ s.worker = .running me) : Follows other s {s with worker} := by
  refine ⟨⟨fun _ gone => gone,fun _ inside => inside,fun running => ?_,fun _ inside => inside,
    fun _ inside => inside,Int.le_refl _⟩,fun _ => ?_⟩
  · rcases owned with idle | owner
    · simp [idle] at running
    · simp only [owner,Worker.running.injEq] at running
      exact absurd running.symm different
  · exact ⟨.of_progress _ _ rfl rfl,rfl,rfl,rfl,rfl,rfl,rfl,rfl,fun nothing => ⟨nothing,rfl⟩⟩

end transitions

theorem Grows.of_flight (me : Nat) (before after : State β) (flight : after.flight = before.flight)
    (worker : after.worker = before.worker) (written : before.log.written ⊆ after.log.written)
    (committed : after.log.committed = before.log.committed) : Grows me before after := by
  obtain ⟨inflight,current,popped,-,-⟩ := flight_fields before after flight
  refine ⟨?_,?_,?_,written,?_,?_⟩
  · simp only [Gone,inflight,current]
    exact fun _ gone => gone
  · simp [popped]
  · simp [worker]
  · simp [committed]
  · simp [current]

structure Stores (before after : State β) : Prop where
  view : after.view = {before.view with durability := {before.durability with
    checkpointIoTasks := after.checkpointIoTasks
    storage := after.storage
    written := after.log.written}}
  written : before.log.written ⊆ after.log.written

theorem Stores.grows (me : Nat) (before after : State β) (stores : Stores before after) : Grows me before after :=
  .of_flight me before after (congrArg View.flight stores.view)
    (congrArg (fun view => view.durability.worker) stores.view) stores.written
    (congrArg (fun view => view.durability.committed) stores.view)

theorem Stores.tracked (before after : State β) (stores : Stores before after) (tracked : Tracked before) :
    Tracked after :=
  (KeepsFlight.of_flight before after (congrArg View.flight stores.view) tracked).tracked

theorem Stores.guarded (before after : State β) (stores : Stores before after)
    (drained : before.checkpointIoTasks = [] → after.checkpointIoTasks = [] ∧ after.storage = before.storage) :
    Guarded before after where
  toAdvances := .of_progress before after (congrArg View.progress stores.view)
    (congrArg (fun view => view.sinks.pendingSinkCommittables) stores.view)
  persistenceLock := congrArg (fun view => view.durability.persistenceLock) stores.view
  metadataRevision := congrArg (fun view => view.durability.metadataRevision) stores.view
  persistedStateRevision := congrArg (fun view => view.durability.persistedStateRevision) stores.view
  persistedHighWater := congrArg (fun view => view.durability.persistedHighWater) stores.view
  checkpointPath := congrArg (fun view => view.durability.checkpointPath) stores.view
  durableSourceStates := congrArg (fun view => view.durability.durableSourceStates) stores.view
  durable := congrArg (fun view => view.durability.durable) stores.view
  drained := drained

theorem cleanupCheckpoints_stores (c : Config β) (s : State β) : Stores s (cleanupCheckpoints c s) :=
  ⟨rfl,fun _ inside => inside⟩

section storage
variable [DecidableEq β] (c : Config β)

section
variable (metadata : Metadata β) (s after : State β)
include metadata s after

theorem writeMetadata_cases (done : writeMetadata metadata s = some after) :
    validMetadata metadata = true ∧
      (s.storage.metadata.get? metadata.revision = some metadata ∧ after = s ∨
        s.storage.metadata.get? metadata.revision = none ∧ after = {s with
          storage := {s.storage with metadata := s.storage.metadata.set metadata.revision metadata}
          log := {s.log with written := s.log.written ++ [metadata]}}) := by
  unfold writeMetadata at done
  split at done
  next => contradiction
  next valid =>
    refine ⟨by simpa using valid,?_⟩
    split at done
    next existing found =>
      split at done
      next same =>
        cases done
        exact .inl ⟨by rw [found,same],rfl⟩
      next => contradiction
    next missing =>
      cases done
      exact .inr ⟨missing,rfl⟩

theorem writeMetadata_stores
    (done : writeMetadata metadata s = some after) : Stores s after ∧ after.checkpointIoTasks = s.checkpointIoTasks := by
  obtain ⟨-,⟨-,rfl⟩ | ⟨-,rfl⟩⟩ := writeMetadata_cases metadata s after done
  · exact ⟨⟨rfl,fun _ inside => inside⟩,rfl⟩
  · exact ⟨⟨rfl,fun _ inside => mem_append_left _ inside⟩,rfl⟩

theorem writeCheckpoint_stores (done : writeCheckpoint metadata s = some after) :
    Stores s after ∧ after.checkpointIoTasks = s.checkpointIoTasks := by
  obtain ⟨written,wrote,rfl⟩ := map_eq_some_iff.mp done
  obtain ⟨⟨view,grown⟩,tasks⟩ := writeMetadata_stores metadata s written wrote
  exact ⟨⟨congrArg (fun view : View β => {view with durability := {view.durability with
    storage := {view.durability.storage with latest := some metadata.revision}}}) view,grown⟩,tasks⟩

end

theorem respond_write_stores (metadata : Metadata β) (reply : Reply β) (s after : State β)
    (answer : respond c s (.write metadata) reply = some after) :
    Stores s after ∧ (reply = .done → after.checkpointIoTasks = s.checkpointIoTasks) := by
  cases reply with
  | done =>
    obtain ⟨stores,tasks⟩ := writeCheckpoint_stores metadata s after answer
    exact ⟨stores,fun _ => tasks⟩
  | failedLate => exact ⟨(writeMetadata_stores metadata s after answer).1,fun impossible => by cases impossible⟩
  | failed =>
    cases answer
    exact ⟨⟨rfl,fun _ inside => inside⟩,fun impossible => by cases impossible⟩
  | timedOut =>
    cases answer
    exact ⟨⟨rfl,fun _ inside => inside⟩,fun impossible => by cases impossible⟩
  | flag value => contradiction
  | states sourceStates => contradiction

def Request.still : Request β → Bool
  | .commit _ | .write _ | .cleanup => false
  | _ => true

theorem respond_still (request : Request β) (reply : Reply β) (s after : State β) (still : request.still = true)
    (answer : respond c s request reply = some after) : after = s := by
  cases request <;> cases reply <;> simp_all [respond,Request.still]

theorem act_cases (action : Act) (s after : State β) (acted : act action s = some after) :
    (∃ milliseconds, after = {s with nowMs := s.nowMs + milliseconds}) ∨
      ∃ task metadata written, s.checkpointIoTasks[task]? = some metadata ∧ after = forgetTask task written ∧
        (written = s ∨ writeMetadata metadata s = some written ∨ writeCheckpoint metadata s = some written) := by
  cases action with
  | elapse milliseconds =>
    cases acted
    exact .inl ⟨milliseconds,rfl⟩
  | land task | landLate task =>
    obtain ⟨written,wrote,rfl⟩ := map_eq_some_iff.mp acted
    obtain ⟨metadata,found,done⟩ := bind_eq_some_iff.mp wrote
    exact .inr ⟨task,metadata,written,found,rfl,.inr (by simp [done])⟩
  | drop task =>
    simp only [act] at acted
    split at acted
    next inside =>
      cases acted
      exact .inr ⟨task,_,s,getElem?_eq_getElem inside,rfl,.inl rfl⟩
    next => contradiction

theorem act_stores (action : Act) (s after : State β) (acted : act action s = some after) :
    Stores s after ∧ (s.checkpointIoTasks = [] → after.checkpointIoTasks = [] ∧ after.storage = s.storage) := by
  obtain ⟨milliseconds,rfl⟩ | ⟨task,metadata,written,found,rfl,how⟩ := act_cases action s after acted
  · exact ⟨⟨rfl,fun _ inside => inside⟩,fun nothing => ⟨nothing,rfl⟩⟩
  · have stores : Stores s written := by
      obtain rfl | wrote | wrote := how
      · exact ⟨rfl,fun _ inside => inside⟩
      · exact (writeMetadata_stores metadata s written wrote).1
      · exact (writeCheckpoint_stores metadata s written wrote).1
    refine ⟨⟨congrArg (fun view : View β => {view with durability := {view.durability with
      checkpointIoTasks := view.durability.checkpointIoTasks.eraseIdx task}}) stores.view,stores.written⟩,
      fun nothing => ?_⟩
    simp [nothing] at found

theorem act_follows (me : Nat) (action : Act) (s after : State β) (acted : act action s = some after) :
    Follows me s after := by
  obtain ⟨stores,drained⟩ := act_stores action s after acted
  exact ⟨stores.grows me s after,fun _ => stores.guarded s after drained⟩

end storage
end Klein.Coordinator
