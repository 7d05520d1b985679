import Klein.Coordinator.Discipline

/-! The timeout sweep under interleaving. The sweep reads the ids of the stale
checkpoints once and pops them one by one between awaits, so it survives when
nothing else takes one of the ids that are still ahead of it. -/
namespace Klein.Coordinator
open List Option

variable {β : Type}

abbrev Configuration (β : Type) := System.Config (State β) (Request β) (Reply β) Error

def InFlight (barrierId : Int) (s : State β) : Prop := s.inflightCheckpoints.contains barrierId = true

theorem inFlight_iff (barrierId : Int) (s : State β) :
    InFlight barrierId s ↔ ∃ checkpoint, s.inflightCheckpoints.get? barrierId = some checkpoint := by
  rw [InFlight,Dict.contains_eq_isSome,isSome_iff_exists]

def sweeping : Request β → List Int
  | .release _ _ ids => ids
  | _ => []

def suspendedSweep (config : Configuration β) : List Int :=
  config.threads.flatMap (fun pause =>
    match pause with
    | .waiting request _ => sweeping request
    | .done _ => [])

/-- The step takes an id that a suspended sweep has still to pop: it is the final
acknowledgement of such a checkpoint, or a rescale that detaches the flight while
a sweep is suspended before its last id. -/
def disturbs (config : Configuration β) : Label β → Bool
  | .spawn (.notifyCheckpointAligned barrierId vertex) => barrierId ∈ suspendedSweep config &&
      (config.shared.inflightCheckpoints.get? barrierId).any (fun checkpoint => (checkpoint.acknowledge vertex).2)
  | .resume thread .done =>
    match config.threads[thread]? with
    | some (.waiting (.waitFence operationId) _) =>
      ! config.shared.rescaleOperationId.any (· ≠ operationId) && ! (suspendedSweep config).isEmpty
    | _ => false
  | _ => false

def Undisturbed (config : Configuration β) (label : Label β) : Prop := disturbs config label = false

instance (config : Configuration β) (label : Label β) : Decidable (Undisturbed config label) :=
  inferInstanceAs (Decidable (disturbs config label = false))

structure Accounted (s : State β) : Prop where
  failed : ∀ barrierId ∈ s.log.failedBySweep, Gone barrierId s
  popped : ∀ barrierId ∈ s.log.poppedByAck, Gone barrierId s
  apart : ∀ barrierId ∈ s.log.failedBySweep, barrierId ∉ s.log.poppedByAck
  completed : s.log.completed ⊆ s.log.poppedByAck

def Takes (segment : Start β) (barrierId : Int) : Prop :=
  (∃ vertex checkpoint, segment.origin = .call (.notifyCheckpointAligned barrierId vertex) ∧
    segment.start.inflightCheckpoints.get? barrierId = some checkpoint ∧ (checkpoint.acknowledge vertex).2 = true) ∨
  ∃ operationId, segment.origin = .reply (.waitFence operationId) .done ∧
    segment.start.rescaleOperationId.any (· ≠ operationId) = false

/-- The ids of a sweep stay in flight, as long as the run is `calm`. -/
def sweepDiscipline (calm : Prop) : Discipline β where
  invariant s := (calm → s.worker ≠ .dead) ∧ Accounted s
  admits _ := True
  rely me request before after := calm → before.worker = .running me →
    ∀ barrierId ∈ sweeping request, InFlight barrierId before → InFlight barrierId after
  respects other segment before after := before.worker = .running other →
    ∀ barrierId, InFlight barrierId before → InFlight barrierId after ∨ Takes segment barrierId
  mayCommit _ _ := True
  mayNotify _ _ _ := True
  swept ids s := calm → ids.Nodup ∧ ∀ barrierId ∈ ids, InFlight barrierId s
  raises := ¬ calm
  covered _ _ _ := True
  clear _ := True
  pinned _ _ _ := True

section steps
variable (calm : Prop) (me : Nat) (segment : Start β) (before after : State β)

theorem Accounted.of_flight (flight : after.flight = before.flight) (accounted : Accounted before) : Accounted after := by
  obtain ⟨inflight,current,popped,failed,completed⟩ := flight_fields before after flight
  constructor
  all_goals simp only [Gone,inflight,current,popped,failed,completed]
  exacts [accounted.failed,accounted.popped,accounted.apart,accounted.completed]

theorem sweepDiscipline_of_flight (flight : after.flight = before.flight) (worker : after.worker = before.worker)
    (kept : (sweepDiscipline calm).invariant before) : (sweepDiscipline calm).Allowed me segment before after := by
  have inflight : after.inflightCheckpoints = before.inflightCheckpoints := congrArg Flight.inflightCheckpoints flight
  refine ⟨⟨fun quiet => worker ▸ kept.1 quiet,kept.2.of_flight before after flight⟩,fun other _ _ barrierId found => ?_⟩
  exact .inl (by simpa [InFlight,inflight] using found)

theorem Accounted.of_keepsFlight (flight : KeepsFlight before after) (accounted : Accounted before)
    (failed : after.log.failedBySweep = before.log.failedBySweep)
    (popped : ∀ barrierId ∈ after.log.poppedByAck, barrierId ∈ before.log.poppedByAck ∨
      Gone barrierId after ∧ InFlight barrierId before)
    (completed : after.log.completed ⊆ after.log.poppedByAck) : Accounted after where
  failed barrierId inside := flight.gone barrierId (accounted.failed barrierId (failed ▸ inside))
  popped barrierId inside := by
    rcases popped barrierId inside with old | new
    · exact flight.gone barrierId (accounted.popped barrierId old)
    · exact new.1
  apart barrierId inside taken := by
    rw [failed] at inside
    rcases popped barrierId taken with old | new
    · exact accounted.apart barrierId inside old
    · obtain ⟨checkpoint,found⟩ := (inFlight_iff barrierId before).mp new.2
      rw [(accounted.failed barrierId inside).2] at found
      contradiction
  completed := completed

theorem Effect.accounted (c : Config β) (effect : Effect c segment before after) (tracked : Tracked before)
    (accounted : Accounted before) : Accounted after := by
  have keeps := effect.flight before after c segment tracked
  cases effect with
  | merge checkpoint sourceStates hasCommittables stabilizationReady gone done =>
    obtain ⟨_,_,merged⟩ := mergeAlignedCheckpointProgress_merged c before after checkpoint sourceStates _ _ done
    exact accounted.of_flight before after merged.flight
  | quiet changed | carry _ _ changed | sink _ _ _ _ _ _ _ changed | remap _ changed =>
    exact accounted.of_flight before after (congrArg View.flight changed)
  | complete barrierId inside changed =>
    have flight := congrArg View.flight changed
    have popped : after.log.poppedByAck = before.log.poppedByAck := congrArg Flight.poppedByAck flight
    have completed : after.log.completed = before.log.completed ++ [barrierId] := congrArg Flight.completed flight
    refine accounted.of_keepsFlight before after keeps (congrArg Flight.failedBySweep flight)
      (fun other taken => .inl (popped ▸ taken)) ?_
    rw [completed,popped]
    exact append_subset.mpr ⟨accounted.completed,by simpa using inside⟩
  | touch _ _ _ _ _ changed | track _ _ changed | detach _ _ _ changed =>
    have flight := congrArg View.flight changed
    have popped : after.log.poppedByAck = before.log.poppedByAck := congrArg Flight.poppedByAck flight
    have completed : after.log.completed = before.log.completed := congrArg Flight.completed flight
    refine accounted.of_keepsFlight before after keeps (congrArg Flight.failedBySweep flight)
      (fun other taken => .inl (popped ▸ taken)) ?_
    rw [completed,popped]
    exact accounted.completed
  | beginCompletion barrierId vertex checkpoint called found ready changed =>
    have flight := congrArg View.flight changed
    have inflight : after.inflightCheckpoints = before.inflightCheckpoints.erase barrierId :=
      congrArg Flight.inflightCheckpoints flight
    have current : after.barrierIdCurrent = before.barrierIdCurrent := congrArg Flight.barrierIdCurrent flight
    have popped : after.log.poppedByAck = before.log.poppedByAck ++ [barrierId] := congrArg Flight.poppedByAck flight
    have completed : after.log.completed = before.log.completed := congrArg Flight.completed flight
    refine accounted.of_keepsFlight before after keeps (congrArg Flight.failedBySweep flight) (fun other taken => ?_) ?_
    · rw [popped,mem_append,mem_singleton] at taken
      rcases taken with old | rfl
      · exact .inl old
      · refine .inr ⟨⟨?_,by simp [inflight]⟩,(inFlight_iff other before).mpr ⟨checkpoint,found⟩⟩
        rw [current]
        exact (tracked other checkpoint found).2
    · rw [completed,popped]
      exact List.Subset.trans accounted.completed (subset_append_left _ _)

theorem Effect.inFlight (c : Config β) (effect : Effect c segment before after) (barrierId : Int)
    (found : InFlight barrierId before) : InFlight barrierId after ∨ Takes segment barrierId := by
  rw [inFlight_iff] at found ⊢
  obtain ⟨present,found⟩ := found
  have unchanged (flight : after.flight = before.flight) :
      ∃ checkpoint, after.inflightCheckpoints.get? barrierId = some checkpoint := by
    have inflight : after.inflightCheckpoints = before.inflightCheckpoints := congrArg Flight.inflightCheckpoints flight
    exact ⟨present,inflight ▸ found⟩
  cases effect with
  | merge checkpoint sourceStates hasCommittables stabilizationReady gone done =>
    obtain ⟨_,_,merged⟩ := mergeAlignedCheckpointProgress_merged c before after checkpoint sourceStates _ _ done
    exact .inl (unchanged merged.flight)
  | quiet changed | carry _ _ changed | sink _ _ _ _ _ _ _ changed | remap _ changed =>
    exact .inl (unchanged (congrArg View.flight changed))
  | complete id inside changed =>
    have inflight : after.inflightCheckpoints = before.inflightCheckpoints :=
      congrArg (fun view => view.flight.inflightCheckpoints) changed
    exact .inl ⟨present,inflight ▸ found⟩
  | touch id checkpoint touched stored same changed =>
    have inflight : after.inflightCheckpoints = before.inflightCheckpoints.set id touched :=
      congrArg (fun view => view.flight.inflightCheckpoints) changed
    rw [inflight,Dict.get?_set]
    split
    · exact .inl ⟨touched,rfl⟩
    · exact .inl ⟨present,found⟩
  | track checkpoint fresh changed =>
    have inflight : after.inflightCheckpoints = before.inflightCheckpoints.set checkpoint.barrierId checkpoint :=
      congrArg (fun view => view.flight.inflightCheckpoints) changed
    rw [inflight,Dict.get?_set]
    split
    · exact .inl ⟨checkpoint,rfl⟩
    · exact .inl ⟨present,found⟩
  | beginCompletion id vertex checkpoint called stored ready changed =>
    have inflight : after.inflightCheckpoints = before.inflightCheckpoints.erase id :=
      congrArg (fun view => view.flight.inflightCheckpoints) changed
    by_cases same : barrierId = id
    · subst same called
      exact .inr (.inl ⟨vertex,checkpoint,rfl,stored,ready⟩)
    · exact .inl ⟨present,by simp [inflight,same,found]⟩
  | detach operationId resumed admitted changed => exact .inr (.inr ⟨operationId,resumed,admitted⟩)

end steps

section sweep
variable (c : Config β)

theorem staleCheckpoints_inFlight (s : State β) :
    (staleCheckpoints c s).Nodup ∧ ∀ barrierId ∈ staleCheckpoints c s, InFlight barrierId s := by
  refine ⟨s.inflightCheckpoints.distinct.sublist (filter_sublist.map Prod.fst),fun barrierId inside => ?_⟩
  obtain ⟨item,selected,rfl⟩ := List.mem_map.mp inside
  have member := (mem_filter.mp selected).1
  exact (inFlight_iff item.1 s).mpr ⟨item.2,(Dict.get?_eq_some _ _ _).mpr member⟩

theorem expireCheckpoint_accounted (s : State β) (barrierId : Int) (checkpoint : Checkpoint) (tracked : Tracked s)
    (found : s.inflightCheckpoints.get? barrierId = some checkpoint) (accounted : Accounted s) :
    Accounted (expireCheckpoint barrierId checkpoint s) := by
  have flight := congrArg View.flight (expireCheckpoint_view s barrierId checkpoint)
  have keeps := expireCheckpoint_flight s barrierId checkpoint tracked
  have inflight : (expireCheckpoint barrierId checkpoint s).inflightCheckpoints =
      s.inflightCheckpoints.erase barrierId := congrArg Flight.inflightCheckpoints flight
  have current : (expireCheckpoint barrierId checkpoint s).barrierIdCurrent = s.barrierIdCurrent :=
    congrArg Flight.barrierIdCurrent flight
  have popped : (expireCheckpoint barrierId checkpoint s).log.poppedByAck = s.log.poppedByAck :=
    congrArg Flight.poppedByAck flight
  have failed : (expireCheckpoint barrierId checkpoint s).log.failedBySweep = s.log.failedBySweep ++ [barrierId] :=
    congrArg Flight.failedBySweep flight
  have completed : (expireCheckpoint barrierId checkpoint s).log.completed = s.log.completed :=
    congrArg Flight.completed flight
  constructor
  · intro other inside
    rw [failed,mem_append,mem_singleton] at inside
    rcases inside with old | rfl
    · exact keeps.gone other (accounted.failed other old)
    · exact ⟨by rw [current]; exact (tracked other checkpoint found).2,by simp [inflight]⟩
  · intro other inside
    exact keeps.gone other (accounted.popped other (popped ▸ inside))
  · intro other inside taken
    rw [popped] at taken
    rw [failed,mem_append,mem_singleton] at inside
    rcases inside with old | rfl
    · exact accounted.apart other old taken
    · rw [(accounted.popped other taken).2] at found
      contradiction
  · rw [completed,popped]
    exact accounted.completed

theorem sweepDiscipline_lawful [DecidableEq β] (calm : Prop) : (sweepDiscipline calm).Lawful c where
  respectsRefl other segment s _ barrierId found := .inl found
  respectsTrans other segment first second third left follows right running barrierId found := by
    rcases left running barrierId found with kept | taken
    · exact right (follows.worker running) barrierId kept
    · exact .inr taken
  effect me segment before after _ tracked kept effect := by
    have worker : after.worker = before.worker :=
      congrArg Durability.worker (effect.durability before after c segment)
    exact ⟨⟨fun quiet => worker ▸ kept.1 quiet,effect.accounted segment before after c tracked kept.2⟩,
      fun other _ _ barrierId found => effect.inFlight segment before after c barrierId found⟩
  work me segment s worker kept owned fits := by
    refine ⟨⟨fun quiet dead => ?_,kept.2.of_flight s _ rfl⟩,fun other _ _ barrierId found => .inl found⟩
    have dies : worker = .dead := dead
    simp [dies,sweepDiscipline,quiet] at fits
  stale s _ _ := staleCheckpoints_inFlight c s
  missing barrierId rest s swept absent := by
    intro quiet
    obtain ⟨checkpoint,found⟩ := (inFlight_iff barrierId s).mp ((swept quiet).2 barrierId (by simp))
    rw [absent] at found
    contradiction
  expire me segment barrierId rest checkpoint s tracked kept working swept found := by
    have view := expireCheckpoint_view s barrierId checkpoint
    have inflight : (expireCheckpoint barrierId checkpoint s).inflightCheckpoints =
        s.inflightCheckpoints.erase barrierId := congrArg (fun view => view.flight.inflightCheckpoints) view
    have worker : (expireCheckpoint barrierId checkpoint s).worker = s.worker :=
      congrArg (fun view => view.durability.worker) view
    refine ⟨⟨⟨fun quiet => worker ▸ kept.1 quiet,
      expireCheckpoint_accounted s barrierId checkpoint tracked found kept.2⟩,fun other different running => ?_⟩,
      fun quiet => ?_⟩
    · rw [working,Worker.running.injEq] at running
      exact absurd running.symm different
    · obtain ⟨distinct,present⟩ := swept quiet
      obtain ⟨absent,distinct⟩ := nodup_cons.mp distinct
      refine ⟨distinct,fun other inside => ?_⟩
      obtain ⟨stored,known⟩ := (inFlight_iff other s).mp (present other (by simp [inside]))
      have different : other ≠ barrierId := fun same => absent (same ▸ inside)
      exact (inFlight_iff other _).mpr ⟨stored,by simp [inflight,different,known]⟩
  sweptQuiet ids before after same swept quiet := by
    have inflight : after.inflightCheckpoints = before.inflightCheckpoints :=
      congrArg (fun view => view.flight.inflightCheckpoints) same
    simpa [InFlight,inflight] using swept quiet
  sweptRely me barrierId sources ids before after working allowed swept quiet := by
    obtain ⟨distinct,present⟩ := swept quiet
    exact ⟨distinct,fun other inside => allowed quiet working other inside (present other inside)⟩
  durable _ _ _ _ _ := trivial
  commit _ _ _ _ _ := trivial
  coveredRely _ _ _ _ _ _ _ _ _ := trivial
  committed me segment identity entry s _ kept _ :=
    ⟨sweepDiscipline_of_flight calm me segment s _ rfl rfl kept,fun _ _ _ => trivial⟩
  empty _ _ _ := trivial
  notify _ _ _ _ _ _ := trivial
  clearQuiet _ _ _ _ := trivial
  clearRely _ _ _ _ _ _ _ := trivial
  lock me segment s kept _ := sweepDiscipline_of_flight calm me segment s _ rfl rfl kept
  unlock me segment s kept _ := sweepDiscipline_of_flight calm me segment s _ rfl rfl kept
  snapshot _ _ _ _ _ := trivial
  pinnedRely _ _ _ _ _ _ _ _ _ _ := trivial
  write me segment metadata revision reply s after kept _ _ answer := by
    obtain ⟨stores,-⟩ := respond_write_stores c metadata reply s after answer
    exact ⟨sweepDiscipline_of_flight calm me segment s after (congrArg View.flight stores.view)
      (congrArg (fun view => view.durability.worker) stores.view) kept,fun _ => trivial⟩
  publish me segment metadata revision s _ kept _ _ _ := sweepDiscipline_of_flight calm me segment s _ rfl rfl kept
  cleanup me segment s kept _ := sweepDiscipline_of_flight calm me segment s _ rfl rfl kept

theorem mem_suspendedSweep (config : Configuration β) (thread : Nat) (request : Request β)
    (next : Reply β → Co β Unit) (waiting : config.threads[thread]? = some (.waiting request next)) (barrierId : Int)
    (inside : barrierId ∈ sweeping request) : barrierId ∈ suspendedSweep config :=
  mem_flatMap.mpr ⟨_,mem_of_getElem? waiting,inside⟩

theorem Undisturbed.not_takes (config : Configuration β) (label : Label β) (index : Nat)
    (origin : Origin (Call β) (Request β) (Reply β)) (met : Undisturbed config label)
    (started : Contract.Starts config label index origin) (barrierId : Int)
    (inside : barrierId ∈ suspendedSweep config) : ¬ Takes ⟨origin,config.shared⟩ barrierId := by
  rintro (⟨vertex,checkpoint,called,found,ready⟩ | ⟨operationId,resumed,admitted⟩)
  · cases label with
    | spawn entry =>
      cases started.2.symm.trans called
      have present : config.shared.inflightCheckpoints.get? barrierId = some checkpoint := found
      simp [Undisturbed,disturbs,inside,present,ready] at met
    | resume thread reply =>
      obtain ⟨request,next,-,same⟩ := started.2
      cases same.symm.trans called
    | environment action => exact started
    | restart reason => exact started
  · cases label with
    | spawn entry => cases started.2.symm.trans resumed
    | resume thread reply =>
      obtain ⟨request,next,waiting,same⟩ := started.2
      cases same.symm.trans resumed
      have idle : config.shared.rescaleOperationId.any (· ≠ operationId) = false := admitted
      simp only [Undisturbed,disturbs,waiting,idle,Bool.not_false,Bool.true_and,Bool.not_eq_eq_eq_not] at met
      rw [List.isEmpty_iff] at met
      simp [met] at inside
    | environment action => exact started
    | restart reason => exact started

theorem sweepDiscipline_sound [DecidableEq β] (calm : Prop) (condition : Configuration β → Label β → Prop)
    (undisturbed : ∀ config label, condition config label → calm → Undisturbed config label) :
    (sweepDiscipline calm).contract.Sound (system c) condition := by
  refine Discipline.sound _ c (sweepDiscipline_lawful c calm) condition (fun _ _ _ => trivial) ?_ ?_ ?_ ?_ ?_
  · exact fun _ _ _ _ _ _ _ found => found
  · intro me request first second third follows left right quiet running barrierId inside found
    exact right quiet (follows.worker running) barrierId inside (left quiet running barrierId inside found)
  · intro config label index origin met started after _ other request next _ waiting respects quiet running barrierId
      inside found
    have suspended := mem_suspendedSweep config other request next waiting barrierId inside
    exact (respects running barrierId found).resolve_right
      ((undisturbed config label met quiet).not_takes config label index origin started barrierId suspended)
  · intro action s after kept acted
    obtain ⟨stores,-⟩ := act_stores action s after acted
    have flight := congrArg View.flight stores.view
    have inflight : after.inflightCheckpoints = s.inflightCheckpoints := congrArg Flight.inflightCheckpoints flight
    refine ⟨(sweepDiscipline_of_flight calm 0 ⟨.call .tick,s⟩ s after flight
      (congrArg (fun view => view.durability.worker) stores.view) kept).1,fun _ _ _ _ barrierId _ found => ?_⟩
    simpa [InFlight,inflight] using found
  · intro config graph _ _
    exact ⟨fun _ => by simp [openCoordinator],
      ⟨by simp [openCoordinator],by simp [openCoordinator],by simp [openCoordinator],by simp [openCoordinator]⟩⟩

/-- No checkpoint is both failed by the sweep and completed by an acknowledgement,
and the maintenance worker survives every run that leaves the ids of a suspended
sweep to it. -/
theorem sweep_survives [DecidableEq β] (graph : ExecutionGraph) (labels : List (Label β)) (final : Configuration β)
    (run : Runs.exec (system c).step (initial c graph) labels = some final) :
    (∀ barrierId ∈ final.shared.log.failedBySweep, barrierId ∉ final.shared.log.completed) ∧
      (Runs.Along (system c).step Undisturbed (initial c graph) labels → final.shared.worker ≠ .dead) := by
  have opened (calm : Prop) : (sweepDiscipline calm).contract.Secure (system c) (initial c graph) :=
    Discipline.secure_initial _ c graph ⟨fun _ => by simp [openCoordinator],
      ⟨by simp [openCoordinator],by simp [openCoordinator],by simp [openCoordinator],by simp [openCoordinator]⟩⟩
  constructor
  · intro barrierId failed completed
    have sound := sweepDiscipline_sound c False (fun _ _ => True) (fun _ _ _ impossible => impossible.elim)
    have secure := Contract.exec_secure _ (system c) _ sound labels _ final (opened False)
      (Runs.Along.of_forall _ _ labels (fun _ _ _ => trivial) _) run
    have accounted := secure.invariant.2.2
    exact accounted.apart barrierId failed (accounted.completed completed)
  · intro meets
    have sound := sweepDiscipline_sound c True Undisturbed (fun _ _ met _ => met)
    exact (Contract.exec_secure _ (system c) _ sound labels _ final (opened True) meets run).invariant.2.1 trivial

end sweep

/-- Two checkpoints go stale; while the sweep waits for the release of the first,
the first one's late acknowledgement is refused. -/
def sweptRun : List (Label Nat) :=
  [.spawn (.registerCheckpoint ⟨1,0⟩ false),.spawn (.registerCheckpoint ⟨3,0⟩ false),.environment (.elapse 61000),
    .spawn .tick,.resume 2 .done,.spawn (.notifyCheckpointAligned 1 ⟨2,0⟩),.resume 2 (.flag true),.resume 2 (.flag true)]

theorem sweep_survives_sweptRun : ∃ final,
    Runs.exec (system pipelineConfig).step (initial pipelineConfig pipelineGraph) sweptRun = some final ∧
      final.shared.log.failedBySweep = [1,2] ∧ final.shared.worker ≠ .dead := by
  have enabled : (Runs.exec (system pipelineConfig).step (initial pipelineConfig pipelineGraph) sweptRun).map
      (fun config => config.shared.log.failedBySweep) = some [1,2] := by decide +kernel
  obtain ⟨final,run,failed⟩ := map_eq_some_iff.mp enabled
  exact ⟨final,run,failed,(sweep_survives pipelineConfig pipelineGraph sweptRun final run).2 (by decide +kernel)⟩

/-- The final acknowledgement of the second stale checkpoint arrives while the sweep
waits for the release of the first: the pop raises and ends the worker. -/
theorem late_acknowledgement_ends_worker :
    (Runs.exec (system pipelineConfig).step (initial pipelineConfig pipelineGraph)
      [.spawn (.registerCheckpoint ⟨1,0⟩ false),.spawn (.registerCheckpoint ⟨3,0⟩ false),.environment (.elapse 61000),
        .spawn .tick,.resume 2 .done,.spawn (.notifyCheckpointAligned 2 ⟨4,0⟩),.resume 2 (.flag true)]).map
      (fun config => config.shared.worker) = some .dead := by
  decide +kernel

end Klein.Coordinator
