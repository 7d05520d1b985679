import Klein.Coordinator.Ownership

/-! One proof for every method of the coordinator. A discipline is an invariant
with the facts that its proof needs while a method waits: about the rest of a
timeout sweep, a transaction to commit, a notification under way and a snapshot
being written. `Lawful` says what each update has to keep; every method then keeps
the contract of the discipline. -/
namespace Klein.Coordinator
open Contract Coroutine

variable {β : Type}

structure Discipline (β : Type) where
  invariant : State β → Prop
  /-- The calls of the run. -/
  admits : Call β → Prop
  /-- What a thread that waits for a request counts on. -/
  rely : Nat → Request β → State β → State β → Prop
  /-- What a segment of another thread does to what this thread counts on. -/
  respects : Nat → Start β → State β → State β → Prop
  mayCommit : SinkEntry → State β → Prop
  mayNotify : Vertex → Int → State β → Prop
  /-- The ids left to a sweep; `raises` when it may find one missing. -/
  swept : List Int → State β → Prop
  raises : Prop
  covered : SinkIdentity → SinkEntry → State β → Prop
  clear : State β → Prop
  pinned : Metadata β → Nat → State β → Prop

namespace Discipline
variable (d : Discipline β)

def permit : Request β → State β → Prop
  | .commit entry,s => d.mayCommit entry s
  | .notifyPersisted source checkpointId,s => d.mayNotify source checkpointId s
  | _,_ => True

def contract : Contract (State β) (Request β) (Reply β) (Call β) where
  invariant s := Tracked s ∧ d.invariant s
  permit _ := d.permit
  rely me request before after := Follows me before after ∧ d.rely me request before after
  guarantee me origin before after :=
    ∀ other, other ≠ me → Follows other before after ∧ d.respects other ⟨origin,before⟩ before after

def Allowed (me : Nat) (segment : Start β) (before after : State β) : Prop :=
  d.invariant after ∧ ∀ other, other ≠ me → d.respects other segment before after

def upToDate (s : State β) : Prop :=
  s.stateRevision ≤ s.persistedStateRevision ∧ s.barrierIdCurrent ≤ s.persistedHighWater

structure Lawful [DecidableEq β] (c : Config β) : Prop where
  respectsRefl : ∀ other segment s, d.respects other segment s s
  respectsTrans : ∀ other segment first second third, d.respects other segment first second → Follows other first second →
    d.respects other segment second third → d.respects other segment first third
  effect : ∀ me segment before after, (∀ entry, segment.origin = .call entry → d.admits entry) → Tracked before →
    d.invariant before → Effect c segment before after →
    d.Allowed me segment before after
  work : ∀ me segment s worker, d.invariant s → s.worker = .idle ∨ s.worker = .running me →
    worker = .idle ∨ worker = .running me ∨ worker = .dead ∧ d.raises → d.Allowed me segment s {s with worker}
  stale : ∀ s, d.invariant s → d.swept (staleCheckpoints c s) s
  missing : ∀ barrierId rest s, d.swept (barrierId::rest) s → s.inflightCheckpoints.get? barrierId = none → d.raises
  expire : ∀ me segment barrierId rest checkpoint s, Tracked s → d.invariant s → s.worker = .running me →
    d.swept (barrierId::rest) s → s.inflightCheckpoints.get? barrierId = some checkpoint →
    d.Allowed me segment s (expireCheckpoint barrierId checkpoint s) ∧
      d.swept rest (expireCheckpoint barrierId checkpoint s)
  sweptQuiet : ∀ ids before after, after.view = before.view → d.swept ids before → d.swept ids after
  sweptRely : ∀ me barrierId sources ids before after, before.worker = .running me →
    d.rely me (.release barrierId sources ids) before after → d.swept ids before → d.swept ids after
  durable : ∀ s identity entry, d.invariant s → s.durableSinkCommittables.get? identity = some entry →
    d.covered identity entry s
  commit : ∀ s identity entry, d.invariant s → d.covered identity entry s → d.mayCommit entry s
  coveredRely : ∀ me request before after identity entry, Follows me before after → d.rely me request before after →
    d.covered identity entry before → d.covered identity entry after
  committed : ∀ me segment identity entry s, Tracked s → d.invariant s → d.covered identity entry s →
    d.Allowed me segment s (sinkCommitted identity entry s) ∧
      ∀ other value, d.covered other value s → d.covered other value (sinkCommitted identity entry s)
  empty : ∀ s, d.invariant s → s.durableSinkCommittables.isEmpty = true → d.clear s
  notify : ∀ s source entry, d.invariant s → d.clear s → s.durableSourceStates.get? source = some entry →
    d.mayNotify source entry.checkpointId s
  clearQuiet : ∀ before after, after.view = before.view → d.clear before → d.clear after
  clearRely : ∀ me source checkpointId before after, d.rely me (.notifyPersisted source checkpointId) before after →
    d.clear before → d.clear after
  lock : ∀ me segment s, d.invariant s → s.persistenceLock = none → d.Allowed me segment s (lockPersistence me s)
  unlock : ∀ me segment s, d.invariant s → s.persistenceLock = some me → d.Allowed me segment s (unlockPersistence s)
  snapshot : ∀ me s, d.invariant s → Holding me s → ¬ upToDate s → d.pinned (snapshot s) s.stateRevision s
  pinnedRely : ∀ me request before after metadata revision, Follows me before after → d.rely me request before after →
    Holding me before → d.pinned metadata revision before → d.pinned metadata revision after
  write : ∀ me segment metadata revision reply s after, d.invariant s → Holding me s → d.pinned metadata revision s →
    respond c s (.write metadata) reply = some after →
    d.Allowed me segment s after ∧ (reply = .done → d.pinned metadata revision after)
  publish : ∀ me segment metadata revision s, segment.origin = .reply (.readBack metadata) .done → d.invariant s → Holding me s → d.pinned metadata revision s →
    s.storage.metadata.get? metadata.revision = some metadata →
    d.Allowed me segment s (publish metadata revision s)
  cleanup : ∀ me segment s, d.invariant s → Holding me s → d.Allowed me segment s (cleanupCheckpoints c s)

structure Ends (me : Nat) (before : State β) (segment : Start β)
    (after : State β) : Prop where
  settled : d.contract.Settled me segment after
  admitted : ∀ entry, segment.origin = .call entry → d.admits entry
  grows : Grows me before after
  holding : Holding me before → Holding me after

theorem Ends.refl (me : Nat) (segment : Start β) (s : State β)
    (settled : d.contract.Settled me segment s) (admitted : ∀ entry, segment.origin = .call entry → d.admits entry) :
    d.Ends me s segment s :=
  ⟨settled,admitted,Grows.refl me s,fun holding => holding⟩

theorem Ends.trans (me : Nat) (first second third : State β)
    (segment next : Start β)
    (left : d.Ends me first segment second) (right : d.Ends me second next third) : d.Ends me first next third :=
  ⟨right.settled,right.admitted,left.grows.trans me _ _ _ right.grows,fun holding => right.holding (left.holding holding)⟩

structure Persisting (me : Nat) (before : State β)
    (segment : Start β) (after : State β) : Prop
    extends d.Ends me before segment after where
  held : Holding me after

def StoragePhase (metadata : Metadata β) (revision : Nat) (me : Nat) (before : State β) (stored : Bool)
    (segment : Start β) (after : State β) : Prop :=
  d.Ends me before segment after ∧ after.persistenceLock = some me ∧
    (stored = true → segment.origin = .reply (.readBack metadata) .done ∧ Holding me after ∧
      d.pinned metadata revision after ∧ after.storage.metadata.get? metadata.revision = some metadata)

theorem StoragePhase.failed (metadata : Metadata β) (revision : Nat) (me : Nat) (before : State β)
    (segment : Start β) (after : State β)
    (ends : d.Ends me before segment after) (locked : after.persistenceLock = some me) :
    d.StoragePhase metadata revision me before false segment after :=
  ⟨ends,locked,fun impossible => by contradiction⟩

variable [DecidableEq β] (c : Config β) (lawful : d.Lawful c) (me : Nat) (before : State β)
variable (segment : Start β) (s after : State β)

variable {d c me before segment s after}

variable (after) in
include lawful in
theorem Ends.step (ends : d.Ends me before segment s) (tracked : Tracked after)
    (follows : ∀ other, other ≠ me → Follows other s after) (grows : Grows me s after)
    (holding : Holding me before → Holding me after) (allowed : d.Allowed me segment s after) :
    d.Ends me before segment after := by
  refine ⟨⟨⟨tracked,allowed.1⟩,fun other different => ?_⟩,ends.admitted,ends.grows.trans me _ _ _ grows,holding⟩
  obtain ⟨followed,respected⟩ := ends.settled.2 other different
  have further := follows other different
  exact ⟨followed.trans other _ _ _ further,
    lawful.respectsTrans other _ _ _ _ respected followed (allowed.2 other different)⟩

include lawful in
theorem Ends.effect (ends : d.Ends me before segment s) (effect : Effect c segment s after) :
    d.Ends me before segment after := by
  have tracked := ends.settled.1.1
  have mine := effect.follows me s after c segment tracked
  exact ends.step lawful after (effect.flight s after c segment tracked).tracked
    (fun other _ => effect.follows other s after c segment tracked) mine.toGrows
    (fun held => mine.holding me s after (ends.holding held))
    (lawful.effect me segment s after ends.admitted tracked ends.settled.1.2 effect)

include lawful in
theorem Ends.quiet (ends : d.Ends me before segment s) (same : after.view = s.view) : d.Ends me before segment after :=
  ends.effect lawful (.quiet same)

include lawful in
theorem Ends.resume (ends : d.Ends me before segment s) (request : Request β) (reply : Reply β) (later : State β)
    (kept : d.contract.invariant later) (follows : Follows me s later) :
    d.Ends me before ⟨.reply request reply,later⟩ later :=
  ⟨⟨kept,fun other _ => ⟨Follows.refl other later,lawful.respectsRefl other _ later⟩⟩,fun _ impossible => by contradiction,
    ends.grows.trans me _ _ _ follows.toGrows,fun held => follows.holding me s later (ends.holding held)⟩

variable {α : Type}

include lawful in
theorem wp_wait (request : Request β) (next : Reply β → Co β α) (post : α → _ → State β → Prop)
    (fail : Error → _ → State β → Prop) (ends : d.Ends me before segment s) (permitted : d.permit request s)
    (still : request.still = true)
    (resume : ∀ later reply, d.Ends me before ⟨.reply request reply,later⟩ later → Follows me s later →
      d.rely me request s later → respond c later request reply = some later →
      d.contract.wp (respond c) me (next reply) post fail ⟨.reply request reply,later⟩ later) :
    d.contract.wp (respond c) me (ask request >>= next) post fail segment s := by
  refine ⟨ends.settled,permitted,fun later reply answered kept allowed answer => ?_⟩
  obtain rfl := respond_still c request reply later answered still answer
  exact resume answered reply (ends.resume lawful request reply answered kept allowed.1) allowed.1 allowed.2
    answer

variable (d c me before segment s) in
abbrev Proceeds (body : Co β α) : Prop :=
  d.contract.wp (respond c) me body (fun _ => d.Ends me before) (fun _ => d.Ends me before) segment s

include lawful in
theorem releaseCheckpointSources_wp (barrierId : Int) (sources : List Vertex) (sweeping : List Int) (keep : State β → Prop)
    (fail : Error → _ → State β → Prop) (ends : d.Ends me before segment s) (kept : keep s)
    (quiet : ∀ first second : State β, second.view = first.view → keep first → keep second)
    (stable : ∀ first second, Follows me first second → d.rely me (.release barrierId sources sweeping) first second →
      keep first → keep second) :
    d.contract.wp (respond c) me (releaseCheckpointSources barrierId sources sweeping)
      (fun _ segment state => d.Ends me before segment state ∧ keep state) fail segment s := by
  unfold releaseCheckpointSources
  let pended := {s with pendingCheckpointReleases := s.pendingCheckpointReleases.set barrierId sources}
  refine wp_wait lawful _ _ _ _ (ends.quiet lawful rfl)
    trivial rfl (fun later reply resumed follows allowed answer => ?_)
  have still : keep later := stable pended later follows allowed (quiet s pended rfl kept)
  split
  · exact ⟨resumed.quiet lawful (finishCheckpointRelease_view later barrierId),
      quiet later _ (finishCheckpointRelease_view later barrierId) still⟩
  · exact ⟨resumed,still⟩

include lawful in
theorem retryPendingCheckpointReleases_wp (releases : List (Int × List Vertex)) (fail : Error → _ → State β → Prop)
    (ends : d.Ends me before segment s) :
    d.contract.wp (respond c) me (retryPendingCheckpointReleases releases) (fun _ => d.Ends me before) fail segment s := by
  induction releases generalizing segment s with
  | nil => exact ends
  | cons release rest ih =>
    unfold retryPendingCheckpointReleases
    refine wp_wait lawful _ _ _ _ ends trivial rfl (fun later reply resumed _ _ _ => ?_)
    split
    · exact ih (resumed.quiet lawful (finishCheckpointRelease_view later release.1))
    · exact ih resumed

include lawful in
theorem expireEach_wp (ids : List Int) (ends : d.Ends me before segment s) (working : s.worker = .running me)
    (swept : d.swept ids s) :
    d.contract.wp (respond c) me (expireEach ids)
      (fun _ segment state => d.Ends me before segment state ∧ state.worker = .running me)
      (fun _ segment state => d.Ends me before segment state ∧ state.worker = .running me ∧ d.raises) segment s := by
  induction ids generalizing segment s with
  | nil => exact ⟨ends,working⟩
  | cons barrierId rest ih =>
    unfold expireEach
    rw [wp_get]
    cases found : s.inflightCheckpoints.get? barrierId with
    | none => exact ⟨ends,working,lawful.missing barrierId rest s swept found⟩
    | some checkpoint =>
      have tracked := ends.settled.1.1
      have view := expireCheckpoint_view s barrierId checkpoint
      have mine := expireCheckpoint_follows me s barrierId checkpoint tracked
      obtain ⟨allowed,left⟩ := lawful.expire me segment barrierId rest checkpoint s tracked ends.settled.1.2
        working swept found
      have expired := ends.step lawful (expireCheckpoint barrierId checkpoint s)
        (expireCheckpoint_flight s barrierId checkpoint tracked).tracked
        (fun other _ => expireCheckpoint_follows other s barrierId checkpoint tracked) mine.toGrows
        (fun held => mine.holding me _ _ (ends.holding held)) allowed
      have running := mine.worker working
      simp only [wp_update]
      refine d.contract.wp_chain
        (releaseCheckpointSources_wp lawful barrierId checkpoint.triggerSources rest
          (fun state => d.swept rest state ∧ state.worker = .running me) _ expired ⟨left,running⟩ ?_ ?_) ?_
      · rintro first second same ⟨kept,owned⟩
        exact ⟨lawful.sweptQuiet rest first second same kept,
          (congrArg (fun view => view.durability.worker) same).trans owned⟩
      · rintro first second follows allowed ⟨kept,owned⟩
        exact ⟨lawful.sweptRely me barrierId _ rest first second owned allowed kept,follows.worker owned⟩
      · rintro - next state ⟨ended,kept,owned⟩
        exact ih ended owned kept

include lawful in
theorem expireStaleCheckpoints_wp (ends : d.Ends me before segment s) (working : s.worker = .running me) :
    d.contract.wp (respond c) me (expireStaleCheckpoints c)
      (fun _ segment state => d.Ends me before segment state ∧ state.worker = .running me)
      (fun _ segment state => d.Ends me before segment state ∧ state.worker = .running me ∧ d.raises) segment s := by
  unfold expireStaleCheckpoints
  rw [wp_get]
  split
  · exact ⟨ends,working⟩
  · exact expireEach_wp lawful _ ends working (lawful.stale s ends.settled.1.2)

include lawful in
theorem commitEach_wp (strict : Bool) (items : List (SinkIdentity × SinkEntry)) (ends : d.Ends me before segment s)
    (covered : ∀ item ∈ items, d.covered item.1 item.2 s) :
    d.contract.wp (respond c) me (commitEach strict items) (fun _ => d.Ends me before)
      (fun _ segment state => strict = true ∧ d.Ends me before segment state) segment s := by
  induction items generalizing segment s with
  | nil => exact ends
  | cons item rest ih =>
    unfold commitEach
    have permitted := lawful.commit s item.1 item.2 ends.settled.1.2 (covered item (by simp))
    refine ⟨ends.settled,permitted,fun later reply answered kept allowed answer => ?_⟩
    have resumed := ends.resume lawful (.commit item.2) reply later kept allowed.1
    have still (other : SinkIdentity × SinkEntry) (inside : other ∈ item::rest) : d.covered other.1 other.2 later :=
      lawful.coveredRely me _ s later other.1 other.2 allowed.1 allowed.2 (covered other inside)
    have skipped (failed : d.Ends me before ⟨.reply (.commit item.2) reply,later⟩ later) :
        d.contract.wp (respond c) me
          (if strict = true then raise (.checkpointCommitError
              ("Failed to commit sink transaction '" ++ item.2.committable.transactionId ++ "'"))
            else commitEach strict rest >>= fun _ => pure false) (fun _ => d.Ends me before)
          (fun _ segment state => strict = true ∧ d.Ends me before segment state)
          ⟨.reply (.commit item.2) reply,later⟩ later := by
      split
      next strictly => exact ⟨strictly,failed⟩
      next =>
        exact d.contract.wp_chain
          (ih failed (fun other inside => still other (by simp [inside]))) (fun _ _ _ ended => ended)
    cases reply with
    | done =>
      cases answer
      have mine := sinkCommitted_follows me later item.1 item.2
      obtain ⟨permits,others⟩ := lawful.committed me ⟨.reply (.commit item.2) .done,later⟩ item.1 item.2 later kept.1 kept.2
        (still item (by simp))
      have committed := resumed.step lawful (sinkCommitted item.1 item.2 later) kept.1
        (fun other _ => sinkCommitted_follows other later item.1 item.2) mine.toGrows
        (fun held => mine.holding me _ _ (resumed.holding held)) permits
      exact ih committed (fun other inside => others other.1 other.2 (still other (by simp [inside])))
    | failed =>
      cases answer
      exact skipped resumed
    | timedOut =>
      cases answer
      exact skipped resumed
    | flag value => contradiction
    | states sourceStates => contradiction
    | failedLate => contradiction

include lawful in
theorem commitDurableSinkCommittables_wp (strict : Bool) (ends : d.Ends me before segment s) :
    d.contract.wp (respond c) me (commitDurableSinkCommittables strict) (fun _ => d.Ends me before)
      (fun _ segment state => strict = true ∧ d.Ends me before segment state) segment s := by
  unfold commitDurableSinkCommittables
  rw [wp_get]
  refine commitEach_wp lawful strict _ ends (fun item inside => ?_)
  exact lawful.durable s item.1 item.2 ends.settled.1.2 ((Dict.get?_eq_some _ _ _).mpr inside)

include lawful in
theorem notifyEach_wp (sources : List Vertex) (fail : Error → _ → State β → Prop) (ends : d.Ends me before segment s)
    (clear : d.clear s) :
    d.contract.wp (respond c) me (notifyEach sources) (fun _ => d.Ends me before) fail segment s := by
  induction sources generalizing segment s with
  | nil => exact ends
  | cons source rest ih =>
    unfold notifyEach
    rw [wp_get]
    cases found : s.durableSourceStates.get? source with
    | none => exact ih ends clear
    | some entry =>
      dsimp only
      split
      next => exact ih ends clear
      split
      next => exact ih ends clear
      next =>
        refine wp_wait lawful _ _ _ _ ends
          (lawful.notify s source entry ends.settled.1.2 clear found) rfl
          (fun later reply resumed follows allowed answer => ?_)
        have still := lawful.clearRely me source entry.checkpointId s later allowed clear
        split
        next succeeded =>
          have view := sourceNotified_view later source entry.checkpointId succeeded
          exact ih (resumed.quiet lawful view) (lawful.clearQuiet later _ view still)
        next => exact ih resumed still

include lawful in
theorem notifyDurableSourceCheckpoints_wp (fail : Error → _ → State β → Prop) (ends : d.Ends me before segment s) :
    d.contract.wp (respond c) me notifyDurableSourceCheckpoints (fun _ => d.Ends me before) fail segment s := by
  unfold notifyDurableSourceCheckpoints
  rw [wp_get]
  split
  next => exact ends
  next graph _ =>
    split
    next => exact ends
    split
    next => exact ends
    next resolved =>
      exact notifyEach_wp lawful graph.sources fail ends
        (lawful.empty s ends.settled.1.2 (by simpa using resolved))

include lawful in
theorem commitDurableSinkCommittables_persisting (strict : Bool) (persisting : d.Persisting me before segment s) :
    d.contract.wp (respond c) me (commitDurableSinkCommittables strict) (fun _ => d.Persisting me before)
      (fun _ segment state => strict = true ∧ d.Persisting me before segment state) segment s := by
  have own := Ends.refl d me segment s persisting.settled persisting.admitted
  have ended (next) (state : State β) (ends : d.Ends me s next state) : d.Persisting me before next state :=
    ⟨persisting.toEnds.trans d me _ _ _ _ _ ends,ends.holding persisting.held⟩
  exact d.contract.wp_mono (fun _ => ended)
    (fun _ next state failed => ⟨failed.1,ended next state failed.2⟩)
    (commitDurableSinkCommittables_wp lawful strict own)

include lawful in
theorem notifyDurableSourceCheckpoints_persisting (fail : Error → _ → State β → Prop)
    (persisting : d.Persisting me before segment s) :
    d.contract.wp (respond c) me notifyDurableSourceCheckpoints (fun _ => d.Persisting me before) fail segment s := by
  have own := Ends.refl d me segment s persisting.settled persisting.admitted
  have ended (next) (state : State β) (ends : d.Ends me s next state) : d.Persisting me before next state :=
    ⟨persisting.toEnds.trans d me _ _ _ _ _ ends,ends.holding persisting.held⟩
  exact d.contract.wp_mono (fun _ => ended) (fun _ _ _ failed => failed)
    (notifyDurableSourceCheckpoints_wp lawful fail own)

include lawful in
theorem materializeEach_wp (metadata : Metadata β) (revision : Nat) (vertices : List Vertex)
    (fail : Error → _ → State β → Prop) (persisting : d.Persisting me before segment s)
    (pinned : d.pinned metadata revision s) :
    d.contract.wp (respond c) me (materializeEach vertices)
      (fun _ segment state => d.Persisting me before segment state ∧ d.pinned metadata revision state) fail segment s := by
  induction vertices generalizing segment s with
  | nil => exact ⟨persisting,pinned⟩
  | cons vertex rest ih =>
    unfold materializeEach
    refine wp_wait lawful _ _ _ _ persisting.toEnds trivial rfl
      (fun later reply resumed follows allowed answer => ?_)
    have held := follows.holding me s later persisting.held
    have still := lawful.pinnedRely me _ s later metadata revision follows allowed persisting.held pinned
    split
    next => exact ih ⟨resumed,held⟩ still
    next => exact ⟨⟨resumed,held⟩,still⟩

include lawful in
theorem writeSnapshot_wp (metadata : Metadata β) (revision : Nat) (fail : Error → _ → State β → Prop)
    (persisting : d.Persisting me before segment s) (free : ¬ Holding me before) (pinned : d.pinned metadata revision s) :
    d.contract.wp (respond c) me (writeSnapshot metadata) (d.StoragePhase metadata revision me before) fail segment s := by
  unfold writeSnapshot
  refine d.contract.wp_chain
    (materializeEach_wp lawful metadata revision _ fail persisting pinned) ?_
  rintro materialized next state ⟨persisting,pinned⟩
  split
  next => exact .failed d metadata revision me before next state persisting.toEnds persisting.held.1
  rw [wp_ask]
  refine ⟨persisting.settled,trivial,fun later reply answered kept allowed answer => ?_⟩
  have held := allowed.1.holding me state later persisting.held
  have still := lawful.pinnedRely me _ state later metadata revision allowed.1 allowed.2 persisting.held pinned
  have resumed := persisting.toEnds.resume lawful (.write metadata) reply later kept
    allowed.1
  obtain ⟨stores,tasks⟩ := respond_write_stores c metadata reply later answered answer
  obtain ⟨permits,further⟩ := lawful.write me ⟨.reply (.write metadata) reply,later⟩ metadata revision reply later answered
    kept.2 held still answer
  have lockKept : answered.persistenceLock = some me :=
    (congrArg (fun view => view.durability.persistenceLock) stores.view).trans held.1
  have written : d.Ends me before ⟨.reply (.write metadata) reply,later⟩ answered := by
    refine resumed.step lawful answered (stores.tracked later answered kept.1)
      (fun other different => ?_) (stores.grows me later answered) (fun holding => absurd holding free) permits
    exact .of_unlocked other later answered (stores.grows other later answered)
      (fun owned => different (by simpa [held.1] using owned.symm))
  split
  next =>
    have holding : Holding me answered := ⟨lockKept,(tasks rfl).trans held.2⟩
    refine wp_wait lawful _ _ _ _ written trivial rfl
      (fun last reply resumed follows allowed answer => ?_)
    have holds := follows.holding me answered last holding
    split
    next =>
      refine ⟨resumed,holds.1,fun _ => ⟨rfl,holds,?_,?_⟩⟩
      · exact lawful.pinnedRely me _ answered last metadata revision follows allowed holding (further rfl)
      · simpa [respond] using answer
    next => exact .failed d metadata revision me before _ last resumed holds.1
  next => exact .failed d metadata revision me before _ answered written lockKept

include lawful in
theorem afterPublish_wp (notifySources : Bool) (fail : Error → _ → State β → Prop)
    (persisting : d.Persisting me before segment s) :
    d.contract.wp (respond c) me (afterPublish notifySources) (fun _ => d.Persisting me before) fail segment s := by
  have cleaned (next) (state : State β) (persisting : d.Persisting me before next state) :
      d.contract.wp (respond c) me (do
        modify clearRescaleRecoveryFenceIfDurable
        let _ ← ask .cleanup
        return true) (fun _ => d.Persisting me before) fail next state := by
    have cleared := persisting.toEnds.quiet lawful
      (clearRescaleRecoveryFenceIfDurable_view state)
    have held : Holding me (clearRescaleRecoveryFenceIfDurable state) := by
      have same := congrArg View.durability (clearRescaleRecoveryFenceIfDurable_view state)
      exact ⟨(congrArg Durability.persistenceLock same).trans persisting.held.1,
        (congrArg Durability.checkpointIoTasks same).trans persisting.held.2⟩
    rw [wp_update,wp_ask]
    refine ⟨cleared.settled,trivial,fun later reply answered kept allowed answer => ?_⟩
    have holding := allowed.1.holding me _ later held
    have resumed := cleared.resume lawful .cleanup reply later kept allowed.1
    cases reply with
    | done =>
      cases answer
      have stores := cleanupCheckpoints_stores c later
      refine ⟨?_,holding⟩
      refine resumed.step lawful (cleanupCheckpoints c later) kept.1 (fun other different => ?_)
        (stores.grows me _ _) (fun _ => holding) (lawful.cleanup me _ later kept.2 holding)
      exact .of_unlocked other _ _ (stores.grows other _ _)
        (fun owned => different (by simpa [holding.1] using owned.symm))
    | failed =>
      cases answer
      exact ⟨resumed,holding⟩
    | _ => contradiction
  unfold afterPublish
  refine d.contract.wp_chain
    (d.contract.wp_mono (fun _ _ _ ended => ended) (fun _ _ _ failed => ?_)
      (commitDurableSinkCommittables_persisting lawful false persisting)) ?_
  · exact absurd failed.1 (by simp)
  · intro resolved next state ended
    split
    next => exact ended
    split
    next =>
      exact d.contract.wp_chain
        (notifyDurableSourceCheckpoints_persisting lawful fail ended)
        (fun _ => cleaned)
    next => exact cleaned next state ended

def Locked (me : Nat) (before : State β) (segment : Start β)
    (after : State β) : Prop :=
  d.Ends me before segment after ∧ after.persistenceLock = some me

include lawful in
theorem publish_persisting (metadata : Metadata β) (revision : Nat) (ends : d.Ends me before segment s)
    (free : ¬ Holding me before) (started : segment.origin = .reply (.readBack metadata) .done) (held : Holding me s)
    (pinned : d.pinned metadata revision s) (stored : s.storage.metadata.get? metadata.revision = some metadata) :
    d.Persisting me before segment (publish metadata revision s) := by
  have grows (other : Nat) : Grows other s (publish metadata revision s) :=
    .of_flight other s _ rfl rfl (fun _ inside => inside) rfl
  refine ⟨?_,held⟩
  refine ends.step lawful _ ends.settled.1.1 (fun other different => ?_) (grows me)
    (fun holding => absurd holding free) ?_
  · exact .of_unlocked other _ _ (grows other) (fun owned => different (by simpa [held.1] using owned.symm))
  · exact lawful.publish me segment metadata revision s started ends.settled.1.2 held pinned stored

include lawful in
theorem persistProgress_wp (notifySources strict : Bool) (persisting : d.Persisting me before segment s)
    (free : ¬ Holding me before) :
    d.contract.wp (respond c) me (persistProgress notifySources strict) (fun _ => d.Locked me before)
      (fun _ segment state => strict = true ∧ d.Locked me before segment state) segment s := by
  unfold persistProgress
  rw [wp_get]
  split
  next =>
    have view := clearRescaleRecoveryFenceIfDurable_view s
    exact ⟨persisting.toEnds.quiet lawful view,
      (congrArg (fun view => view.durability.persistenceLock) view).trans persisting.held.1⟩
  next behind =>
    refine d.contract.wp_chain (writeSnapshot_wp lawful
      (Coordinator.snapshot s) s.stateRevision _ persisting free
      (lawful.snapshot me s persisting.settled.1.2 persisting.held behind)) ?_
    rintro stored next state ⟨ends,locked,result⟩
    split
    next =>
      unfold persistFailed
      split
      next strictly => exact ⟨strictly,ends,locked⟩
      next => exact ⟨ends,locked⟩
    next success =>
      obtain ⟨started,held,pinned,found⟩ := result (by simpa using success)
      have published := publish_persisting lawful _ s.stateRevision ends free started held
        pinned found
      rw [wp_update]
      exact d.contract.wp_mono (fun _ _ _ ended => ⟨ended.toEnds,ended.held.1⟩)
        (fun _ _ _ failed => failed) (afterPublish_wp lawful notifySources _ published)

include lawful in
theorem persistLocked_wp (notifySources strict : Bool) (locked : d.Locked me before segment s)
    (free : ¬ Holding me before) :
    d.contract.wp (respond c) me (persistLocked notifySources strict) (fun _ => d.Locked me before)
      (fun _ segment state => strict = true ∧ d.Locked me before segment state) segment s := by
  unfold persistLocked
  refine wp_wait lawful _ _ _ _ locked.1 trivial rfl
    (fun later reply resumed follows allowed answer => ?_)
  have lockKept := (follows.guarded locked.2).persistenceLock.trans locked.2
  rw [wp_get]
  split
  next => exact ⟨resumed,lockKept⟩
  next =>
    have drained : later.checkpointIoTasks = [] := by
      cases reply <;> simp_all [respond]
    refine d.contract.wp_chain
      (d.contract.wp_mono (fun _ _ _ ended => ended) (fun _ _ _ failed => ?_)
        (commitDurableSinkCommittables_persisting lawful strict ⟨resumed,lockKept,drained⟩)) ?_
    · exact ⟨failed.1,failed.2.toEnds,failed.2.held.1⟩
    · intro resolved next state ended
      split
      next => exact ⟨ended.toEnds,ended.held.1⟩
      split
      next =>
        exact d.contract.wp_chain
          (notifyDurableSourceCheckpoints_persisting lawful _ ended)
          (fun _ last final ended => persistProgress_wp lawful notifySources strict ended free)
      next => exact persistProgress_wp lawful notifySources strict ended free

include lawful in
theorem persistCheckpointMetadata_wp (notifySources strict : Bool) (ends : d.Ends me before segment s) :
    d.contract.wp (respond c) me (persistCheckpointMetadata me notifySources strict) (fun _ => d.Ends me before)
      (fun _ segment state => strict = true ∧ d.Ends me before segment state) segment s := by
  unfold persistCheckpointMetadata
  refine wp_wait lawful _ _ _ _ ends trivial rfl
    (fun later reply resumed follows allowed answer => ?_)
  have unlocked : later.persistenceLock = none := by
    cases reply <;> simp_all [respond]
  have free : ¬ Holding me before := by
    intro holding
    have held := (resumed.holding holding).1
    simp [unlocked] at held
  have locked : d.Ends me before ⟨.reply .acquirePersistenceLock reply,later⟩ (lockPersistence me later) := by
    have grows (other : Nat) : Grows other later (lockPersistence me later) :=
      .of_flight other _ _ rfl rfl (fun _ inside => inside) rfl
    exact resumed.step lawful _ resumed.settled.1.1
      (fun other _ => .of_unlocked other _ _ (grows other) (by simp [unlocked])) (grows me)
      (fun holding => absurd holding free) (lawful.lock me _ later resumed.settled.1.2 unlocked)
  have released (next) (state : State β) (ended : d.Locked me before next state) :
      d.Ends me before next (unlockPersistence state) := by
    have grows (other : Nat) : Grows other state (unlockPersistence state) :=
      .of_flight other _ _ rfl rfl (fun _ inside => inside) rfl
    exact ended.1.step lawful _ ended.1.settled.1.1
      (fun other different => .of_unlocked other _ _ (grows other)
        (fun owned => different (by simpa [ended.2] using owned.symm))) (grows me)
      (fun holding => absurd holding free) (lawful.unlock me _ state ended.1.settled.1.2 ended.2)
  rw [wp_update,wp_finish]
  exact d.contract.wp_mono (fun _ => released)
    (fun _ next state failed => ⟨failed.1,released next state failed.2⟩)
    (persistLocked_wp lawful notifySources strict ⟨locked,rfl⟩ free)

include lawful in
theorem releaseCheckpointSources_ends (barrierId : Int) (sources : List Vertex) (fail : Error → _ → State β → Prop)
    (ends : d.Ends me before segment s) :
    d.contract.wp (respond c) me (releaseCheckpointSources barrierId sources []) (fun _ => d.Ends me before) fail
      segment s :=
  d.contract.wp_mono (fun _ _ _ ended => ended.1) (fun _ _ _ failed => failed)
    (releaseCheckpointSources_wp lawful barrierId sources [] (fun _ => True) fail ends trivial
      (fun _ _ _ _ => trivial) (fun _ _ _ _ _ => trivial))

include lawful in
theorem Ends.fail (checkpoint : Checkpoint) (barrierId : Int) (ends : d.Ends me before segment s)
    (gone : Gone checkpoint.barrierId s) :
    d.Ends me before segment (carryInflightSinkCommittables
      {s with inflightOperatorStates := s.inflightOperatorStates.erase barrierId} checkpoint) := by
  have sinks := carryInflightSinkCommittables_congr
    {s with inflightOperatorStates := s.inflightOperatorStates.erase barrierId} s checkpoint rfl
  refine ends.effect lawful (.carry checkpoint gone ?_)
  exact (carryInflightSinkCommittables_view _ checkpoint).trans
    (congrArg (fun sinks => {s.view with sinks := sinks}) sinks)

include lawful in
theorem failCheckpoint_wp (checkpoint : Checkpoint) (barrierId : Int) (wait : Bool)
    (fail : Error → _ → State β → Prop) (ends : d.Ends me before segment s) (gone : Gone checkpoint.barrierId s) :
    d.contract.wp (respond c) me (failCheckpoint checkpoint barrierId wait) (fun _ => d.Ends me before) fail
      segment s := by
  unfold failCheckpoint
  rw [wp_update]
  refine d.contract.wp_chain
    (releaseCheckpointSources_ends lawful barrierId checkpoint.triggerSources fail
      (ends.fail lawful checkpoint barrierId gone)) (fun _ next state ended => ?_)
  have marked (last) (final : State β) (ended : d.Ends me before last final) :
      d.Ends me before last (markFailed barrierId final) := ended.quiet lawful rfl
  split
  next =>
    exact wp_wait lawful _ _ _ _ ended trivial rfl
      (fun final _ resumed _ _ _ => marked _ final resumed)
  next => exact marked next state ended

include lawful in
theorem collectDomainSourceStates_wp (checkpoint : Checkpoint) (barrierId : Int) (fail : Error → _ → State β → Prop)
    (ends : d.Ends me before segment s) :
    d.contract.wp (respond c) me (collectDomainSourceStates checkpoint barrierId) (fun _ => d.Ends me before) fail
      segment s := by
  unfold collectDomainSourceStates
  rw [wp_get]
  dsimp only
  split
  next => exact ends
  next =>
    refine wp_wait lawful _ _ _ _ ends trivial rfl (fun _ reply resumed _ _ answer => ?_)
    split
    next => exact resumed
    next => exact resumed

include lawful in
theorem commitCut_wp (checkpoint : Checkpoint) (barrierId : Int) (ends : d.Ends me before segment s)
    (gone : Gone checkpoint.barrierId before) (popped : barrierId ∈ before.log.poppedByAck) :
    d.Proceeds c me before segment s (commitCut c me checkpoint barrierId) := by
  have completed (next) (state : State β) (ended : d.Ends me before next state) :
      d.Ends me before next (markComplete checkpoint barrierId state) :=
    ended.effect lawful (.complete barrierId (ended.grows.popped popped) rfl)
  unfold commitCut
  refine d.contract.wp_chain
    (collectDomainSourceStates_wp lawful checkpoint barrierId _ ends)
    (fun collected next state ended => ?_)
  have goneNow := ended.grows.gone checkpoint.barrierId gone
  split
  next =>
    exact d.contract.wp_chain
      (failCheckpoint_wp lawful checkpoint barrierId false _ ended goneNow)
      (fun _ _ _ failed => failed)
  next sourceStates =>
    rw [wp_get]
    split
    next => exact ended
    next merged hasCommittables stabilizationReady done =>
      have advanced := ended.effect lawful
        (.merge checkpoint sourceStates hasCommittables stabilizationReady goneNow done)
      rw [wp_update]
      split
      next =>
        refine d.contract.wp_chain
          (d.contract.wp_mono (fun _ _ _ ended => ended)
            (fun _ _ _ failed => failed.2)
            (persistCheckpointMetadata_wp lawful true true advanced))
          (fun _ last final ended => completed last final ended)
      next => exact completed next merged advanced

include lawful in
theorem completeAlignedCheckpoint_wp (checkpoint : Checkpoint) (barrierId : Int) (ends : d.Ends me before segment s)
    (gone : Gone checkpoint.barrierId before) (popped : barrierId ∈ before.log.poppedByAck) :
    d.Proceeds c me before segment s (completeAlignedCheckpoint c me checkpoint barrierId) := by
  unfold completeAlignedCheckpoint Proceeds
  rw [wp_handle]
  refine d.contract.wp_mono (fun _ _ _ ended => ended) (fun error next state failed => ?_)
    (commitCut_wp lawful checkpoint barrierId ends gone popped)
  have marked (last) (final : State β) (ended : d.Ends me before last final) :
      d.Ends me before last (markFailed barrierId final) := ended.quiet lawful rfl
  split
  next =>
    rw [wp_update]
    exact d.contract.wp_chain
      (releaseCheckpointSources_ends lawful barrierId _ _ (marked next state failed))
      (fun _ _ _ ended => ended)
  next =>
    rw [wp_update]
    exact d.contract.wp_chain
      (releaseCheckpointSources_ends lawful barrierId _ _
        (failed.fail lawful checkpoint barrierId (failed.grows.gone _ gone)))
      (fun _ last final ended => marked last final ended)

include lawful in
theorem notifyCheckpointAligned_wp (barrierId : Int) (vertex : Vertex) (ends : d.Ends me before segment s)
    (started : segment = ⟨.call (.notifyCheckpointAligned barrierId vertex),s⟩) :
    d.Proceeds c me before segment s (notifyCheckpointAligned c me barrierId vertex) := by
  unfold notifyCheckpointAligned Proceeds
  rw [wp_get]
  split
  next => exact ends
  split
  next => exact ends
  next checkpoint found =>
    split
    next => exact ends
    split
    next => exact ends
    dsimp only
    have own := acknowledge_barrierId checkpoint vertex
    split
    next =>
      exact ends.effect lawful (.touch barrierId checkpoint _ found own rfl)
    next ready =>
      have tracked := ends.settled.1.1 barrierId checkpoint found
      have begun := ends.effect lawful
        (.beginCompletion barrierId vertex checkpoint started found (by simpa using ready) rfl)
      have gone : Gone (checkpoint.acknowledge vertex).1.barrierId (beginCompletion barrierId s) := by
        rw [own,tracked.1]
        exact ⟨tracked.2,by simp [beginCompletion]⟩
      have popped : barrierId ∈ (beginCompletion barrierId s).log.poppedByAck := by simp [beginCompletion]
      have finished (next) (state : State β) (ended : d.Ends me (beginCompletion barrierId s) next state) :
          d.Ends me before next (endCompletion (checkpoint.acknowledge vertex).1 barrierId state) :=
        (begun.trans d me _ _ _ _ _ ended).quiet lawful (endCompletion_view state _ barrierId)
      have owned : d.Ends me _ segment (noteCompleter me barrierId (beginCompletion barrierId s)) :=
        (Ends.refl d me segment _ begun.settled begun.admitted).quiet lawful rfl
      rw [wp_update,wp_update,wp_finish]
      exact d.contract.wp_mono (fun _ => finished) (fun _ => finished)
        (completeAlignedCheckpoint_wp lawful _ barrierId owned gone popped)

include lawful in
theorem failEach_wp (aborted : List (Int × Checkpoint)) (fail : Error → _ → State β → Prop)
    (ends : d.Ends me before segment s) (gone : ∀ item ∈ aborted, Gone item.2.barrierId before) :
    d.contract.wp (respond c) me (failEach aborted) (fun _ => d.Ends me before) fail segment s := by
  induction aborted generalizing segment s with
  | nil => exact ends
  | cons item rest ih =>
    unfold failEach
    exact d.contract.wp_chain
      (failCheckpoint_wp lawful item.2 item.1 true fail ends
        (ends.grows.gone _ (gone item (by simp))))
      (fun _ next state ended => ih ended (fun other inside => gone other (by simp [inside])))

include lawful in
theorem abortInflightCheckpointsForRescale_wp (fail : Error → _ → State β → Prop) (ends : d.Ends me before segment s)
    (operationId : String) (started : segment.origin = .reply (.waitFence operationId) .done)
    (admitted : segment.start.rescaleOperationId.any (· ≠ operationId) = false) :
    d.contract.wp (respond c) me abortInflightCheckpointsForRescale (fun _ => d.Ends me before) fail segment s := by
  have view := detachInflightCheckpoints_view s
  have detached := ends.effect lawful (.detach operationId started admitted view)
  have gone (item : Int × Checkpoint) (inside : item ∈ s.inflightCheckpoints.entries) :
      Gone item.2.barrierId (detachInflightCheckpoints s) := by
    have found := (Dict.get?_eq_some s.inflightCheckpoints item.1 item.2).mpr inside
    obtain ⟨own,issued⟩ := ends.settled.1.1 item.1 item.2 found
    have current : (detachInflightCheckpoints s).barrierIdCurrent = s.barrierIdCurrent :=
      congrArg (fun view => view.flight.barrierIdCurrent) view
    have nothing : (detachInflightCheckpoints s).inflightCheckpoints = ∅ :=
      congrArg (fun view => view.flight.inflightCheckpoints) view
    rw [own]
    exact ⟨by rw [current]; exact issued,by rw [nothing]; rfl⟩
  unfold abortInflightCheckpointsForRescale
  rw [wp_get,wp_update]
  exact d.contract.wp_mono
    (fun _ _ _ ended => detached.trans d me _ _ _ _ _ ended) (fun _ _ _ failed => failed)
    (failEach_wp lawful s.inflightCheckpoints.entries fail (.refl d me segment _ detached.settled detached.admitted) gone)

include lawful in
theorem closeAdmission_wp (operationId : String) (ends : d.Ends me before segment s) :
    d.Proceeds c me before segment s (closeAdmission operationId) := by
  unfold closeAdmission Proceeds
  refine wp_wait lawful _ _ _ _ ends trivial rfl
    (fun later reply resumed follows allowed answer => ?_)
  split
  next =>
    rw [wp_get]
    split
    next => exact resumed
    next admitted =>
      rw [wp_update]
      have closed : d.Ends me before _ {later with rescaleOperationId := some operationId} := resumed.quiet lawful rfl
      refine d.contract.wp_chain
        (abortInflightCheckpointsForRescale_wp lawful _ closed operationId rfl (by simpa using admitted)) (fun _ next state ended => ?_)
      refine wp_wait lawful _ _ _ _ ended trivial rfl
        (fun last reply resumed follows allowed answer => ?_)
      split
      next => exact resumed
      next => exact resumed.quiet lawful rfl
  next => exact resumed

include lawful in
theorem beginOperatorRescale_wp (operationId : String) (ends : d.Ends me before segment s) :
    d.Proceeds c me before segment s (beginOperatorRescale me operationId) := by
  unfold beginOperatorRescale Proceeds
  split
  next => exact ends
  next =>
    refine wp_wait lawful _ _ _ _ ends trivial rfl
      (fun later reply resumed follows allowed answer => ?_)
    split
    next =>
      have released (next) (state : State β) (ended : d.Ends me before next state) :
          d.Ends me before next (unlockRescaleGate state) := ended.quiet lawful rfl
      rw [wp_update,wp_finish]
      exact d.contract.wp_mono (fun _ => released) (fun _ => released)
        (closeAdmission_wp lawful operationId (resumed.quiet lawful rfl))
    next => exact resumed

include lawful in
theorem persistIfDue_wp (fail : Error → _ → State β → Prop) (ends : d.Ends me before segment s) :
    d.contract.wp (respond c) me (persistIfDue c me) (fun _ => d.Ends me before) fail segment s := by
  unfold persistIfDue
  rw [wp_get]
  split
  next => exact ends
  split
  next => exact ends
  next =>
    rw [wp_update]
    exact d.contract.wp_chain (d.contract.wp_mono
      (fun _ _ _ ended => ended) (fun _ _ _ failed => absurd failed.1 (by simp))
      (persistCheckpointMetadata_wp lawful true false
        (ends.quiet lawful rfl))) (fun _ _ _ ended => ended)

include lawful in
theorem run_wp (ends : d.Ends me before segment s) (working : before.worker = .running me) :
    d.contract.wp (respond c) me (run c me) (fun _ => d.Ends me before)
      (fun _ segment state => d.Ends me before segment state ∧ d.raises) segment s := by
  unfold run
  refine wp_wait lawful _ _ _ _ ends trivial rfl (fun later _ resumed _ _ _ => ?_)
  rw [wp_get]
  refine d.contract.wp_chain
    (retryPendingCheckpointReleases_wp lawful _ _ resumed) (fun _ next state ended => ?_)
  refine d.contract.wp_chain
    (d.contract.wp_mono (fun _ _ _ ended => ended.1)
      (fun _ _ _ failed => ⟨failed.1,failed.2.2⟩)
      (expireStaleCheckpoints_wp lawful ended (ended.grows.worker working)))
    (fun _ next state ended => ?_)
  refine d.contract.wp_chain
    (d.contract.wp_mono (fun _ _ _ ended => ended)
      (fun _ _ _ failed => absurd failed.1 (by simp))
      (commitDurableSinkCommittables_wp lawful false ended))
    (fun resolved next state ended => ?_)
  split
  next =>
    refine d.contract.wp_chain
      (notifyDurableSourceCheckpoints_wp lawful _ ended) (fun _ next state ended => ?_)
    rw [wp_update]
    exact persistIfDue_wp lawful _
      (ended.quiet lawful (clearRescaleRecoveryFenceIfDurable_view state))
  next => exact persistIfDue_wp lawful _ ended

include lawful in
theorem settled_worker (worker : Worker) (settled : d.contract.Settled me segment s)
    (owned : s.worker = .idle ∨ s.worker = .running me)
    (fits : worker = .idle ∨ worker = .running me ∨ worker = .dead ∧ d.raises) :
    d.contract.Settled me segment {s with worker} := by
  have allowed := lawful.work me segment s worker settled.1.2 owned fits
  refine ⟨⟨settled.1.1,allowed.1⟩,fun other different => ?_⟩
  obtain ⟨followed,respected⟩ := settled.2 other different
  exact ⟨followed.trans other _ _ _ (worker_follows me s other worker different owned),
    lawful.respectsTrans other _ _ _ _ respected followed (allowed.2 other different)⟩

include lawful in
theorem tick_wp (settled : d.contract.Settled me segment s)
    (admitted : ∀ entry, segment.origin = .call entry → d.admits entry) :
    d.contract.wp (respond c) me (tick c me) (fun _ => d.contract.Settled me) (fun _ => d.contract.Settled me)
      segment s := by
  unfold tick
  rw [wp_get]
  split
  next => exact settled
  next fresh =>
    have idle : s.worker = .idle := by
      by_contra busy
      exact fresh (.inl busy)
    have running := settled_worker lawful (.running me) settled (.inl idle) (by simp)
    rw [wp_update,wp_handle]
    refine d.contract.wp_chain (d.contract.wp_mono
      (fun _ _ _ ended => ended) (fun _ next state failed => ?_)
      (run_wp lawful (.refl d me segment {s with worker := .running me} running admitted) rfl))
      (fun _ next state ended => ?_)
    · exact settled_worker lawful .dead failed.1.settled (.inr (failed.1.grows.worker rfl))
        (by simp [failed.2])
    · exact settled_worker lawful .idle ended.settled (.inr (ended.grows.worker rfl)) (by simp)

include lawful in
theorem persistNow_wp (notifySources requireResolvedSinks : Bool) (ends : d.Ends me before segment s) :
    d.Proceeds c me before segment s (persistNow me notifySources requireResolvedSinks) := by
  unfold persistNow Proceeds
  refine wp_wait lawful _ _ _ _ ends trivial rfl
    (fun later reply resumed follows allowed answer => ?_)
  split
  next =>
    rw [wp_get]
    split
    next => exact resumed
    next =>
      refine d.contract.wp_chain
        (d.contract.wp_mono (fun _ _ _ ended => ended) (fun _ _ _ failed => failed.2)
          (persistCheckpointMetadata_wp lawful notifySources requireResolvedSinks resumed))
        (fun _ next state ended => ?_)
      split
      next => exact ended
      next =>
        refine d.contract.wp_chain
          (d.contract.wp_mono (fun _ _ _ ended => ended) (fun _ _ _ failed => failed.2)
            (commitDurableSinkCommittables_wp lawful true ended)) (fun _ next state ended => ?_)
        rw [wp_get]
        split
        next => exact ended
        split
        next => exact ended
        next =>
          refine d.contract.wp_chain
            (notifyDurableSourceCheckpoints_wp lawful _ ended) (fun _ next state ended => ?_)
          rw [wp_get]
          split
          next => exact ended
          next => exact ended
  next => exact resumed

include lawful in
theorem attempt_wp (method : State β → Except Error (State β)) (ends : d.Ends me before segment s)
    (effect : ∀ after, method s = .ok after → Effect c segment s after) :
    d.Proceeds c me before segment s (attempt method) := by
  unfold attempt Proceeds
  rw [wp_get]
  split
  next => exact ends
  next after done => exact ends.effect lawful (effect after done)

include lawful in
theorem call_keeps (entry : Call β) (admits : d.admits entry) (kept : d.contract.invariant s) :
    d.contract.Keeps (respond c) me (call c me entry) ⟨.call entry,s⟩ s := by
  have settled : d.contract.Settled me ⟨.call entry,s⟩ s :=
    ⟨kept,fun other _ => ⟨Follows.refl other s,lawful.respectsRefl other _ s⟩⟩
  have admitted (other : Call β) (same : (.call entry : Origin (Call β) (Request β) (Reply β)) = .call other) :
      d.admits other := by
    cases same
    exact admits
  have ends := Ends.refl d me ⟨.call entry,s⟩ s settled admitted
  have finished (body : Co β Unit) (proceeds : d.Proceeds c me s ⟨.call entry,s⟩ s body) :
      d.contract.Keeps (respond c) me body ⟨.call entry,s⟩ s :=
    d.contract.wp_mono (fun _ _ _ ended => ended.settled)
      (fun _ _ _ failed => failed.settled) proceeds
  have ignored (body : Co β Bool) (proceeds : d.Proceeds c me s ⟨.call entry,s⟩ s body) :
      d.contract.Keeps (respond c) me (do let _ ← body) ⟨.call entry,s⟩ s :=
    finished _ (d.contract.wp_chain proceeds (fun _ _ _ ended => ended))
  cases entry with
  | registerCheckpoint vertex force =>
    exact finished _ (ends.effect lawful (.registerCheckpoint c _ s vertex force))
  | sourceCheckpointStarted barrierId vertex isEof =>
    exact finished _ (ends.effect lawful (.sourceCheckpointStarted c _ s barrierId vertex isEof))
  | registerOperatorState barrierId vertex reference =>
    exact finished _ (attempt_wp lawful _ ends
      (fun after done => .registerOperatorState c _ s barrierId vertex reference after done))
  | registerSinkCommittable barrierId vertex committable =>
    refine finished _ (attempt_wp lawful _ ends (fun after done => ?_))
    cases result : registerSinkCommittable barrierId vertex committable s with
    | error error => simp [result,Except.map] at done
    | ok accepted =>
      simp only [result,Except.map,Except.ok.injEq] at done
      subst done
      exact .registerSinkCommittable c _ s barrierId vertex committable accepted.1 accepted.2 rfl result
  | notifyCheckpointAligned barrierId vertex =>
    exact ignored _ (notifyCheckpointAligned_wp lawful barrierId vertex ends rfl)
  | beginOperatorRescale operationId =>
    exact ignored _ (beginOperatorRescale_wp lawful operationId ends)
  | finishOperatorRescale operationId committed target =>
    exact finished _ (ends.quiet lawful (finishOperatorRescale_view s operationId committed target))
  | stageOperatorRescaleState operationId jobVertexId targetParallelism snapshots =>
    exact finished _ (attempt_wp lawful _ ends (fun after done =>
      .stageOperatorRescaleState c _ s operationId jobVertexId targetParallelism snapshots after done))
  | reconfigureExecutionGraph graph =>
    exact finished _ (attempt_wp lawful _ ends
      (fun after done => .reconfigureExecutionGraph c _ s graph after done))
  | persistNow notifySources requireResolvedSinks =>
    exact finished _ (persistNow_wp lawful notifySources requireResolvedSinks ends)
  | tick => exact tick_wp lawful settled admitted
  | finishOpen =>
    refine ignored _ (d.contract.wp_mono (fun _ _ _ ended => ended)
      (fun _ _ _ failed => failed.2) (commitDurableSinkCommittables_wp lawful true ends))
  | stop => exact finished _ (ends.quiet lawful rfl)

variable (d c me before segment s)

include lawful in
theorem sound (condition : System.Config (State β) (Request β) (Reply β) Error → Label β → Prop)
    (spawns : ∀ config entry, condition config (.spawn entry) → d.admits entry)
    (refl : ∀ me request s, d.rely me request s s)
    (trans : ∀ me request first second third, Follows me first second → d.rely me request first second →
      d.rely me request second third → d.rely me request first third)
    (interference : ∀ config label index origin, condition config label → Contract.Starts config label index origin →
      ∀ after, d.invariant config.shared → ∀ other request next, other ≠ index →
        config.threads[other]? = some (.waiting request next) →
        d.respects other ⟨origin,config.shared⟩ config.shared after → d.rely other request config.shared after)
    (environment : ∀ action s after, d.invariant s → act action s = some after →
      d.invariant after ∧ ∀ me request, d.rely me request s after)
    (restart : ∀ config graph, condition config (.restart graph) → d.invariant config.shared →
      d.invariant (openCoordinator c graph config.shared)) :
    d.contract.Sound (system c) condition where
  refl me request s := ⟨Follows.refl me s,refl me request s⟩
  trans me request first second third left right :=
    ⟨left.1.trans me _ _ _ right.1,trans me request first second third left.1 left.2 right.2⟩
  calls me entry config met kept := call_keeps lawful entry (spawns config entry met) kept
  interference config label index origin met started after kept guaranteed other request next different waiting := by
    obtain ⟨followed,respected⟩ := guaranteed other different
    exact ⟨followed,interference config label index origin met started after kept.2 other request next different waiting
      respected⟩
  environment config action after _ kept acted := by
    obtain ⟨further,allowed⟩ := environment action config.shared after kept.2 acted
    exact ⟨⟨(act_stores action _ after acted).1.tracked _ after kept.1,further⟩,
      fun me request => ⟨act_follows me action _ after acted,allowed me request⟩⟩
  restart config graph after met kept restarted := by
    cases restarted
    exact ⟨fun barrierId checkpoint found => by contradiction,restart config graph met kept.2⟩

theorem secure_initial (graph : ExecutionGraph) (holds : d.invariant (openCoordinator c graph unopened)) :
    d.contract.Secure (system c) (initial c graph) :=
  ⟨⟨fun barrierId checkpoint found => by contradiction,holds⟩,fun index pause found => by simp [initial] at found⟩

end Discipline
end Klein.Coordinator
