import Klein.Coordinator.DomainLedger
import Klein.Fallible

/-! The slots of the checkpoint domains under interleaving. Persisting, committing,
notifying and releasing leave the ledger alone, up to the recovery fence; every other
method makes one of the updates of the ledger, and the thread that completes a
checkpoint is the only one that decides what becomes of it. -/
namespace Klein.Coordinator
open Contract Dict List Option SlotLedger

variable {β : Type}

section ledgers
variable (s : State β)

@[simp] theorem releaseDomainSlot_ledger (checkpoint : Checkpoint) :
    (releaseDomainSlot s checkpoint).ledger = s.ledger.freeSlot checkpoint.barrierId checkpoint.domainId := by
  unfold releaseDomainSlot SlotLedger.freeSlot
  cases found : checkpoint.domainId with
  | some domain =>
    by_cases held : s.activeCheckpointByDomain.get? domain = some checkpoint.barrierId
    · simp [State.ledger,held]
    · simp [State.ledger,held]
  | none => rfl

private theorem freeSlot_inflight (ledger : SlotLedger) (inflight : Dict Int Checkpoint) (barrierId : Int)
    (domainId : Option String) :
    SlotLedger.freeSlot {ledger with inflightCheckpoints := inflight} barrierId domainId =
      {ledger.freeSlot barrierId domainId with inflightCheckpoints := inflight} := by
  unfold SlotLedger.freeSlot
  split
  · dsimp only
    split <;> rfl
  · rfl

section
variable (barrierId : Int) (checkpoint : Checkpoint) (named : checkpoint.barrierId = barrierId)
include named

theorem popped_ledger (idle : barrierId ∉ s.completingCheckpoints) :
    (releaseDomainSlot {s with inflightCheckpoints := s.inflightCheckpoints.erase barrierId} checkpoint).ledger =
      s.ledger.retire barrierId checkpoint.domainId := by
  have slot := releaseDomainSlot_ledger {s with inflightCheckpoints := s.inflightCheckpoints.erase barrierId} checkpoint
  obtain ⟨active,freed,-,-⟩ := freeSlot_slots s.ledger barrierId checkpoint.domainId
  rw [slot,named]
  refine (freeSlot_inflight s.ledger _ barrierId checkpoint.domainId).trans ?_
  rw [SlotLedger.retire,freed]
  dsimp only [State.ledger]
  rw [erase_of_not_mem idle]

theorem endCompletion_ledger (absent : s.inflightCheckpoints.get? barrierId = none) :
    (endCompletion checkpoint barrierId s).ledger = s.ledger.retire barrierId checkpoint.domainId := by
  have gone : s.inflightCheckpoints.contains barrierId = false := by
    rw [contains_eq_isSome,absent]
    rfl
  have slot := releaseDomainSlot_ledger s checkpoint
  obtain ⟨active,freed,-,-⟩ := freeSlot_slots s.ledger barrierId checkpoint.domainId
  rw [named,freed] at slot
  rw [SlotLedger.retire,freed]
  dsimp only [State.ledger]
  rw [erase_of_absent _ _ gone]
  exact (congrArg (fun ledger : SlotLedger => {ledger with
    completingCheckpoints := ledger.completingCheckpoints.erase barrierId}) slot)

end

@[simp] theorem carryInflightSinkCommittables_ledger (checkpoint : Checkpoint) :
    (carryInflightSinkCommittables s checkpoint).ledger = s.ledger := by
  unfold carryInflightSinkCommittables
  dsimp only
  split <;> rfl

@[simp] theorem finishCheckpointRelease_ledger (barrierId : Int) :
    (finishCheckpointRelease barrierId s).ledger = s.ledger := by
  unfold finishCheckpointRelease
  dsimp only
  split <;> rfl

@[simp] theorem sourceNotified_ledger (source : Vertex) (checkpointId : Int) (succeeded : Bool) :
    (sourceNotified source checkpointId succeeded s).ledger = s.ledger := by
  unfold sourceNotified
  dsimp only
  split <;> rfl

@[simp] theorem updateLatestSourceState_ledger (vertex : Vertex) (entry : SourceEntry β) :
    (updateLatestSourceState s vertex entry).ledger = s.ledger := by
  unfold updateLatestSourceState
  repeat' split
  all_goals rfl

theorem updateEach_ledger (items : List (Vertex × β)) (barrierId : Int) :
    (items.foldl (fun state item => updateLatestSourceState state item.1 ⟨barrierId,item.2⟩) s).ledger = s.ledger := by
  induction items generalizing s with
  | nil => rfl
  | cons item rest ih => rw [foldl_cons,ih,updateLatestSourceState_ledger]

@[simp] theorem replaceLogicalOperatorStates_ledger (completed : Dict Vertex β) :
    (replaceLogicalOperatorStates s completed).ledger = s.ledger := by
  unfold replaceLogicalOperatorStates
  dsimp only
  split <;> rfl

@[simp] theorem mergeCheckpointOperatorStates_ledger (completed : Dict Vertex β) :
    (mergeCheckpointOperatorStates s completed).ledger = s.ledger := by
  unfold mergeCheckpointOperatorStates
  split <;> rfl

@[simp] theorem recordRescaleStabilizationProgress_ledger (checkpoint : Checkpoint) :
    (recordRescaleStabilizationProgress s checkpoint).1.ledger = s.ledger := by
  unfold recordRescaleStabilizationProgress
  split
  next => rfl
  split
  next => rfl
  split
  next => rfl
  next =>
    dsimp only
    split <;> rfl

theorem mergeAlignedCheckpointProgress_ledger (c : Config β) (after : State β) (checkpoint : Checkpoint)
    (sourceStates : Dict Vertex β) (hasCommittables stabilizationReady : Bool)
    (done : mergeAlignedCheckpointProgress c s checkpoint sourceStates = .ok (after,hasCommittables,stabilizationReady)) :
    after.ledger = s.ledger := by
  simp only [mergeAlignedCheckpointProgress,bind,Except.bind] at done
  split at done
  next => contradiction
  next completed completing =>
    split at done
    next => contradiction
    next carried carrying =>
      simp only [pure,Except.pure,Except.ok.injEq,Prod.mk.injEq] at done
      obtain ⟨rfl,-,-⟩ := done
      have sourced := updateEach_ledger s sourceStates.entries checkpoint.barrierId
      refine Eq.trans (recordRescaleStabilizationProgress_ledger _ checkpoint) ?_
      refine Eq.trans ?_ sourced
      cases checkpoint.coordinated with
      | true => exact replaceLogicalOperatorStates_ledger _ _
      | false => exact mergeCheckpointOperatorStates_ledger _ _

theorem clearRescaleRecoveryFenceIfDurable_ledger :
    (clearRescaleRecoveryFenceIfDurable s).ledger = s.ledger ∨
      (clearRescaleRecoveryFenceIfDurable s).ledger = {s.ledger with rescaleRecoveryFence := none} := by
  unfold clearRescaleRecoveryFenceIfDurable
  repeat' split
  all_goals first | exact .inl rfl | exact .inr rfl

theorem writeMetadata_ledger [DecidableEq β] (metadata : Metadata β) (after : State β)
    (wrote : writeMetadata metadata s = some after) : after.ledger = s.ledger := by
  obtain ⟨-,⟨-,rfl⟩ | ⟨-,rfl⟩⟩ := writeMetadata_cases metadata s after wrote
  · rfl
  · rfl

theorem writeCheckpoint_ledger [DecidableEq β] (metadata : Metadata β) (after : State β)
    (wrote : writeCheckpoint metadata s = some after) : after.ledger = s.ledger := by
  obtain ⟨stored,first,rfl⟩ := map_eq_some_iff.mp wrote
  exact writeMetadata_ledger s metadata stored first

theorem respond_ledger [DecidableEq β] (c : Config β) (request : Request β) (reply : Reply β) (after : State β)
    (answer : respond c s request reply = some after) : after.ledger = s.ledger := by
  by_cases still : request.still = true
  · rw [respond_still c request reply s after still answer]
  · cases request with
    | write metadata =>
      cases reply with
      | done => exact writeCheckpoint_ledger s metadata after answer
      | failedLate => exact writeMetadata_ledger s metadata after answer
      | failed =>
        cases answer
        rfl
      | timedOut =>
        cases answer
        rfl
      | flag value => contradiction
      | states sourceStates => contradiction
    | commit entry => cases reply <;> cases answer <;> rfl
    | cleanup => cases reply <;> cases answer <;> rfl
    | _ => exact absurd rfl still

theorem act_ledger [DecidableEq β] (action : Act) (after : State β) (acted : act action s = some after) :
    after.ledger = s.ledger := by
  obtain ⟨milliseconds,rfl⟩ | ⟨task,metadata,stored,-,rfl,how⟩ := act_cases action s after acted
  · rfl
  · obtain rfl | wrote | wrote := how
    · rfl
    · exact writeMetadata_ledger s metadata stored wrote
    · exact writeCheckpoint_ledger s metadata stored wrote

end ledgers

open Coroutine

def Still (before after : State β) : Prop :=
  after.ledger = before.ledger ∨ after.ledger = {before.ledger with rescaleRecoveryFence := none}

section still
variable (me : Nat) (raises : Prop)

private theorem still_of_eq (before after : State β) (same : after.ledger = before.ledger) : Still before after :=
  .inl same

private theorem still_refl (s : State β) : Still s s := .inl rfl

theorem releaseCheckpointSources_still (barrierId : Int) (sources : List Vertex) (sweeping : List Int) :
    (releaseCheckpointSources barrierId sources sweeping : Co β Unit).Accesses Still raises := by
  refine .update Still raises _ _ (fun s => still_of_eq s _ rfl) (.ask Still raises _ _ (fun reply => ?_))
  split
  · exact fun s => ⟨still_of_eq s _ (finishCheckpointRelease_ledger s barrierId),trivial⟩
  · trivial

theorem retryPendingCheckpointReleases_still (releases : List (Int × List Vertex)) :
    (retryPendingCheckpointReleases releases : Co β Unit).Accesses Still True := by
  induction releases with
  | nil => trivial
  | cons release rest ih =>
    refine .ask Still True _ _ (fun reply => ?_)
    split
    · exact .update Still True _ _ (fun s => still_of_eq s _ (finishCheckpointRelease_ledger s release.1)) ih
    · exact ih

theorem commitEach_still (strict : Bool) (items : List (SinkIdentity × SinkEntry)) :
    (commitEach strict items : Co β Bool).Accesses Still True := by
  induction items with
  | nil => trivial
  | cons item rest ih =>
    refine .ask Still True _ _ (fun reply => ?_)
    split
    · exact .update Still True _ _ (fun s => still_of_eq s _ rfl) ih
    · split
      · trivial
      · exact .bind Still True _ _ ih (fun _ => trivial)

theorem commitDurableSinkCommittables_still (strict : Bool) :
    (commitDurableSinkCommittables strict : Co β Bool).Accesses Still True :=
  .get Still True _ still_refl (fun s => commitEach_still strict s.durableSinkCommittables.entries)

theorem notifyEach_still (sources : List Vertex) : (notifyEach sources : Co β Unit).Accesses Still True := by
  induction sources with
  | nil => trivial
  | cons source rest ih =>
    refine .get Still True _ still_refl (fun s => ?_)
    split
    next => exact ih
    next entry _ =>
      dsimp only
      split
      next => exact ih
      split
      next => exact ih
      next =>
        refine .ask Still True _ _ (fun reply => ?_)
        split
        next succeeded =>
          exact .update Still True _ _
            (fun s => still_of_eq s _ (sourceNotified_ledger s source entry.checkpointId succeeded)) ih
        next => exact ih

theorem notifyDurableSourceCheckpoints_still : (notifyDurableSourceCheckpoints : Co β Unit).Accesses Still True := by
  refine .get Still True _ still_refl (fun s => ?_)
  split
  · trivial
  · split
    · trivial
    · split
      · trivial
      · exact notifyEach_still _

theorem materializeEach_still (vertices : List Vertex) : (materializeEach vertices : Co β Bool).Accesses Still True := by
  induction vertices with
  | nil => trivial
  | cons vertex rest ih =>
    refine .ask Still True _ _ (fun reply => ?_)
    split
    · exact ih
    · trivial

theorem writeSnapshot_still (metadata : Metadata β) : (writeSnapshot metadata).Accesses Still True := by
  refine .bind Still True _ _ (materializeEach_still _) (fun materialized => ?_)
  split
  · trivial
  · refine .ask Still True _ _ (fun reply => ?_)
    split
    · refine .ask Still True _ _ (fun reply => ?_)
      split
      · trivial
      · trivial
    · trivial

theorem afterPublish_still (notifySources : Bool) : (afterPublish notifySources : Co β Bool).Accesses Still True := by
  have cleaned : (do
      modify clearRescaleRecoveryFenceIfDurable
      let _ ← ask .cleanup
      return true : Co β Bool).Accesses Still True :=
    .update Still True _ _ clearRescaleRecoveryFenceIfDurable_ledger (.ask Still True _ _ (fun _ => trivial))
  refine .bind Still True _ _ (commitDurableSinkCommittables_still false) (fun resolved => ?_)
  split
  · trivial
  · split
    · exact .bind Still True _ _ notifyDurableSourceCheckpoints_still (fun _ => cleaned)
    · exact cleaned

theorem persistProgress_still (notifySources strict : Bool) :
    (persistProgress notifySources strict : Co β Bool).Accesses Still True := by
  refine .get Still True _ still_refl (fun s => ?_)
  split
  · exact .update Still True _ _ clearRescaleRecoveryFenceIfDurable_ledger trivial
  · refine .bind Still True _ _ (writeSnapshot_still _) (fun stored => ?_)
    split
    · unfold persistFailed
      split
      · trivial
      · trivial
    · exact .update Still True _ _ (fun s => still_of_eq s _ rfl) (afterPublish_still notifySources)

theorem persistLocked_still (notifySources strict : Bool) :
    (persistLocked notifySources strict : Co β Bool).Accesses Still True := by
  refine .ask Still True _ _ (fun _ => .get Still True _ still_refl (fun s => ?_))
  split
  · trivial
  · refine .bind Still True _ _ (commitDurableSinkCommittables_still strict) (fun resolved => ?_)
    split
    · trivial
    · split
      · exact .bind Still True _ _ notifyDurableSourceCheckpoints_still (fun _ => persistProgress_still notifySources strict)
      · exact persistProgress_still notifySources strict

theorem persistCheckpointMetadata_still (notifySources strict : Bool) :
    (persistCheckpointMetadata me notifySources strict : Co β Bool).Accesses Still True := by
  refine .ask Still True _ _ (fun _ => .update Still True _ _ (fun s => still_of_eq s _ rfl) ?_)
  exact .finish Still True _ _ (persistLocked_still notifySources strict) (fun s => ⟨still_of_eq s _ rfl,trivial⟩)

theorem collectDomainSourceStates_still (checkpoint : Checkpoint) (barrierId : Int) :
    (collectDomainSourceStates checkpoint barrierId : Co β (Option (Dict Vertex β))).Accesses Still True := by
  refine .get Still True _ still_refl (fun s => ?_)
  dsimp only
  split
  · trivial
  · refine .ask Still True _ _ (fun reply => ?_)
    split
    · trivial
    · trivial

theorem persistIfDue_still (c : Config β) : (persistIfDue c me : Co β Unit).Accesses Still True := by
  refine .get Still True _ still_refl (fun s => ?_)
  split
  · trivial
  · split
    · trivial
    · refine .update Still True _ _ (fun s => still_of_eq s _ rfl) ?_
      exact .bind Still True _ _ (persistCheckpointMetadata_still me true false) (fun _ => trivial)

theorem persistNow_still (notifySources requireResolvedSinks : Bool) :
    (persistNow me notifySources requireResolvedSinks : Co β Unit).Accesses Still True := by
  refine .ask Still True _ _ (fun reply => ?_)
  split
  · refine .get Still True _ still_refl (fun s => ?_)
    split
    · trivial
    · refine .bind Still True _ _ (persistCheckpointMetadata_still me notifySources requireResolvedSinks) (fun _ => ?_)
      split
      · trivial
      · refine .bind Still True _ _ (commitDurableSinkCommittables_still true) (fun _ => .get Still True _ still_refl (fun s => ?_))
        split
        · trivial
        · split
          · trivial
          · refine .bind Still True _ _ notifyDurableSourceCheckpoints_still (fun _ => .get Still True _ still_refl (fun s => ?_))
            split
            · trivial
            · trivial
  · trivial

end still

/-- The invariant of the slots, and their exclusive use when the run is `calm`. -/
def slotContract (calm : Prop) : Contract (State β) (Request β) (Reply β) (Call β) where
  invariant s := s.ledger.Sound ∧ (calm → s.ledger.Exclusive)
  permit _ _ _ := True
  rely me _ before after := before.ledger.Respects me after.ledger
  guarantee me _ before after := ∀ other, other ≠ me → before.ledger.Respects other after.ledger

def Enduring (me : Nat) (facts : SlotLedger → Prop) : Prop :=
  ∀ before after, before.Respects me after → facts before → facts after

def Holds (calm : Prop) (me : Nat) (facts : SlotLedger → Prop) (segment : Start β) (s : State β) : Prop :=
  (slotContract calm).Settled me segment s ∧ facts s.ledger

section rules
variable [DecidableEq β] (c : Config β) (calm : Prop) (me : Nat) (facts : SlotLedger → Prop) (segment : Start β)
variable (s after : State β)

variable {c calm me facts segment s after}

variable (after) in
omit [DecidableEq β] in
theorem Holds.allow (more : SlotLedger → Prop) (holds : Holds calm me facts segment s)
    (allowed : SlotLedger.Allows calm me s.ledger after.ledger) (known : more after.ledger) :
    Holds calm me more segment after := by
  obtain ⟨⟨⟨sound,exclusive⟩,guaranteed⟩,-⟩ := holds
  refine ⟨⟨⟨allowed.sound,allowed.exclusive⟩,fun other different => ?_⟩,known⟩
  exact (guaranteed other different).trans other _ _ _ (allowed.respects other different)

omit [DecidableEq β] in
theorem Holds.learn (more : SlotLedger → Prop) (holds : Holds calm me facts segment s) (known : more s.ledger) :
    Holds calm me more segment s :=
  ⟨holds.1,known⟩

variable (after) in
omit [DecidableEq β] in
theorem Holds.still (enduring : Enduring me facts) (holds : Holds calm me facts segment s) (moved : Still s after) :
    Holds calm me facts segment after := by
  obtain same | cleared := moved
  · refine holds.allow after facts ?_ (by rw [same]; exact holds.2)
    rw [same]
    exact allows_refl calm me s.ledger holds.1.1.1 holds.1.1.2
  · have respects (other : Nat) : s.ledger.Respects other after.ledger := by
      rw [cleared]
      exact .of_flight other _ _ (fun _ inside => inside) (fun _ gone => gone) rfl rfl rfl
    refine holds.allow after facts ?_ (enduring _ _ (respects me) holds.2)
    rw [cleared]
    exact allows_clear calm me s.ledger holds.1.1.1 holds.1.1.2

theorem Holds.stable (enduring : Enduring me facts) :
    (slotContract calm).Stable (respond c) me (Holds calm me facts : Start β → State β → Prop) where
  settled _ _ holds := holds.1
  permit _ _ _ _ := trivial
  resume request reply segment state later answered holds kept allowed answer := by
    have same := respond_ledger later c request reply answered answer
    refine ⟨⟨?_,fun other _ => ?_⟩,?_⟩
    · dsimp only [slotContract] at kept ⊢
      rw [same]
      exact kept
    · rw [same]
      exact SlotLedger.Respects.refl other later.ledger
    · rw [same]
      exact enduring _ _ allowed holds.2

variable {α : Type}

theorem wp_still (enduring : Enduring me facts) (raises : Prop) (body : Co β α) (still : body.Accesses Still raises)
    (holds : Holds calm me facts segment s) :
    (slotContract calm).wp (respond c) me body (fun _ => Holds calm me facts)
      (fun _ segment state => raises ∧ Holds calm me facts segment state) segment s :=
  (slotContract calm).wp_accesses (respond c) me Still raises _ (Holds.stable enduring)
    (fun _ _ after moved holds => holds.still after enduring moved)
    body still segment s holds

theorem wp_await (enduring : Enduring me facts) (request : Request β) (next : Reply β → Co β α)
    (post : α → Start β → State β → Prop) (fail : Error → Start β → State β → Prop)
    (holds : Holds calm me facts segment s)
    (resume : ∀ later reply answered, respond c later request reply = some answered →
      Holds calm me facts ⟨.reply request reply,later⟩ answered →
      (slotContract calm).wp (respond c) me (next reply) post fail ⟨.reply request reply,later⟩ answered) :
    (slotContract calm).wp (respond c) me (ask request >>= next) post fail segment s := by
  refine ⟨holds.1,trivial,fun later reply answered kept allowed answer => resume later reply answered answer ?_⟩
  exact (Holds.stable enduring).resume request reply segment s later answered holds kept allowed answer

end rules

theorem enduring_true (me : Nat) : Enduring me (fun _ => True) := fun _ _ _ _ => trivial

theorem enduring_and (me : Nat) (first second : SlotLedger → Prop) (left : Enduring me first) (right : Enduring me second) :
    Enduring me (fun ledger => first ledger ∧ second ledger) :=
  fun before after respects known => ⟨left before after respects known.1,right before after respects known.2⟩

def Undecided (me : Nat) (barrierId : Int) (ledger : SlotLedger) : Prop :=
  ledger.Gone barrierId ∧ barrierId ∉ ledger.completed ∧
    (ledger.completer.get? barrierId = some me ∨ ledger.completer.get? barrierId = none)

def Completes (me : Nat) (barrierId : Int) (domainId : Option String) (ledger : SlotLedger) : Prop :=
  ledger.Gone barrierId ∧ ledger.completer.get? barrierId = some me ∧ ledger.Recorded barrierId domainId

theorem undecided_enduring (me : Nat) (barrierId : Int) : Enduring me (Undecided me barrierId) := by
  rintro before after respects ⟨gone,undecided,owner⟩
  refine ⟨respects.gone barrierId gone,fun completed => undecided ?_,?_⟩
  · exact respects.completed barrierId gone owner completed
  · rw [respects.completer barrierId gone]
    exact owner

theorem completes_enduring (me : Nat) (barrierId : Int) (domainId : Option String) :
    Enduring me (Completes me barrierId domainId) := by
  rintro before after respects ⟨gone,owner,recorded⟩
  refine ⟨respects.gone barrierId gone,?_,respects.recorded me before after barrierId domainId recorded⟩
  rw [respects.completer barrierId gone]
  exact owner

def Deciding (me : Nat) (barrierId : Int) (domainId : Option String) (ledger : SlotLedger) : Prop :=
  Completes me barrierId domainId ledger ∧ barrierId ∉ ledger.completed ∧ barrierId ∉ ledger.failed

theorem deciding_enduring (me : Nat) (barrierId : Int) (domainId : Option String) :
    Enduring me (Deciding me barrierId domainId) := by
  rintro before after respects ⟨completes,uncompleted,unfailed⟩
  refine ⟨completes_enduring me barrierId domainId before after respects completes,fun completed => uncompleted ?_,
    fun failed => unfailed ?_⟩
  · exact respects.completed barrierId completes.1 (.inl completes.2.1) completed
  · exact respects.failed barrierId completes.1 completes.2.1 failed

theorem Deciding.undecided (me : Nat) (barrierId : Int) (domainId : Option String) (ledger : SlotLedger)
    (deciding : Deciding me barrierId domainId ledger) : Undecided me barrierId ledger :=
  ⟨deciding.1.1,deciding.2.1,.inl deciding.1.2.1⟩

section methods
variable [DecidableEq β] (c : Config β) (calm : Prop) (me : Nat) (segment : Start β) (s : State β)

variable {c calm me segment s}

omit [DecidableEq β] in
theorem Holds.fail (barrierId : Int) (facts more : SlotLedger → Prop) (holds : Holds calm me facts segment s)
    (undecided : Undecided me barrierId s.ledger)
    (known : more {s.ledger with failed := s.ledger.failed ++ [barrierId]}) :
    Holds calm me more segment (markFailed barrierId s) := by
  obtain ⟨gone,uncompleted,owner⟩ := undecided
  refine holds.allow _ more ?_ known
  refine allows_fail calm me s.ledger holds.1.1.1 holds.1.1.2 barrierId gone uncompleted (fun other different taken => ?_)
  rw [taken] at owner
  obtain same | none := owner
  · exact different (some.inj same)
  · contradiction

theorem failCheckpoint_holds (checkpoint : Checkpoint) (barrierId : Int) (wait : Bool) (facts : SlotLedger → Prop)
    (fail : Error → Start β → State β → Prop) (enduring : Enduring me facts)
    (marks : ∀ ledger, facts ledger → facts {ledger with failed := ledger.failed ++ [barrierId]})
    (holds : Holds calm me facts segment s) (undecided : Undecided me barrierId s.ledger) :
    (slotContract calm).wp (respond c) me (failCheckpoint checkpoint barrierId wait)
      (fun _ => Holds calm me facts) fail segment s := by
  have both := enduring_and me facts (Undecided me barrierId) enduring (undecided_enduring me barrierId)
  have marked (next) (state : State β)
      (known : Holds calm me (fun ledger => facts ledger ∧ Undecided me barrierId ledger) next state) :
      Holds calm me facts next (markFailed barrierId state) :=
    known.fail barrierId _ facts known.2.2 (marks _ known.2.1)
  have start : Holds calm me (fun ledger => facts ledger ∧ Undecided me barrierId ledger) segment s :=
    ⟨holds.1,holds.2,undecided⟩
  unfold failCheckpoint
  rw [wp_update]
  have carried := start.still (carryInflightSinkCommittables
      {s with inflightOperatorStates := s.inflightOperatorStates.erase barrierId} checkpoint) both
    (.inl (carryInflightSinkCommittables_ledger _ checkpoint))
  refine (slotContract calm).wp_chain ((slotContract calm).wp_mono (fun _ _ _ known => known)
    (fun _ _ _ failed => absurd failed.1 id) (wp_still both False _
      (releaseCheckpointSources_still False barrierId checkpoint.triggerSources []) carried)) (fun _ next state known => ?_)
  split
  next => exact wp_await both _ _ _ _ known (fun _ _ final _ known => marked _ final known)
  next => exact marked next state known

theorem Completes.marks (barrierId other : Int) (domainId : Option String) (ledger : SlotLedger)
    (completes : Completes me barrierId domainId ledger) :
    Completes me barrierId domainId {ledger with failed := ledger.failed ++ [other]} := completes

section
variable (checkpoint : Checkpoint) (barrierId : Int) (domainId : Option String)
  (holds : Holds calm me (Deciding me barrierId domainId) segment s)
include checkpoint holds

theorem commitCut_holds :
    (slotContract calm).wp (respond c) me (commitCut c me checkpoint barrierId)
      (fun _ => Holds calm me (Completes me barrierId domainId))
      (fun _ => Holds calm me (Deciding me barrierId domainId)) segment s := by
  have enduring := deciding_enduring me barrierId domainId
  have completed (next) (state : State β) (known : Holds calm me (Deciding me barrierId domainId) next state) :
      Holds calm me (Completes me barrierId domainId) next (markComplete checkpoint barrierId state) := by
    obtain ⟨completes,uncompleted,unfailed⟩ := known.2
    exact known.allow (markComplete checkpoint barrierId state) _ (allows_complete calm me
      state.ledger known.1.1.1 known.1.1.2 barrierId completes.1 unfailed completes.2.1) completes
  unfold commitCut
  refine (slotContract calm).wp_chain
    ((slotContract calm).wp_mono (fun _ _ _ known => known)
      (fun _ _ _ failed => failed.2) (wp_still enduring True _
        (collectDomainSourceStates_still checkpoint barrierId) holds)) (fun collected next state known => ?_)
  split
  next =>
    have completes := known.learn (Completes me barrierId domainId) known.2.1
    exact (slotContract calm).wp_chain
      (failCheckpoint_holds checkpoint barrierId false _ _ (completes_enduring me barrierId domainId)
        (fun ledger => Completes.marks barrierId barrierId domainId ledger) completes known.2.undecided)
      (fun _ _ _ failed => failed)
  next sourceStates =>
    rw [wp_get]
    split
    next => exact known
    next merged hasCommittables stabilizationReady done =>
      have same := mergeAlignedCheckpointProgress_ledger state c merged checkpoint sourceStates _ _ done
      have advanced := known.still merged enduring (.inl same)
      rw [wp_update]
      split
      next =>
        refine (slotContract calm).wp_chain
          ((slotContract calm).wp_mono (fun _ _ _ known => known)
            (fun _ _ _ failed => failed.2) (wp_still enduring True _
              (persistCheckpointMetadata_still me true true) advanced)) (fun _ last final known => ?_)
        exact completed last final known
      next => exact completed next merged advanced

theorem completeAlignedCheckpoint_holds :
    (slotContract calm).wp (respond c) me (completeAlignedCheckpoint c me checkpoint barrierId)
      (fun _ => Holds calm me (Completes me barrierId domainId))
      (fun _ => Holds calm me (Completes me barrierId domainId)) segment s := by
  have completes := completes_enduring me barrierId domainId
  have marked (next) (state : State β) (known : Holds calm me (Deciding me barrierId domainId) next state) :
      Holds calm me (Completes me barrierId domainId) next (markFailed barrierId state) :=
    known.fail barrierId _ (Completes me barrierId domainId) known.2.undecided known.2.1
  unfold completeAlignedCheckpoint
  rw [wp_handle]
  refine (slotContract calm).wp_mono (fun _ _ _ known => known)
    (fun error next state known => ?_) (commitCut_holds checkpoint barrierId domainId holds)
  split
  next =>
    rw [wp_update]
    exact (slotContract calm).wp_chain ((slotContract calm).wp_mono (fun _ _ _ known => known)
        (fun _ _ _ failed => failed.2) (wp_still completes True _
          (releaseCheckpointSources_still True barrierId checkpoint.triggerSources []) (marked next state known)))
      (fun _ _ _ known => known)
  next =>
    rw [wp_update]
    have carried := known.still (carryInflightSinkCommittables
      {state with inflightOperatorStates := state.inflightOperatorStates.erase barrierId} checkpoint)
      (deciding_enduring me barrierId domainId) (.inl (carryInflightSinkCommittables_ledger _ checkpoint))
    exact (slotContract calm).wp_chain ((slotContract calm).wp_mono (fun _ _ _ known => known) (fun _ _ _ failed => absurd failed.1 id)
        (wp_still (deciding_enduring me barrierId domainId) False _
          (releaseCheckpointSources_still False barrierId checkpoint.triggerSources []) carried))
      (fun _ last final known => marked last final known)

end

omit [DecidableEq β] in
theorem acknowledge_domainId (checkpoint : Checkpoint) (vertex : Vertex) :
    (checkpoint.acknowledge vertex).1.domainId = checkpoint.domainId := by
  unfold Checkpoint.acknowledge
  split
  · rfl
  · split <;> rfl

theorem notifyCheckpointAligned_holds (barrierId : Int) (vertex : Vertex)
    (holds : Holds calm me (fun _ => True) segment s) :
    (slotContract calm).wp (respond c) me (notifyCheckpointAligned c me barrierId vertex)
      (fun _ => Holds calm me (fun _ => True)) (fun _ => Holds calm me (fun _ => True)) segment s := by
  unfold notifyCheckpointAligned
  rw [wp_get]
  split
  next => exact holds
  split
  next => exact holds
  next checkpoint found =>
    split
    next => exact holds
    split
    next => exact holds
    dsimp only
    have own := acknowledge_barrierId checkpoint vertex
    have domain := acknowledge_domainId checkpoint vertex
    obtain ⟨⟨sound,exclusive⟩,-⟩ := holds.1
    split
    next =>
      exact holds.allow {s with inflightCheckpoints := s.inflightCheckpoints.set barrierId _}
        (fun _ => True) (allows_touch calm me s.ledger sound exclusive barrierId checkpoint _ found own domain) trivial
    next =>
      obtain ⟨named,recorded⟩ := sound.recorded barrierId checkpoint found
      have free (id : Int) (decided : id ∈ s.log.completed ∨ id ∈ s.log.failed) : id ≠ barrierId := by
        rintro rfl
        have gone := sound.settled id (decided.imp (fun completed => completed) .inl)
        have flying : s.ledger.inflightCheckpoints.get? id = some checkpoint := found
        rw [gone.2] at flying
        contradiction
      have begun : Holds calm me (Deciding me barrierId checkpoint.domainId) segment
          (noteCompleter me barrierId (beginCompletion barrierId s)) := by
        refine holds.allow (noteCompleter me barrierId (beginCompletion barrierId s)) _
          (allows_begin calm me s.ledger sound exclusive barrierId checkpoint found) ⟨⟨⟨sound.recorded_issued s.ledger barrierId _ recorded,?_⟩,?_,recorded⟩,?_,?_⟩
        · simp [State.ledger,noteCompleter,beginCompletion]
        · simp [State.ledger,noteCompleter,beginCompletion]
        · exact fun completed => free barrierId (.inl completed) rfl
        · exact fun failed => free barrierId (.inr failed) rfl
      have finished (next) (state : State β)
          (known : Holds calm me (Completes me barrierId checkpoint.domainId) next state) :
          Holds calm me (fun _ => True) next (endCompletion (checkpoint.acknowledge vertex).1 barrierId state) := by
        have retired := allows_retire calm me state.ledger known.1.1.1 known.1.1.2 barrierId checkpoint.domainId
          known.2.2.2
        have same := endCompletion_ledger state barrierId (checkpoint.acknowledge vertex).1 (own.trans named) known.2.1.2
        rw [domain] at same
        rw [← same] at retired
        exact known.allow _ _ retired trivial
      rw [wp_update,wp_update,wp_finish]
      exact (slotContract calm).wp_mono (fun _ => finished) (fun _ => finished)
        (completeAlignedCheckpoint_holds _ barrierId checkpoint.domainId begun)

variable (me) in
omit [DecidableEq β] in
theorem detachEach_allows (items : List (Int × Checkpoint)) (sound : s.ledger.Sound) (exclusive : calm → s.ledger.Exclusive)
    (known : ∀ item ∈ items, item.2.barrierId = item.1 ∧ item.1 ∉ s.completingCheckpoints ∧
      s.ledger.Recorded item.1 item.2.domainId) :
    let detached := items.foldl (fun state item => releaseDomainSlot
      {state with inflightCheckpoints := state.inflightCheckpoints.erase item.1} item.2) s
    SlotLedger.Allows calm me s.ledger detached.ledger ∧ detached.ledger.completed = s.ledger.completed ∧
      detached.ledger.completer = s.ledger.completer := by
  induction items generalizing s with
  | nil => exact ⟨allows_refl calm me s.ledger sound exclusive,rfl,rfl⟩
  | cons item rest ih =>
    obtain ⟨named,idle,recorded⟩ := known item (by simp)
    have popped := popped_ledger s item.1 item.2 named idle
    have retired := allows_retire calm me s.ledger sound exclusive item.1 item.2.domainId recorded
    obtain ⟨tracked,completed,completer,-⟩ := retire_fields s.ledger item.1 item.2.domainId
    rw [← popped] at retired tracked completed completer
    let after := releaseDomainSlot {s with inflightCheckpoints := s.inflightCheckpoints.erase item.1} item.2
    have fewer : after.completingCheckpoints = s.completingCheckpoints.erase item.1 :=
      congrArg SlotLedger.completingCheckpoints popped
    have further (other : Int × Checkpoint) (inside : other ∈ rest) : other.2.barrierId = other.1 ∧
        other.1 ∉ after.completingCheckpoints ∧ after.ledger.Recorded other.1 other.2.domainId := by
      obtain ⟨own,away,record,inside,facts⟩ := known other (by simp [inside])
      refine ⟨own,fun completing => away ?_,record,tracked ▸ inside,facts⟩
      rw [fewer] at completing
      exact mem_of_mem_erase completing
    obtain ⟨allowed,left,right⟩ := ih retired.sound retired.exclusive further
    exact ⟨retired.trans calm me _ _ _ allowed,left.trans completed,right.trans completer⟩

omit [DecidableEq β] in
private theorem detachEach_closed (items : List (Int × Checkpoint)) (operationId : Option String) (s : State β) :
    (items.foldl (fun state item => releaseDomainSlot
        {state with inflightCheckpoints := state.inflightCheckpoints.erase item.1} item.2)
      {s with rescaleOperationId := operationId}).ledger =
    {(items.foldl (fun state item => releaseDomainSlot
        {state with inflightCheckpoints := state.inflightCheckpoints.erase item.1} item.2) s).ledger with
      rescaleOperationId := operationId} := by
  induction items generalizing s with
  | nil => rfl
  | cons item rest ih =>
    rw [foldl_cons,foldl_cons,← ih]
    congr 2
    unfold releaseDomainSlot
    split
    · dsimp only
      split <;> rfl
    · rfl

variable (s) in
omit [DecidableEq β] in
theorem closed_holds (operationId : String) (holds : Holds calm me (fun _ => True) segment s) :
    Holds calm me (fun ledger => ∀ item ∈ s.inflightCheckpoints.entries, Undecided me item.1 ledger) segment
      (detachInflightCheckpoints {s with rescaleOperationId := some operationId}) := by
  obtain ⟨⟨sound,exclusive⟩,-⟩ := holds.1
  have found (item : Int × Checkpoint) (inside : item ∈ s.inflightCheckpoints.entries) :
      s.ledger.inflightCheckpoints.get? item.1 = some item.2 :=
    (Dict.get?_eq_some s.inflightCheckpoints item.1 item.2).mpr inside
  obtain ⟨detached,completed,completer⟩ := detachEach_allows me s.inflightCheckpoints.entries sound exclusive
    (fun item inside => by
      obtain ⟨named,recorded⟩ := sound.recorded item.1 item.2 (found item inside)
      exact ⟨named,(sound.flying s.ledger item.1 item.2 (found item inside)).2.2.2,recorded⟩)
  have view := detachInflightCheckpoints_view s
  have nothing : (detachInflightCheckpoints s).ledger.inflightCheckpoints = ∅ :=
    congrArg (fun view => view.flight.inflightCheckpoints) view
  have current : (detachInflightCheckpoints s).ledger.barrierIdCurrent = s.ledger.barrierIdCurrent :=
    congrArg (fun view => view.flight.barrierIdCurrent) view
  have idle (barrierId : Int) : (detachInflightCheckpoints s).ledger.inflightCheckpoints.get? barrierId = none := by
    rw [nothing]
    rfl
  have closed := allows_close calm me (detachInflightCheckpoints s).ledger detached.sound detached.exclusive
    operationId idle
  have same : (detachInflightCheckpoints {s with rescaleOperationId := some operationId}).ledger =
      {(detachInflightCheckpoints s).ledger with rescaleOperationId := some operationId} :=
    detachEach_closed s.inflightCheckpoints.entries (some operationId) s
  rw [← same] at closed
  refine holds.allow _ _ (detached.trans calm me _ _ _ closed) (fun item inside => ?_)
  obtain ⟨uncompleted,-,free,-⟩ := sound.flying s.ledger item.1 item.2 (found item inside)
  obtain ⟨-,recorded⟩ := sound.recorded item.1 item.2 (found item inside)
  rw [same]
  refine ⟨⟨?_,idle item.1⟩,?_,.inr ?_⟩
  · dsimp only
    rw [current]
    exact sound.recorded_issued s.ledger item.1 _ recorded
  · dsimp only
    rw [show (detachInflightCheckpoints s).ledger.completed = s.ledger.completed from completed]
    exact uncompleted
  · dsimp only
    rw [show (detachInflightCheckpoints s).ledger.completer = s.ledger.completer from completer]
    exact free

theorem failEach_holds (aborted : List (Int × Checkpoint)) (fail : Error → Start β → State β → Prop)
    (holds : Holds calm me (fun ledger => ∀ item ∈ aborted, Undecided me item.1 ledger) segment s) :
    (slotContract calm).wp (respond c) me (failEach aborted) (fun _ => Holds calm me (fun _ => True)) fail segment s := by
  induction aborted generalizing segment s with
  | nil => exact holds.learn (fun _ => True) trivial
  | cons item rest ih =>
    have enduring : Enduring me (fun ledger => ∀ item ∈ rest, Undecided me item.1 ledger) :=
      fun before after respects known other inside =>
        undecided_enduring me other.1 before after respects (known other inside)
    unfold failEach
    refine (slotContract calm).wp_chain
      (failCheckpoint_holds item.2 item.1 true _ fail enduring (fun ledger known => known)
        (holds.learn _ (fun other inside => holds.2 other (by simp [inside])))
        (holds.2 item (by simp))) (fun _ next state known => ?_)
    exact ih known

theorem closeAdmission_holds (operationId : String) (holds : Holds calm me (fun _ => True) segment s) :
    (slotContract calm).wp (respond c) me (closeAdmission operationId : Co β Bool)
      (fun _ => Holds calm me (fun _ => True)) (fun _ => Holds calm me (fun _ => True)) segment s := by
  unfold closeAdmission
  refine wp_await (enduring_true me) _ _ _ _ holds (fun later reply answered answer known => ?_)
  split
  next =>
    rw [wp_get]
    split
    next => exact known
    next =>
      rw [wp_update]
      unfold abortInflightCheckpointsForRescale
      refine (slotContract calm).wp_chain ?_ (fun _ next state (known : Holds calm me (fun _ => True) next state) => ?_)
      · rw [wp_get,wp_update]
        exact failEach_holds _ _ (closed_holds answered operationId known)
      · refine wp_await (enduring_true me) _ _ _ _ known (fun _ reply final _ known => ?_)
        split
        next => exact known
        next =>
          exact known.allow {final with rescaleOperationId := none} (fun _ => True)
            (allows_reopen calm me final.ledger known.1.1.1 known.1.1.2) trivial
  next => exact known

theorem beginOperatorRescale_holds (operationId : String) (holds : Holds calm me (fun _ => True) segment s) :
    (slotContract calm).wp (respond c) me (beginOperatorRescale me operationId : Co β Bool)
      (fun _ => Holds calm me (fun _ => True)) (fun _ => Holds calm me (fun _ => True)) segment s := by
  unfold beginOperatorRescale
  split
  next => exact holds
  next =>
    refine wp_await (enduring_true me) _ _ _ _ holds (fun later reply answered _ known => ?_)
    split
    next =>
      have released (next) (state : State β) (known : Holds calm me (fun _ => True) next state) :
          Holds calm me (fun _ => True) next (unlockRescaleGate state) :=
        known.still _ (enduring_true me) (.inl rfl)
      rw [wp_update,wp_finish]
      exact (slotContract calm).wp_mono (fun _ => released) (fun _ => released)
        (closeAdmission_holds operationId (known.still _ (enduring_true me) (.inl rfl)))
    next => exact known

omit [DecidableEq β] in
theorem expireCheckpoint_allows (barrierId : Int) (checkpoint : Checkpoint)
    (found : s.inflightCheckpoints.get? barrierId = some checkpoint) (sound : s.ledger.Sound)
    (exclusive : calm → s.ledger.Exclusive) :
    SlotLedger.Allows calm me s.ledger (expireCheckpoint barrierId checkpoint s).ledger := by
  obtain ⟨named,recorded⟩ := sound.recorded barrierId checkpoint found
  obtain ⟨uncompleted,-,free,idle⟩ := sound.flying s.ledger barrierId checkpoint found
  obtain ⟨-,completed,completer,current⟩ := retire_fields s.ledger barrierId checkpoint.domainId
  have retired := allows_retire calm me s.ledger sound exclusive barrierId checkpoint.domainId recorded
  have failed := allows_fail calm me _ retired.sound retired.exclusive barrierId
    ⟨by rw [current]; exact sound.recorded_issued s.ledger barrierId _ recorded,by simp [SlotLedger.retire]⟩
    (by rw [completed]; exact uncompleted) (fun other _ => by rw [completer,free]; simp)
  have popped := popped_ledger s barrierId checkpoint named idle
  have carried := carryInflightSinkCommittables_ledger {releaseDomainSlot
      {s with inflightCheckpoints := s.inflightCheckpoints.erase barrierId} checkpoint with
    inflightOperatorStates := (releaseDomainSlot
      {s with inflightCheckpoints := s.inflightCheckpoints.erase barrierId} checkpoint).inflightOperatorStates.erase
        barrierId} checkpoint
  have same : (expireCheckpoint barrierId checkpoint s).ledger = {s.ledger.retire barrierId checkpoint.domainId with
      failed := (s.ledger.retire barrierId checkpoint.domainId).failed ++ [barrierId]} :=
    congrArg (fun ledger : SlotLedger => {ledger with failed := ledger.failed ++ [barrierId]}) (carried.trans popped)
  rw [same]
  exact retired.trans calm me _ _ _ failed

theorem expireEach_holds (ids : List Int) (holds : Holds calm me (fun _ => True) segment s) :
    (slotContract calm).wp (respond c) me (expireEach ids : Co β Unit) (fun _ => Holds calm me (fun _ => True))
      (fun _ => Holds calm me (fun _ => True)) segment s := by
  induction ids generalizing segment s with
  | nil => exact holds
  | cons barrierId rest ih =>
    unfold expireEach
    rw [wp_get]
    split
    next => exact holds
    next checkpoint found =>
      rw [wp_update]
      have expired := holds.allow _ (fun _ => True)
        (expireCheckpoint_allows barrierId checkpoint found holds.1.1.1 holds.1.1.2) trivial
      refine (slotContract calm).wp_chain
        ((slotContract calm).wp_mono (fun _ _ _ known => known)
          (fun _ _ _ failed => failed.2) (wp_still (enduring_true me) True _
            (releaseCheckpointSources_still True barrierId checkpoint.triggerSources rest) expired))
        (fun _ next state known => ?_)
      exact ih known

theorem quiet_holds {α : Type} {body : Co β α} (still : body.Accesses Still True)
    (holds : Holds calm me (fun _ => True) segment s) :
    (slotContract calm).wp (respond c) me body (fun _ => Holds calm me (fun _ => True))
      (fun _ => Holds calm me (fun _ => True)) segment s :=
  (slotContract calm).wp_mono (fun _ _ _ known => known) (fun _ _ _ failed => failed.2)
    (wp_still (enduring_true me) True body still holds)

theorem run_holds (holds : Holds calm me (fun _ => True) segment s) :
    (slotContract calm).wp (respond c) me (run c me) (fun _ => Holds calm me (fun _ => True))
      (fun _ => Holds calm me (fun _ => True)) segment s := by
  unfold run
  refine wp_await (enduring_true me) _ _ _ _ holds (fun _ _ answered _ known => ?_)
  rw [wp_get]
  refine (slotContract calm).wp_chain (quiet_holds (retryPendingCheckpointReleases_still _) known) (fun _ next state known => ?_)
  refine (slotContract calm).wp_chain ?_ (fun _ next state (known : Holds calm me (fun _ => True) next state) => ?_)
  · unfold expireStaleCheckpoints
    rw [wp_get]
    split
    next => exact known
    next => exact expireEach_holds _ known
  refine (slotContract calm).wp_chain (quiet_holds (commitDurableSinkCommittables_still false) known) (fun resolved next state known => ?_)
  split
  next =>
    refine (slotContract calm).wp_chain
      (quiet_holds notifyDurableSourceCheckpoints_still known) (fun _ next state known => ?_)
    rw [wp_update]
    exact quiet_holds (persistIfDue_still me c) (known.still _ (enduring_true me) (clearRescaleRecoveryFenceIfDurable_ledger state))
  next => exact quiet_holds (persistIfDue_still me c) known

theorem tick_holds (holds : Holds calm me (fun _ => True) segment s) :
    (slotContract calm).wp (respond c) me (tick c me) (fun _ => Holds calm me (fun _ => True))
      (fun _ => Holds calm me (fun _ => True)) segment s := by
  have worked (worker : Worker) (next) (state : State β) (known : Holds calm me (fun _ => True) next state) :
      Holds calm me (fun _ => True) next {state with worker} :=
    known.still _ (enduring_true me) (.inl rfl)
  unfold tick
  rw [wp_get]
  split
  next => exact holds
  next =>
    rw [wp_update,wp_handle]
    exact (slotContract calm).wp_chain ((slotContract calm).wp_mono (fun _ _ _ known => known)
        (fun _ next state failed => worked .dead next state failed)
        (run_holds (worked (.running me) segment s holds)))
      (fun _ next state known => worked .idle next state known)

section synchronous
variable (sound : s.ledger.Sound) (exclusive : calm → s.ledger.Exclusive)

variable (s) in
omit [DecidableEq β] in
include sound exclusive in
theorem joinStabilizationEpoch_allows (vertex : Vertex) (opened : s.rescaleOperationId = none)
    (fenced : s.rescaleRecoveryFence ≠ none) :
    SlotLedger.Allows calm me s.ledger (joinStabilizationEpoch vertex s).ledger := by
  have same := allows_refl calm me s.ledger sound exclusive
  unfold joinStabilizationEpoch
  split
  next => exact same
  next =>
    split
    next => exact same
    next => exact same
    next graph _ _ =>
      extract_lets pendingSinks barrierId sources committers domains domainId tracked
      split
      next => exact same
      next =>
        let checkpoint := newCheckpoint barrierId committers.length sources true domainId committers
        have tracks := allows_track calm me s.ledger sound exclusive checkpoint
          {checkpoint with triggeredAtMs := some s.nowMs,status := .inProgress} rfl opened rfl rfl
          (.inl ⟨rfl,fenced⟩)
        exact tracks

omit [DecidableEq β] in
include sound exclusive in
theorem registerCheckpoint_allows (vertex : Vertex) (force : Bool) :
    SlotLedger.Allows calm me s.ledger (registerCheckpoint c vertex force s).ledger := by
  have same := allows_refl calm me s.ledger sound exclusive
  unfold registerCheckpoint
  split
  next => exact same
  next opened =>
    have opened : s.rescaleOperationId = none := by simpa using opened
    split
    next fenced =>
      have fenced : s.rescaleRecoveryFence ≠ none := isSome_iff_ne_none.mp fenced
      unfold registerRescaleStabilizationCheckpoint
      split
      next => exact same
      split
      next => exact same
      dsimp only
      split
      next => exact same
      split
      next => exact joinStabilizationEpoch_allows {s with
          coordinatedCheckpointBarrierId := none
          coordinatedCheckpointRegisteredSources := []} sound exclusive vertex opened fenced
      next => exact joinStabilizationEpoch_allows s sound exclusive vertex opened fenced
    next unfenced =>
      have unfenced : s.rescaleRecoveryFence = none := by simpa using unfenced
      split
      next => exact same
      next domainId triggerSources committers required _ =>
        split
        next => exact same
        next free =>
          split
          next => exact same
          split
          next => exact same
          next =>
            let checkpoint := newCheckpoint (s.barrierIdCurrent + 1) required triggerSources false (some domainId) committers
            have absent : s.activeCheckpointByDomain.get? domainId = none := by
              rw [contains_eq_isSome] at free
              simpa using free
            exact allows_track calm me s.ledger sound exclusive checkpoint
              {checkpoint with triggeredAtMs := some s.nowMs,status := .inProgress} rfl opened rfl rfl
              (.inr ⟨rfl,unfenced,domainId,rfl,absent⟩)

omit [DecidableEq β] in
include sound exclusive in
theorem sourceCheckpointStarted_allows (barrierId : Int) (vertex : Vertex) (isEof : Bool) :
    SlotLedger.Allows calm me s.ledger (sourceCheckpointStarted barrierId vertex isEof s).ledger := by
  have same := allows_refl calm me s.ledger sound exclusive
  unfold sourceCheckpointStarted
  split
  next => exact same
  next checkpoint found =>
    split
    next => exact same
    next =>
      have kept : (checkpoint.markSourceStarted vertex isEof).1.barrierId = checkpoint.barrierId ∧
          (checkpoint.markSourceStarted vertex isEof).1.domainId = checkpoint.domainId := by
        unfold Checkpoint.markSourceStarted
        split
        · exact ⟨rfl,rfl⟩
        · exact ⟨rfl,rfl⟩
      exact allows_touch calm me s.ledger sound exclusive barrierId checkpoint _ found kept.1 kept.2

omit [DecidableEq β] in
include sound exclusive in
theorem finishOperatorRescale_allows (operationId : String) (committed : Bool) (target : Option Nat)
    (quiesced : calm → committed = true → s.rescaleOperationId = some operationId → s.completingCheckpoints = []) :
    SlotLedger.Allows calm me s.ledger (finishOperatorRescale operationId committed target s).ledger := by
  unfold finishOperatorRescale
  split
  next => exact allows_refl calm me s.ledger sound exclusive
  next own =>
    have own : s.rescaleOperationId = some operationId := by simpa using own
    split
    next => exact allows_reopen calm me s.ledger sound exclusive
    next done =>
      have closed : s.ledger.rescaleOperationId ≠ none := by
        dsimp only [State.ledger]
        rw [own]
        simp
      exact allows_commit calm me s.ledger sound exclusive operationId closed
        (fun quiet => quiesced quiet (by simpa using done) own)

omit [DecidableEq β] in
include sound exclusive in
theorem reconfigureExecutionGraph_allows (graph : ExecutionGraph) (after : State β)
    (done : reconfigureExecutionGraph c graph s = .ok after) : SlotLedger.Allows calm me s.ledger after.ledger := by
  unfold reconfigureExecutionGraph at done
  split at done
  next => contradiction
  split at done
  next => contradiction
  split at done
  next => contradiction
  next idle =>
    obtain ⟨empty,quiesced⟩ := not_not.mp idle
    cases done
    exact allows_reconfigure calm me s.ledger sound exclusive
      ((Dict.isEmpty_iff s.inflightCheckpoints).mp empty) quiesced

end synchronous

theorem call_holds (entry : Call β) (sound : s.ledger.Sound) (exclusive : calm → s.ledger.Exclusive)
    (quiesced : ∀ operationId target, entry = .finishOperatorRescale operationId true target → calm →
      s.rescaleOperationId = some operationId → s.completingCheckpoints = []) :
    (slotContract calm).Keeps (respond c) me (call c me entry) ⟨.call entry,s⟩ s := by
  have start : Holds calm me (fun _ => True) ⟨.call entry,s⟩ s :=
    ⟨⟨⟨sound,exclusive⟩,fun other _ => SlotLedger.Respects.refl other s.ledger⟩,trivial⟩
  have finished (body : Co β Unit) (kept : (slotContract calm).wp (respond c) me body
      (fun _ => Holds calm me (fun _ => True)) (fun _ => Holds calm me (fun _ => True)) ⟨.call entry,s⟩ s) :
      (slotContract calm).Keeps (respond c) me body ⟨.call entry,s⟩ s :=
    (slotContract calm).wp_mono (fun _ _ _ known => known.1)
      (fun _ _ _ failed => failed.1) kept
  have ignored (body : Co β Bool) (kept : (slotContract calm).wp (respond c) me body
      (fun _ => Holds calm me (fun _ => True)) (fun _ => Holds calm me (fun _ => True)) ⟨.call entry,s⟩ s) :
      (slotContract calm).Keeps (respond c) me (do let _ ← body) ⟨.call entry,s⟩ s :=
    finished _ ((slotContract calm).wp_chain kept (fun _ _ _ known => known))
  have allowed (after : State β) (allows : SlotLedger.Allows calm me s.ledger after.ledger) :
      Holds calm me (fun _ => True) ⟨.call entry,s⟩ after :=
    start.allow after _ allows trivial
  have attempted (method : State β → Except Error (State β))
      (allows : ∀ after, method s = .ok after → SlotLedger.Allows calm me s.ledger after.ledger) :
      (slotContract calm).Keeps (respond c) me (attempt method) ⟨.call entry,s⟩ s := by
    refine finished _ ?_
    unfold attempt
    rw [wp_get]
    split
    next => exact start
    next after done => exact allowed after (allows after done)
  have same (after : State β) (equal : after.ledger = s.ledger) : SlotLedger.Allows calm me s.ledger after.ledger := by
    rw [equal]
    exact allows_refl calm me s.ledger sound exclusive
  cases entry with
  | registerCheckpoint vertex force =>
    exact finished _ (allowed _ (registerCheckpoint_allows sound exclusive vertex force))
  | sourceCheckpointStarted barrierId vertex isEof =>
    exact finished _ (allowed _ (sourceCheckpointStarted_allows sound exclusive barrierId vertex isEof))
  | registerOperatorState barrierId vertex reference =>
    refine attempted _ (fun after done => same after ?_)
    unfold registerOperatorState at done
    repeat' split at done
    all_goals cases done
    all_goals rfl
  | registerSinkCommittable barrierId vertex committable =>
    refine attempted _ (fun after done => same after ?_)
    obtain ⟨result,registered,rfl⟩ := Fallible.map_ok done
    unfold registerSinkCommittable at registered
    repeat' split at registered
    all_goals cases registered
    all_goals rfl
  | notifyCheckpointAligned barrierId vertex =>
    exact ignored _ (notifyCheckpointAligned_holds barrierId vertex start)
  | beginOperatorRescale operationId => exact ignored _ (beginOperatorRescale_holds operationId start)
  | finishOperatorRescale operationId committed target =>
    refine finished _ (allowed _ (finishOperatorRescale_allows sound exclusive operationId committed target ?_))
    intro calmly done own
    subst done
    exact quiesced operationId target rfl calmly own
  | stageOperatorRescaleState operationId jobVertexId targetParallelism snapshots =>
    refine attempted _ (fun after done => same after ?_)
    unfold stageOperatorRescaleState at done
    repeat' split at done
    all_goals cases done
    rfl
  | reconfigureExecutionGraph graph =>
    exact attempted _ (fun after done => reconfigureExecutionGraph_allows sound exclusive graph after done)
  | persistNow notifySources requireResolvedSinks =>
    exact finished _ (quiet_holds (persistNow_still me notifySources requireResolvedSinks) start)
  | tick => exact finished _ (tick_holds start)
  | finishOpen => exact ignored _ (quiet_holds (commitDurableSinkCommittables_still true) start)
  | stop => exact finished _ (allowed {s with opened := false,stopping := true} (same _ rfl))

end methods

/-- A rescale is committed once its `begin_operator_rescale` has drained the
completion phase, as the job master does. -/
def commitsQuiesced (config : Configuration β) : Label β → Bool
  | .spawn (.finishOperatorRescale operationId true _) =>
    config.shared.rescaleOperationId ≠ some operationId || config.shared.completingCheckpoints.isEmpty
  | _ => true

def Quiesced (config : Configuration β) (label : Label β) : Prop := commitsQuiesced config label = true

instance (config : Configuration β) (label : Label β) : Decidable (Quiesced config label) :=
  inferInstanceAs (Decidable (commitsQuiesced config label = true))

theorem Quiesced.drained (config : Configuration β) (operationId : String) (target : Option Nat)
    (quiesced : Quiesced config (.spawn (.finishOperatorRescale operationId true target)))
    (own : config.shared.rescaleOperationId = some operationId) : config.shared.completingCheckpoints = [] := by
  simpa [Quiesced,commitsQuiesced,own] using quiesced

theorem openCoordinator_slots (c : Config β) (graph : ExecutionGraph) (s : State β) :
    (openCoordinator c graph s).ledger.Sound ∧ (openCoordinator c graph s).ledger.Exclusive := by
  refine ⟨⟨?_,?_,nodup_nil,?_,nodup_nil,?_,?_,?_,?_⟩,?_,?_⟩
  · exact fun barrierId checkpoint found => by contradiction
  · exact fun record inside => by contradiction
  · exact fun barrierId inside => by contradiction
  · exact fun domain barrierId found => by contradiction
  · rintro barrierId (completed | failed | owned)
    · contradiction
    · contradiction
    · exact absurd rfl owned
  · exact fun barrierId inside => by contradiction
  · exact fun closed => absurd rfl closed
  · exact fun _ record inside => by contradiction
  · exact fun record inside => by contradiction

theorem slotContract_sound [DecidableEq β] (c : Config β) (calm : Prop) (condition : Configuration β → Label β → Prop)
    (quiesced : ∀ config label, condition config label → calm → Quiesced config label) :
    (slotContract calm).Sound (system c) condition where
  refl me _ s := SlotLedger.Respects.refl me s.ledger
  trans me _ first second third left right := left.trans me _ _ _ right
  calls me entry config met kept := by
    refine call_holds entry kept.1 kept.2 ?_
    rintro operationId target rfl calmly own
    exact (quiesced config _ met calmly).drained config operationId target own
  interference _ _ _ _ _ _ after _ guaranteed other _ _ different _ := guaranteed other different
  environment config action after _ kept acted := by
    have same := act_ledger config.shared action after acted
    refine ⟨?_,fun me _ => ?_⟩
    · dsimp only [slotContract] at kept ⊢
      rw [same]
      exact kept
    · dsimp only [slotContract]
      rw [same]
      exact SlotLedger.Respects.refl me config.shared.ledger
  restart config graph after _ _ restarted := by
    cases restarted
    obtain ⟨sound,exclusive⟩ := openCoordinator_slots c graph config.shared
    exact ⟨sound,fun _ => exclusive⟩

def Live (s : State β) (barrierId : Int) : Prop :=
  s.inflightCheckpoints.contains barrierId = true ∨ barrierId ∈ s.completingCheckpoints

instance (s : State β) (barrierId : Int) : Decidable (Live s barrierId) :=
  inferInstanceAs (Decidable (_ ∨ _))

theorem live_iff (s : State β) (barrierId : Int) : s.ledger.Live barrierId ↔ Live s barrierId := by
  rw [SlotLedger.Live,Live,contains_eq_isSome,isSome_iff_ne_none]
  rfl

/-- Every slot names a live checkpoint that was tracked for its domain, every live
checkpoint was tracked, no id is both in flight and completing, and no checkpoint both
completed and failed. -/
structure SlotsHeld (s : State β) : Prop where
  named : ∀ domain barrierId, s.activeCheckpointByDomain.get? domain = some barrierId →
    Live s barrierId ∧ ∃ record ∈ s.log.tracked, record.barrierId = barrierId ∧ record.domainId = some domain
  tracked : ∀ barrierId, Live s barrierId → ∃ record ∈ s.log.tracked, record.barrierId = barrierId
  apart : ∀ barrierId ∈ s.completingCheckpoints, s.inflightCheckpoints.contains barrierId = false
  outcome : ∀ barrierId ∈ s.log.completed, barrierId ∉ s.log.failed

def OnePerDomain (s : State β) : Prop :=
  ∀ first ∈ s.log.tracked, ∀ second ∈ s.log.tracked, first.coordinated = false → second.coordinated = false →
    Live s first.barrierId → Live s second.barrierId → first.domainId = second.domainId → first = second

instance (s : State β) : Decidable (OnePerDomain s) :=
  inferInstanceAs (Decidable (∀ first ∈ s.log.tracked, ∀ second ∈ s.log.tracked, _))

theorem SlotLedger.Sound.slotsHeld (s : State β) (sound : s.ledger.Sound) : SlotsHeld s := by
  refine ⟨fun domain barrierId found => ?_,?_,fun barrierId completing => ?_,sound.apart⟩
  · obtain ⟨live,recorded⟩ := sound.named domain barrierId found
    exact ⟨(live_iff s barrierId).mp live,recorded⟩
  · rintro barrierId (inflight | completing)
    · obtain ⟨checkpoint,found⟩ := (inFlight_iff barrierId s).mp inflight
      obtain ⟨-,record,inside,own,-⟩ := sound.recorded barrierId checkpoint found
      exact ⟨record,inside,own⟩
    · obtain ⟨-,-,record,inside,own,-⟩ := sound.completing barrierId completing
      exact ⟨record,inside,own⟩
  · have absent : s.inflightCheckpoints.get? barrierId = none := (sound.completing barrierId completing).1
    rw [contains_eq_isSome,absent]
    rfl

theorem SlotLedger.Exclusive.onePerDomain (s : State β) (sound : s.ledger.Sound) (exclusive : s.ledger.Exclusive) :
    OnePerDomain s := by
  intro first inside second inside' ordinary ordinary' live live' same
  obtain ⟨domain,own,held⟩ := exclusive.slotted first inside ordinary ((live_iff s _).mpr live)
  obtain ⟨domain',own',held'⟩ := exclusive.slotted second inside' ordinary' ((live_iff s _).mpr live')
  obtain rfl : domain = domain' := some.inj (own.symm.trans (same.trans own'))
  exact inj_on_of_nodup_map sound.distinct inside inside' (some.inj (held.symm.trans held'))

/-- The slots of every reachable coordinator are held by live checkpoints, and when
rescales are committed after their drain, each domain has at most one live ordinary
checkpoint. -/
theorem domain_slots_released [DecidableEq β] (c : Config β) (graph : ExecutionGraph) (labels : List (Label β))
    (final : Configuration β) (run : Runs.exec (system c).step (initial c graph) labels = some final) :
    SlotsHeld final.shared ∧
      (Runs.Along (system c).step Quiesced (initial c graph) labels → OnePerDomain final.shared) := by
  have opened (calm : Prop) : (slotContract calm).Secure (system c) (initial c graph) := by
    obtain ⟨sound,exclusive⟩ := openCoordinator_slots c graph (unopened : State β)
    exact ⟨⟨sound,fun _ => exclusive⟩,fun index pause found => by simp [initial] at found⟩
  constructor
  · have sound := slotContract_sound c False (fun _ _ => True) (fun _ _ _ impossible => impossible.elim)
    have secure := exec_secure _ (system c) _ sound labels _ final (opened False)
      (Runs.Along.of_forall _ _ labels (fun _ _ _ => trivial) _) run
    exact secure.invariant.1.slotsHeld
  · intro meets
    have sound := slotContract_sound c True Quiesced (fun _ _ met _ => met)
    have secure := exec_secure _ (system c) _ sound labels _ final (opened True) meets run
    exact (secure.invariant.2 trivial).onePerDomain final.shared secure.invariant.1

/-- A rescale commits after its drain, and the stabilization epoch of the new topology
completes. -/
def drainedRun : List (Label Nat) :=
  [.spawn (.registerCheckpoint ⟨1,0⟩ false),.spawn (.beginOperatorRescale "op"),.resume 1 .done,.resume 1 .done,
    .resume 1 (.flag true),.resume 1 .done,.resume 1 .done,.spawn (.finishOperatorRescale "op" true (some 1)),
    .spawn (.registerCheckpoint ⟨1,0⟩ false),.spawn (.registerCheckpoint ⟨3,0⟩ false)]

theorem domain_slots_released_drainedRun : ∃ final,
    Runs.exec (system pipelineConfig).step (initial pipelineConfig pipelineGraph) drainedRun = some final ∧
      final.shared.activeCheckpointByDomain.get? "a" = some 2 ∧ SlotsHeld final.shared ∧ OnePerDomain final.shared := by
  have enabled : (Runs.exec (system pipelineConfig).step (initial pipelineConfig pipelineGraph) drainedRun).map
      (fun config => config.shared.activeCheckpointByDomain.get? "a") = some (some 2) := by decide +kernel
  obtain ⟨final,run,held⟩ := map_eq_some_iff.mp enabled
  obtain ⟨slots,exclusive⟩ := domain_slots_released pipelineConfig pipelineGraph drainedRun final run
  exact ⟨final,run,held,slots,exclusive (by decide +kernel)⟩

/-- The rescale is committed while its `begin_operator_rescale` still waits for
checkpoint 1 of domain "a" to complete: the stabilization epoch 2 takes the slot over
and frees it, and domain "a" starts checkpoint 3 beside checkpoint 1. -/
theorem early_commit_doubles_domain :
    (Runs.exec (system pipelineConfig).step (initial pipelineConfig pipelineGraph)
      [.spawn (.registerCheckpoint ⟨1,0⟩ false),.spawn (.notifyCheckpointAligned 1 ⟨2,0⟩),
        .spawn (.beginOperatorRescale "op"),.resume 2 .done,.resume 2 .done,
        .spawn (.finishOperatorRescale "op" true (some 1)),.spawn (.registerCheckpoint ⟨1,0⟩ false),
        .spawn (.notifyCheckpointAligned 2 ⟨2,0⟩),.resume 5 (.states (Dict.ofList [(⟨1,0⟩,7)])),.resume 5 .done,
        .resume 5 .done,.resume 5 .done,.resume 5 .done,.resume 5 (.flag true),.resume 5 .done,
        .spawn (.registerCheckpoint ⟨1,0⟩ false)]).any
      (fun config => ¬ OnePerDomain config.shared && config.shared.completingCheckpoints = [1] &&
        config.shared.inflightCheckpoints.keys = [3]) = true := by
  decide +kernel

/-- What may be said of the checkpoints since the coordinator was last built: ids are issued
once and in order, one in flight is undecided, and a rescale sees none in flight. -/
structure Outcomes (s : State β) : Prop where
  issued : ∀ record ∈ s.log.tracked, record.barrierId ≤ s.barrierIdCurrent
  distinct : (s.log.tracked.map Checkpoint.barrierId).Nodup
  undecided : ∀ barrierId checkpoint, s.inflightCheckpoints.get? barrierId = some checkpoint →
    checkpoint.barrierId = barrierId ∧ barrierId ∉ s.log.completed ∧ barrierId ∉ s.log.failed ∧
      barrierId ∉ s.completingCheckpoints
  once : s.completingCheckpoints.Nodup
  paused : s.rescaleOperationId ≠ none → ∀ barrierId, s.inflightCheckpoints.get? barrierId = none

theorem checkpoint_outcomes [DecidableEq β] (c : Config β) (graph : ExecutionGraph) (labels : List (Label β))
    (final : Configuration β) (run : Runs.exec (system c).step (initial c graph) labels = some final) :
    Outcomes final.shared := by
  have opened := openCoordinator_slots c graph (unopened : State β)
  have start : (slotContract False).Secure (system c) (initial c graph) :=
    ⟨⟨opened.1,False.elim⟩,fun index pause found => by simp [initial] at found⟩
  have secure := exec_secure _ (system c) _ (slotContract_sound c False (fun _ _ => True)
    (fun _ _ _ => False.elim)) labels _ final start (Runs.Along.of_forall _ _ labels (fun _ _ _ => trivial) _) run
  have sound : final.shared.ledger.Sound := secure.invariant.1
  refine ⟨sound.issued,sound.distinct,fun barrierId checkpoint found => ?_,sound.once,sound.paused⟩
  obtain ⟨completed,failed,-,completing⟩ := sound.flying final.shared.ledger barrierId checkpoint found
  exact ⟨(sound.recorded barrierId checkpoint found).1,completed,failed,completing⟩

theorem checkpoint_outcomes_drainedRun : ∃ final,
    Runs.exec (system pipelineConfig).step (initial pipelineConfig pipelineGraph) drainedRun = some final ∧
      final.shared.inflightCheckpoints.keys = [2] ∧ Outcomes final.shared := by
  have enabled : (Runs.exec (system pipelineConfig).step (initial pipelineConfig pipelineGraph) drainedRun).map
      (fun config => config.shared.inflightCheckpoints.keys) = some [2] := by decide +kernel
  obtain ⟨final,run,held⟩ := map_eq_some_iff.mp enabled
  exact ⟨final,run,held,checkpoint_outcomes pipelineConfig pipelineGraph drainedRun final run⟩

end Klein.Coordinator
