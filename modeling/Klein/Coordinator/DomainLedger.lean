import Klein.Coordinator.TimeoutSweep

/-! The domain slots of the coordinator. The ledger of a state is what decides
whether a domain may start a checkpoint and what became of the checkpoints it
tracked; this file has the invariant of the ledger, what a waiting thread counts on,
and one rule for every update. -/
namespace Klein.Coordinator
open List Option

variable {β : Type}

structure SlotLedger where
  inflightCheckpoints : Dict Int Checkpoint
  completingCheckpoints : List Int
  activeCheckpointByDomain : Dict String Int
  barrierIdCurrent : Int
  rescaleOperationId : Option String
  rescaleRecoveryFence : Option String
  tracked : List Checkpoint
  completed : List Int
  failed : List Int
  completer : Dict Int Nat

def State.ledger (s : State β) : SlotLedger :=
  ⟨s.inflightCheckpoints,s.completingCheckpoints,s.activeCheckpointByDomain,s.barrierIdCurrent,s.rescaleOperationId,
    s.rescaleRecoveryFence,s.log.tracked,s.log.completed,s.log.failed,s.log.completer⟩

namespace SlotLedger

def Live (ledger : SlotLedger) (barrierId : Int) : Prop :=
  ledger.inflightCheckpoints.get? barrierId ≠ none ∨ barrierId ∈ ledger.completingCheckpoints

def Gone (ledger : SlotLedger) (barrierId : Int) : Prop :=
  barrierId ≤ ledger.barrierIdCurrent ∧ ledger.inflightCheckpoints.get? barrierId = none

def Recorded (ledger : SlotLedger) (barrierId : Int) (domainId : Option String) : Prop :=
  ∃ record ∈ ledger.tracked, record.barrierId = barrierId ∧ record.domainId = domainId

structure Sound (ledger : SlotLedger) : Prop where
  recorded : ∀ barrierId checkpoint, ledger.inflightCheckpoints.get? barrierId = some checkpoint →
    checkpoint.barrierId = barrierId ∧ ledger.Recorded barrierId checkpoint.domainId
  issued : ∀ record ∈ ledger.tracked, record.barrierId ≤ ledger.barrierIdCurrent
  distinct : (ledger.tracked.map Checkpoint.barrierId).Nodup
  completing : ∀ barrierId ∈ ledger.completingCheckpoints,
    ledger.inflightCheckpoints.get? barrierId = none ∧ ∃ domainId, ledger.Recorded barrierId domainId
  once : ledger.completingCheckpoints.Nodup
  named : ∀ domain barrierId, ledger.activeCheckpointByDomain.get? domain = some barrierId →
    ledger.Live barrierId ∧ ledger.Recorded barrierId (some domain)
  settled : ∀ barrierId, barrierId ∈ ledger.completed ∨ barrierId ∈ ledger.failed ∨ ledger.completer.get? barrierId ≠ none →
    ledger.Gone barrierId
  apart : ∀ barrierId ∈ ledger.completed, barrierId ∉ ledger.failed
  paused : ledger.rescaleOperationId ≠ none → ∀ barrierId, ledger.inflightCheckpoints.get? barrierId = none

structure Exclusive (ledger : SlotLedger) : Prop where
  fenced : ledger.rescaleRecoveryFence ≠ none → ∀ record ∈ ledger.tracked, record.coordinated = false →
    ¬ ledger.Live record.barrierId
  slotted : ∀ record ∈ ledger.tracked, record.coordinated = false → ledger.Live record.barrierId →
    ∃ domain, record.domainId = some domain ∧ ledger.activeCheckpointByDomain.get? domain = some record.barrierId

structure Respects (me : Nat) (before after : SlotLedger) : Prop where
  tracked : before.tracked ⊆ after.tracked
  gone : ∀ barrierId, before.Gone barrierId → after.Gone barrierId
  completer : ∀ barrierId, before.Gone barrierId → after.completer.get? barrierId = before.completer.get? barrierId
  completed : ∀ barrierId, before.Gone barrierId →
    before.completer.get? barrierId = some me ∨ before.completer.get? barrierId = none →
      barrierId ∈ after.completed → barrierId ∈ before.completed
  failed : ∀ barrierId, before.Gone barrierId → before.completer.get? barrierId = some me →
    barrierId ∈ after.failed → barrierId ∈ before.failed

theorem Respects.refl (me : Nat) (ledger : SlotLedger) : ledger.Respects me ledger :=
  ⟨fun _ inside => inside,fun _ gone => gone,fun _ _ => rfl,fun _ _ _ inside => inside,fun _ _ _ inside => inside⟩

theorem Respects.trans (me : Nat) (first second third : SlotLedger) (left : first.Respects me second)
    (right : second.Respects me third) : first.Respects me third where
  tracked _ inside := right.tracked (left.tracked inside)
  gone barrierId gone := right.gone barrierId (left.gone barrierId gone)
  completer barrierId gone := (right.completer barrierId (left.gone barrierId gone)).trans (left.completer barrierId gone)
  completed barrierId gone owned inside := by
    have same := left.completer barrierId gone
    apply left.completed barrierId gone owned
    exact right.completed barrierId (left.gone barrierId gone) (by rw [same]; exact owned) inside
  failed barrierId gone owned inside := by
    have same := left.completer barrierId gone
    apply left.failed barrierId gone owned
    exact right.failed barrierId (left.gone barrierId gone) (by rw [same]; exact owned) inside

theorem Respects.recorded (me : Nat) (before after : SlotLedger) (respects : before.Respects me after) (barrierId : Int)
    (domainId : Option String) (recorded : before.Recorded barrierId domainId) : after.Recorded barrierId domainId := by
  obtain ⟨record,inside,own⟩ := recorded
  exact ⟨record,respects.tracked inside,own⟩

theorem Respects.of_flight (me : Nat) (before after : SlotLedger) (tracked : before.tracked ⊆ after.tracked)
    (gone : ∀ barrierId, before.Gone barrierId → after.Gone barrierId) (completer : after.completer = before.completer)
    (completed : after.completed = before.completed) (failed : after.failed = before.failed) :
    before.Respects me after :=
  ⟨tracked,gone,fun _ _ => by rw [completer],fun _ _ _ inside => completed ▸ inside,fun _ _ _ inside => failed ▸ inside⟩

structure Allows (calm : Prop) (me : Nat) (before after : SlotLedger) : Prop where
  sound : after.Sound
  exclusive : calm → after.Exclusive
  respects : ∀ other, other ≠ me → before.Respects other after

section updates
variable (calm : Prop) (me : Nat) (ledger : SlotLedger) (sound : ledger.Sound) (exclusive : calm → ledger.Exclusive)

include sound exclusive

theorem allows_refl : Allows calm me ledger ledger := ⟨sound,exclusive,fun other _ => Respects.refl other ledger⟩

theorem allows_clear : Allows calm me ledger {ledger with rescaleRecoveryFence := none} := by
  refine ⟨{sound with},fun quiet => ⟨fun impossible => absurd rfl impossible,(exclusive quiet).slotted⟩,fun other _ => ?_⟩
  exact .of_flight other _ _ (fun _ inside => inside) (fun _ gone => gone) rfl rfl rfl

theorem allows_reopen : Allows calm me ledger {ledger with rescaleOperationId := none} := by
  refine ⟨{sound with paused := ?_},fun quiet => ⟨(exclusive quiet).fenced,(exclusive quiet).slotted⟩,fun other _ => ?_⟩
  · exact fun impossible => absurd rfl impossible
  · exact .of_flight other _ _ (fun _ inside => inside) (fun _ gone => gone) rfl rfl rfl

theorem allows_close (operationId : String) (idle : ∀ barrierId, ledger.inflightCheckpoints.get? barrierId = none) :
    Allows calm me ledger {ledger with rescaleOperationId := some operationId} := by
  refine ⟨{sound with paused := fun _ => idle},fun quiet => ⟨(exclusive quiet).fenced,(exclusive quiet).slotted⟩,fun other _ => ?_⟩
  exact .of_flight other _ _ (fun _ inside => inside) (fun _ gone => gone) rfl rfl rfl

theorem allows_commit (operationId : String) (closed : ledger.rescaleOperationId ≠ none)
    (quiesced : calm → ledger.completingCheckpoints = []) :
    Allows calm me ledger {ledger with
      rescaleOperationId := none
      rescaleRecoveryFence := some operationId} := by
  refine ⟨{sound with paused := ?_},fun quiet => ⟨fun _ record _ _ live => ?_,(exclusive quiet).slotted⟩,fun other _ => ?_⟩
  · exact fun impossible => absurd rfl impossible
  · obtain inflight | completing := live
    · exact inflight (sound.paused closed record.barrierId)
    · rw [quiesced quiet] at completing
      simp at completing
  · exact .of_flight other _ _ (fun _ inside => inside) (fun _ gone => gone) rfl rfl rfl

theorem allows_reconfigure (idle : ∀ barrierId, ledger.inflightCheckpoints.get? barrierId = none)
    (quiesced : ledger.completingCheckpoints = []) :
    Allows calm me ledger {ledger with activeCheckpointByDomain := ∅} := by
  have dead (barrierId : Int) : ¬ ledger.Live barrierId := by
    rintro (inflight | completing)
    · exact inflight (idle barrierId)
    · rw [quiesced] at completing
      simp at completing
  refine ⟨{sound with named := ?_},fun quiet => ⟨(exclusive quiet).fenced,fun record _ _ live => absurd live (dead record.barrierId)⟩,fun other _ => ?_⟩
  · intro domain barrierId found
    simp at found
  · exact .of_flight other _ _ (fun _ inside => inside) (fun _ gone => gone) rfl rfl rfl

theorem allows_touch (barrierId : Int) (checkpoint touched : Checkpoint)
    (found : ledger.inflightCheckpoints.get? barrierId = some checkpoint)
    (own : touched.barrierId = checkpoint.barrierId) (domain : touched.domainId = checkpoint.domainId) :
    Allows calm me ledger {ledger with
      inflightCheckpoints := ledger.inflightCheckpoints.set barrierId touched} := by
  have same (other : Int) : (ledger.inflightCheckpoints.set barrierId touched).get? other = none ↔
      ledger.inflightCheckpoints.get? other = none := by
    rw [Dict.get?_set]
    split
    next equal =>
      subst equal
      simp [found]
    next => rfl
  refine ⟨{sound with recorded := ?_,completing := ?_,named := ?_,settled := ?_,paused := ?_},fun quiet => ⟨?_,?_⟩,fun other _ => ?_⟩
  · intro other result stored
    rw [Dict.get?_set] at stored
    split at stored
    next equal =>
      cases stored
      subst equal
      rw [own,domain]
      exact sound.recorded _ checkpoint found
    next => exact sound.recorded other result stored
  · intro other inside
    exact ⟨(same other).mpr (sound.completing other inside).1,(sound.completing other inside).2⟩
  · intro domain other named
    obtain ⟨live,recorded⟩ := sound.named domain other named
    exact ⟨live.imp (fun inflight => mt (same other).mp inflight) id,recorded⟩
  · intro other decided
    obtain ⟨issued,gone⟩ := sound.settled other decided
    exact ⟨issued,(same other).mpr gone⟩
  · intro closed other
    exact (same other).mpr (sound.paused closed other)
  · intro fence record inside ordinary live
    refine (exclusive quiet).fenced fence record inside ordinary (live.imp (fun inflight => ?_) id)
    exact mt (same record.barrierId).mpr inflight
  · intro record inside ordinary live
    refine (exclusive quiet).slotted record inside ordinary (live.imp (fun inflight => ?_) id)
    exact mt (same record.barrierId).mpr inflight
  · exact .of_flight other _ _ (fun _ inside => inside) (fun id gone => ⟨gone.1,(same id).mpr gone.2⟩) rfl rfl rfl

def freeSlot (barrierId : Int) (domainId : Option String) : SlotLedger :=
  match domainId with
  | some domain =>
    if ledger.activeCheckpointByDomain.get? domain = some barrierId then
      {ledger with activeCheckpointByDomain := ledger.activeCheckpointByDomain.erase domain}
    else ledger
  | none => ledger

omit sound exclusive

theorem freeSlot_slots (barrierId : Int) (domainId : Option String) :
    ∃ active, ledger.freeSlot barrierId domainId = {ledger with activeCheckpointByDomain := active} ∧
      (∀ domain holder, active.get? domain = some holder → ledger.activeCheckpointByDomain.get? domain = some holder ∧
        (some domain = domainId → holder ≠ barrierId)) ∧
      ∀ domain holder, holder ≠ barrierId → ledger.activeCheckpointByDomain.get? domain = some holder →
        active.get? domain = some holder := by
  unfold freeSlot
  cases domainId with
  | none => exact ⟨_,rfl,fun domain holder found => ⟨found,fun impossible => by cases impossible⟩,fun _ _ _ found => found⟩
  | some own =>
    dsimp only
    split
    next held =>
      refine ⟨_,rfl,fun domain holder found => ?_,fun domain holder different found => ?_⟩
      · rw [Dict.get?_erase] at found
        split at found
        next => contradiction
        next other => exact ⟨found,fun same => absurd (some.inj same) other⟩
      · rw [Dict.get?_erase,if_neg]
        · exact found
        · intro same
          rw [same,held] at found
          exact different (some.inj found).symm
    next free =>
      refine ⟨_,rfl,fun domain holder found => ⟨found,fun same equal => free ?_⟩,fun _ _ _ found => found⟩
      rw [← some.inj same,← equal]
      exact found

def retire (barrierId : Int) (domainId : Option String) : SlotLedger :=
  {ledger.freeSlot barrierId domainId with
    inflightCheckpoints := ledger.inflightCheckpoints.erase barrierId
    completingCheckpoints := ledger.completingCheckpoints.erase barrierId}

theorem retire_fields (barrierId : Int) (domainId : Option String) :
    (ledger.retire barrierId domainId).tracked = ledger.tracked ∧
      (ledger.retire barrierId domainId).completed = ledger.completed ∧
      (ledger.retire barrierId domainId).completer = ledger.completer ∧
      (ledger.retire barrierId domainId).barrierIdCurrent = ledger.barrierIdCurrent := by
  obtain ⟨active,freed,-,-⟩ := freeSlot_slots ledger barrierId domainId
  rw [retire,freed]
  exact ⟨rfl,rfl,rfl,rfl⟩

theorem Allows.trans (first second third : SlotLedger) (left : Allows calm me first second)
    (right : Allows calm me second third) : Allows calm me first third :=
  ⟨right.sound,right.exclusive,fun other different =>
    (left.respects other different).trans other _ _ _ (right.respects other different)⟩

include sound

theorem Sound.recorded_unique (barrierId : Int) (first second : Option String) (left : ledger.Recorded barrierId first)
    (right : ledger.Recorded barrierId second) : first = second := by
  obtain ⟨one,inside,own,rfl⟩ := left
  obtain ⟨other,inside',own',rfl⟩ := right
  rw [inj_on_of_nodup_map sound.distinct inside inside' (own.trans own'.symm)]

theorem Sound.recorded_issued (barrierId : Int) (domainId : Option String)
    (recorded : ledger.Recorded barrierId domainId) : barrierId ≤ ledger.barrierIdCurrent := by
  obtain ⟨record,inside,rfl,-⟩ := recorded
  exact sound.issued record inside

theorem Sound.flying (barrierId : Int) (checkpoint : Checkpoint)
    (found : ledger.inflightCheckpoints.get? barrierId = some checkpoint) :
    barrierId ∉ ledger.completed ∧ barrierId ∉ ledger.failed ∧ ledger.completer.get? barrierId = none ∧
      barrierId ∉ ledger.completingCheckpoints := by
  have flies (decided : barrierId ∈ ledger.completed ∨ barrierId ∈ ledger.failed ∨
      ledger.completer.get? barrierId ≠ none) : False := by
    rw [(sound.settled barrierId decided).2] at found
    contradiction
  refine ⟨fun completed => flies (.inl completed),fun failed => flies (.inr (.inl failed)),?_,fun completing => ?_⟩
  · by_contra owned
    exact flies (.inr (.inr owned))
  · rw [(sound.completing barrierId completing).1] at found
    contradiction

include exclusive

theorem allows_retire (barrierId : Int) (domainId : Option String) (recorded : ledger.Recorded barrierId domainId) :
    Allows calm me ledger (ledger.retire barrierId domainId) := by
  obtain ⟨active,freed,old,kept⟩ := freeSlot_slots ledger barrierId domainId
  rw [retire,freed]
  have gone (other : Int) (absent : ledger.inflightCheckpoints.get? other = none) :
      (ledger.inflightCheckpoints.erase barrierId).get? other = none := by
    simp [absent]
  have alive (other : Int) (different : other ≠ barrierId) (live : ledger.Live other) :
      (ledger.inflightCheckpoints.erase barrierId).get? other ≠ none ∨
        other ∈ ledger.completingCheckpoints.erase barrierId := by
    refine live.imp (fun inflight => ?_) (fun completing => (mem_erase_of_ne different).mpr completing)
    simpa [different] using inflight
  have lived (other : Int) (live : (ledger.inflightCheckpoints.erase barrierId).get? other ≠ none ∨
      other ∈ ledger.completingCheckpoints.erase barrierId) : other ≠ barrierId ∧ ledger.Live other := by
    obtain inflight | completing := live
    · rw [Dict.get?_erase] at inflight
      split at inflight
      next => contradiction
      next different => exact ⟨different,.inl inflight⟩
    · obtain ⟨different,inside⟩ := (sound.once.mem_erase_iff).mp completing
      exact ⟨different,.inr inside⟩
  refine ⟨⟨?_,sound.issued,sound.distinct,?_,sound.once.erase barrierId,?_,?_,sound.apart,?_⟩,fun quiet => ⟨?_,?_⟩,
    fun other _ => ?_⟩
  · intro other result stored
    rw [Dict.get?_erase] at stored
    split at stored
    next => contradiction
    next => exact sound.recorded other result stored
  · intro other inside
    obtain ⟨absent,own⟩ := sound.completing other (mem_of_mem_erase inside)
    exact ⟨gone other absent,own⟩
  · intro domain holder found
    obtain ⟨before,freed⟩ := old domain holder found
    obtain ⟨live,own⟩ := sound.named domain holder before
    have different : holder ≠ barrierId := by
      rintro rfl
      exact freed (sound.recorded_unique ledger holder _ _ own recorded) rfl
    exact ⟨alive holder different live,own⟩
  · intro other decided
    obtain ⟨issued,absent⟩ := sound.settled other decided
    exact ⟨issued,gone other absent⟩
  · intro closed other
    exact gone other (sound.paused closed other)
  · intro fence record inside ordinary live
    exact (exclusive quiet).fenced fence record inside ordinary (lived record.barrierId live).2
  · intro record inside ordinary live
    obtain ⟨different,before⟩ := lived record.barrierId live
    obtain ⟨domain,own,found⟩ := (exclusive quiet).slotted record inside ordinary before
    exact ⟨domain,own,kept domain record.barrierId different found⟩
  · exact .of_flight other _ _ (fun _ inside => inside) (fun id left => ⟨left.1,gone id left.2⟩) rfl rfl rfl

theorem allows_begin (barrierId : Int) (checkpoint : Checkpoint)
    (found : ledger.inflightCheckpoints.get? barrierId = some checkpoint) :
    Allows calm me ledger {ledger with
      inflightCheckpoints := ledger.inflightCheckpoints.erase barrierId
      completingCheckpoints := ledger.completingCheckpoints.insert barrierId
      completer := ledger.completer.set barrierId me} := by
  obtain ⟨-,recorded⟩ := sound.recorded barrierId checkpoint found
  have issued := sound.recorded_issued ledger barrierId _ recorded
  have gone (other : Int) (absent : ledger.inflightCheckpoints.get? other = none) :
      (ledger.inflightCheckpoints.erase barrierId).get? other = none := by
    simp [absent]
  have flying (other : Int) (left : ledger.Gone other) : other ≠ barrierId := by
    rintro rfl
    rw [left.2] at found
    contradiction
  have live (other : Int) : (ledger.inflightCheckpoints.erase barrierId).get? other ≠ none ∨
      other ∈ ledger.completingCheckpoints.insert barrierId ↔ ledger.Live other := by
    rw [Dict.get?_erase,mem_insert_iff]
    by_cases same : other = barrierId
    · subst same
      simp [Live,found]
    · simp [Live,same]
  refine ⟨⟨?_,sound.issued,sound.distinct,?_,sound.once.insert,?_,?_,sound.apart,?_⟩,fun quiet => ⟨?_,?_⟩,
    fun other different => ?_⟩
  · intro other result stored
    rw [Dict.get?_erase] at stored
    split at stored
    next => contradiction
    next => exact sound.recorded other result stored
  · intro other inside
    rw [mem_insert_iff] at inside
    obtain rfl | before := inside
    · exact ⟨by simp,_,recorded⟩
    · obtain ⟨absent,own⟩ := sound.completing other before
      exact ⟨gone other absent,own⟩
  · intro domain holder named
    obtain ⟨before,own⟩ := sound.named domain holder named
    exact ⟨(live holder).mpr before,own⟩
  · intro other decided
    by_cases same : other = barrierId
    · subst same
      exact ⟨issued,by simp⟩
    · have before : other ∈ ledger.completed ∨ other ∈ ledger.failed ∨ ledger.completer.get? other ≠ none := by
        simpa [same] using decided
      obtain ⟨low,absent⟩ := sound.settled other before
      exact ⟨low,gone other absent⟩
  · intro closed other
    exact gone other (sound.paused closed other)
  · intro fence record inside ordinary alive
    exact (exclusive quiet).fenced fence record inside ordinary ((live record.barrierId).mp alive)
  · intro record inside ordinary alive
    exact (exclusive quiet).slotted record inside ordinary ((live record.barrierId).mp alive)
  · refine ⟨fun _ inside => inside,fun id left => ⟨left.1,gone id left.2⟩,fun id left => ?_,fun _ _ _ inside => inside,
      fun _ _ _ inside => inside⟩
    simp [flying id left]

section
variable (barrierId : Int) (left : ledger.Gone barrierId)
include left

omit exclusive in
theorem sound_fail (undecided : barrierId ∉ ledger.completed) :
    Sound {ledger with failed := ledger.failed ++ [barrierId]} := by
  refine {sound with settled := ?_,apart := ?_}
  · intro other decided
    by_cases same : other = barrierId
    · subst same
      exact left
    · exact sound.settled other (by simpa [same] using decided)
  · intro other completed failed
    obtain before | same := mem_append.mp failed
    · exact sound.apart other completed before
    · rw [mem_singleton] at same
      exact undecided (same ▸ completed)

theorem allows_fail (undecided : barrierId ∉ ledger.completed)
    (owned : ∀ other, other ≠ me → ledger.completer.get? barrierId ≠ some other) :
    Allows calm me ledger {ledger with failed := ledger.failed ++ [barrierId]} := by
  refine ⟨sound_fail ledger sound barrierId left undecided,
    fun quiet => ⟨(exclusive quiet).fenced,(exclusive quiet).slotted⟩,fun other different => ?_⟩
  refine ⟨fun _ inside => inside,fun _ gone => gone,fun _ _ => rfl,fun _ _ _ inside => inside,
    fun id _ holder inside => ?_⟩
  obtain before | same := mem_append.mp inside
  · exact before
  · rw [mem_singleton] at same
    exact absurd (same ▸ holder) (owned other different)

theorem allows_complete (undecided : barrierId ∉ ledger.failed)
    (owner : ledger.completer.get? barrierId = some me) :
    Allows calm me ledger {ledger with completed := ledger.completed ++ [barrierId]} := by
  refine ⟨{sound with settled := ?_,apart := ?_},
    fun quiet => ⟨(exclusive quiet).fenced,(exclusive quiet).slotted⟩,fun other different => ?_⟩
  · intro id decided
    by_cases same : id = barrierId
    · subst same
      exact left
    · exact sound.settled id (by simpa [same] using decided)
  · intro id completed failed
    obtain before | same := mem_append.mp completed
    · exact sound.apart id before failed
    · rw [mem_singleton] at same
      exact undecided (same ▸ failed)
  · refine ⟨fun _ inside => inside,fun _ gone => gone,fun _ _ => rfl,fun id _ holder inside => ?_,fun _ _ _ inside => inside⟩
    obtain before | same := mem_append.mp inside
    · exact before
    · rw [mem_singleton] at same
      subst same
      rw [owner] at holder
      obtain taken | free := holder
      · exact absurd (some.inj taken).symm different
      · contradiction

end

omit sound exclusive in
def takeSlot (barrierId : Int) (domainId : Option String) : Dict String Int :=
  match domainId with
  | some domain => ledger.activeCheckpointByDomain.set domain barrierId
  | none => ledger.activeCheckpointByDomain

theorem allows_track (checkpoint tracked : Checkpoint)
    (fresh : checkpoint.barrierId = ledger.barrierIdCurrent + 1) (opened : ledger.rescaleOperationId = none)
    (own : tracked.barrierId = checkpoint.barrierId) (domain : tracked.domainId = checkpoint.domainId)
    (admitted : checkpoint.coordinated = true ∧ ledger.rescaleRecoveryFence ≠ none ∨
      checkpoint.coordinated = false ∧ ledger.rescaleRecoveryFence = none ∧
        ∃ name, checkpoint.domainId = some name ∧ ledger.activeCheckpointByDomain.get? name = none) :
    Allows calm me ledger {ledger with
      barrierIdCurrent := checkpoint.barrierId
      inflightCheckpoints := ledger.inflightCheckpoints.set checkpoint.barrierId tracked
      tracked := ledger.tracked ++ [checkpoint]
      activeCheckpointByDomain := ledger.takeSlot checkpoint.barrierId checkpoint.domainId} := by
  have past (id : Int) (issued : id ≤ ledger.barrierIdCurrent) : id ≠ checkpoint.barrierId := by omega
  have gone (id : Int) (left : ledger.Gone id) :
      id ≤ checkpoint.barrierId ∧ (ledger.inflightCheckpoints.set checkpoint.barrierId tracked).get? id = none := by
    refine ⟨by have := left.1; omega,?_⟩
    rw [Dict.get?_set,if_neg (past id left.1)]
    exact left.2
  have live (id : Int) (issued : id ≤ ledger.barrierIdCurrent) :
      (ledger.inflightCheckpoints.set checkpoint.barrierId tracked).get? id ≠ none ∨ id ∈ ledger.completingCheckpoints ↔
        ledger.Live id := by
    rw [Dict.get?_set,if_neg (past id issued)]
    rfl
  have wider (id : Int) (domainId : Option String) (recorded : ledger.Recorded id domainId) :
      ∃ record ∈ ledger.tracked ++ [checkpoint], record.barrierId = id ∧ record.domainId = domainId := by
    obtain ⟨record,inside,facts⟩ := recorded
    exact ⟨record,mem_append_left _ inside,facts⟩
  have latest : ∃ record ∈ ledger.tracked ++ [checkpoint],
      record.barrierId = checkpoint.barrierId ∧ record.domainId = checkpoint.domainId :=
    ⟨checkpoint,by simp,rfl,rfl⟩
  have slots (name : String) (id : Int)
      (found : (ledger.takeSlot checkpoint.barrierId checkpoint.domainId).get? name = some id) :
      id = checkpoint.barrierId ∧ some name = checkpoint.domainId ∨
        ledger.activeCheckpointByDomain.get? name = some id := by
    unfold takeSlot at found
    split at found
    next taken slot =>
      rw [Dict.get?_set] at found
      split at found
      next same =>
        subst same
        exact .inl ⟨(some.inj found).symm,slot.symm⟩
      next => exact .inr found
    next => exact .inr found
  refine ⟨⟨?_,?_,?_,?_,sound.once,?_,?_,sound.apart,?_⟩,fun quiet => ⟨?_,?_⟩,fun other _ => ?_⟩
  · intro id result stored
    rw [Dict.get?_set] at stored
    split at stored
    next same =>
      cases stored
      subst same
      rw [own,domain]
      exact ⟨rfl,latest⟩
    next =>
      obtain ⟨named,recorded⟩ := sound.recorded id result stored
      exact ⟨named,wider id _ recorded⟩
  · intro record inside
    obtain before | same := mem_append.mp inside
    · have := sound.issued record before
      dsimp only
      omega
    · rw [mem_singleton] at same
      subst same
      exact Int.le_refl _
  · rw [map_append,nodup_append]
    refine ⟨sound.distinct,nodup_singleton _,fun id inside other same => ?_⟩
    obtain ⟨record,before,rfl⟩ := List.mem_map.mp inside
    rw [mem_singleton.mp same]
    exact past _ (sound.issued record before)
  · intro id inside
    obtain ⟨absent,domainId,recorded⟩ := sound.completing id inside
    exact ⟨(gone id ⟨sound.recorded_issued ledger id _ recorded,absent⟩).2,domainId,wider id _ recorded⟩
  · intro name id found
    obtain ⟨rfl,same⟩ | before := slots name id found
    · exact ⟨.inl (by simp),by rw [same]; exact latest⟩
    · obtain ⟨alive,recorded⟩ := sound.named name id before
      exact ⟨(live id (sound.recorded_issued ledger id _ recorded)).mpr alive,wider id _ recorded⟩
  · intro id decided
    exact gone id (sound.settled id decided)
  · intro closed
    exact absurd opened closed
  · intro fence record inside ordinary alive
    obtain ⟨coordinated,-⟩ | ⟨-,down,-⟩ := admitted
    · rw [mem_append,mem_singleton] at inside
      obtain before | rfl := inside
      · exact (exclusive quiet).fenced fence record before ordinary
          ((live record.barrierId (sound.issued record before)).mp alive)
      · rw [coordinated] at ordinary
        contradiction
    · exact absurd down fence
  · intro record inside ordinary alive
    rw [mem_append,mem_singleton] at inside
    obtain before | rfl := inside
    · have issued := sound.issued record before
      have lived := (live record.barrierId issued).mp alive
      obtain ⟨-,fence⟩ | ⟨-,-,name,slot,free⟩ := admitted
      · exact absurd lived ((exclusive quiet).fenced fence record before ordinary)
      · obtain ⟨domain,owns,held⟩ := (exclusive quiet).slotted record before ordinary lived
        refine ⟨domain,owns,?_⟩
        dsimp only [takeSlot]
        rw [slot]
        dsimp only
        rw [Dict.get?_set,if_neg]
        · exact held
        · rintro rfl
          rw [free] at held
          contradiction
    · obtain ⟨coordinated,-⟩ | ⟨-,-,name,slot,free⟩ := admitted
      · rw [coordinated] at ordinary
        contradiction
      · exact ⟨name,slot,by simp [takeSlot,slot]⟩
  · exact .of_flight other _ _ (fun _ inside => mem_append_left _ inside) gone rfl rfl rfl

end updates
end SlotLedger
end Klein.Coordinator
