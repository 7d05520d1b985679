import Klein.State.KeyGroupRange
import Mathlib.Data.List.Range

/-! The ranges of all subtasks are a partition of the key groups, and each key group lies
in the range of its owner. -/
namespace Klein.State
open Fallible List

section cuts
variable (cut : Nat → Nat)

theorem intervals_join (count : Nat) (increasing : ∀ index < count, cut index ≤ cut (index + 1)) :
    (List.range count).flatMap (fun index => List.range' (cut index) (cut (index + 1) - cut index)) =
      List.range' (cut 0) (cut count - cut 0) := by
  induction count with
  | zero => simp
  | succ count ih =>
    have earlier := ih (fun index inside => increasing index (Nat.lt_succ_of_lt inside))
    have reached : cut 0 ≤ cut count := by
      have climbs : ∀ index ≤ count, cut 0 ≤ cut index := by
        intro index inside
        induction index with
        | zero => exact Nat.le_refl _
        | succ index below => exact Nat.le_trans (below (Nat.le_of_succ_le inside)) (increasing index (by omega))
      exact climbs count (Nat.le_refl _)
    have last := increasing count (Nat.lt_succ_self _)
    rw [range_succ,flatMap_append,earlier,flatMap_singleton]
    have next : cut count = cut 0 + (cut count - cut 0) := by omega
    rw [show cut (count + 1) - cut 0 = (cut count - cut 0) + (cut (count + 1) - cut count) by omega,
      ← range'_append_1,← next]

end cuts

section partition
variable (maxParallelism parallelism : Nat) (positive : 1 ≤ parallelism) (within : parallelism ≤ maxParallelism)

def firstKeyGroup (subtaskIndex : Nat) : Nat := (subtaskIndex * maxParallelism + parallelism - 1) / parallelism

include positive

omit positive in
theorem firstKeyGroup_zero (some : 1 ≤ parallelism) : firstKeyGroup maxParallelism parallelism 0 = 0 := by
  unfold firstKeyGroup
  exact Nat.div_eq_of_lt (by omega)

theorem firstKeyGroup_last : firstKeyGroup maxParallelism parallelism parallelism = maxParallelism := by
  unfold firstKeyGroup
  have least := (ceiling_le (parallelism * maxParallelism) parallelism maxParallelism positive).mpr (by rw [Nat.mul_comm])
  refine Nat.le_antisymm least ?_
  rw [Nat.le_div_iff_mul_le (by omega),Nat.mul_comm]
  omega

theorem firstKeyGroup_step (subtaskIndex : Nat) :
    firstKeyGroup maxParallelism parallelism subtaskIndex + maxParallelism / parallelism ≤
        firstKeyGroup maxParallelism parallelism (subtaskIndex + 1) ∧
      firstKeyGroup maxParallelism parallelism (subtaskIndex + 1) ≤
        firstKeyGroup maxParallelism parallelism subtaskIndex + maxParallelism / parallelism + 1 := by
  have next : (subtaskIndex + 1) * maxParallelism = subtaskIndex * maxParallelism + maxParallelism := Nat.succ_mul _ _
  have whole : maxParallelism / parallelism * parallelism ≤ maxParallelism := Nat.div_mul_le_self _ _
  have rest := Nat.lt_div_mul_add (a := maxParallelism) (b := parallelism) positive
  have reaches : ∀ index, index * maxParallelism ≤ firstKeyGroup maxParallelism parallelism index * parallelism :=
    fun index => (ceiling_le (index * maxParallelism) parallelism _ positive).mp (Nat.le_refl _)
  constructor
  · have enough := reaches (subtaskIndex + 1)
    have quotient : maxParallelism / parallelism ≤ firstKeyGroup maxParallelism parallelism (subtaskIndex + 1) := by
      apply Nat.le_of_mul_le_mul_right _ positive
      omega
    have start := (ceiling_le (subtaskIndex * maxParallelism) parallelism
      (firstKeyGroup maxParallelism parallelism (subtaskIndex + 1) - maxParallelism / parallelism) positive).mpr (by
        rw [Nat.sub_mul]
        omega)
    change firstKeyGroup maxParallelism parallelism subtaskIndex ≤ _ at start
    omega
  · have enough := reaches subtaskIndex
    apply (ceiling_le ((subtaskIndex + 1) * maxParallelism) parallelism _ positive).mpr
    simp only [Nat.add_mul,Nat.one_mul]
    omega

include within

theorem firstKeyGroup_lt (subtaskIndex : Nat) :
    firstKeyGroup maxParallelism parallelism subtaskIndex < firstKeyGroup maxParallelism parallelism (subtaskIndex + 1) := by
  have step := (firstKeyGroup_step maxParallelism parallelism positive subtaskIndex).1
  have some : 1 ≤ maxParallelism / parallelism := (Nat.one_le_div_iff positive).mpr within
  omega

theorem assignKeyGroupRange_eq (subtaskIndex : Nat) (inside : subtaskIndex < parallelism) :
    ∃ range, assignKeyGroupRange maxParallelism parallelism subtaskIndex = .ok range ∧
      range.start = firstKeyGroup maxParallelism parallelism subtaskIndex ∧
      range.stop + 1 = firstKeyGroup maxParallelism parallelism (subtaskIndex + 1) := by
  have less := firstKeyGroup_lt maxParallelism parallelism positive within subtaskIndex
  have ordered : firstKeyGroup maxParallelism parallelism subtaskIndex ≤
      firstKeyGroup maxParallelism parallelism (subtaskIndex + 1) - 1 := by omega
  refine ⟨⟨_,_,ordered⟩,?_,rfl,by dsimp only; omega⟩
  unfold assignKeyGroupRange
  rw [ok_bind (validateParallelism_ok maxParallelism parallelism positive within),if_pos inside]
  exact dif_pos ordered

theorem keyGroupOwner_iff (subtaskIndex : Nat) (inside : subtaskIndex < parallelism) (range : KeyGroupRange)
    (assigned : assignKeyGroupRange maxParallelism parallelism subtaskIndex = .ok range) (keyGroup : Nat) :
    keyGroupOwner keyGroup maxParallelism parallelism = .ok subtaskIndex ↔ keyGroup ∈ range := by
  obtain ⟨found,same,_,groups⟩ := assignKeyGroupRange_ok maxParallelism parallelism positive within subtaskIndex inside
  cases assigned.symm.trans same
  rw [groups]
  by_cases below : keyGroup < maxParallelism
  · rw [keyGroupOwner_ok maxParallelism parallelism positive within keyGroup below,Except.ok.injEq]
    exact ⟨fun owner => ⟨below,owner⟩,fun owned => owned.2⟩
  · have refused : keyGroupOwner keyGroup maxParallelism parallelism = .error "key_group must be within max_parallelism" := by
      unfold keyGroupOwner
      rw [ok_bind (validateParallelism_ok maxParallelism parallelism positive within),if_neg below]
      rfl
    rw [refused]
    exact ⟨fun owner => (by cases owner),fun owned => absurd owned.1 below⟩

/-- The ranges of all subtasks are assigned, follow each other without a gap from the first key group to the last, are
disjoint and of equal size up to one group, and tell who owns a key group. -/
theorem ranges_partition : ∃ range : Nat → KeyGroupRange,
    (∀ subtaskIndex < parallelism, assignKeyGroupRange maxParallelism parallelism subtaskIndex = .ok (range subtaskIndex)) ∧
    (range 0).start = 0 ∧ (range (parallelism - 1)).stop + 1 = maxParallelism ∧
    (∀ subtaskIndex, subtaskIndex + 1 < parallelism → (range (subtaskIndex + 1)).start = (range subtaskIndex).stop + 1) ∧
    (List.range parallelism).flatMap (fun subtaskIndex => (range subtaskIndex).groups) = List.range maxParallelism ∧
    (∀ first < parallelism, ∀ second < parallelism, first ≠ second → ∀ keyGroup ∈ range first, keyGroup ∉ range second) ∧
    (∀ first < parallelism, ∀ second < parallelism, (range first).groups.length ≤ (range second).groups.length + 1) ∧
    ∀ subtaskIndex < parallelism, ∀ keyGroup,
      keyGroupOwner keyGroup maxParallelism parallelism = .ok subtaskIndex ↔ keyGroup ∈ range subtaskIndex := by
  choose found assigned starts stops using assignKeyGroupRange_eq maxParallelism parallelism positive within
  let range := fun subtaskIndex => if inside : subtaskIndex < parallelism then found subtaskIndex inside else found 0 positive
  have here : ∀ subtaskIndex (inside : subtaskIndex < parallelism), range subtaskIndex = found subtaskIndex inside :=
    fun subtaskIndex inside => dif_pos inside
  have start : ∀ subtaskIndex < parallelism, (range subtaskIndex).start = firstKeyGroup maxParallelism parallelism subtaskIndex :=
    fun subtaskIndex inside => by rw [here subtaskIndex inside,starts]
  have stop : ∀ subtaskIndex < parallelism,
      (range subtaskIndex).stop + 1 = firstKeyGroup maxParallelism parallelism (subtaskIndex + 1) :=
    fun subtaskIndex inside => by rw [here subtaskIndex inside,stops]
  have groups : ∀ subtaskIndex < parallelism, (range subtaskIndex).groups = List.range' (firstKeyGroup maxParallelism parallelism
      subtaskIndex) (firstKeyGroup maxParallelism parallelism (subtaskIndex + 1) - firstKeyGroup maxParallelism parallelism
        subtaskIndex) := by
    intro subtaskIndex inside
    rw [KeyGroupRange.groups,start subtaskIndex inside,stop subtaskIndex inside]
  have increasing : ∀ index < parallelism, firstKeyGroup maxParallelism parallelism index ≤
      firstKeyGroup maxParallelism parallelism (index + 1) :=
    fun index _ => Nat.le_of_lt (firstKeyGroup_lt maxParallelism parallelism positive within index)
  have owners : ∀ subtaskIndex < parallelism, ∀ keyGroup,
      keyGroupOwner keyGroup maxParallelism parallelism = .ok subtaskIndex ↔ keyGroup ∈ range subtaskIndex := by
    intro subtaskIndex inside keyGroup
    rw [here subtaskIndex inside]
    exact keyGroupOwner_iff maxParallelism parallelism positive within subtaskIndex inside _ (assigned subtaskIndex inside) keyGroup
  refine ⟨range,?_,?_,?_,?_,?_,?_,?_,owners⟩
  · intro subtaskIndex inside
    rw [here subtaskIndex inside]
    exact assigned subtaskIndex inside
  · rw [start 0 positive,firstKeyGroup_zero _ _ positive]
  · rw [stop (parallelism - 1) (by omega),Nat.sub_add_cancel positive,firstKeyGroup_last maxParallelism parallelism positive]
  · intro subtaskIndex inside
    rw [start _ inside,stop subtaskIndex (by omega)]
  · have same : (List.range parallelism).flatMap (fun subtaskIndex => (range subtaskIndex).groups) =
        (List.range parallelism).flatMap (fun subtaskIndex => List.range' (firstKeyGroup maxParallelism parallelism subtaskIndex)
          (firstKeyGroup maxParallelism parallelism (subtaskIndex + 1) - firstKeyGroup maxParallelism parallelism subtaskIndex)) :=
      flatMap_congr (fun subtaskIndex inside => groups subtaskIndex (mem_range.mp inside))
    rw [same,intervals_join _ parallelism increasing,firstKeyGroup_zero _ _ positive,
      firstKeyGroup_last maxParallelism parallelism positive,range_eq_range',Nat.sub_zero]
  · intro first insideFirst second insideSecond different keyGroup inFirst inSecond
    have one := (owners first insideFirst keyGroup).mpr inFirst
    have other := (owners second insideSecond keyGroup).mpr inSecond
    exact different (Except.ok.inj (one.symm.trans other))
  · intro first insideFirst second insideSecond
    have most := (firstKeyGroup_step maxParallelism parallelism positive first).2
    have least := (firstKeyGroup_step maxParallelism parallelism positive second).1
    rw [groups first insideFirst,groups second insideSecond,length_range',length_range']
    omega

end partition

/-- Five key groups of two subtasks. -/
theorem ranges_partition_five : ∃ range : Nat → KeyGroupRange,
    (∀ subtaskIndex < 2, assignKeyGroupRange 5 2 subtaskIndex = .ok (range subtaskIndex)) ∧
    ∀ subtaskIndex < 2, ∀ keyGroup, keyGroupOwner keyGroup 5 2 = .ok subtaskIndex ↔ keyGroup ∈ range subtaskIndex := by
  obtain ⟨range,assigned,_,_,_,_,_,_,owners⟩ := ranges_partition 5 2 (by decide) (by decide)
  exact ⟨range,assigned,owners⟩

end Klein.State
