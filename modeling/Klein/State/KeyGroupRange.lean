import Klein.Fallible

/-! `state/key_group_range.py`: the contiguous ranges of key groups. The ranges of
all subtasks cut the key groups at `⌈i * maxParallelism / parallelism⌉`, so that a
group lies in the range of the one subtask that `keyGroupOwner` names. -/
namespace Klein.State
open Fallible

/-- Inclusive; `stop` is the source's `end`. -/
structure KeyGroupRange where
  start : Nat
  stop : Nat
  ordered : start ≤ stop
deriving DecidableEq

namespace KeyGroupRange

/-- `__post_init__` -/
def make (start stop : Nat) : Except String KeyGroupRange :=
  if ordered : start ≤ stop then .ok ⟨start,stop,ordered⟩ else .error "key-group range end must be >= start"

instance : Membership Nat KeyGroupRange := ⟨fun range group => range.start ≤ group ∧ group ≤ range.stop⟩

instance (range : KeyGroupRange) (group : Nat) : Decidable (group ∈ range) :=
  inferInstanceAs (Decidable (range.start ≤ group ∧ group ≤ range.stop))

/-- `__iter__` -/
def groups (range : KeyGroupRange) : List Nat := List.range' range.start (range.stop + 1 - range.start)

theorem mem_groups (range : KeyGroupRange) (group : Nat) : group ∈ range.groups ↔ group ∈ range := by
  have ordered := range.ordered
  unfold groups
  rw [List.mem_range'_1]
  change _ ↔ range.start ≤ group ∧ group ≤ range.stop
  omega

end KeyGroupRange

def validateParallelism (maxParallelism parallelism : Nat) : Except String Unit :=
  if maxParallelism < 1 then .error "max_parallelism must be at least 1"
  else if parallelism < 1 then .error "parallelism must be at least 1"
  else if maxParallelism < parallelism then .error "parallelism must not exceed max_parallelism"
  else .ok ()

def assignKeyGroupRange (maxParallelism parallelism subtaskIndex : Nat) : Except String KeyGroupRange := do
  validateParallelism maxParallelism parallelism
  if subtaskIndex < parallelism then
    let start := (subtaskIndex * maxParallelism + parallelism - 1) / parallelism
    let stop := ((subtaskIndex + 1) * maxParallelism + parallelism - 1) / parallelism - 1
    KeyGroupRange.make start stop
  else throw "subtask_index must be within parallelism"

def keyGroupOwner (keyGroup maxParallelism parallelism : Nat) : Except String Nat := do
  validateParallelism maxParallelism parallelism
  if keyGroup < maxParallelism then return keyGroup * parallelism / maxParallelism
  else throw "key_group must be within max_parallelism"

section ranges
variable (maxParallelism parallelism : Nat) (positive : 1 ≤ parallelism) (within : parallelism ≤ maxParallelism)

theorem ceiling_le (number divisor bound : Nat) (positive : 0 < divisor) :
    (number + divisor - 1) / divisor ≤ bound ↔ number ≤ bound * divisor := by
  rw [← Nat.lt_succ_iff,Nat.div_lt_iff_lt_mul positive,Nat.succ_mul]
  omega

include positive within

theorem validateParallelism_ok : validateParallelism maxParallelism parallelism = .ok () := by
  unfold validateParallelism
  rw [if_neg (by omega),if_neg (by omega),if_neg (by omega)]

theorem keyGroupOwner_ok (keyGroup : Nat) (inside : keyGroup < maxParallelism) :
    keyGroupOwner keyGroup maxParallelism parallelism = .ok (keyGroup * parallelism / maxParallelism) := by
  unfold keyGroupOwner
  rw [ok_bind (validateParallelism_ok maxParallelism parallelism positive within),if_pos inside]
  rfl

omit within in
theorem keyGroupOwner_lt (keyGroup : Nat) (inside : keyGroup < maxParallelism) :
    keyGroup * parallelism / maxParallelism < parallelism := by
  rw [Nat.div_lt_iff_lt_mul (by omega),Nat.mul_comm]
  exact Nat.mul_lt_mul_of_pos_left inside (by omega)

theorem assignKeyGroupRange_ok (subtaskIndex : Nat) (inside : subtaskIndex < parallelism) :
    ∃ range, assignKeyGroupRange maxParallelism parallelism subtaskIndex = .ok range ∧ range.stop < maxParallelism ∧
      ∀ keyGroup, keyGroup ∈ range ↔
        keyGroup < maxParallelism ∧ keyGroup * parallelism / maxParallelism = subtaskIndex := by
  have lower (bound : Nat) := ceiling_le (subtaskIndex * maxParallelism) parallelism bound positive
  have upper (bound : Nat) := ceiling_le ((subtaskIndex + 1) * maxParallelism) parallelism bound positive
  have next : (subtaskIndex + 1) * maxParallelism = subtaskIndex * maxParallelism + maxParallelism :=
    Nat.succ_mul _ _
  have last : (subtaskIndex + 1) * maxParallelism ≤ maxParallelism * parallelism := by
    rw [Nat.mul_comm maxParallelism]
    exact Nat.mul_le_mul_right maxParallelism inside
  -- the next range starts later, since a range has at least one group
  have later : (subtaskIndex * maxParallelism + parallelism - 1) / parallelism + 1 ≤
      ((subtaskIndex + 1) * maxParallelism + parallelism - 1) / parallelism := by
    rw [← Nat.add_div_right _ (by omega)]
    exact Nat.div_le_div_right (by omega)
  have most := (upper maxParallelism).mpr last
  have ordered : (subtaskIndex * maxParallelism + parallelism - 1) / parallelism ≤
      ((subtaskIndex + 1) * maxParallelism + parallelism - 1) / parallelism - 1 := by omega
  refine ⟨⟨_,_,ordered⟩,?_,by dsimp only; omega,fun keyGroup => ?_⟩
  · unfold assignKeyGroupRange
    rw [ok_bind (validateParallelism_ok maxParallelism parallelism positive within),if_pos inside]
    exact dif_pos ordered
  · have owned : keyGroup * parallelism / maxParallelism = subtaskIndex ↔
        subtaskIndex * maxParallelism ≤ keyGroup * parallelism ∧
          keyGroup * parallelism < (subtaskIndex + 1) * maxParallelism := by
      rw [← Nat.le_div_iff_mul_le (by omega),← Nat.div_lt_iff_lt_mul (by omega)]
      omega
    have below : keyGroup * parallelism < (subtaskIndex + 1) * maxParallelism → keyGroup < maxParallelism :=
      fun less => (Nat.mul_lt_mul_right positive).mp (Nat.lt_of_lt_of_le less last)
    have low := lower keyGroup
    have high := upper keyGroup
    change (subtaskIndex * maxParallelism + parallelism - 1) / parallelism ≤ keyGroup ∧
      keyGroup ≤ ((subtaskIndex + 1) * maxParallelism + parallelism - 1) / parallelism - 1 ↔ _
    rw [owned]
    generalize (subtaskIndex * maxParallelism + parallelism - 1) / parallelism = start at *
    generalize ((subtaskIndex + 1) * maxParallelism + parallelism - 1) / parallelism = stop at *
    constructor
    · rintro ⟨atLeast,atMost⟩
      have less : keyGroup * parallelism < (subtaskIndex + 1) * maxParallelism :=
        Nat.lt_of_not_le (fun reached => by have := high.mpr reached; omega)
      exact ⟨below less,low.mp atLeast,less⟩
    · rintro ⟨-,atLeast,less⟩
      have above : ¬ stop ≤ keyGroup := fun reached => absurd (high.mp reached) (Nat.not_le_of_lt less)
      exact ⟨low.mpr atLeast,by omega⟩

end ranges
end Klein.State
