import Mathlib.Data.List.Nodup
import Mathlib.Data.Nat.ModEq

/-! Channels between the subtasks of two operators
(`runtime/partitioning/channel_topology.py`, `_internal/partitioning.py`). Every
topology gives each upstream subtask a target and each downstream subtask an input. -/
namespace Klein.Graph
open List

inductive ChannelPattern where
  | allToAll | forward | rescale
deriving DecidableEq, Repr

/-- `range(start, stop, step)` -/
def rangeStep (start stop step : Nat) : List Nat := (List.range ((stop - start + step - 1) / step)).map (fun turn => start + turn * step)

def nonPositiveParallelism : String := "channel parallelism must be greater than zero"
def sourceOutside (sourceIndex sourceParallelism : Nat) : String :=
  "source index " ++ toString sourceIndex ++ " is outside parallelism " ++ toString sourceParallelism
def unequalForward (sourceParallelism targetParallelism : Nat) : String :=
  "forward topology requires equal source and target parallelism: " ++ toString sourceParallelism ++ " != " ++
    toString targetParallelism

def targetIndices (pattern : ChannelPattern) (sourceParallelism targetParallelism sourceIndex : Nat) :
    Except String (List Nat) :=
  if sourceParallelism = 0 ∨ targetParallelism = 0 then .error nonPositiveParallelism
  else if sourceParallelism ≤ sourceIndex then .error (sourceOutside sourceIndex sourceParallelism)
  else match pattern with
  | .allToAll => .ok (List.range targetParallelism)
  | .forward =>
    if sourceParallelism ≠ targetParallelism then .error (unequalForward sourceParallelism targetParallelism)
    else .ok [sourceIndex]
  | .rescale =>
    if targetParallelism ≤ sourceParallelism then .ok [sourceIndex % targetParallelism]
    else .ok (rangeStep sourceIndex targetParallelism sourceParallelism)

inductive PartitionerSpec where
  | forward | rescale | adaptive | roundRobin | broadcast
  | key (keySelector maxParallelism : Nat)
  | simple (fn : Nat)
deriving DecidableEq, Repr

def PartitionerSpec.topology : PartitionerSpec → ChannelPattern
  | .forward => .forward
  | .rescale => .rescale
  | _ => .allToAll

inductive Concurrency where
  | scalar (value : Nat)
  | range (least most : Nat)
deriving DecidableEq, Repr

def defaultPartitioner : Concurrency → Concurrency → PartitionerSpec
  | .scalar sourceParallelism,.scalar targetParallelism =>
    if sourceParallelism = targetParallelism then .forward
    else if sourceParallelism % targetParallelism = 0 ∨ targetParallelism % sourceParallelism = 0 then .rescale
    else .adaptive
  | _,_ => .adaptive

section coverage

theorem mem_rangeStep (start stop step value : Nat) (positive : 0 < step) :
    value ∈ rangeStep start stop step ↔ value < stop ∧ ∃ turn, value = start + turn * step := by
  unfold rangeStep
  rw [List.mem_map]
  constructor
  · rintro ⟨turn,inside,rfl⟩
    have bound := (Nat.lt_div_iff_mul_lt positive).mp (mem_range.mp inside)
    exact ⟨by omega,turn,rfl⟩
  · rintro ⟨below,turn,rfl⟩
    refine ⟨turn,mem_range.mpr ((Nat.lt_div_iff_mul_lt positive).mpr ?_),rfl⟩
    omega

theorem rangeStep_nodup (start stop step : Nat) (positive : 0 < step) : (rangeStep start stop step).Nodup := by
  refine nodup_range.map (fun first second same => ?_)
  exact Nat.eq_of_mul_eq_mul_right positive (Nat.add_left_cancel same)

variable (pattern : ChannelPattern) (sources targets : Nat)

def Joins : Prop := 0 < sources ∧ 0 < targets ∧ (pattern = .forward → sources = targets)

theorem targetIndices_ok (joins : Joins pattern sources targets) (index : Nat) (inside : index < sources) :
    ∃ indices, targetIndices pattern sources targets index = .ok indices ∧ indices ≠ [] ∧ indices.Nodup ∧
      ∀ target ∈ indices, target < targets := by
  obtain ⟨some,others,equal⟩ := joins
  unfold targetIndices
  rw [if_neg (by omega),if_neg (by omega)]
  cases pattern with
  | allToAll => exact ⟨_,rfl,by simp; omega,nodup_range,fun target listed => mem_range.mp listed⟩
  | forward =>
    obtain rfl := equal rfl
    exact ⟨[index],if_neg (by simp),by simp,nodup_singleton index,by simpa using inside⟩
  | rescale =>
    dsimp only
    split
    next fewer => exact ⟨_,rfl,by simp,nodup_singleton _,by simpa using Nat.mod_lt index others⟩
    next more =>
      refine ⟨_,rfl,fun none => ?_,rangeStep_nodup index targets sources some,
        fun target listed => ((mem_rangeStep index targets sources target some).mp listed).1⟩
      have own := (mem_rangeStep index targets sources index some).mpr ⟨by omega,0,by omega⟩
      rw [none] at own
      exact absurd own (by simp)

theorem joins_of_targetIndices (index : Nat) (indices : List Nat)
    (done : targetIndices pattern sources targets index = .ok indices) : Joins pattern sources targets := by
  unfold targetIndices at done
  split at done
  next => contradiction
  next some =>
    split at done
    next => contradiction
    next =>
      refine ⟨by omega,by omega,?_⟩
      rintro rfl
      by_contra unequal
      exact absurd ((if_pos unequal).symm.trans done) (by simp)

theorem targetIndices_cover (joins : Joins pattern sources targets) (target : Nat) (inside : target < targets) :
    ∃ index < sources, ∃ indices, targetIndices pattern sources targets index = .ok indices ∧ target ∈ indices := by
  have choose (index : Nat) (small : index < sources) (covers : ∀ indices,
      targetIndices pattern sources targets index = .ok indices → target ∈ indices) :
      ∃ index < sources, ∃ indices, targetIndices pattern sources targets index = .ok indices ∧ target ∈ indices := by
    obtain ⟨indices,done,-⟩ := targetIndices_ok pattern sources targets joins index small
    exact ⟨index,small,indices,done,covers indices done⟩
  obtain ⟨some,others,equal⟩ := joins
  cases pattern with
  | allToAll =>
    refine choose 0 some (fun indices done => ?_)
    unfold targetIndices at done
    rw [if_neg (by omega),if_neg (by omega)] at done
    obtain rfl := Except.ok.inj done
    exact mem_range.mpr inside
  | forward =>
    obtain rfl := equal rfl
    refine choose target inside (fun indices done => ?_)
    unfold targetIndices at done
    rw [if_neg (by omega),if_neg (by omega)] at done
    obtain rfl := Except.ok.inj ((if_neg (by simp)).symm.trans done)
    exact mem_singleton_self target
  | rescale =>
    by_cases fewer : targets ≤ sources
    · refine choose target (by omega) (fun indices done => ?_)
      unfold targetIndices at done
      rw [if_neg (by omega),if_neg (by omega)] at done
      obtain rfl := Except.ok.inj ((if_pos fewer).symm.trans done)
      exact mem_singleton.mpr (Nat.mod_eq_of_lt inside).symm
    · refine choose (target % sources) (Nat.mod_lt target some) (fun indices done => ?_)
      unfold targetIndices at done
      rw [if_neg (by omega),if_neg (by have := Nat.mod_lt target some; omega)] at done
      obtain rfl := Except.ok.inj ((if_neg fewer).symm.trans done)
      refine (mem_rangeStep _ targets sources target some).mpr ⟨inside,target / sources,?_⟩
      rw [Nat.mul_comm]
      exact (Nat.mod_add_div target sources).symm

end coverage
end Klein.Graph
