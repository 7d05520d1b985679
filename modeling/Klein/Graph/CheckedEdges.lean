import Mathlib.Data.List.Nodup

/-! The checks that logical and physical graphs make of their edges. -/
namespace Klein.Graph
open List

section pairs
variable (keys : List Nat) (missing duplicate : Nat → Nat → String)

def checkPairs (pairs : List (Nat × Nat)) : List (Nat × Nat) → Except String Unit
  | [] => .ok ()
  | (source,target)::rest =>
    if source ∉ keys ∨ target ∉ keys then .error (missing source target)
    else if (source,target) ∈ pairs then .error (duplicate source target)
    else checkPairs ((source,target)::pairs) rest

theorem checkPairs_iff (pairs edges : List (Nat × Nat)) : checkPairs keys missing duplicate pairs edges = .ok () ↔
    edges.Nodup ∧ (∀ edge ∈ edges, edge ∉ pairs) ∧ ∀ edge ∈ edges, edge.1 ∈ keys ∧ edge.2 ∈ keys := by
  induction edges generalizing pairs with
  | nil => simp [checkPairs]
  | cons edge rest ih =>
    rw [checkPairs]
    split
    next unknown =>
      refine ⟨fun raised => absurd raised (by simp),fun ⟨_,_,ends⟩ => ?_⟩
      have known := ends edge mem_cons_self
      exact absurd known (not_and_or.mpr unknown)
    next known =>
      split
      next old => exact ⟨fun raised => absurd raised (by simp),fun ⟨_,fresh,_⟩ => absurd old (fresh edge mem_cons_self)⟩
      next new =>
        rw [not_or,not_not,not_not] at known
        rw [ih,nodup_cons,forall_mem_cons,forall_mem_cons]
        constructor
        · rintro ⟨distinct,fresh,ends⟩
          exact ⟨⟨fun again => fresh edge again mem_cons_self,distinct⟩,
            ⟨new,fun other own old => fresh other own (mem_cons_of_mem _ old)⟩,known,ends⟩
        · rintro ⟨⟨absent,distinct⟩,⟨-,fresh⟩,-,ends⟩
          refine ⟨distinct,fun other own old => ?_,ends⟩
          rcases mem_cons.mp old with same | before
          · rw [same] at own
            exact absent own
          · exact fresh other own before

def rootsOf (edges : List (Nat × Nat)) : List Nat := keys.filter (fun key => key ∉ edges.map Prod.snd)

theorem mem_rootsOf (edges : List (Nat × Nat)) (key : Nat) :
    key ∈ rootsOf keys edges ↔ key ∈ keys ∧ ∀ edge ∈ edges, edge.2 ≠ key := by
  unfold rootsOf
  rw [mem_filter,decide_eq_true_eq,List.mem_map]
  refine and_congr_right (fun _ => ⟨fun none edge own same => none ⟨edge,own,same⟩,?_⟩)
  rintro none ⟨edge,own,same⟩
  exact none edge own same

variable (mismatch : List Nat → List Nat → String)

def checkRoots (edges : List (Nat × Nat)) (sources : List Nat) : Except String Unit :=
  if rootsOf keys edges ⊆ sources ∧ sources ⊆ rootsOf keys edges then .ok ()
  else .error (mismatch (rootsOf keys edges) sources)

theorem checkRoots_iff (edges : List (Nat × Nat)) (sources : List Nat) : checkRoots keys mismatch edges sources = .ok () ↔
    ∀ key, key ∈ sources ↔ key ∈ keys ∧ ∀ edge ∈ edges, edge.2 ≠ key := by
  unfold checkRoots
  constructor
  · intro checked key
    split at checked
    next same =>
      rw [← mem_rootsOf]
      exact ⟨fun listed => same.2 listed,fun listed => same.1 listed⟩
    next => contradiction
  · intro same
    rw [if_pos ⟨fun key root => (same key).mpr ((mem_rootsOf _ _ _).mp root),
      fun key listed => (mem_rootsOf _ _ _).mpr ((same key).mp listed)⟩]

end pairs

end Klein.Graph
