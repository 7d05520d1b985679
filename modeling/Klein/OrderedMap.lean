import Mathlib.Data.List.Sort
import Klein.Dict

/-! Maps whose iteration follows the order of their keys. Two of them with the same
lookups are equal, so sorting a dictionary loses its order of insertion only. -/
namespace Klein
open List

structure OrderedMap (κ ν : Type) [LinearOrder κ] where
  entries : List (κ × ν)
  ordered : (entries.map Prod.fst).Pairwise (· < ·)
deriving DecidableEq

namespace OrderedMap
variable {κ ν : Type} [LinearOrder κ]

def empty : OrderedMap κ ν := ⟨[],List.Pairwise.nil⟩

instance : EmptyCollection (OrderedMap κ ν) := ⟨empty⟩

def keys (map : OrderedMap κ ν) : List κ := map.entries.map Prod.fst

def get? (map : OrderedMap κ ν) (key : κ) : Option ν :=
  (map.entries.find? (fun item => item.1 = key)).map Prod.snd

def filter (test : κ → ν → Bool) (map : OrderedMap κ ν) : OrderedMap κ ν where
  entries := map.entries.filter (fun item => test item.1 item.2)
  ordered := map.ordered.sublist (filter_sublist.map Prod.fst)

def erase (map : OrderedMap κ ν) (key : κ) : OrderedMap κ ν := map.filter (fun other _ => other ≠ key)

/-- Iteration from the first key that is not below `key`. -/
def itemsFrom (map : OrderedMap κ ν) (key : κ) : List (κ × ν) := map.entries.filter (fun item => key ≤ item.1)

def set (map : OrderedMap κ ν) (key : κ) (value : ν) : OrderedMap κ ν where
  entries := map.entries.filter (fun item => item.1 < key) ++
    (key,value)::map.entries.filter (fun item => key < item.1)
  ordered := by
    have below (other : κ) (inside : other ∈ (map.entries.filter (fun item => item.1 < key)).map Prod.fst) :
        other < key := by
      obtain ⟨item,member,rfl⟩ := List.mem_map.mp inside
      exact of_decide_eq_true (mem_filter.mp member).2
    have above (other : κ) (inside : other ∈ (map.entries.filter (fun item => key < item.1)).map Prod.fst) :
        key < other := by
      obtain ⟨item,member,rfl⟩ := List.mem_map.mp inside
      exact of_decide_eq_true (mem_filter.mp member).2
    rw [map_append,map_cons,pairwise_append,pairwise_cons]
    refine ⟨map.ordered.sublist (filter_sublist.map Prod.fst),
      ⟨above,map.ordered.sublist (filter_sublist.map Prod.fst)⟩,fun first low second high => ?_⟩
    rcases mem_cons.mp high with rfl | high
    · exact below first low
    · exact (below first low).trans (above second high)

theorem distinct (map : OrderedMap κ ν) : (map.entries.map Prod.fst).Nodup := map.ordered.imp (fun less => ne_of_lt less)

def toDict (map : OrderedMap κ ν) : Dict κ ν := ⟨map.entries,map.distinct⟩

theorem get?_eq_some (map : OrderedMap κ ν) (key : κ) (value : ν) :
    map.get? key = some value ↔ (key,value) ∈ map.entries := map.toDict.get?_eq_some key value

@[ext] theorem ext (first second : OrderedMap κ ν) (same : ∀ key, first.get? key = second.get? key) : first = second := by
  have members (item : κ × ν) : item ∈ first.entries ↔ item ∈ second.entries := by
    rw [← first.get?_eq_some item.1 item.2,← second.get?_eq_some item.1 item.2,same]
  have perm : first.entries.Perm second.entries :=
    (perm_ext_iff_of_nodup first.distinct.of_map second.distinct.of_map).mpr members
  have entries : first.entries = second.entries := by
    have firstOrdered : first.entries.Pairwise (fun one two => one.1 < two.1) := pairwise_map.mp first.ordered
    refine List.Perm.eq_of_pairwise ?_ firstOrdered (pairwise_map.mp second.ordered) perm
    intro one two _ _ less more
    exact absurd more (not_lt_of_gt less)
  cases first
  cases second
  cases entries
  rfl

@[simp] theorem get?_empty (key : κ) : (∅ : OrderedMap κ ν).get? key = none := rfl

theorem get?_filter (test : κ → ν → Bool) (map : OrderedMap κ ν) (key : κ) :
    (map.filter test).get? key = (map.get? key).filter (test key) := map.toDict.get?_filter test key

theorem get?_erase (map : OrderedMap κ ν) (key other : κ) :
    (map.erase key).get? other = if other = key then none else map.get? other := map.toDict.get?_erase key other

theorem get?_set (map : OrderedMap κ ν) (key other : κ) (value : ν) :
    (map.set key value).get? other = if other = key then some value else map.get? other := by
  apply Option.ext
  intro found
  rw [get?_eq_some]
  simp only [set,mem_append,mem_cons,mem_filter,decide_eq_true_eq,Prod.mk.injEq]
  by_cases same : other = key
  · simp [same,eq_comm]
  · rw [if_neg same,get?_eq_some]
    constructor
    · rintro (⟨inside,-⟩ | ⟨equal,-⟩ | ⟨inside,-⟩)
      · exact inside
      · exact absurd equal same
      · exact inside
    · intro inside
      rcases lt_or_gt_of_ne same with less | more
      · exact .inl ⟨inside,less⟩
      · exact .inr (.inr ⟨inside,more⟩)

theorem itemsFrom_takeWhile (map : OrderedMap κ ν) (start : κ) (inside : κ → Bool)
    (after : ∀ key, inside key = true → start ≤ key)
    (between : ∀ middle last, start ≤ middle → middle ≤ last → inside last = true → inside middle = true) :
    (map.itemsFrom start).takeWhile (fun item => inside item.1) = map.entries.filter (fun item => inside item.1) := by
  unfold itemsFrom
  have ordered := pairwise_map.mp map.ordered
  generalize map.entries = entries at ordered
  induction entries with
  | nil => rfl
  | cons item rest ih =>
    obtain ⟨first,ordered⟩ := pairwise_cons.mp ordered
    by_cases here : inside item.1 = true
    · rw [filter_cons_of_pos (by simpa using after item.1 here),filter_cons_of_pos (by exact here),
        takeWhile_cons_of_pos (by exact here),ih ordered]
    · have skipped : (item::rest).filter (fun item => inside item.1) = rest.filter (fun item => inside item.1) :=
        filter_cons_of_neg here
      rw [skipped]
      by_cases reached : start ≤ item.1
      · have nothing : rest.filter (fun item => inside item.1) = [] := by
          refine filter_eq_nil_iff.mpr (fun later member found => here ?_)
          exact between item.1 later.1 reached (le_of_lt (first later member)) found
        rw [filter_cons_of_pos (by simpa using reached),takeWhile_cons_of_neg (by exact here),nothing]
      · rw [filter_cons_of_neg (by simpa using reached),ih ordered]

end OrderedMap

namespace Dict
variable {κ ν : Type} [DecidableEq κ] [LinearOrder κ]

def sorted (dict : Dict κ ν) : OrderedMap κ ν where
  entries := dict.entries.insertionSort (fun first second => first.1 ≤ second.1)
  ordered := by
    have perm := perm_insertionSort (fun first second : κ × ν => first.1 ≤ second.1) dict.entries
    have total : Std.Total (fun first second : κ × ν => first.1 ≤ second.1) := ⟨fun first second => le_total first.1 second.1⟩
    have transitive : IsTrans (κ × ν) (fun first second => first.1 ≤ second.1) := ⟨fun _ _ _ => le_trans⟩
    have weak := List.pairwise_insertionSort (fun first second : κ × ν => first.1 ≤ second.1) dict.entries
    have different := (perm.map Prod.fst).nodup_iff.mpr dict.distinct
    rw [List.Nodup,pairwise_map] at different
    exact pairwise_map.mpr ((weak.and different).imp (fun both => lt_of_le_of_ne both.1 both.2))

@[simp] theorem get?_sorted (dict : Dict κ ν) (key : κ) : dict.sorted.get? key = dict.get? key := by
  apply Option.ext
  intro value
  rw [OrderedMap.get?_eq_some,Dict.get?_eq_some]
  exact (perm_insertionSort _ _).mem_iff

theorem sorted_set (dict : Dict κ ν) (key : κ) (value : ν) : (dict.set key value).sorted = dict.sorted.set key value := by
  ext1 other
  rw [get?_sorted,Dict.get?_set,OrderedMap.get?_set,get?_sorted]
  by_cases same : other = key <;> simp [same]

theorem sorted_erase (dict : Dict κ ν) (key : κ) : (dict.erase key).sorted = dict.sorted.erase key := by
  ext1 other
  rw [get?_sorted,Dict.get?_erase,OrderedMap.get?_erase,get?_sorted]
  by_cases same : other = key <;> simp [same]

theorem sorted_filter (dict : Dict κ ν) (test : κ → ν → Bool) :
    (dict.filter test).sorted = dict.sorted.filter test := by
  ext1 key
  rw [get?_sorted,get?_filter,OrderedMap.get?_filter,get?_sorted]

end Dict
end Klein
