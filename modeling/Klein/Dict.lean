import Mathlib.Data.List.Nodup
import Mathlib.Data.List.Basic

/-! Insertion-ordered dictionaries. Assigning to a present key keeps its
position, assigning to a new key appends it, and iteration follows the order of
insertion. The keys of a dictionary are distinct by construction. -/
namespace Klein
open List Option

structure Dict (κ ν : Type) where
  entries : List (κ × ν)
  distinct : (entries.map Prod.fst).Nodup
deriving DecidableEq

namespace Dict
variable {κ ν : Type}

def empty : Dict κ ν := ⟨[],nodup_nil⟩

instance : EmptyCollection (Dict κ ν) := ⟨empty⟩
instance : Inhabited (Dict κ ν) := ⟨empty⟩

def keys (dict : Dict κ ν) : List κ := dict.entries.map Prod.fst
def values (dict : Dict κ ν) : List ν := dict.entries.map Prod.snd
def isEmpty (dict : Dict κ ν) : Bool := dict.entries.isEmpty

def filter (test : κ → ν → Bool) (dict : Dict κ ν) : Dict κ ν where
  entries := dict.entries.filter (fun item => test item.1 item.2)
  distinct := dict.distinct.sublist (filter_sublist.map Prod.fst)

def mapValues {μ : Type} (change : κ → ν → μ) (dict : Dict κ ν) : Dict κ μ where
  entries := dict.entries.map (fun item => (item.1,change item.1 item.2))
  distinct := by
    rw [List.map_map]
    exact dict.distinct

def dropFirst (count : Nat) (dict : Dict κ ν) : Dict κ ν where
  entries := dict.entries.drop count
  distinct := dict.distinct.sublist ((drop_sublist count _).map Prod.fst)

@[ext] theorem ext (first second : Dict κ ν) (same : first.entries = second.entries) : first = second := by
  cases first
  cases second
  cases same
  rfl

theorem filter_eq_self (test : κ → ν → Bool) (dict : Dict κ ν) (all : ∀ item ∈ dict.entries, test item.1 item.2 = true) :
    dict.filter test = dict := by
  ext1
  exact List.filter_eq_self.mpr all

theorem filter_congr (first second : κ → ν → Bool) (dict : Dict κ ν)
    (same : ∀ item ∈ dict.entries, first item.1 item.2 = second item.1 item.2) : dict.filter first = dict.filter second := by
  ext1
  exact List.filter_congr same

theorem filter_filter (first second : κ → ν → Bool) (dict : Dict κ ν) :
    (dict.filter second).filter first = dict.filter (fun key value => first key value && second key value) := by
  ext1
  exact List.filter_filter

variable [DecidableEq κ]

def get? (dict : Dict κ ν) (key : κ) : Option ν :=
  (dict.entries.find? (fun item => item.1 = key)).map Prod.snd

def contains (dict : Dict κ ν) (key : κ) : Bool := dict.entries.any (fun item => item.1 = key)

private theorem distinct_append (entries : List (κ × ν)) (key : κ) (value : ν)
    (distinct : (entries.map Prod.fst).Nodup) (absent : ¬ (entries.any (fun item => item.1 = key)) = true) :
    ((entries ++ [(key,value)]).map Prod.fst).Nodup := by
  rw [map_append]
  refine distinct.append (nodup_singleton _) ?_
  intro other inside found
  obtain ⟨item,member,equal⟩ := List.mem_map.mp inside
  apply absent
  have same : other = key := by simpa using found
  exact List.any_eq_true.mpr ⟨item,member,by simp [equal,same]⟩

/-- `dict[key] = value` -/
def set (dict : Dict κ ν) (key : κ) (value : ν) : Dict κ ν :=
  if present : dict.contains key then
    ⟨dict.entries.map (fun item => if item.1 = key then (item.1,value) else item),by
      have same : (dict.entries.map (fun item => if item.1 = key then (item.1,value) else item)).map Prod.fst =
          dict.entries.map Prod.fst := by
        rw [List.map_map]
        apply map_congr_left
        intro item _
        by_cases equal : item.1 = key <;> simp [equal]
      rw [same]
      exact dict.distinct⟩
  else ⟨dict.entries ++ [(key,value)],distinct_append dict.entries key value dict.distinct present⟩

/-- `dict.pop(key, None)`, without the value. -/
def erase (dict : Dict κ ν) (key : κ) : Dict κ ν := dict.filter (fun other _ => other ≠ key)

/-- `dict.update(items)` -/
def update (dict : Dict κ ν) (items : List (κ × ν)) : Dict κ ν :=
  items.foldl (fun acc item => acc.set item.1 item.2) dict

def ofList (items : List (κ × ν)) : Dict κ ν := empty.update items

/-- `dict.setdefault(key, {})[inner] = value` -/
def setInner {ι : Type} [DecidableEq ι] (dict : Dict κ (Dict ι ν)) (key : κ) (inner : ι) (value : ν) :
    Dict κ (Dict ι ν) :=
  dict.set key (((dict.get? key).getD ∅).set inner value)

/-- `dict.setdefault(key, []).append(value)` -/
def push (dict : Dict κ (List ν)) (key : κ) (value : ν) : Dict κ (List ν) :=
  dict.set key ((dict.get? key).getD [] ++ [value])

theorem find_of_mem (entries : List (κ × ν)) (distinct : (entries.map Prod.fst).Nodup)
    (key : κ) (value : ν) (member : (key,value) ∈ entries) :
    entries.find? (fun item => item.1 = key) = some (key,value) := by
  induction entries with
  | nil => simp at member
  | cons item rest ih =>
    have nodup := nodup_cons.mp distinct
    rcases mem_cons.mp member with rfl | inside
    · simp
    · have other : item.1 ≠ key := by
        intro equal
        exact nodup.1 (equal ▸ List.mem_map.mpr ⟨(key,value),inside,rfl⟩)
      simpa [other] using ih nodup.2 inside

section
variable (dict : Dict κ ν)
include dict

theorem get?_eq_some (key : κ) (value : ν) :
    dict.get? key = some value ↔ (key,value) ∈ dict.entries := by
  constructor
  · intro found
    obtain ⟨item,lookup,same⟩ := map_eq_some_iff.mp found
    have selected : item.1 = key := by simpa using find?_some lookup
    have member := mem_of_find?_eq_some lookup
    rw [← selected,← same]
    exact member
  · intro member
    simp [get?,find_of_mem dict.entries dict.distinct key value member]

theorem contains_eq_isSome (key : κ) : dict.contains key = (dict.get? key).isSome := by
  rw [Bool.eq_iff_iff]
  simp [contains,get?,find?_isSome]

theorem mem_keys (key : κ) : key ∈ dict.keys ↔ ∃ value, dict.get? key = some value := by
  rw [← isSome_iff_exists,← contains_eq_isSome]
  simp [contains,keys]

theorem get?_eq_none (key : κ) : dict.get? key = none ↔ key ∉ dict.keys := by
  rw [mem_keys,not_exists,eq_none_iff_forall_ne_some]

theorem mem_values (value : ν) : value ∈ dict.values ↔ ∃ key, dict.get? key = some value := by
  constructor
  · intro member
    obtain ⟨item,inside,rfl⟩ := List.mem_map.mp member
    exact ⟨item.1,(get?_eq_some dict _ _).mpr inside⟩
  · rintro ⟨key,found⟩
    exact List.mem_map.mpr ⟨(key,value),(get?_eq_some dict _ _).mp found,rfl⟩

theorem isEmpty_iff : dict.isEmpty = true ↔ ∀ key, dict.get? key = none := by
  simp only [isEmpty,List.isEmpty_iff,get?_eq_none,keys]
  constructor
  · intro nothing key
    simp [nothing]
  · intro absent
    cases entries : dict.entries with
    | nil => rfl
    | cons item rest => exact absurd (by simp [entries]) (absent item.1)

end

@[simp] theorem get?_empty (key : κ) : (∅ : Dict κ ν).get? key = none := rfl

@[simp] theorem get?_filter (test : κ → ν → Bool) (dict : Dict κ ν) (key : κ) :
    (dict.filter test).get? key = (dict.get? key).filter (test key) := by
  apply Option.ext
  intro value
  rw [get?_eq_some]
  simp [filter,get?_eq_some]

section
variable (dict : Dict κ ν) (key other : κ)
include dict key other

@[simp] theorem get?_erase :
    (dict.erase key).get? other = if other = key then none else dict.get? other := by
  by_cases same : other = key
  · simp [erase,same]
  · cases found : dict.get? other <;> simp [erase,same,found]

theorem mem_set (value result : ν) :
    (other,result) ∈ (dict.set key value).entries ↔
      (other = key ∧ result = value) ∨ (other ≠ key ∧ (other,result) ∈ dict.entries) := by
  unfold set
  split
  next present =>
    obtain ⟨old,found⟩ := isSome_iff_exists.mp ((contains_eq_isSome dict key).symm.trans present)
    have member := (get?_eq_some dict key old).mp found
    simp only [List.mem_map]
    constructor
    · rintro ⟨item,inside,equal⟩
      by_cases same : item.1 = key
      · simp only [same,if_true,Prod.mk.injEq] at equal
        exact .inl ⟨equal.1.symm,equal.2.symm⟩
      · simp only [same,if_false] at equal
        subst equal
        exact .inr ⟨same,inside⟩
    · rintro (⟨rfl,rfl⟩ | ⟨different,inside⟩)
      · exact ⟨(other,old),member,by simp⟩
      · exact ⟨(other,result),inside,by simp [different]⟩
  next absent =>
    have missing : ∀ item ∈ dict.entries, item.1 ≠ key := by
      intro item inside equal
      exact absent (List.any_eq_true.mpr ⟨item,inside,by simp [equal]⟩)
    simp only [mem_append,mem_singleton,Prod.mk.injEq]
    constructor
    · rintro (inside | equal)
      · exact .inr ⟨missing _ inside,inside⟩
      · exact .inl equal
    · rintro (equal | ⟨_,inside⟩)
      · exact .inr equal
      · exact .inl inside

@[simp] theorem get?_set (value : ν) :
    (dict.set key value).get? other = if other = key then some value else dict.get? other := by
  apply Option.ext
  intro result
  rw [get?_eq_some,mem_set]
  by_cases same : other = key
  · simp [same,eq_comm]
  · simp [same,get?_eq_some]

end

theorem erase_of_absent (dict : Dict κ ν) (key : κ) (absent : dict.contains key = false) : dict.erase key = dict := by
  refine filter_eq_self _ dict (fun item inside => ?_)
  have different := List.any_eq_false.mp absent item inside
  simpa using different

@[simp] theorem get?_mapValues {μ : Type} (change : κ → ν → μ) (dict : Dict κ ν) (key : κ) :
    (dict.mapValues change).get? key = (dict.get? key).map (change key) := by
  apply Option.ext
  intro value
  rw [get?_eq_some,map_eq_some_iff]
  constructor
  · intro member
    obtain ⟨item,inside,same⟩ := List.mem_map.mp member
    cases same
    exact ⟨item.2,(get?_eq_some dict _ _).mpr inside,rfl⟩
  · rintro ⟨old,found,rfl⟩
    exact List.mem_map.mpr ⟨(key,old),(get?_eq_some dict _ _).mp found,rfl⟩

@[simp] theorem update_nil (dict : Dict κ ν) : dict.update [] = dict := rfl

theorem get?_update_cases (dict : Dict κ ν) (items : List (κ × ν)) (key : κ) (value : ν)
    (found : (dict.update items).get? key = some value) : dict.get? key = some value ∨ (key,value) ∈ items := by
  induction items generalizing dict with
  | nil => exact .inl found
  | cons item rest ih =>
    rcases ih (dict.set item.1 item.2) found with old | later
    · rw [get?_set] at old
      split at old
      next same =>
        cases old
        exact .inr (by simp [same])
      next => exact .inl old
    · exact .inr (mem_cons_of_mem _ later)

theorem get?_update (dict other : Dict κ ν) (key : κ) :
    (dict.update other.entries).get? key = (other.get? key).or (dict.get? key) := by
  have general (items : List (κ × ν)) (distinct : (items.map Prod.fst).Nodup) (dict : Dict κ ν) :
      (dict.update items).get? key = ((items.find? (fun item => item.1 = key)).map Prod.snd).or (dict.get? key) := by
    induction items generalizing dict with
    | nil => rfl
    | cons item rest ih =>
      obtain ⟨absent,distinct⟩ := nodup_cons.mp distinct
      rw [update,foldl_cons,← update,ih distinct,get?_set]
      by_cases same : item.1 = key
      · have missing : rest.find? (fun item => item.1 = key) = none := by
          refine find?_eq_none.mpr (fun later inside found => absent ?_)
          have equal : later.1 = key := by simpa using found
          exact List.mem_map.mpr ⟨later,inside,equal.trans same.symm⟩
        simp [same,missing]
      · simp [same,Ne.symm same]
  exact general other.entries other.distinct dict

theorem get?_ofList (items : List (κ × ν)) (key : κ) (value : ν) (found : (ofList items).get? key = some value) :
    (key,value) ∈ items := (get?_update_cases empty items key value found).resolve_left (by simp [get?,empty])

theorem get?_ofKeys (keys : List κ) (value : κ → ν) (key : κ) :
    (ofList (keys.map (fun other => (other,value other)))).get? key = if key ∈ keys then some (value key) else none := by
  have general (dict : Dict κ ν) : (dict.update (keys.map (fun other => (other,value other)))).get? key =
      if key ∈ keys then some (value key) else dict.get? key := by
    induction keys generalizing dict with
    | nil => rfl
    | cons other rest ih =>
      rw [map_cons,update,foldl_cons,← update,ih (dict.set other (value other)),get?_set]
      by_cases later : key ∈ rest
      · simp [later]
      · by_cases same : key = other <;> simp [later,same]
  exact general empty

theorem filter_erase (test : κ → ν → Bool) (dict : Dict κ ν) (key : κ) :
    (dict.erase key).filter test = (dict.filter test).erase key := by
  unfold erase
  rw [filter_filter,filter_filter]
  exact filter_congr _ _ dict (fun item _ => Bool.and_comm _ _)

theorem entries_set (dict : Dict κ ν) (key : κ) (value : ν) : (dict.set key value).entries =
    if dict.contains key then dict.entries.map (fun item => if item.1 = key then (item.1,value) else item)
    else dict.entries ++ [(key,value)] := by
  unfold set
  split <;> rfl

theorem ofList_entries (dict : Dict κ ν) : ofList dict.entries = dict := by
  have general (items : List (κ × ν)) (before : Dict κ ν) (distinct : ((before.entries ++ items).map Prod.fst).Nodup) :
      (before.update items).entries = before.entries ++ items := by
    induction items generalizing before with
    | nil => exact (append_nil _).symm
    | cons item rest ih =>
      have absent : ¬ before.contains item.1 = true := by
        intro present
        obtain ⟨other,inside,same⟩ := List.any_eq_true.mp present
        rw [map_append,nodup_append'] at distinct
        refine distinct.2.2 (List.mem_map_of_mem inside) (List.mem_map.mpr ⟨item,mem_cons_self,?_⟩)
        simpa [eq_comm] using same
      have appended : (before.set item.1 item.2).entries = before.entries ++ [item] := (entries_set _ _ _).trans (if_neg absent)
      have split : before.entries ++ item::rest = (before.entries ++ [item]) ++ rest := (append_cons _ _ _)
      rw [update,foldl_cons,← update,ih _ (by rw [appended,← split]; exact distinct),appended,← split]
  ext1
  exact general dict.entries empty dict.distinct

theorem ext_keys (first second : Dict κ ν) (keys : first.keys = second.keys)
    (values : ∀ key ∈ first.keys, first.get? key = second.get? key) : first = second := by
  have length : first.entries.length = second.entries.length := by simpa [Dict.keys] using congrArg List.length keys
  ext1
  refine ext_getElem length (fun index here there => ?_)
  have key : first.entries[index].1 = second.entries[index].1 := by
    have at' := congrArg (fun keys => keys[index]?) keys
    simpa [Dict.keys,here,there] using at'
  have inside : (first.entries[index].1,first.entries[index].2) ∈ first.entries := getElem_mem here
  have inside' : (first.entries[index].1,second.entries[index].2) ∈ second.entries := by
    rw [key]
    exact getElem_mem there
  have value := values _ (List.mem_map_of_mem inside)
  rw [(get?_eq_some first _ _).mpr inside,(get?_eq_some second _ _).mpr inside'] at value
  exact Prod.ext key (some.inj value)

theorem mapValues_set {μ : Type} (change : κ → ν → μ) (dict : Dict κ ν) (key : κ) (value : ν) :
    (dict.set key value).mapValues change = (dict.mapValues change).set key (change key value) := by
  ext1
  have contains : (dict.mapValues change).contains key = dict.contains key := by
    rw [contains_eq_isSome,contains_eq_isSome,get?_mapValues,isSome_map]
  rw [entries_set,contains]
  change (dict.set key value).entries.map _ = _
  rw [entries_set]
  split
  · change List.map _ (List.map _ _) = List.map _ (List.map _ _)
    rw [List.map_map,List.map_map]
    apply map_congr_left
    intro item _
    by_cases same : item.1 = key <;> simp [same]
  · rw [map_append]
    rfl

theorem mapValues_ofList {μ : Type} (change : κ → ν → μ) (items : List (κ × ν)) :
    (ofList items).mapValues change = ofList (items.map (fun item => (item.1,change item.1 item.2))) := by
  have general (dict : Dict κ ν) : (dict.update items).mapValues change =
      (dict.mapValues change).update (items.map (fun item => (item.1,change item.1 item.2))) := by
    induction items generalizing dict with
    | nil => rfl
    | cons item rest ih =>
      rw [update,foldl_cons,← update,ih,mapValues_set]
      rfl
  exact general empty

section tests
variable (test : κ → Bool) (dict : Dict κ ν) (key : κ) (value : ν)

private theorem filter_entries_set : (dict.set key value).entries.filter (fun item => test item.1) =
    if dict.contains key then (dict.entries.filter (fun item => test item.1)).map
      (fun item => if item.1 = key then (item.1,value) else item)
    else dict.entries.filter (fun item => test item.1) ++ [(key,value)].filter (fun item => test item.1) := by
  rw [entries_set]
  split
  next =>
    rw [List.filter_map]
    congr 1
    refine List.filter_congr (fun item _ => ?_)
    change test (if item.1 = key then (item.1,value) else item).1 = _
    split <;> rfl
  next => exact filter_append _ _

theorem filter_set_of_pos (passes : test key = true) : (dict.set key value).filter (fun other _ => test other) =
    (dict.filter (fun other _ => test other)).set key value := by
  have present : (dict.filter (fun other _ => test other)).contains key = dict.contains key := by
    rw [contains_eq_isSome,contains_eq_isSome,get?_filter]
    cases dict.get? key <;> simp [passes]
  ext1
  rw [entries_set,present]
  refine (filter_entries_set test dict key value).trans ?_
  rw [filter_cons_of_pos (by exact passes)]
  rfl

theorem filter_set_of_neg (fails : test key = false) : (dict.set key value).filter (fun other _ => test other) =
    dict.filter (fun other _ => test other) := by
  ext1
  refine (filter_entries_set test dict key value).trans ?_
  rw [filter_cons_of_neg (by simp [fails])]
  split
  next =>
    refine (map_congr_left (fun item inside => ?_)).trans (List.map_id _)
    have other : item.1 ≠ key := fun same => by
      have kept := (mem_filter.mp inside).2
      rw [same,fails] at kept
      contradiction
    exact if_neg other
  next => exact append_nil _

end tests

theorem foldl_erase (dict : Dict κ ν) (keys : List κ) : keys.foldl erase dict = dict.filter (fun key _ => decide (key ∉ keys)) := by
  induction keys generalizing dict with
  | nil => exact (filter_eq_self _ dict (by simp)).symm
  | cons key rest ih =>
    rw [foldl_cons,ih,erase,filter_filter]
    exact filter_congr _ _ dict (fun item _ => by simp [Bool.and_comm])

end Dict
end Klein
