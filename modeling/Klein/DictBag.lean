import Mathlib.Data.List.Perm.Basic
import Mathlib.Data.List.Perm.Subperm
import Klein.Dict

/-! Dictionaries as bags of items: how each operation rearranges the items of a
dictionary, and the values of a dictionary of dictionaries. -/
namespace Klein.Dict
open List

variable {κ ι ν : Type} [DecidableEq κ]

theorem erase_perm (dict : Dict κ ν) (key : κ) (value : ν) (found : dict.get? key = some value) :
    dict.entries.Perm ((key,value)::(dict.erase key).entries) := by
  have member := (get?_eq_some dict key value).mp found
  obtain ⟨first,second,split⟩ := append_of_mem member
  have distinct := dict.distinct
  rw [split,map_append,map_cons,nodup_middle,nodup_cons,← map_append] at distinct
  have others (item : κ × ν) (inside : item ∈ first ++ second) : item.1 ≠ key := fun same =>
    distinct.1 (same ▸ List.mem_map.mpr ⟨item,inside,rfl⟩)
  have rest : (dict.erase key).entries = first ++ second := by
    simp only [erase,filter,split,filter_append,filter_cons]
    simp only [ne_eq,not_true_eq_false,decide_false,Bool.false_eq_true,if_false]
    rw [← filter_append]
    exact List.filter_eq_self.mpr (fun item inside => by simpa using others item inside)
  rw [rest,split]
  exact perm_middle

theorem erase_of_get?_none (dict : Dict κ ν) (key : κ) (absent : dict.get? key = none) : dict.erase key = dict :=
  erase_of_absent dict key (by rw [contains_eq_isSome,absent]; rfl)

theorem set_perm (dict : Dict κ ν) (key : κ) (value : ν) :
    (dict.set key value).entries.Perm ((key,value)::(dict.erase key).entries) := by
  have assigned := erase_perm (dict.set key value) key value (by simp)
  have same : ((dict.set key value).erase key).entries.Perm (dict.erase key).entries := by
    refine (perm_ext_iff_of_nodup ?_ ?_).mpr (fun item => ?_)
    · exact ((dict.set key value).erase key).distinct.of_map
    · exact (dict.erase key).distinct.of_map
    · rw [← get?_eq_some,← get?_eq_some]
      simp only [get?_erase,get?_set]
      split <;> simp_all
  exact assigned.trans (same.cons _)

theorem filterMap_perm {μ : Type} (dict : Dict κ ν) (key : κ) (draw : κ × ν → Option μ) :
    (dict.entries.filterMap draw).Perm
      (((dict.get? key).bind (fun value => draw (key,value))).toList ++ (dict.erase key).entries.filterMap draw) := by
  cases found : dict.get? key with
  | none =>
    rw [erase_of_get?_none dict key found]
    exact List.Perm.refl _
  | some value =>
    refine ((erase_perm dict key value found).filterMap draw).trans ?_
    rw [filterMap_cons]
    cases drawn : draw (key,value) with
    | none => simp [drawn]
    | some result => simp [drawn]

theorem filterMap_set {μ : Type} (dict : Dict κ ν) (key : κ) (value : ν) (draw : κ × ν → Option μ) :
    ((dict.set key value).entries.filterMap draw).Perm
      ((draw (key,value)).toList ++ (dict.erase key).entries.filterMap draw) := by
  refine ((set_perm dict key value).filterMap draw).trans ?_
  rw [filterMap_cons]
  cases draw (key,value) <;> simp

theorem get?_update_of_not_mem (dict : Dict κ ν) (items : List (κ × ν)) (key : κ) (absent : key ∉ items.map Prod.fst) :
    (dict.update items).get? key = dict.get? key := by
  induction items generalizing dict with
  | nil => rfl
  | cons item rest ih =>
    have different : key ≠ item.1 := fun same => absent (by simp [same])
    exact (ih (dict.set item.1 item.2) (fun inside => absent (by simp only [map_cons,mem_cons,inside,or_true]))).trans
      (by simp [different])

theorem update_perm (dict : Dict κ ν) (items : List (κ × ν)) (distinct : (items.map Prod.fst).Nodup)
    (fresh : ∀ key ∈ items.map Prod.fst, dict.get? key = none) :
    (dict.update items).entries.Perm (dict.entries ++ items) := by
  induction items generalizing dict with
  | nil => simp
  | cons item rest ih =>
    obtain ⟨absent,remaining⟩ := nodup_cons.mp distinct
    have added : (dict.set item.1 item.2).entries.Perm (item::dict.entries) := by
      have own := set_perm dict item.1 item.2
      rwa [erase_of_get?_none dict item.1 (fresh item.1 (by simp))] at own
    have later := ih (dict.set item.1 item.2) remaining (fun key inside => by
      have different : key ≠ item.1 := fun same => absent (same ▸ inside)
      simpa [different] using fresh key (mem_cons_of_mem _ inside))
    refine later.trans ((added.append_right rest).trans ?_)
    exact perm_middle.symm

def flat (dict : Dict κ (Dict ι ν)) : List ν := dict.values.flatMap values

theorem mem_flat [DecidableEq ι] (dict : Dict κ (Dict ι ν)) (value : ν) :
    value ∈ dict.flat ↔ ∃ key inner index, dict.get? key = some inner ∧ inner.get? index = some value := by
  simp only [flat,mem_flatMap,mem_values]
  constructor
  · rintro ⟨inner,⟨key,found⟩,index,stored⟩
    exact ⟨key,inner,index,found,stored⟩
  · rintro ⟨key,inner,index,found,stored⟩
    exact ⟨inner,⟨key,found⟩,index,stored⟩

theorem flat_erase (dict : Dict κ (Dict ι ν)) (key : κ) :
    dict.flat.Perm (((dict.get? key).getD ∅).values ++ (dict.erase key).flat) := by
  cases found : dict.get? key with
  | none =>
    rw [erase_of_get?_none dict key found]
    exact List.Perm.refl _
  | some inner => exact ((erase_perm dict key inner found).map Prod.snd).flatMap_right _

theorem flat_set (dict : Dict κ (Dict ι ν)) (key : κ) (inner : Dict ι ν) :
    (dict.set key inner).flat.Perm (inner.values ++ (dict.erase key).flat) :=
  ((set_perm dict key inner).map Prod.snd).flatMap_right _

theorem flat_setInner [DecidableEq ι] (dict : Dict κ (Dict ι ν)) (key : κ) (index : ι) (value : ν)
    (fresh : ((dict.get? key).getD ∅).get? index = none) :
    (dict.setInner key index value).flat.Perm (value::dict.flat) := by
  have inner := (set_perm ((dict.get? key).getD ∅) index value).map Prod.snd
  rw [erase_of_get?_none _ index fresh] at inner
  refine (flat_set dict key _).trans ((inner.append_right _).trans ?_)
  exact ((flat_erase dict key).symm).cons value

theorem flat_setInner_of_some [DecidableEq ι] (dict : Dict κ (Dict ι ν)) (key : κ) (index : ι) (old value : ν)
    (found : ((dict.get? key).getD ∅).get? index = some old) :
    ∃ rest, dict.flat.Perm (old::rest) ∧ (dict.setInner key index value).flat.Perm (value::rest) := by
  have before := (erase_perm ((dict.get? key).getD ∅) index old found).map Prod.snd
  have after := (set_perm ((dict.get? key).getD ∅) index value).map Prod.snd
  exact ⟨_,(flat_erase dict key).trans (before.append_right _),(flat_set dict key _).trans (after.append_right _)⟩

theorem flat_filter (dict : Dict κ (Dict ι ν)) (keys : List κ) (distinct : keys.Nodup) :
    dict.flat.Perm (keys.flatMap (fun key => ((dict.get? key).getD ∅).values) ++
      (dict.filter (fun key _ => key ∉ keys)).flat) := by
  induction keys generalizing dict with
  | nil =>
    have whole : dict.filter (fun key _ => key ∉ ([] : List κ)) = dict := filter_eq_self _ dict (by simp)
    rw [whole]
    exact List.Perm.refl _
  | cons key rest ih =>
    obtain ⟨absent,remaining⟩ := nodup_cons.mp distinct
    have taken : rest.flatMap (fun other => (((dict.erase key).get? other).getD ∅).values) =
        rest.flatMap (fun other => ((dict.get? other).getD ∅).values) := by
      refine flatMap_congr (fun other inside => ?_)
      have different : other ≠ key := fun same => absent (same ▸ inside)
      simp [different]
    have left : (dict.erase key).filter (fun other _ => other ∉ rest) =
        dict.filter (fun other _ => other ∉ key::rest) := by
      ext1
      simp only [erase,filter,List.filter_filter]
      refine List.filter_congr (fun item _ => ?_)
      simp [Bool.and_comm]
    have later := ih (dict.erase key) remaining
    rw [taken,left] at later
    rw [flatMap_cons,append_assoc]
    exact (flat_erase dict key).trans (later.append_left _)

theorem push_perm (dict : Dict κ (List ν)) (key : κ) (value : ν) :
    (dict.push key value).values.flatten.Perm (value::dict.values.flatten) := by
  have after := ((set_perm dict key ((dict.get? key).getD [] ++ [value])).map Prod.snd).flatten
  have before : dict.values.flatten.Perm ((dict.get? key).getD [] ++ (dict.erase key).values.flatten) := by
    cases found : dict.get? key with
    | none =>
      rw [erase_of_get?_none dict key found]
      exact List.Perm.refl _
    | some inner => exact ((erase_perm dict key inner found).map Prod.snd).flatten
  refine after.trans ?_
  simp only [map_cons,flatten_cons,append_assoc,singleton_append]
  exact perm_middle.trans (before.symm.cons value)

theorem foldl_push_perm (key : ν → κ) (items : List ν) (dict : Dict κ (List ν)) :
    (items.foldl (fun groups item => groups.push (key item) item) dict).values.flatten.Perm
      (dict.values.flatten ++ items) := by
  induction items generalizing dict with
  | nil => simp
  | cons item rest ih =>
    refine (ih (dict.push (key item) item)).trans (((push_perm dict (key item) item).append_right rest).trans ?_)
    exact perm_middle.symm

theorem foldl_setInner_perm [DecidableEq ι] (items : List (κ × ι × ν)) (dict : Dict κ (Dict ι ν))
    (distinct : (items.map (fun item => item.2.1)).Nodup)
    (fresh : ∀ item ∈ items, ∀ key, ((dict.get? key).getD ∅).get? item.2.1 = none) :
    (items.foldl (fun acc item => acc.setInner item.1 item.2.1 item.2.2) dict).flat.Perm
        (dict.flat ++ items.map (fun item => item.2.2)) ∧
      ∀ key inner index value,
        (items.foldl (fun acc item => acc.setInner item.1 item.2.1 item.2.2) dict).get? key = some inner →
        inner.get? index = some value →
        ((dict.get? key).getD ∅).get? index = some value ∨ (key,index,value) ∈ items := by
  induction items generalizing dict with
  | nil =>
    refine ⟨by simp,fun key inner index value found stored => .inl ?_⟩
    rw [foldl_nil] at found
    simp [found,stored]
  | cons item rest ih =>
    obtain ⟨absent,remaining⟩ := nodup_cons.mp distinct
    have stored (key : κ) (index : ι) : (((dict.setInner item.1 item.2.1 item.2.2).get? key).getD ∅).get? index =
        if key = item.1 ∧ index = item.2.1 then some item.2.2 else ((dict.get? key).getD ∅).get? index := by
      rw [setInner,get?_set]
      by_cases outer : key = item.1
      · subst outer
        simp
      · simp [outer]
    obtain ⟨perm,items⟩ := ih (dict.setInner item.1 item.2.1 item.2.2) remaining (fun other inside key => by
      have different : other.2.1 ≠ item.2.1 := fun same =>
        absent (List.mem_map.mpr ⟨other,inside,same⟩)
      rw [stored,if_neg (fun both => different both.2)]
      exact fresh other (mem_cons_of_mem _ inside) key)
    constructor
    · have placed := flat_setInner dict item.1 item.2.1 item.2.2 (fresh item (by simp) item.1)
      refine perm.trans ((placed.append_right _).trans ?_)
      exact perm_middle.symm
    · intro key inner index value found held
      rcases items key inner index value found held with old | new
      · rw [stored] at old
        split at old
        next both =>
          cases old
          rw [both.1,both.2]
          exact .inr (by simp)
        next => exact .inl old
      · exact .inr (mem_cons_of_mem _ new)

end Klein.Dict
