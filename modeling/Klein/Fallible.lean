import Mathlib.Data.Option.Basic

/-! Chains of steps that may raise. -/
namespace Klein.Fallible
open List Option
variable {ε α β : Type}

theorem bind_ok {first : Except ε α} {rest : α → Except ε β} {result : β} (done : first >>= rest = .ok result) :
    ∃ value, first = .ok value ∧ rest value = .ok result := by
  cases first with
  | error raised => cases done
  | ok value => exact ⟨value,rfl,done⟩

theorem bind_ok_iff (first : Except ε α) (rest : α → Except ε β) (result : β) :
    first >>= rest = .ok result ↔ ∃ value, first = .ok value ∧ rest value = .ok result := by
  constructor
  · exact bind_ok
  · rintro ⟨value,here,later⟩
    rw [here]
    exact later

def ensure (holds : Prop) [Decidable holds] (error : ε) : Except ε Unit := if holds then .ok () else .error error

theorem ensure_ok (holds : Prop) [Decidable holds] (error : ε) (value : Unit) : ensure holds error = .ok value ↔ holds := by
  unfold ensure
  split
  next good => simp [good]
  next bad => simp [bad]

theorem ok_bind {first : Except ε α} {rest : α → Except ε β} {value : α} (done : first = .ok value) :
    first >>= rest = rest value := by
  rw [done]
  rfl

theorem map_ok {first : Except ε α} {change : α → β} {result : β} (done : first.map change = .ok result) :
    ∃ value, first = .ok value ∧ change value = result := by
  cases first with
  | error raised => cases done
  | ok value => exact ⟨value,rfl,Except.ok.inj done⟩

theorem mapM_ok (items : List α) (step : α → Except ε β) (returns : ∀ item ∈ items, ∃ value, step item = .ok value) :
    ∃ values, items.mapM step = .ok values ∧ ∀ value, value ∈ values ↔ ∃ item ∈ items, step item = .ok value := by
  induction items with
  | nil => exact ⟨[],rfl,by simp⟩
  | cons item rest ih =>
    obtain ⟨first,here⟩ := returns item mem_cons_self
    obtain ⟨values,done,spec⟩ := ih (fun other inside => returns other (mem_cons_of_mem _ inside))
    refine ⟨first::values,?_,fun value => ?_⟩
    · rw [mapM_cons,ok_bind here,ok_bind done]
      rfl
    · simp only [mem_cons,spec,exists_eq_or_imp,here,Except.ok.injEq,eq_comm (a := first)]

theorem mapM_map (items : List α) (step : α → Except ε β) (result : α → β) (returns : ∀ item ∈ items, step item = .ok (result item)) :
    items.mapM step = .ok (items.map result) := by
  induction items with
  | nil => rfl
  | cons item rest ih =>
    obtain ⟨here,later⟩ := forall_mem_cons.mp returns
    rw [mapM_cons,ok_bind here,ok_bind (ih later)]
    rfl

section
variable {κ : Type} (items : List α) (step : α → Except ε β) (read : β → κ) (expected : α → κ)
include items step read expected

theorem mapM_reads (returns : ∀ item ∈ items, ∃ value, step item = .ok value ∧ read value = expected item) :
    ∃ values, items.mapM step = .ok values ∧ values.map read = items.map expected := by
  induction items with
  | nil => exact ⟨[],rfl,rfl⟩
  | cons item rest ih =>
    obtain ⟨⟨value,here,same⟩,later⟩ := forall_mem_cons.mp returns
    obtain ⟨values,done,reads⟩ := ih later
    refine ⟨value::values,?_,?_⟩
    · rw [mapM_cons,ok_bind here,ok_bind done]
      rfl
    · rw [map_cons,map_cons,same,reads]

theorem map_of_mapM_ok (reads : ∀ item value, step item = .ok value → read value = expected item) (values : List β)
    (done : items.mapM step = .ok values) : values.map read = items.map expected := by
  induction items generalizing values with
  | nil =>
    cases done
    rfl
  | cons item rest ih =>
    rw [mapM_cons] at done
    obtain ⟨first,here,done⟩ := bind_ok done
    obtain ⟨others,later,same⟩ := bind_ok done
    cases same
    rw [map_cons,map_cons,reads item first here,ih others later]

end

section
variable (items : List α) (step : α → Except ε β) (values : List β) (done : items.mapM step = .ok values)
include done

theorem of_mapM_ok :
    ∀ item ∈ items, ∃ value, step item = .ok value := by
  induction items generalizing values with
  | nil => simp
  | cons item rest ih =>
    rw [mapM_cons] at done
    obtain ⟨first,here,done⟩ := bind_ok done
    obtain ⟨others,later,-⟩ := bind_ok done
    exact forall_mem_cons.mpr ⟨⟨first,here⟩,ih others later⟩

theorem mem_of_mapM_ok :
    ∀ value ∈ values, ∃ item ∈ items, step item = .ok value := by
  induction items generalizing values with
  | nil =>
    cases done
    simp
  | cons item rest ih =>
    rw [mapM_cons] at done
    obtain ⟨first,here,done⟩ := bind_ok done
    obtain ⟨others,later,same⟩ := bind_ok done
    cases same
    refine forall_mem_cons.mpr ⟨⟨item,mem_cons_self,here⟩,fun value inside => ?_⟩
    obtain ⟨other,within,returned⟩ := ih others later value inside
    exact ⟨other,mem_cons_of_mem _ within,returned⟩

end

theorem mapM_at {γ : Type} (items : List α) (step : α → Except ε γ) (change : β → γ) (result : α → β → Prop)
    (returns : ∀ item ∈ items, ∃ value, step item = .ok (change value) ∧ result item value) :
    ∃ values : List β, items.mapM step = .ok (values.map change) ∧ values.length = items.length ∧
      ∀ (index : Nat) item value, items[index]? = some item → values[index]? = some value → result item value := by
  induction items with
  | nil => exact ⟨[],rfl,rfl,fun index item value absent => by simp at absent⟩
  | cons item rest ih =>
    obtain ⟨first,here,good⟩ := returns item mem_cons_self
    obtain ⟨values,done,length,spec⟩ := ih (fun other inside => returns other (mem_cons_of_mem _ inside))
    refine ⟨first::values,?_,by simp [length],fun index other value found returned => ?_⟩
    · rw [mapM_cons,ok_bind here,ok_bind done]
      rfl
    · cases index with
      | zero =>
        obtain rfl := some.inj found
        obtain rfl := some.inj returned
        exact good
      | succ index => exact spec index other value found returned

end Klein.Fallible
