import Mathlib.Data.Set.Insert

/-! First-in first-out streams of items and marks. A mark promises something
about the items that left the stream before it, so a stream is sound when every
mark is covered by what was seen before the stream together with the items ahead
of the mark. -/
namespace Klein.MarkStream

inductive Entry (β μ : Type) where
  | item (value : β)
  | mark (level : μ)

variable {β μ : Type}

def items : List (Entry β μ) → Set β
  | [] => ∅
  | .item value::rest => insert value (items rest)
  | .mark _::rest => items rest

def Met (covers : Set β → μ → Prop) (seen : Set β) : List (Entry β μ) → Prop
  | [] => True
  | .item value::rest => Met covers (insert value seen) rest
  | .mark level::rest => covers seen level ∧ Met covers seen rest

def Monotone (covers : Set β → μ → Prop) : Prop :=
  ∀ (small large : Set β) (level : μ), small ⊆ large → covers small level → covers large level

theorem items_append (first second : List (Entry β μ)) : items (first ++ second) = items first ∪ items second := by
  induction first with
  | nil => simp [items]
  | cons entry rest ih =>
    cases entry with
    | item value => simp [items,ih,Set.insert_union]
    | mark level => simp [items,ih]

theorem Met.mono (covers : Set β → μ → Prop) (monotone : Monotone covers) (entries : List (Entry β μ))
    (small large : Set β) (within : small ⊆ large) (met : Met covers small entries) : Met covers large entries := by
  induction entries generalizing small large with
  | nil => trivial
  | cons entry rest ih =>
    cases entry with
    | item value => exact ih _ _ (Set.insert_subset_insert within) met
    | mark level => exact ⟨monotone _ _ level within met.1,ih _ _ within met.2⟩

theorem met_append (covers : Set β → μ → Prop) (seen : Set β) (first second : List (Entry β μ)) :
    Met covers seen (first ++ second) ↔ Met covers seen first ∧ Met covers (seen ∪ items first) second := by
  induction first generalizing seen with
  | nil => simp [Met,items]
  | cons entry rest ih =>
    cases entry with
    | item value =>
      simp only [List.cons_append,Met,ih,items]
      rw [Set.insert_union,Set.union_insert]
    | mark level => simp only [List.cons_append,Met,ih,items,and_assoc]

theorem items_marks (levels : List μ) : items (levels.map (.mark : μ → Entry β μ)) = ∅ := by
  induction levels with
  | nil => rfl
  | cons level rest ih => exact ih

theorem met_marks (covers : Set β → μ → Prop) (seen : Set β) (levels : List μ) (rest : List (Entry β μ)) :
    Met covers seen (levels.map .mark ++ rest) ↔ (∀ level ∈ levels, covers seen level) ∧ Met covers seen rest := by
  induction levels with
  | nil => simp
  | cons level others ih => simp [Met,ih,and_assoc]

theorem mem_items_map (values : List β) (value : β) :
    value ∈ items (values.map (.item : β → Entry β μ)) ↔ value ∈ values := by
  induction values with
  | nil => simp [items]
  | cons other rest ih => simp [items,ih]

end Klein.MarkStream
