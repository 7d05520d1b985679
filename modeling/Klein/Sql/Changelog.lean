import Mathlib.Algebra.Order.Group.Multiset
import Mathlib.Data.Multiset.Bind

/-! Changelogs and the tables they describe: the kinds of rows
(`api/row_kind.py`, `api/changelog_row.py`), the multiset that a changelog folds to, and
the join of two multisets with what one more row on a side adds to it. -/
namespace Klein.Sql
open List Option

inductive RowKind where
  | insert
  | updateBefore
  | updateAfter
  | delete
  deriving DecidableEq

def RowKind.isAddition : RowKind → Bool
  | .insert | .updateAfter => true
  | .updateBefore | .delete => false

namespace Changelog
variable {α : Type} [DecidableEq α]

def apply (table : Multiset α) (change : RowKind × α) : Option (Multiset α) :=
  if change.1.isAddition then some (change.2 ::ₘ table)
  else if change.2 ∈ table then some (table.erase change.2)
  else none

def fold (table : Multiset α) (changes : List (RowKind × α)) : Option (Multiset α) := changes.foldlM apply table

@[simp] theorem fold_nil (table : Multiset α) : fold table [] = some table := rfl

theorem fold_cons (table : Multiset α) (change : RowKind × α) (rest : List (RowKind × α)) :
    fold table (change::rest) = (apply table change).bind (fun next => fold next rest) := rfl

theorem apply_addition (kind : RowKind) (addition : kind.isAddition = true) (row : α) (table : Multiset α) :
    apply table (kind,row) = some (row ::ₘ table) := if_pos addition

theorem apply_retraction (kind : RowKind) (retraction : kind.isAddition = false) (row : α) (table : Multiset α) (held : row ∈ table) :
    apply table (kind,row) = some (table.erase row) := by
  unfold apply
  rw [if_neg (by simp [retraction]),if_pos held]

theorem fold_append (table : Multiset α) (first second : List (RowKind × α)) :
    fold table (first ++ second) = (fold table first).bind (fun next => fold next second) := by
  simp [fold,foldlM_append,bind]

theorem fold_additions (kind : RowKind) (addition : kind.isAddition = true) (rows : List α) (table : Multiset α) :
    fold table (rows.map (fun row => (kind,row))) = some (rows + table) := by
  induction rows generalizing table with
  | nil => simp
  | cons row rest ih =>
    rw [map_cons,fold_cons,apply,if_pos addition,bind_some,ih]
    apply congrArg some
    rw [← Multiset.cons_coe,Multiset.add_cons,Multiset.cons_add]

theorem fold_retractions (kind : RowKind) (retraction : kind.isAddition = false) (rows : List α) (table rest : Multiset α)
    (held : table = rows + rest) : fold table (rows.map (fun row => (kind,row))) = some rest := by
  induction rows generalizing table with
  | nil => simp [held]
  | cons row others ih =>
    have inside : row ∈ table := by simp [held]
    rw [map_cons,fold_cons,apply,if_neg (by simp [retraction]),if_pos inside,bind_some]
    apply ih
    rw [held,← Multiset.cons_coe,Multiset.cons_add,Multiset.erase_cons_head]

end Changelog

namespace BagJoin
variable {α β γ : Type} (Matches : α → β → Prop) [∀ left right, Decidable (Matches left right)] (merge : α → β → γ)

def join (lefts : Multiset α) (rights : Multiset β) : Multiset γ :=
  lefts.bind (fun left => (rights.filter (Matches left)).map (merge left))

theorem join_cons_left (left : α) (lefts : Multiset α) (rights : Multiset β) :
    join Matches merge (left ::ₘ lefts) rights =
      (rights.filter (Matches left)).map (merge left) + join Matches merge lefts rights := Multiset.cons_bind _ _ _

theorem join_cons_right (lefts : Multiset α) (right : β) (rights : Multiset β) :
    join Matches merge lefts (right ::ₘ rights) =
      (lefts.filter (fun left => Matches left right)).map (fun left => merge left right) + join Matches merge lefts rights := by
  induction lefts using Multiset.induction with
  | empty => rfl
  | cons left lefts ih =>
    rw [join_cons_left,join_cons_left,ih]
    by_cases matched : Matches left right
    · rw [Multiset.filter_cons_of_pos _ matched,Multiset.filter_cons_of_pos (p := fun left => Matches left right) _ matched,
        Multiset.map_cons,Multiset.map_cons,Multiset.cons_add,Multiset.cons_add]
      ac_rfl
    · rw [Multiset.filter_cons_of_neg _ matched,Multiset.filter_cons_of_neg (p := fun left => Matches left right) _ matched]
      ac_rfl

end BagJoin
end Klein.Sql
