import Klein.Runs
import Klein.Sql.Changelog
import Klein.Sql.JoinKeys
import Klein.Sql.RowOrder

/-! `SQLTopNOperator` (`runtime/operator/sql_top_n_operator.py`) without time-to-live: the
sorted rows of its state and the changelog that it emits, beside the rows that are
present in their order of arrival. A row is known by its canonical items, which leave
out how it shares objects; the operator knows it by what pickle makes of both. -/
namespace Klein.Sql
open Changelog Fallible List Option Runs StableSort

/-- A row; each column with the objects that pickle remembers while it writes its name and
its value. -/
structure TableRow (ζ : Type) where
  columns : Dict String (Component ζ)

/-- What is handed to pickle: a name, or the canonical items of a row with the place where
each remembered object was met first. -/
inductive PickledRow (ζ : Type) where
  | name (text : String)
  | mapping (items : List (String × Identity ζ)) (places : List Nat)
  deriving DecidableEq

namespace TableRow
variable {ζ : Type} (pickle : PickledRow ζ → Bytes) (row : TableRow ζ)

def sortedColumns : List (String × Component ζ) :=
  row.columns.entries.insertionSort (fun one other => pickle (.name one.1) ≤ pickle (.name other.1))

/-- `_canonical_mapping` of the row, NaN replaced. -/
def items : List (String × Identity ζ) := (row.sortedColumns pickle).map (fun column => (column.1,column.2.value.identity))

def places : List Nat :=
  let objects := (row.sortedColumns pickle).flatMap (fun column => column.2.objects)
  objects.map objects.idxOf

/-- `state_value_key` of the row. -/
def stateValueKey : Bytes := pickle (.mapping (row.items pickle) (row.places pickle))

variable {pickle}

theorem items_of_key (injective : Function.Injective pickle) (row other : TableRow ζ)
    (same : row.stateValueKey pickle = other.stateValueKey pickle) : row.items pickle = other.items pickle :=
  (PickledRow.mapping.inj (injective same)).1

end TableRow

/-- The value state `sql-top-n-rows`: its version with the sorted rows, or an older plain list. -/
inductive StoredRows (ζ : Type) where
  | list (rows : List (TableRow ζ))
  | versioned (version : Int) (rows : List (TableRow ζ))
  | unsupported

structure SQLTopNOperator (ζ : Type) where
  order : List (Ordered (TableRow ζ) ζ)
  limit : Nat
  retractable : Bool

namespace SQLTopNOperator
variable {ζ : Type} [DecidableEq ζ] (zones : Zones ζ) (pickle : PickledRow ζ → Bytes) (o : SQLTopNOperator ζ)

def topNStateVersion : Int := 1

def compare : TableRow ζ → TableRow ζ → Except String Int := compareRows zones o.order

/-- `_insert_sorted` -/
def insertSorted (rows : List (TableRow ζ)) (row : TableRow ζ) : Except String (List (TableRow ζ)) := do
  let low ← bisect (lessAt (o.compare zones) "list index out of range" rows row) 0 rows.length
  return rows.insertIdx low row

/-- `_restore_rows`; an older list is sorted, which is stable. -/
def restoreRows (stored : Option (StoredRows ζ)) : Except String (List (TableRow ζ)) := do
  let rows ← match stored with
    | none => .ok []
    | some (.list stored) => stored.foldlM (o.insertSorted zones) []
    | some (.versioned version rows) =>
      if version = topNStateVersion then .ok rows else .error "Unsupported streaming SQL Top-N state format"
    | some .unsupported => .error "Unsupported streaming SQL Top-N state format"
  return if ¬ o.retractable ∧ o.limit < rows.length then rows.take o.limit else rows

/-- `_retract`: the first row of the same key goes, if there is one. -/
def retract (rows : List (TableRow ζ)) (row : TableRow ζ) : Option (List (TableRow ζ)) :=
  if rows.any (fun existing => existing.stateValueKey pickle = row.stateValueKey pickle) then
    some (rows.eraseP (fun existing => existing.stateValueKey pickle = row.stateValueKey pickle))
  else none

/-- `_row_counts` -/
def rowCounts (rows : List (TableRow ζ)) : Dict Bytes Nat :=
  rows.foldl (fun counts row => counts.set (row.stateValueKey pickle) ((counts.get? (row.stateValueKey pickle)).getD 0 + 1)) ∅

def unmatched (counts : Dict Bytes Nat) : List (TableRow ζ) → List (TableRow ζ)
  | [] => []
  | row::rest =>
    let key := row.stateValueKey pickle
    if (counts.get? key).getD 0 ≠ 0 then unmatched (counts.set key ((counts.get? key).getD 0 - 1)) rest
    else row::unmatched counts rest

/-- `_emit_diff` -/
def emitDiff (previous current : List (TableRow ζ)) : List (RowKind × TableRow ζ) :=
  let removed := unmatched pickle (rowCounts pickle current) previous
  let added := unmatched pickle (rowCounts pickle previous) current
  removed.map (fun row => (.delete,row)) ++ added.map (fun row => (.insert,row))

def changeRows (rows : List (TableRow ζ)) (kind : RowKind) (row : TableRow ζ) : Except String (Option (List (TableRow ζ))) :=
  if kind.isAddition then do
    let rows ← o.insertSorted zones rows row
    return some (if ¬ o.retractable ∧ o.limit < rows.length then rows.dropLast else rows)
  else if ¬ o.retractable then .error "received a retraction from a stream declared as insert-only"
  else .ok (retract pickle rows row)

def store (rows : List (TableRow ζ)) : Option (StoredRows ζ) :=
  if rows.isEmpty then none else some (.versioned topNStateVersion rows)

/-- `process_managed_element`; a record may come without a block. -/
def processManagedElement (stored : Option (StoredRows ζ)) :
    Option (RowKind × TableRow ζ) → Except String (Option (StoredRows ζ) × List (RowKind × TableRow ζ))
  | none => .ok (stored,[])
  | some (kind,row) =>
    if o.limit = 0 then .ok (stored,[])
    else do
      let rows ← o.restoreRows zones stored
      match ← o.changeRows zones pickle rows kind row with
      | none => return (stored,[])
      | some current => return (store current,emitDiff pickle (rows.take o.limit) (current.take o.limit))

section diff
variable {pickle}

omit [DecidableEq ζ] in
theorem rowCounts_get (rows : List (TableRow ζ)) (key : Bytes) : ((rowCounts pickle rows).get? key).getD 0 =
    Multiset.count key (rows.map (TableRow.stateValueKey pickle) : List Bytes) := by
  have general (counts : Dict Bytes Nat) :
      ((rows.foldl (fun counts row => counts.set (row.stateValueKey pickle)
        ((counts.get? (row.stateValueKey pickle)).getD 0 + 1)) counts).get? key).getD 0 =
        (counts.get? key).getD 0 + Multiset.count key (rows.map (TableRow.stateValueKey pickle) : List Bytes) := by
    induction rows generalizing counts with
    | nil => rfl
    | cons row rest ih =>
      rw [foldl_cons,ih,Dict.get?_set,map_cons,← Multiset.cons_coe,Multiset.count_cons]
      by_cases own : key = row.stateValueKey pickle
      · subst own
        rw [if_pos rfl,if_pos rfl,getD_some]
        omega
      · rw [if_neg own,if_neg own]
        rfl
  have whole := general ∅
  rw [Dict.get?_empty,getD_none,Nat.zero_add] at whole
  exact whole

omit [DecidableEq ζ] in
theorem unmatched_keys (rows : List (TableRow ζ)) (counts : Dict Bytes Nat) (counted : Multiset Bytes)
    (number : ∀ key, (counts.get? key).getD 0 = counted.count key) :
    (((unmatched pickle counts rows).map (TableRow.stateValueKey pickle) : List Bytes) : Multiset Bytes) =
      (rows.map (TableRow.stateValueKey pickle) : List Bytes) - counted := by
  induction rows generalizing counts counted with
  | nil =>
    ext key
    rw [Multiset.count_sub]
    exact (Nat.zero_sub _).symm
  | cons row rest ih =>
    unfold unmatched
    by_cases held : row.stateValueKey pickle ∈ counted
    · have positive := Multiset.count_pos.mpr held
      obtain ⟨others,rfl⟩ := Multiset.exists_cons_of_mem held
      rw [if_pos (by rw [number]; omega)]
      rw [ih _ others (fun key => ?_),map_cons,← Multiset.cons_coe,Multiset.sub_cons,Multiset.erase_cons_head]
      rw [Dict.get?_set]
      by_cases own : key = row.stateValueKey pickle
      · subst own
        rw [if_pos rfl,number,Multiset.count_cons_self]
        rfl
      · rw [if_neg own,number,Multiset.count_cons_of_ne own]
    · have none' := Multiset.count_eq_zero.mpr held
      rw [if_neg (by rw [number]; omega),map_cons,map_cons,← Multiset.cons_coe,← Multiset.cons_coe,ih counts counted number]
      ext key
      rw [Multiset.count_cons,Multiset.count_sub,Multiset.count_sub,Multiset.count_cons]
      by_cases own : key = row.stateValueKey pickle
      · subst own
        rw [none']
        omega
      · rw [if_neg own]
        rfl

variable (pickle) in
def shown (change : RowKind × TableRow ζ) : RowKind × List (String × Identity ζ) := (change.1,change.2.items pickle)

theorem fold_emitDiff (injective : Function.Injective pickle) (previous current : List (TableRow ζ)) :
    Changelog.fold ((previous.map (TableRow.items pickle) : List _) : Multiset (List (String × Identity ζ)))
        ((emitDiff pickle previous current).map (shown pickle)) =
      some ((current.map (TableRow.items pickle) : List _) : Multiset (List (String × Identity ζ))) := by
  have factors : Function.FactorsThrough (TableRow.items (ζ := ζ) pickle) (TableRow.stateValueKey pickle) :=
    fun row other same => TableRow.items_of_key injective row other same
  obtain ⟨read,reads⟩ := (Function.factorsThrough_iff _).mp factors
  have items (rows : List (TableRow ζ)) : ((rows.map (TableRow.items pickle) : List _) : Multiset (List (String × Identity ζ))) =
      ((rows.map (TableRow.stateValueKey pickle) : List Bytes) : Multiset Bytes).map read := by
    rw [Multiset.map_coe,List.map_map,← reads]
  have left (rows others : List (TableRow ζ)) :
      (((unmatched pickle (rowCounts pickle others) rows).map (TableRow.items pickle) : List _) :
        Multiset (List (String × Identity ζ))) =
        (((rows.map (TableRow.stateValueKey pickle) : List Bytes) : Multiset Bytes) -
          (others.map (TableRow.stateValueKey pickle) : List Bytes)).map read := by
    rw [items,unmatched_keys rows _ (others.map (TableRow.stateValueKey pickle) : List Bytes)
      (rowCounts_get others)]
  have shares (rows others : List (TableRow ζ)) :
      ((rows.map (TableRow.items pickle) : List _) : Multiset (List (String × Identity ζ))) =
        ((unmatched pickle (rowCounts pickle others) rows).map (TableRow.items pickle) : List _) +
          (((rows.map (TableRow.stateValueKey pickle) : List Bytes) : Multiset Bytes) ∩
            (others.map (TableRow.stateValueKey pickle) : List Bytes)).map read := by
    rw [left,← Multiset.map_add,Multiset.sub_add_inter,items]
  unfold emitDiff
  rw [map_append,List.map_map,List.map_map,fold_append]
  have deleted : (unmatched pickle (rowCounts pickle current) previous).map (shown pickle ∘ fun row => (RowKind.delete,row)) =
      ((unmatched pickle (rowCounts pickle current) previous).map (TableRow.items pickle)).map (fun row => (RowKind.delete,row)) := by
    rw [List.map_map]
    rfl
  have inserted : (unmatched pickle (rowCounts pickle previous) current).map (shown pickle ∘ fun row => (RowKind.insert,row)) =
      ((unmatched pickle (rowCounts pickle previous) current).map (TableRow.items pickle)).map (fun row => (RowKind.insert,row)) := by
    rw [List.map_map]
    rfl
  rw [deleted,inserted,fold_retractions .delete rfl _ _ _ (shares previous current),bind_some,
    fold_additions .insert rfl,shares current previous,Multiset.inter_comm]

end diff

def sortedRows (rows : List (TableRow ζ)) : List (TableRow ζ) := rows.insertionSort (NotGreater (o.compare zones))

def top (rows : List (TableRow ζ)) : Multiset (List (String × Identity ζ)) :=
  Multiset.ofList (((o.sortedRows zones rows).take o.limit).map (TableRow.items pickle))

def kept (present : List (TableRow ζ)) : List (TableRow ζ) :=
  if o.limit = 0 then [] else if o.retractable then o.sortedRows zones present else (o.sortedRows zones present).take o.limit

section steps
variable {zones pickle o} {present : List (TableRow ζ)}

theorem kept_take : (o.kept zones present).take o.limit = (o.sortedRows zones present).take o.limit := by
  unfold kept
  by_cases nothing : o.limit = 0
  · rw [if_pos nothing,nothing]
    rfl
  · rw [if_neg nothing]
    by_cases retractable : o.retractable = true
    · rw [if_pos retractable]
    · rw [if_neg retractable,take_take,Nat.min_self]

theorem kept_sublist : (o.kept zones present).Sublist (o.sortedRows zones present) := by
  unfold kept
  split
  · exact nil_sublist _
  · split
    · exact List.Sublist.refl _
    · exact take_sublist _ _

theorem restoreRows_store (rows : List (TableRow ζ)) (short : o.retractable = true ∨ rows.length ≤ o.limit) :
    o.restoreRows zones (store rows) = .ok rows := by
  have whole : (if ¬ o.retractable = true ∧ o.limit < rows.length then rows.take o.limit else rows) = rows := by
    apply if_neg
    obtain retractable | short := short
    · exact fun cut => cut.1 retractable
    · omega
  unfold restoreRows store
  cases rows with
  | nil => exact congrArg Except.ok whole
  | cons row rest => exact congrArg Except.ok whole

theorem insertSorted_ok (rows : List (TableRow ζ)) (row : TableRow ζ) (order : Compares (o.compare zones) (row::rows))
    (sorted : rows.Pairwise (NotGreater (o.compare zones))) :
    o.insertSorted zones rows row = .ok (insertAfter (NotGreater (o.compare zones)) row rows) := by
  obtain ⟨place,found,inserted⟩ := insert_bisected "list index out of range" rows row order sorted
  unfold insertSorted
  rw [ok_bind found,inserted]
  rfl

theorem kept_restored : o.restoreRows zones (store (o.kept zones present)) = .ok (o.kept zones present) := by
  apply restoreRows_store
  by_cases retractable : o.retractable = true
  · exact .inl retractable
  · refine .inr ?_
    unfold kept
    rw [if_neg retractable]
    split
    · exact Nat.zero_le _
    · rw [length_take]
      exact Nat.min_le_left _ _

theorem changeRows_addition (kind : RowKind) (row : TableRow ζ) (addition : kind.isAddition = true) (some' : o.limit ≠ 0)
    (order : Compares (o.compare zones) (present ++ [row])) :
    o.changeRows zones pickle (o.kept zones present) kind row = .ok (some (o.kept zones (present ++ [row]))) := by
  have sorted : (o.sortedRows zones present).Pairwise (NotGreater (o.compare zones)) :=
    pairwise_insertionSort (order.of_subset (subset_append_left _ _)).preorders
  have within : row::o.kept zones present ⊆ present ++ [row] := by
    intro other inside
    obtain rfl | inside := mem_cons.mp inside
    · simp
    · exact mem_append_left _ ((mem_insertionSort _).mp (kept_sublist.mem inside))
  have whole : insertAfter (NotGreater (o.compare zones)) row (o.sortedRows zones present) = o.sortedRows zones (present ++ [row]) :=
    (insertionSort_append present row order.preorders).symm
  unfold changeRows
  rw [if_pos addition,ok_bind (insertSorted_ok _ row (order.of_subset within) (sorted.sublist kept_sublist))]
  refine congrArg (fun rows => Except.ok (some rows)) ?_
  unfold kept
  rw [if_neg some',if_neg some']
  by_cases retractable : o.retractable = true
  · rw [if_pos retractable,if_pos retractable,if_neg (fun cut => cut.1 retractable),whole]
  · rw [if_neg retractable,if_neg retractable,← whole,← take_insertAfter row (o.sortedRows zones present) o.limit]
    have length := @length_insertAfter _ (NotGreater (o.compare zones)) _ row ((o.sortedRows zones present).take o.limit)
    have bound := length_take_le o.limit (o.sortedRows zones present)
    by_cases full : o.limit < (insertAfter (NotGreater (o.compare zones)) row ((o.sortedRows zones present).take o.limit)).length
    · rw [if_pos ⟨retractable,full⟩,dropLast_eq_take]
      congr 1
      omega
    · rw [if_neg (fun cut => full cut.2)]
      exact (take_of_length_le (by omega)).symm

theorem changeRows_retraction (injective : Function.Injective pickle) (kind : RowKind) (row : TableRow ζ)
    (retraction : kind.isAddition = false) (some' : o.limit ≠ 0) (retractable : o.retractable = true)
    (order : Compares (o.compare zones) present)
    (oldest : ∀ first ∈ present.find? (fun other => other.items pickle = row.items pickle),
      first.stateValueKey pickle = row.stateValueKey pickle ∧
      ∀ other ∈ present, other.stateValueKey pickle = row.stateValueKey pickle → NotGreater (o.compare zones) first other) :
    o.changeRows zones pickle (o.kept zones present) kind row = .ok none ∧
        present.eraseP (fun other => other.items pickle = row.items pickle) = present ∨
      o.changeRows zones pickle (o.kept zones present) kind row =
        .ok (some (o.kept zones (present.eraseP (fun other => other.items pickle = row.items pickle)))) := by
  have whole (rows : List (TableRow ζ)) : o.kept zones rows = o.sortedRows zones rows := by
    unfold kept
    rw [if_neg some',if_pos retractable]
  unfold changeRows
  rw [if_neg (by simp [retraction]),if_neg (by simp [retractable]),whole,whole]
  unfold retract
  cases found : present.find? (fun other => other.items pickle = row.items pickle) with
  | none =>
    have absent : ∀ other ∈ present, ¬ other.items pickle = row.items pickle := by simpa using found
    refine .inl ⟨congrArg Except.ok (if_neg ?_),eraseP_of_forall_not (by simpa using absent)⟩
    intro some''
    obtain ⟨other,inside,same⟩ := List.any_eq_true.mp some''
    exact absent other ((mem_insertionSort _).mp inside) (TableRow.items_of_key injective _ _ (of_decide_eq_true same))
  | some first =>
    obtain ⟨same,least⟩ := oldest first found
    obtain ⟨erased,other,inside,told⟩ := eraseP_insertionSort present first
      (fun other => decide (other.items pickle = row.items pickle))
      (fun other => decide (other.stateValueKey pickle = row.stateValueKey pickle)) order.preorders found (decide_eq_true same)
      (fun other _ told => decide_eq_true (TableRow.items_of_key injective _ _ (of_decide_eq_true told)))
      (fun other inside told => least other inside (of_decide_eq_true told))
    have some'' : (o.sortedRows zones present).any (fun other => other.stateValueKey pickle = row.stateValueKey pickle) = true :=
      List.any_eq_true.mpr ⟨other,inside,told⟩
    refine .inr (congrArg Except.ok ?_)
    rw [if_pos some'']
    exact congrArg some erased

theorem process_changed (kind : RowKind) (row : TableRow ζ) (some' : o.limit ≠ 0) (next : List (TableRow ζ))
    (changed : o.changeRows zones pickle (o.kept zones present) kind row = .ok (some (o.kept zones next))) :
    o.processManagedElement zones pickle (store (o.kept zones present)) (some (kind,row)) =
      .ok (store (o.kept zones next),emitDiff pickle ((o.sortedRows zones present).take o.limit)
        ((o.sortedRows zones next).take o.limit)) := by
  unfold processManagedElement
  dsimp only
  rw [if_neg some',ok_bind kept_restored,ok_bind changed,← kept_take,← kept_take]
  rfl

theorem process_unchanged (kind : RowKind) (row : TableRow ζ) (some' : o.limit ≠ 0)
    (unchanged : o.changeRows zones pickle (o.kept zones present) kind row = .ok none) :
    o.processManagedElement zones pickle (store (o.kept zones present)) (some (kind,row)) =
      .ok (store (o.kept zones present),[]) := by
  unfold processManagedElement
  dsimp only
  rw [if_neg some',ok_bind kept_restored,ok_bind unchanged]
  rfl

end steps

end SQLTopNOperator

structure TopNRun (ζ : Type) where
  stored : Option (StoredRows ζ)
  emitted : List (RowKind × TableRow ζ)
  present : List (TableRow ζ)

namespace TopNRun
open SQLTopNOperator

variable {ζ : Type} [DecidableEq ζ] (zones : Zones ζ) (pickle : PickledRow ζ → Bytes) (o : SQLTopNOperator ζ)

def initial : TopNRun ζ := ⟨none,[],[]⟩

def changePresent (present : List (TableRow ζ)) : Option (RowKind × TableRow ζ) → List (TableRow ζ)
  | none => present
  | some (kind,row) =>
    if kind.isAddition then present ++ [row] else present.eraseP (fun other => other.items pickle = row.items pickle)

def step (run : TopNRun ζ) (record : Option (RowKind × TableRow ζ)) : Option (TopNRun ζ) :=
  match o.processManagedElement zones pickle run.stored record with
  | .error _ => none
  | .ok (stored,outputs) => some ⟨stored,run.emitted ++ outputs,changePresent pickle run.present record⟩

def oldest (present : List (TableRow ζ)) (row : TableRow ζ) : Option (TableRow ζ) :=
  present.find? (fun other => other.items pickle = row.items pickle)

/-- An added row can be sorted with the rows that are present. The oldest row of the items
of a retraction shares objects as the retracted one does and none that does stands before it. -/
structure SoundChange (present : List (TableRow ζ)) (kind : RowKind) (row : TableRow ζ) : Prop where
  sorts : kind.isAddition = true → SortsBy zones o.order (present ++ [row])
  oldest : kind.isAddition = false → ∀ first ∈ oldest pickle present row,
    first.stateValueKey pickle = row.stateValueKey pickle ∧
    ∀ other ∈ present, other.stateValueKey pickle = row.stateValueKey pickle → NotGreater (o.compare zones) first other

instance (present : List (TableRow ζ)) (kind : RowKind) (row : TableRow ζ) :
    Decidable (SoundChange zones pickle o present kind row) :=
  decidable_of_iff ((kind.isAddition = true → SortsBy zones o.order (present ++ [row])) ∧
    (kind.isAddition = false → ∀ first ∈ oldest pickle present row, first.stateValueKey pickle = row.stateValueKey pickle ∧
      ∀ other ∈ present, other.stateValueKey pickle = row.stateValueKey pickle → NotGreater (o.compare zones) first other))
    ⟨fun both => ⟨both.1,both.2⟩,fun change => ⟨change.sorts,change.oldest⟩⟩

def Sound (run : TopNRun ζ) (record : Option (RowKind × TableRow ζ)) : Prop :=
  o.limit ≠ 0 → ∀ change ∈ record, SoundChange zones pickle o run.present change.1 change.2

instance (run : TopNRun ζ) (record : Option (RowKind × TableRow ζ)) : Decidable (Sound zones pickle o run record) :=
  inferInstanceAs (Decidable (o.limit ≠ 0 → ∀ change ∈ record, SoundChange zones pickle o run.present change.1 change.2))

structure Tracks (run : TopNRun ζ) : Prop where
  stored : run.stored = store (o.kept zones run.present)
  order : o.limit ≠ 0 → Compares (o.compare zones) run.present
  output : Changelog.fold 0 (run.emitted.map (shown pickle)) = some (o.top zones pickle run.present)

theorem Tracks.initial : Tracks zones pickle o initial := by
  refine ⟨?_,fun _ => ⟨fun left inside => absurd inside not_mem_nil,fun left inside => absurd inside not_mem_nil⟩,?_⟩
  · have nothing : o.kept zones [] = [] := sublist_nil.mp (@kept_sublist _ _ _ _ [])
    change none = store (o.kept zones [])
    rw [nothing]
    rfl
  · change some 0 = some (Multiset.ofList ((List.take o.limit []).map _))
    rw [take_nil]
    rfl

variable {zones pickle o}

section steps
variable (injective : Function.Injective pickle) (run : TopNRun ζ) (tracks : Tracks zones pickle o run)
include tracks

theorem Tracks.idle (record : Option (RowKind × TableRow ζ)) (idle : record = none ∨ o.limit = 0) :
    step zones pickle o run record = some ⟨run.stored,run.emitted,changePresent pickle run.present record⟩ ∧
      Tracks zones pickle o ⟨run.stored,run.emitted,changePresent pickle run.present record⟩ := by
  have process : o.processManagedElement zones pickle run.stored record = .ok (run.stored,[]) := by
    cases record with
    | none => rfl
    | some change => exact if_pos (idle.resolve_left (by simp))
  constructor
  · unfold step
    rw [process]
    dsimp only
    rw [append_nil]
  · obtain rfl | nothing := idle
    · exact tracks
    · have empty (rows : List (TableRow ζ)) : o.kept zones rows = [] := if_pos nothing
      refine ⟨?_,fun some' => absurd nothing some',?_⟩
      · have stored := tracks.stored
        rw [empty] at stored
        rw [empty]
        exact stored
      · have none' (rows : List (TableRow ζ)) : o.top zones pickle rows = 0 := by
          unfold top
          rw [nothing,take_zero]
          rfl
        have output := tracks.output
        rw [none'] at output
        rw [none']
        exact output

theorem Tracks.taken (kind : RowKind) (row : TableRow ζ) (some' : o.limit ≠ 0)
    (changed : o.changeRows zones pickle (o.kept zones run.present) kind row =
      .ok (some (o.kept zones (changePresent pickle run.present (some (kind,row)))))) :
    step zones pickle o run (some (kind,row)) =
      some ⟨store (o.kept zones (changePresent pickle run.present (some (kind,row)))),
        run.emitted ++ emitDiff pickle ((o.sortedRows zones run.present).take o.limit)
          ((o.sortedRows zones (changePresent pickle run.present (some (kind,row)))).take o.limit),
        changePresent pickle run.present (some (kind,row))⟩ := by
  have process := process_changed kind row some' _ changed
  rw [← tracks.stored] at process
  unfold step
  rw [process]

theorem Tracks.addition (kind : RowKind) (row : TableRow ζ) (some' : o.limit ≠ 0) (addition : kind.isAddition = true)
    (order : Compares (o.compare zones) (run.present ++ [row])) :
    step zones pickle o run (some (kind,row)) = some ⟨store (o.kept zones (run.present ++ [row])),
      run.emitted ++ emitDiff pickle ((o.sortedRows zones run.present).take o.limit)
        ((o.sortedRows zones (run.present ++ [row])).take o.limit),run.present ++ [row]⟩ := by
  have present : changePresent pickle run.present (some (kind,row)) = run.present ++ [row] := if_pos addition
  have taken := tracks.taken run kind row some' (by rw [present]; exact changeRows_addition kind row addition some' order)
  rw [present] at taken
  exact taken

include injective

theorem Tracks.changed (next : List (TableRow ζ)) (order : o.limit ≠ 0 → Compares (o.compare zones) next) :
    Tracks zones pickle o ⟨store (o.kept zones next),run.emitted ++ emitDiff pickle
      ((o.sortedRows zones run.present).take o.limit) ((o.sortedRows zones next).take o.limit),next⟩ := by
  refine ⟨rfl,order,?_⟩
  rw [map_append,fold_append,tracks.output,bind_some]
  exact fold_emitDiff injective _ _

theorem Tracks.step (retractable : o.retractable = true) (record : Option (RowKind × TableRow ζ))
    (sound : Sound zones pickle o run record) :
    ∃ next, TopNRun.step zones pickle o run record = some next ∧ Tracks zones pickle o next := by
  by_cases nothing : o.limit = 0
  · exact ⟨_,tracks.idle run record (.inr nothing)⟩
  cases record with
  | none => exact ⟨_,tracks.idle run none (.inl rfl)⟩
  | some change =>
    obtain ⟨kind,row⟩ := change
    have change := sound nothing _ rfl
    cases addition : kind.isAddition with
    | true =>
      have order := (change.sorts addition).compares
      exact ⟨_,tracks.addition run kind row nothing addition order,tracks.changed injective run _ (fun _ => order)⟩
    | false =>
      have order := tracks.order nothing
      have present : changePresent pickle run.present (some (kind,row)) =
          run.present.eraseP (fun other => other.items pickle = row.items pickle) := if_neg (by simp [addition])
      obtain ⟨unchanged,same⟩ | changed :=
        changeRows_retraction injective kind row addition nothing retractable order (change.oldest addition)
      · have process := process_unchanged kind row nothing unchanged
        rw [← tracks.stored] at process
        refine ⟨run,?_,tracks⟩
        unfold TopNRun.step
        rw [process,present,same]
        dsimp only
        rw [append_nil]
      · rw [← present] at changed
        refine ⟨_,tracks.taken run kind row nothing changed,tracks.changed injective run _ (fun _ => ?_)⟩
        rw [present]
        exact order.of_subset eraseP_subset

end steps

theorem Tracks.run (injective : Function.Injective pickle) (retractable : o.retractable = true) (run : TopNRun ζ)
    (tracks : Tracks zones pickle o run) (records : List (Option (RowKind × TableRow ζ)))
    (sound : Along (TopNRun.step zones pickle o) (Sound zones pickle o) run records) :
    ∃ final, exec (TopNRun.step zones pickle o) run records = some final ∧ Tracks zones pickle o final := by
  induction records generalizing run with
  | nil => exact ⟨run,rfl,tracks⟩
  | cons record rest ih =>
    obtain ⟨next,taken,kept⟩ := tracks.step injective run retractable record sound.1
    obtain ⟨final,ran,held⟩ := ih next kept (sound.2 next taken)
    refine ⟨final,?_,held⟩
    rw [exec_cons,taken]
    exact ran

theorem Tracks.insertOnly (injective : Function.Injective pickle) (run twin : TopNRun ζ)
    (tracks : Tracks zones pickle o run) (tracks' : Tracks zones pickle {o with retractable := false} twin)
    (present : twin.present = run.present) (emitted : twin.emitted = run.emitted)
    (records : List (Option (RowKind × TableRow ζ))) (additions : ∀ record ∈ records, ∀ change ∈ record, change.1.isAddition = true)
    (sound : Along (TopNRun.step zones pickle o) (Sound zones pickle o) run records) (final : TopNRun ζ)
    (ran : exec (TopNRun.step zones pickle o) run records = some final) :
    ∃ last, exec (TopNRun.step zones pickle {o with retractable := false}) twin records = some last ∧
      last.emitted = final.emitted := by
  induction records generalizing run twin with
  | nil =>
    obtain rfl := some.inj ran
    exact ⟨twin,rfl,emitted⟩
  | cons record rest ih =>
    obtain ⟨here,later⟩ := forall_mem_cons.mp additions
    obtain ⟨next,taken,ran⟩ := bind_eq_some_iff.mp ran
    have sound' := sound.2 next taken
    have together : ∃ other, TopNRun.step zones pickle {o with retractable := false} twin record = some other ∧
        other.present = next.present ∧ other.emitted = next.emitted ∧ Tracks zones pickle o next ∧
        Tracks zones pickle {o with retractable := false} other := by
      by_cases idle : record = none ∨ o.limit = 0
      · obtain ⟨one,held⟩ := tracks.idle run record idle
        obtain ⟨other,held'⟩ := tracks'.idle twin record idle
        obtain rfl := some.inj (one.symm.trans taken)
        exact ⟨_,other,congrArg (changePresent pickle · record) present,emitted,held,held'⟩
      · obtain ⟨some',nothing⟩ := not_or.mp idle
        cases record with
        | none => exact absurd rfl some'
        | some change =>
          obtain ⟨kind,row⟩ := change
          have addition : kind.isAddition = true := here _ rfl
          have order := ((sound.1 nothing _ rfl).sorts addition).compares
          have one := tracks.addition run kind row nothing addition order
          rw [← present] at order
          have other := tracks'.addition twin kind row nothing addition order
          obtain rfl := some.inj (one.symm.trans taken)
          refine ⟨_,other,?_,?_,?_,tracks'.changed injective twin _ (fun _ => order)⟩
          · dsimp only
            rw [present]
          · dsimp only
            rw [present,emitted]
            rfl
          · rw [present] at order
            exact tracks.changed injective run _ (fun _ => order)
    obtain ⟨other,taken',present',emitted',held,held'⟩ := together
    obtain ⟨last,ran',same⟩ := ih next other held held' present' emitted' later sound' ran
    refine ⟨last,?_,same⟩
    rw [exec_cons,taken']
    exact ran'

section runs
open JoinKeys

deriving instance Encodable for PickledRow

def pickledRows : List (PickledRow Int × Bytes) :=
  [(.name "x",[128,4,149,5,0,0,0,0,0,0,0,140,1,120,148,46]),
    (.name "y",[128,4,149,5,0,0,0,0,0,0,0,140,1,121,148,46]),
    (.mapping [("v",.number 1)] [0],[128,4,149,10,0,0,0,0,0,0,0,125,148,140,1,118,148,75,1,115,46]),
    (.mapping [("v",.null)] [0],[128,4,149,9,0,0,0,0,0,0,0,125,148,140,1,118,148,78,115,46]),
    (.mapping [("v",.number 2)] [0],[128,4,149,10,0,0,0,0,0,0,0,125,148,140,1,118,148,75,2,115,46]),
    (.mapping [("x",.text "qz"),("y",.text "qz")] [0,1,2,1],
      [128,4,149,20,0,0,0,0,0,0,0,125,148,40,140,1,120,148,140,2,113,122,148,140,1,121,148,104,2,117,46]),
    (.mapping [("x",.text "qz"),("y",.text "qz")] [0,1,2,3],
      [128,4,149,23,0,0,0,0,0,0,0,125,148,40,140,1,120,148,140,2,113,122,148,140,1,121,148,140,2,113,122,148,117,46])]

def dumpsRow (pickled : PickledRow Int) : Bytes :=
  (pickledRows.lookup pickled).getD (List.replicate (Encodable.encode pickled) 0)

theorem dumpsRow_injective : Function.Injective dumpsRow := table_injective pickledRows (by decide +kernel) (by decide +kernel)

def columnOrder (name : String) (desc nullsFirst : Bool) : Ordered (TableRow Int) Int :=
  ⟨fun row => .ok (((row.columns.get? name).map Component.value).getD .null),desc,nullsFirst⟩

def single (value : Value Int) : TableRow Int := ⟨Dict.ofList [("v",⟨value,[0]⟩)]⟩

def double (first second : Nat) : TableRow Int :=
  ⟨Dict.ofList [("x",⟨.text "qz",[0,first]⟩),("y",⟨.text "qz",[1,second]⟩)]⟩

/-- `ORDER BY v DESC LIMIT 1` with NULL last. -/
def greatest : SQLTopNOperator Int := ⟨[columnOrder "v" true false],1,true⟩

def comesAndGoes : List (Option (RowKind × TableRow Int)) :=
  [some (.insert,single (.integer 1)),some (.insert,single .null),some (.insert,single (.integer 2)),
    some (.delete,single (.float (.finite 2)))]

/-- `ORDER BY x LIMIT 1` -/
def least : SQLTopNOperator Int := ⟨[columnOrder "x" false false],1,true⟩

end runs

end TopNRun
end Klein.Sql
