import Klein.DictBag
import Klein.Sql.Changelog
import Klein.Sql.JoinKeys
import Klein.Sql.StreamingAggregates

/-! The changelog of `SQLAggregateOperator` (`runtime/operator/sql_aggregate_operator.py`)
without time-to-live: one accumulator for each group, and the difference of two results
that a row makes. Beside it stand the rows of the groups that were added and not taken
away, and the table that the changelog folds to. -/
namespace Klein.Sql
open Changelog Dict Fallible List Option Runs

/-- A row of the result, and its identity under `state_value_key`. -/
abbrev ResultRow (ζ : Type) := Dict String (Cell (Value ζ) (Option Number))

abbrev ResultIdentity (ζ : Type) := Multiset (String × Identity ζ)

def Real.identity {ζ : Type} : Real → Identity ζ
  | .finite value => .number value
  | .infinity positive => .infinity positive
  | .nan => .notANumber .float

def Cell.identity {ζ : Type} : Cell (Identity ζ) (Option Number) → Identity ζ
  | .group value => value
  | .aggregate none => .null
  | .aggregate (some number) => number.real.identity

def rowIdentity {ζ : Type} (row : Dict String (Cell (Identity ζ) (Option Number))) : ResultIdentity ζ :=
  row.entries.map (fun entry => (entry.1,entry.2.identity))

/-- What `state_value_key` is of a result row. -/
def resultIdentity {ζ : Type} (row : ResultRow ζ) : ResultIdentity ζ :=
  rowIdentity (row.mapValues (fun _ => Cell.map Value.identity id))

structure GroupedAggregate (ρ κ : Type) {ζ : Type} (remembered : Identity ζ → Nat) extends SQLAggregateOperator ρ κ where
  groupKey : ρ → JoinKey remembered
  evaluated : ∀ row, (groupKey row).values.length = groupExpressions.length

namespace GroupedAggregate
variable {ρ κ ζ : Type} {remembered : Identity ζ → Nat} (o : GroupedAggregate ρ κ remembered)

def Global : Prop := o.groupExpressions = []

instance : Decidable o.Global := inferInstanceAs (Decidable (_ = _))

def groupOf (row : ρ) : List (Identity ζ) := (o.groupKey row).values.map Value.identity

variable [DecidableEq κ] [DecidableEq ζ] (pickle : Pickled ζ → Bytes)

/-- `SQLGroupKeySelector` and the encoding of its key: a tuple that does not encode, for
NaN, is grouped by its identity. -/
def stateKey (row : ρ) : Bytes :=
  if o.Global then pickle (.tuple [.text "__klein_global_aggregate__"] [0])
  else match encodeKey (o.groupKey row) pickle with
    | .ok encoded => encoded
    | .error _ => pickle (.group (pickle (.tuple (o.groupOf row) (o.groupKey row).places)))

/-- `_emit_change` -/
def emitChange (previous current : Option (ResultRow ζ)) : List (RowKind × ResultRow ζ) :=
  match previous,current with
  | none,none => []
  | none,some current => [(.insert,current)]
  | some previous,none => [(.delete,previous)]
  | some previous,some current =>
    if resultIdentity previous = resultIdentity current then []
    else [(.updateBefore,previous),(.updateAfter,current)]

/-- `process_managed_element` -/
def processManagedElement (groups : Dict Bytes (Accumulator κ)) (kind : RowKind) (row : ρ) :
    Except String (Dict Bytes (Accumulator κ) × List (RowKind × ResultRow ζ)) := do
  let key := o.stateKey pickle row
  let accumulator := (groups.get? key).getD o.emptyAccumulator
  let previous ← o.result accumulator (o.groupKey row).values
  let (changed,accumulator) ← o.applyRow accumulator row kind.isAddition
  if ¬ changed then return (groups,[])
  else
    let current ← o.result accumulator (o.groupKey row).values
    let groups := if accumulator.rowCount ≠ 0 then groups.set key accumulator else groups.erase key
    return (groups,emitChange previous current)

end GroupedAggregate

/-- The accumulators, the group of each state key that was met, the rows that are left by
group and row key, and what was emitted. -/
structure AggregateRun (κ ζ : Type) where
  groups : Dict Bytes (Accumulator κ)
  owners : Dict Bytes (List (Identity ζ))
  live : List (List (Identity ζ) × κ)
  emitted : List (RowKind × ResultIdentity ζ)

namespace AggregateRun
variable {ρ κ ζ : Type} {remembered : Identity ζ → Nat} (o : GroupedAggregate ρ κ remembered)

def initial : AggregateRun κ ζ := ⟨∅,∅,[],[]⟩

def resultAt (accumulator : Accumulator κ) (group : List (Identity ζ)) : Except String (Option (ResultIdentity ζ)) :=
  (o.resultOf (accumulator.rowCount = 0)
    (List.zipWith (fun aggregate item => Item.aggregateValue aggregate.kind item) o.aggregateExpressions accumulator.aggregates)
    group).map (Option.map rowIdentity)

variable [DecidableEq κ] [DecidableEq ζ] (pickle : Pickled ζ → Bytes)

def changeLive (live : List (List (Identity ζ) × κ)) (addition : Bool) (entry : List (Identity ζ) × κ) :
    List (List (Identity ζ) × κ) :=
  if addition then live ++ [entry] else live.erase entry

def step (run : AggregateRun κ ζ) (record : RowKind × ρ) : Option (AggregateRun κ ζ) :=
  match o.processManagedElement pickle run.groups record.1 record.2 with
  | .error _ => none
  | .ok (groups,outputs) =>
    some ⟨groups,run.owners.set (o.stateKey pickle record.2) (o.groupOf record.2),
      changeLive run.live record.1.isAddition (o.groupOf record.2,o.rowKey record.2),
      run.emitted ++ outputs.map (fun output => (output.1,resultIdentity output.2))⟩

def shown (owners : Dict Bytes (List (Identity ζ))) (entry : Bytes × Accumulator κ) : Option (ResultIdentity ζ) :=
  (owners.get? entry.1).bind (fun group => (resultAt o entry.2 group).toOption.join)

def current (run : AggregateRun κ ζ) (group : List (Identity ζ)) : Option (ResultIdentity ζ) :=
  (run.groups.entries.find? (fun entry => run.owners.get? entry.1 = some group)).bind (shown o run.owners)

def liveGroups (run : AggregateRun κ ζ) : List (List (Identity ζ)) := (run.live.map Prod.fst).dedup

/-- The changelog folds, each retraction finding its row, to the results of the groups
that have a row left; without GROUP BY it folds to the one result, once there is any. -/
def Folds (run : AggregateRun κ ζ) : Prop :=
  ∃ table, Changelog.fold 0 run.emitted = some table ∧
    (¬ o.Global → table = (run.liveGroups.filterMap (current o run) : List _) ∧
      ∀ group ∈ run.liveGroups, (current o run group).isSome) ∧
    (o.Global → run.emitted ≠ [] → ∃ result, table = {result} ∧
      resultAt o ((run.groups.get? (pickle (.tuple [.text "__klein_global_aggregate__"] [0]))).getD o.emptyAccumulator) [] =
        .ok (some result))

def Ignored (run : AggregateRun κ ζ) (record : RowKind × ρ) : Prop :=
  record.1.isAddition = false ∧ (o.groupOf record.2,o.rowKey record.2) ∉ run.live

/-- What a step needs, a retraction of a row that is not left apart: rows of one group
have one state key, and without GROUP BY no aggregate counts the row. -/
structure Sound (run : AggregateRun κ ζ) (record : RowKind × ρ) : Prop where
  together : ¬ o.Global → ¬ Ignored o run record → ∀ key, run.groups.contains key = true →
    run.owners.get? key = some (o.groupOf record.2) → o.stateKey pickle record.2 = key
  quiet : o.Global → ¬ Ignored o run record →
    ∀ aggregate ∈ o.aggregateExpressions, aggregate.argument ≠ none ∧ aggregate.valueOf record.2 = none

section lemmas
variable {o}

omit [DecidableEq κ] [DecidableEq ζ] in
theorem result_identity (accumulator : Accumulator κ) (key : List (Value ζ)) :
    (o.result accumulator key).map (Option.map resultIdentity) = resultAt o accumulator (key.map Value.identity) := by
  unfold SQLAggregateOperator.result resultAt
  generalize List.zipWith (fun aggregate item => Item.aggregateValue aggregate.kind item) o.aggregateExpressions
    accumulator.aggregates = values
  have mapped := o.toSQLAggregateOperator.resultOf_map Value.identity id (accumulator.rowCount = 0) values key
  rw [List.map_id] at mapped
  rw [mapped]
  cases o.resultOf (accumulator.rowCount = 0) values key with
  | error raised => rfl
  | ok result => cases result <;> rfl

omit [DecidableEq κ] [DecidableEq ζ] in
theorem groupOf_global (global : o.Global) (row : ρ) : o.groupOf row = [] := by
  have length := o.evaluated row
  rw [show o.groupExpressions = [] from global] at length
  unfold GroupedAggregate.groupOf
  rw [eq_nil_of_length_eq_zero length]
  rfl

omit [DecidableEq κ] [DecidableEq ζ] in
theorem stateKey_group (injective : Function.Injective pickle) (row other : ρ)
    (same : o.stateKey pickle row = o.stateKey pickle other) : o.groupOf row = o.groupOf other := by
  by_cases global : o.Global
  · rw [groupOf_global global,groupOf_global global]
  · have written (row : ρ) : ∃ places, o.stateKey pickle row = pickle (.tuple (o.groupOf row) places) ∨
        o.stateKey pickle row = pickle (.group (pickle (.tuple (o.groupOf row) places))) := by
      refine ⟨(o.groupKey row).places,?_⟩
      unfold GroupedAggregate.stateKey
      rw [if_neg global]
      unfold encodeKey
      cases canonical : (o.groupKey row).values.mapM Value.canonicalize with
      | error raised => exact .inr rfl
      | ok identities =>
        obtain ⟨-,rfl⟩ := (JoinKeys.canonicalize_mapM _ identities).mp canonical
        exact .inl rfl
    obtain ⟨places,one⟩ := written row
    obtain ⟨places',another⟩ := written other
    rcases one with one | one
    · rcases another with another | another
      · exact (Pickled.tuple.inj (injective (one.symm.trans (same.trans another)))).1
      · cases injective (one.symm.trans (same.trans another))
    · rcases another with another | another
      · cases injective (one.symm.trans (same.trans another))
      · have inner := Pickled.group.inj (injective (one.symm.trans (same.trans another)))
        exact (Pickled.tuple.inj (injective inner)).1

omit [DecidableEq κ] in
theorem emitChange_fold (previous current : Option (ResultRow ζ)) (table : Multiset (ResultIdentity ζ)) :
    Changelog.fold (((previous.map resultIdentity).toList : Multiset (ResultIdentity ζ)) + table)
        ((GroupedAggregate.emitChange previous current).map (fun output => (output.1,resultIdentity output.2))) =
      some (((current.map resultIdentity).toList : Multiset (ResultIdentity ζ)) + table) := by
  have none' : ((Option.map resultIdentity (none : Option (ResultRow ζ))).toList : Multiset (ResultIdentity ζ)) + table = table :=
    zero_add table
  cases previous with
  | none =>
    rw [none']
    cases current with
    | none => exact congrArg some none'.symm
    | some current => exact fold_additions .insert rfl [resultIdentity current] table
  | some previous =>
    have gone (kind : RowKind) (retraction : kind.isAddition = false) :=
      fold_retractions kind retraction [resultIdentity previous] _ table rfl
    cases current with
    | none =>
      rw [none']
      exact gone .delete rfl
    | some current =>
      unfold GroupedAggregate.emitChange
      dsimp only
      by_cases same : resultIdentity previous = resultIdentity current
      · rw [if_pos same,map_some,map_some,same]
        rfl
      · rw [if_neg same]
        have come := fold_additions .updateAfter rfl [resultIdentity current] table
        exact (fold_append _ [(RowKind.updateBefore,resultIdentity previous)] [(.updateAfter,resultIdentity current)]).trans
          ((congrArg (fun table => Option.bind table _) (gone .updateBefore rfl)).trans come)

omit [DecidableEq κ] [DecidableEq ζ] in
theorem resultAt_present (accumulator : Accumulator κ) (group : List (Identity ζ)) (result : Option (ResultIdentity ζ))
    (present : accumulator.rowCount ≠ 0) (done : resultAt o accumulator group = .ok result) : ∃ row, result = some row := by
  unfold resultAt SQLAggregateOperator.resultOf at done
  rw [if_neg (fun both => present both.1)] at done
  generalize SQLAggregateOperator.project _ _ _ _ = projected at done
  cases projected with
  | error raised => cases done
  | ok row =>
    obtain rfl := Except.ok.inj done
    exact ⟨_,rfl⟩

omit [DecidableEq κ] [DecidableEq ζ] in
theorem resultAt_absent (grouped : ¬ o.Global) (accumulator : Accumulator κ) (group : List (Identity ζ))
    (absent : accumulator.rowCount = 0) : resultAt o accumulator group = .ok none := by
  unfold resultAt SQLAggregateOperator.resultOf
  rw [if_pos ⟨absent,grouped⟩]
  rfl

omit [DecidableEq ζ] in
theorem refused_empty (row : ρ) (addition changed : Bool) (after : Accumulator κ) (retraction : addition = false)
    (done : o.applyRow o.emptyAccumulator row addition = .ok (changed,after)) : changed = false := by
  obtain ⟨no,-⟩ | ⟨-,-,-,cases'⟩ := SQLAggregateOperator.applyRow_cases done
  · exact no
  · obtain ⟨-,-,yes⟩ | ⟨counts,-,kept,-,-,some'⟩ := cases'
    · cases retraction.symm.trans yes
    · unfold SQLAggregateOperator.emptyAccumulator at kept
      dsimp only at kept
      split at kept
      · obtain rfl := some.inj kept
        exact absurd rfl (some' retraction)
      · cases kept

theorem step_cases (run next : AggregateRun κ ζ) (record : RowKind × ρ) (taken : step o pickle run record = some next) :
    ∃ accumulator previous changed after,
      accumulator = (run.groups.get? (o.stateKey pickle record.2)).getD o.emptyAccumulator ∧
      resultAt o accumulator (o.groupOf record.2) = .ok (Option.map resultIdentity previous) ∧
      o.applyRow accumulator record.2 record.1.isAddition = .ok (changed,after) ∧
      ((changed = false ∧ next = ⟨run.groups,run.owners.set (o.stateKey pickle record.2) (o.groupOf record.2),
          changeLive run.live record.1.isAddition (o.groupOf record.2,o.rowKey record.2),run.emitted⟩) ∨
        (changed = true ∧ ∃ current, resultAt o after (o.groupOf record.2) = .ok (Option.map resultIdentity current) ∧
          next = ⟨if after.rowCount ≠ 0 then run.groups.set (o.stateKey pickle record.2) after
              else run.groups.erase (o.stateKey pickle record.2),
            run.owners.set (o.stateKey pickle record.2) (o.groupOf record.2),
            changeLive run.live record.1.isAddition (o.groupOf record.2,o.rowKey record.2),
            run.emitted ++ (GroupedAggregate.emitChange previous current).map
              (fun output => (output.1,resultIdentity output.2))⟩)) := by
  have identity (accumulator : Accumulator κ) (result : Option (ResultRow ζ))
      (done : o.result accumulator (o.groupKey record.2).values = .ok result) :
      resultAt o accumulator (o.groupOf record.2) = .ok (Option.map resultIdentity result) := by
    have mapped := result_identity (o := o) accumulator (o.groupKey record.2).values
    rw [done] at mapped
    exact mapped.symm
  unfold step at taken
  cases processed : o.processManagedElement pickle run.groups record.1 record.2 with
  | error raised =>
    rw [processed] at taken
    cases taken
  | ok outcome =>
    rw [processed] at taken
    obtain rfl := some.inj taken
    unfold GroupedAggregate.processManagedElement at processed
    obtain ⟨previous,before,processed⟩ := bind_ok processed
    obtain ⟨⟨changed,after⟩,applied,processed⟩ := bind_ok processed
    refine ⟨_,previous,changed,after,rfl,identity _ previous before,applied,?_⟩
    dsimp only at processed
    cases changed with
    | false =>
      obtain rfl := Except.ok.inj processed
      exact .inl ⟨rfl,by simp⟩
    | true =>
      rw [if_neg (by decide)] at processed
      obtain ⟨current,shown,processed⟩ := bind_ok processed
      obtain rfl := Except.ok.inj processed
      exact .inr ⟨rfl,current,identity _ current shown,rfl⟩

omit [DecidableEq κ] in
theorem emitChange_same (previous current : Option (ResultRow ζ))
    (same : previous.map resultIdentity = current.map resultIdentity) : GroupedAggregate.emitChange previous current = [] := by
  cases previous with
  | none =>
    cases current with
    | none => rfl
    | some current => cases same
  | some previous =>
    cases current with
    | none => cases same
    | some current => exact if_pos (some.inj same)

end lemmas

structure Counts (accumulator : Accumulator κ) (group : List (Identity ζ)) (live : List (List (Identity ζ) × κ)) : Prop where
  rowCount : accumulator.rowCount = (live.countP (fun entry => entry.1 = group) : Int)
  rowCounts : ∀ counts, accumulator.rowCounts = some counts →
    ∀ key, (counts.get? key).getD 0 = (live.count (group,key) : Int)

namespace Counts
variable {o} {accumulator next : Accumulator κ} {group : List (Identity ζ)} {live : List (List (Identity ζ) × κ)}

theorem empty (none' : ∀ entry ∈ live, entry.1 ≠ group) : Counts o.emptyAccumulator group live := by
  refine ⟨?_,fun counts kept key => ?_⟩
  · rw [countP_eq_zero.mpr (fun entry inside => by simpa using none' entry inside)]
    rfl
  · have absent : (group,key) ∉ live := fun inside => none' _ inside rfl
    rw [count_eq_zero.mpr absent]
    unfold SQLAggregateOperator.emptyAccumulator at kept
    dsimp only at kept
    split at kept
    · obtain rfl := some.inj kept
      rfl
    · cases kept

theorem other (counts : Counts accumulator group live) (addition : Bool) (entry : List (Identity ζ) × κ) (different : entry.1 ≠ group) :
    Counts accumulator group (changeLive live addition entry) := by
  have key (key : κ) : (group,key) ≠ entry := fun same => different (by rw [← same])
  unfold changeLive
  cases addition with
  | true =>
    refine ⟨?_,fun rowCounts kept index => ?_⟩
    · rw [if_pos rfl,countP_append,counts.rowCount]
      simp [different]
    · rw [if_pos rfl,count_append,counts.rowCounts rowCounts kept index]
      simp [Ne.symm (key index)]
  | false =>
    rw [if_neg (by decide)]
    by_cases inside : entry ∈ live
    · have perm := perm_cons_erase inside
      refine ⟨?_,fun rowCounts kept index => ?_⟩
      · rw [counts.rowCount,perm.countP_eq,countP_cons_of_neg (by simpa using different)]
      · rw [counts.rowCounts rowCounts kept index,count_erase_of_ne (key index)]
    · rw [erase_of_not_mem inside]
      exact counts

theorem live_count (addition : Bool) (entry : List (Identity ζ) × κ) (present : addition = false → entry ∈ live)
    (other : List (Identity ζ) × κ) :
    ((changeLive live addition entry).count other : Int) =
      live.count other + if other = entry then Item.direction addition else 0 := by
  unfold changeLive
  cases addition with
  | true =>
    rw [if_pos rfl,count_append,count_singleton]
    by_cases same : other = entry
    · simp [same,Item.direction]
    · simp [same,Ne.symm same]
  | false =>
    rw [if_neg (by decide)]
    by_cases same : other = entry
    · rw [if_pos same,same,count_erase_self]
      have some' := count_pos_iff.mpr (present rfl)
      simp only [Item.direction,Bool.false_eq_true,if_false]
      omega
    · rw [if_neg same,count_erase_of_ne same,Int.add_zero]

theorem live_countP (addition : Bool) (key : κ) (present : addition = false → (group,key) ∈ live) :
    ((changeLive live addition (group,key)).countP (fun entry => entry.1 = group) : Int) =
      live.countP (fun entry => entry.1 = group) + Item.direction addition := by
  unfold changeLive
  cases addition with
  | true =>
    rw [if_pos rfl,countP_append]
    simp [Item.direction]
  | false =>
    have perm := perm_cons_erase (present rfl)
    rw [if_neg (by decide),perm.countP_eq,countP_cons_of_pos (by simp)]
    simp [Item.direction]

theorem applyRow (counts : Counts accumulator group live) (row : ρ) (addition changed : Bool)
    (done : o.applyRow accumulator row addition = .ok (changed,next)) :
    (changed = false ∧ next = accumulator ∧ changeLive live addition (group,o.rowKey row) = live) ∨
      (changed = true ∧ (addition = false → (group,o.rowKey row) ∈ live) ∧
        Counts next group (changeLive live addition (group,o.rowKey row))) := by
  obtain ⟨rfl,rfl,rfl,rowCounts,kept,none'⟩ | ⟨rfl,rowCount,-,cases'⟩ := SQLAggregateOperator.applyRow_cases done
  · refine .inl ⟨rfl,rfl,?_⟩
    have absent : (group,o.rowKey row) ∉ live := by
      have counted := counts.rowCounts rowCounts kept (o.rowKey row)
      rw [none'] at counted
      exact count_eq_zero.mp (by omega)
    exact erase_of_not_mem absent
  · have present (retraction : addition = false) : (group,o.rowKey row) ∈ live := by
      obtain ⟨-,-,rfl⟩ | ⟨rowCounts,-,kept,-,-,some'⟩ := cases'
      · cases retraction
      · have counted := counts.rowCounts rowCounts kept (o.rowKey row)
        exact count_pos_iff.mp (by have := some' retraction; omega)
    refine .inr ⟨rfl,present,?_,fun after stored key => ?_⟩
    · rw [rowCount,live_countP addition _ present,counts.rowCount]
    · obtain ⟨-,insertOnly,-⟩ | ⟨rowCounts,after',kept,stored',moved,-⟩ := cases'
      · rw [insertOnly] at stored
        cases stored
      · obtain rfl := some.inj (stored'.symm.trans stored)
        rw [moved,live_count addition _ present,counts.rowCounts rowCounts kept key]
        simp

end Counts

structure Consistent (o : GroupedAggregate ρ κ remembered) (pickle : Pickled ζ → Bytes) (run : AggregateRun κ ζ) : Prop where
  owned : ∀ key group, run.owners.get? key = some group → ∃ row, o.stateKey pickle row = key ∧ o.groupOf row = group
  stored : ∀ key accumulator, run.groups.get? key = some accumulator →
    ∃ group result, run.owners.get? key = some group ∧ Counts accumulator group run.live ∧ accumulator.rowCount ≠ 0 ∧
      resultAt o accumulator group = .ok (some result)
  single : ∀ key other group, run.groups.contains key = true → run.groups.contains other = true →
    run.owners.get? key = some group → run.owners.get? other = some group → key = other
  placed : ∀ entry ∈ run.live, ∃ key, run.groups.contains key = true ∧ run.owners.get? key = some entry.1
  folded : Changelog.fold 0 run.emitted = some (run.groups.entries.filterMap (shown o run.owners) : Multiset (ResultIdentity ζ))

namespace Consistent
variable {o pickle} {run next : AggregateRun κ ζ}

theorem initial : Consistent o pickle (initial : AggregateRun κ ζ) := by
  refine ⟨fun key group found => ?_,fun key accumulator found => ?_,fun key other group held => ?_,fun entry inside => ?_,rfl⟩
  · cases found
  · cases found
  · cases held
  · cases inside

section
variable (consistent : Consistent o pickle run) (injective : Function.Injective pickle) (row : ρ)
include consistent injective row

theorem owners_set (key : Bytes)
    (group : List (Identity ζ)) :
    (run.owners.set (o.stateKey pickle row) (o.groupOf row)).get? key = some group ↔
      run.owners.get? key = some group ∨ (key = o.stateKey pickle row ∧ group = o.groupOf row) := by
  rw [Dict.get?_set]
  by_cases own : key = o.stateKey pickle row
  · rw [if_pos own]
    refine ⟨fun same => .inr ⟨own,(some.inj same).symm⟩,fun either => ?_⟩
    rcases either with found | ⟨-,rfl⟩
    · obtain ⟨other,keyed,rfl⟩ := consistent.owned key group found
      rw [stateKey_group pickle injective other row (keyed.trans own)]
    · rfl
  · rw [if_neg own]
    exact ⟨.inl,fun either => either.resolve_right (fun both => own both.1)⟩

theorem unchanged :
    Consistent o pickle {run with owners := run.owners.set (o.stateKey pickle row) (o.groupOf row)} := by
  have kept (key : Bytes) (held : run.groups.contains key = true) :
      (run.owners.set (o.stateKey pickle row) (o.groupOf row)).get? key = run.owners.get? key := by
    rw [contains_eq_isSome] at held
    obtain ⟨accumulator,found⟩ := isSome_iff_exists.mp held
    obtain ⟨group,result,owner,-⟩ := consistent.stored key accumulator found
    rw [owner]
    exact (consistent.owners_set injective row key group).mpr (.inl owner)
  have has (key : Bytes) (accumulator : Accumulator κ) (found : run.groups.get? key = some accumulator) :
      run.groups.contains key = true := by rw [contains_eq_isSome,found]; rfl
  refine ⟨fun key group found => ?_,fun key accumulator found => ?_,fun key other group held held' owner owner' => ?_,
    fun entry inside => ?_,?_⟩
  · rcases (consistent.owners_set injective row key group).mp found with old | ⟨rfl,rfl⟩
    · exact consistent.owned key group old
    · exact ⟨row,rfl,rfl⟩
  · obtain ⟨group,result,owner,rest⟩ := consistent.stored key accumulator found
    exact ⟨group,result,(kept key (has key accumulator found)).trans owner,rest⟩
  · exact consistent.single key other group held held' ((kept key held).symm.trans owner) ((kept other held').symm.trans owner')
  · obtain ⟨key,held,owner⟩ := consistent.placed entry inside
    exact ⟨key,held,(kept key held).trans owner⟩
  · rw [consistent.folded]
    apply congrArg (fun rows : List (ResultIdentity ζ) => some (rows : Multiset (ResultIdentity ζ)))
    apply filterMap_congr
    intro entry inside
    have found := (Dict.get?_eq_some run.groups entry.1 entry.2).mpr inside
    unfold shown
    rw [← kept entry.1 (has entry.1 entry.2 found)]

end

omit [DecidableEq κ] [DecidableEq ζ] in
theorem settle (groups : Dict Bytes (Accumulator κ)) (key : Bytes) (accumulator : Accumulator κ) :
    ∃ settled, settled = (if accumulator.rowCount ≠ 0 then groups.set key accumulator else groups.erase key) ∧
      (∀ other, settled.get? other =
        if other = key then (if accumulator.rowCount ≠ 0 then some accumulator else none) else groups.get? other) ∧
      ∀ draw : Bytes × Accumulator κ → Option (ResultIdentity ζ), (settled.entries.filterMap draw).Perm
        ((if accumulator.rowCount ≠ 0 then draw (key,accumulator) else none).toList ++ (groups.erase key).entries.filterMap draw) := by
  refine ⟨_,rfl,fun other => ?_,fun draw => ?_⟩
  · by_cases present : accumulator.rowCount ≠ 0
    · rw [if_pos present,if_pos present,Dict.get?_set]
    · rw [if_neg present,if_neg present,Dict.get?_erase]
  · by_cases present : accumulator.rowCount ≠ 0
    · rw [if_pos present,if_pos present]
      exact filterMap_set groups key accumulator draw
    · rw [if_neg present,if_neg present]
      exact List.Perm.refl _

section
variable (consistent : Consistent o pickle run)
include consistent

theorem changed (injective : Function.Injective pickle) (row : ρ) (addition : Bool)
    (grouped : ¬ o.Global) (accumulator : Accumulator κ) (previous current : Option (ResultRow ζ))
    (together : ∀ key, run.groups.contains key = true → run.owners.get? key = some (o.groupOf row) → o.stateKey pickle row = key)
    (counts : Counts accumulator (o.groupOf row) (changeLive run.live addition (o.groupOf row,o.rowKey row)))
    (before : (run.groups.get? (o.stateKey pickle row)).bind (fun old => shown o run.owners (o.stateKey pickle row,old)) =
      previous.map resultIdentity)
    (after : resultAt o accumulator (o.groupOf row) = .ok (current.map resultIdentity)) :
    Consistent o pickle ⟨if accumulator.rowCount ≠ 0 then run.groups.set (o.stateKey pickle row) accumulator
        else run.groups.erase (o.stateKey pickle row),
      run.owners.set (o.stateKey pickle row) (o.groupOf row),
      changeLive run.live addition (o.groupOf row,o.rowKey row),
      run.emitted ++ (GroupedAggregate.emitChange previous current).map (fun output => (output.1,resultIdentity output.2))⟩ := by
  obtain ⟨settled,same,found,drawn⟩ := settle (ζ := ζ) run.groups (o.stateKey pickle row) accumulator
  rw [← same]
  have owners := consistent.owners_set injective row
  have others (key : Bytes) (different : key ≠ o.stateKey pickle row) :
      (run.owners.set (o.stateKey pickle row) (o.groupOf row)).get? key = run.owners.get? key := by
    rw [Dict.get?_set,if_neg different]
  have own : (run.owners.set (o.stateKey pickle row) (o.groupOf row)).get? (o.stateKey pickle row) = some (o.groupOf row) := by
    rw [Dict.get?_set,if_pos rfl]
  have held (key : Bytes) (contained : settled.contains key = true) (different : key ≠ o.stateKey pickle row) :
      run.groups.contains key = true := by
    rw [contains_eq_isSome,found,if_neg different] at contained
    rwa [contains_eq_isSome]
  -- no other accumulator is of the group of the row
  have apart (key : Bytes) (contained : run.groups.contains key = true) (different : key ≠ o.stateKey pickle row) :
      run.owners.get? key ≠ some (o.groupOf row) := fun owner => different (together key contained owner).symm
  have contains (key : Bytes) (accumulator : Accumulator κ) (stored : run.groups.get? key = some accumulator) :
      run.groups.contains key = true := by
    rw [contains_eq_isSome,stored]
    rfl
  refine ⟨fun key group owner => ?_,fun key other stored => ?_,fun key other group contained contained' owner owner' => ?_,
    fun entry inside => ?_,?_⟩
  · rcases (owners key group).mp owner with old | ⟨rfl,rfl⟩
    · exact consistent.owned key group old
    · exact ⟨row,rfl,rfl⟩
  · dsimp only at stored ⊢
    rw [found] at stored
    by_cases here : key = o.stateKey pickle row
    · subst here
      rw [if_pos rfl] at stored
      split at stored
      next present =>
        obtain rfl := some.inj stored
        obtain ⟨result,shown⟩ := resultAt_present _ _ _ present after
        exact ⟨o.groupOf row,result,own,counts,present,by rw [after,shown]⟩
      next => cases stored
    · rw [if_neg here] at stored
      obtain ⟨group,result,owner,counted,rest⟩ := consistent.stored key other stored
      refine ⟨group,result,(others key here).trans owner,counted.other addition _ (fun equal => ?_),rest⟩
      exact apart key (contains key other stored) here (by rw [owner,← equal])
  · dsimp only at owner owner' contained contained'
    by_cases here : key = o.stateKey pickle row
    · by_cases there : other = o.stateKey pickle row
      · exact here.trans there.symm
      · rw [here,own] at owner
        rw [others other there] at owner'
        exact absurd (owner'.trans owner.symm) (apart other (held other contained' there) there)
    · by_cases there : other = o.stateKey pickle row
      · rw [there,own] at owner'
        rw [others key here] at owner
        exact absurd (owner.trans owner'.symm) (apart key (held key contained here) here)
      · rw [others key here] at owner
        rw [others other there] at owner'
        exact consistent.single key other group (held key contained here) (held other contained' there) owner owner'
  · dsimp only at inside ⊢
    by_cases mine : entry.1 = o.groupOf row
    · -- the group has a row left, so its accumulator is kept
      have present : accumulator.rowCount ≠ 0 := by
        have some' := countP_pos_iff (p := fun entry => decide (entry.1 = o.groupOf row)).mpr ⟨entry,inside,decide_eq_true mine⟩
        have counted := counts.rowCount
        omega
      refine ⟨o.stateKey pickle row,?_,own.trans (congrArg some mine.symm)⟩
      rw [contains_eq_isSome,found,if_pos rfl,if_pos present]
      rfl
    · have left : entry ∈ run.live := by
        unfold changeLive at inside
        split at inside
        · rcases mem_append.mp inside with old | fresh
          · exact old
          · exact absurd (congrArg Prod.fst (mem_singleton.mp fresh)) mine
        · exact mem_of_mem_erase inside
      obtain ⟨key,contained,owner⟩ := consistent.placed entry left
      have here : key ≠ o.stateKey pickle row := by
        rintro rfl
        have wrong := (owners _ _).mpr (.inl owner)
        exact mine (some.inj (wrong.symm.trans own))
      refine ⟨key,?_,(others key here).trans owner⟩
      rw [contains_eq_isSome,found,if_neg here,← contains_eq_isSome]
      exact contained
  · -- the other results are shown as before
    have rest : (run.groups.erase (o.stateKey pickle row)).entries.filterMap (shown o run.owners) =
        (run.groups.erase (o.stateKey pickle row)).entries.filterMap
          (shown o (run.owners.set (o.stateKey pickle row) (o.groupOf row))) := by
      apply filterMap_congr
      intro entry inside
      have stored := (Dict.get?_eq_some _ entry.1 entry.2).mpr inside
      rw [Dict.get?_erase] at stored
      have different : entry.1 ≠ o.stateKey pickle row := fun equal => by
        rw [if_pos equal] at stored
        cases stored
      unfold shown
      rw [others entry.1 different]
    have table : (run.groups.entries.filterMap (shown o run.owners) : Multiset (ResultIdentity ζ)) =
        ((previous.map resultIdentity).toList : Multiset (ResultIdentity ζ)) +
          ((run.groups.erase (o.stateKey pickle row)).entries.filterMap (shown o run.owners) : List _) := by
      rw [← before]
      exact Multiset.coe_eq_coe.mpr (filterMap_perm run.groups (o.stateKey pickle row) (shown o run.owners))
    have result : (if accumulator.rowCount ≠ 0 then
          shown o (run.owners.set (o.stateKey pickle row) (o.groupOf row)) (o.stateKey pickle row,accumulator) else none) =
        current.map resultIdentity := by
      by_cases present : accumulator.rowCount ≠ 0
      · rw [if_pos present]
        unfold shown
        rw [own,bind_some,after]
        rfl
      · rw [if_neg present]
        have none' := resultAt_absent grouped accumulator (o.groupOf row) (by omega)
        exact Except.ok.inj (none'.symm.trans after)
    dsimp only
    rw [fold_append,consistent.folded,bind_some,table,emitChange_fold]
    apply congrArg some
    rw [← result,rest]
    exact (Multiset.coe_eq_coe.mpr (drawn _)).symm

theorem step (injective : Function.Injective pickle) (grouped : ¬ o.Global)
    (record : RowKind × ρ) (sound : Sound o pickle run record) (taken : AggregateRun.step o pickle run record = some next) :
    Consistent o pickle next := by
  obtain ⟨accumulator,previous,change,after,met,before,applied,result⟩ := step_cases pickle run next record taken
  -- an accumulator of the group, or none for it
  have stored (old : Accumulator κ) (found : run.groups.get? (o.stateKey pickle record.2) = some old) :
      run.owners.get? (o.stateKey pickle record.2) = some (o.groupOf record.2) ∧ Counts old (o.groupOf record.2) run.live := by
    obtain ⟨group,result,owner,counts,-⟩ := consistent.stored _ old found
    obtain ⟨other,keyed,rfl⟩ := consistent.owned _ group owner
    have same := stateKey_group pickle injective other record.2 keyed
    exact ⟨owner.trans (congrArg some same),same ▸ counts⟩
  have shown' : (run.groups.get? (o.stateKey pickle record.2)).bind
      (fun old => shown o run.owners (o.stateKey pickle record.2,old)) = previous.map resultIdentity := by
    cases found : run.groups.get? (o.stateKey pickle record.2) with
    | none =>
      rw [found] at met
      have none' := resultAt_absent grouped accumulator (o.groupOf record.2) (by rw [met]; rfl)
      exact (Except.ok.inj (none'.symm.trans before))
    | some old =>
      rw [found] at met
      unfold shown
      rw [bind_some,(stored old found).1,bind_some,← (show accumulator = old from met),before]
      rfl
  by_cases ignored : Ignored o run record
  · have refused : change = false := by
      cases found : run.groups.get? (o.stateKey pickle record.2) with
      | none =>
        rw [found] at met
        rw [met] at applied
        exact refused_empty record.2 _ change after ignored.1 applied
      | some old =>
        rw [found] at met
        subst met
        rcases (stored _ found).2.applyRow record.2 _ change applied with ⟨no,-⟩ | ⟨-,inside,-⟩
        · exact no
        · exact absurd (inside ignored.1) ignored.2
    rcases result with ⟨-,rfl⟩ | ⟨yes,-⟩
    · unfold changeLive
      rw [ignored.1,if_neg (by decide),erase_of_not_mem ignored.2]
      exact consistent.unchanged injective record.2
    · cases refused.symm.trans yes
  · have together := sound.together grouped ignored
    have counts : Counts accumulator (o.groupOf record.2) run.live := by
      cases found : run.groups.get? (o.stateKey pickle record.2) with
      | none =>
        rw [found] at met
        rw [met]
        refine Counts.empty (fun entry inside same => ?_)
        obtain ⟨key,contained,owner⟩ := consistent.placed entry inside
        rw [same] at owner
        rw [← together key contained owner,contains_eq_isSome,found] at contained
        cases contained
      | some old =>
        rw [found] at met
        exact met ▸ (stored old found).2
    rcases counts.applyRow record.2 _ change applied with ⟨rfl,rfl,same⟩ | ⟨rfl,-,counted⟩
    · rcases result with ⟨-,rfl⟩ | ⟨yes,-⟩
      · rw [same]
        exact consistent.unchanged injective record.2
      · cases yes
    · rcases result with ⟨no,-⟩ | ⟨-,current,shown,rfl⟩
      · cases no
      · exact consistent.changed injective record.2 _ grouped after previous current together counted shown' shown

section
variable (entry : Bytes × Accumulator κ) (inside : entry ∈ run.groups.entries)
include inside

theorem current_eq
    (group : List (Identity ζ)) (owner : run.owners.get? entry.1 = some group) : current o run group = shown o run.owners entry := by
  have contains (entry : Bytes × Accumulator κ) (inside : entry ∈ run.groups.entries) : run.groups.contains entry.1 = true := by
    rw [contains_eq_isSome,(Dict.get?_eq_some run.groups entry.1 entry.2).mpr inside]
    rfl
  unfold current
  cases found : run.groups.entries.find? (fun entry => decide (run.owners.get? entry.1 = some group)) with
  | none =>
    have refused := find?_eq_none.mp found entry inside
    exact absurd (decide_eq_true owner) refused
  | some other =>
    have within := mem_of_find?_eq_some found
    have test := find?_some found
    have owner' : run.owners.get? other.1 = some group := of_decide_eq_true test
    have same := consistent.single entry.1 other.1 group (contains entry inside) (contains other within) owner owner'
    have value := (Dict.get?_eq_some run.groups other.1 other.2).mpr within
    rw [← same,(Dict.get?_eq_some run.groups entry.1 entry.2).mpr inside] at value
    rw [bind_some,show other = entry from Prod.ext same.symm (some.inj value).symm]

theorem stored_mem :
    ∃ group result, run.owners.get? entry.1 = some group ∧ Counts entry.2 group run.live ∧ entry.2.rowCount ≠ 0 ∧
      shown o run.owners entry = some result := by
  obtain ⟨group,result,owner,counts,present,shows⟩ :=
    consistent.stored entry.1 entry.2 ((Dict.get?_eq_some run.groups entry.1 entry.2).mpr inside)
  refine ⟨group,result,owner,counts,present,?_⟩
  unfold shown
  rw [owner,bind_some,shows]
  rfl

end

theorem owners_perm :
    (run.groups.entries.filterMap (fun entry => run.owners.get? entry.1)).Perm run.liveGroups := by
  refine (perm_ext_iff_of_nodup ?_ (nodup_dedup _)).mpr (fun group => ?_)
  · refine pairwise_filterMap.mpr ?_
    have distinct : run.groups.entries.Pairwise (fun one other => one.1 ≠ other.1) := pairwise_map.mp run.groups.distinct
    refine distinct.imp_of_mem (fun {one other} inside within different group owner group' owner' same => different ?_)
    subst same
    refine consistent.single one.1 other.1 group ?_ ?_ owner owner'
    · rw [contains_eq_isSome,(Dict.get?_eq_some run.groups one.1 one.2).mpr inside]
      rfl
    · rw [contains_eq_isSome,(Dict.get?_eq_some run.groups other.1 other.2).mpr within]
      rfl
  · rw [mem_dedup,mem_filterMap,List.mem_map]
    constructor
    · intro ⟨entry,inside,owner⟩
      obtain ⟨group',result,owner',counts,present,-⟩ := consistent.stored_mem entry inside
      obtain rfl := some.inj (owner.symm.trans owner')
      have some' : 0 < run.live.countP (fun entry => decide (entry.1 = group)) := by
        have counted := counts.rowCount
        omega
      obtain ⟨row,left,same⟩ := countP_pos_iff.mp some'
      exact ⟨row,left,of_decide_eq_true same⟩
    · intro ⟨row,left,same⟩
      obtain ⟨key,contained,owner⟩ := consistent.placed row left
      rw [contains_eq_isSome] at contained
      obtain ⟨accumulator,found⟩ := isSome_iff_exists.mp contained
      exact ⟨(key,accumulator),(Dict.get?_eq_some run.groups key accumulator).mp found,owner.trans (congrArg some same)⟩

theorem folds (grouped : ¬ o.Global) : Folds o pickle run := by
  refine ⟨_,consistent.folded,fun _ => ⟨?_,fun group inside => ?_⟩,fun global => absurd global grouped⟩
  · refine Multiset.coe_eq_coe.mpr (List.Perm.trans ?_ (consistent.owners_perm.filterMap (current o run)))
    rw [filterMap_filterMap]
    refine List.Perm.of_eq (filterMap_congr (fun entry inside => ?_))
    obtain ⟨group,result,owner,-⟩ := consistent.stored_mem entry inside
    rw [owner,bind_some,consistent.current_eq entry inside group owner]
  · obtain ⟨entry,within,owner⟩ := mem_filterMap.mp (consistent.owners_perm.mem_iff.mpr inside)
    obtain ⟨-,result,-,-,-,shows⟩ := consistent.stored_mem entry within
    rw [consistent.current_eq entry within group owner,shows]
    rfl

end

end Consistent

structure Quiet (o : GroupedAggregate ρ κ remembered) (pickle : Pickled ζ → Bytes) (run : AggregateRun κ ζ) : Prop where
  counts : Counts ((run.groups.get? (pickle (.tuple [.text "__klein_global_aggregate__"] [0]))).getD o.emptyAccumulator) [] run.live
  all : ∀ entry ∈ run.live, entry.1 = []
  nothing : run.emitted = []

namespace Quiet
variable {o pickle} {run next : AggregateRun κ ζ}

theorem initial : Quiet o pickle (initial : AggregateRun κ ζ) :=
  ⟨Counts.empty (fun _ inside => absurd inside not_mem_nil),fun _ inside => absurd inside not_mem_nil,rfl⟩

omit [DecidableEq κ] [DecidableEq ζ] in
theorem updateAll_quiet (row : ρ) (addition : Bool) (aggregates : List (Aggregate ρ)) (items next : List Item)
    (quiet : ∀ aggregate ∈ aggregates, aggregate.argument ≠ none ∧ aggregate.valueOf row = none)
    (done : SQLAggregateOperator.updateAll row addition aggregates items = .ok next) : next = items := by
  induction aggregates generalizing items next with
  | nil =>
    cases items with
    | nil => exact (Except.ok.inj done).symm
    | cons item items => cases done
  | cons aggregate rest ih =>
    obtain ⟨⟨called,silent⟩,others⟩ := forall_mem_cons.mp quiet
    cases items with
    | nil => cases done
    | cons item items =>
      unfold SQLAggregateOperator.updateAll at done
      obtain ⟨first,updated,done⟩ := bind_ok done
      obtain ⟨later,remaining,done⟩ := bind_ok done
      obtain rfl := Except.ok.inj done
      obtain ⟨argument,evaluated⟩ := ne_none_iff_exists'.mp called
      have same : first = item := by
        unfold Aggregate.update at updated
        unfold Aggregate.valueOf at silent
        rw [evaluated,bind_some] at silent
        rw [evaluated] at updated
        dsimp only at updated
        rw [silent] at updated
        exact (Except.ok.inj updated).symm
      rw [same,ih items later others remaining]

theorem step (quiet : Quiet o pickle run) (global : o.Global) (record : RowKind × ρ) (sound : Sound o pickle run record)
    (taken : AggregateRun.step o pickle run record = some next) : Quiet o pickle next := by
  obtain ⟨accumulator,previous,change,after,met,before,applied,result⟩ := step_cases pickle run next record taken
  have key : o.stateKey pickle record.2 = pickle (.tuple [.text "__klein_global_aggregate__"] [0]) := if_pos global
  rw [key] at met result
  rw [groupOf_global global] at before result
  have counts : Counts accumulator [] run.live := met ▸ quiet.counts
  have all : ∀ entry ∈ changeLive run.live record.1.isAddition ([],o.rowKey record.2), entry.1 = [] := by
    intro entry inside
    unfold changeLive at inside
    split at inside
    · rcases mem_append.mp inside with old | fresh
      · exact quiet.all entry old
      · rw [mem_singleton.mp fresh]
    · exact quiet.all entry (mem_of_mem_erase inside)
  rcases counts.applyRow record.2 _ change applied with ⟨rfl,rfl,same⟩ | ⟨rfl,inside,counted⟩
  · rcases result with ⟨-,rfl⟩ | ⟨yes,-⟩
    · rw [same]
      exact {quiet with}
    · cases yes
  · rcases result with ⟨no,-⟩ | ⟨-,current,shown,rfl⟩
    · cases no
    · have heard : ¬ Ignored o run record := fun ignored => ignored.2 (by rw [groupOf_global global]; exact inside ignored.1)
      -- the aggregates are as before, so the result is
      have aggregates : after.aggregates = accumulator.aggregates := by
        obtain ⟨no,-⟩ | ⟨-,-,updated,-⟩ := SQLAggregateOperator.applyRow_cases applied
        · cases no
        · exact updateAll_quiet record.2 _ _ _ _ (sound.quiet global heard) updated
      have result : resultAt o after [] = resultAt o accumulator [] := by
        unfold resultAt SQLAggregateOperator.resultOf
        rw [aggregates,if_neg (fun both => both.2 global),if_neg (fun both => both.2 global)]
      rw [result,before] at shown
      have silent := emitChange_same previous current (Except.ok.inj shown)
      obtain ⟨settled,same,found,-⟩ := Consistent.settle (ζ := ζ) run.groups
        (pickle (.tuple [.text "__klein_global_aggregate__"] [0])) after
      refine ⟨?_,all,?_⟩
      · dsimp only
        rw [← same,found,if_pos rfl]
        by_cases present : after.rowCount ≠ 0
        · rw [if_pos present]
          exact counted
        · rw [if_neg present]
          refine Counts.empty (fun entry within wrong => ?_)
          have some' := countP_pos_iff (p := fun entry => decide (entry.1 = ([] : List (Identity ζ)))).mpr
            ⟨entry,within,decide_eq_true wrong⟩
          have number := counted.rowCount
          omega
      · rw [silent,quiet.nothing]
        rfl

theorem folds (quiet : Quiet o pickle run) (global : o.Global) : Folds o pickle run := by
  refine ⟨0,?_,fun grouped => absurd global grouped,fun _ some' => absurd quiet.nothing some'⟩
  rw [quiet.nothing]
  rfl

end Quiet

section runs
open JoinKeys

/-- `SELECT a, SUM(v) AS total … GROUP BY a, b` over rows whose two texts are `qz`; a row is
its `v` and the object of its second text. -/
def groupedSums : GroupedAggregate (Number × Nat) Real strings where
  groupExpressions := ["a","b"]
  projections := [.scalar "a" "a",.aggregate "total" ⟨.sum,some (fun row => some row.1),nofun⟩]
  retractable := true
  rowKey := fun row => row.1.real
  groupKey := fun row => pair 0 row.2
  evaluated := fun _ => rfl

def oneGroup : List (RowKind × (Number × Nat)) :=
  [(.insert,SQLAggregateOperator.half,0),(.insert,.exact 1,0),(.delete,.exact 1,0)]

theorem keys_sound (record : RowKind × (Number × Nat)) (run : AggregateRun Real Int)
    (keys : ∀ key ∈ run.groups.keys, groupedSums.stateKey dumps record.2 = key) : Sound groupedSums dumps run record := by
  refine ⟨fun _ _ key contained _ => ?_,fun global => nomatch global⟩
  rw [contains_eq_isSome] at contained
  exact keys key ((Dict.mem_keys _ key).mpr (isSome_iff_exists.mp contained))

theorem keys_after (labels : List (RowKind × (Number × Nat))) (final : AggregateRun Real Int) (row : Number × Nat)
    (reached : exec (step groupedSums dumps) initial labels = some final)
    (check : (exec (step groupedSums dumps) initial labels).all
      (fun final => decide (final.groups.keys = [groupedSums.stateKey dumps row])) = true) :
    ∀ key ∈ final.groups.keys, groupedSums.stateKey dumps row = key := by
  intro key inside
  rw [reached] at check
  rw [show final.groups.keys = [groupedSums.stateKey dumps row] from of_decide_eq_true check] at inside
  exact (mem_singleton.mp inside).symm

theorem oneGroup_sound : Along (step groupedSums dumps) (Sound groupedSums dumps) initial oneGroup := by
  refine ⟨keys_sound _ _ (fun key inside => absurd inside not_mem_nil),fun first taken => ⟨?_,fun second taken' =>
    ⟨?_,fun _ _ => trivial⟩⟩⟩
  · have reached : exec (step groupedSums dumps) initial (oneGroup.take 1) = some first := by
      rw [mem_def] at taken
      simp [oneGroup,taken]
    exact keys_sound _ first (keys_after _ first (.exact 1,0) reached (by decide +kernel))
  · have reached : exec (step groupedSums dumps) initial (oneGroup.take 2) = some second := by
      rw [mem_def] at taken taken'
      simp [oneGroup,taken,taken']
    exact keys_sound _ second (keys_after _ second (.exact 1,0) reached (by decide +kernel))

/-- `SELECT SUM(v) AS total` over rows of one number. -/
def sums : GroupedAggregate Number Real strings where
  toSQLAggregateOperator := SQLAggregateOperator.sumQuery
  groupKey := fun _ => ⟨[],by simp⟩
  evaluated := fun _ => rfl

end runs

end AggregateRun
end Klein.Sql
