import Klein.Dict
import Klein.Runs
import Klein.Sql.Changelog
import Klein.Sql.JoinKeys

/-! The streaming regular join (`runtime/operator/sql_join_operator.py`) without
time-to-live: two list states for each join key, and the changelog that it emits. The
tables of its inputs and the table that its output folds to stand beside it. Rows are
counted by their identity, which leaves out how they share objects. -/
namespace Klein.Sql
open Changelog List Option Runs

abbrev Row (ζ : Type) := Dict String (Value ζ)

abbrev RowIdentity (ζ : Type) := String → Option (Identity ζ)

namespace Row
variable {ζ : Type}

def identity (row : Row ζ) : RowIdentity ζ := fun column => (row.get? column).map Value.identity

/-- `==` of a dictionary that was read from state and another one. -/
def equal [DecidableEq ζ] (zones : Zones ζ) (stored row : Row ζ) : Bool :=
  stored.entries.length = row.entries.length && stored.entries.all (fun entry =>
    match row.get? entry.1 with
    | some value => entry.2.equal zones value
    | none => false)

end Row

inductive Side where
  | left
  | right
  deriving DecidableEq

def Side.other : Side → Side
  | .left => .right
  | .right => .left

structure JoinColumns where
  left : List String
  right : List String

def JoinColumns.of (columns : JoinColumns) : Side → List String
  | .left => columns.left
  | .right => columns.right

structure JoinRecord {ζ : Type} (columns : JoinColumns) (remembered : Identity ζ → Nat) where
  side : Side
  kind : RowKind
  row : Row ζ
  key : JoinKey remembered
  selected : (columns.of side).map row.get? = key.values.map some

/-- The list states `sql-join-left` and `sql-join-right` by encoded key. -/
structure SQLRegularJoinOperator (ζ : Type) where
  state : Side → Bytes → List (Row ζ)

namespace SQLRegularJoinOperator
variable {ζ : Type} {columns : JoinColumns} {remembered : Identity ζ → Nat}

def empty : SQLRegularJoinOperator ζ := ⟨fun _ _ => []⟩

/-- `{**left, **right}`, whichever of the two is the counterpart. -/
def mergeRows (side : Side) (row counterpart : Row ζ) : Row ζ :=
  match side with
  | .left => row.update counterpart.entries
  | .right => counterpart.update row.entries

def put (o : SQLRegularJoinOperator ζ) (side : Side) (encoded : Bytes) (rows : List (Row ζ)) : SQLRegularJoinOperator ζ :=
  ⟨fun other key => if other = side ∧ key = encoded then rows else o.state other key⟩

variable [DecidableEq ζ] (zones : Zones ζ) (pickle : Pickled ζ → Bytes)

/-- `_retract`: the first row that equals the given one is deleted. -/
def retract (rows : List (Row ζ)) (row : Row ζ) : List (Row ζ) := rows.eraseP (fun existing => existing.equal zones row)

/-- `process_element` down to `process_managed_element`: binding the key encodes it,
which raises for NaN. -/
def processElement (o : SQLRegularJoinOperator ζ) (record : JoinRecord columns remembered) :
    Except String (SQLRegularJoinOperator ζ × List (RowKind × Row ζ)) :=
  match encodeKey record.key pickle with
  | .error raised => .error raised
  | .ok encoded =>
    if record.key.HasNull then .ok (o,[])
    else
      let own := o.state record.side encoded
      let outputKind := if record.kind.isAddition then RowKind.insert else .delete
      let outputs := (o.state record.side.other encoded).map
        (fun counterpart => (outputKind,mergeRows record.side record.row counterpart))
      let rows := if record.kind.isAddition then own ++ [record.row] else retract zones own record.row
      .ok (o.put record.side encoded rows,outputs)

end SQLRegularJoinOperator

structure JoinRun (ζ : Type) where
  operator : SQLRegularJoinOperator ζ
  tables : Side → Multiset (RowIdentity ζ)
  emitted : List (RowKind × RowIdentity ζ)

namespace JoinRun
open SQLRegularJoinOperator
open scoped Classical

variable {ζ : Type} (columns : JoinColumns) {remembered : Identity ζ → Nat} (zones : Zones ζ)
  (pickle : Pickled ζ → Bytes)

def initial : JoinRun ζ := ⟨.empty,fun _ => 0,[]⟩

def keyOf (side : Side) (row : RowIdentity ζ) : List (Option (Identity ζ)) := (columns.of side).map row

def Known (side : Side) (row : RowIdentity ζ) : Prop := some .null ∉ keyOf columns side row

def Matches (left right : RowIdentity ζ) : Prop :=
  keyOf columns .left left = keyOf columns .right right ∧ Known columns .left left

def merge (left right : RowIdentity ζ) : RowIdentity ζ := fun column => (right column).or (left column)

noncomputable def joined (tables : Side → Multiset (RowIdentity ζ)) : Multiset (RowIdentity ζ) :=
  BagJoin.join (Matches columns) merge (tables .left) (tables .right)

noncomputable def changeTable (tables : Side → Multiset (RowIdentity ζ)) (record : JoinRecord columns remembered) :
    Side → Multiset (RowIdentity ζ) :=
  fun side =>
    if side = record.side then
      if record.kind.isAddition then record.row.identity ::ₘ tables side else (tables side).erase record.row.identity
    else tables side

structure Kept (run : JoinRun ζ) (live : Side → Multiset (Bytes × RowIdentity ζ)) : Prop where
  state : ∀ side encoded, (((run.operator.state side encoded).map Row.identity : List _) : Multiset (RowIdentity ζ)) =
    ((live side).filter (fun entry => entry.1 = encoded)).map Prod.snd
  tables : ∀ side, (run.tables side).filter (Known columns side) = (live side).map Prod.snd
  encoded : ∀ side, ∀ entry ∈ live side, ∃ identities places,
    entry.1 = pickle (.tuple identities places) ∧ keyOf columns side entry.2 = identities.map some
  output : Changelog.fold 0 run.emitted = some (joined columns run.tables)

theorem Kept.initial : Kept columns pickle (initial : JoinRun ζ) (fun _ => 0) := by
  refine ⟨fun _ _ => rfl,fun _ => rfl,fun _ entry inside => ?_,rfl⟩
  simp at inside

def mergeFrom (side : Side) (row counterpart : RowIdentity ζ) : RowIdentity ζ :=
  match side with
  | .left => merge row counterpart
  | .right => merge counterpart row

theorem mergeRows_identity (side : Side) (row counterpart : Row ζ) :
    (mergeRows side row counterpart).identity = mergeFrom side row.identity counterpart.identity := by
  have updated (one other : Row ζ) : Row.identity (one.update other.entries) = merge one.identity other.identity := by
    funext column
    change ((one.update other.entries).get? column).map Value.identity = _
    rw [Dict.get?_update]
    exact map_or
  cases side with
  | left => exact updated row counterpart
  | right => exact updated counterpart row

def Mates (side : Side) (row counterpart : RowIdentity ζ) : Prop :=
  keyOf columns side.other counterpart = keyOf columns side row ∧ Known columns side row

theorem joined_cons (side : Side) (row : RowIdentity ζ) (tables after : Side → Multiset (RowIdentity ζ))
    (own : after side = row ::ₘ tables side) (other : after side.other = tables side.other) :
    joined columns after = ((tables side.other).filter (Mates columns side row)).map (mergeFrom side row) +
      joined columns tables := by
  unfold joined
  cases side with
  | left =>
    rw [own,show after .right = tables .right from other,BagJoin.join_cons_left]
    apply congrArg (· + _)
    apply congrArg (Multiset.map _)
    apply Multiset.filter_congr
    intro counterpart _
    exact and_congr_left (fun _ => eq_comm)
  | right =>
    rw [own,show after .left = tables .left from other,BagJoin.join_cons_right]
    apply congrArg (· + _)
    apply congrArg (Multiset.map _)
    apply Multiset.filter_congr
    intro counterpart _
    constructor
    · rintro ⟨same,known⟩
      exact ⟨same,fun null => known (same ▸ null)⟩
    · rintro ⟨same,known⟩
      exact ⟨same,fun null => known (same ▸ null)⟩

section records
variable {columns} (record : JoinRecord columns remembered)

theorem keyOf_record : keyOf columns record.side record.row.identity = (record.key.values.map Value.identity).map some := by
  have selected := congrArg (List.map (Option.map Value.identity)) record.selected
  rw [List.map_map,List.map_map] at selected
  rw [List.map_map]
  exact selected

theorem known_record : Known columns record.side record.row.identity ↔ ¬ record.key.HasNull := by
  unfold Known JoinKey.HasNull
  rw [keyOf_record,not_iff_not,List.mem_map]
  constructor
  · rintro ⟨_,inside,same⟩
    obtain rfl := some.inj same
    obtain ⟨value,within,null⟩ := List.mem_map.mp inside
    rw [← value.identity_eq_null.mp null]
    exact within
  · intro inside
    exact ⟨.null,List.mem_map.mpr ⟨.null,inside,rfl⟩,rfl⟩

theorem encodeKey_record (number : ∀ value ∈ record.key.values, ¬ value.IsNaN) :
    encodeKey record.key pickle = .ok (pickle (.tuple (record.key.values.map Value.identity) record.key.places)) := by
  unfold encodeKey
  rw [Fallible.ok_bind ((JoinKeys.canonicalize_mapM record.key.values _).mpr ⟨number,rfl⟩)]
  rfl

section
variable (tables : Side → Multiset (RowIdentity ζ))
include tables

theorem changeTable_other (side : Side) (different : side ≠ record.side) :
    changeTable columns tables record side = tables side := if_neg different

theorem changeTable_addition (addition : record.kind.isAddition = true) :
    changeTable columns tables record record.side = record.row.identity ::ₘ tables record.side := by
  unfold changeTable
  rw [if_pos rfl,if_pos addition]

theorem changeTable_retraction (retraction : record.kind.isAddition = false)
    (present : record.row.identity ∈ tables record.side) :
    tables record.side = record.row.identity ::ₘ changeTable columns tables record record.side := by
  unfold changeTable
  rw [if_pos rfl,if_neg (by simp [retraction]),Multiset.cons_erase present]

end

theorem other_ne (side : Side) : side.other ≠ side := by cases side <;> decide

variable {record}

theorem joined_null (tables after : Side → Multiset (RowIdentity ζ)) (null : record.key.HasNull)
    (own : after record.side = record.row.identity ::ₘ tables record.side)
    (other : after record.side.other = tables record.side.other) : joined columns after = joined columns tables := by
  rw [joined_cons columns record.side record.row.identity tables after own other]
  have none' : (tables record.side.other).filter (Mates columns record.side record.row.identity) = 0 := by
    apply Multiset.filter_eq_nil.mpr
    intro counterpart _ both
    exact (known_record record).mp both.2 null
  rw [none',Multiset.map_zero,zero_add]

theorem put_own (o : SQLRegularJoinOperator ζ) (side : Side) (encoded : Bytes) (rows : List (Row ζ)) :
    (o.put side encoded rows).state side encoded = rows := if_pos ⟨rfl,rfl⟩

theorem put_other (o : SQLRegularJoinOperator ζ) (side other : Side) (encoded key : Bytes) (rows : List (Row ζ))
    (different : ¬ (other = side ∧ key = encoded)) : (o.put side encoded rows).state other key = o.state other key :=
  if_neg different

theorem under_own (key : Bytes) (row : RowIdentity ζ) (rows : Multiset (Bytes × RowIdentity ζ)) :
    ((key,row) ::ₘ rows).filter (fun entry => entry.1 = key) = (key,row) ::ₘ rows.filter (fun entry => entry.1 = key) :=
  Multiset.filter_cons_of_pos rows rfl

variable [DecidableEq ζ]

variable (columns) in
noncomputable def step (run : JoinRun ζ) (record : JoinRecord columns remembered) : Option (JoinRun ζ) :=
  match processElement zones pickle run.operator record with
  | .error _ => none
  | .ok (operator,outputs) =>
    some ⟨operator,changeTable columns run.tables record,
      run.emitted ++ outputs.map (fun output => (output.1,output.2.identity))⟩

variable (columns) in
structure Sound (run : JoinRun ζ) (record : JoinRecord columns remembered) : Prop where
  /-- A retraction names a row of its table. -/
  present : record.kind.isAddition = false → record.row.identity ∈ run.tables record.side
  /-- There is no NaN in the key columns. -/
  number : ∀ value ∈ record.key.values, ¬ value.IsNaN
  /-- Rows of the same join key are kept under the encoding of this one. -/
  together : ∀ side encoded, ∀ row ∈ run.operator.state side encoded,
    keyOf columns side row.identity = keyOf columns record.side record.row.identity →
    encodeKey record.key pickle = .ok encoded
  /-- The first kept row that Python finds equal to a retracted one has its identity. -/
  found : record.kind.isAddition = false → ¬ record.key.HasNull → ∀ encoded, encodeKey record.key pickle = .ok encoded →
    ∃ earlier existing later, run.operator.state record.side encoded = earlier ++ existing::later ∧
      (∀ other ∈ earlier, other.equal zones record.row = false) ∧ existing.equal zones record.row = true ∧
      existing.identity = record.row.identity

variable {run : JoinRun ζ} {live : Side → Multiset (Bytes × RowIdentity ζ)}

theorem Kept.met (kept : Kept columns pickle run live) (injective : Function.Injective pickle)
    (sound : Sound columns zones pickle run record) (known : ¬ record.key.HasNull) (encoded : Bytes)
    (bound : encodeKey record.key pickle = .ok encoded) :
    (((run.operator.state record.side.other encoded).map Row.identity : List _) : Multiset (RowIdentity ζ)) =
      (run.tables record.side.other).filter (Mates columns record.side record.row.identity) := by
  generalize other : record.side.other = side
  have under : ∀ entry ∈ live side, entry.1 = encoded ↔ keyOf columns side entry.2 = keyOf columns record.side record.row.identity := by
    intro entry inside
    constructor
    · intro same
      obtain ⟨identities,places,stored,key⟩ := kept.encoded side entry inside
      have written := Except.ok.inj ((encodeKey_record pickle record sound.number).symm.trans bound)
      obtain ⟨rfl,-⟩ := Pickled.tuple.inj (injective (written.trans (same.symm.trans stored)))
      rw [key,keyOf_record]
    · intro same
      have listed : entry.2 ∈ (((run.operator.state side entry.1).map Row.identity : List _) : Multiset (RowIdentity ζ)) := by
        rw [kept.state side entry.1]
        exact Multiset.mem_map_of_mem _ (Multiset.mem_filter.mpr ⟨inside,rfl⟩)
      obtain ⟨row,within,identity⟩ := List.mem_map.mp (Multiset.mem_coe.mp listed)
      have together := sound.together side entry.1 row within (by rw [identity]; exact same)
      exact Except.ok.inj (together.symm.trans bound)
  have nonNull := (known_record record).mpr known
  calc (((run.operator.state side encoded).map Row.identity : List _) : Multiset (RowIdentity ζ))
      = ((live side).filter (fun entry => entry.1 = encoded)).map Prod.snd := kept.state side encoded
    _ = ((live side).filter (fun entry => keyOf columns side entry.2 =
          keyOf columns record.side record.row.identity)).map Prod.snd := by rw [Multiset.filter_congr under]
    _ = ((live side).map Prod.snd).filter (fun counterpart => keyOf columns side counterpart =
          keyOf columns record.side record.row.identity) := by
      rw [Multiset.filter_map]
      rfl
    _ = (run.tables side).filter (fun counterpart => keyOf columns side counterpart =
          keyOf columns record.side record.row.identity ∧ Known columns side counterpart) := by
      rw [← kept.tables side,Multiset.filter_filter]
    _ = _ := by
      apply Multiset.filter_congr
      intro counterpart _
      unfold Mates
      rw [other]
      apply and_congr_right
      intro same
      exact ⟨fun _ => nonNull,fun _ null => nonNull (same ▸ null)⟩

theorem step_cases {next : JoinRun ζ} (taken : step columns zones pickle run record = some next) :
    (record.key.HasNull ∧ next = ⟨run.operator,changeTable columns run.tables record,run.emitted⟩) ∨
      ∃ encoded, encodeKey record.key pickle = .ok encoded ∧ ¬ record.key.HasNull ∧
        next = ⟨run.operator.put record.side encoded (if record.kind.isAddition then
            run.operator.state record.side encoded ++ [record.row]
          else retract zones (run.operator.state record.side encoded) record.row),
          changeTable columns run.tables record,
          run.emitted ++ (((run.operator.state record.side.other encoded).map Row.identity).map
            (mergeFrom record.side record.row.identity)).map
              (fun row => (if record.kind.isAddition then RowKind.insert else .delete,row))⟩ := by
  unfold step processElement at taken
  cases bound : encodeKey record.key pickle with
  | error raised =>
    rw [bound] at taken
    cases taken
  | ok encoded =>
    rw [bound] at taken
    by_cases null : record.key.HasNull
    · simp only [null,if_true] at taken
      obtain rfl := some.inj taken
      exact .inl ⟨null,by simp⟩
    · simp only [null,if_false] at taken
      obtain rfl := some.inj taken
      refine .inr ⟨encoded,rfl,null,?_⟩
      simp only [List.map_map,Function.comp_def,mergeRows_identity]

section
variable (kept : Kept columns pickle run live)
include kept

theorem Kept.step_null (sound : Sound columns zones pickle run record)
    (null : record.key.HasNull) :
    Kept columns pickle ⟨run.operator,changeTable columns run.tables record,run.emitted⟩ live := by
  have unknown : ¬ Known columns record.side record.row.identity := fun known => (known_record record).mp known null
  refine ⟨kept.state,fun side => ?_,kept.encoded,?_⟩
  · rw [← kept.tables side]
    dsimp only
    by_cases same : side = record.side
    · subst same
      cases kind : record.kind.isAddition with
      | true => rw [changeTable_addition record run.tables kind,Multiset.filter_cons_of_neg _ unknown]
      | false =>
        have before := changeTable_retraction record run.tables kind (sound.present kind)
        conv_rhs => rw [before]
        rw [Multiset.filter_cons_of_neg _ unknown]
    · rw [changeTable_other record run.tables side same]
  · rw [kept.output]
    apply congrArg some
    cases kind : record.kind.isAddition with
    | true =>
      exact (joined_null run.tables _ null (changeTable_addition record run.tables kind)
        (changeTable_other record run.tables _ (other_ne record.side))).symm
    | false =>
      exact joined_null _ run.tables null (changeTable_retraction record run.tables kind (sound.present kind))
        (changeTable_other record run.tables _ (other_ne record.side)).symm

section
variable (injective : Function.Injective pickle) (sound : Sound columns zones pickle run record)
  (known : ¬ record.key.HasNull) (encoded : Bytes) (bound : encodeKey record.key pickle = .ok encoded)
include injective sound known bound

theorem Kept.emits :
    ((((run.operator.state record.side.other encoded).map Row.identity).map
        (mergeFrom record.side record.row.identity) : List _) : Multiset (RowIdentity ζ)) =
      ((run.tables record.side.other).filter (Mates columns record.side record.row.identity)).map
        (mergeFrom record.side record.row.identity) := by
  rw [← kept.met zones pickle injective sound known encoded bound,Multiset.map_coe]

theorem Kept.step_addition (addition : record.kind.isAddition = true) :
    Kept columns pickle ⟨run.operator.put record.side encoded (run.operator.state record.side encoded ++ [record.row]),
        changeTable columns run.tables record,
        run.emitted ++ (((run.operator.state record.side.other encoded).map Row.identity).map
          (mergeFrom record.side record.row.identity)).map (fun row => (RowKind.insert,row))⟩
      (Function.update live record.side ((encoded,record.row.identity) ::ₘ live record.side)) := by
  have nonNull := (known_record record).mpr known
  refine ⟨fun side key => ?_,fun side => ?_,fun side entry inside => ?_,?_⟩
  · dsimp only
    by_cases own : side = record.side
    · subst own
      rw [Function.update_self]
      by_cases same : key = encoded
      · subst same
        rw [put_own,under_own,Multiset.map_cons,← kept.state record.side key,map_append,
          ← Multiset.coe_add,add_comm]
        rfl
      · rw [put_other _ _ _ _ _ _ (fun both => same both.2),Multiset.filter_cons_of_neg _ (fun equal => same equal.symm),
          kept.state record.side key]
    · rw [put_other _ _ _ _ _ _ (fun both => own both.1),Function.update_of_ne own,kept.state side key]
  · dsimp only
    by_cases own : side = record.side
    · subst own
      rw [changeTable_addition record run.tables addition,Function.update_self,Multiset.filter_cons_of_pos _ nonNull,
        Multiset.map_cons,kept.tables record.side]
    · rw [changeTable_other record run.tables side own,Function.update_of_ne own,kept.tables side]
  · by_cases own : side = record.side
    · subst own
      rw [Function.update_self,Multiset.mem_cons] at inside
      rcases inside with rfl | old
      · exact ⟨_,_,Except.ok.inj (bound.symm.trans (encodeKey_record pickle record sound.number)),keyOf_record record⟩
      · exact kept.encoded record.side entry old
    · rw [Function.update_of_ne own] at inside
      exact kept.encoded side entry inside
  · dsimp only
    rw [fold_append,kept.output,bind_some,fold_additions _ rfl,
      kept.emits zones pickle injective sound known encoded bound]
    apply congrArg some
    exact (joined_cons columns record.side record.row.identity run.tables _ (changeTable_addition record run.tables addition)
      (changeTable_other record run.tables _ (other_ne record.side))).symm

theorem Kept.step_retraction (retraction : record.kind.isAddition = false) :
    ∃ live', Kept columns pickle ⟨run.operator.put record.side encoded
          (retract zones (run.operator.state record.side encoded) record.row),changeTable columns run.tables record,
        run.emitted ++ (((run.operator.state record.side.other encoded).map Row.identity).map
          (mergeFrom record.side record.row.identity)).map (fun row => (RowKind.delete,row))⟩ live' := by
  obtain ⟨earlier,existing,later,listed,passed,equal,identity⟩ := sound.found retraction known encoded bound
  have rows : retract zones (run.operator.state record.side encoded) record.row = earlier ++ later := by
    unfold retract
    rw [listed,eraseP_append_right _ (fun other inside => by simp [passed other inside]),
      eraseP_cons_of_pos (p := fun other => Row.equal zones other record.row) equal]
  have before := changeTable_retraction record run.tables retraction (sound.present retraction)
  have nonNull := (known_record record).mpr known
  have stored : (encoded,record.row.identity) ∈ live record.side := by
    have inside : record.row.identity ∈ (((run.operator.state record.side encoded).map Row.identity : List _) :
        Multiset (RowIdentity ζ)) := by
      rw [listed,← identity]
      simp
    rw [kept.state record.side encoded] at inside
    obtain ⟨⟨key,row⟩,within,same⟩ := Multiset.mem_map.mp inside
    obtain ⟨inLive,under⟩ := Multiset.mem_filter.mp within
    dsimp only at same under
    rw [← same,← under]
    exact inLive
  obtain ⟨rest,split⟩ := Multiset.exists_cons_of_mem stored
  refine ⟨Function.update live record.side rest,fun side key => ?_,fun side => ?_,fun side entry inside => ?_,?_⟩
  · dsimp only
    by_cases own : side = record.side
    · subst own
      rw [Function.update_self]
      have state := kept.state record.side key
      rw [split] at state
      by_cases same : key = encoded
      · subst same
        rw [under_own,Multiset.map_cons,listed,map_append,map_cons,identity,
          ← Multiset.coe_add,← Multiset.cons_coe,Multiset.add_cons,Multiset.cons_inj_right,Multiset.coe_add,
          ← map_append] at state
        rw [put_own,rows]
        exact state
      · rw [Multiset.filter_cons_of_neg _ (fun equal => same equal.symm)] at state
        rw [put_other _ _ _ _ _ _ (fun both => same both.2)]
        exact state
    · rw [put_other _ _ _ _ _ _ (fun both => own both.1),Function.update_of_ne own,kept.state side key]
  · dsimp only
    by_cases own : side = record.side
    · subst own
      have tables := kept.tables record.side
      rw [before,split,Multiset.filter_cons_of_pos _ nonNull,Multiset.map_cons,Multiset.cons_inj_right] at tables
      rw [Function.update_self]
      exact tables
    · rw [changeTable_other record run.tables side own,Function.update_of_ne own,kept.tables side]
  · by_cases own : side = record.side
    · subst own
      rw [Function.update_self] at inside
      exact kept.encoded record.side entry (by rw [split]; exact Multiset.mem_cons_of_mem inside)
    · rw [Function.update_of_ne own] at inside
      exact kept.encoded side entry inside
  · dsimp only
    rw [fold_append,kept.output,bind_some]
    apply fold_retractions _ rfl
    have other := changeTable_other record run.tables _ (other_ne record.side)
    rw [kept.emits zones pickle injective sound known encoded bound,← other]
    exact joined_cons columns record.side record.row.identity _ run.tables before other.symm

end

theorem Kept.step (injective : Function.Injective pickle)
    (sound : Sound columns zones pickle run record) {next : JoinRun ζ}
    (taken : step columns zones pickle run record = some next) : ∃ live', Kept columns pickle next live' := by
  rcases step_cases zones pickle taken with ⟨null,rfl⟩ | ⟨encoded,bound,known,rfl⟩
  · exact ⟨live,kept.step_null zones pickle sound null⟩
  · cases kind : record.kind.isAddition with
    | true => exact ⟨_,kept.step_addition zones pickle injective sound known encoded bound kind⟩
    | false => exact kept.step_retraction zones pickle injective sound known encoded bound kind

end

end records

/-- In every run whose steps are sound the emitted changelog folds to the join of the tables. -/
theorem output_is_join [DecidableEq ζ] (injective : Function.Injective pickle) (records : List (JoinRecord columns remembered))
    (run : JoinRun ζ) (sound : Along (step columns zones pickle) (Sound columns zones pickle) initial records)
    (reached : exec (step columns zones pickle) initial records = some run) :
    Changelog.fold 0 run.emitted = some (joined columns run.tables) := by
  obtain ⟨live,kept⟩ := exec_invariant (step columns zones pickle) (Sound columns zones pickle)
    (fun run => ∃ live, Kept columns pickle run live)
    (fun run record next ⟨live,kept⟩ sound taken => kept.step zones pickle injective sound taken)
    records initial run ⟨_,Kept.initial columns pickle⟩ sound reached
  exact kept.output

section runs
open JoinKeys

def pairColumns : JoinColumns := ⟨["x","y"],["u","w"]⟩

def leftRecord (kind : RowKind) (value : Value Int) : JoinRecord pairColumns strings :=
  ⟨.left,kind,Dict.ofList [("x",.text "qz"),("y",.text "qz"),("v",value)],pair 0 0,rfl⟩

def rightRecord (kind : RowKind) : JoinRecord pairColumns strings :=
  ⟨.right,kind,Dict.ofList [("u",.text "qz"),("w",.text "qz")],pair 1 1,rfl⟩

def sharedKey : Bytes := [128,4,149,10,0,0,0,0,0,0,0,140,2,113,122,148,104,0,134,148,46]

theorem left_key : encodeKey (pair 0 0) dumps = .ok sharedKey := by decide

theorem right_key : encodeKey (pair 1 1) dumps = .ok sharedKey := by decide

def comesAndGoes (value : Value Int) : List (JoinRecord pairColumns strings) :=
  [leftRecord .insert value,leftRecord .delete value,rightRecord .insert]

section states
variable (value : Value Int)

noncomputable def afterInsert : JoinRun Int :=
  ⟨SQLRegularJoinOperator.empty.put .left sharedKey [(leftRecord .insert value).row],
    changeTable pairColumns (fun _ => 0) (leftRecord .insert value),[]⟩

noncomputable def afterDelete : JoinRun Int :=
  ⟨(afterInsert value).operator.put .left sharedKey
      (retract offsets [(leftRecord .insert value).row] (leftRecord .delete value).row),
    changeTable pairColumns (afterInsert value).tables (leftRecord .delete value),[]⟩

noncomputable def afterMatch : JoinRun Int :=
  ⟨(afterDelete value).operator.put .right sharedKey [(rightRecord .insert).row],
    changeTable pairColumns (afterDelete value).tables (rightRecord .insert),
    ((retract offsets [(leftRecord .insert value).row] (leftRecord .delete value).row).map (fun counterpart =>
      (RowKind.insert,mergeRows .right (rightRecord .insert).row counterpart))).map (fun output => (output.1,output.2.identity))⟩

theorem insert_taken : step pairColumns offsets dumps initial (leftRecord .insert value) = some (afterInsert value) := by
  unfold step processElement
  rw [show (leftRecord .insert value).key = pair 0 0 from rfl,left_key]
  rfl

theorem delete_taken : step pairColumns offsets dumps (afterInsert value) (leftRecord .delete value) = some (afterDelete value) := by
  unfold step processElement
  rw [show (leftRecord .delete value).key = pair 0 0 from rfl,left_key]
  rfl

theorem match_taken : step pairColumns offsets dumps (afterDelete value) (rightRecord .insert) = some (afterMatch value) := by
  unfold step processElement
  rw [show (rightRecord .insert).key = pair 1 1 from rfl,right_key]
  rfl

theorem comesAndGoes_run : exec (step pairColumns offsets dumps) initial (comesAndGoes value) = some (afterMatch value) := by
  unfold comesAndGoes
  rw [exec_cons,insert_taken,bind_some,exec_cons,delete_taken,bind_some,exec_cons,match_taken]
  rfl

theorem one_key (side : Side) (encoded : Bytes) (row : Row Int) :
    (row ∈ (afterInsert value).operator.state side encoded → encoded = sharedKey) ∧
      (row ∈ (afterDelete value).operator.state side encoded → encoded = sharedKey) := by
  have put' (o : SQLRegularJoinOperator Int) (rows : List (Row Int))
      (before : row ∈ o.state side encoded → encoded = sharedKey) :
      row ∈ (o.put .left sharedKey rows).state side encoded → encoded = sharedKey := by
    intro inside
    by_cases own : side = .left ∧ encoded = sharedKey
    · exact own.2
    · rw [put_other _ _ _ _ _ _ own] at inside
      exact before inside
  have first := put' SQLRegularJoinOperator.empty [(leftRecord .insert value).row] (fun inside => by cases inside)
  exact ⟨first,put' _ _ first⟩

theorem sound_insert : Sound pairColumns offsets dumps initial (leftRecord .insert value) := by
  refine ⟨fun retraction => (nomatch retraction),?_,fun side encoded row inside => (not_mem_nil inside).elim,
    fun retraction => (nomatch retraction)⟩
  change ∀ component ∈ (pair 0 0).values, ¬ component.IsNaN
  decide

theorem present_delete : (leftRecord .delete value).row.identity ∈ (afterInsert value).tables .left := by
  have added := changeTable_addition (leftRecord .insert value) (fun _ => 0) rfl
  change _ ∈ changeTable pairColumns (fun _ => 0) (leftRecord .insert value) (leftRecord .insert value).side
  rw [added]
  exact Multiset.mem_cons_self _ _

theorem sound_match : Sound pairColumns offsets dumps (afterDelete value) (rightRecord .insert) := by
  refine ⟨fun retraction => (nomatch retraction),?_,fun side encoded row inside _ => ?_,
    fun retraction => (nomatch retraction)⟩
  · change ∀ component ∈ (pair 1 1).values, ¬ component.IsNaN
    decide
  · rw [(one_key value side encoded row).2 inside]
    exact right_key

end states

theorem sound_delete : Sound pairColumns offsets dumps (afterInsert (.integer 1)) (leftRecord .delete (.integer 1)) := by
  refine ⟨fun _ => present_delete _,?_,fun side encoded row inside _ => ?_,fun _ _ encoded bound => ?_⟩
  · change ∀ component ∈ (pair 0 0).values, ¬ component.IsNaN
    decide
  · rw [(one_key _ side encoded row).1 inside]
    exact left_key
  · obtain rfl := Except.ok.inj (left_key.symm.trans bound)
    exact ⟨[],(leftRecord .insert (.integer 1)).row,[],put_own _ _ _ _,by simp,by decide,rfl⟩

/-- The row is gone when its match comes. -/
theorem comesAndGoes_joins : Changelog.fold 0 (afterMatch (.integer 1)).emitted =
    some (joined pairColumns (afterMatch (.integer 1)).tables) :=
  output_is_join pairColumns offsets dumps dumps_injective (comesAndGoes (.integer 1)) _
    ⟨sound_insert _,fun next taken => by
      obtain rfl := some.inj ((insert_taken _).symm.trans taken)
      exact ⟨sound_delete,fun next taken => by
        obtain rfl := some.inj ((delete_taken _).symm.trans taken)
        exact ⟨sound_match _,fun _ _ => trivial⟩⟩⟩ (comesAndGoes_run _)

/-- A row with a NaN is not found when it goes: its match is emitted with the deleted row. -/
theorem nan_row_stays : exec (step pairColumns offsets dumps) initial (comesAndGoes (.float .nan)) =
      some (afterMatch (.float .nan)) ∧
    (leftRecord .delete (.float .nan)).row.identity ∈ (afterInsert (.float .nan)).tables .left ∧
    Changelog.fold 0 (afterMatch (.float .nan)).emitted ≠ some (joined pairColumns (afterMatch (.float .nan)).tables) := by
  refine ⟨comesAndGoes_run _,present_delete _,?_⟩
  have kept : retract offsets [(leftRecord .insert (.float .nan)).row] (leftRecord .delete (.float .nan)).row =
      [(leftRecord .insert (.float .nan)).row] := by decide
  have gone : (afterMatch (.float .nan)).tables .left = 0 := by
    change changeTable pairColumns (afterDelete (.float .nan)).tables (rightRecord .insert) .left = 0
    rw [changeTable_other _ _ _ (by decide)]
    have before := changeTable_retraction (leftRecord .delete (.float .nan)) (afterInsert (.float .nan)).tables rfl
      (present_delete _)
    have added := changeTable_addition (leftRecord .insert (.float .nan)) (fun _ => 0) rfl
    exact ((Multiset.cons_inj_right _).mp (added.symm.trans before)).symm
  have empty : joined pairColumns (afterMatch (.float .nan)).tables = 0 := by
    unfold joined
    rw [gone]
    rfl
  rw [empty]
  unfold afterMatch
  rw [kept]
  simp [Changelog.fold,Changelog.apply,RowKind.isAddition]

end runs

end JoinRun
end Klein.Sql
