import Klein.Dataflow.Blocks
import Klein.Dataflow.WirePacking

/-! A record read row by row: the cells of a row with the kind, the timestamp and the
input that travel beside it. -/
namespace Klein.Dataflow
open List Option
variable {γ ν δ α τ : Type} (arrays : ArrayOps γ ν δ α τ)

structure TaggedRow (ξ : Type) where
  cells : ξ
  kind : Option String
  timestamp : Option Int
  inputTag : Option Int
deriving DecidableEq

def TaggedRow.map {ξ ζ : Type} (change : ξ → ζ) (row : TaggedRow ξ) : TaggedRow ζ :=
  ⟨change row.cells,row.kind,row.timestamp,row.inputTag⟩

namespace Block

def rowKind : Block γ ν α → Option String
  | .row _ kind => kind
  | .columnar _ => none

def sliceRows (start stop : Nat) : Block γ ν α → Block γ ν α
  | .row cells kind => .row cells kind
  | .columnar block => .columnar (block.sliceRows arrays start stop)

def selectRows (indices : List Nat) : Block γ ν α → Block γ ν α
  | .row cells kind => .row cells kind
  | .columnar block => .columnar (block.selectRows arrays indices)

/-- `_row_block` with the kind of the row -/
def rowBlock (index : Nat) (kind : Option String) : Block γ ν α → Block γ ν α
  | .row cells kind => .row cells kind
  | .columnar block => .row (block.rowDict arrays index) kind

end Block

section reading
variable (record : Record (Block γ ν α))

def readRows : Nat :=
  match record.block with
  | .row .. => 1
  | .columnar block => record.numRows.getD (block.numRows arrays)

def cellsOf : List (Dict String γ) :=
  match record.block with
  | .row cells _ => [cells.mapValues (fun _ value => arrays.pythonValue value)]
  | .columnar block => (List.range (record.numRows.getD (block.numRows arrays))).map (fun index => block.rowDict arrays index)

def kindsOf : List (Option String) :=
  record.rowKinds.getD (List.replicate (readRows arrays record) record.block.rowKind)

def stampsOf : List (Option Int) := record.rowTimestamps.getD (List.replicate (readRows arrays record) record.timestamp)

def tagged {ξ : Type} (inputTag : Option Int) (cells : List ξ) (kinds : List (Option String)) (stamps : List (Option Int)) :
    List (TaggedRow ξ) :=
  List.zipWith (fun cells beside => ⟨cells,beside.1,beside.2,inputTag⟩) cells (kinds.zip stamps)

def taggedRows : List (TaggedRow (Dict String γ)) :=
  tagged record.inputTag (cellsOf arrays record) (kindsOf arrays record) (stampsOf arrays record)

structure Consistent : Prop where
  rowShaped : record.numRows = none → ∃ cells kind, record.block = .row cells kind
  columnar : ∀ numRows, record.numRows = some numRows → ∃ block, record.block = .columnar block ∧ block.Holds arrays numRows
  kinds : ∀ kinds, record.rowKinds = some kinds → kinds.length = record.rows
  stamps : ∀ stamps, record.rowTimestamps = some stamps → stamps.length = record.rows

end reading

section tagging
variable {ξ : Type} (inputTag : Option Int)

theorem tagged_append (cells : List ξ) (kinds : List (Option String)) (stamps : List (Option Int)) (cells' : List ξ)
    (kinds' : List (Option String)) (stamps' : List (Option Int)) (sameKinds : cells.length = kinds.length)
    (sameStamps : cells.length = stamps.length) :
    tagged inputTag (cells ++ cells') (kinds ++ kinds') (stamps ++ stamps') =
      tagged inputTag cells kinds stamps ++ tagged inputTag cells' kinds' stamps' := by
  unfold tagged
  rw [zip_append (sameKinds.symm.trans sameStamps),zipWith_append]
  rw [length_zip,← sameKinds,← sameStamps,Nat.min_self]

theorem tagged_length (cells : List ξ) (kinds : List (Option String)) (stamps : List (Option Int))
    (sameKinds : kinds.length = cells.length) (sameStamps : stamps.length = cells.length) :
    (tagged inputTag cells kinds stamps).length = cells.length := by
  unfold tagged
  rw [length_zipWith,length_zip,sameKinds,sameStamps,Nat.min_self,Nat.min_self]

theorem tagged_map {ζ : Type} (change : ξ → ζ) (cells : List ξ) (kinds : List (Option String)) (stamps : List (Option Int)) :
    (tagged inputTag cells kinds stamps).map (TaggedRow.map change) = tagged inputTag (cells.map change) kinds stamps := by
  unfold tagged
  rw [map_zipWith,zipWith_map_left]
  rfl

theorem tagged_cells (cells : List ξ) (kinds : List (Option String)) (stamps : List (Option Int))
    (sameKinds : kinds.length = cells.length) (sameStamps : stamps.length = cells.length) :
    (tagged inputTag cells kinds stamps).map TaggedRow.cells = cells := by
  unfold tagged
  have beside : cells.length ≤ (kinds.zip stamps).length := by simp [sameKinds,sameStamps]
  have first := map_fst_zip beside
  rw [zip_eq_zipWith,map_zipWith] at first
  rw [map_zipWith]
  exact first

theorem tagged_inj (first second : List ξ) (kinds : List (Option String)) (stamps : List (Option Int))
    (length : second.length = first.length) (sameKinds : kinds.length = first.length) (sameStamps : stamps.length = first.length) :
    tagged inputTag first kinds stamps = tagged inputTag second kinds stamps ↔ first = second := by
  refine ⟨fun same => ?_,congrArg (fun cells => tagged inputTag cells kinds stamps)⟩
  have cells := congrArg (List.map TaggedRow.cells) same
  rwa [tagged_cells _ _ _ _ sameKinds sameStamps,tagged_cells _ _ _ _ (sameKinds.trans length.symm)
    (sameStamps.trans length.symm)] at cells

theorem tagged_at (cells : List ξ) (kinds : List (Option String)) (stamps : List (Option Int)) (index : Nat)
    (sameKinds : kinds.length = cells.length) (sameStamps : stamps.length = cells.length) (inside : index < cells.length) :
    (tagged inputTag cells kinds stamps)[index]? =
      some ⟨cells[index],kinds[index],stamps[index],inputTag⟩ := by
  unfold tagged
  rw [getElem?_eq_getElem (by simp [sameKinds,sameStamps,inside]),getElem_zipWith,getElem_zip]

end tagging

section alignment
variable (record : Record (Block γ ν α))

structure Aligned : Prop where
  readRows : readRows arrays record = record.rows
  plain : record.isColumnar = true → record.block.rowKind = none
  kinds : ∀ kinds, record.rowKinds = some kinds → kinds.length = record.rows
  stamps : ∀ stamps, record.rowTimestamps = some stamps → stamps.length = record.rows

variable {arrays} (aligned : Aligned arrays record)
include aligned

theorem Aligned.cells_length : (cellsOf arrays record).length = record.rows := by
  rw [← aligned.readRows]
  unfold cellsOf Dataflow.readRows
  cases record.block with
  | row cells kind => rfl
  | columnar block => exact (length_map _).trans length_range

theorem Aligned.kinds_length : (kindsOf arrays record).length = record.rows := by
  unfold kindsOf
  cases kinds : record.rowKinds with
  | none => rw [getD_none,length_replicate,aligned.readRows]
  | some kinds => exact aligned.kinds _ (by assumption)

theorem Aligned.stamps_length : (stampsOf arrays record).length = record.rows := by
  unfold stampsOf
  cases stamps : record.rowTimestamps with
  | none => rw [getD_none,length_replicate,aligned.readRows]
  | some stamps => exact aligned.stamps _ (by assumption)

theorem Aligned.length : (taggedRows arrays record).length = record.rows := by
  have cells := aligned.cells_length
  have kinds := aligned.kinds_length
  have stamps := aligned.stamps_length
  exact (tagged_length _ _ _ _ (kinds.trans cells.symm) (stamps.trans cells.symm)).trans cells

end alignment

section consistency
variable {arrays} (record : Record (Block γ ν α)) (consistent : Consistent arrays record)

include consistent

theorem Consistent.aligned : Aligned arrays record := by
  refine ⟨?_,fun columnar => ?_,consistent.kinds,consistent.stamps⟩
  · unfold Dataflow.readRows Record.rows
    cases numRows : record.numRows with
    | none =>
      obtain ⟨cells,kind,same⟩ := consistent.rowShaped numRows
      rw [same]
      rfl
    | some count =>
      obtain ⟨block,same,-⟩ := consistent.columnar count numRows
      rw [same]
      rfl
  · obtain ⟨count,numRows⟩ := isSome_iff_exists.mp columnar
    obtain ⟨block,same,-⟩ := consistent.columnar count numRows
    rw [same]
    rfl

theorem Consistent.validated : InputBatchAccumulator.validateRowTimestamps record = .ok () := by
  unfold InputBatchAccumulator.validateRowTimestamps
  cases stamps : record.rowTimestamps with
  | none => rfl
  | some stamps => exact if_neg (by simpa using consistent.stamps _ (by assumption))

end consistency

section stamping
variable (record : Record (Block γ ν α))

@[simp] theorem stamp_block {β : Type} (record : Record β) (stamps : List (Option Int)) : (stamp record stamps).block = record.block := by
  unfold stamp
  split
  · rfl
  · split <;> rfl

@[simp] theorem stamp_numRows {β : Type} (record : Record β) (stamps : List (Option Int)) :
    (stamp record stamps).numRows = record.numRows := by
  unfold stamp
  split
  · rfl
  · split <;> rfl

@[simp] theorem stamp_rowKinds {β : Type} (record : Record β) (stamps : List (Option Int)) :
    (stamp record stamps).rowKinds = record.rowKinds := by
  unfold stamp
  split
  · rfl
  · split <;> rfl

@[simp] theorem stamp_inputTag {β : Type} (record : Record β) (stamps : List (Option Int)) :
    (stamp record stamps).inputTag = record.inputTag := by
  unfold stamp
  split
  · rfl
  · split <;> rfl

theorem readRows_stamp (stamps : List (Option Int)) : readRows arrays (stamp record stamps) = readRows arrays record := by
  unfold readRows
  rw [stamp_block,stamp_numRows]

theorem cellsOf_stamp (stamps : List (Option Int)) : cellsOf arrays (stamp record stamps) = cellsOf arrays record := by
  unfold cellsOf
  rw [stamp_block,stamp_numRows]

theorem kindsOf_stamp (stamps : List (Option Int)) : kindsOf arrays (stamp record stamps) = kindsOf arrays record := by
  unfold kindsOf
  rw [stamp_rowKinds,stamp_block,readRows_stamp]

theorem stampsOf_stamp (stamps : List (Option Int)) (none' : record.rowTimestamps = none)
    (full : stamps.length = readRows arrays record) : stampsOf arrays (stamp record stamps) = stamps := by
  unfold stampsOf
  rw [readRows_stamp,← full]
  cases stamps with
  | nil =>
    unfold stamp
    rw [none']
    rfl
  | cons first rest =>
    by_cases same : rest.all (fun timestamp => timestamp = first) = true
    · simp only [stamp,if_pos same,none',getD_none]
      exact (eq_replicate_iff.mpr ⟨rfl,forall_mem_cons.mpr ⟨rfl,by simpa using same⟩⟩).symm
    · simp only [stamp,if_neg same]
      rfl

theorem kindsOf_combined (kinds : List (Option String)) (plain : record.block.rowKind = none)
    (held : record.rowKinds = if kinds.any Option.isSome then some kinds else none)
    (full : kinds.length = readRows arrays record) : kindsOf arrays record = kinds := by
  unfold kindsOf
  rw [held,plain,← full]
  by_cases some' : kinds.any Option.isSome = true
  · rw [if_pos some']
    rfl
  · rw [if_neg some',getD_none]
    refine (eq_replicate_iff.mpr ⟨rfl,fun kind inside => ?_⟩).symm
    have known := List.any_eq_false.mp (Bool.eq_false_iff.mpr some') kind inside
    simpa using known

end stamping

section groups
variable {arrays} (records : List (Record (Block γ ν α))) (aligned : ∀ record ∈ records, Aligned arrays record)

theorem tagged_flatMap {ξ κ : Type} (inputTag : Option Int) (items : List κ) (cells : κ → List ξ)
    (kinds : κ → List (Option String)) (stamps : κ → List (Option Int))
    (sameKinds : ∀ item ∈ items, (cells item).length = (kinds item).length)
    (sameStamps : ∀ item ∈ items, (cells item).length = (stamps item).length) :
    items.flatMap (fun item => tagged inputTag (cells item) (kinds item) (stamps item)) =
      tagged inputTag (items.flatMap cells) (items.flatMap kinds) (items.flatMap stamps) := by
  induction items with
  | nil => rfl
  | cons item rest ih =>
    obtain ⟨kind,kinds'⟩ := forall_mem_cons.mp sameKinds
    obtain ⟨stamped,stamps'⟩ := forall_mem_cons.mp sameStamps
    rw [flatMap_cons,flatMap_cons,flatMap_cons,flatMap_cons,ih kinds' stamps',
      tagged_append _ _ _ _ _ _ _ kind stamped]

include aligned

theorem combinedRowTimestamps_flatMap : combinedRowTimestamps records = .ok (records.flatMap (stampsOf arrays)) := by
  induction records with
  | nil => rfl
  | cons record rest ih =>
    obtain ⟨here,later⟩ := forall_mem_cons.mp aligned
    rw [combinedRowTimestamps,ih later,flatMap_cons]
    unfold stampsOf
    cases held : record.rowTimestamps with
    | none =>
      rw [here.readRows]
      rfl
    | some stamps =>
      dsimp only
      rw [if_neg (by simpa using here.stamps stamps held)]
      rfl

theorem rowKindsOf_flatMap : rowKindsOf (fun record => record.block.rowKind) records = .ok (records.flatMap (kindsOf arrays)) := by
  induction records with
  | nil => rfl
  | cons record rest ih =>
    obtain ⟨here,later⟩ := forall_mem_cons.mp aligned
    rw [rowKindsOf,ih later,flatMap_cons]
    unfold kindsOf
    cases held : record.rowKinds with
    | none =>
      rw [here.readRows]
      have kind : (if record.isColumnar then none else record.block.rowKind) = record.block.rowKind := by
        cases columnar : record.isColumnar with
        | false => rfl
        | true => exact (here.plain columnar).symm
      dsimp only
      rw [kind]
      rfl
    | some kinds =>
      dsimp only
      rw [if_neg (by simpa using here.kinds kinds held)]
      rfl

theorem combinedRowKinds_flatMap : combinedRowKinds (fun record => record.block.rowKind) records =
    .ok (if (records.flatMap (kindsOf arrays)).any Option.isSome then some (records.flatMap (kindsOf arrays)) else none) := by
  unfold combinedRowKinds
  rw [rowKindsOf_flatMap records aligned]
  rfl

theorem kinds_total : (records.flatMap (kindsOf arrays)).length = (records.map Record.rows).sum := by
  rw [length_flatMap]
  congr 1
  exact map_congr_left (fun record inside => (aligned record inside).kinds_length)

theorem stamps_total : (records.flatMap (stampsOf arrays)).length = (records.map Record.rows).sum := by
  rw [length_flatMap]
  congr 1
  exact map_congr_left (fun record inside => (aligned record inside).stamps_length)

theorem taggedRows_flatMap (inputTag : Option Int) (same : ∀ record ∈ records, record.inputTag = inputTag) :
    records.flatMap (taggedRows arrays) = tagged inputTag (records.flatMap (cellsOf arrays))
      (records.flatMap (kindsOf arrays)) (records.flatMap (stampsOf arrays)) := by
  rw [← tagged_flatMap inputTag records (cellsOf arrays) (kindsOf arrays) (stampsOf arrays)
    (fun record inside => (aligned record inside).cells_length.trans (aligned record inside).kinds_length.symm)
    (fun record inside => (aligned record inside).cells_length.trans (aligned record inside).stamps_length.symm)]
  refine flatMap_congr (fun record inside => ?_)
  rw [← same record inside]
  rfl

end groups

section reads
variable {arrays}

theorem plain_rowDict (lawful : arrays.Lawful) (block : ColumnarBlock γ ν α) (index : Nat) :
    (block.rowDict arrays index).mapValues (fun _ value => arrays.pythonValue value) = block.rowDict arrays index := by
  have plain (values : List γ) (each : ∀ value ∈ values, arrays.pythonValue value = value) :
      arrays.pythonValue ((values[index]?).getD arrays.null) = (values[index]?).getD arrays.null := by
    cases found : values[index]? with
    | none => exact lawful.pythonValue_null
    | some value => exact each value (mem_of_getElem? found)
  rw [ColumnarBlock.rowDict_eq]
  unfold rowAcross
  rw [Dict.mapValues_ofList,List.map_map]
  congr 1
  apply map_congr_left
  intro column inside
  refine Prod.ext rfl (plain column.2 (fun value member => ?_))
  cases block with
  | mapping columns =>
    obtain ⟨entry,-,rfl⟩ := List.mem_map.mp inside
    obtain ⟨raw,-,rfl⟩ := List.mem_map.mp member
    exact lawful.pythonValue_pythonValue raw
  | arrow batch =>
    obtain ⟨held,-,rfl⟩ := List.mem_map.mp inside
    exact lawful.toPylist_plain held.values value member

end reads

section columnar
variable {arrays} (record : Record (Block γ ν α)) (aligned : Aligned arrays record)
  (block : ColumnarBlock γ ν α) (count : Nat) (held : record.block = .columnar block) (numRows : record.numRows = some count)
include held numRows

theorem cellsOf_columnar : cellsOf arrays record = (List.range count).map (fun index => block.rowDict arrays index) := by
  unfold cellsOf
  rw [held,numRows]
  rfl

include aligned

theorem kind_at (index : Nat) (inside : index < count) :
    (kindsOf arrays record)[index]? = some ((record.rowKinds.bind (fun kinds => kinds[index]?)).join) := by
  have rows : record.rows = count := by
    unfold Record.rows
    rw [numRows]
    rfl
  unfold kindsOf
  cases kinds : record.rowKinds with
  | none =>
    rw [aligned.readRows,held,rows]
    simp [inside,Block.rowKind]
  | some kinds =>
    have full := (aligned.kinds _ (by assumption)).trans rows
    simp [full,inside]

omit held in
theorem stamp_at (index : Nat) (inside : index < count) : (stampsOf arrays record)[index]? = some (match record.rowTimestamps with
    | some timestamps => (timestamps[index]?).join
    | none => record.timestamp) := by
  have rows : record.rows = count := by
    unfold Record.rows
    rw [numRows]
    rfl
  unfold stampsOf
  cases stamps : record.rowTimestamps with
  | none =>
    rw [aligned.readRows,rows]
    simp [inside]
  | some stamps =>
    have full := (aligned.stamps _ (by assumption)).trans rows
    simp [full,inside]

theorem taggedRows_columnar : taggedRows arrays record = (List.range count).map (fun index =>
    ⟨block.rowDict arrays index,(record.rowKinds.bind (fun kinds => kinds[index]?)).join,match record.rowTimestamps with
      | some timestamps => (timestamps[index]?).join
      | none => record.timestamp,record.inputTag⟩) := by
  have rows : record.rows = count := by
    unfold Record.rows
    rw [numRows]
    rfl
  have cells := aligned.cells_length
  have kinds := aligned.kinds_length
  have stamps := aligned.stamps_length
  refine ext_getElem (by rw [aligned.length,rows,length_map,length_range]) (fun index less _ => ?_)
  have inside : index < count := by rwa [aligned.length,rows] at less
  apply some.inj
  rw [← getElem?_eq_getElem,taggedRows,tagged_at _ _ _ _ index (kinds.trans cells.symm) (stamps.trans cells.symm) (by omega)]
  have kind := kind_at record aligned block count held numRows index inside
  have stamped := stamp_at record aligned count numRows index inside
  rw [getElem?_eq_getElem (by omega)] at kind stamped
  rw [some.inj kind,some.inj stamped]
  simp [cellsOf_columnar record block count held numRows]

end columnar
end Klein.Dataflow
