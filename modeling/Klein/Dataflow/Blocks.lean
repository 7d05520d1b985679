import Mathlib
import Klein.Dict
import Klein.Fallible

/-! `_internal/block.py` and `_internal/values.py`: blocks of rows in columns. Python
values and the arrays of NumPy and PyArrow are parameters; an index out of range reads
`None` here. -/
namespace Klein.Dataflow
open Fallible Function List Option

/-- Python values `γ` with NumPy arrays `ν` of types `δ` and PyArrow arrays `α` of types `τ`. -/
structure ArrayOps (γ ν δ α τ : Type) where
  null : γ
  pythonValue : γ → γ
  nestedPythonValue : γ → γ
  isBinary : γ → Bool
  asNdarray : γ → Option ν
  items : ν → List γ
  shape : ν → List Nat
  dtype : ν → δ
  sameDtype : ν → ν → Bool
  isObject : δ → Bool
  isBytes : δ → Bool
  sameClass : τ → τ → Bool
  basicSlice : ν → Nat → Nat → ν
  fancyIndex : ν → List Nat → ν
  /-- `np.asarray`, without an array when NumPy rejects the shape. -/
  asarray : List γ → Except String (Option ν)
  createRaggedNdarray : List γ → ν
  concatenate : List ν → Except String ν
  stack : List ν → ν
  toPylist : α → List γ
  arrowType : α → τ
  isBinaryType : τ → Bool
  isListType : τ → Bool
  arrowSlice : α → Nat → Nat → α
  take : α → List Nat → α
  array : List γ → Except String α
  binaryArray : List γ → Except String α
  ndarrayArray : ν → Except String α
  tensorArray : ν → Except String α
  tensorNdarray : α → Option ν
  nullCount : α → Nat
  zeroCopy : α → Option ν
  concatArrays : List α → Except String α

section columns
variable (γ ν α : Type)

/-- The containers of a column; `other` is whatever else can be indexed and sliced. -/
inductive Column where
  | list (values : List γ)
  | tuple (values : List γ)
  | ndarray (values : ν)
  | arrow (values : α)
  | other (values : List γ)

structure ArrowColumn where
  name : String
  nullable : Bool
  values : α

/-- `pa.RecordBatch`, or a table with its chunks combined. -/
structure ArrowBatch where
  columns : List (ArrowColumn α)
  numRows : Nat

inductive ColumnarBlock where
  | mapping (columns : Dict String (Column γ ν α))
  | arrow (batch : ArrowBatch α)

inductive Block where
  | row (cells : Dict String γ) (kind : Option String)
  | columnar (block : ColumnarBlock γ ν α)

end columns

variable {γ ν δ α τ : Type} (arrays : ArrayOps γ ν δ α τ)

structure ArrayOps.Lawful : Prop where
  pythonValue_pythonValue : ∀ value, arrays.pythonValue (arrays.pythonValue value) = arrays.pythonValue value
  pythonValue_null : arrays.pythonValue arrays.null = arrays.null
  toPylist_plain : ∀ values, ∀ value ∈ arrays.toPylist values, arrays.pythonValue value = value
  items_basicSlice : ∀ values start stop,
    arrays.items (arrays.basicSlice values start stop) = ((arrays.items values).take stop).drop start
  items_fancyIndex : ∀ values indices, (∀ index ∈ indices, index < (arrays.items values).length) →
    arrays.items (arrays.fancyIndex values indices) = indices.filterMap (fun index => (arrays.items values)[index]?)
  items_createRaggedNdarray : ∀ values, arrays.items (arrays.createRaggedNdarray values) = values
  toPylist_arrowSlice : ∀ values start count,
    arrays.toPylist (arrays.arrowSlice values start count) = ((arrays.toPylist values).drop start).take count
  toPylist_take : ∀ values indices, (∀ index ∈ indices, index < (arrays.toPylist values).length) →
    arrays.toPylist (arrays.take values indices) = indices.filterMap (fun index => (arrays.toPylist values)[index]?)
  concatArrays_ok : ∀ first rest, (∀ other ∈ rest, arrays.arrowType other = arrays.arrowType first) → ∃ joined,
    arrays.concatArrays (first::rest) = .ok joined ∧ arrays.arrowType joined = arrays.arrowType first ∧
    arrays.toPylist joined = (first::rest).flatMap arrays.toPylist

namespace Column

/-- What `values[index]` gives, for each index in turn. -/
def values : Column γ ν α → List γ
  | .list values => values
  | .tuple values => values
  | .ndarray values => arrays.items values
  | .arrow values => arrays.toPylist values
  | .other values => values

/-- `_python_value(values[index])` -/
def pythonValues (column : Column γ ν α) : List γ := (column.values arrays).map arrays.pythonValue

def slice (start stop : Nat) : Column γ ν α → Column γ ν α
  | .list values => .list ((values.take stop).drop start)
  | .tuple values => .tuple ((values.take stop).drop start)
  | .ndarray values => .ndarray (arrays.basicSlice values start stop)
  | .arrow values => .arrow (arrays.arrowSlice values start (stop - start))
  | .other values => .other ((values.take stop).drop start)

def select (indices : List Nat) : Column γ ν α → Column γ ν α
  | .ndarray values => .ndarray (arrays.fancyIndex values indices)
  | .arrow values => .arrow (arrays.take values indices)
  | column => .list (indices.filterMap (fun index => (column.values arrays)[index]?))

end Column

/-- `_contiguous_slice` of a list of indices -/
def contiguousSlice : List Nat → Option (Nat × Nat)
  | [] => some (0,0)
  | start::rest =>
    if (start::rest).zipIdx.any (fun entry => entry.1 ≠ start + entry.2) then none
    else some (start,start + (rest.length + 1))

namespace ArrowBatch

def slice (start stop : Nat) (batch : ArrowBatch α) : ArrowBatch α where
  columns := batch.columns.map (fun column => {column with values := arrays.arrowSlice column.values start (stop - start)})
  numRows := min (stop - start) (batch.numRows - start)

def take (indices : List Nat) (batch : ArrowBatch α) : ArrowBatch α where
  columns := batch.columns.map (fun column => {column with values := arrays.take column.values indices})
  numRows := indices.length

end ArrowBatch

namespace ColumnarBlock

/-- `block_num_rows` -/
def numRows : ColumnarBlock γ ν α → Nat
  | .mapping columns => (columns.values.head?.map (fun column => (column.values arrays).length)).getD 0
  | .arrow batch => batch.numRows

/-- `slice_block_rows` with a slice -/
def sliceRows (start stop : Nat) : ColumnarBlock γ ν α → ColumnarBlock γ ν α
  | .mapping columns => .mapping (columns.mapValues (fun _ column => column.slice arrays start stop))
  | .arrow batch => .arrow (batch.slice arrays start stop)

/-- `slice_block_rows` with a list of indices -/
def selectRows (indices : List Nat) (block : ColumnarBlock γ ν α) : ColumnarBlock γ ν α :=
  match contiguousSlice indices,block with
  | some (start,stop),block => block.sliceRows arrays start stop
  | none,.mapping columns => .mapping (columns.mapValues (fun _ column => column.select arrays indices))
  | none,.arrow batch => .arrow (batch.take arrays indices)

/-- `block_row_dict` -/
def rowDict (index : Nat) : ColumnarBlock γ ν α → Dict String γ
  | .mapping columns => columns.mapValues (fun _ column => ((column.pythonValues arrays)[index]?).getD arrays.null)
  | .arrow batch => Dict.ofList (batch.columns.map (fun column =>
      (column.name,((arrays.toPylist column.values)[index]?).getD arrays.null)))

def Holds (rows : Nat) : ColumnarBlock γ ν α → Prop
  | .mapping columns => ∀ column ∈ columns.values, (column.values arrays).length = rows
  | .arrow batch => batch.numRows = rows ∧ ∀ column ∈ batch.columns, (arrays.toPylist column.values).length = rows

end ColumnarBlock

/-- The formats of `wrapper_batch_data` and `arrow_block_to_mapping`. -/
inductive BatchFormat where
  | native
  | pyarrow
  | numpy
  | default
  | unsupported (text : String)
deriving DecidableEq

section conversions

/-- `create_possibly_ragged_ndarray` -/
def createPossiblyRaggedNdarray (values : List γ) : Except String ν := do
  return (← arrays.asarray values).getD (arrays.createRaggedNdarray values)

/-- `wrapper_batch_data` -/
def wrapperBatchData (data : List γ) : BatchFormat → Except String (Column γ ν α)
  | .native => .ok (.list data)
  | .pyarrow => (arrays.array data).map .arrow
  | .unsupported text => .error ("Unsupported batch format '" ++ text ++ "'")
  | .numpy | .default =>
    -- bytes stay Python objects: an `S` array loses their trailing NULs
    if data.any arrays.isBinary then .ok (.ndarray (arrays.createRaggedNdarray data))
    else (createPossiblyRaggedNdarray arrays data).map .ndarray

/-- `_arrow_array_to_numpy` -/
def arrowArrayToNumpy (values : α) : Except String ν :=
  match arrays.tensorNdarray values with
  | some tensor => .ok tensor
  | none =>
    if arrays.isBinaryType (arrays.arrowType values) ∨ arrays.isListType (arrays.arrowType values) then
      .ok (arrays.createRaggedNdarray (arrays.toPylist values))
    else if arrays.nullCount values ≠ 0 then createPossiblyRaggedNdarray arrays (arrays.toPylist values)
    else
      match arrays.zeroCopy values with
      | some shared => .ok shared
      | none => createPossiblyRaggedNdarray arrays (arrays.toPylist values)

/-- One column of `arrow_block_to_mapping`. -/
def arrowColumnTo (values : α) : BatchFormat → Except String (Column γ ν α)
  | .native => .ok (.list (arrays.toPylist values))
  | .pyarrow => .ok (.arrow values)
  | .unsupported text => .error ("Unsupported batch format '" ++ text ++ "'")
  | .numpy | .default => (arrowArrayToNumpy arrays values).map .ndarray

/-- `arrow_block_to_mapping` -/
def arrowBlockToMapping (batch : ArrowBatch α) (format : BatchFormat) : Except String (Dict String (Column γ ν α)) :=
  match format with
  | .unsupported text => .error ("Unsupported batch format '" ++ text ++ "'")
  | _ => do
    let columns ← batch.columns.mapM (fun column => do return (column.name,← arrowColumnTo arrays column.values format))
    return Dict.ofList columns

/-- A Python sequence in `_to_arrow_array`; arrays of one shape become a tensor. -/
def sequenceToArrowArray (values : List γ) : Except String α :=
  match values.mapM arrays.asNdarray with
  | some (first::rest) =>
    if ¬ arrays.isObject (arrays.dtype first) ∧
        rest.all (fun value => arrays.shape value = arrays.shape first ∧ arrays.sameDtype value first) then
      arrays.tensorArray (arrays.stack (first::rest))
    else arrays.array (values.map arrays.nestedPythonValue)
  | _ => arrays.array (values.map arrays.nestedPythonValue)

/-- `_to_arrow_array` -/
def toArrowArray : Column γ ν α → Except String α
  | .arrow values => .ok values
  | .ndarray values =>
    if 1 < (arrays.shape values).length ∧ ¬ arrays.isObject (arrays.dtype values) then arrays.tensorArray values
    else if arrays.shape values = [] then arrays.array (arrays.items values)
    else if arrays.isBytes (arrays.dtype values) then arrays.binaryArray (arrays.items values)
    else if arrays.isObject (arrays.dtype values) then arrays.array ((arrays.items values).map arrays.nestedPythonValue)
    else arrays.ndarrayArray values
  | .list values => sequenceToArrowArray arrays values
  | .tuple values => sequenceToArrowArray arrays values
  | .other values => sequenceToArrowArray arrays values

/-- `pa.RecordBatch.from_arrays` -/
def fromArrays (columns : List (ArrowColumn α)) : Except String (ArrowBatch α) :=
  let numRows := (columns.head?.map (fun column => (arrays.toPylist column.values).length)).getD 0
  if columns.all (fun column => (arrays.toPylist column.values).length = numRows) then .ok ⟨columns,numRows⟩
  else .error "ArrowInvalid: arrays of different lengths"

/-- `to_arrow_record_batch` without an expected number of rows -/
def ColumnarBlock.toArrowRecordBatch : ColumnarBlock γ ν α → Except String (ArrowBatch α)
  | .arrow batch => .ok batch
  | .mapping columns => do
    let columns ← columns.entries.mapM (fun entry => do return ⟨entry.1,true,← toArrowArray arrays entry.2⟩)
    fromArrays arrays columns

/-- `try_to_arrow_record_batch` -/
def ColumnarBlock.tryToArrowRecordBatch (block : ColumnarBlock γ ν α) (expectedRows : Nat) : Option (ArrowBatch α) :=
  match block.toArrowRecordBatch arrays with
  | .ok batch => if batch.numRows = expectedRows then some batch else none
  | .error _ => none

def ndarrays : List (Column γ ν α) → Option (List ν) := List.mapM (fun column => match column with
  | .ndarray values => some values
  | _ => none)

def arrowArrays : List (Column γ ν α) → Option (List α) := List.mapM (fun column => match column with
  | .arrow values => some values
  | _ => none)

/-- One column of `concat_blocks`; the parts are of one class. -/
def concatColumn (parts : List (Column γ ν α)) : Except String (Column γ ν α) :=
  match ndarrays parts,arrowArrays parts with
  | some values,_ => (arrays.concatenate values).map .ndarray
  | none,some values => (arrays.concatArrays values).map .arrow
  | none,none => .ok (.list (parts.flatMap (Column.values arrays)))

variable [DecidableEq τ]

def ArrowBatch.schema (batch : ArrowBatch α) : List (String × Bool × τ) :=
  batch.columns.map (fun column => (column.name,column.nullable,arrays.arrowType column.values))

/-- `concat_blocks` on Arrow batches -/
def concatBatches : List (ArrowBatch α) → Except String (ArrowBatch α)
  | [] => .error "list index out of range"
  | [batch] => .ok batch
  | first::rest =>
    if rest.any (fun batch => batch.schema arrays ≠ first.schema arrays) then
      .error "cannot concatenate Arrow blocks with different schemas"
    else do
      let columns ← first.columns.zipIdx.mapM (fun entry => do
        let values ← arrays.concatArrays ((first::rest).filterMap (fun batch => (batch.columns[entry.2]?).map ArrowColumn.values))
        return {entry.1 with values := values})
      fromArrays arrays columns

/-- `block[column]` -/
def columnOf (name : String) (columns : Dict String (Column γ ν α)) : Except String (Column γ ν α) :=
  match columns.get? name with
  | some column => .ok column
  | none => .error ("KeyError: '" ++ name ++ "'")

/-- `concat_blocks` on mappings -/
def concatMappings : List (Dict String (Column γ ν α)) → Except String (Dict String (Column γ ν α))
  | [] => .ok ∅
  | [columns] => .ok columns
  | first::rest => do
    let columns ← first.entries.mapM (fun entry => do
      let parts ← (first::rest).mapM (columnOf entry.1)
      return (entry.1,← concatColumn arrays parts))
    return Dict.ofList columns

def mappings : List (ColumnarBlock γ ν α) → Option (List (Dict String (Column γ ν α))) := List.mapM (fun block => match block with
  | .mapping columns => some columns
  | .arrow _ => none)

/-- `concat_blocks` -/
def concatBlocks (blocks : List (ColumnarBlock γ ν α)) : Except String (ColumnarBlock γ ν α) :=
  match blocks,mappings blocks with
  | [],_ => .ok (.mapping ∅)
  | [block],_ => .ok block
  | _,some columns => (concatMappings arrays columns).map .mapping
  | blocks,none => do
    let batches ← blocks.mapM (ColumnarBlock.toArrowRecordBatch arrays)
    return .arrow (← concatBatches arrays batches)

end conversions

section laws
variable {arrays} (lawful : arrays.Lawful)

theorem contiguousSlice_eq_some (indices : List Nat) (start stop : Nat) (found : contiguousSlice indices = some (start,stop)) :
    stop = start + indices.length ∧ ∀ index (inside : index < indices.length), indices[index] = start + index := by
  cases indices with
  | nil =>
    obtain ⟨rfl,rfl⟩ := Prod.mk.inj (some.inj found)
    exact ⟨rfl,fun index inside => absurd inside (Nat.not_lt_zero _)⟩
  | cons first rest =>
    rw [contiguousSlice] at found
    split at found
    · cases found
    next steps =>
      obtain ⟨rfl,rfl⟩ := Prod.mk.inj (some.inj found)
      refine ⟨rfl,fun index inside => ?_⟩
      have member : ((first::rest)[index],index) ∈ (first::rest).zipIdx :=
        mk_mem_zipIdx_iff_getElem?.mpr (getElem?_eq_getElem inside)
      have same := List.any_eq_false.mp (Bool.eq_false_iff.mpr steps) _ member
      simpa using same

theorem slice_at {κ : Type} (values : List κ) (start stop index : Nat) (inside : start + index < stop) :
    ((values.take stop).drop start)[index]? = values[start + index]? := by
  rw [getElem?_drop,getElem?_take,if_pos inside]

theorem select_at {κ : Type} (values : List κ) (indices : List Nat) (inside : ∀ index ∈ indices, index < values.length)
    (position : Nat) (less : position < indices.length) :
    (indices.filterMap (fun index => values[index]?))[position]? = values[indices[position]]? := by
  induction indices generalizing position with
  | nil => exact absurd less (Nat.not_lt_zero _)
  | cons index rest ih =>
    obtain ⟨here,later⟩ := forall_mem_cons.mp inside
    rw [filterMap_cons_some (getElem?_eq_getElem here)]
    cases position with
    | zero => simp [getElem?_eq_getElem here]
    | succ position => simpa using ih later position (by simpa using less)

theorem select_length {κ : Type} (values : List κ) (indices : List Nat) (inside : ∀ index ∈ indices, index < values.length) :
    (indices.filterMap (fun index => values[index]?)).length = indices.length := by
  induction indices with
  | nil => rfl
  | cons index rest ih =>
    obtain ⟨here,later⟩ := forall_mem_cons.mp inside
    rw [filterMap_cons_some (getElem?_eq_getElem here),length_cons,length_cons,ih later]

namespace Column

include lawful

theorem values_slice (column : Column γ ν α) (start stop : Nat) :
    (column.slice arrays start stop).values arrays = ((column.values arrays).take stop).drop start := by
  cases column with
  | list values => rfl
  | tuple values => rfl
  | ndarray values => exact lawful.items_basicSlice values start stop
  | arrow values =>
    change arrays.toPylist _ = _
    rw [lawful.toPylist_arrowSlice,drop_take]
    rfl
  | other values => rfl

theorem values_select (column : Column γ ν α) (indices : List Nat)
    (inside : ∀ index ∈ indices, index < (column.values arrays).length) :
    (column.select arrays indices).values arrays = indices.filterMap (fun index => (column.values arrays)[index]?) := by
  cases column with
  | ndarray values => exact lawful.items_fancyIndex values indices inside
  | arrow values => exact lawful.toPylist_take values indices inside
  | list values => rfl
  | tuple values => rfl
  | other values => rfl

end Column

section tables
variable (null : γ)

def rowAcross (columns : List (String × List γ)) (index : Nat) : Dict String γ :=
  Dict.ofList (columns.map (fun column => (column.1,(column.2[index]?).getD null)))

def rowsAcross (columns : List (String × List γ)) (count : Nat) : List (Dict String γ) :=
  (List.range count).map (rowAcross null columns)

variable {ι κ : Type} (keys : List ι) (name : ι → String)

theorem rowsAcross_append (first second : ι → List γ) (count more : Nat) (full : ∀ key ∈ keys, (first key).length = count) :
    rowsAcross null (keys.map (fun key => (name key,first key ++ second key))) (count + more) =
      rowsAcross null (keys.map (fun key => (name key,first key))) count ++
        rowsAcross null (keys.map (fun key => (name key,second key))) more := by
  unfold rowsAcross
  rw [range_add,map_append,List.map_map]
  congr 1
  · apply map_congr_left
    intro index less
    unfold rowAcross
    rw [List.map_map,List.map_map]
    congr 1
    apply map_congr_left
    intro key inside
    simp only [comp_apply]
    rw [getElem?_append_left (by rw [full key inside]; exact mem_range.mp less)]
  · apply map_congr_left
    intro index _
    simp only [comp_apply,rowAcross,List.map_map]
    congr 1
    apply map_congr_left
    intro key inside
    simp only [comp_apply]
    rw [getElem?_append_right (by rw [full key inside]; exact Nat.le_add_right _ _),full key inside,Nat.add_sub_cancel_left]

theorem rowsAcross_flatMap (parts : List κ) (columns : κ → ι → List γ) (count : κ → Nat)
    (full : ∀ part ∈ parts, ∀ key ∈ keys, (columns part key).length = count part) :
    rowsAcross null (keys.map (fun key => (name key,parts.flatMap (fun part => columns part key)))) (parts.map count).sum =
      parts.flatMap (fun part => rowsAcross null (keys.map (fun key => (name key,columns part key))) (count part)) := by
  induction parts with
  | nil => rfl
  | cons part rest ih =>
    obtain ⟨here,later⟩ := forall_mem_cons.mp full
    rw [flatMap_cons,map_cons,sum_cons,← ih later]
    exact rowsAcross_append null keys name (columns part) _ (count part) _ here

end tables

namespace ColumnarBlock
variable (arrays) in
def columnValues : ColumnarBlock γ ν α → List (String × List γ)
  | .mapping columns => columns.entries.map (fun entry => (entry.1,entry.2.pythonValues arrays))
  | .arrow batch => batch.columns.map (fun column => (column.name,arrays.toPylist column.values))

theorem rowDict_eq (block : ColumnarBlock γ ν α) (index : Nat) :
    block.rowDict arrays index = rowAcross arrays.null (block.columnValues arrays) index := by
  unfold rowAcross
  cases block with
  | mapping columns =>
    unfold rowDict columnValues
    rw [List.map_map]
    exact (Dict.ofList_entries _).symm
  | arrow batch =>
    unfold rowDict columnValues
    rw [List.map_map]
    rfl

include lawful

section
variable (block : ColumnarBlock γ ν α)
include block

theorem rowDict_sliceRows (start stop index : Nat) (inside : start + index < stop) :
    (block.sliceRows arrays start stop).rowDict arrays index = block.rowDict arrays (start + index) := by
  cases block with
  | mapping columns =>
    ext1
    simp only [sliceRows,rowDict,Dict.mapValues,List.map_map]
    apply map_congr_left
    intro entry _
    simp only [comp_apply,Column.pythonValues,getElem?_map]
    rw [Column.values_slice lawful,slice_at _ _ _ _ inside]
  | arrow batch =>
    simp only [sliceRows,rowDict,ArrowBatch.slice,List.map_map]
    congr 1
    apply map_congr_left
    intro column _
    simp only [comp_apply]
    rw [lawful.toPylist_arrowSlice,← drop_take,slice_at _ _ _ _ inside]

theorem rowDict_selectRows (rows : Nat) (holds : block.Holds arrays rows) (indices : List Nat)
    (below : ∀ index ∈ indices, index < rows) (position : Nat) (less : position < indices.length) :
    (block.selectRows arrays indices).rowDict arrays position = block.rowDict arrays indices[position] := by
  unfold selectRows
  cases found : contiguousSlice indices with
  | some bounds =>
    obtain ⟨start,stop⟩ := bounds
    obtain ⟨rfl,place⟩ := contiguousSlice_eq_some indices start stop found
    dsimp only
    rw [rowDict_sliceRows lawful block start _ position (by omega),place position less]
  | none =>
    cases block with
    | mapping columns =>
      ext1
      simp only [rowDict,Dict.mapValues,List.map_map]
      apply map_congr_left
      intro entry member
      have length := holds entry.2 (List.mem_map_of_mem member)
      have inside : ∀ index ∈ indices, index < (entry.2.values arrays).length := by
        rw [length]
        exact below
      simp only [comp_apply,Column.pythonValues,getElem?_map]
      rw [Column.values_select lawful entry.2 indices inside,select_at _ _ inside position less]
    | arrow batch =>
      simp only [rowDict,ArrowBatch.take,List.map_map]
      congr 1
      apply map_congr_left
      intro column member
      have inside : ∀ index ∈ indices, index < (arrays.toPylist column.values).length := by
        rw [holds.2 column member]
        exact below
      simp only [comp_apply]
      rw [lawful.toPylist_take column.values indices inside,select_at _ _ inside position less]

theorem Holds.sliceRows (rows start stop : Nat) (holds : block.Holds arrays rows) (within : stop ≤ rows) :
    (block.sliceRows arrays start stop).Holds arrays (stop - start) := by
  cases block with
  | mapping columns =>
    intro column inside
    obtain ⟨entry,member,rfl⟩ := List.mem_map.mp inside
    obtain ⟨source,there,rfl⟩ := List.mem_map.mp member
    have length := holds source.2 (List.mem_map_of_mem there)
    dsimp only
    rw [Column.values_slice lawful,length_drop,length_take,length,Nat.min_eq_left within]
  | arrow batch =>
    obtain ⟨counted,each⟩ := holds
    refine ⟨?_,fun column inside => ?_⟩
    · dsimp only [ArrowBatch.slice]
      omega
    · obtain ⟨source,there,rfl⟩ := List.mem_map.mp inside
      have length := each source there
      dsimp only
      rw [lawful.toPylist_arrowSlice,length_take,length_drop,length]
      omega

end

end ColumnarBlock

section concatenation

variable (arrays) in
def ArrowBatch.column (place : Nat) (batch : ArrowBatch α) : List γ :=
  ((batch.columns[place]?).map (fun column => arrays.toPylist column.values)).getD []

variable (arrays) in
def ArrowBatch.Holds (batch : ArrowBatch α) : Prop := ∀ column ∈ batch.columns, (arrays.toPylist column.values).length = batch.numRows

theorem ArrowBatch.column_length (batch : ArrowBatch α) (holds : batch.Holds arrays) (place : Nat)
    (inside : place < batch.columns.length) : (batch.column arrays place).length = batch.numRows := by
  unfold column
  rw [getElem?_eq_getElem inside]
  exact holds _ (getElem_mem inside)

section
variable (first batch : ArrowBatch α) (same : batch.schema arrays = first.schema arrays)
include same

theorem ArrowBatch.columnValues_eq :
    (ColumnarBlock.arrow batch).columnValues arrays =
      (first.columns.zipIdx).map (fun entry => (entry.1.name,batch.column arrays entry.2)) := by
  have count : batch.columns.length = first.columns.length := by simpa [schema] using congrArg List.length same
  refine ext_getElem (by simp [ColumnarBlock.columnValues,count]) (fun place less _ => ?_)
  have inside : place < batch.columns.length := by simpa [ColumnarBlock.columnValues] using less
  have bound : place < first.columns.length := by omega
  have names : batch.columns[place].name = first.columns[place].name := by
    have at' := congrArg (fun schema => (schema[place]?).map Prod.fst) same
    simpa [schema,inside,count ▸ inside] using at'
  simp [ColumnarBlock.columnValues,column,names,inside]

theorem ArrowBatch.typed (place : Nat)
    (column other : ArrowColumn α) (there : first.columns[place]? = some column) (here : batch.columns[place]? = some other) :
    arrays.arrowType other.values = arrays.arrowType column.values := by
  have at' := congrArg (fun schema => (schema[place]?).map (fun field => field.2.2)) same
  simpa [schema,there,here] using at'

end

theorem flatMap_column (batches : List (ArrowBatch α)) (place : Nat) :
    (batches.filterMap (fun batch => (batch.columns[place]?).map ArrowColumn.values)).flatMap arrays.toPylist =
      batches.flatMap (ArrowBatch.column arrays place) := by
  induction batches with
  | nil => rfl
  | cons batch rest ih =>
    rw [flatMap_cons,← ih]
    unfold ArrowBatch.column
    cases found : batch.columns[place]? with
    | none => rw [filterMap_cons_none (by rw [found]; rfl)]; rfl
    | some column => rw [filterMap_cons_some (by rw [found]; rfl),flatMap_cons]; rfl

theorem column_total (batches : List (ArrowBatch α)) (holds : ∀ batch ∈ batches, batch.Holds arrays) (place : Nat)
    (inside : ∀ batch ∈ batches, place < batch.columns.length) :
    (batches.flatMap (ArrowBatch.column arrays place)).length = (batches.map ArrowBatch.numRows).sum := by
  rw [length_flatMap]
  congr 1
  apply map_congr_left
  intro batch member
  exact batch.column_length (holds batch member) place (inside batch member)

variable [DecidableEq τ]
include lawful

section
variable (first : ArrowBatch α) (rest : List (ArrowBatch α)) (some' : rest ≠ [])
  (schemas : ∀ batch ∈ rest, batch.schema arrays = first.schema arrays)
  (holds : ∀ batch ∈ first::rest, batch.Holds arrays)
include some' schemas holds

theorem concatBatches_ok :
    ∃ joined, concatBatches arrays (first::rest) = .ok joined ∧ joined.Holds arrays ∧
      (ColumnarBlock.arrow joined).columnValues arrays = (first.columns.zipIdx).map
        (fun entry => (entry.1.name,(first::rest).flatMap (ArrowBatch.column arrays entry.2))) ∧
      joined.numRows = if joined.columns = [] then 0 else ((first::rest).map ArrowBatch.numRows).sum := by
  obtain ⟨columns,made,reads⟩ := mapM_reads first.columns.zipIdx (fun entry => do
      let values ← arrays.concatArrays ((first::rest).filterMap (fun batch => (batch.columns[entry.2]?).map ArrowColumn.values))
      return {entry.1 with values := values}) (fun column => (column.name,arrays.toPylist column.values))
      (fun entry => (entry.1.name,(first::rest).flatMap (ArrowBatch.column arrays entry.2))) (by
    intro entry member
    have there : first.columns[entry.2]? = some entry.1 := mk_mem_zipIdx_iff_getElem?.mp member
    have head : (first.columns[entry.2]?).map ArrowColumn.values = some entry.1.values := by rw [there]; rfl
    obtain ⟨joined,done,-,values⟩ := lawful.concatArrays_ok entry.1.values
      (rest.filterMap (fun batch => (batch.columns[entry.2]?).map ArrowColumn.values)) (by
        intro other inside
        obtain ⟨batch,within,found⟩ := mem_filterMap.mp inside
        obtain ⟨column,here,rfl⟩ := map_eq_some_iff.mp found
        exact ArrowBatch.typed first batch (schemas batch within) entry.2 entry.1 column there here)
    rw [← filterMap_cons_some (f := fun batch : ArrowBatch α => (batch.columns[entry.2]?).map ArrowColumn.values) head]
      at done values
    refine ⟨{entry.1 with values := joined},ok_bind done,?_⟩
    rw [← flatMap_column,← values])
  have counts (batch : ArrowBatch α) (inside : batch ∈ first::rest) : batch.columns.length = first.columns.length := by
    obtain rfl | inside := mem_cons.mp inside
    · rfl
    · simpa [ArrowBatch.schema] using congrArg List.length (schemas batch inside)
  have full (column : ArrowColumn α) (member : column ∈ columns) :
      (arrays.toPylist column.values).length = ((first::rest).map ArrowBatch.numRows).sum := by
    have inside := List.mem_map_of_mem (f := fun column : ArrowColumn α => (column.name,arrays.toPylist column.values)) member
    rw [reads] at inside
    obtain ⟨entry,within,same⟩ := List.mem_map.mp inside
    rw [← (Prod.mk.inj same).2]
    apply column_total _ holds
    intro batch belongs
    rw [counts batch belongs]
    exact (mem_zipIdx' within).1
  obtain ⟨second,others,rfl⟩ := exists_cons_of_ne_nil some'
  have equal : ¬ (second::others).any (fun batch => batch.schema arrays ≠ first.schema arrays) = true := by
    simpa using schemas
  have unfolded : concatBatches arrays (first::second::others) = fromArrays arrays columns := by
    rw [concatBatches,if_neg equal,ok_bind made]
    simp
  rw [unfolded,fromArrays]
  cases columns with
  | nil =>
    rw [if_pos (by rfl)]
    refine ⟨_,rfl,?_,reads,(if_pos rfl).symm⟩
    simp [ArrowBatch.Holds]
  | cons column others' =>
    have head := full column mem_cons_self
    rw [if_pos (by
      rw [List.all_eq_true]
      intro other inside
      exact decide_eq_true ((full other inside).trans head.symm))]
    refine ⟨_,rfl,?_,reads,?_⟩
    · intro other inside
      exact (full other inside).trans head.symm
    · rw [if_neg (by simp)]
      exact head

theorem concatBatches_rows :
    ∃ joined, concatBatches arrays (first::rest) = .ok joined ∧ joined.Holds arrays ∧
      joined.numRows = (if joined.columns = [] then 0 else ((first::rest).map ArrowBatch.numRows).sum) ∧
      (List.range ((first::rest).map ArrowBatch.numRows).sum).map ((ColumnarBlock.arrow joined).rowDict arrays) =
        (first::rest).flatMap (fun batch => (List.range batch.numRows).map ((ColumnarBlock.arrow batch).rowDict arrays)) := by
  obtain ⟨joined,done,held,columns,count⟩ := concatBatches_ok lawful first rest some' schemas holds
  have schema (batch : ArrowBatch α) (inside : batch ∈ first::rest) : batch.schema arrays = first.schema arrays := by
    obtain rfl | inside := mem_cons.mp inside
    · rfl
    · exact schemas batch inside
  refine ⟨joined,done,held,count,?_⟩
  have table := rowsAcross_flatMap arrays.null first.columns.zipIdx (fun entry => entry.1.name) (first::rest)
    (fun batch entry => batch.column arrays entry.2) ArrowBatch.numRows (by
      intro batch inside entry member
      apply batch.column_length (holds batch inside)
      have lengths : batch.columns.length = first.columns.length := by
        simpa [ArrowBatch.schema] using congrArg List.length (schema batch inside)
      rw [lengths]
      exact (mem_zipIdx' member).1)
  have across (index : Nat) : (ColumnarBlock.arrow joined).rowDict arrays index = _ :=
    (ColumnarBlock.rowDict_eq _ index).trans (congrArg (fun columns => rowAcross arrays.null columns index) columns)
  rw [map_congr_left (fun index _ => across index)]
  refine Eq.trans table (flatMap_congr (fun batch inside => ?_))
  unfold rowsAcross
  apply map_congr_left
  intro index _
  rw [ColumnarBlock.rowDict_eq,ArrowBatch.columnValues_eq first batch (schema batch inside)]

end

end concatenation
end laws

def objectArrays (null : γ) : ArrayOps γ (List γ) Unit (List γ) Unit where
  null := null
  pythonValue := id
  nestedPythonValue := id
  isBinary := fun _ => false
  asNdarray := fun _ => none
  items := id
  shape := fun values => [values.length]
  dtype := fun _ => ()
  sameDtype := fun _ _ => true
  isObject := fun _ => true
  isBytes := fun _ => false
  sameClass := fun _ _ => true
  basicSlice := fun values start stop => (values.take stop).drop start
  fancyIndex := fun values indices => indices.filterMap (fun index => values[index]?)
  asarray := fun values => .ok (some values)
  createRaggedNdarray := id
  concatenate := fun parts => .ok parts.flatten
  stack := List.flatten
  toPylist := id
  arrowType := fun _ => ()
  isBinaryType := fun _ => false
  isListType := fun _ => false
  arrowSlice := fun values start count => (values.drop start).take count
  take := fun values indices => indices.filterMap (fun index => values[index]?)
  array := .ok
  binaryArray := .ok
  ndarrayArray := .ok
  tensorArray := .ok
  tensorNdarray := fun _ => none
  nullCount := fun _ => 0
  zeroCopy := some
  concatArrays := fun parts => .ok parts.flatten

theorem objectArrays_lawful (null : γ) : (objectArrays null).Lawful where
  pythonValue_pythonValue := fun _ => rfl
  pythonValue_null := rfl
  toPylist_plain := fun _ _ _ => rfl
  items_basicSlice := fun _ _ _ => rfl
  items_fancyIndex := fun _ _ _ => rfl
  items_createRaggedNdarray := fun _ => rfl
  toPylist_arrowSlice := fun _ _ _ => rfl
  toPylist_take := fun _ _ _ => rfl
  concatArrays_ok := fun first rest _ => ⟨(first::rest).flatten,rfl,rfl,by simp [objectArrays,flatMap_id]⟩

end Klein.Dataflow
