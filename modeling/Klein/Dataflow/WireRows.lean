import Klein.Dataflow.BlockRows

/-! Wire batches of blocks (`_pack_wire_records` of `edge_output.py`): what the rows of a
run of records become when Arrow takes them together, beside what each becomes alone. -/
namespace Klein.Dataflow
open Bool Dict Fallible List Option
variable {γ ν δ α τ σ : Type} (arrays : ArrayOps γ ν δ α τ)

/-- A block on the wire with the vertex that sends it. `plain` marks what `_arrow_packable`
asks of classes: a `Record` and no subclass, a `dict` or `ChangelogRow` for its row. -/
structure SentBlock (γ ν α σ : Type) where
  block : Block γ ν α
  sender : Option σ
  plain : Bool

def received (record : Record (SentBlock γ ν α σ)) : Record (Block γ ν α) where
  block := record.block.block
  numRows := record.numRows
  inputTag := record.inputTag
  rowKinds := record.rowKinds
  rowTimestamps := record.rowTimestamps
  timestamp := record.timestamp

def unpacked (record : Record (SentBlock γ ν α σ)) : List (TaggedRow (Dict String γ) × Option σ) :=
  (taggedRows arrays (received record)).map (fun row => (row,record.block.sender))

section packing

/-- `_arrow_packable` -/
def arrowPackable (record : Record (SentBlock γ ν α σ)) : Bool :=
  record.block.plain && match record.isColumnar,record.block.block with
    | false,.row .. => true
    | false,.columnar (.mapping _) => true
    | false,.columnar (.arrow _) => false
    | true,_ => true

def blockNames : Block γ ν α → Option (List String)
  | .row cells _ => some cells.keys
  | .columnar (.mapping columns) => some columns.keys
  | .columnar (.arrow _) => none

def sameColumns [DecidableEq τ] : Block γ ν α → Block γ ν α → Bool
  | .columnar (.arrow first),.columnar (.arrow second) => first.schema arrays = second.schema arrays
  | first,second =>
    match blockNames first,blockNames second with
    | some first,some second => first = second
    | _,_ => false

/-- `_wire_compatible` -/
def wireCompatible [DecidableEq τ] [DecidableEq σ] (left right : Record (SentBlock γ ν α σ)) : Bool :=
  left.isColumnar = right.isColumnar && left.block.sender = right.block.sender && left.inputTag = right.inputTag &&
    sameColumns arrays left.block.block right.block.block

def columnOfRows (rows : List (Dict String γ)) (name : String) : List γ := rows.map (fun row => (row.get? name).getD arrays.null)

/-- `_convert_row_wire_run` on the rows of a run -/
def convertRows (rows : List (Dict String γ)) : Option (ArrowBatch α) :=
  match rows with
  | [] => none
  | first::_ =>
    if rows.any (fun row => row.keys ≠ first.keys) then none
    else
      let columns : Dict String (Column γ ν α) := first.mapValues (fun name _ => .list (columnOfRows arrays rows name))
      (ColumnarBlock.mapping columns).tryToArrowRecordBatch arrays rows.length

def rowCells : Block γ ν α → Option (Dict String γ)
  | .row cells _ => some cells
  | .columnar _ => none

def columnarBatch (record : Record (SentBlock γ ν α σ)) : Option (ArrowBatch α) :=
  match record.block.block,record.numRows with
  | .columnar block,some numRows => block.tryToArrowRecordBatch arrays numRows
  | _,_ => none

/-- `_convert_columnar_wire_run` -/
def convertColumnar [DecidableEq τ] (records : List (Record (SentBlock γ ν α σ))) : Option (ArrowBatch α) :=
  match records.mapM (columnarBatch arrays) with
  | none => none
  | some batches =>
    match concatBatches arrays batches with
    | .ok batch => some batch
    | .error _ => none

/-- The Arrow block of `_convert_wire_run` -/
def convertRun [DecidableEq τ] (records : List (Record (SentBlock γ ν α σ))) : Option (SentBlock γ ν α σ) :=
  match records with
  | [] => none
  | first::_ =>
    let batch :=
      if first.isColumnar then convertColumnar arrays records
      else (records.mapM (fun record => rowCells record.block.block)).bind (convertRows arrays)
    batch.map (fun batch => ⟨.columnar (.arrow batch),first.block.sender,true⟩)

def wireOps [DecidableEq τ] [DecidableEq σ] (routes : RouteOps (SentBlock γ ν α σ)) : WireOps (SentBlock γ ν α σ) := {routes with
  numRows := fun sent => match sent.block with
    | .row .. => 0
    | .columnar block => block.numRows arrays
  rowKind := fun record => record.block.block.rowKind
  arrowPackable := arrowPackable
  wireCompatible := wireCompatible arrays
  convertRun := convertRun arrays}

def packAlone [DecidableEq τ] [DecidableEq σ] (routes : RouteOps (SentBlock γ ν α σ)) (record : Record (SentBlock γ ν α σ)) :
    Except String (List (Record (SentBlock γ ν α σ))) := (wireOps arrays routes).packWireRecords [record]

def aloneCells (cells : Dict String γ) : Dict String γ :=
  match convertRows arrays [cells] with
  | some batch => (ColumnarBlock.arrow (γ := γ) (ν := ν) batch).rowDict arrays 0
  | none => cells.mapValues (fun _ value => arrays.pythonValue value)

def columnReads (values : List γ) : Option (List γ) := (sequenceToArrowArray arrays values).toOption.map arrays.toPylist

def takes : List (Dict String γ) → Bool
  | [] => false
  | first::rest => !first.keys.isEmpty && (first::rest).all (fun row => row.keys = first.keys) &&
      first.keys.all (fun name => (columnReads arrays (columnOfRows arrays (first::rest) name)).any
        (fun read => read.length = (first::rest).length))

def aloneValue (name : String) (cells : Dict String γ) : γ :=
  let value := (cells.get? name).getD arrays.null
  if takes arrays [cells] then (((columnReads arrays [value]).getD []).head?).getD arrays.null else arrays.pythonValue value

def Columnless (record : Record (SentBlock γ ν α σ)) : Prop :=
  ∃ block, record.block.block = .columnar block ∧ block.columnValues arrays = [] ∧ record.numRows = some (block.numRows arrays)

/-- Each column that Arrow takes together reads as its values do alone, and blocks
without columns have no rows or no neighbours. -/
def RunKeeps (run : List (Record (SentBlock γ ν α σ))) : Prop :=
  match run.mapM (fun record => rowCells record.block.block) with
  | some rows => takes arrays rows = true → ∀ name ∈ (rows.head?.map Dict.keys).getD [],
      columnReads arrays (columnOfRows arrays rows name) = some (rows.map (aloneValue arrays name))
  | none => (∀ record ∈ run, Columnless arrays record) → run.length = 1 ∨ (run.map Record.rows).sum = 0

/-- The runs that `_pack_wire_records` cuts. -/
def runsFrom [DecidableEq τ] [DecidableEq σ] (run : List (Record (SentBlock γ ν α σ))) :
    List (Record (SentBlock γ ν α σ)) → List (List (Record (SentBlock γ ν α σ)))
  | [] => [run]
  | record::rest =>
    if ¬ arrowPackable record then run::runsFrom [] rest
    else if run.getLast?.any (fun last => ¬ wireCompatible arrays last record) then run::runsFrom [record] rest
    else runsFrom (run ++ [record]) rest

end packing

section shapes

/-- What the classes of a record promise: a row or columns, and Arrow batches whose arrays
have its length. -/
structure Shaped (record : Record (SentBlock γ ν α σ)) : Prop where
  rowShaped : record.numRows = none → ∃ cells kind, record.block.block = .row cells kind
  columnar : ∀ numRows, record.numRows = some numRows → ∃ block, record.block.block = .columnar block
  full : ∀ batch, record.block.block = .columnar (.arrow batch) → batch.Holds arrays

variable {arrays}

section
variable (records : List (Record (SentBlock γ ν α σ)))
include records

theorem rowKindsOf_received :
    rowKindsOf (fun record => record.block.block.rowKind) records =
      rowKindsOf (fun record => record.block.rowKind) (records.map received) := by
  induction records with
  | nil => rfl
  | cons record rest ih =>
    rw [map_cons,rowKindsOf,rowKindsOf,ih]
    rfl

theorem combinedRowKinds_received :
    combinedRowKinds (fun record => record.block.block.rowKind) records =
      combinedRowKinds (fun record => record.block.rowKind) (records.map received) := by
  unfold combinedRowKinds
  rw [rowKindsOf_received]

theorem combinedRowTimestamps_received :
    combinedRowTimestamps records = combinedRowTimestamps (records.map received) := by
  induction records with
  | nil => rfl
  | cons record rest ih =>
    rw [map_cons,combinedRowTimestamps,combinedRowTimestamps,ih]
    rfl

end

theorem received_stamp (record : Record (SentBlock γ ν α σ)) (stamps : List (Option Int)) :
    received (stamp record stamps) = stamp (received record) stamps := by
  unfold stamp
  cases stamps with
  | nil => rfl
  | cons first rest =>
    dsimp only
    split <;> rfl

theorem rowKindsOf_lengths {β : Type} (rowKind : Record β → Option String) (records : List (Record β))
    (all : List (Option String)) (done : rowKindsOf rowKind records = .ok all) :
    ∀ record ∈ records, ∀ kinds, record.rowKinds = some kinds → kinds.length = record.rows := by
  induction records generalizing all with
  | nil => simp
  | cons record rest ih =>
    rw [rowKindsOf] at done
    cases held : record.rowKinds with
    | none =>
      rw [held] at done
      obtain ⟨_,-,done⟩ := bind_ok done
      obtain ⟨others,later,-⟩ := bind_ok done
      exact forall_mem_cons.mpr ⟨fun _ same => (by rw [held] at same; cases same),ih others later⟩
    | some kinds =>
      rw [held] at done
      dsimp only at done
      by_cases fits : kinds.length = record.rows
      · rw [if_neg (not_not_intro fits)] at done
        obtain ⟨_,-,done⟩ := bind_ok done
        obtain ⟨others,later,-⟩ := bind_ok done
        refine forall_mem_cons.mpr ⟨fun other same => ?_,ih others later⟩
        rw [held] at same
        rw [← some.inj same]
        exact fits
      · rw [if_pos fits] at done
        cases done

theorem combinedRowTimestamps_lengths {β : Type} (records : List (Record β)) (all : List (Option Int))
    (done : combinedRowTimestamps records = .ok all) :
    ∀ record ∈ records, ∀ stamps, record.rowTimestamps = some stamps → stamps.length = record.rows := by
  induction records generalizing all with
  | nil => simp
  | cons record rest ih =>
    rw [combinedRowTimestamps] at done
    cases held : record.rowTimestamps with
    | none =>
      rw [held] at done
      obtain ⟨_,-,done⟩ := bind_ok done
      obtain ⟨others,later,-⟩ := bind_ok done
      exact forall_mem_cons.mpr ⟨fun _ same => (by rw [held] at same; cases same),ih others later⟩
    | some stamps =>
      rw [held] at done
      dsimp only at done
      by_cases fits : stamps.length = record.rows
      · rw [if_neg (not_not_intro fits)] at done
        obtain ⟨_,-,done⟩ := bind_ok done
        obtain ⟨others,later,-⟩ := bind_ok done
        refine forall_mem_cons.mpr ⟨fun other same => ?_,ih others later⟩
        rw [held] at same
        rw [← some.inj same]
        exact fits
      · rw [if_pos fits] at done
        cases done

theorem Shaped.aligned (record : Record (SentBlock γ ν α σ)) (shaped : Shaped arrays record)
    (kinds : ∀ kinds, record.rowKinds = some kinds → kinds.length = record.rows)
    (stamps : ∀ stamps, record.rowTimestamps = some stamps → stamps.length = record.rows) : Aligned arrays (received record) := by
  refine ⟨?_,fun columnar => ?_,kinds,stamps⟩
  · unfold readRows Record.rows received
    dsimp only
    cases numRows : record.numRows with
    | none =>
      obtain ⟨cells,kind,same⟩ := shaped.rowShaped numRows
      rw [same]
      rfl
    | some count =>
      obtain ⟨block,same⟩ := shaped.columnar count numRows
      rw [same]
      rfl
  · obtain ⟨count,numRows⟩ := isSome_iff_exists.mp columnar
    obtain ⟨block,same⟩ := shaped.columnar count numRows
    unfold received
    dsimp only
    rw [same]
    rfl

end shapes

section batches
variable {arrays}

theorem fromArrays_ok (columns : List (ArrowColumn α)) (batch : ArrowBatch α) (made : fromArrays arrays columns = .ok batch) :
    batch.columns = columns ∧ batch.Holds arrays := by
  unfold fromArrays at made
  dsimp only at made
  split at made
  next all =>
    cases made
    refine ⟨rfl,fun column inside => ?_⟩
    exact of_decide_eq_true (List.all_eq_true.mp all column inside)
  · cases made

theorem toArrowRecordBatch_mapping (columns : Dict String (Column γ ν α)) (batch : ArrowBatch α)
    (made : (ColumnarBlock.mapping columns).toArrowRecordBatch arrays = .ok batch) :
    batch.columns.map ArrowColumn.name = columns.keys ∧ batch.Holds arrays := by
  obtain ⟨arrowColumns,done,made⟩ := bind_ok made
  obtain ⟨same,holds⟩ := fromArrays_ok arrowColumns batch made
  refine ⟨?_,holds⟩
  rw [same]
  refine map_of_mapM_ok columns.entries _ ArrowColumn.name Prod.fst (fun entry column step => ?_) arrowColumns done
  obtain ⟨values,-,same⟩ := bind_ok step
  cases same
  rfl

theorem tryToArrowRecordBatch_some (block : ColumnarBlock γ ν α) (expectedRows : Nat) (batch : ArrowBatch α)
    (full : ∀ batch, block = .arrow batch → batch.Holds arrays)
    (made : block.tryToArrowRecordBatch arrays expectedRows = some batch) :
    block.toArrowRecordBatch arrays = .ok batch ∧ batch.numRows = expectedRows ∧ batch.Holds arrays := by
  unfold ColumnarBlock.tryToArrowRecordBatch at made
  split at made
  next converted done =>
    split at made
    next counted =>
      obtain rfl := some.inj made
      refine ⟨done,counted,?_⟩
      cases block with
      | mapping columns => exact (toArrowRecordBatch_mapping columns _ done).2
      | arrow held =>
        cases done
        exact full _ rfl
    · cases made
  · cases made

theorem convertRows_some (rows : List (Dict String γ)) (batch : ArrowBatch α) (made : convertRows arrays rows = some batch) :
    batch.numRows = rows.length ∧ batch.Holds arrays ∧
      ∀ row ∈ rows, batch.columns.map ArrowColumn.name = row.keys := by
  unfold convertRows at made
  split at made
  · cases made
  next first rest =>
    split at made
    · cases made
    next same =>
      obtain ⟨done,counted,holds⟩ := tryToArrowRecordBatch_some _ _ batch (fun _ impossible => by cases impossible) made
      obtain ⟨names,-⟩ := toArrowRecordBatch_mapping _ batch done
      refine ⟨counted,holds,fun row inside => ?_⟩
      have keys := List.any_eq_false.mp (eq_false_iff.mpr same) row inside
      have keys' : row.keys = first.keys := by simpa using keys
      rw [names,keys']
      unfold Dict.keys Dict.mapValues
      dsimp only
      rw [List.map_map]
      rfl

theorem toArrowColumn_ok (entry : String × Column γ ν α) (column : ArrowColumn α)
    (done : (do return (⟨entry.1,true,← toArrowArray arrays entry.2⟩ : ArrowColumn α)) = (.ok column : Except String _)) :
    column.name = entry.1 ∧ (toArrowArray arrays entry.2).toOption.map arrays.toPylist = some (arrays.toPylist column.values) := by
  obtain ⟨values,made,same⟩ := bind_ok done
  cases same
  rw [made]
  exact ⟨rfl,rfl⟩

variable (arrays) in
def listColumns (rows : List (Dict String γ)) (first : Dict String γ) : Dict String (Column γ ν α) :=
  first.mapValues (fun name _ => .list (columnOfRows arrays rows name))

section
variable (first : Dict String γ) (rest : List (Dict String γ)) (batch : ArrowBatch α)
include first rest batch

theorem convertRows_eq :
    convertRows arrays (first::rest) = some batch ↔ (first::rest).all (fun row => row.keys = first.keys) = true ∧
      (ColumnarBlock.mapping (listColumns (ν := ν) arrays (first::rest) first)).toArrowRecordBatch arrays = .ok batch ∧
        batch.numRows = (first::rest).length := by
  have names : (first::rest).any (fun row => row.keys ≠ first.keys) = !(first::rest).all (fun row => row.keys = first.keys) := by
    simp [all_eq_not_any_not]
  unfold convertRows
  dsimp only
  rw [names]
  cases (first::rest).all (fun row => row.keys = first.keys) with
  | false => simp
  | true =>
    unfold ColumnarBlock.tryToArrowRecordBatch
    change (match (ColumnarBlock.mapping (listColumns arrays (first::rest) first)).toArrowRecordBatch arrays with
      | .ok batch => if batch.numRows = (first::rest).length then some batch else none
      | .error _ => none) = some batch ↔ _
    cases (ColumnarBlock.mapping (listColumns (ν := ν) arrays (first::rest) first)).toArrowRecordBatch arrays with
    | error text => simp
    | ok made =>
      dsimp only
      split
      next counted =>
        rw [Option.some.injEq,Except.ok.injEq]
        exact ⟨fun same => ⟨rfl,same,same ▸ counted⟩,fun all => all.2.1⟩
      next uncounted =>
        refine iff_of_false (by simp) (fun all => uncounted ?_)
        rw [Except.ok.inj all.2.1]
        exact all.2.2

theorem convertRows_columns (made : convertRows arrays (first::rest) = some batch) :
    takes arrays (first::rest) = true ∧ (ColumnarBlock.arrow (γ := γ) (ν := ν) batch).columnValues arrays =
      first.keys.map (fun name => (name,(columnReads arrays (columnOfRows arrays (first::rest) name)).getD [])) := by
  obtain ⟨names,done,counted⟩ := (convertRows_eq first rest batch).mp made
  obtain ⟨columns,each,whole⟩ := bind_ok done
  obtain ⟨same,holds⟩ := fromArrays_ok columns batch whole
  have values : (ColumnarBlock.arrow (γ := γ) (ν := ν) batch).columnValues arrays =
      first.keys.map (fun name => (name,(columnReads arrays (columnOfRows arrays (first::rest) name)).getD [])) := by
    unfold ColumnarBlock.columnValues Dict.keys
    dsimp only
    rw [same,List.map_map]
    refine (map_of_mapM_ok _ _ _ (fun entry : String × Column γ ν α =>
      (entry.1,((toArrowArray arrays entry.2).toOption.map arrays.toPylist).getD [])) (fun entry column step => ?_) columns each).trans ?_
    · obtain ⟨name,read⟩ := toArrowColumn_ok entry column step
      rw [name,read]
      rfl
    · unfold listColumns Dict.mapValues
      rw [List.map_map]
      rfl
  refine ⟨?_,values⟩
  have reads (name : String) (inside : name ∈ first.keys) :
      (columnReads arrays (columnOfRows arrays (first::rest) name)).any (fun read => read.length = (first::rest).length) = true := by
    have entry : (name,(Column.list (columnOfRows arrays (first::rest) name) : Column γ ν α)) ∈
        (listColumns (ν := ν) arrays (first::rest) first).entries := by
      obtain ⟨item,member,rfl⟩ := List.mem_map.mp inside
      exact List.mem_map_of_mem (f := fun item : String × γ =>
        (item.1,(Column.list (columnOfRows arrays (first::rest) item.1) : Column γ ν α))) member
    obtain ⟨column,step⟩ := of_mapM_ok _ _ columns each _ entry
    have listed : column ∈ columns := by
      obtain ⟨others,all,spec⟩ := mapM_ok _ _ (of_mapM_ok _ _ columns each)
      obtain rfl := Except.ok.inj (all.symm.trans each)
      exact (spec column).mpr ⟨_,entry,step⟩
    have read := (toArrowColumn_ok _ column step).2
    have read' : columnReads arrays (columnOfRows arrays (first::rest) name) = some (arrays.toPylist column.values) := read
    rw [read',any_some,holds column (by rw [same]; exact listed),counted]
    exact decide_eq_true rfl
  have nonempty : first.keys.isEmpty = false := by
    cases keys : first.keys with
    | cons _ _ => rfl
    | nil =>
      rw [keys] at values
      have none' : columns = [] := by
        rw [← same]
        exact map_eq_nil_iff.mp values
      rw [none'] at whole
      cases whole
      cases counted
  unfold takes
  dsimp only
  rw [nonempty,names,List.all_eq_true.mpr reads]
  rfl

end

theorem convertRows_of_takes (rows : List (Dict String γ)) (taken : takes arrays rows = true) :
    ∃ batch, convertRows arrays rows = some batch := by
  cases rows with
  | nil => cases taken
  | cons first rest =>
    unfold takes at taken
    simp only [and_eq_true,not_eq_true'] at taken
    obtain ⟨⟨nonempty,names⟩,reads⟩ := taken
    have each (entry : String × Column γ ν α) (inside : entry ∈ (listColumns (ν := ν) arrays (first::rest) first).entries) :
        ∃ column, (do return (⟨entry.1,true,← toArrowArray arrays entry.2⟩ : ArrowColumn α)) = (.ok column : Except String _) ∧
          (arrays.toPylist column.values).length = (first::rest).length := by
      obtain ⟨item,member,rfl⟩ := List.mem_map.mp inside
      have read := List.all_eq_true.mp reads item.1 (List.mem_map_of_mem member)
      obtain ⟨values,known,length⟩ := (Option.any_eq_true _ _).mp read
      unfold columnReads at known
      cases made : sequenceToArrowArray arrays (columnOfRows arrays (first::rest) item.1) with
      | error text =>
        rw [made] at known
        cases known
      | ok array =>
        rw [made] at known
        obtain rfl := some.inj known
        exact ⟨_,ok_bind made,of_decide_eq_true length⟩
    obtain ⟨columns,done,spec⟩ := mapM_reads _ _ (fun column : ArrowColumn α => (arrays.toPylist column.values).length)
      (fun _ => (first::rest).length) each
    have lengths (column : ArrowColumn α) (inside : column ∈ columns) : (arrays.toPylist column.values).length = (first::rest).length := by
      have member := List.mem_map_of_mem (f := fun column : ArrowColumn α => (arrays.toPylist column.values).length) inside
      rw [spec] at member
      obtain ⟨_,-,same⟩ := List.mem_map.mp member
      exact same.symm
    have count : columns.length = first.keys.length := by
      have length := congrArg List.length spec
      simpa [listColumns,Dict.mapValues,Dict.keys] using length
    cases columns with
    | nil =>
      rw [isEmpty_eq_false_iff] at nonempty
      exact absurd (length_eq_zero_iff.mp count.symm) nonempty
    | cons column others =>
      have head := lengths column mem_cons_self
      refine ⟨⟨column::others,(arrays.toPylist column.values).length⟩,(convertRows_eq first rest _).mpr ⟨names,?_,head⟩⟩
      refine (ok_bind done).trans (if_pos (List.all_eq_true.mpr (fun other inside => ?_)))
      exact decide_eq_true ((lengths other inside).trans head.symm)

theorem aloneCells_get? (cells : Dict String γ) (name : String) (inside : name ∈ cells.keys) :
    ((aloneCells arrays cells).get? name).getD arrays.null = aloneValue arrays name cells := by
  unfold aloneCells aloneValue
  cases made : convertRows arrays [cells] with
  | some batch =>
    obtain ⟨taken,values⟩ := convertRows_columns cells [] batch made
    dsimp only
    rw [if_pos taken,ColumnarBlock.rowDict_eq,values]
    unfold rowAcross
    rw [List.map_map]
    refine (congrArg (Option.getD · arrays.null) (get?_ofKeys cells.keys (fun name =>
      ((((columnReads arrays (columnOfRows arrays [cells] name)).getD [])[0]?).getD arrays.null)) name)).trans ?_
    rw [if_pos inside,← head?_eq_getElem?]
    rfl
  | none =>
    have left : ¬ takes arrays [cells] = true := by
      intro taken
      obtain ⟨batch,some'⟩ := convertRows_of_takes [cells] taken
      rw [made] at some'
      cases some'
    obtain ⟨value,found⟩ := (Dict.mem_keys _ _).mp inside
    dsimp only
    rw [if_neg left,get?_mapValues,found]
    rfl

theorem columnarBatch_columnless (record : Record (SentBlock γ ν α σ)) (columnless : Columnless arrays record) :
    ∃ batch, columnarBatch arrays record = some batch ∧ batch.columns = [] := by
  obtain ⟨block,held,none',counted⟩ := columnless
  unfold columnarBatch
  rw [held,counted]
  dsimp only
  unfold ColumnarBlock.tryToArrowRecordBatch
  cases block with
  | arrow batch => exact ⟨batch,if_pos rfl,map_eq_nil_iff.mp none'⟩
  | mapping columns =>
    have nothing : columns = ∅ := Dict.ext _ _ (map_eq_nil_iff.mp none')
    subst nothing
    exact ⟨⟨[],0⟩,rfl,rfl⟩

theorem columnless_of_columnarBatch (record : Record (SentBlock γ ν α σ)) (batch : ArrowBatch α)
    (made : columnarBatch arrays record = some batch) (none' : batch.columns = []) : Columnless arrays record := by
  unfold columnarBatch at made
  split at made
  next block count held numRows =>
    unfold ColumnarBlock.tryToArrowRecordBatch at made
    split at made
    next converted done =>
      split at made
      next counted =>
        obtain rfl := some.inj made
        refine ⟨block,held,?_⟩
        cases block with
        | arrow batch =>
          cases done
          exact ⟨map_eq_nil_iff.mpr none',numRows.trans (congrArg some counted.symm)⟩
        | mapping columns =>
          obtain ⟨names,-⟩ := toArrowRecordBatch_mapping columns _ done
          rw [none'] at names
          have nothing : columns = ∅ := Dict.ext _ _ (map_eq_nil_iff.mp names.symm)
          subst nothing
          cases done
          exact ⟨rfl,numRows.trans (congrArg some counted.symm)⟩
      · cases made
    · cases made
  · cases made

end batches

section conversions
variable {arrays} [DecidableEq τ] [DecidableEq σ] (routes : RouteOps (SentBlock γ ν α σ))

theorem convertWireRun_some (records : List (Record (SentBlock γ ν α σ))) (merged : Record (SentBlock γ ν α σ))
    (done : (wireOps arrays routes).convertWireRun records = .ok (some merged)) :
    ∃ first rest sent batch kinds stamps, records = first::rest ∧ convertRun arrays records = some sent ∧
      sent.block = .columnar (.arrow batch) ∧ sent.sender = first.block.sender ∧
      combinedRowKinds (fun record => record.block.block.rowKind) records = .ok kinds ∧
      combinedRowTimestamps records = .ok stamps ∧
      merged = stamp ⟨sent,some batch.numRows,first.inputTag,kinds,none,none⟩ stamps := by
  unfold WireOps.convertWireRun at done
  split at done
  next first rest sent converted =>
    obtain ⟨kinds,kinds',done⟩ := bind_ok done
    obtain ⟨stamps,stamps',done⟩ := bind_ok done
    obtain rfl := some.inj (Except.ok.inj done)
    have held : ∃ batch, sent.block = .columnar (.arrow batch) ∧ sent.sender = first.block.sender := by
      change convertRun arrays (first::rest) = some sent at converted
      unfold convertRun at converted
      obtain ⟨batch,-,rfl⟩ := map_eq_some_iff.mp converted
      exact ⟨batch,rfl,rfl⟩
    obtain ⟨batch,block,sender⟩ := held
    refine ⟨first,rest,sent,batch,kinds,stamps,rfl,converted,block,sender,kinds',stamps',?_⟩
    have count : (wireOps arrays routes).numRows sent = batch.numRows := by
      unfold wireOps
      dsimp only
      rw [block]
      rfl
    rw [count]
  · cases done

theorem convertWireRun_none (run : List (Record (SentBlock γ ν α σ))) (stays : convertRun arrays run = none) :
    (wireOps arrays routes).convertWireRun run = .ok none := by
  have stays' : (wireOps arrays routes).convertRun run = none := stays
  unfold WireOps.convertWireRun
  rw [stays']
  cases run <;> rfl

theorem convertWireRun_ok (first : Record (SentBlock γ ν α σ)) (rest : List (Record (SentBlock γ ν α σ))) (sent : SentBlock γ ν α σ)
    (batch : ArrowBatch α) (converted : convertRun arrays (first::rest) = some sent) (block : sent.block = .columnar (.arrow batch))
    (kinds : Option (List (Option String))) (stamps : List (Option Int))
    (kinds' : combinedRowKinds (fun record => record.block.block.rowKind) (first::rest) = .ok kinds)
    (stamps' : combinedRowTimestamps (first::rest) = .ok stamps) :
    (wireOps arrays routes).convertWireRun (first::rest) =
      .ok (some (stamp ⟨sent,some batch.numRows,first.inputTag,kinds,none,none⟩ stamps)) := by
  have converted' : (wireOps arrays routes).convertRun (first::rest) = some sent := converted
  have count : (wireOps arrays routes).numRows sent = batch.numRows := by
    unfold wireOps
    dsimp only
    rw [block]
    rfl
  unfold WireOps.convertWireRun
  rw [converted']
  dsimp only
  rw [count]
  exact (ok_bind kinds').trans (ok_bind stamps')

omit [DecidableEq τ] [DecidableEq σ] in
theorem map_received_rows (records : List (Record (SentBlock γ ν α σ))) :
    (records.map received).map Record.rows = records.map Record.rows := by
  rw [List.map_map]
  rfl

omit [DecidableEq τ] [DecidableEq σ] in
theorem unpacked_merged (first : Record (SentBlock γ ν α σ)) (rest : List (Record (SentBlock γ ν α σ))) (sent : SentBlock γ ν α σ)
    (batch : ArrowBatch α) (kinds : Option (List (Option String))) (stamps : List (Option Int))
    (block : sent.block = .columnar (.arrow batch)) (sender : sent.sender = first.block.sender)
    (kinds' : combinedRowKinds (fun record => record.block.block.rowKind) (first::rest) = .ok kinds)
    (stamps' : combinedRowTimestamps (first::rest) = .ok stamps)
    (aligned : ∀ record ∈ first::rest, Aligned arrays (received record))
    (total : batch.numRows = ((first::rest).map Record.rows).sum) :
    unpacked arrays (stamp ⟨sent,some batch.numRows,first.inputTag,kinds,none,none⟩ stamps) =
      (tagged first.inputTag ((List.range batch.numRows).map ((ColumnarBlock.arrow batch).rowDict arrays))
        (((first::rest).map received).flatMap (kindsOf arrays)) (((first::rest).map received).flatMap (stampsOf arrays))).map
          (fun row => (row,first.block.sender)) := by
  have lined : ∀ record ∈ (first::rest).map received, Aligned arrays record := by
    intro record inside
    obtain ⟨source,member,rfl⟩ := List.mem_map.mp inside
    exact aligned source member
  have kindsTotal := kinds_total _ lined
  have stampsTotal := stamps_total _ lined
  rw [map_received_rows,← total] at kindsTotal stampsTotal
  have known := combinedRowKinds_flatMap _ lined
  have stamped := combinedRowTimestamps_flatMap _ lined
  rw [combinedRowKinds_received] at kinds'
  rw [combinedRowTimestamps_received] at stamps'
  obtain rfl := Except.ok.inj (kinds'.symm.trans known)
  obtain rfl := Except.ok.inj (stamps'.symm.trans stamped)
  generalize ((first::rest).map received).flatMap (kindsOf arrays) = allKinds at kindsTotal
  generalize ((first::rest).map received).flatMap (stampsOf arrays) = allStamps at stampsTotal
  unfold unpacked
  rw [received_stamp,stamp_block]
  dsimp only
  rw [sender]
  congr 1
  unfold taggedRows
  rw [stamp_inputTag,cellsOf_stamp,kindsOf_stamp,stampsOf_stamp,kindsOf_combined _ _ allKinds]
  · unfold cellsOf received
    dsimp only
    rw [block]
    rfl
  · unfold received
    dsimp only
    rw [block]
    rfl
  · rfl
  · unfold readRows received
    dsimp only
    rw [block]
    exact kindsTotal
  · rfl
  · unfold readRows received
    dsimp only
    rw [block]
    exact stampsTotal

omit [DecidableEq σ] in
theorem convertRun_single (record : Record (SentBlock γ ν α σ)) (shaped : Shaped arrays record) (sent : SentBlock γ ν α σ)
    (converted : convertRun arrays [record] = some sent) :
    ∃ batch, sent.block = .columnar (.arrow batch) ∧ batch.numRows = record.rows ∧ batch.Holds arrays := by
  unfold convertRun at converted
  obtain ⟨batch,made,rfl⟩ := map_eq_some_iff.mp converted
  refine ⟨batch,rfl,?_⟩
  cases numRows : record.numRows with
  | some count =>
    obtain ⟨block,held⟩ := shaped.columnar count numRows
    have columnar : record.isColumnar = true := by simp [Record.isColumnar,numRows]
    rw [if_pos columnar] at made
    unfold convertColumnar at made
    rw [mapM_cons,mapM_nil] at made
    cases single : columnarBatch arrays record with
    | none =>
      rw [single] at made
      cases made
    | some one =>
      rw [single] at made
      obtain rfl := some.inj made
      unfold columnarBatch at single
      rw [held,numRows] at single
      obtain ⟨-,counted,holds⟩ := tryToArrowRecordBatch_some block count one
        (fun other same => shaped.full other (by rw [held,same])) single
      refine ⟨counted.trans ?_,holds⟩
      unfold Record.rows
      rw [numRows]
      rfl
  | none =>
    obtain ⟨cells,kind,held⟩ := shaped.rowShaped numRows
    have shape : ¬ record.isColumnar = true := by simp [Record.isColumnar,numRows]
    rw [if_neg shape,mapM_cons,mapM_nil,held] at made
    obtain ⟨counted,holds,-⟩ := convertRows_some [cells] batch made
    refine ⟨counted.trans ?_,holds⟩
    unfold Record.rows
    rw [numRows]
    rfl

variable (arrays) in
def aloneCellsOf (record : Record (SentBlock γ ν α σ)) : List (Dict String γ) :=
  match (convertRun arrays [record]).map SentBlock.block with
  | some (.columnar block) => (List.range record.rows).map (fun index => block.rowDict arrays index)
  | _ => cellsOf arrays (received record)

variable (arrays) in
def aloneRows (record : Record (SentBlock γ ν α σ)) : List (TaggedRow (Dict String γ) × Option σ) :=
  (tagged record.inputTag (aloneCellsOf arrays record) (kindsOf arrays (received record))
    (stampsOf arrays (received record))).map (fun row => (row,record.block.sender))

omit [DecidableEq σ] in
theorem aloneCellsOf_length (record : Record (SentBlock γ ν α σ)) (aligned : Aligned arrays (received record)) :
    (aloneCellsOf arrays record).length = record.rows := by
  unfold aloneCellsOf
  split
  · rw [length_map,length_range]
  · exact aligned.cells_length

theorem convertOne_unpacked (record : Record (SentBlock γ ν α σ)) (shaped : Shaped arrays record)
    (aligned : Aligned arrays (received record)) :
    ∃ packed, (wireOps arrays routes).convertOne record = .ok packed ∧ unpacked arrays packed = aloneRows arrays record := by
  unfold WireOps.convertOne
  cases converted : convertRun arrays [record] with
  | none =>
    refine ⟨record,ok_bind (convertWireRun_none routes [record] converted),?_⟩
    unfold aloneRows aloneCellsOf
    rw [converted]
    rfl
  | some sent =>
    obtain ⟨batch,block,counted,-⟩ := convertRun_single record shaped sent converted
    have lined : ∀ one ∈ [record], Aligned arrays (received one) := by simpa using aligned
    have lined' : ∀ one ∈ [record].map received, Aligned arrays one := by simpa using aligned
    have kinds := combinedRowKinds_flatMap _ lined'
    have stamps := combinedRowTimestamps_flatMap _ lined'
    rw [← combinedRowTimestamps_received] at stamps
    have kinds' := (combinedRowKinds_received [record]).trans kinds
    refine ⟨_,ok_bind (convertWireRun_ok routes record [] sent batch converted block _ _ kinds' stamps),?_⟩
    have sender : sent.sender = record.block.sender := by
      unfold convertRun at converted
      obtain ⟨_,-,rfl⟩ := map_eq_some_iff.mp converted
      rfl
    rw [getD_some,unpacked_merged record [] sent batch _ _ block sender kinds' stamps lined (by simpa using counted)]
    unfold aloneRows aloneCellsOf
    rw [converted,map_some,block]
    dsimp only
    rw [counted,map_cons,map_nil,flatMap_cons,flatMap_nil,append_nil,flatMap_cons,
      flatMap_nil,append_nil]

end conversions

section runs
variable {arrays} [DecidableEq τ] [DecidableEq σ] (lawful : arrays.Lawful) (routes : RouteOps (SentBlock γ ν α σ))

omit [DecidableEq σ] in
theorem aloneCellsOf_columnar (record : Record (SentBlock γ ν α σ)) (batch : ArrowBatch α) (shaped : Shaped arrays record)
    (single : columnarBatch arrays record = some batch) :
    batch.numRows = record.rows ∧ batch.Holds arrays ∧
      aloneCellsOf arrays record = (List.range batch.numRows).map ((ColumnarBlock.arrow batch).rowDict arrays) := by
  have known := single
  unfold columnarBatch at known
  split at known
  next block count held numRows =>
    have columnar : record.isColumnar = true := by simp [Record.isColumnar,numRows]
    have made : convertRun arrays [record] = some ⟨.columnar (.arrow batch),record.block.sender,true⟩ := by
      have columns : convertColumnar arrays [record] = some batch := by
        unfold convertColumnar
        rw [mapM_cons,mapM_nil,single]
        rfl
      unfold convertRun
      dsimp only
      rw [if_pos columnar,columns]
      rfl
    obtain ⟨-,counted,holds⟩ := tryToArrowRecordBatch_some block count batch
      (fun other same => shaped.full other (by rw [held,same])) known
    have rows : batch.numRows = record.rows := by
      rw [counted]
      unfold Record.rows
      rw [numRows]
      rfl
    refine ⟨rows,holds,?_⟩
    unfold aloneCellsOf
    rw [made,rows]
    rfl
  · cases known

omit [DecidableEq σ] in
theorem columnarBatches (records : List (Record (SentBlock γ ν α σ))) (batches : List (ArrowBatch α))
    (shaped : ∀ record ∈ records, Shaped arrays record) (all : records.mapM (columnarBatch arrays) = some batches) :
    batches.map ArrowBatch.numRows = records.map Record.rows ∧ (∀ batch ∈ batches, batch.Holds arrays) ∧
      records.flatMap (aloneCellsOf arrays) = batches.flatMap (fun batch =>
        (List.range batch.numRows).map ((ColumnarBlock.arrow batch).rowDict arrays)) := by
  induction records generalizing batches with
  | nil =>
    cases all
    exact ⟨rfl,by simp,rfl⟩
  | cons record rest ih =>
    obtain ⟨here,later⟩ := forall_mem_cons.mp shaped
    rw [mapM_cons] at all
    obtain ⟨batch,single,all⟩ := bind_eq_some_iff.mp all
    obtain ⟨others,done,same⟩ := bind_eq_some_iff.mp all
    obtain rfl := some.inj same
    obtain ⟨rows,holds,cells⟩ := aloneCellsOf_columnar record batch here single
    obtain ⟨counts,full,table⟩ := ih others later done
    refine ⟨?_,forall_mem_cons.mpr ⟨holds,full⟩,?_⟩
    · rw [map_cons,map_cons,rows,counts]
    · rw [flatMap_cons,flatMap_cons,cells,table]

omit [DecidableEq σ] in
theorem concatBatches_schemas (first second : ArrowBatch α) (rest : List (ArrowBatch α)) (joined : ArrowBatch α)
    (done : concatBatches arrays (first::second::rest) = .ok joined) :
    ∀ other ∈ second::rest, other.schema arrays = first.schema arrays := by
  by_contra differs
  have mixed : (second::rest).any (fun other => other.schema arrays ≠ first.schema arrays) = true := by
    obtain ⟨other,bad⟩ := not_forall.mp differs
    obtain ⟨inside,unlike⟩ := Classical.not_imp.mp bad
    exact List.any_eq_true.mpr ⟨other,inside,decide_eq_true unlike⟩
  rw [concatBatches,if_pos mixed] at done
  · cases done
  · simp

omit [DecidableEq τ] [DecidableEq σ] in
theorem columnless_schema (first other : ArrowBatch α) (same : other.schema arrays = first.schema arrays) :
    other.columns = [] ↔ first.columns = [] := by
  have lengths : other.columns.length = first.columns.length := by simpa [ArrowBatch.schema] using congrArg List.length same
  rw [← length_eq_zero_iff,lengths,length_eq_zero_iff]

omit [DecidableEq σ] in
include lawful in
theorem concatBatches_columns (batches : List (ArrowBatch α)) (joined : ArrowBatch α) (some' : batches ≠ [])
    (holds : ∀ batch ∈ batches, batch.Holds arrays) (done : concatBatches arrays batches = .ok joined) :
    joined.columns = [] ↔ ∀ batch ∈ batches, batch.columns = [] := by
  match batches,done with
  | [one],done =>
    obtain rfl := Except.ok.inj done
    simp
  | first::second::rest,done =>
    have schemas := concatBatches_schemas first second rest joined done
    obtain ⟨joined',done',-,columns,-⟩ := concatBatches_ok lawful first (second::rest) (by simp) schemas holds
    obtain rfl := Except.ok.inj (done.symm.trans done')
    have lengths : joined.columns.length = first.columns.length := by
      simpa [ColumnarBlock.columnValues] using congrArg List.length columns
    rw [← length_eq_zero_iff,lengths,length_eq_zero_iff,forall_mem_cons]
    exact ⟨fun none' => ⟨none',fun other inside => (columnless_schema first other (schemas other inside)).mpr none'⟩,And.left⟩

omit [DecidableEq τ] [DecidableEq σ] in
theorem columnless_iff (records : List (Record (SentBlock γ ν α σ))) (batches : List (ArrowBatch α))
    (all : records.mapM (columnarBatch arrays) = some batches) :
    (∀ batch ∈ batches, batch.columns = []) ↔ ∀ record ∈ records, Columnless arrays record := by
  induction records generalizing batches with
  | nil =>
    cases all
    simp
  | cons record rest ih =>
    rw [mapM_cons] at all
    obtain ⟨batch,single,all⟩ := bind_eq_some_iff.mp all
    obtain ⟨others,done,same⟩ := bind_eq_some_iff.mp all
    obtain rfl := some.inj same
    rw [forall_mem_cons,forall_mem_cons,ih others done]
    refine and_congr_left (fun _ => ⟨columnless_of_columnarBatch record batch single,fun columnless => ?_⟩)
    obtain ⟨batch',single',none'⟩ := columnarBatch_columnless record columnless
    obtain rfl := some.inj (single.symm.trans single')
    exact none'

omit [DecidableEq σ] in
include lawful in
theorem convertColumnar_columnless (records : List (Record (SentBlock γ ν α σ))) (some' : records ≠ [])
    (columnless : ∀ record ∈ records, Columnless arrays record) : ∃ batch, convertColumnar arrays records = some batch := by
  have known : ∃ batches, records.mapM (columnarBatch arrays) = some batches ∧ batches.length = records.length := by
    clear some'
    induction records with
    | nil => exact ⟨[],rfl,rfl⟩
    | cons record rest ih =>
      obtain ⟨here,later⟩ := forall_mem_cons.mp columnless
      obtain ⟨batch,single,-⟩ := columnarBatch_columnless record here
      obtain ⟨others,done,length⟩ := ih later
      refine ⟨batch::others,?_,by rw [length_cons,length_cons,length]⟩
      rw [mapM_cons,single,done]
      rfl
  obtain ⟨batches,all,lengths⟩ := known
  have none' := (columnless_iff records batches all).mpr columnless
  unfold convertColumnar
  rw [all]
  match batches,lengths,none' with
  | [],lengths,_ => exact absurd (length_eq_zero_iff.mp lengths.symm) some'
  | [one],_,_ => exact ⟨one,rfl⟩
  | first::second::rest,_,none' =>
    obtain ⟨joined,done,-⟩ := concatBatches_ok lawful first (second::rest) (by simp)
      (fun batch inside => by simp [ArrowBatch.schema,none' batch (mem_cons_of_mem _ inside),none' first mem_cons_self])
      (fun batch inside column member => by simp [none' batch inside] at member)
    dsimp only
    rw [done]
    exact ⟨joined,rfl⟩

omit [DecidableEq σ] in
include lawful in
theorem convertColumnar_rows (records : List (Record (SentBlock γ ν α σ))) (batch : ArrowBatch α)
    (shaped : ∀ record ∈ records, Shaped arrays record) (made : convertColumnar arrays records = some batch) :
    batch.numRows = (if batch.columns = [] ∧ records.length ≠ 1 then 0 else (records.map Record.rows).sum) ∧
      (List.range (records.map Record.rows).sum).map ((ColumnarBlock.arrow batch).rowDict arrays) =
        records.flatMap (aloneCellsOf arrays) ∧ (batch.columns = [] ↔ ∀ record ∈ records, Columnless arrays record) := by
  unfold convertColumnar at made
  split at made
  · cases made
  next batches all =>
    split at made
    next joined done =>
      obtain rfl := some.inj made
      obtain ⟨counts,holds,cells⟩ := columnarBatches records batches shaped all
      have lengths : batches.length = records.length := by simpa using congrArg List.length counts
      have columnless : joined.columns = [] ↔ ∀ record ∈ records, Columnless arrays record := by
        refine (concatBatches_columns lawful batches joined ?_ holds done).trans (columnless_iff records batches all)
        rintro rfl
        cases done
      rw [cells,← counts]
      match batches,done with
      | [one],done =>
        obtain rfl := Except.ok.inj done
        rw [if_neg (fun many => many.2 lengths.symm)]
        exact ⟨by simp,by simp,columnless⟩
      | first::second::rest,done =>
        have schemas := concatBatches_schemas first second rest joined done
        obtain ⟨joined',done',-,count,table⟩ := concatBatches_rows lawful first (second::rest) (by simp) schemas holds
        obtain rfl := Except.ok.inj (done.symm.trans done')
        refine ⟨?_,table,columnless⟩
        have many : records.length ≠ 1 := by
          rw [← lengths]
          simp
        rw [count]
        simp [many]
    · cases made

omit [DecidableEq τ] [DecidableEq σ] in
theorem rowDict_get? (batch : ArrowBatch α) (distinct : (batch.columns.map ArrowColumn.name).Nodup) (index : Nat)
    (column : ArrowColumn α) (inside : column ∈ batch.columns) :
    ((ColumnarBlock.arrow (γ := γ) (ν := ν) batch).rowDict arrays index).get? column.name =
      some (((arrays.toPylist column.values)[index]?).getD arrays.null) := by
  have entries : ((ColumnarBlock.arrow (γ := γ) (ν := ν) batch).rowDict arrays index).entries = batch.columns.map (fun column =>
      (column.name,((arrays.toPylist column.values)[index]?).getD arrays.null)) := by
    have names : ((batch.columns.map (fun column =>
        (column.name,((arrays.toPylist column.values)[index]?).getD arrays.null))).map Prod.fst).Nodup := by
      rw [List.map_map]
      exact distinct
    exact congrArg Dict.entries (ofList_entries ⟨_,names⟩)
  rw [Dict.get?_eq_some,entries]
  exact List.mem_map_of_mem (f := fun column : ArrowColumn α =>
    (column.name,((arrays.toPylist column.values)[index]?).getD arrays.null)) inside

omit [DecidableEq τ] [DecidableEq σ] in
theorem rowDict_keys (batch : ArrowBatch α) (distinct : (batch.columns.map ArrowColumn.name).Nodup) (index : Nat) :
    ((ColumnarBlock.arrow (γ := γ) (ν := ν) batch).rowDict arrays index).keys = batch.columns.map ArrowColumn.name := by
  have names : ((batch.columns.map (fun column =>
      (column.name,((arrays.toPylist column.values)[index]?).getD arrays.null))).map Prod.fst).Nodup := by
    rw [List.map_map]
    exact distinct
  refine (congrArg Dict.keys (ofList_entries ⟨_,names⟩)).trans ?_
  unfold Dict.keys
  rw [List.map_map]
  rfl

omit [DecidableEq τ] [DecidableEq σ] in
theorem aloneCells_keys (cells : Dict String γ) : (aloneCells arrays cells).keys = cells.keys := by
  unfold aloneCells
  split
  next batch made =>
    obtain ⟨-,-,names⟩ := convertRows_some [cells] batch made
    have same := names cells (mem_singleton.mpr rfl)
    exact (rowDict_keys batch (by rw [same]; exact cells.distinct) 0).trans same
  · unfold Dict.keys Dict.mapValues
    rw [List.map_map]
    rfl

omit [DecidableEq τ] [DecidableEq σ] in
theorem convertRows_iff (rows : List (Dict String γ)) (batch : ArrowBatch α) (made : convertRows arrays rows = some batch) :
    (List.range batch.numRows).map ((ColumnarBlock.arrow (γ := γ) (ν := ν) batch).rowDict arrays) = rows.map (aloneCells arrays) ↔
      ∀ column ∈ (ColumnarBlock.arrow (γ := γ) (ν := ν) batch).columnValues arrays,
        column.2 = rows.map (fun cells => ((aloneCells arrays cells).get? column.1).getD arrays.null) := by
  obtain ⟨counted,holds,names⟩ := convertRows_some rows batch made
  have distinct : (batch.columns.map ArrowColumn.name).Nodup := by
    cases rows with
    | nil => cases made
    | cons first rest =>
      rw [names first mem_cons_self]
      exact first.distinct
  constructor
  · intro same column inside
    obtain ⟨source,member,rfl⟩ := List.mem_map.mp inside
    refine ext_getElem (by rw [length_map,← counted]; exact holds source member) (fun index here there => ?_)
    have row := congrArg (fun rows => rows[index]?) same
    have less : index < rows.length := by simpa using there
    have less' : index < batch.numRows := by omega
    simp only [getElem?_map,getElem?_range less',getElem?_eq_getElem less,map_some,Option.some.injEq] at row
    rw [getElem_map,← row,rowDict_get? batch distinct index source member]
    simp [here]
  · intro columns
    refine ext_getElem (by simp [counted]) (fun index here there => ?_)
    have less : index < rows.length := by simpa using there
    have less' : index < batch.numRows := by omega
    rw [getElem_map,getElem_map,getElem_range]
    have keys : ((ColumnarBlock.arrow (γ := γ) (ν := ν) batch).rowDict arrays index).keys = (aloneCells arrays rows[index]).keys := by
      rw [rowDict_keys batch distinct,aloneCells_keys,names _ (getElem_mem less)]
    refine ext_keys _ _ keys (fun key inside => ?_)
    rw [rowDict_keys batch distinct] at inside
    obtain ⟨column,member,rfl⟩ := List.mem_map.mp inside
    have values := columns _ (List.mem_map_of_mem (f := fun column : ArrowColumn α => (column.name,arrays.toPylist column.values)) member)
    dsimp only at values
    have present : column.name ∈ (aloneCells arrays rows[index]).keys := by
      rw [← keys,rowDict_keys batch distinct]
      exact List.mem_map_of_mem member
    obtain ⟨value,found⟩ := (Dict.mem_keys _ _).mp present
    rw [rowDict_get? batch distinct index column member,values]
    simp [less,found]

variable (arrays) in
structure Uniform (run : List (Record (SentBlock γ ν α σ))) : Prop where
  shape : ∀ one ∈ run, ∀ other ∈ run, one.isColumnar = other.isColumnar
  sender : ∀ one ∈ run, ∀ other ∈ run, one.block.sender = other.block.sender
  inputTag : ∀ one ∈ run, ∀ other ∈ run, one.inputTag = other.inputTag

omit [DecidableEq τ] [DecidableEq σ] in
theorem flatMap_aloneRows [DecidableEq τ] (first : Record (SentBlock γ ν α σ)) (rest : List (Record (SentBlock γ ν α σ)))
    (uniform : Uniform (first::rest)) (aligned : ∀ record ∈ first::rest, Aligned arrays (received record)) :
    (first::rest).flatMap (aloneRows arrays) = (tagged first.inputTag ((first::rest).flatMap (aloneCellsOf arrays))
      (((first::rest).map received).flatMap (kindsOf arrays)) (((first::rest).map received).flatMap (stampsOf arrays))).map
        (fun row => (row,first.block.sender)) := by
  rw [flatMap_map,flatMap_map,← tagged_flatMap first.inputTag (first::rest) (aloneCellsOf arrays)
    (fun record => kindsOf arrays (received record)) (fun record => stampsOf arrays (received record))
    (fun record inside => (aloneCellsOf_length record (aligned record inside)).trans (aligned record inside).kinds_length.symm)
    (fun record inside => (aloneCellsOf_length record (aligned record inside)).trans (aligned record inside).stamps_length.symm),
    map_flatMap]
  refine flatMap_congr (fun record inside => ?_)
  rw [← uniform.inputTag record inside first mem_cons_self,← uniform.sender record inside first mem_cons_self]
  rfl

omit [DecidableEq τ] [DecidableEq σ] in
theorem convertRows_keeps (rows : List (Dict String γ)) (batch : ArrowBatch α) (made : convertRows arrays rows = some batch) :
    (List.range batch.numRows).map ((ColumnarBlock.arrow (γ := γ) (ν := ν) batch).rowDict arrays) = rows.map (aloneCells arrays) ↔
      (takes arrays rows = true → ∀ name ∈ (rows.head?.map Dict.keys).getD [],
        columnReads arrays (columnOfRows arrays rows name) = some (rows.map (aloneValue arrays name))) := by
  rw [convertRows_iff rows batch made]
  cases rows with
  | nil => cases made
  | cons first rest =>
    obtain ⟨taken,values⟩ := convertRows_columns (ν := ν) first rest batch made
    obtain ⟨same,-,-⟩ := (convertRows_eq (ν := ν) first rest batch).mp made
    rw [values,List.forall_mem_map,forall_prop_of_true taken]
    refine forall_congr' (fun name => forall_congr' (fun inside => ?_))
    have alone : (first::rest).map (fun cells => ((aloneCells (ν := ν) arrays cells).get? name).getD arrays.null) =
        (first::rest).map (aloneValue arrays name) := by
      refine map_congr_left (fun cells member => aloneCells_get? cells name ?_)
      rw [of_decide_eq_true (List.all_eq_true.mp same cells member)]
      exact inside
    have read : (columnReads arrays (columnOfRows arrays (first::rest) name)).isSome := by
      unfold takes at taken
      simp only [and_eq_true] at taken
      obtain ⟨read,known,-⟩ := (Option.any_eq_true _ _).mp (List.all_eq_true.mp taken.2 name inside)
      rw [known]
      rfl
    obtain ⟨read,known⟩ := isSome_iff_exists.mp read
    dsimp only
    rw [alone,known,getD_some,Option.some.injEq]

omit [DecidableEq τ] [DecidableEq σ] in
theorem unpacked_empty (sent : SentBlock γ ν α σ) (batch : ArrowBatch α) (block : sent.block = .columnar (.arrow batch))
    (inputTag : Option Int) (kinds : Option (List (Option String))) (stamps : List (Option Int)) :
    unpacked arrays (stamp ⟨sent,some 0,inputTag,kinds,none,none⟩ stamps) = [] := by
  have nothing : cellsOf arrays (received (⟨sent,some 0,inputTag,kinds,none,none⟩ : Record (SentBlock γ ν α σ))) = [] := by
    unfold cellsOf received
    dsimp only
    rw [block]
    rfl
  unfold unpacked taggedRows
  rw [received_stamp,cellsOf_stamp,nothing]
  rfl

omit [DecidableEq σ] in
theorem aloneCellsOf_rows (records : List (Record (SentBlock γ ν α σ))) (rows : List (Dict String γ))
    (shape : ∀ record ∈ records, record.isColumnar = false)
    (all : records.mapM (fun record => rowCells record.block.block) = some rows) :
    records.flatMap (aloneCellsOf arrays) = rows.map (aloneCells arrays) ∧ (records.map Record.rows).sum = rows.length := by
  induction records generalizing rows with
  | nil =>
    cases all
    exact ⟨rfl,rfl⟩
  | cons record rest ih =>
    obtain ⟨here,later⟩ := forall_mem_cons.mp shape
    rw [mapM_cons] at all
    obtain ⟨cells,single,all⟩ := bind_eq_some_iff.mp all
    obtain ⟨others,done,same⟩ := bind_eq_some_iff.mp all
    obtain rfl := some.inj same
    obtain ⟨table,count⟩ := ih others later done
    have numRows : record.numRows = none := by simpa [Record.isColumnar] using here
    obtain ⟨kind,held⟩ : ∃ kind, record.block.block = .row cells kind := by
      unfold rowCells at single
      split at single
      next kind held =>
        obtain rfl := some.inj single
        exact ⟨kind,held⟩
      · cases single
    have made : convertRun arrays [record] = (convertRows arrays [cells]).map
        (fun batch => ⟨.columnar (.arrow batch),record.block.sender,true⟩) := by
      unfold convertRun
      dsimp only
      rw [if_neg (by simp [here]),mapM_cons,mapM_nil,single]
      rfl
    have rows : record.rows = 1 := by
      unfold Record.rows
      rw [numRows]
      rfl
    have alone : aloneCellsOf arrays record = [aloneCells arrays cells] := by
      unfold aloneCellsOf aloneCells
      rw [made]
      cases convertRows arrays [cells] with
      | none =>
        unfold cellsOf received
        dsimp only [map_none]
        rw [held]
      | some batch =>
        dsimp only [map_some]
        rw [rows]
        rfl
    refine ⟨?_,?_⟩
    · rw [flatMap_cons,map_cons,alone,table]
      rfl
    · rw [map_cons,sum_cons,rows,count,length_cons,Nat.add_comm]

omit [DecidableEq σ] in
include lawful in
theorem runKeeps_of_none (run : List (Record (SentBlock γ ν α σ))) (shaped : ∀ record ∈ run, Shaped arrays record)
    (stays : convertRun arrays run = none) : RunKeeps arrays run := by
  unfold RunKeeps
  cases run with
  | nil => exact fun impossible => by cases impossible
  | cons first rest =>
    unfold convertRun at stays
    dsimp only at stays
    rw [map_eq_none_iff] at stays
    cases all : (first::rest).mapM (fun record => rowCells record.block.block) with
    | some rows =>
      have shape : first.isColumnar = false := by
        cases columnar : first.isColumnar with
        | false => rfl
        | true =>
          obtain ⟨count,numRows⟩ := isSome_iff_exists.mp columnar
          obtain ⟨block,held⟩ := (shaped first mem_cons_self).columnar count numRows
          rw [mapM_cons,held] at all
          cases all
      rw [if_neg (by simp [shape]),all] at stays
      intro taken
      obtain ⟨batch,made⟩ := convertRows_of_takes (ν := ν) rows taken
      rw [bind_some,made] at stays
      cases stays
    | none =>
      intro columnless
      obtain ⟨block,-,-,counted⟩ := columnless first mem_cons_self
      have shape : first.isColumnar = true := by simp [Record.isColumnar,counted]
      obtain ⟨batch,made⟩ := convertColumnar_columnless lawful (first::rest) (by simp) columnless
      rw [if_pos shape,made] at stays
      cases stays

include lawful in
theorem flushWireRun_rows (run : List (Record (SentBlock γ ν α σ))) (shaped : ∀ record ∈ run, Shaped arrays record)
    (uniform : Uniform run) (packed : List (Record (SentBlock γ ν α σ)))
    (flushed : (wireOps arrays routes).flushWireRun run = .ok packed) :
    ∃ alone, run.mapM (wireOps arrays routes).convertOne = .ok alone ∧
      (packed.flatMap (unpacked arrays)).length ≤ (alone.flatMap (unpacked arrays)).length ∧
      (packed.flatMap (unpacked arrays) = alone.flatMap (unpacked arrays) ↔ RunKeeps arrays run) := by
  obtain ⟨converted,done,flushed⟩ := bind_ok flushed
  cases converted with
  | none =>
    refine ⟨packed,flushed,Nat.le_refl _,iff_of_true rfl ?_⟩
    have stays : convertRun arrays run = none := by
      cases run with
      | nil => rfl
      | cons first rest =>
        cases known : convertRun arrays (first::rest) with
        | none => rfl
        | some sent =>
          have known' : (wireOps arrays routes).convertRun (first::rest) = some sent := known
          unfold WireOps.convertWireRun at done
          rw [known'] at done
          obtain ⟨kinds,-,done⟩ := bind_ok done
          obtain ⟨stamps,-,done⟩ := bind_ok done
          cases done
    exact runKeeps_of_none lawful run shaped stays
  | some merged =>
    cases flushed
    obtain ⟨first,rest,sent,batch,kinds,stamps,rfl,made,block,sender,kinds',stamps',rfl⟩ :=
      convertWireRun_some routes run merged done
    have aligned : ∀ record ∈ first::rest, Aligned arrays (received record) := by
      obtain ⟨all,listed,-⟩ := bind_ok kinds'
      intro record inside
      exact (shaped record inside).aligned record (rowKindsOf_lengths _ _ all listed record inside)
        (combinedRowTimestamps_lengths _ stamps stamps' record inside)
    obtain ⟨alone,each,reads⟩ := mapM_reads (first::rest) (wireOps arrays routes).convertOne (unpacked arrays)
      (aloneRows arrays) (fun record inside => convertOne_unpacked routes record (shaped record inside) (aligned record inside))
    refine ⟨alone,each,?_⟩
    have rows : alone.flatMap (unpacked arrays) = (first::rest).flatMap (aloneRows arrays) := by
      rw [flatMap_def,reads,← flatMap_def]
    rw [rows,flatMap_aloneRows first rest uniform aligned,flatMap_cons,flatMap_nil,append_nil]
    have cells : ((first::rest).flatMap (aloneCellsOf arrays)).length = ((first::rest).map Record.rows).sum := by
      rw [length_flatMap]
      congr 1
      exact map_congr_left (fun record inside => aloneCellsOf_length record (aligned record inside))
    have lined : ∀ record ∈ (first::rest).map received, Aligned arrays record := by
      intro record inside
      obtain ⟨source,member,rfl⟩ := List.mem_map.mp inside
      exact aligned source member
    have kindsTotal := (kinds_total _ lined).trans (congrArg List.sum (map_received_rows (first::rest)))
    have stampsTotal := (stamps_total _ lined).trans (congrArg List.sum (map_received_rows (first::rest)))
    have shapes := made
    unfold convertRun at shapes
    obtain ⟨batch',conversion,same⟩ := map_eq_some_iff.mp shapes
    have alike : batch' = batch := by
      rw [← same] at block
      injection block with block
      injection block
    subst alike
    cases shape : first.isColumnar with
    | true =>
      rw [if_pos shape] at conversion
      have columnar : (first::rest).mapM (fun record => rowCells record.block.block) = none := by
        obtain ⟨count,numRows⟩ := isSome_iff_exists.mp shape
        obtain ⟨held,known⟩ := (shaped first mem_cons_self).columnar count numRows
        rw [mapM_cons,known]
        rfl
      unfold RunKeeps
      rw [columnar]
      obtain ⟨count,table,columnless⟩ := convertColumnar_rows lawful (first::rest) batch' shaped conversion
      by_cases total : batch'.numRows = ((first::rest).map Record.rows).sum
      · rw [unpacked_merged first rest sent batch' kinds stamps block sender kinds' stamps' aligned total,total,table]
        refine ⟨Nat.le_refl _,iff_of_true rfl (fun none' => ?_)⟩
        have columns := columnless.mpr none'
        by_cases single : (first::rest).length = 1
        · exact .inl single
        · rw [if_pos ⟨columns,single⟩] at count
          exact .inr (total.symm.trans count)
      · have lost : batch'.columns = [] ∧ (first::rest).length ≠ 1 := by
          by_contra counted
          rw [if_neg counted] at count
          exact total count
        rw [if_pos lost] at count
        rw [count] at total
        rw [count,unpacked_empty sent batch' block]
        refine ⟨Nat.zero_le _,iff_of_false (fun nothing => ?_) (fun keeps => ?_)⟩
        · have length := congrArg List.length nothing
          rw [length_map,tagged_length _ _ _ _ (kindsTotal.trans cells.symm) (stampsTotal.trans cells.symm),cells] at length
          exact total length
        · obtain single | empty := keeps (columnless.mp lost.1)
          · exact lost.2 single
          · exact total empty.symm
    | false =>
      rw [if_neg (by simp [shape])] at conversion
      obtain ⟨taken,all,conversion⟩ := bind_eq_some_iff.mp conversion
      unfold RunKeeps
      rw [all]
      obtain ⟨table,count⟩ := @aloneCellsOf_rows _ _ _ _ _ _ arrays _ (first::rest) taken
        (fun record inside => (uniform.shape record inside first mem_cons_self).trans shape) all
      have total : batch'.numRows = ((first::rest).map Record.rows).sum :=
        (convertRows_some taken batch' conversion).1.trans count.symm
      have read : ((List.range batch'.numRows).map ((ColumnarBlock.arrow batch').rowDict arrays)).length =
          ((first::rest).map Record.rows).sum := by
        rw [length_map,length_range,total]
      rw [unpacked_merged first rest sent batch' kinds stamps block sender kinds' stamps' aligned total]
      constructor
      · apply Nat.le_of_eq
        rw [length_map,length_map,tagged_length _ _ _ _ (kindsTotal.trans read.symm) (stampsTotal.trans read.symm),
          tagged_length _ _ _ _ (kindsTotal.trans cells.symm) (stampsTotal.trans cells.symm),read,cells]
      · rw [List.map_inj_right (fun one other same => (Prod.mk.inj same).1),
          tagged_inj _ _ _ _ _ (cells.trans read.symm) (kindsTotal.trans read.symm) (stampsTotal.trans read.symm),table]
        exact convertRows_keeps taken batch' conversion

section packing

theorem packAlone_packable (record : Record (SentBlock γ ν α σ)) (packable : arrowPackable record = true) :
    packAlone arrays routes record = ((wireOps arrays routes).convertOne record).map (fun packed => [packed]) := by
  have packs : packAlone arrays routes record = (wireOps arrays routes).flushWireRun [record] := by
    have taken : (wireOps arrays routes).arrowPackable record = true := packable
    unfold packAlone WireOps.packWireRecords
    rw [WireOps.packFrom,if_neg (by simp [taken]),if_neg (by simp),WireOps.packFrom]
    rfl
  rw [packs]
  cases known : (wireOps arrays routes).convertWireRun [record] with
  | error text =>
    unfold WireOps.flushWireRun WireOps.convertOne
    rw [known]
    rfl
  | ok converted =>
    unfold WireOps.flushWireRun
    rw [ok_bind known]
    cases converted with
    | some merged =>
      unfold WireOps.convertOne
      rw [known]
      rfl
    | none =>
      dsimp only
      rw [mapM_cons,mapM_nil]
      unfold WireOps.convertOne
      rw [known]
      rfl

theorem packAlone_other (record : Record (SentBlock γ ν α σ)) (other : arrowPackable record = false) :
    packAlone arrays routes record = .ok [record] := by
  have stays : ¬ (wireOps arrays routes).arrowPackable record = true := eq_false_iff.mp other
  unfold packAlone WireOps.packWireRecords
  rw [WireOps.packFrom,if_pos stays,WireOps.packFrom]
  rfl

theorem mapM_packAlone (run : List (Record (SentBlock γ ν α σ))) (packable : ∀ record ∈ run, arrowPackable record = true)
    (alone : List (Record (SentBlock γ ν α σ))) (each : run.mapM (wireOps arrays routes).convertOne = .ok alone) :
    run.mapM (packAlone arrays routes) = .ok (alone.map (fun packed => [packed])) := by
  induction run generalizing alone with
  | nil =>
    cases each
    rfl
  | cons record rest ih =>
    obtain ⟨here,later⟩ := forall_mem_cons.mp packable
    rw [mapM_cons] at each
    obtain ⟨packed,single,each⟩ := bind_ok each
    obtain ⟨others,done,same⟩ := bind_ok each
    cases same
    rw [mapM_cons,packAlone_packable routes record here,single,ih later others done]
    rfl

omit [DecidableEq τ] [DecidableEq σ] in
theorem Uniform.snoc [DecidableEq τ] [DecidableEq σ] (run : List (Record (SentBlock γ ν α σ))) (record : Record (SentBlock γ ν α σ))
    (uniform : Uniform run) (goes : ¬ run.getLast?.any (fun last => ¬ wireCompatible arrays last record) = true) :
    Uniform (run ++ [record]) := by
  have last (one : Record (SentBlock γ ν α σ)) (inside : one ∈ run) : one.isColumnar = record.isColumnar ∧
      one.block.sender = record.block.sender ∧ one.inputTag = record.inputTag := by
    cases found : run.getLast? with
    | none =>
      rw [getLast?_eq_none_iff.mp found] at inside
      cases inside
    | some last =>
      rw [found] at goes
      have compatible : wireCompatible arrays last record = true := by simpa using goes
      unfold wireCompatible at compatible
      simp only [and_eq_true,decide_eq_true_eq] at compatible
      obtain ⟨⟨⟨shape,sender⟩,inputTag⟩,-⟩ := compatible
      have member := mem_of_getLast? found
      exact ⟨(uniform.shape one inside last member).trans shape,(uniform.sender one inside last member).trans sender,
        (uniform.inputTag one inside last member).trans inputTag⟩
  have all (one : Record (SentBlock γ ν α σ)) (inside : one ∈ run ++ [record]) : one.isColumnar = record.isColumnar ∧
      one.block.sender = record.block.sender ∧ one.inputTag = record.inputTag := by
    obtain inside | inside := mem_append.mp inside
    · exact last one inside
    · rw [mem_singleton.mp inside]
      exact ⟨rfl,rfl,rfl⟩
  refine ⟨fun one inside other inside' => ?_,fun one inside other inside' => ?_,fun one inside other inside' => ?_⟩
  · exact (all one inside).1.trans (all other inside').1.symm
  · exact (all one inside).2.1.trans (all other inside').2.1.symm
  · exact (all one inside).2.2.trans (all other inside').2.2.symm

omit [DecidableEq τ] [DecidableEq σ] in
theorem Uniform.nil : Uniform ([] : List (Record (SentBlock γ ν α σ))) := ⟨by simp,by simp,by simp⟩

omit [DecidableEq τ] [DecidableEq σ] in
theorem Uniform.single (record : Record (SentBlock γ ν α σ)) : Uniform [record] := by
  refine ⟨fun one inside other inside' => ?_,fun one inside other inside' => ?_,fun one inside other inside' => ?_⟩ <;>
    rw [mem_singleton.mp inside,mem_singleton.mp inside']

theorem append_eq_iff {κ : Type} (first second first' second' : List κ) (short : first.length ≤ first'.length)
    (short' : second.length ≤ second'.length) : first ++ second = first' ++ second' ↔ first = first' ∧ second = second' := by
  refine ⟨fun same => ?_,fun both => by rw [both.1,both.2]⟩
  have length := congrArg List.length same
  rw [length_append,length_append] at length
  exact append_inj same (by omega)

include lawful in
theorem packFrom_rows (run records : List (Record (SentBlock γ ν α σ))) (shaped : ∀ record ∈ run ++ records, Shaped arrays record)
    (uniform : Uniform run) (packable : ∀ record ∈ run, arrowPackable record = true)
    (packed : List (Record (SentBlock γ ν α σ))) (done : (wireOps arrays routes).packFrom run records = .ok packed) :
    ∃ alone, (run ++ records).mapM (packAlone arrays routes) = .ok alone ∧
      (packed.flatMap (unpacked arrays)).length ≤ (alone.flatten.flatMap (unpacked arrays)).length ∧
      (packed.flatMap (unpacked arrays) = alone.flatten.flatMap (unpacked arrays) ↔
        ∀ piece ∈ runsFrom arrays run records, RunKeeps arrays piece) := by
  induction records generalizing run packed with
  | nil =>
    rw [append_nil] at shaped ⊢
    obtain ⟨alone,each,short,same⟩ := flushWireRun_rows lawful routes run shaped uniform packed done
    have flat : (alone.map (fun packed => [packed])).flatten = alone :=
      (flatMap_def).symm.trans (flatMap_singleton' alone)
    refine ⟨_,mapM_packAlone routes run packable alone each,?_,?_⟩
    · rw [flat]
      exact short
    · rw [flat,same]
      simp [runsFrom]
  | cons record rest ih =>
    obtain ⟨before,after⟩ := forall_mem_append.mp shaped
    obtain ⟨here,later⟩ := forall_mem_cons.mp after
    rw [WireOps.packFrom] at done
    rw [runsFrom]
    change (if ¬ arrowPackable record = true then _ else _) = _ at done
    by_cases taken : arrowPackable record = true
    · rw [if_neg (not_not_intro taken)] at done ⊢
      change (if run.getLast?.any (fun last => ¬ wireCompatible arrays last record) = true then _ else _) = _ at done
      by_cases cut : run.getLast?.any (fun last => ¬ wireCompatible arrays last record) = true
      · rw [if_pos cut] at done ⊢
        obtain ⟨first,flushed,done⟩ := bind_ok done
        obtain ⟨others,packs,same⟩ := bind_ok done
        cases same
        obtain ⟨alone,each,short,iff⟩ := flushWireRun_rows lawful routes run before uniform first flushed
        obtain ⟨alone',each',short',iff'⟩ := ih [record] (forall_mem_cons.mpr ⟨here,later⟩) (Uniform.single record)
          (by simpa using taken) others packs
        have flat : (alone.map (fun packed => [packed])).flatten = alone :=
          (flatMap_def).symm.trans (flatMap_singleton' alone)
        refine ⟨alone.map (fun packed => [packed]) ++ alone',?_,?_,?_⟩
        · rw [mapM_append,mapM_packAlone routes run packable alone each]
          exact ok_bind each'
        · rw [flatten_append,flat,flatMap_append,flatMap_append,length_append,length_append]
          omega
        · rw [flatten_append,flat,flatMap_append,flatMap_append,append_eq_iff _ _ _ _ short short',iff,iff',
            forall_mem_cons]
      · rw [if_neg cut] at done ⊢
        have whole : (run ++ [record]) ++ rest = run ++ record::rest := append_assoc _ _ _
        rw [← whole]
        exact ih (run ++ [record]) (by rw [whole]; exact shaped) (uniform.snoc run record cut)
          (forall_mem_append.mpr ⟨packable,by simpa using taken⟩) packed done
    · rw [if_pos taken] at done ⊢
      obtain ⟨first,flushed,done⟩ := bind_ok done
      obtain ⟨others,packs,same⟩ := bind_ok done
      cases same
      obtain ⟨alone,each,short,iff⟩ := flushWireRun_rows lawful routes run before uniform first flushed
      obtain ⟨alone',each',short',iff'⟩ := ih [] later Uniform.nil (by simp) others packs
      have flat : (alone.map (fun packed => [packed])).flatten = alone :=
        (flatMap_def).symm.trans (flatMap_singleton' alone)
      refine ⟨alone.map (fun packed => [packed]) ++ [record]::alone',?_,?_,?_⟩
      · rw [mapM_append,mapM_packAlone routes run packable alone each,mapM_cons,
          packAlone_other routes record (by simpa using taken)]
        have rest' : rest.mapM (packAlone arrays routes) = .ok alone' := each'
        rw [rest']
        rfl
      · rw [flatten_append,flat,flatten_cons,flatMap_append,flatMap_append,flatMap_append,
          flatMap_cons,flatMap_cons,flatMap_nil,append_nil]
        simp only [length_append]
        omega
      · rw [flatten_append,flat,flatten_cons,flatMap_append,flatMap_append,flatMap_append,
          flatMap_cons,flatMap_cons,flatMap_nil,append_nil,
          append_eq_iff _ _ _ _ short (by simp only [length_append]; omega),append_cancel_left_eq,iff,iff',
          forall_mem_cons]

end packing

/-- Rows packed with their neighbours are the rows packed one by one exactly when Arrow
reads each column of a run as it reads its values alone, and can count the rows. -/
theorem packed_rows_iff (lawful : arrays.Lawful) (records : List (Record (SentBlock γ ν α σ)))
    (shaped : ∀ record ∈ records, Shaped arrays record) (packed : List (Record (SentBlock γ ν α σ)))
    (accepted : (wireOps arrays routes).packWireRecords records = .ok packed) :
    ∃ alone, records.mapM (packAlone arrays routes) = .ok alone ∧
      (packed.flatMap (unpacked arrays) = alone.flatten.flatMap (unpacked arrays) ↔
        ∀ run ∈ runsFrom arrays [] records, RunKeeps arrays run) := by
  obtain ⟨alone,each,-,same⟩ := packFrom_rows lawful routes [] records shaped Uniform.nil (by simp) packed accepted
  exact ⟨alone,each,same⟩

end runs

section numbers

inductive Number where
  | null
  | integer (value : Int)
  | double (value : Int)
deriving DecidableEq

def Number.isDouble : Number → Bool
  | .double _ => true
  | _ => false

def Number.toDouble : Number → Number
  | .integer value => .double value
  | other => other

def numberArrays : ArrayOps Number (List Number) Unit (List Number) Unit := {objectArrays Number.null with
  array := fun values => .ok (if values.any Number.isDouble then values.map Number.toDouble else values)}

theorem numberArrays_lawful : numberArrays.Lawful := {objectArrays_lawful Number.null with}

def localRoutes : RouteOps (SentBlock Number (List Number) (List Number) Nat) where
  retainedSize := fun _ => 1
  sliceRows := fun sent start stop => {sent with block := sent.block.sliceRows numberArrays start stop}
  rowBlock := fun sent index kind => {sent with block := sent.block.rowBlock numberArrays index kind}
  merge := fun _ => .error "no input batches here"
  numRows := fun _ => 0
  validateRecord := fun _ => none
  validateColumns := fun _ => none
  selectRows := fun sent indices => {sent with block := sent.block.selectRows numberArrays indices}

def cellRow (value : Number) : Record (SentBlock Number (List Number) (List Number) Nat) :=
  ⟨⟨.row (Dict.ofList [("a",value)]) none,some 1,true⟩,none,none,none,none,some 7⟩

theorem cellRow_shaped (value : Number) : Shaped numberArrays (cellRow value) where
  rowShaped := fun _ => ⟨_,_,rfl⟩
  columnar := fun _ same => by cases same
  full := fun _ same => by cases same

/-- Integers beside each other stay what they are. -/
theorem packed_integers : ∃ packed alone,
    (wireOps numberArrays localRoutes).packWireRecords [cellRow (.integer 1),cellRow (.integer 2)] = .ok packed ∧
      [cellRow (.integer 1),cellRow (.integer 2)].mapM (packAlone numberArrays localRoutes) = .ok alone ∧
      packed.flatMap (unpacked numberArrays) = alone.flatten.flatMap (unpacked numberArrays) := by
  obtain ⟨alone,each,same⟩ := packed_rows_iff localRoutes numberArrays_lawful [cellRow (.integer 1),cellRow (.integer 2)]
    (forall_mem_cons.mpr ⟨cellRow_shaped _,forall_mem_cons.mpr ⟨cellRow_shaped _,by simp⟩⟩) _ rfl
  refine ⟨_,alone,rfl,each,same.mpr (forall_mem_cons.mpr ⟨?_,by simp⟩)⟩
  unfold RunKeeps
  rw [show List.mapM _ _ = some [Dict.ofList [("a",Number.integer 1)],Dict.ofList [("a",Number.integer 2)]] from rfl]
  dsimp only
  decide +kernel

/-- An integer beside a double arrives as a double. -/
theorem integer_beside_double :
    ∃ packed alone, (wireOps numberArrays localRoutes).packWireRecords [cellRow (.integer 1),cellRow (.double 2)] = .ok packed ∧
      [cellRow (.integer 1),cellRow (.double 2)].mapM (packAlone numberArrays localRoutes) = .ok alone ∧
      packed.flatMap (unpacked numberArrays) ≠ alone.flatten.flatMap (unpacked numberArrays) :=
  ⟨_,_,rfl,rfl,by decide +kernel⟩

end numbers
end Klein.Dataflow
