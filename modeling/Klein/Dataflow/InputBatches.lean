import Klein.Dataflow.BlockRows
import Klein.InputBatchRows

/-! `_merge` of `runtime/worker/input_batch_accumulator.py` on blocks of columns, and what
input batching does to the rows that pass through it. -/
namespace Klein.Dataflow
open Dict Fallible List Option
variable {γ ν δ α τ : Type} (arrays : ArrayOps γ ν δ α τ)

section merge
variable (format : BatchFormat)

/-- `_format_columnar_block` -/
def formatColumnarBlock : ColumnarBlock γ ν α → Except String (ColumnarBlock γ ν α)
  | .mapping columns => .ok (.mapping columns)
  | .arrow batch => (arrowBlockToMapping arrays batch format).map .mapping

def sameColumnClass : Column γ ν α → Column γ ν α → Bool
  | .list _,.list _ => true
  | .tuple _,.tuple _ => true
  | .ndarray _,.ndarray _ => true
  | .arrow first,.arrow second => arrays.sameClass (arrays.arrowType first) (arrays.arrowType second)
  | _,_ => false

/-- `_same_columnar_schema` of the first block and another -/
def sameColumnarSchema [DecidableEq τ] : ColumnarBlock γ ν α → ColumnarBlock γ ν α → Bool
  | .arrow first,.arrow second => second.schema arrays = first.schema arrays
  | .mapping first,.mapping second =>
    second.keys = first.keys ∧ (first.values.zip second.values).all (fun pair => sameColumnClass arrays pair.1 pair.2)
  | _,_ => false

def columnarBlocks : List (Record (Block γ ν α)) → Option (List (ColumnarBlock γ ν α)) := List.mapM (fun record =>
  match record.numRows,record.block with
  | some _,.columnar block => some block
  | _,_ => none)

def rawRows (record : Record (Block γ ν α)) : List (Dict String γ) :=
  match record.block with
  | .row cells _ => [cells]
  | .columnar block => (List.range record.rows).map (fun index => block.rowDict arrays index)

/-- `list(dict.fromkeys(column for row in rows for column in row))` -/
def columnNames (rows : List (Dict String γ)) : List String := (rows.flatMap Dict.keys).eraseDups

def columnData (rows : List (Dict String γ)) (column : String) : List γ :=
  rows.map (fun row => (row.get? column).getD arrays.null)

def rebuild (rows : List (Dict String γ)) : Except String (ColumnarBlock γ ν α) := do
  let columns ← (columnNames rows).mapM (fun column => do
    return (column,← wrapperBatchData arrays (columnData arrays rows column) format))
  return .mapping (Dict.ofList columns)

def mergeBlock [DecidableEq τ] (records : List (Record (Block γ ν α))) : Except String (ColumnarBlock γ ν α × Option Nat) :=
  match columnarBlocks records with
  | some [block] => do return (← formatColumnarBlock arrays format block,some (records.map Record.rows).sum)
  | some (first::rest) =>
    if (first::rest).all (sameColumnarSchema arrays first) then do
      let joined ← concatBlocks arrays (first::rest)
      return (← formatColumnarBlock arrays format joined,some (records.map Record.rows).sum)
    else do return (← rebuild arrays format (records.flatMap (rawRows arrays)),some (records.flatMap (rawRows arrays)).length)
  | _ => do
    return (← rebuild arrays format (records.flatMap (rawRows arrays)),
      if records.any Record.isColumnar then some (records.flatMap (rawRows arrays)).length else none)

/-- `_merge` -/
def merge [DecidableEq τ] (records : List (Record (Block γ ν α))) : Except String (Record (Block γ ν α)) :=
  match records with
  | [] => .error "list index out of range"
  | first::_ => do
    let (block,numRows) ← mergeBlock arrays format records
    let kinds ← combinedRowKinds (fun record => record.block.rowKind) records
    let timestamps ← combinedRowTimestamps records
    return stamp {
      block := .columnar block
      numRows := numRows
      inputTag := if records.all (fun record => record.inputTag = first.inputTag) then first.inputTag else none
      rowKinds := kinds
      rowTimestamps := none
      timestamp :=
        if timestamps = [] ∧ records.all (fun record => record.timestamp = first.timestamp) then first.timestamp
        else none} timestamps

def batchOps [DecidableEq τ] (retainedSize : Record (Block γ ν α) → Nat) : BlockOps (Block γ ν α) where
  retainedSize := retainedSize
  sliceRows := fun block start stop => block.sliceRows arrays start stop
  rowBlock := fun block index kind => block.rowBlock arrays index kind
  merge := merge arrays format

end merge

section conditions
variable (format : BatchFormat)

def Reads (made : Except String (Column γ ν α)) (values : List γ) : Prop :=
  ∃ column, made = .ok column ∧ column.pythonValues arrays = values

def FormatKeeps : ColumnarBlock γ ν α → Prop
  | .mapping _ => True
  | .arrow batch => (∀ text, format ≠ .unsupported text) ∧
      ∀ column ∈ batch.columns, Reads arrays (arrowColumnTo arrays column.values format) (arrays.toPylist column.values)

def ConcatKeeps (blocks : List (ColumnarBlock γ ν α)) : Prop :=
  ∀ first rest, mappings blocks = some (first::rest) → ∀ name ∈ first.keys,
    Reads arrays (concatColumn arrays ((first::rest).filterMap (fun columns => columns.get? name)))
      (((first::rest).filterMap (fun columns => columns.get? name)).flatMap (Column.pythonValues arrays))

/-- Each column of the rows reads as their values, and rows without any column are
counted beside it. -/
def RebuildKeeps (records : List (Record (Block γ ν α))) : Prop :=
  let rows := records.flatMap (rawRows arrays)
  (columnNames rows ≠ [] ∨ records.any Record.isColumnar = true) ∧
    ∀ column ∈ columnNames rows, Reads arrays (wrapperBatchData arrays (columnData arrays rows column) format)
      ((columnData arrays rows column).map arrays.pythonValue)

def MergeKeeps [DecidableEq τ] (records : List (Record (Block γ ν α))) : Prop :=
  match columnarBlocks records with
  | some [block] => FormatKeeps arrays format block
  | some (first::rest) =>
    if (first::rest).all (sameColumnarSchema arrays first) then
      ConcatKeeps arrays (first::rest) ∧
        ∀ joined, concatBlocks arrays (first::rest) = .ok joined → FormatKeeps arrays format joined
    else RebuildKeeps arrays format records
  | _ => RebuildKeeps arrays format records

end conditions

section columns
variable {arrays} (format : BatchFormat)

theorem rowDict_ofList (columns : List (String × Column γ ν α)) (index : Nat) :
    (ColumnarBlock.mapping (Dict.ofList columns)).rowDict arrays index =
      rowAcross arrays.null (columns.map (fun entry => (entry.1,entry.2.pythonValues arrays))) index := by
  unfold ColumnarBlock.rowDict rowAcross
  dsimp only
  rw [mapValues_ofList,List.map_map]
  rfl

theorem format_rows (block : ColumnarBlock γ ν α) (keeps : FormatKeeps arrays format block) :
    ∃ formatted, formatColumnarBlock arrays format block = .ok formatted ∧
      ∀ index, formatted.rowDict arrays index = block.rowDict arrays index := by
  cases block with
  | mapping columns => exact ⟨_,rfl,fun _ => rfl⟩
  | arrow batch =>
    obtain ⟨supported,each⟩ := keeps
    obtain ⟨columns,made,reads⟩ := mapM_reads batch.columns
      (fun column => do return (column.name,← arrowColumnTo arrays column.values format))
      (fun entry => (entry.1,entry.2.pythonValues arrays)) (fun column => (column.name,arrays.toPylist column.values)) (by
        intro column inside
        obtain ⟨column',done,values⟩ := each column inside
        exact ⟨(column.name,column'),ok_bind done,by rw [values]⟩)
    have mapped : arrowBlockToMapping arrays batch format = .ok (Dict.ofList columns) := by
      unfold arrowBlockToMapping
      cases format with
      | unsupported text => exact absurd rfl (supported text)
      | native => exact ok_bind made
      | pyarrow => exact ok_bind made
      | numpy => exact ok_bind made
      | default => exact ok_bind made
    refine ⟨.mapping (Dict.ofList columns),by unfold formatColumnarBlock; dsimp only; rw [mapped]; rfl,fun index => ?_⟩
    rw [rowDict_ofList,reads,ColumnarBlock.rowDict_eq]
    rfl

def valuesAt (name : String) (columns : Dict String (Column γ ν α)) : List γ :=
  ((columns.get? name).map (Column.pythonValues arrays)).getD []

theorem columnValues_keys (columns : Dict String (Column γ ν α)) :
    (ColumnarBlock.mapping columns).columnValues arrays =
      columns.keys.map (fun name => (name,@valuesAt _ _ _ _ _ arrays name columns)) := by
  unfold ColumnarBlock.columnValues Dict.keys
  rw [List.map_map]
  apply map_congr_left
  intro entry inside
  simp only [Function.comp_apply,valuesAt,(Dict.get?_eq_some columns entry.1 entry.2).mpr inside]
  rfl

theorem mappings_map (columns : List (Dict String (Column γ ν α))) :
    mappings (columns.map (ColumnarBlock.mapping (ν := ν) (α := α))) = some columns := by
  induction columns with
  | nil => rfl
  | cons first rest ih =>
    unfold mappings at ih ⊢
    rw [map_cons,mapM_cons,ih]
    rfl

theorem columnOf_all (name : String) (columns : List (Dict String (Column γ ν α))) (all : ∀ one ∈ columns, name ∈ one.keys) :
    columns.mapM (columnOf name) = .ok (columns.filterMap (fun one => one.get? name)) := by
  induction columns with
  | nil => rfl
  | cons first rest ih =>
    obtain ⟨here,later⟩ := forall_mem_cons.mp all
    obtain ⟨column,found⟩ := (first.mem_keys name).mp here
    rw [mapM_cons,ih later,filterMap_cons_some (f := fun one : Dict String (Column γ ν α) => one.get? name) found]
    unfold columnOf
    rw [found]
    rfl

theorem flatMap_valuesAt (name : String) (columns : List (Dict String (Column γ ν α))) :
    (columns.filterMap (fun one => one.get? name)).flatMap (Column.pythonValues arrays) =
      columns.flatMap (@valuesAt _ _ _ _ _ arrays name) := by
  induction columns with
  | nil => rfl
  | cons first rest ih =>
    rw [flatMap_cons,← ih]
    unfold valuesAt
    cases found : first.get? name with
    | none => rw [filterMap_cons_none (f := fun one : Dict String (Column γ ν α) => one.get? name) found]; rfl
    | some column =>
      rw [filterMap_cons_some (f := fun one : Dict String (Column γ ν α) => one.get? name) found,flatMap_cons]
      rfl

theorem concatMappings_rows (first second : Dict String (Column γ ν α) × Nat) (rest : List (Dict String (Column γ ν α) × Nat))
    (keys : ∀ part ∈ first::second::rest, part.1.keys = first.1.keys)
    (holds : ∀ part ∈ first::second::rest, (ColumnarBlock.mapping part.1).Holds arrays part.2)
    (keeps : ConcatKeeps arrays ((first::second::rest).map (fun part => ColumnarBlock.mapping part.1))) :
    ∃ joined, concatMappings arrays ((first::second::rest).map Prod.fst) = .ok joined ∧
      (List.range ((first::second::rest).map Prod.snd).sum).map ((ColumnarBlock.mapping joined).rowDict arrays) =
        (first::second::rest).flatMap (fun part => (List.range part.2).map ((ColumnarBlock.mapping part.1).rowDict arrays)) := by
  generalize whole : first::second::rest = parts at keys holds keeps ⊢
  have listed : mappings (parts.map (fun part => ColumnarBlock.mapping (ν := ν) (α := α) part.1)) = some (parts.map Prod.fst) := by
    rw [← mappings_map,List.map_map]
    rfl
  obtain ⟨columns,made,reads⟩ := mapM_reads first.1.entries (fun entry => do
      let column ← (parts.map Prod.fst).mapM (columnOf entry.1)
      return (entry.1,← concatColumn arrays column)) (fun entry => (entry.1,entry.2.pythonValues arrays))
      (fun entry => (entry.1,parts.flatMap (fun part => @valuesAt _ _ _ _ _ arrays entry.1 part.1))) (by
    intro entry inside
    have here : entry.1 ∈ first.1.keys := List.mem_map_of_mem inside
    have all : ∀ one ∈ parts.map Prod.fst, entry.1 ∈ one.keys := by
      intro one member
      obtain ⟨part,within,rfl⟩ := List.mem_map.mp member
      rw [keys part within]
      exact here
    obtain ⟨column,done,values⟩ := keeps first.1 ((second::rest).map Prod.fst) (by rw [listed,← whole]; rfl) entry.1 here
    rw [← map_cons,whole] at done values
    refine ⟨(entry.1,column),?_,?_⟩
    · rw [ok_bind (columnOf_all entry.1 _ all)]
      exact ok_bind done
    · rw [values,flatMap_valuesAt,flatMap_map])
  refine ⟨Dict.ofList columns,?_,?_⟩
  · rw [← whole] at made ⊢
    exact ok_bind made
  · have across (index : Nat) : (ColumnarBlock.mapping (Dict.ofList columns)).rowDict arrays index = rowAcross arrays.null
        (first.1.keys.map (fun name => (name,parts.flatMap (fun part => @valuesAt _ _ _ _ _ arrays name part.1)))) index := by
      rw [rowDict_ofList,reads]
      unfold Dict.keys
      rw [List.map_map]
      rfl
    have table := rowsAcross_flatMap arrays.null first.1.keys id parts
      (fun part name => @valuesAt _ _ _ _ _ arrays name part.1) Prod.snd (by
        intro part inside name member
        rw [← keys part inside] at member
        obtain ⟨column,found⟩ := (part.1.mem_keys name).mp member
        unfold valuesAt
        rw [found]
        exact (length_map _).trans (holds part inside column ((part.1.mem_values column).mpr ⟨name,found⟩)))
    rw [map_congr_left (fun index _ => across index)]
    refine Eq.trans table (flatMap_congr (fun part inside => ?_))
    unfold rowsAcross
    apply map_congr_left
    intro index _
    rw [ColumnarBlock.rowDict_eq,columnValues_keys,keys part inside]
    rfl

def view (arrays : ArrayOps γ ν δ α τ) (cells : Dict String γ) (name : String) : γ := (cells.get? name).getD arrays.null

theorem rawRows_plain (lawful : arrays.Lawful) (record : Record (Block γ ν α)) (consistent : Consistent arrays record) :
    (rawRows arrays record).map (Dict.mapValues (fun _ value => arrays.pythonValue value)) = cellsOf arrays record := by
  have rows := consistent.aligned.readRows
  unfold rawRows cellsOf
  unfold readRows at rows
  cases held : record.block with
  | row cells kind => rfl
  | columnar block =>
    rw [held] at rows
    dsimp only at rows ⊢
    rw [rows,List.map_map]
    apply map_congr_left
    intro index _
    exact plain_rowDict lawful block index

section rebuilding
variable (lawful : arrays.Lawful) (rows : List (Dict String γ))
  (keeps : ∀ column ∈ columnNames rows, Reads arrays (wrapperBatchData arrays (columnData arrays rows column) format)
    ((columnData arrays rows column).map arrays.pythonValue))
include lawful keeps

theorem rebuild_rows : ∃ block, rebuild arrays format rows = .ok block ∧
    (∀ index (inside : index < rows.length), view arrays (block.rowDict arrays index) =
      view arrays (rows[index].mapValues (fun _ value => arrays.pythonValue value))) ∧
    (columnNames rows ≠ [] → block.numRows arrays = rows.length) := by
  obtain ⟨columns,made,reads⟩ := mapM_reads (columnNames rows)
    (fun column => do return (column,← wrapperBatchData arrays (columnData arrays rows column) format))
    (fun entry => (entry.1,entry.2.pythonValues arrays))
    (fun column => (column,(columnData arrays rows column).map arrays.pythonValue)) (by
      intro column inside
      obtain ⟨column',done,values⟩ := keeps column inside
      exact ⟨(column,column'),ok_bind done,by rw [values]⟩)
  refine ⟨.mapping (Dict.ofList columns),ok_bind made,fun index inside => ?_,fun some' => ?_⟩
  · rw [rowDict_ofList,reads]
    unfold rowAcross
    rw [List.map_map]
    ext name
    unfold view
    rw [get?_mapValues]
    change ((Dict.ofList ((columnNames rows).map (fun column =>
      (column,((((columnData arrays rows column).map arrays.pythonValue)[index]?).getD arrays.null))))).get? name).getD _ = _
    rw [get?_ofKeys]
    have cell : (((columnData arrays rows name).map arrays.pythonValue)[index]?).getD arrays.null =
        arrays.pythonValue ((rows[index].get? name).getD arrays.null) := by
      simp [columnData,inside]
    rw [cell]
    cases found : rows[index].get? name with
    | none =>
      split
      · exact lawful.pythonValue_null
      · rfl
    | some value =>
      have known : name ∈ columnNames rows := by
        apply mem_eraseDups.mpr
        apply mem_flatMap.mpr
        exact ⟨rows[index],getElem_mem inside,(Dict.mem_keys _ _).mpr ⟨value,found⟩⟩
      rw [if_pos known]
      rfl
  · have full (name : String) (column : Column γ ν α) (found : (Dict.ofList columns).get? name = some column) :
        (column.values arrays).length = rows.length := by
      have member := List.mem_map_of_mem (f := fun entry : String × Column γ ν α => (entry.1,entry.2.pythonValues arrays))
        (get?_ofList columns name column found)
      rw [reads] at member
      obtain ⟨known,-,same⟩ := List.mem_map.mp member
      have lengths := congrArg (fun entry => List.length (Prod.snd entry)) same
      simpa [columnData,Column.pythonValues,eq_comm] using lengths
    obtain ⟨name,others,names⟩ := exists_cons_of_ne_nil some'
    have present : ((Dict.ofList columns).mapValues (fun _ column => column.pythonValues arrays)).get? name ≠ none := by
      rw [mapValues_ofList,reads,get?_ofKeys,if_pos (by rw [names]; exact mem_cons_self)]
      simp
    rw [get?_mapValues] at present
    have known : (Dict.ofList columns).get? name ≠ none := by
      intro absent
      rw [absent] at present
      exact present rfl
    obtain ⟨column,found⟩ := ne_none_iff_exists'.mp known
    unfold ColumnarBlock.numRows
    dsimp only
    cases held : (Dict.ofList columns).values with
    | nil =>
      have inside := (mem_values _ column).mpr ⟨name,found⟩
      rw [held] at inside
      cases inside
    | cons first rest =>
      obtain ⟨key,there⟩ := (mem_values _ first).mp (by rw [held]; exact mem_cons_self)
      exact full key first there

end rebuilding

theorem columnarBlocks_parts (records : List (Record (Block γ ν α))) (blocks : List (ColumnarBlock γ ν α))
    (consistent : ∀ record ∈ records, Consistent arrays record) (all : columnarBlocks records = some blocks) :
    ∃ parts : List (ColumnarBlock γ ν α × Nat), parts.map Prod.fst = blocks ∧ parts.map Prod.snd = records.map Record.rows ∧
      (∀ part ∈ parts, part.1.Holds arrays part.2) ∧
      records.flatMap (cellsOf arrays) = parts.flatMap (fun part => (List.range part.2).map (part.1.rowDict arrays)) := by
  induction records generalizing blocks with
  | nil =>
    cases all
    exact ⟨[],rfl,rfl,by simp,rfl⟩
  | cons record rest ih =>
    obtain ⟨here,later⟩ := forall_mem_cons.mp consistent
    unfold columnarBlocks at all ih
    rw [mapM_cons] at all
    obtain ⟨block,first,all⟩ := bind_eq_some_iff.mp all
    obtain ⟨others,done,same⟩ := bind_eq_some_iff.mp all
    obtain ⟨parts,blocks',rows,holds,cells⟩ := ih others later done
    cases numRows : record.numRows with
    | none =>
      rw [numRows] at first
      cases first
    | some count =>
      obtain ⟨block',held,full⟩ := here.columnar count numRows
      rw [numRows,held] at first
      obtain rfl := some.inj first
      refine ⟨(block',count)::parts,?_,?_,forall_mem_cons.mpr ⟨full,holds⟩,?_⟩
      · rw [map_cons,blocks']
        exact some.inj same
      · rw [map_cons,map_cons,rows]
        unfold Record.rows
        rw [numRows]
        rfl
      · rw [flatMap_cons,flatMap_cons,cells]
        unfold cellsOf
        rw [held,numRows]
        rfl

section groups
variable [DecidableEq τ] (lawful : arrays.Lawful)
include lawful

omit [DecidableEq τ] lawful in
theorem toArrowRecordBatch_map (parts : List (ArrowBatch α × Nat)) :
    (parts.map (fun part => ColumnarBlock.arrow (γ := γ) (ν := ν) part.1)).mapM (ColumnarBlock.toArrowRecordBatch arrays) =
      .ok (parts.map Prod.fst) := by
  induction parts with
  | nil => rfl
  | cons part rest ih =>
    rw [map_cons,mapM_cons,ih]
    rfl

theorem concatBlocks_rows (first : ColumnarBlock γ ν α) (parts : List (ColumnarBlock γ ν α × Nat)) (many : 2 ≤ parts.length)
    (holds : ∀ part ∈ parts, part.1.Holds arrays part.2)
    (schemas : ∀ part ∈ parts, sameColumnarSchema arrays first part.1 = true) (keeps : ConcatKeeps arrays (parts.map Prod.fst)) :
    ∃ joined, concatBlocks arrays (parts.map Prod.fst) = .ok joined ∧
      (List.range (parts.map Prod.snd).sum).map (joined.rowDict arrays) =
        parts.flatMap (fun part => (List.range part.2).map (part.1.rowDict arrays)) := by
  cases first with
  | mapping columns =>
    obtain ⟨sources,rfl⟩ : parts ∈ Set.range (List.map
        (fun part : Dict String (Column γ ν α) × Nat => (ColumnarBlock.mapping part.1,part.2))) := by
      rw [Set.range_list_map]
      intro part inside
      have same := schemas part inside
      obtain ⟨_ | _,rows⟩ := part
      next held => exact ⟨(held,rows),rfl⟩
      next held => cases same
    match sources,many with
    | one::two::others,_ =>
      have same (part : Dict String (Column γ ν α) × Nat) (inside : part ∈ one::two::others) : part.1.keys = columns.keys := by
        have alike := schemas _ (List.mem_map_of_mem inside)
        simp only [sameColumnarSchema,decide_eq_true_eq] at alike
        exact alike.1
      rw [List.map_map] at keeps
      obtain ⟨joined,done,rows⟩ := concatMappings_rows one two others
        (fun part inside => (same part inside).trans (same one mem_cons_self).symm)
        (fun part inside => holds _ (List.mem_map_of_mem inside)) keeps
      refine ⟨.mapping joined,?_,?_⟩
      · have blocks : ((one::two::others).map (fun part => (ColumnarBlock.mapping (ν := ν) (α := α) part.1,part.2))).map Prod.fst =
            ((one::two::others).map Prod.fst).map ColumnarBlock.mapping := by
          rw [List.map_map,List.map_map]
          rfl
        rw [blocks]
        unfold concatBlocks
        rw [mappings_map]
        exact congrArg (Except.map ColumnarBlock.mapping) done
      · rw [List.map_map,flatMap_map]
        exact rows
  | arrow batch =>
    obtain ⟨sources,rfl⟩ : parts ∈ Set.range (List.map
        (fun part : ArrowBatch α × Nat => (ColumnarBlock.arrow (γ := γ) (ν := ν) part.1,part.2))) := by
      rw [Set.range_list_map]
      intro part inside
      have same := schemas part inside
      obtain ⟨_ | _,rows⟩ := part
      next held => cases same
      next held => exact ⟨(held,rows),rfl⟩
    match sources,many with
    | one::two::others,_ =>
      have same (part : ArrowBatch α × Nat) (inside : part ∈ one::two::others) : part.1.schema arrays = batch.schema arrays := by
        have alike := schemas _ (List.mem_map_of_mem inside)
        simpa only [sameColumnarSchema,decide_eq_true_eq] using alike
      have full (part : ArrowBatch α × Nat) (inside : part ∈ one::two::others) :
          part.1.numRows = part.2 ∧ part.1.Holds arrays := by
        obtain ⟨counted,each⟩ := holds _ (List.mem_map_of_mem inside)
        exact ⟨counted,fun column member => (each column member).trans counted.symm⟩
      obtain ⟨joined,done,-,-,rows⟩ := concatBatches_rows lawful one.1 ((two::others).map Prod.fst) (by simp) (by
          intro other inside
          obtain ⟨part,member,rfl⟩ := List.mem_map.mp inside
          exact (same part (mem_cons_of_mem _ member)).trans (same one mem_cons_self).symm) (by
          intro other inside
          rw [← map_cons] at inside
          obtain ⟨part,member,rfl⟩ := List.mem_map.mp inside
          exact (full part member).2)
      rw [← map_cons] at done rows
      refine ⟨.arrow joined,?_,?_⟩
      · have listed : mappings (((one::two::others).map (fun part => (ColumnarBlock.arrow (γ := γ) (ν := ν) part.1,part.2))).map Prod.fst) =
            none := rfl
        unfold concatBlocks
        rw [listed]
        refine (ok_bind ?_).trans (ok_bind done)
        rw [List.map_map]
        exact toArrowRecordBatch_map (one::two::others)
      · rw [List.map_map,flatMap_map]
        have counts : ((one::two::others).map Prod.fst).map ArrowBatch.numRows = (one::two::others).map Prod.snd := by
          rw [List.map_map]
          exact map_congr_left (fun part inside => (full part inside).1)
        rw [counts,flatMap_map] at rows
        refine rows.trans (flatMap_congr (fun part inside => ?_))
        rw [(full part inside).1]

omit [DecidableEq τ] in
theorem rebuilt (records : List (Record (Block γ ν α))) (consistent : ∀ record ∈ records, Consistent arrays record)
    (keeps : RebuildKeeps arrays format records) :
    ∃ block, rebuild arrays format (records.flatMap (rawRows arrays)) = .ok block ∧
      (records.flatMap (rawRows arrays)).length = (records.map Record.rows).sum ∧
      (records.any Record.isColumnar = false → block.numRows arrays = (records.map Record.rows).sum) ∧
      ((List.range (records.map Record.rows).sum).map (block.rowDict arrays)).map (view arrays) =
        (records.flatMap (cellsOf arrays)).map (view arrays) := by
  obtain ⟨counted,each⟩ := keeps
  obtain ⟨block,done,reads,rows⟩ := rebuild_rows format lawful _ each
  have cells : records.flatMap (cellsOf arrays) =
      (records.flatMap (rawRows arrays)).map (Dict.mapValues (fun _ value => arrays.pythonValue value)) := by
    rw [map_flatMap]
    exact flatMap_congr (fun record inside => (rawRows_plain lawful record (consistent record inside)).symm)
  have length : (records.flatMap (rawRows arrays)).length = (records.map Record.rows).sum := by
    rw [← length_map (f := Dict.mapValues (fun _ value => arrays.pythonValue value)),← cells,length_flatMap]
    congr 1
    exact map_congr_left (fun record inside => (consistent record inside).aligned.cells_length)
  refine ⟨block,done,length,fun shaped => ?_,?_⟩
  · rw [← length]
    exact rows (counted.resolve_right (by rw [shaped]; decide))
  · rw [cells,← length]
    refine ext_getElem (by simp) (fun index less _ => ?_)
    rw [getElem_map,getElem_map,getElem_map,getElem_map,getElem_range]
    exact reads index (by simpa using less)

theorem mergeBlock_rows (records : List (Record (Block γ ν α))) (some' : records ≠ [])
    (consistent : ∀ record ∈ records, Consistent arrays record) (keeps : MergeKeeps arrays format records) :
    ∃ block numRows, mergeBlock arrays format records = .ok (block,numRows) ∧
      numRows.getD (block.numRows arrays) = (records.map Record.rows).sum ∧
      ((List.range (records.map Record.rows).sum).map (block.rowDict arrays)).map (view arrays) =
        (records.flatMap (cellsOf arrays)).map (view arrays) := by
  unfold mergeBlock
  unfold MergeKeeps at keeps
  cases found : columnarBlocks records with
  | none =>
    rw [found] at keeps
    obtain ⟨block,done,length,counted,rows⟩ := rebuilt format lawful records consistent keeps
    refine ⟨block,_,ok_bind done,?_,rows⟩
    cases columnar : records.any Record.isColumnar with
    | true => exact length
    | false => exact counted columnar
  | some blocks =>
    rw [found] at keeps
    obtain ⟨parts,rfl,counts,holds,cells⟩ := columnarBlocks_parts records blocks consistent found
    have lengths : parts.length = records.length := by simpa using congrArg List.length counts
    match parts,keeps with
    | [],_ => exact absurd (length_eq_zero_iff.mp lengths.symm) some'
    | [part],keeps =>
      obtain ⟨formatted,done,same⟩ := format_rows format part.1 keeps
      refine ⟨formatted,_,ok_bind done,rfl,?_⟩
      rw [cells,← counts,map_congr_left (fun index _ => same index)]
      simp
    | first::second::rest,keeps =>
      rw [map_cons,map_cons] at keeps ⊢
      dsimp only at keeps ⊢
      by_cases schemas : (first.1::second.1::rest.map Prod.fst).all (sameColumnarSchema arrays first.1) = true
      · rw [if_pos schemas] at keeps ⊢
        obtain ⟨joins,formats⟩ := keeps
        obtain ⟨joined,done,rows⟩ := concatBlocks_rows lawful first.1 (first::second::rest) (by simp) holds (by
          intro part inside
          exact List.all_eq_true.mp schemas part.1 (List.mem_map_of_mem inside)) joins
        obtain ⟨formatted,done',same⟩ := format_rows format joined (formats joined done)
        refine ⟨formatted,_,(ok_bind done).trans (ok_bind done'),rfl,?_⟩
        rw [cells,← rows,← counts,map_congr_left (fun index _ => same index)]
      · rw [if_neg schemas] at keeps ⊢
        obtain ⟨block,done,length,-,rows⟩ := rebuilt format lawful records consistent keeps
        exact ⟨block,_,ok_bind done,length,rows⟩

variable (arrays) in
def viewedRows (record : Record (Block γ ν α)) : List (TaggedRow (String → γ)) :=
  (taggedRows arrays record).map (TaggedRow.map (view arrays))

theorem merge_rows (records : List (Record (Block γ ν α))) (inputTag : Option Int) (some' : records ≠ [])
    (consistent : ∀ record ∈ records, Consistent arrays record) (tags : ∀ record ∈ records, record.inputTag = inputTag)
    (keeps : MergeKeeps arrays format records) :
    ∃ merged, merge arrays format records = .ok merged ∧ viewedRows arrays merged = records.flatMap (viewedRows arrays) := by
  obtain ⟨block,numRows,done,count,rows⟩ := mergeBlock_rows format lawful records some' consistent keeps
  obtain ⟨first,rest,rfl⟩ := exists_cons_of_ne_nil some'
  have tag : (if (first::rest).all (fun record => record.inputTag = first.inputTag) then first.inputTag else none) = inputTag := by
    rw [tags first mem_cons_self]
    exact if_pos (by simpa using tags)
  have kinds := combinedRowKinds_flatMap (first::rest) (fun record inside => (consistent record inside).aligned)
  have stamps := combinedRowTimestamps_flatMap (first::rest) (fun record inside => (consistent record inside).aligned)
  have kindsTotal := kinds_total (first::rest) (fun record inside => (consistent record inside).aligned)
  have stampsTotal := stamps_total (first::rest) (fun record inside => (consistent record inside).aligned)
  have whole : (first::rest).flatMap (viewedRows arrays) = _ :=
    map_flatMap.symm.trans (congrArg (List.map (TaggedRow.map (view arrays))) (taggedRows_flatMap (first::rest) (fun record inside => (consistent record inside).aligned) inputTag tags))
  have merged : merge arrays format (first::rest) = .ok (stamp {
      block := .columnar block
      numRows := numRows
      inputTag := if (first::rest).all (fun record => record.inputTag = first.inputTag) then first.inputTag else none
      rowKinds := if ((first::rest).flatMap (kindsOf arrays)).any Option.isSome then
        some ((first::rest).flatMap (kindsOf arrays)) else none
      rowTimestamps := none
      timestamp :=
        if (first::rest).flatMap (stampsOf arrays) = [] ∧
          (first::rest).all (fun record => record.timestamp = first.timestamp) then first.timestamp
        else none} ((first::rest).flatMap (stampsOf arrays))) := by
    rw [merge,ok_bind done]
    dsimp only
    rw [ok_bind kinds]
    exact ok_bind stamps
  refine ⟨_,merged,?_⟩
  · rw [whole]
    generalize (first::rest).flatMap (kindsOf arrays) = allKinds at kindsTotal
    generalize (first::rest).flatMap (stampsOf arrays) = allStamps at stampsTotal
    unfold viewedRows taggedRows
    rw [stamp_inputTag,cellsOf_stamp,kindsOf_stamp,stampsOf_stamp,kindsOf_combined _ _ allKinds rfl rfl]
    · dsimp only
      rw [tag,tagged_map,tagged_map]
      congr 1
      unfold cellsOf
      dsimp only
      rw [count]
      exact rows
    · exact kindsTotal.trans count.symm
    · rfl
    · exact stampsTotal.trans count.symm

end groups
end columns

section slices
variable {arrays} (lawful : arrays.Lawful) (record : Record (Block γ ν α)) (consistent : Consistent arrays record)
  (block : ColumnarBlock γ ν α) (rows : Nat) (held : record.block = .columnar block) (numRows : record.numRows = some rows)
  (start stop : Nat) (within : stop ≤ rows)

def sliceOf (arrays : ArrayOps γ ν δ α τ) (record : Record (Block γ ν α)) (start stop : Nat) : Record (Block γ ν α) :=
  {record with
    block := record.block.sliceRows arrays start stop
    numRows := some (stop - start)
    rowKinds := record.rowKinds.map (fun kinds => (kinds.take stop).drop start)
    rowTimestamps := record.rowTimestamps.map (fun stamps => (stamps.take stop).drop start)}

include lawful consistent held numRows within

theorem Consistent.sliceOf : Consistent arrays (sliceOf arrays record start stop) := by
  have count : record.rows = rows := by
    unfold Record.rows
    rw [numRows]
    rfl
  refine ⟨fun none' => (by cases none'),fun count same => ?_,fun kinds same => ?_,fun stamps same => ?_⟩
  · obtain rfl := some.inj same
    obtain ⟨block',held',holds⟩ := consistent.columnar rows numRows
    obtain rfl := Block.columnar.inj (held.symm.trans held')
    refine ⟨block.sliceRows arrays start stop,?_,holds.sliceRows lawful block rows start stop within⟩
    unfold Dataflow.sliceOf
    dsimp only
    rw [held]
    rfl
  iterate 2
    obtain ⟨whole,known,rfl⟩ := map_eq_some_iff.mp same
    have full := by first | exact consistent.kinds whole known | exact consistent.stamps whole known
    change _ = stop - start
    rw [length_drop,length_take,full,count,Nat.min_eq_left within]

theorem taggedRows_sliceOf : taggedRows arrays (sliceOf arrays record start stop) = ((taggedRows arrays record).take stop).drop start := by
  have sliced : (sliceOf arrays record start stop).block = .columnar (block.sliceRows arrays start stop) := by
    unfold sliceOf
    dsimp only
    rw [held]
    rfl
  rw [taggedRows_columnar record consistent.aligned block rows held numRows,
    taggedRows_columnar _ (consistent.sliceOf lawful record block rows held numRows start stop within).aligned _ _ sliced rfl]
  refine ext_getElem (by simp [within]) (fun index less _ => ?_)
  have inside : start + index < stop := by
    rw [length_map,length_range] at less
    omega
  simp only [getElem_map,getElem_range,getElem_drop,getElem_take]
  rw [ColumnarBlock.rowDict_sliceRows lawful block start stop index inside]
  congr 1
  · unfold sliceOf
    cases record.rowKinds with
    | none => rfl
    | some kinds =>
      simp only [map_some,bind_some]
      rw [slice_at _ _ _ _ inside]
  · unfold sliceOf
    cases record.rowTimestamps with
    | none => rfl
    | some stamps =>
      simp only [map_some]
      rw [slice_at _ _ _ _ inside]

end slices

section reading
variable {arrays} (lawful : arrays.Lawful) (format : BatchFormat) (retainedSize : Record (Block γ ν α) → Nat)
  [DecidableEq τ]

omit [DecidableEq τ] in
theorem taggedRows_row (cells : Dict String γ) (kind : Option String) (timestamp inputTag : Option Int) :
    taggedRows arrays (⟨.row cells kind,none,inputTag,none,none,timestamp⟩ : Record (Block γ ν α)) =
      [⟨cells.mapValues (fun _ value => arrays.pythonValue value),kind,timestamp,inputTag⟩] := rfl

variable (arrays) in
def rowRecord (record : Record (Block γ ν α)) (block : ColumnarBlock γ ν α) (index : Nat) : Record (Block γ ν α) where
  block := .row (block.rowDict arrays index) ((record.rowKinds.bind (fun kinds => kinds[index]?)).join)
  numRows := none
  inputTag := record.inputTag
  rowKinds := none
  rowTimestamps := none
  timestamp := match record.rowTimestamps with
    | some timestamps => (timestamps[index]?).join
    | none => record.timestamp

theorem remainingRows_eq (record : Record (Block γ ν α)) (consistent : Consistent arrays record) (count : Nat) :
    InputBatchAccumulator.remainingRows (batchOps arrays format retainedSize) record count =
      sliceOf arrays record count record.rows := by
  unfold InputBatchAccumulator.remainingRows sliceOf
  have kinds : record.rowKinds.map (List.drop count) = record.rowKinds.map (fun kinds => (kinds.take record.rows).drop count) := by
    cases held : record.rowKinds with
    | none => rfl
    | some kinds =>
      rw [map_some,map_some,take_of_length_le (consistent.kinds kinds held).le]
  have stamps : record.rowTimestamps.map (List.drop count) =
      record.rowTimestamps.map (fun stamps => (stamps.take record.rows).drop count) := by
    cases held : record.rowTimestamps with
    | none => rfl
    | some stamps =>
      rw [map_some,map_some,take_of_length_le (consistent.stamps stamps held).le]
  rw [kinds,stamps]
  rfl

include lawful in
theorem unbatched_rows (record : Record (Block γ ν α)) (consistent : Consistent arrays record) :
    ∃ rows, InputBatchAccumulator.unbatched (batchOps arrays format retainedSize) record = .ok rows ∧
      rows.flatMap (viewedRows arrays) = viewedRows arrays record ∧ ∀ row ∈ rows, (viewedRows arrays row).length ≤ 1 := by
  unfold InputBatchAccumulator.unbatched
  cases numRows : record.numRows with
  | none =>
    refine ⟨[record],if_pos (by simp [Record.isColumnar,numRows]),by simp,?_⟩
    intro row inside
    rw [mem_singleton.mp inside]
    unfold viewedRows
    rw [length_map,consistent.aligned.length]
    simp [Record.rows,numRows]
  | some count =>
    obtain ⟨block,held,-⟩ := consistent.columnar count numRows
    have stamped := consistent.validated
    have whole : viewedRows arrays record = ((List.range count).map (rowRecord arrays record block)).flatMap (viewedRows arrays) := by
      unfold viewedRows
      rw [taggedRows_columnar record consistent.aligned block count held numRows,List.map_map,flatMap_map]
      refine map_eq_flatMap.trans (flatMap_congr (fun index _ => ?_))
      unfold rowRecord
      rw [taggedRows_row,plain_rowDict lawful]
      rfl
    refine ⟨_,?_,whole.symm,fun row inside => ?_⟩
    · obtain ⟨held',count',tag,kinds,stamps,timestamp⟩ := record
      dsimp only at held numRows
      subst held numRows
      rw [if_neg (by simp [Record.isColumnar])]
      cases kinds with
      | none => exact ok_bind stamped
      | some kinds =>
        dsimp only
        rw [if_neg (by simp [consistent.kinds kinds rfl])]
        exact ok_bind stamped
    · obtain ⟨index,-,rfl⟩ := List.mem_map.mp inside
      exact Nat.le_refl 1

variable (arrays) in
def batchReading : InputBatchAccumulator.Reading (batchOps arrays format retainedSize) (TaggedRow (String → γ)) where
  rowsOf := viewedRows arrays
  Fine := Consistent arrays
  Keeps := MergeKeeps arrays format
  length := fun record consistent => (length_map _).trans consistent.aligned.length
  stamped := fun _ consistent => consistent.validated
  single := fun record _ shaped => by
    have none' : record.numRows = none := by simpa [Record.isColumnar] using shaped
    unfold Record.rows
    rw [none']
    rfl
  split := fun record count consistent columnar _ less => by
    obtain ⟨rows,numRows⟩ := isSome_iff_exists.mp columnar
    obtain ⟨block,held,-⟩ := consistent.columnar rows numRows
    have total : record.rows = rows := by
      unfold Record.rows
      rw [numRows]
      rfl
    rw [remainingRows_eq format retainedSize record consistent]
    refine ⟨consistent.sliceOf lawful record block rows held numRows 0 count (by omega),
      consistent.sliceOf lawful record block rows held numRows count record.rows (by omega),?_,?_⟩
    · have first := taggedRows_sliceOf lawful record consistent block rows held numRows 0 count (by omega)
      exact (congrArg (List.map _) first).trans (map_take)
    · have last := taggedRows_sliceOf lawful record consistent block rows held numRows count record.rows (by omega)
      rw [take_of_length_le consistent.aligned.length.le] at last
      exact (congrArg (List.map _) last).trans (map_drop)
  merge := fun group inputTag some' each keeps =>
    merge_rows format lawful group inputTag some' (fun record inside => (each record inside).1)
      (fun record inside => (each record inside).2) keeps
  unbatch := unbatched_rows lawful format retainedSize

end reading

section runs
open InputBatchAccumulator
variable {κ : Type} [DecidableEq τ]

/-- Rows are neither lost, repeated, reordered nor changed by input batching, as long as
the columns of each batch read as the values that are put into them. -/
theorem batches_keep_rows (lawful : arrays.Lawful) (format : BatchFormat) (retainedSize : Record (Block γ ν α) → Nat)
    (runtimeInfo : RuntimeInfo) (maxBytes : Option Nat) (acc : InputBatchAccumulator (Block γ ν α))
    (created : create runtimeInfo maxBytes = .ok acc) (calls : List (Call (Block γ ν α) κ)) (now later : Int)
    (sound : (BatchRun.start acc).Sound (batchReading arrays lawful format retainedSize) (calls ++ [Call.flush true now later])) :
    let reading := batchReading arrays lawful format retainedSize
    stream reading ((calls ++ [Call.flush true now later]).foldl (BatchRun.step reading) (BatchRun.start acc)).passedOn =
        calls.flatMap (arrivals reading) ∧
      ∀ before, before <+: calls → BatchRun.Kept reading acc.batchSize (before.foldl (BatchRun.step reading) (BatchRun.start acc)) := by
  intro reading
  have kept := BatchRun.Kept.start (κ := κ) reading runtimeInfo maxBytes acc created
  refine ⟨BatchRun.flushed_rows reading acc calls now later kept sound,?_⟩
  rintro before ⟨after,rfl⟩
  rw [append_assoc] at sound
  exact kept.run reading acc.batchSize _ before ((BatchRun.sound_append reading _ _ _).mp sound).1

def pairs : InputBatchAccumulator (Block (Option Int) (List (Option Int)) (List (Option Int))) :=
  ⟨⟨some 2,some 1000,by simp,by simp,by simp⟩,none,[],0,0,none⟩

def plainRow (cells : List (String × Option Int)) : Record (Block (Option Int) (List (Option Int)) (List (Option Int))) :=
  ⟨.row (Dict.ofList cells) none,none,none,none,none,some 7⟩

abbrev nativeReading := batchReading (objectArrays (none : Option Int)) (objectArrays_lawful none) .native (fun _ => 1)

theorem plainRow_consistent (cells : List (String × Option Int)) : Consistent (objectArrays (none : Option Int)) (plainRow cells) where
  rowShaped := fun _ => ⟨_,_,rfl⟩
  columnar := fun _ same => by cases same
  kinds := fun _ same => by cases same
  stamps := fun _ same => by cases same

def threeRows : Record (Block (Option Int) (List (Option Int)) (List (Option Int))) where
  block := .columnar (.mapping (Dict.ofList [("a",.list [some 3,some 4,some 5])]))
  numRows := some 3
  inputTag := none
  rowKinds := some [some "+I",some "-D",some "+I"]
  rowTimestamps := some [some 7,none,some 9]
  timestamp := none

theorem threeRows_consistent : Consistent (objectArrays (none : Option Int)) threeRows where
  rowShaped := fun none => by cases none
  columnar := fun _ same => by
    cases same
    refine ⟨_,rfl,fun column inside => ?_⟩
    change column ∈ [Column.list [some 3,some 4,some 5]] at inside
    cases mem_singleton.mp inside
    rfl
  kinds := fun _ same => by cases same; rfl
  stamps := fun _ same => by cases same; rfl

def mixedCalls : List (Call (Block (Option Int) (List (Option Int)) (List (Option Int))) Unit) :=
  [.data (plainRow [("a",some 1)]) 0 0,.data (plainRow [("b",some 2)]) 0 0,.control () 0 0,.data threeRows 0 0]

/-- Two rows with columns of their own are put together before a control; of three rows
in columns two fill the next batch and a flush sends the last. -/
theorem mixed_batches :
    stream nativeReading ((mixedCalls ++ [Call.flush true 0 0]).foldl
        (BatchRun.step nativeReading) (BatchRun.start pairs)).passedOn = mixedCalls.flatMap (arrivals nativeReading) := by
  refine (batches_keep_rows (objectArrays (none : Option Int)) (objectArrays_lawful none) .native (fun _ => 1)
    pairs.runtimeInfo none pairs rfl mixedCalls 0 0 ?_).1
  refine ⟨⟨plainRow_consistent _,fun _ _ => ⟨fun cut => absurd cut (by decide),?_⟩⟩,
    ⟨plainRow_consistent _,fun _ _ => ⟨fun cut => absurd cut (by decide),?_⟩⟩,fun _ => trivial,
    ⟨threeRows_consistent,fun _ _ => ⟨fun cut => absurd cut (by decide),?_⟩⟩,fun _ _ => .inr (.inr ?_),trivial⟩
  · dsimp only
    rw [if_neg (by decide),if_neg (by decide)]
    exact fun expired => absurd expired (by decide)
  · dsimp only
    rw [if_neg (by decide),if_pos (by decide)]
    refine .inr (.inr ?_)
    change MergeKeeps (objectArrays (none : Option Int)) .native [plainRow [("a",some 1)],plainRow [("b",some 2)]] ∧ _
    refine ⟨⟨.inl (by decide +kernel),fun column _ => ⟨.list _,rfl,rfl⟩⟩,.inl rfl⟩
  · dsimp only
    rw [if_neg (by decide),if_pos (by decide)]
    exact .inr (.inr ⟨trivial,.inr (.inl ⟨rfl,by decide⟩)⟩)
  · exact ⟨trivial,trivial⟩
/-- Rows without columns are not counted once they are put together. -/
theorem empty_rows_are_lost :
    let calls : List (Call _ Unit) := [.data (plainRow []) 0 0,.data (plainRow []) 0 0]
    let run := (calls ++ [Call.flush true 0 0]).foldl (BatchRun.step nativeReading) (BatchRun.start pairs)
    run.passedOn.length = 1 ∧ stream nativeReading run.passedOn ≠ calls.flatMap (arrivals nativeReading) := by
  intro calls run
  have passed : (stream nativeReading run.passedOn).length = 0 := by decide +kernel
  have arrived : (calls.flatMap (arrivals nativeReading)).length = 2 := by decide +kernel
  refine ⟨by decide +kernel,fun same => ?_⟩
  rw [same,arrived] at passed
  cases passed

end runs
end Klein.Dataflow
