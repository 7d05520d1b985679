import Klein.Dataflow.BlockRows

/-! `runtime/operator/filter_operator.py`: the rows that a filter hands on, beside the
rows that its function keeps. -/
namespace Klein.Dataflow
open Dict Fallible List Option

structure FilterOps (γ ν δ α τ : Type) extends ArrayOps γ ν δ α τ where
  iterate : γ → Except String (List γ)
  scalars : α → List γ
  validValue : γ → Bool
  validOther : List γ → Bool

structure FilterOps.Lawful {γ ν δ α τ : Type} (ops : FilterOps γ ν δ α τ) : Prop extends ops.toArrayOps.Lawful where
  asarray_length : ∀ values array, ops.asarray values = .ok (some array) → (ops.items array).length = values.length
  scalars_read : ∀ values, (ops.scalars values).map ops.pythonValue = ops.toPylist values

structure FilterFunction (γ ν α : Type) where
  keeps : Block γ ν α → Bool
  decides : Block γ ν α → List Bool

variable {γ ν δ α τ : Type} (ops : FilterOps γ ν δ α τ)

section filtering

def Column.iterated : Column γ ν α → List γ
  | .arrow values => ops.scalars values
  | column => column.values ops.toArrayOps

/-- `data.items()`, each value as it is iterated -/
def Block.itemValues : Block γ ν α → Except String (List (String × Except String (List γ)))
  | .row cells _ => .ok (cells.entries.map (fun item => (item.1,ops.iterate item.2)))
  | .columnar (.mapping columns) => .ok (columns.entries.map (fun item => (item.1,.ok (item.2.iterated ops))))
  | .columnar (.arrow _) => .error "AttributeError: items"

def kept {ξ : Type} (items : List ξ) (decisions : List Bool) : List ξ :=
  ((items.zip decisions).filter Prod.snd).map Prod.fst

/-- `[item for item, keep in zip(values, decisions, strict=True) if keep]` -/
def keptValues (values : List γ) (decisions : List Bool) : Except String (List γ) :=
  if values.length < decisions.length then .error "zip() argument 2 is longer than argument 1"
  else if decisions.length < values.length then .error "zip() argument 2 is shorter than argument 1"
  else .ok (kept values decisions)

/-- `_filter_batch` -/
def filterBatch (data : Block γ ν α) (decisions : List Bool) : Except String (Record (Block γ ν α)) := do
  let items ← data.itemValues ops
  let filtered ← items.mapM (fun item => do
    let values ← item.2
    let values ← keptValues values decisions
    let array ← createPossiblyRaggedNdarray ops.toArrayOps values
    return (item.1,(Column.ndarray array : Column γ ν α)))
  return Record.fresh (.columnar (.mapping (Dict.ofList filtered))) none

variable (function : FilterFunction γ ν α) (batchEnabled : Bool)

/-- `process_element`: what it collects -/
def filterElement (record : Record (Block γ ν α)) : Processed (Block γ ν α) :=
  if ¬ batchEnabled then
    if function.keeps record.block then ⟨[Record.fresh record.block none],none⟩ else ⟨[],none⟩
  else
    match filterBatch ops record.block (function.decides record.block) with
    | .ok filtered => ⟨[filtered],none⟩
    | .error text => ⟨[],some text⟩

/-- `process_async_element` -/
def filterAsyncElement (record : Record (Block γ ν α)) : Except String (List (Record (Block γ ν α))) :=
  if ¬ batchEnabled then .ok (if function.keeps record.block then [Record.fresh record.block none] else [])
  else do return [← filterBatch ops record.block (function.decides record.block)]

/-- `_validate_columns` -/
def Block.validColumns : Block γ ν α → Bool
  | .row cells _ => cells.values.all ops.validValue
  | .columnar (.mapping columns) => columns.values.all (fun column => match column with
    | .list _ => true
    | .tuple _ => false
    | .ndarray _ => true
    | .arrow _ => true
    | .other values => ops.validOther values)
  | .columnar (.arrow _) => true

def filterColumns : ColumnOps (Block γ ν α) where
  retainedSize := fun _ => 0
  sliceRows := fun block start stop => block.sliceRows ops.toArrayOps start stop
  rowBlock := fun block index kind => block.rowBlock ops.toArrayOps index kind
  merge := fun _ => .error "a filter merges nothing"
  numRows := fun block => match block with
    | .row .. => 0
    | .columnar block => block.numRows ops.toArrayOps
  validateRecord := fun _ => none
  validateColumns := fun block => if block.validColumns ops then none else some "Error validating"

variable (passthrough async : Bool)

def filterTask : Operators (List (Record (Block γ ν α))) Unit (Block γ ν α) where
  ops := filterColumns ops
  invoke := fun _ record => pure (
    if async then
      match filterAsyncElement ops function batchEnabled record with
      | .ok records => ⟨records,none⟩
      | .error text => ⟨[],some text⟩
    else filterElement ops function batchEnabled record)
  batchEnabled := fun _ => batchEnabled
  columnarPassthrough := passthrough
  ignoreExceptions := false
  noted := fun _ record => pure record

def handedOn (record : Record (Block γ ν α)) : EStateM Failure (List (Record (Block γ ν α))) PUnit :=
  modify (fun handed => handed ++ [record])

def runFilter (record : Record (Block γ ν α)) : EStateM Failure (List (Record (Block γ ν α))) PUnit :=
  if async then (filterTask ops function batchEnabled passthrough async).runnerProcessAsync (some handedOn) () record
  else (filterTask ops function batchEnabled passthrough async).runnerProcess (some handedOn) (.operator ()) record

def rowDecisions (record : Record (Block γ ν α)) : List Bool :=
  if batchEnabled then function.decides record.block
  else List.replicate (readRows ops.toArrayOps record) (function.keeps record.block)

end filtering

section conditions

def TaggedRow.beside {ξ : Type} (row : TaggedRow ξ) : ξ × Option String × Option Int := (row.cells,row.kind,row.timestamp)

def ReadsBack (values reads : List γ) : Prop :=
  match ops.asarray values with
  | .ok (some array) => (ops.items array).map ops.pythonValue = reads
  | .ok none => values.map ops.pythonValue = reads
  | .error _ => False

def RowKeeps (record : Record (Block γ ν α)) (keep : Bool) : Prop := keep = true →
  readRows ops.toArrayOps (Record.fresh record.block none) = readRows ops.toArrayOps record ∧
    ∀ row ∈ taggedRows ops.toArrayOps record, row.kind = record.block.rowKind ∧ row.timestamp = none

/-- The rows that are kept have no kind and no timestamp, they have columns, and NumPy
reads the values of each column back. -/
structure BatchKeeps (record : Record (Block γ ν α)) (decisions : List Bool) (items : List (String × Except String (List γ))) : Prop where
  bare : ∀ row ∈ kept (taggedRows ops.toArrayOps record) decisions, row.kind = none ∧ row.timestamp = none
  counted : items = [] → kept (taggedRows ops.toArrayOps record) decisions = []
  reads : ∀ item ∈ items, ∃ values, item.2 = .ok values ∧ values.length = decisions.length ∧ ReadsBack ops (kept values decisions)
    ((kept (taggedRows ops.toArrayOps record) decisions).map (fun row => (row.cells.get? item.1).getD ops.null))

def Selects (function : FilterFunction γ ν α) (batchEnabled : Bool) (record : Record (Block γ ν α)) : Prop :=
  if batchEnabled then ∃ items, record.block.itemValues ops = .ok items ∧
    BatchKeeps ops record (function.decides record.block) items
  else RowKeeps ops record (function.keeps record.block)

structure Whole (arrays : ArrayOps γ ν δ α τ) (record : Record (Block γ ν α)) : Prop where
  held : ∀ block, record.block = .columnar block → block.Holds arrays (readRows arrays record)
  kinds : ∀ kinds, record.rowKinds = some kinds → kinds.length = readRows arrays record
  stamps : ∀ stamps, record.rowTimestamps = some stamps → stamps.length = readRows arrays record

end conditions

section keeping
variable {ξ : Type} (decisions : List Bool)

theorem kept_cons (item : ξ) (rest : List ξ) (keep : Bool) :
    kept (item::rest) (keep::decisions) = if keep then item::kept rest decisions else kept rest decisions := by
  cases keep <;> rfl

theorem kept_length (items : List ξ) (length : items.length = decisions.length) :
    (kept items decisions).length = decisions.count true := by
  induction items generalizing decisions with
  | nil =>
    rw [length_eq_zero_iff.mp length.symm]
    rfl
  | cons item rest ih =>
    cases decisions with
    | nil => cases length
    | cons keep decisions =>
      rw [kept_cons,count_cons,← ih decisions (Nat.succ.inj length)]
      cases keep <;> rfl

theorem mem_of_kept (items : List ξ) (item : ξ) (inside : item ∈ kept items decisions) : item ∈ items := by
  obtain ⟨pair,member,rfl⟩ := List.mem_map.mp inside
  exact (of_mem_zip (mem_of_mem_filter member)).1

theorem kept_replicate (items : List ξ) (keep : Bool) :
    kept items (List.replicate items.length keep) = if keep then items else [] := by
  induction items with
  | nil => cases keep <;> rfl
  | cons item rest ih =>
    rw [length_cons,replicate_succ,kept_cons,ih]
    cases keep <;> rfl

end keeping

section handing
variable {ops} (function : FilterFunction γ ν α) (batchEnabled passthrough async : Bool)

theorem forM_handedOn (chain : Chain Unit) (records before : List (Record (Block γ ν α))) :
    (forM records (fun out => do
      let out ← (filterTask ops function batchEnabled passthrough async).noted chain out
      handedOn out)) before = .ok ⟨⟩ (before ++ records) := by
  induction records generalizing before with
  | nil => exact congrArg (EStateM.Result.ok PUnit.unit) (append_nil before).symm
  | cons record rest ih =>
    rw [forM_cons]
    refine (ih (before ++ [record])).trans ?_
    rw [append_assoc]
    rfl

theorem collect_handedOn (record : Record (Block γ ν α)) (emitted before : List (Record (Block γ ν α)))
    (emits : (filterTask ops function batchEnabled passthrough async).emissions () record = .ok emitted) :
    (filterTask ops function batchEnabled passthrough async).collect (.operator ()) (some handedOn) record before =
      .ok ⟨⟩ (before ++ emitted) := by
  have valid : (filterTask ops function batchEnabled passthrough async).ops.validateRecord record = none := rfl
  have emits' : (filterTask ops function batchEnabled passthrough async).emissions (Chain.operator ()).root record = .ok emitted := emits
  unfold Operators.collect
  rw [valid]
  dsimp only
  rw [emits']
  exact forM_handedOn function batchEnabled passthrough async (.operator ()) emitted before

theorem forM_collect (records : List (Record (Block γ ν α))) (emitted : List (List (Record (Block γ ν α))))
    (before : List (Record (Block γ ν α)))
    (emits : records.mapM ((filterTask ops function batchEnabled passthrough async).emissions ()) = .ok emitted) :
    (forM records ((filterTask ops function batchEnabled passthrough async).collect (.operator ()) (some handedOn))) before =
      .ok ⟨⟩ (before ++ emitted.flatten) := by
  induction records generalizing emitted before with
  | nil =>
    cases emits
    exact congrArg (EStateM.Result.ok PUnit.unit) (append_nil before).symm
  | cons record rest ih =>
    rw [mapM_cons] at emits
    obtain ⟨first,here,emits⟩ := bind_ok emits
    obtain ⟨others,later,same⟩ := bind_ok emits
    cases same
    have step := collect_handedOn function batchEnabled passthrough async record first before here
    rw [forM_cons,Effects.bind_of_ok _ _ _ _ _ step]
    refine (ih others (before ++ first) later).trans ?_
    rw [append_assoc,flatten_cons]

section
variable (record : Record (Block γ ν α))
include record

theorem filterTask_invoke :
    (filterTask ops function batchEnabled passthrough async).invoke () record = pure (filterElement ops function batchEnabled record) := by
  cases async with
  | false => rfl
  | true =>
    apply congrArg pure
    rw [if_pos rfl]
    unfold filterAsyncElement filterElement
    cases batchEnabled with
    | false =>
      rw [if_pos Bool.false_ne_true,if_pos Bool.false_ne_true]
      cases function.keeps record.block <;> rfl
    | true =>
      rw [if_neg (not_not_intro rfl),if_neg (not_not_intro rfl)]
      cases filterBatch ops record.block (function.decides record.block) <;> rfl

theorem runFilter_ok (records : List (Record (Block γ ν α))) (emitted : List (List (Record (Block γ ν α))))
    (answers : filterElement ops function batchEnabled record = ⟨records,none⟩)
    (emits : records.mapM ((filterTask ops function batchEnabled passthrough async).emissions ()) = .ok emitted) :
    runFilter ops function batchEnabled passthrough async record [] = .ok ⟨⟩ emitted.flatten := by
  have handed := forM_collect function batchEnabled passthrough async records emitted [] emits
  have invoked := @filterTask_invoke _ _ _ _ _ ops function batchEnabled passthrough async record
  rw [answers] at invoked
  unfold runFilter
  cases async with
  | true =>
    rw [if_pos rfl]
    unfold Operators.runnerProcessAsync
    rw [invoked]
    exact handed
  | false =>
    have processed : (filterTask ops function batchEnabled passthrough false).process (.operator ()) (some handedOn) record [] =
        .ok ⟨⟩ emitted.flatten := by
      have invoked' : (filterTask ops function batchEnabled passthrough false).invoke (Chain.operator ()).root record =
        pure ⟨records,none⟩ := invoked
      unfold Operators.process
      rw [invoked']
      have returned : (pure (⟨records,none⟩ : Processed (Block γ ν α)) : EStateM Failure (List (Record (Block γ ν α))) _) [] =
        .ok ⟨records,none⟩ [] := rfl
      exact (Effects.bind_of_ok _ _ _ _ _ returned).trans (Effects.bind_of_ok _ _ _ _ _ handed)
    rw [if_neg Bool.false_ne_true]
    unfold Operators.runnerProcess
    rw [Operators.invokeProcess]
    change EStateM.tryCatch _ _ [] = _
    unfold EStateM.tryCatch
    rw [processed]

theorem runFilter_raises (text : String)
    (answers : filterElement ops function batchEnabled record = ⟨[],some text⟩) :
    runFilter ops function batchEnabled passthrough async record [] = .error (.function text) [] := by
  have invoked := @filterTask_invoke _ _ _ _ _ ops function batchEnabled passthrough async record
  rw [answers] at invoked
  unfold runFilter
  cases async with
  | true =>
    rw [if_pos rfl]
    unfold Operators.runnerProcessAsync
    rw [invoked]
    rfl
  | false =>
    have invoked' : (filterTask ops function batchEnabled passthrough false).invoke (Chain.operator ()).root record =
      pure ⟨[],some text⟩ := invoked
    rw [if_neg Bool.false_ne_true]
    unfold Operators.runnerProcess
    rw [Operators.invokeProcess,Operators.process,invoked']
    rfl

end

end handing

section rows
variable {ops}

theorem tagged_beside {ξ : Type} (inputTag : Option Int) (kind : Option String) (timestamp : Option Int) (cells : List ξ) :
    (tagged inputTag cells (List.replicate cells.length kind) (List.replicate cells.length timestamp)).map TaggedRow.beside =
      cells.map (fun cells => (cells,kind,timestamp)) := by
  induction cells with
  | nil => rfl
  | cons row rest ih =>
    rw [map_cons,← ih]
    rfl

theorem cellsOf_length (arrays : ArrayOps γ ν δ α τ) (record : Record (Block γ ν α)) :
    (cellsOf arrays record).length = readRows arrays record := by
  unfold cellsOf readRows
  cases record.block with
  | row cells kind => rfl
  | columnar block => exact (length_map _).trans length_range

theorem taggedRows_fresh (arrays : ArrayOps γ ν δ α τ) (block : Block γ ν α) (numRows : Option Nat) :
    (taggedRows arrays (Record.fresh block numRows)).map TaggedRow.beside =
      (cellsOf arrays (Record.fresh block numRows)).map (fun cells => (cells,block.rowKind,none)) := by
  rw [← tagged_beside none block.rowKind none,cellsOf_length]
  rfl

section whole
variable {arrays : ArrayOps γ ν δ α τ} (record : Record (Block γ ν α)) (whole : Whole arrays record)
include whole

theorem Whole.kinds_length : (kindsOf arrays record).length = (cellsOf arrays record).length := by
  rw [cellsOf_length]
  unfold kindsOf
  cases kinds : record.rowKinds with
  | none => exact length_replicate
  | some kinds => exact whole.kinds _ (by assumption)

theorem Whole.stamps_length : (stampsOf arrays record).length = (cellsOf arrays record).length := by
  rw [cellsOf_length]
  unfold stampsOf
  cases stamps : record.rowTimestamps with
  | none => exact length_replicate
  | some stamps => exact whole.stamps _ (by assumption)

theorem Whole.cells : (taggedRows arrays record).map TaggedRow.cells = cellsOf arrays record :=
  tagged_cells _ _ _ _ whole.kinds_length whole.stamps_length

theorem Whole.length : (taggedRows arrays record).length = readRows arrays record := by
  have cells := congrArg List.length whole.cells
  rwa [length_map,cellsOf_length] at cells

theorem Whole.fresh_iff : (taggedRows arrays (Record.fresh record.block none)).map TaggedRow.beside =
    (taggedRows arrays record).map TaggedRow.beside ↔
      readRows arrays (Record.fresh record.block none) = readRows arrays record ∧
        ∀ row ∈ taggedRows arrays record, row.kind = record.block.rowKind ∧ row.timestamp = none := by
  rw [taggedRows_fresh]
  constructor
  · intro same
    refine ⟨?_,fun row inside => ?_⟩
    · have length := congrArg List.length same
      rwa [length_map,length_map,cellsOf_length,whole.length] at length
    · have beside := List.mem_map_of_mem (f := TaggedRow.beside) inside
      rw [← same] at beside
      obtain ⟨cells,-,same⟩ := List.mem_map.mp beside
      obtain ⟨-,same⟩ := Prod.mk.inj same
      obtain ⟨kind,timestamp⟩ := Prod.mk.inj same
      exact ⟨kind.symm,timestamp.symm⟩
  · intro ⟨count,bare⟩
    have cells : cellsOf arrays (Record.fresh record.block none) = cellsOf arrays record := by
      unfold readRows at count
      unfold cellsOf
      unfold Record.fresh at count ⊢
      dsimp only at count ⊢
      cases block : record.block with
      | row cells kind => rfl
      | columnar block =>
        simp only [block] at count ⊢
        rw [count]
    rw [cells,← whole.cells,List.map_map]
    refine map_congr_left (fun row inside => ?_)
    obtain ⟨kind,timestamp⟩ := bare row inside
    unfold TaggedRow.beside
    rw [kind,timestamp]
    rfl

end whole

theorem rowsAcross_iff (null : γ) {ι : Type} (items : List ι) (name : ι → String) (distinct : (items.map name).Nodup)
    (reads : ι → List γ) (rows : List (TaggedRow (Dict String γ))) (keys : ∀ row ∈ rows, row.cells.keys = items.map name)
    (full : ∀ item ∈ items, (reads item).length = rows.length) :
    (List.range (if items = [] then 0 else rows.length)).map (fun index =>
        (rowAcross null (items.map (fun item => (name item,reads item))) index,(none : Option String),(none : Option Int))) =
      rows.map TaggedRow.beside ↔
    (∀ row ∈ rows, row.kind = none ∧ row.timestamp = none) ∧ (items = [] → rows = []) ∧
      ∀ item ∈ items, reads item = rows.map (fun row => (row.cells.get? (name item)).getD null) := by
  have entries (index : Nat) : (rowAcross null (items.map (fun item => (name item,reads item))) index).entries =
      items.map (fun item => (name item,((reads item)[index]?).getD null)) := by
    unfold rowAcross
    rw [List.map_map]
    refine congrArg Dict.entries (ofList_entries ⟨items.map (fun item => (name item,((reads item)[index]?).getD null)),?_⟩)
    rw [List.map_map]
    exact distinct
  have found (index : Nat) (item : ι) (inside : item ∈ items) :
      (rowAcross null (items.map (fun item => (name item,reads item))) index).get? (name item) =
        some (((reads item)[index]?).getD null) := by
    rw [Dict.get?_eq_some,entries]
    exact List.mem_map_of_mem (f := fun item => (name item,((reads item)[index]?).getD null)) inside
  have named (index : Nat) : (rowAcross null (items.map (fun item => (name item,reads item))) index).keys = items.map name := by
    unfold Dict.keys
    rw [entries,List.map_map]
    rfl
  constructor
  · intro same
    have counted : items = [] → rows = [] := by
      intro nothing
      rw [if_pos nothing] at same
      exact map_eq_nil_iff.mp same.symm
    have at' (index : Nat) (inside : index < rows.length) :
        (rowAcross null (items.map (fun item => (name item,reads item))) index,none,none) = rows[index].beside := by
      have some' : items ≠ [] := by
        intro nothing
        rw [counted nothing] at inside
        cases inside
      rw [if_neg some'] at same
      have place := congrArg (fun rows => rows[index]?) same
      simpa [inside] using place
    refine ⟨fun row inside => ?_,counted,fun item inside => ?_⟩
    · obtain ⟨index,less,rfl⟩ := getElem_of_mem inside
      obtain ⟨-,same⟩ := Prod.mk.inj (at' index less)
      obtain ⟨kind,timestamp⟩ := Prod.mk.inj same
      exact ⟨kind.symm,timestamp.symm⟩
    · refine ext_getElem (by rw [length_map,full item inside]) (fun index less less' => ?_)
      rw [full item inside] at less
      have cells := (Prod.mk.inj (at' index less)).1
      have value := found index item inside
      rw [cells] at value
      rw [getElem_map,value]
      simp [full item inside,less]
  · intro ⟨bare,counted,columns⟩
    have count : (if items = [] then 0 else rows.length) = rows.length := by
      by_cases nothing : items = []
      · rw [if_pos nothing,counted nothing]
        rfl
      · exact if_neg nothing
    rw [count]
    refine ext_getElem (by simp) (fun index less less' => ?_)
    have inside : index < rows.length := by simpa using less
    obtain ⟨kind,timestamp⟩ := bare rows[index] (getElem_mem inside)
    rw [getElem_map,getElem_map,getElem_range]
    unfold TaggedRow.beside
    rw [kind,timestamp]
    refine congrArg (fun cells => (cells,none,none)) ?_
    refine ext_keys _ _ ((named index).trans (keys _ (getElem_mem inside)).symm) (fun key member => ?_)
    have member' := member
    rw [named] at member
    obtain ⟨item,listed,rfl⟩ := List.mem_map.mp member
    rw [named,← keys _ (getElem_mem inside)] at member'
    obtain ⟨value,present⟩ := (Dict.mem_keys _ _).mp member'
    rw [found index item listed,present,columns item listed]
    simp [inside,present]

end rows

section batches
variable {ops} (lawful : ops.Lawful)

theorem keptValues_ok (values taken : List γ) (decisions : List Bool) :
    keptValues values decisions = .ok taken ↔ values.length = decisions.length ∧ taken = kept values decisions := by
  unfold keptValues
  split
  · exact iff_of_false (fun impossible => by cases impossible) (fun both => by omega)
  · split
    · exact iff_of_false (fun impossible => by cases impossible) (fun both => by omega)
    · rw [Except.ok.injEq]
      exact ⟨fun same => ⟨by omega,same.symm⟩,fun both => both.2.symm⟩

theorem filteredColumn_ok (decisions : List Bool) (item : String × Except String (List γ)) (column : String × Column γ ν α) :
    (do
      let values ← item.2
      let values ← keptValues values decisions
      let array ← createPossiblyRaggedNdarray ops.toArrayOps values
      return (item.1,(Column.ndarray array : Column γ ν α))) = (.ok column : Except String _) ↔
    ∃ values array, item.2 = .ok values ∧ values.length = decisions.length ∧
      createPossiblyRaggedNdarray ops.toArrayOps (kept values decisions) = .ok array ∧ column = (item.1,.ndarray array) := by
  constructor
  · intro done
    obtain ⟨values,iterated,done⟩ := bind_ok done
    obtain ⟨taken,zipped,done⟩ := bind_ok done
    obtain ⟨array,made,same⟩ := bind_ok done
    obtain ⟨length,rfl⟩ := (keptValues_ok values taken decisions).mp zipped
    exact ⟨values,array,iterated,length,made,(Except.ok.inj same).symm⟩
  · rintro ⟨values,array,iterated,length,made,rfl⟩
    rw [ok_bind iterated,ok_bind ((keptValues_ok _ _ _).mpr ⟨length,rfl⟩),ok_bind made]
    rfl

include lawful

theorem readsBack_iff (values reads : List γ) : ReadsBack ops values reads ↔
    ∃ array, createPossiblyRaggedNdarray ops.toArrayOps values = .ok array ∧ (ops.items array).map ops.pythonValue = reads := by
  unfold ReadsBack createPossiblyRaggedNdarray
  cases ops.asarray values with
  | error text => exact iff_of_false id (fun ⟨_,impossible,_⟩ => by cases impossible)
  | ok made =>
    cases made with
    | some array => exact ⟨fun same => ⟨array,rfl,same⟩,fun ⟨_,same,reads⟩ => by cases same; exact reads⟩
    | none =>
      refine ⟨fun same => ⟨_,rfl,?_⟩,fun ⟨_,same,reads⟩ => ?_⟩
      · rw [getD_none,lawful.items_createRaggedNdarray]
        exact same
      · cases same
        rw [getD_none,lawful.items_createRaggedNdarray] at reads
        exact reads

theorem created_length (values : List γ) (array : ν) (made : createPossiblyRaggedNdarray ops.toArrayOps values = .ok array) :
    (ops.items array).length = values.length := by
  unfold createPossiblyRaggedNdarray at made
  obtain ⟨tried,numpy,same⟩ := bind_ok made
  cases same
  cases tried with
  | some array => exact lawful.asarray_length values array numpy
  | none => rw [getD_none,lawful.items_createRaggedNdarray]

omit lawful in
theorem itemValues_names (record : Record (Block γ ν α)) (whole : Whole ops.toArrayOps record)
    (items : List (String × Except String (List γ))) (held : record.block.itemValues ops = .ok items) :
    (items.map Prod.fst).Nodup ∧ ∀ row ∈ taggedRows ops.toArrayOps record, row.cells.keys = items.map Prod.fst := by
  have read (row : TaggedRow (Dict String γ)) (inside : row ∈ taggedRows ops.toArrayOps record) :
      row.cells ∈ cellsOf ops.toArrayOps record := by
    rw [← whole.cells]
    exact List.mem_map_of_mem inside
  unfold cellsOf at read
  unfold Block.itemValues at held
  split at held
  next cells kind block =>
    obtain rfl := Except.ok.inj held
    rw [block] at read
    rw [List.map_map]
    refine ⟨cells.distinct,fun row inside => ?_⟩
    rw [mem_singleton.mp (read row inside)]
    unfold Dict.keys Dict.mapValues
    rw [List.map_map]
    rfl
  next columns block =>
    obtain rfl := Except.ok.inj held
    rw [block] at read
    rw [List.map_map]
    refine ⟨columns.distinct,fun row inside => ?_⟩
    obtain ⟨index,-,same⟩ := List.mem_map.mp (read row inside)
    rw [← same]
    unfold ColumnarBlock.rowDict Dict.keys Dict.mapValues
    rw [List.map_map]
    rfl
  · cases held

theorem emitted_rows (function : FilterFunction γ ν α) (passthrough async : Bool) (columns : Dict String (Column γ ν α))
    (valid : ∀ column ∈ columns.values, ∃ array, column = .ndarray array) :
    ∃ emitted, (filterTask ops function true passthrough async).emissions () (Record.fresh (.columnar (.mapping columns)) none) =
        .ok emitted ∧
      (emitted.flatMap (taggedRows ops.toArrayOps)).map TaggedRow.beside =
        (List.range ((ColumnarBlock.mapping columns).numRows ops.toArrayOps)).map (fun index =>
          ((ColumnarBlock.mapping columns).rowDict ops.toArrayOps index,none,none)) := by
  have checked : (Block.columnar (.mapping columns)).validColumns ops = true := by
    refine List.all_eq_true.mpr (fun column inside => ?_)
    obtain ⟨array,rfl⟩ := valid column inside
    rfl
  generalize rows : (ColumnarBlock.mapping columns).numRows ops.toArrayOps = count
  have counted : (filterTask ops function true passthrough async).ops.numRows (.columnar (.mapping columns)) = count := rows
  have validated : (filterTask ops function true passthrough async).ops.validateColumns (.columnar (.mapping columns)) = none :=
    if_pos checked
  have row (index : Nat) : (taggedRows ops.toArrayOps (Record.fresh ((filterTask ops function true passthrough async).ops.rowBlock
      (.columnar (.mapping columns)) index none) none)).map TaggedRow.beside =
        [((ColumnarBlock.mapping columns).rowDict ops.toArrayOps index,none,none)] := by
    rw [taggedRows_fresh]
    exact congrArg (fun cells => [(cells,none,none)]) (plain_rowDict lawful.toLawful (.mapping columns) index)
  have enabled : ¬ ¬ (filterTask ops function true passthrough async).batchEnabled () = true := not_not_intro rfl
  unfold Operators.emissions
  rw [if_neg enabled]
  unfold Record.fresh at row ⊢
  dsimp only
  rw [validated,counted]
  cases passthrough with
  | true =>
    have passes : (filterTask ops function true true async).columnarPassthrough = true := rfl
    rw [if_pos passes]
    dsimp only
    by_cases some' : 0 < count
    · rw [if_pos some']
      refine ⟨_,rfl,?_⟩
      rw [flatMap_cons,flatMap_nil,append_nil]
      exact (taggedRows_fresh ops.toArrayOps (.columnar (.mapping columns)) (some count)).trans (List.map_map ..)
    · rw [if_neg some',Nat.eq_zero_of_not_pos some']
      exact ⟨_,rfl,rfl⟩
  | false =>
    have explodes : ¬ (filterTask ops function true false async).columnarPassthrough = true := Bool.false_ne_true
    rw [if_neg explodes]
    refine ⟨_,rfl,?_⟩
    rw [flatMap_map,map_flatMap,map_eq_flatMap]
    exact flatMap_congr (fun index _ => row index)

omit lawful in
variable (ops) in
def madeOf (decisions : List Bool) (item : String × Except String (List γ)) : List γ :=
  match item.2 with
  | .error _ => []
  | .ok values =>
    match createPossiblyRaggedNdarray ops.toArrayOps (kept values decisions) with
    | .error _ => []
    | .ok array => (ops.items array).map ops.pythonValue

omit lawful in
theorem filterBatch_made (data : Block γ ν α) (decisions : List Bool) (items : List (String × Except String (List γ)))
    (held : data.itemValues ops = .ok items) (distinct : (items.map Prod.fst).Nodup) (filtered : Record (Block γ ν α))
    (done : filterBatch ops data decisions = .ok filtered) :
    ∃ columns, filtered = Record.fresh (.columnar (.mapping columns)) none ∧
      (∀ column ∈ columns.values, ∃ array, column = .ndarray array) ∧
      (ColumnarBlock.mapping columns).columnValues ops.toArrayOps = items.map (fun item => (item.1,madeOf ops decisions item)) ∧
      ∀ item ∈ items, ∃ values array, item.2 = .ok values ∧ values.length = decisions.length ∧
        createPossiblyRaggedNdarray ops.toArrayOps (kept values decisions) = .ok array := by
  unfold filterBatch at done
  rw [ok_bind held] at done
  obtain ⟨made,each,same⟩ := bind_ok done
  obtain rfl := Except.ok.inj same
  have names : made.map Prod.fst = items.map Prod.fst := by
    refine map_of_mapM_ok items _ Prod.fst Prod.fst (fun item column step => ?_) made each
    obtain ⟨values,array,-,-,-,rfl⟩ := (filteredColumn_ok decisions item column).mp step
    rfl
  have entries : (Dict.ofList made).entries = made :=
    congrArg Dict.entries (ofList_entries ⟨made,by rw [names]; exact distinct⟩)
  refine ⟨Dict.ofList made,rfl,fun column inside => ?_,?_,fun item inside => ?_⟩
  · unfold Dict.values at inside
    rw [entries] at inside
    obtain ⟨entry,member,rfl⟩ := List.mem_map.mp inside
    obtain ⟨item,-,step⟩ := mem_of_mapM_ok items _ made each entry member
    obtain ⟨values,array,-,-,-,rfl⟩ := (filteredColumn_ok decisions item entry).mp step
    exact ⟨array,rfl⟩
  · unfold ColumnarBlock.columnValues
    dsimp only
    rw [entries]
    refine map_of_mapM_ok items _ _ _ (fun item column step => ?_) made each
    obtain ⟨values,array,iterated,-,created,rfl⟩ := (filteredColumn_ok decisions item column).mp step
    unfold madeOf
    rw [iterated]
    dsimp only
    rw [created]
    rfl
  · obtain ⟨column,step⟩ := of_mapM_ok items _ made each item inside
    obtain ⟨values,array,iterated,length,created,-⟩ := (filteredColumn_ok decisions item column).mp step
    exact ⟨values,array,iterated,length,created⟩

omit lawful in
theorem filterBatch_ok (data : Block γ ν α) (decisions : List Bool) (items : List (String × Except String (List γ)))
    (held : data.itemValues ops = .ok items)
    (each : ∀ item ∈ items, ∃ values array, item.2 = .ok values ∧ values.length = decisions.length ∧
      createPossiblyRaggedNdarray ops.toArrayOps (kept values decisions) = .ok array) :
    ∃ filtered, filterBatch ops data decisions = .ok filtered := by
  obtain ⟨made,done,-⟩ := mapM_ok items _ (fun item inside => by
    obtain ⟨values,array,iterated,length,created⟩ := each item inside
    exact ⟨_,(filteredColumn_ok (ν := ν) (α := α) decisions item _).mpr ⟨values,array,iterated,length,created,rfl⟩⟩)
  unfold filterBatch
  rw [ok_bind held,ok_bind done]
  exact ⟨_,rfl⟩

omit lawful in
theorem numRows_mapping (columns : Dict String (Column γ ν α)) : (ColumnarBlock.mapping columns).numRows ops.toArrayOps =
    ((((ColumnarBlock.mapping columns).columnValues ops.toArrayOps).head?).map (fun column => column.2.length)).getD 0 := by
  unfold ColumnarBlock.numRows ColumnarBlock.columnValues Dict.values
  dsimp only
  cases columns.entries with
  | nil => rfl
  | cons entry rest =>
    exact (length_map _).symm

omit lawful in
theorem madeOf_eq (decisions : List Bool) (item : String × Except String (List γ)) (values : List γ) (array : ν)
    (iterated : item.2 = .ok values)
    (created : createPossiblyRaggedNdarray ops.toArrayOps (kept values decisions) = .ok array) :
    madeOf ops decisions item = (ops.items array).map ops.pythonValue := by
  unfold madeOf
  rw [iterated]
  dsimp only
  rw [created]

section
variable (function : FilterFunction γ ν α) (passthrough async : Bool) (record : Record (Block γ ν α))
  (whole : Whole ops.toArrayOps record)
  (decided : (function.decides record.block).length = readRows ops.toArrayOps record)
include passthrough async whole decided

theorem filtered_rows_iff
    (items : List (String × Except String (List γ))) (held : record.block.itemValues ops = .ok items)
    (filtered : Record (Block γ ν α)) (done : filterBatch ops record.block (function.decides record.block) = .ok filtered) :
    ∃ handed, runFilter ops function true passthrough async record [] = .ok ⟨⟩ handed ∧
      ((handed.flatMap (taggedRows ops.toArrayOps)).map TaggedRow.beside =
        (kept (taggedRows ops.toArrayOps record) (function.decides record.block)).map TaggedRow.beside ↔
          BatchKeeps ops record (function.decides record.block) items) := by
  have answers : filterElement ops function true record = ⟨[filtered],none⟩ := by
    unfold filterElement
    rw [if_neg (not_not_intro rfl),done]
  generalize decisions' : function.decides record.block = decisions at decided done ⊢
  obtain ⟨distinct,keys⟩ := itemValues_names record whole items held
  obtain ⟨columns,rfl,valid,values,each⟩ := filterBatch_made record.block decisions items held distinct filtered done
  obtain ⟨emitted,emits,rows⟩ := emitted_rows lawful function passthrough async columns valid
  have count : (kept (taggedRows ops.toArrayOps record) decisions).length = decisions.count true :=
    kept_length decisions _ (whole.length.trans decided.symm)
  have full (item : String × Except String (List γ)) (inside : item ∈ items) :
      (madeOf ops decisions item).length = (kept (taggedRows ops.toArrayOps record) decisions).length := by
    obtain ⟨values,array,iterated,length,created⟩ := each item inside
    rw [madeOf_eq decisions item values array iterated created,length_map,created_length lawful _ array created,
      kept_length decisions values length,count]
  have counted : (ColumnarBlock.mapping columns).numRows ops.toArrayOps =
      if items = [] then 0 else (kept (taggedRows ops.toArrayOps record) decisions).length := by
    rw [numRows_mapping,values]
    cases items with
    | nil => rfl
    | cons item rest => exact full item mem_cons_self
  refine ⟨emitted,?_,?_⟩
  · have mapped : [Record.fresh (Block.columnar (.mapping columns)) none].mapM
        ((filterTask ops function true passthrough async).emissions ()) = .ok [emitted] := by
      rw [mapM_cons,emits]
      rfl
    exact (runFilter_ok function true passthrough async record _ _ answers mapped).trans
      (congrArg (EStateM.Result.ok PUnit.unit) (append_nil emitted))
  · have across (index : Nat) : (ColumnarBlock.mapping columns).rowDict ops.toArrayOps index =
        rowAcross ops.null (items.map (fun item => (item.1,madeOf ops decisions item))) index := by
      rw [ColumnarBlock.rowDict_eq,values]
    simp only [across] at rows
    rw [rows,counted,rowsAcross_iff ops.null items Prod.fst distinct (madeOf ops decisions) _
      (fun row inside => keys row (mem_of_kept decisions _ row inside)) full]
    constructor
    · intro ⟨bare,none',same⟩
      refine ⟨bare,none',fun item inside => ?_⟩
      obtain ⟨values,array,iterated,length,created⟩ := each item inside
      refine ⟨values,iterated,length,(readsBack_iff lawful _ _).mpr ⟨array,created,?_⟩⟩
      rw [← madeOf_eq decisions item values array iterated created]
      exact same item inside
    · intro keeps
      refine ⟨keeps.bare,keeps.counted,fun item inside => ?_⟩
      obtain ⟨values,iterated,-,reads⟩ := keeps.reads item inside
      obtain ⟨array,created,same⟩ := (readsBack_iff lawful _ _).mp reads
      exact (madeOf_eq decisions item values array iterated created).trans same

theorem filtered_batch_iff :
    (∃ handed, runFilter ops function true passthrough async record [] = .ok ⟨⟩ handed ∧
      (handed.flatMap (taggedRows ops.toArrayOps)).map TaggedRow.beside =
        (kept (taggedRows ops.toArrayOps record) (function.decides record.block)).map TaggedRow.beside) ↔
    ∃ items, record.block.itemValues ops = .ok items ∧ BatchKeeps ops record (function.decides record.block) items := by
  constructor
  · intro ⟨handed,ran,same⟩
    cases done : filterBatch ops record.block (function.decides record.block) with
    | error text =>
      have answers : filterElement ops function true record = ⟨[],some text⟩ := by
        unfold filterElement
        rw [if_neg (not_not_intro rfl),done]
      rw [runFilter_raises function true passthrough async record text answers] at ran
      cases ran
    | ok filtered =>
      obtain ⟨items,held,-⟩ := bind_ok done
      obtain ⟨handed',ran',iff⟩ := filtered_rows_iff lawful function passthrough async record whole decided items held filtered done
      rw [ran] at ran'
      cases ran'
      exact ⟨items,held,iff.mp same⟩
  · intro ⟨items,held,keeps⟩
    obtain ⟨filtered,done⟩ := filterBatch_ok record.block (function.decides record.block) items held (fun item inside => by
      obtain ⟨values,iterated,length,reads⟩ := keeps.reads item inside
      obtain ⟨array,created,-⟩ := (readsBack_iff lawful _ _).mp reads
      exact ⟨values,array,iterated,length,created⟩)
    obtain ⟨handed,ran,iff⟩ := filtered_rows_iff lawful function passthrough async record whole decided items held filtered done
    exact ⟨handed,ran,iff.mpr keeps⟩

end

end batches

theorem filtered_row_iff (function : FilterFunction γ ν α) (passthrough async : Bool) (record : Record (Block γ ν α))
    (whole : Whole ops.toArrayOps record) :
    (∃ handed, runFilter ops function false passthrough async record [] = .ok ⟨⟩ handed ∧
      (handed.flatMap (taggedRows ops.toArrayOps)).map TaggedRow.beside =
        (kept (taggedRows ops.toArrayOps record) (List.replicate (readRows ops.toArrayOps record) (function.keeps record.block))).map
          TaggedRow.beside) ↔ RowKeeps ops record (function.keeps record.block) := by
  have ran : runFilter ops function false passthrough async record [] =
      .ok ⟨⟩ (if function.keeps record.block then [Record.fresh record.block none] else []) := by
    cases keep : function.keeps record.block with
    | false =>
      have answers : filterElement ops function false record = ⟨[],none⟩ := by
        unfold filterElement
        rw [if_pos Bool.false_ne_true,keep,if_neg Bool.false_ne_true]
      exact runFilter_ok function false passthrough async record [] [] answers rfl
    | true =>
      have answers : filterElement ops function false record = ⟨[Record.fresh record.block none],none⟩ := by
        unfold filterElement
        rw [if_pos Bool.false_ne_true,keep,if_pos rfl]
      exact runFilter_ok function false passthrough async record _ [[Record.fresh record.block none]] answers rfl
  have all := kept_replicate (taggedRows ops.toArrayOps record) (function.keeps record.block)
  rw [whole.length] at all
  rw [ran,all]
  unfold RowKeeps
  cases function.keeps record.block with
  | false => exact iff_of_true ⟨_,rfl,rfl⟩ (fun impossible => absurd impossible Bool.false_ne_true)
  | true =>
    rw [forall_prop_of_true rfl,← whole.fresh_iff,if_pos rfl,if_pos rfl]
    constructor
    · intro ⟨handed,same,rows⟩
      cases same
      rwa [flatMap_cons,flatMap_nil,append_nil] at rows
    · intro rows
      exact ⟨_,rfl,by rwa [flatMap_cons,flatMap_nil,append_nil]⟩

/-- A filter hands on the rows that its function keeps, as they are, exactly when they
carry nothing beside their columns and NumPy reads the values of each column back. -/
theorem filter_selects_iff (lawful : ops.Lawful) (function : FilterFunction γ ν α) (batchEnabled passthrough async : Bool)
    (record : Record (Block γ ν α)) (whole : Whole ops.toArrayOps record)
    (decided : (rowDecisions ops function batchEnabled record).length = readRows ops.toArrayOps record) :
    (∃ handed, runFilter ops function batchEnabled passthrough async record [] = .ok ⟨⟩ handed ∧
      (handed.flatMap (taggedRows ops.toArrayOps)).map TaggedRow.beside =
        (kept (taggedRows ops.toArrayOps record) (rowDecisions ops function batchEnabled record)).map TaggedRow.beside) ↔
    Selects ops function batchEnabled record := by
  cases batchEnabled with
  | false => exact filtered_row_iff ops function passthrough async record whole
  | true => exact filtered_batch_iff lawful function passthrough async record whole decided

section runs

def objectFilter (null : γ) : FilterOps γ (List γ) Unit (List γ) Unit := {objectArrays null with
  iterate := fun _ => .error "TypeError: object is not iterable"
  scalars := id
  validValue := fun _ => false
  validOther := fun _ => true}

theorem objectFilter_lawful (null : γ) : (objectFilter null).Lawful := {objectArrays_lawful null with
  asarray_length := fun _ _ made => by cases made; rfl
  scalars_read := fun _ => List.map_id _}

def numberBatch (rowKinds : Option (List (Option String))) : Record (Block Nat (List Nat) (List Nat)) :=
  ⟨.columnar (.mapping (Dict.ofList [("a",.ndarray [1,2])])),some 2,none,rowKinds,none,none⟩

def deciding (decisions : List Bool) : FilterFunction Nat (List Nat) (List Nat) := ⟨fun _ => true,fun _ => decisions⟩

theorem numberBatch_whole (rowKinds : Option (List (Option String))) (two : ∀ kinds, rowKinds = some kinds → kinds.length = 2) :
    Whole (objectFilter 0).toArrayOps (numberBatch rowKinds) where
  held := fun block same => by
    cases same
    intro column inside
    rw [mem_singleton.mp inside]
    rfl
  kinds := two
  stamps := fun _ same => by cases same

/-- The first of two rows without kinds and timestamps. -/
theorem filter_first_row : ∃ handed, runFilter (objectFilter 0) (deciding [true,false]) true true false (numberBatch none) [] =
      .ok ⟨⟩ handed ∧
    (handed.flatMap (taggedRows (objectFilter 0).toArrayOps)).map TaggedRow.beside =
      (kept (taggedRows (objectFilter 0).toArrayOps (numberBatch none)) (rowDecisions (objectFilter 0) (deciding [true,false]) true
        (numberBatch none))).map TaggedRow.beside := by
  apply (filter_selects_iff (objectFilter 0) (objectFilter_lawful 0) (deciding [true,false]) true true false (numberBatch none)
    (numberBatch_whole none (fun _ same => by cases same)) rfl).mpr
  refine ⟨[("a",.ok [1,2])],rfl,⟨by decide +kernel,by decide +kernel,?_⟩⟩
  intro item inside
  rw [mem_singleton.mp inside]
  refine ⟨[1,2],rfl,rfl,?_⟩
  change List.map id [1] = _
  decide +kernel

/-- A row that is kept is no longer a deletion. -/
theorem filter_drops_kinds : ∃ handed,
    runFilter (objectFilter 0) (deciding [true,true]) true true false (numberBatch (some [some "-D",some "+I"])) [] = .ok ⟨⟩ handed ∧
    (handed.flatMap (taggedRows (objectFilter 0).toArrayOps)).map TaggedRow.beside ≠
      (kept (taggedRows (objectFilter 0).toArrayOps (numberBatch (some [some "-D",some "+I"])))
        (rowDecisions (objectFilter 0) (deciding [true,true]) true (numberBatch (some [some "-D",some "+I"])))).map TaggedRow.beside :=
  ⟨_,rfl,by decide +kernel⟩

end runs
end Klein.Dataflow
