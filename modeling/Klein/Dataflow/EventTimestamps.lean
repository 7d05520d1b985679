import Klein.Dataflow.Rows
import Klein.EventTime.WindowOperator
import Klein.Runs

/-! Event timestamps on their way from `assign_timestamps_and_watermarks` to a window
operator (`watermark_operator.py`, `map_operator.py`, `flat_map_operator.py`,
`key_by_operator.py`, `union_operator.py`), over tasks that batch, chain, route and
pack as they like. Controls only force batches out, which a flush does at any time. -/
namespace Klein.Dataflow
open Effects Function List

/-- A row with two ghosts: the timestamp that was assigned to the input row that it is
derived from, and the operators passed since. -/
structure Traced (ρ ι : Type) where
  value : ρ
  origin : Option Nat
  passed : List ι
deriving DecidableEq

abbrev Derived (ρ : Type) := Option Nat × ρ

/-- What an operator runs. A function sees the rows of a block; with batches it returns
whole blocks. -/
inductive Transform (ρ : Type) where
  | source
  | watermark (timestampAssigner : List ρ → Except String Nat)
  | map (row : List ρ → Except String (Derived ρ)) (batch : List ρ → Except String (List (Derived ρ)))
  | flatMap (rows : List ρ → List (Derived ρ) × Option String)
      (batches : List ρ → List (List (Derived ρ)) × Option String)
  | keyBy
  | union

def Transform.functionless {ρ : Type} : Transform ρ → Bool
  | .watermark _ => true
  | .keyBy => true
  | _ => false

structure Stage (ρ : Type) where
  transform : Transform ρ
  runtimeInfo : RuntimeInfo
  asyncEnabled : Bool
  functionless : transform.functionless = true → runtimeInfo.batchSize = none ∧ asyncEnabled = false

namespace Stage
variable {ρ ι : Type} (stage : Stage ρ)

def batchEnabled : Bool := stage.runtimeInfo.batchSize.isSome

def passesOn : Bool :=
  match stage.transform with
  | .keyBy => ¬ stage.batchEnabled
  | .union => ¬ stage.batchEnabled
  | _ => false

def derive (operator : ι) (block : List (Traced ρ ι)) (row : Derived ρ) : Traced ρ ι :=
  match row.1.bind (fun index => block[index]?) with
  | some source => ⟨row.2,source.origin,source.passed ++ [operator]⟩
  | none => ⟨row.2,none,[operator]⟩

def pass (operator : ι) (row : Traced ρ ι) : Traced ρ ι := {row with passed := row.passed ++ [operator]}

/-- `process_element` of the operator of a stage -/
def processElement (operator : ι) (record : Record (List (Traced ρ ι))) : Processed (List (Traced ρ ι)) :=
  let values := record.block.map Traced.value
  match stage.transform with
  | .source => ⟨[],none⟩
  | .watermark timestampAssigner =>
    match timestampAssigner values with
    | .error text => ⟨[],some text⟩
    | .ok timestamp => ⟨[{record with
        block := record.block.map (fun row => ⟨row.value,some timestamp,[]⟩)
        timestamp := some timestamp}],none⟩
  | .map row batch =>
    match if stage.batchEnabled then batch values else (row values).map (fun result => [result]) with
    | .error text => ⟨[],some text⟩
    | .ok rows => ⟨[Record.fresh (rows.map (derive operator record.block)) none],none⟩
  | .flatMap rows batches =>
    let results := if stage.batchEnabled then batches values else ((rows values).1.map (fun result => [result]),(rows values).2)
    ⟨results.1.map (fun rows => Record.fresh (rows.map (derive operator record.block)) none),results.2⟩
  | .keyBy => ⟨[{record with block := record.block.map (pass operator)}],none⟩
  | .union => ⟨[{record with block := record.block.map (pass operator)}],none⟩

end Stage

/-- The windows of a record (`process_managed_element`) when the operator has no
timestamp selector of its own. -/
def windowsOf (assigner : EventTime.WindowAssigner) (timestamp : Option Int) : Except String (List EventTime.TimeWindow) :=
  match timestamp with
  | none => .error ("window timestamp_selector must return a non-negative integer, " ++
      "or event time must be assigned upstream")
  | some timestamp =>
    if timestamp < 0 then .error ("window timestamp_selector must return a non-negative integer, " ++
      "or event time must be assigned upstream")
    else .ok (assigner.assignWindows timestamp)

inductive TaskRole (ι : Type) where
  | operators (chain : Chain ι)
  | window

/-- Tasks `τ` that run operators `ι` and the edges between them. -/
structure Network (π τ ι ρ : Type) where
  traits : BlockTraits (Traced ρ ι)
  stage : ι → Stage ρ
  role : τ → TaskRole ι
  edges : τ → List (EdgeSettings π (List (Traced ρ ι)))
  target : τ → Nat → Nat → τ
  cursor : τ → Nat → π
  outcomes : τ → Nat → List (Option String)
  inputBytes : Option Nat
  columnarPassthrough : Bool
  arrowTransport : Bool
  ignoreExceptions : Bool

abbrev TaskEdges (π ι ρ : Type) := Nat → EdgeOutput π (List (Traced ρ ι)) Unit

/-- `queues` are the commands of each edge that left the executor. -/
structure PlaneTask (π ι ρ : Type) where
  inbox : List (Record (List (Traced ρ ι)))
  accumulator : InputBatchAccumulator (List (Traced ρ ι))
  edges : TaskEdges π ι ρ
  queues : Nat → List (EdgeCommand (List (Traced ρ ι)) Unit)

/-- `delivered` are the rows that window operators have processed, with their timestamps. -/
structure PlaneState (π τ ι ρ : Type) where
  tasks : τ → PlaneTask π ι ρ
  delivered : List (Traced ρ ι × Option Int)

namespace Network
variable {π τ ι ρ : Type} (net : Network π τ ι ρ)

def unbatchedInfo : RuntimeInfo := ⟨none,none,nofun,nofun,nofun⟩

def runtimeInfo (task : τ) : RuntimeInfo :=
  match net.role task with
  | .operators chain => (net.stage chain.root).runtimeInfo
  | .window => unbatchedInfo

def initial : PlaneState π τ ι ρ where
  tasks := fun task => {
    inbox := []
    accumulator := ⟨net.runtimeInfo task,net.inputBytes,[],0,0,none⟩
    edges := fun index => EdgeOutput.init (net.cursor task index) (net.outcomes task index)
    queues := fun _ => []}
  delivered := []

def plane : Operators (TaskEdges π ι ρ) ι (List (Traced ρ ι)) where
  ops := (rowOps net.traits).toColumnOps
  invoke := fun operator record => pure ((net.stage operator).processElement operator record)
  batchEnabled := fun operator => (net.stage operator).batchEnabled
  columnarPassthrough := net.columnarPassthrough
  ignoreExceptions := net.ignoreExceptions
  noted := fun _ record => pure record

def acceptOn (index : Nat) (settings : EdgeSettings π (List (Traced ρ ι))) (record : Record (List (Traced ρ ι))) :
    EStateM Failure (TaskEdges π ι ρ) PUnit := fun edges =>
  match EdgeOutput.accept (rowOps net.traits).toRouteOps settings (.record record) (edges index) with
  | .ok _ edge => .ok ⟨⟩ (Function.update edges index edge)
  | .error text edge => .error (.emission text) (Function.update edges index edge)

/-- `TaskOutput.collect` -/
def collectFrom (record : Record (List (Traced ρ ι))) : Nat → List (EdgeSettings π (List (Traced ρ ι))) →
    EStateM Failure (TaskEdges π ι ρ) PUnit
  | _,[] => pure ⟨⟩
  | index,settings::rest => do
    net.acceptOn index settings record
    collectFrom record (index + 1) rest

def output (task : τ) (record : Record (List (Traced ρ ι))) : EStateM Failure (TaskEdges π ι ρ) PUnit :=
  net.collectFrom record 0 (net.edges task)

def processRecord (task : τ) (chain : Chain ι) (record : Record (List (Traced ρ ι))) :
    EStateM Failure (TaskEdges π ι ρ) PUnit :=
  match chain with
  | .operator operator =>
    if (net.stage operator).asyncEnabled then net.plane.runnerProcessAsync (some (net.output task)) operator record
    else net.plane.runnerProcess (some (net.output task)) (.operator operator) record
  | .chained root succeeding => net.plane.runnerProcess (some (net.output task)) (.chained root succeeding) record

def edgesAfter {α : Type} : EStateM.Result Failure (TaskEdges π ι ρ) α → TaskEdges π ι ρ
  | .ok _ edges => edges
  | .error _ edges => edges

section steps
variable [DecidableEq τ] (s : PlaneState π τ ι ρ)

def setTask (task : τ) (next : PlaneTask π ι ρ) : PlaneState π τ ι ρ := {s with tasks := Function.update s.tasks task next}

def run (task : τ) (body : EStateM Failure (TaskEdges π ι ρ) PUnit) : PlaneState π τ ι ρ :=
  setTask s task {s.tasks task with edges := edgesAfter (body (s.tasks task).edges)}

def arrivals (records : List (Record (List (Traced ρ ι)))) : List (Traced ρ ι × Option Int) :=
  records.flatMap (fun record => record.block.map (fun row => (row,record.timestamp)))

def process (task : τ) (records : List (Record (List (Traced ρ ι)))) : PlaneState π τ ι ρ :=
  match net.role task with
  | .operators chain => run s task (forM records (net.processRecord task chain))
  | .window => {s with delivered := s.delivered ++ arrivals records}

def dataOf (inputs : List (TaskInput (List (Traced ρ ι)))) : List (Record (List (Traced ρ ι))) :=
  inputs.filterMap fun
    | .data record => some record
    | .control => none

def untraced (value : ρ) : Traced ρ ι := ⟨value,none,[]⟩

inductive Label (τ ρ : Type) where
  | emitRow (task : τ) (value : ρ)
  | emitColumns (task : τ) (values : List ρ)
  | consume (task : τ) (now later : Int)
  | flushInput (task : τ) (force : Bool) (now later : Int)
  | flushOutput (task : τ) (edge : Nat) (force : Bool) (idle : Nat → Bool)
  | drain (task : τ) (edge : Nat)
  | send (task : τ) (edge position actual : Nat)

def step : Label τ ρ → Option (PlaneState π τ ι ρ)
  | .emitRow task value =>
    match net.role task with
    | .operators chain =>
      some (run s task (net.plane.sourceCollect (some (net.output task)) chain (Record.fresh [untraced value] none)))
    | .window => none
  | .emitColumns task values =>
    -- rows are shipped together at the boundary of a task only
    match net.role task with
    | .operators (.operator source) => some (run s task
        (net.plane.sourceCollect (some (net.output task)) (.operator source)
          (Record.fresh (values.map untraced) (some values.length))))
    | _ => none
  | .consume task now later =>
    match (s.tasks task).inbox with
    | [] => none
    | record::rest =>
      match (s.tasks task).accumulator.accept (rowOps net.traits).toBlockOps (.data record) now later with
      | .error _ => none
      | .ok (emitted,accumulator) => some (net.process (setTask s task {s.tasks task with
          inbox := rest
          accumulator := accumulator}) task (dataOf emitted))
  | .flushInput task force now later =>
    match (s.tasks task).accumulator.flush (rowOps net.traits).toBlockOps force now later with
    | .error _ => none
    | .ok (emitted,accumulator) =>
      some (net.process (setTask s task {s.tasks task with accumulator := accumulator}) task emitted)
  | .flushOutput task edge force idle =>
    match (net.edges task)[edge]? with
    | none => none
    | some settings =>
      match EdgeOutput.flush (rowOps net.traits).toRouteOps settings force idle ((s.tasks task).edges edge) with
      | .ok _ next => some (setTask s task {s.tasks task with edges := Function.update (s.tasks task).edges edge next})
      | .error _ next => some (setTask s task {s.tasks task with edges := Function.update (s.tasks task).edges edge next})
  | .drain task edge =>
    -- what inline sends have delivered counts as queued as well
    match EdgeOutput.takePendingCommands (rowOps net.traits).toRouteOps ((s.tasks task).edges edge) with
    | .error _ _ => none
    | .ok commands next => some (setTask s task {s.tasks task with
        edges := Function.update (s.tasks task).edges edge {next with sent := []}
        queues := Function.update (s.tasks task).queues edge ((s.tasks task).queues edge ++ commands ++ next.sent)})
  | .send task edge position actual =>
    match ((s.tasks task).queues edge)[position]? with
    | some (.data _ ring records) =>
      if actual ∉ ring then none
      else
        match (rowOps net.traits).prepareWireRecords net.arrowTransport records with
        | .error _ => none
        | .ok packed =>
          let sent := setTask s task {s.tasks task with
            queues := Function.update (s.tasks task).queues edge (((s.tasks task).queues edge).eraseIdx position)}
          let receiver := net.target task edge actual
          some (setTask sent receiver {sent.tasks receiver with inbox := (sent.tasks receiver).inbox ++ packed})
    | _ => none

end steps

def Truthful (row : Traced ρ ι) (timestamp : Option Int) : Prop :=
  ∀ time, row.origin = some time →
    timestamp = if row.passed.all (fun operator => (net.stage operator).passesOn) then some (time : Int) else none

structure Ready (record : Record (List (Traced ρ ι))) : Prop where
  stamped : Stamped net.Truthful record
  single : record.rowTimestamps = none

theorem Ready.fresh (block : List (Traced ρ ι)) (numRows : Option Nat) (length : block.length = numRows.getD 1)
    (lost : ∀ row ∈ block, ∀ time, row.origin = some time →
      ¬ row.passed.all (fun operator => (net.stage operator).passesOn)) : net.Ready (Record.fresh block numRows) := by
  refine ⟨Stamped.single _ _ rfl length (fun row inside time derived => ?_),rfl⟩
  rw [if_neg (lost row inside time derived)]
  rfl

theorem derive_lost (operator : ι) (stops : (net.stage operator).passesOn = false) (block : List (Traced ρ ι))
    (row : Derived ρ) (time : Nat) (derived : (Stage.derive operator block row).origin = some time) :
    ¬ (Stage.derive operator block row).passed.all (fun operator => (net.stage operator).passesOn) := by
  unfold Stage.derive at derived ⊢
  split at derived
  · simp [stops]
  · cases derived

theorem pass_truthful (operator : ι) (row : Traced ρ ι) (timestamp : Option Int) (truthful : net.Truthful row timestamp)
    (passes : (net.stage operator).passesOn = true) : net.Truthful (Stage.pass operator row) timestamp := by
  intro time derived
  rw [truthful time derived]
  simp [Stage.pass,passes]

theorem Ready.mapped (record : Record (List (Traced ρ ι))) (ready : net.Ready record) (change : Traced ρ ι → Traced ρ ι)
    (timestamp : Option Int) (truthful : ∀ row ∈ record.block, net.Truthful (change row) timestamp) :
    net.Ready {record with
      block := record.block.map change
      timestamp := timestamp} := by
  refine ⟨Stamped.single _ _ ready.single ?_ ?_,ready.single⟩
  · dsimp only
    rw [length_map]
    exact ready.stamped.length
  · intro row inside
    obtain ⟨source,within,rfl⟩ := List.mem_map.mp inside
    exact truthful source within

theorem processElement_stopped (operator : ι) (batched : (net.stage operator).batchEnabled = true)
    (record : Record (List (Traced ρ ι))) :
    ∀ out ∈ ((net.stage operator).processElement operator record).records, ∀ row ∈ out.block, ∀ time,
      row.origin = some time → ¬ row.passed.all (fun operator => (net.stage operator).passesOn) := by
  have stops : (net.stage operator).passesOn = false := by
    unfold Stage.passesOn
    split <;> simp [batched]
  have functionless := (net.stage operator).functionless
  intro out inside row here time derived
  unfold Stage.processElement at inside
  dsimp only at inside
  split at inside
  · cases inside
  next assigner transform =>
    have none := (functionless (by rw [transform]; rfl)).1
    simp [Stage.batchEnabled,none] at batched
  next first batch transform =>
    split at inside
    · cases inside
    · obtain rfl := mem_singleton.mp inside
      obtain ⟨source,-,rfl⟩ := List.mem_map.mp here
      exact net.derive_lost operator stops record.block source time derived
  next rows batches transform =>
    obtain ⟨results,-,rfl⟩ := List.mem_map.mp inside
    obtain ⟨source,-,rfl⟩ := List.mem_map.mp here
    exact net.derive_lost operator stops record.block source time derived
  next transform =>
    have none := (functionless (by rw [transform]; rfl)).1
    simp [Stage.batchEnabled,none] at batched
  next transform =>
    obtain rfl := mem_singleton.mp inside
    obtain ⟨source,-,rfl⟩ := List.mem_map.mp here
    simp [Stage.pass,stops]

theorem processElement_ready (operator : ι) (unbatched : (net.stage operator).batchEnabled = false)
    (record : Record (List (Traced ρ ι))) (ready : net.Ready record) :
    ∀ out ∈ ((net.stage operator).processElement operator record).records, net.Ready out := by
  intro out inside
  unfold Stage.processElement at inside
  dsimp only at inside
  have passes (transform : (net.stage operator).transform = .keyBy ∨ (net.stage operator).transform = .union) :
      net.Ready {record with block := record.block.map (Stage.pass operator)} := by
    refine ready.mapped net record (Stage.pass operator) record.timestamp (fun row here => ?_)
    refine net.pass_truthful operator row _ (Stamped.all _ record ready.single ready.stamped row here) ?_
    rcases transform with same | same <;> simp [Stage.passesOn,same,unbatched]
  split at inside
  · cases inside
  · split at inside
    · cases inside
    · obtain rfl := mem_singleton.mp inside
      refine ready.mapped net record _ _ (fun row _ time derived => ?_)
      cases derived
      rfl
  next first batch transform =>
    have stops : (net.stage operator).passesOn = false := by simp [Stage.passesOn,transform]
    rw [if_neg (by simp [unbatched])] at inside
    cases returned : first (record.block.map Traced.value) with
    | error text =>
      rw [returned] at inside
      cases inside
    | ok result =>
      rw [returned] at inside
      obtain rfl := mem_singleton.mp inside
      refine Ready.fresh net _ _ rfl (fun row here time derived => ?_)
      obtain ⟨source,-,rfl⟩ := List.mem_map.mp here
      exact net.derive_lost operator stops record.block source time derived
  next rows batches transform =>
    have stops : (net.stage operator).passesOn = false := by simp [Stage.passesOn,transform]
    rw [if_neg (by simp [unbatched])] at inside
    obtain ⟨results,within,rfl⟩ := List.mem_map.mp inside
    obtain ⟨result,-,rfl⟩ := List.mem_map.mp within
    refine Ready.fresh net _ _ rfl (fun row here time derived => ?_)
    obtain ⟨source,-,rfl⟩ := List.mem_map.mp here
    exact net.derive_lost operator stops record.block source time derived
  next transform =>
    obtain rfl := mem_singleton.mp inside
    exact passes (.inl transform)
  next transform =>
    obtain rfl := mem_singleton.mp inside
    exact passes (.inr transform)

section edges

def Fits (operator : ι) (record : Record (List (Traced ρ ι))) : Prop :=
  (net.stage operator).batchEnabled = true ∨ net.Ready record

def EdgesGood (edges : TaskEdges π ι ρ) : Prop := ∀ index, EdgeOutput.Held (Stamped net.Truthful) (edges index)

theorem emissions_ready (operator : ι) (record out : Record (List (Traced ρ ι))) (fits : net.Fits operator record)
    (inside : out ∈ ((net.stage operator).processElement operator record).records)
    (emitted : List (Record (List (Traced ρ ι)))) (emits : net.plane.emissions operator out = .ok emitted) :
    ∀ next ∈ emitted, net.Ready next := by
  unfold Operators.emissions at emits
  by_cases batched : (net.stage operator).batchEnabled = true
  · have stopped := net.processElement_stopped operator batched record out inside
    rw [if_neg (by simpa [plane] using batched)] at emits
    split at emits
    · split at emits
      · cases emits
      · split at emits
        · cases emits
          intro next here
          obtain rfl := mem_singleton.mp here
          exact Ready.fresh net _ _ rfl stopped
        · cases emits
          simp
    · cases emits
      intro next here
      obtain ⟨index,known,rfl⟩ := List.mem_map.mp here
      have less : index < out.block.length := mem_range.mp known
      have found : net.plane.ops.rowBlock out.block index none = [out.block[index]] := by
        simp [plane,rowOps,less]
      refine Ready.fresh net _ _ (by rw [found]; rfl) (fun row within => ?_)
      rw [found,mem_singleton] at within
      rw [within]
      exact stopped _ (getElem_mem less)
  · rw [if_pos (by simpa [plane] using batched)] at emits
    cases emits
    have ready : net.Ready record := fits.resolve_left batched
    intro next here
    obtain rfl := mem_singleton.mp here
    exact net.processElement_ready operator (by simpa using batched) record ready next inside

theorem updateEdge_good (edges : TaskEdges π ι ρ) (good : net.EdgesGood edges) (index : Nat)
    (edge : EdgeOutput π (List (Traced ρ ι)) Unit) (held : EdgeOutput.Held (Stamped net.Truthful) edge) :
    net.EdgesGood (Function.update edges index edge) := by
  intro other
  by_cases same : other = index
  · rw [same,update_self]
    exact held
  · rw [update_of_ne same]
    exact good other

theorem acceptOn_keeps (index : Nat) (settings : EdgeSettings π (List (Traced ρ ι)))
    (record : Record (List (Traced ρ ι))) (stamped : Stamped net.Truthful record) :
    Keeps net.EdgesGood (net.acceptOn index settings record) := by
  intro edges good
  have slices : ∀ routed, RecordRouter.Slice (rowOps net.traits).toRouteOps record routed → Stamped net.Truthful routed := by
    rintro routed (rfl | ⟨indices,inside,rfl⟩)
    · exact stamped
    · exact Stamped.slice _ net.traits record stamped indices inside
  have held := EdgeOutput.acceptRecord_held (rowOps net.traits).toRouteOps settings (γ := Unit) (Stamped net.Truthful)
    record slices (edges index) (good index)
  unfold acceptOn
  dsimp only [EdgeOutput.accept]
  cases accepted : EdgeOutput.acceptRecord (rowOps net.traits).toRouteOps settings record (edges index) with
  | ok _ edge =>
    rw [accepted] at held
    exact net.updateEdge_good edges good index edge held
  | error text edge =>
    rw [accepted] at held
    exact net.updateEdge_good edges good index edge held

theorem collectFrom_keeps (record : Record (List (Traced ρ ι))) (stamped : Stamped net.Truthful record)
    (settings : List (EdgeSettings π (List (Traced ρ ι)))) (index : Nat) :
    Keeps net.EdgesGood (net.collectFrom record index settings) := by
  induction settings generalizing index with
  | nil =>
    rw [collectFrom]
    exact Ensures.pure (fun _ here => here)
  | cons first rest ih =>
    rw [collectFrom]
    exact Ensures.bind _ (net.acceptOn_keeps index first record stamped) (fun _ => ih (index + 1))

theorem keeping (task : τ) :
    net.plane.Keeping (net.output task) net.EdgesGood net.Fits (fun _ record => net.Ready record) where
  invokes operator record fits := Ensures.pure (fun _ good =>
    ⟨good,fun out inside => net.emissions_ready operator record out fits inside⟩)
  hands _ record ready := Ensures.bind (fun out edges => out = record ∧ net.EdgesGood edges)
    (Ensures.pure (fun _ good => ⟨rfl,good⟩))
    (fun out => by
      rintro edges ⟨rfl,good⟩
      exact net.collectFrom_keeps out ready.stamped _ 0 edges good)
  passes _ record ready := Ensures.pure (fun _ good => ⟨good,fun _ => .inr ready⟩)

theorem processRecord_keeps (task : τ) (chain : Chain ι) (record : Record (List (Traced ρ ι)))
    (fits : net.Fits chain.root record) : Keeps net.EdgesGood (net.processRecord task chain record) := by
  cases chain with
  | operator single =>
    rw [processRecord]
    split
    · exact net.plane.runnerProcessAsync_keeps _ _ _ _ (net.keeping task) single record fits
    · exact net.plane.runnerProcess_keeps _ _ _ _ (net.keeping task) (.operator single) record fits
  | chained root succeeding =>
    exact net.plane.runnerProcess_keeps _ _ _ _ (net.keeping task) (.chained root succeeding) record fits

end edges

section runs

structure TaskSound (task : τ) (state : PlaneTask π ι ρ) : Prop where
  inbox : ∀ record ∈ state.inbox, Stamped net.Truthful record
  steady : state.accumulator.Steady
  settings : state.accumulator.runtimeInfo = net.runtimeInfo task
  edges : net.EdgesGood state.edges
  queues : ∀ edge, ∀ command ∈ state.queues edge, ∀ record ∈ EdgeOutput.commandRecords command, Stamped net.Truthful record

structure Sound (s : PlaneState π τ ι ρ) : Prop where
  tasks : ∀ task, net.TaskSound task (s.tasks task)
  delivered : ∀ pair ∈ s.delivered, net.Truthful pair.1 pair.2

theorem initial_sound : net.Sound net.initial where
  tasks task := {
    inbox := by simp [initial]
    steady := ⟨⟨rfl,rfl,by simp [initial]⟩,InputBatchAccumulator.batchSize_positive _⟩
    settings := rfl
    edges := fun index => ⟨by simp [initial,EdgeOutput.init],by simp [initial,EdgeOutput.init],by simp [initial,EdgeOutput.init]⟩
    queues := by simp [initial]}
  delivered := by simp [initial]

theorem emitted_ready (values : List ρ) (numRows : Option Nat) (length : values.length = numRows.getD 1) :
    net.Ready (Record.fresh (values.map untraced) numRows) := by
  refine Ready.fresh net _ _ (by rw [length_map,length]) (fun row inside time derived => ?_)
  obtain ⟨value,-,rfl⟩ := List.mem_map.mp inside
  cases derived

variable [DecidableEq τ]

theorem setTask_sound (s : PlaneState π τ ι ρ) (sound : net.Sound s) (task : τ) (next : PlaneTask π ι ρ)
    (good : net.TaskSound task next) : net.Sound (setTask s task next) := by
  refine ⟨fun other => ?_,sound.delivered⟩
  unfold setTask
  dsimp only
  by_cases same : other = task
  · rw [same,update_self]
    exact good
  · rw [update_of_ne same]
    exact sound.tasks other

def Received (task : τ) (record : Record (List (Traced ρ ι))) : Prop :=
  (net.runtimeInfo task).batchSize.isSome = true ∨ net.Ready record

theorem run_sound (s : PlaneState π τ ι ρ) (sound : net.Sound s) (task : τ)
    (body : EStateM Failure (TaskEdges π ι ρ) PUnit) (keeps : Keeps net.EdgesGood body) :
    net.Sound (run s task body) := by
  have here := sound.tasks task
  refine net.setTask_sound s sound task _ {here with edges := ?_}
  have after := keeps (s.tasks task).edges here.edges
  dsimp only
  cases done : body (s.tasks task).edges with
  | ok _ edges =>
    rw [done] at after
    exact after
  | error _ edges =>
    rw [done] at after
    exact after

theorem process_sound (s : PlaneState π τ ι ρ) (sound : net.Sound s) (task : τ)
    (records : List (Record (List (Traced ρ ι)))) (received : ∀ record ∈ records, net.Received task record) :
    net.Sound (net.process s task records) := by
  unfold process
  unfold Received runtimeInfo at received
  cases role : net.role task with
  | operators chain =>
    rw [role] at received
    exact net.run_sound s sound task _ (Ensures.forM _ (fun record inside =>
      net.processRecord_keeps task chain record (received record inside)))
  | window =>
    rw [role] at received
    refine ⟨sound.tasks,forall_mem_append.mpr ⟨sound.delivered,?_⟩⟩
    intro pair arrived
    obtain ⟨record,inside,here⟩ := mem_flatMap.mp arrived
    obtain ⟨row,within,rfl⟩ := List.mem_map.mp here
    have ready : net.Ready record := (received record inside).resolve_left (by simp [unbatchedInfo])
    exact Stamped.all _ record ready.single ready.stamped row within

section
variable (s next : PlaneState π τ ι ρ) (sound : net.Sound s) (task : τ)
include next sound task

theorem consume_sound (now later : Int)
    (taken : net.step s (.consume task now later) = some next) : net.Sound next := by
  have here := sound.tasks task
  rw [step] at taken
  split at taken
  · cases taken
  next record rest held =>
    split at taken
    · cases taken
    next emitted accumulator accepts =>
      cases taken
      have inbox := here.inbox
      rw [held] at inbox
      obtain ⟨first,others⟩ := forall_mem_cons.mp inbox
      obtain ⟨steady,alike⟩ := InputBatchAccumulator.accept_steady _ _ _ now later here.steady _ accepts
      refine net.process_sound _ ?_ task _ (fun out inside => ?_)
      · exact net.setTask_sound s sound task _ ⟨others,steady,alike.runtimeInfo.trans here.settings,here.edges,here.queues⟩
      · unfold Received
        rw [← here.settings]
        by_cases batched : (s.tasks task).accumulator.batchEnabled = true
        · exact .inl batched
        · -- rows come out one by one, each with its own timestamp
          rw [InputBatchAccumulator.accept,if_pos batched] at accepts
          obtain ⟨rows,split,same⟩ := Fallible.map_ok accepts
          cases same
          have data : dataOf (rows.map TaskInput.data) = rows := by
            unfold dataOf
            rw [filterMap_map]
            exact filterMap_some
          rw [data] at inside
          obtain ⟨stamped,single⟩ := Stamped.unbatched _ net.traits record first rows split out inside
          exact .inr ⟨stamped,single⟩

theorem flushInput_sound (force : Bool) (now later : Int)
    (taken : net.step s (.flushInput task force now later) = some next) : net.Sound next := by
  have here := sound.tasks task
  rw [step] at taken
  split at taken
  · cases taken
  next emitted accumulator flushes =>
    cases taken
    obtain ⟨steady,alike⟩ := InputBatchAccumulator.flush_steady _ _ force now later here.steady _ flushes
    refine net.process_sound _ ?_ task _ (fun out inside => ?_)
    · exact net.setTask_sound s sound task _ {here with steady,settings := alike.runtimeInfo.trans here.settings}
    · unfold Received
      rw [← here.settings]
      by_cases batched : (s.tasks task).accumulator.batchEnabled = true
      · exact .inl batched
      · rw [InputBatchAccumulator.flush,if_pos (.inl batched)] at flushes
        cases flushes
        cases inside

theorem flushOutput_sound (edge : Nat) (force : Bool)
    (idle : Nat → Bool) (taken : net.step s (.flushOutput task edge force idle) = some next) : net.Sound next := by
  have here := sound.tasks task
  rw [step] at taken
  split at taken
  · cases taken
  next settings _ =>
    have held := EdgeOutput.drainBatcher_held (rowOps net.traits).toRouteOps settings (Stamped net.Truthful)
      (fun target => force || idle target) ((s.tasks task).edges edge) (here.edges edge)
    unfold EdgeOutput.flush at taken
    split at taken
    all_goals
      next _ flushes =>
        rw [flushes] at held
        cases taken
        exact net.setTask_sound s sound task _
          {here with edges := net.updateEdge_good _ here.edges edge _ held}

theorem drain_sound (edge : Nat)
    (taken : net.step s (.drain task edge) = some next) : net.Sound next := by
  have here := sound.tasks task
  have held := EdgeOutput.takePendingCommands_held (rowOps net.traits).toRouteOps (Stamped net.Truthful)
    ((s.tasks task).edges edge) (here.edges edge)
  rw [step] at taken
  split at taken
  · cases taken
  next commands after takes =>
    rw [takes] at held
    obtain ⟨held,commandsGood⟩ := held
    cases taken
    refine net.setTask_sound s sound task _ {here with edges := ?_,queues := fun other => ?_}
    · exact net.updateEdge_good _ here.edges edge _ ⟨held.batches,held.pending,by simp⟩
    · dsimp only
      by_cases same : other = edge
      · rw [same,update_self]
        exact forall_mem_append.mpr ⟨forall_mem_append.mpr ⟨here.queues edge,commandsGood⟩,held.sent⟩
      · rw [update_of_ne same]
        exact here.queues other

theorem send_sound (edge position actual : Nat)
    (taken : net.step s (.send task edge position actual) = some next) : net.Sound next := by
  have here := sound.tasks task
  rw [step] at taken
  split at taken
  next target ring records queued =>
    split at taken
    · cases taken
    · split at taken
      · cases taken
      next packed packs =>
        cases taken
        have inside := mem_of_getElem? queued
        have packedGood := Stamped.prepare _ net.traits net.arrowTransport records (here.queues edge _ inside) packed packs
        have erased : net.TaskSound task {s.tasks task with
            queues := Function.update (s.tasks task).queues edge (((s.tasks task).queues edge).eraseIdx position)} := by
          refine {here with queues := fun other => ?_}
          dsimp only
          by_cases same : other = edge
          · rw [same,update_self]
            exact fun command within => here.queues edge command (mem_of_mem_eraseIdx within)
          · rw [update_of_ne same]
            exact here.queues other
        have sent := net.setTask_sound s sound task _ erased
        have there := sent.tasks (net.target task edge actual)
        exact net.setTask_sound _ sent _ _
          {there with inbox := forall_mem_append.mpr ⟨there.inbox,packedGood⟩}
  · cases taken

end

theorem step_sound (s next : PlaneState π τ ι ρ) (label : Label τ ρ) (sound : net.Sound s)
    (taken : net.step s label = some next) : net.Sound next := by
  cases label with
  | emitRow task value =>
    rw [step] at taken
    split at taken
    next chain _ =>
      cases taken
      exact net.run_sound s sound task _ (net.plane.sourceCollect_keeps _ _ _ _ (net.keeping task) chain _
        (net.emitted_ready [value] none rfl))
    · cases taken
  | emitColumns task values =>
    rw [step] at taken
    split at taken
    next source _ =>
      cases taken
      exact net.run_sound s sound task _ (net.plane.sourceCollect_keeps _ _ _ _ (net.keeping task) (.operator source) _
        (net.emitted_ready values (some values.length) rfl))
    · cases taken
  | consume task now later => exact net.consume_sound s next sound task now later taken
  | flushInput task force now later => exact net.flushInput_sound s next sound task force now later taken
  | flushOutput task edge force idle => exact net.flushOutput_sound s next sound task edge force idle taken
  | drain task edge => exact net.drain_sound s next sound task edge taken
  | send task edge position actual => exact net.send_sound s next sound task edge position actual taken

theorem run_delivers (labels : List (Label τ ρ)) (final : PlaneState π τ ι ρ)
    (ran : Runs.exec net.step net.initial labels = some final) : net.Sound final :=
  Runs.exec_invariant net.step (fun _ _ => True) net.Sound
    (fun s label next sound _ taken => net.step_sound s next label sound taken) labels net.initial final net.initial_sound
    (Runs.Along.of_forall _ _ labels (fun _ _ _ => trivial) _) ran

/-- A row comes to its windows with the timestamp of the row it is derived from exactly
when every operator that it passed hands on the record that it was handed. -/
theorem row_keeps_timestamp_iff (labels : List (Label τ ρ)) (final : PlaneState π τ ι ρ)
    (ran : Runs.exec net.step net.initial labels = some final) (row : Traced ρ ι) (timestamp : Option Int)
    (delivered : (row,timestamp) ∈ final.delivered) (time : Nat) (derived : row.origin = some time) :
    (timestamp = some (time : Int) ∧ ∀ assigner, windowsOf assigner timestamp = .ok (assigner.assignWindows time)) ↔
      ∀ operator ∈ row.passed, (net.stage operator).passesOn = true := by
  have truthful := (net.run_delivers labels final ran).delivered _ delivered time derived
  dsimp only at truthful
  rw [← List.all_eq_true]
  constructor
  · rintro ⟨kept,-⟩
    by_contra stopped
    rw [if_neg stopped] at truthful
    exact absurd (truthful.symm.trans kept) nofun
  · intro passes
    rw [if_pos passes] at truthful
    subst truthful
    refine ⟨rfl,fun assigner => ?_⟩
    unfold windowsOf
    dsimp only
    rw [if_neg (Int.not_lt.mpr (Int.natCast_nonneg time))]

end runs

def plainTraits : BlockTraits (Traced Nat Nat) where
  retainedSize := fun _ => 1
  validateRecord := fun _ => none
  validateColumns := fun _ => none
  rowKind := fun _ => none
  arrowPackable := fun _ => false
  wireCompatible := fun _ _ => false
  convertible := fun _ => false

def forwardEdge : EdgeSettings Unit (List (Traced Nat Nat)) where
  taskName := "stage"
  router := ⟨⟨"FORWARD",fun cursor _ => .ok ([0],cursor),fun cursor _ _ => .ok ([(0,none)],cursor),fun target => .ok [target]⟩,
    1,[0]⟩
  bufferLimit := 10
  bufferByteLimit := 10
  batchSize := 1
  batchMaxRows := none
  batchMaxBytes := none
  deliveryMode := .pipelined

def plainStage (transform : Transform Nat) : Stage Nat := ⟨transform,unbatchedInfo,false,fun _ => ⟨rfl,rfl⟩⟩

def sourceToWindow (transform : Transform Nat) : Network Unit Nat Nat Nat where
  traits := plainTraits
  stage := fun operator => match operator with
    | 0 => plainStage .source
    | 1 => plainStage (.watermark (fun values => .ok values.sum))
    | _ => plainStage transform
  role := fun task => match task with
    | 0 => .operators (.chained 0 [.chained 1 [.operator 2]])
    | _ => .window
  edges := fun task => match task with
    | 0 => [forwardEdge]
    | _ => []
  target := fun _ _ _ => 1
  cursor := fun _ _ => ()
  outcomes := fun _ _ => []
  inputBytes := none
  columnarPassthrough := false
  arrowTransport := false
  ignoreExceptions := false

def oneRow : List (Label Nat Nat) := [.emitRow 0 5,.drain 0 0,.send 0 0 0 0,.consume 1 0 0]

theorem key_by_delivers : ∃ final, Runs.exec (sourceToWindow .keyBy).step (sourceToWindow .keyBy).initial oneRow = some final ∧
    final.delivered = [(⟨5,some 5,[2]⟩,some 5)] := ⟨_,rfl,rfl⟩

theorem row_keeps_timestamp_at_key_by : ∃ final,
    Runs.exec (sourceToWindow .keyBy).step (sourceToWindow .keyBy).initial oneRow = some final ∧
      final.delivered = [(⟨5,some 5,[2]⟩,some 5)] ∧
        ∀ assigner, windowsOf assigner (some 5) = .ok (assigner.assignWindows 5) := by
  obtain ⟨final,ran,delivered⟩ := key_by_delivers
  refine ⟨final,ran,delivered,?_⟩
  have passes : ∀ operator ∈ [2], ((sourceToWindow .keyBy).stage operator).passesOn = true := by decide
  exact (((sourceToWindow .keyBy).row_keeps_timestamp_iff oneRow final ran ⟨5,some 5,[2]⟩ (some 5)
    (by simp [delivered]) 5 rfl).mpr passes).2

/-- The same row through a map has no timestamp, and the window refuses it. -/
theorem mapped_row_loses_timestamp : ¬ ∀ (net : Network Unit Nat Nat Nat) (labels : List (Label Nat Nat))
    (final : PlaneState Unit Nat Nat Nat), Runs.exec net.step net.initial labels = some final →
    ∀ (row : Traced Nat Nat) (timestamp : Option Int), (row,timestamp) ∈ final.delivered →
    ∀ time : Nat, row.origin = some time →
      timestamp = some (time : Int) ∧ ∀ assigner, windowsOf assigner timestamp = .ok (assigner.assignWindows time) := by
  intro all
  have lost : ∃ final, Runs.exec (sourceToWindow (.map (fun values => .ok (some 0,values.sum)) (fun _ => .ok []))).step
      (sourceToWindow (.map (fun values => .ok (some 0,values.sum)) (fun _ => .ok []))).initial oneRow = some final ∧
      final.delivered = [(⟨5,some 5,[2]⟩,none)] := ⟨_,rfl,rfl⟩
  obtain ⟨final,ran,delivered⟩ := lost
  have kept := (all _ oneRow final ran ⟨5,some 5,[2]⟩ none (by simp [delivered]) 5 rfl).1
  cases kept

end Network
end Klein.Dataflow
