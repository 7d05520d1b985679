import Klein.Effects
import Klein.InputBatchAccumulator

/-! The operators of one task (`runtime/operator/operator.py`, `chained_operator.py`,
`forward_collector.py`): how the records that an operator collects reach the operators
chained to it and the output of the task. What a record makes an operator collect is a
parameter. -/
namespace Klein

/-- `Record(block, num_rows=numRows)` -/
def Record.fresh {β : Type} (block : β) (numRows : Option Nat) : Record β := ⟨block,numRows,none,none,none,none⟩

namespace Dataflow
open Effects

/-- Where an exception was raised. The source has no such mark: one `except` clause
catches both. -/
inductive Failure where
  | function (text : String)
  | emission (text : String)
deriving DecidableEq, Repr

structure ColumnOps (β : Type) extends BlockOps β where
  numRows : β → Nat
  validateRecord : Record β → Option String
  validateColumns : β → Option String

/-- What one call of `process_element` collects, one record after the other, and the
exception of the user function that ends it. -/
structure Processed (β : Type) where
  records : List (Record β)
  raised : Option String

inductive Chain (ι : Type) where
  | operator (operator : ι)
  | chained (root : ι) (succeeding : List (Chain ι))

def Chain.root {ι : Type} : Chain ι → ι
  | .operator single => single
  | .chained root _ => root

/-- The operators `ι` of a task. `noted` is a ghost: it sees each record that an
operator passes to its collector and may mark it. -/
structure Operators (σ ι β : Type) where
  ops : ColumnOps β
  invoke : ι → Record β → EStateM Failure σ (Processed β)
  batchEnabled : ι → Bool
  columnarPassthrough : Bool
  ignoreExceptions : Bool
  noted : Chain ι → Record β → EStateM Failure σ (Record β)

/-- A collector; `none` is the missing one of an operator at the end of a pipeline. -/
abbrev Collector (σ β : Type) := Option (Record β → EStateM Failure σ PUnit)

namespace Operators
variable {σ ι β : Type} (plane : Operators σ ι β)

/-- The records that a collected record becomes: itself, one columnar record, or one
record for each row. -/
def emissions (operator : ι) (record : Record β) : Except String (List (Record β)) :=
  if ¬ plane.batchEnabled operator then .ok [record]
  else if plane.columnarPassthrough then
    match plane.ops.validateColumns record.block with
    | some text => .error text
    | none =>
      if 0 < plane.ops.numRows record.block then
        .ok [Record.fresh record.block (some (plane.ops.numRows record.block))]
      else .ok []
  else .ok ((List.range (plane.ops.numRows record.block)).map (fun index =>
    Record.fresh (plane.ops.rowBlock record.block index none) none))

/-- `StreamOperator.collect` on a data record, by the root of a chain -/
def collect (chain : Chain ι) (collector : Collector σ β) (record : Record β) : EStateM Failure σ PUnit :=
  match plane.ops.validateRecord record,collector with
  | some text,_ => throw (.function text)
  | none,none => pure ⟨⟩
  | none,some collector =>
    match plane.emissions chain.root record with
    | .error text => throw (.function text)
    | .ok emitted => forM emitted (fun out => do
      let out ← plane.noted chain out
      collector out)

/-- `invoke_process` of the root of a chain -/
def process (chain : Chain ι) (collector : Collector σ β) (record : Record β) : EStateM Failure σ PUnit := do
  let processed ← plane.invoke chain.root record
  forM processed.records (plane.collect chain collector)
  match processed.raised with
  | some text => throw (.function text)
  | none => pure ⟨⟩

/-- `should_ignore_exception`: whatever was raised is ignored or nothing is. -/
def handle (error : Failure) : EStateM Failure σ PUnit :=
  if plane.ignoreExceptions then pure ⟨⟩ else throw error

mutual
/-- `invoke_process` of an operator or a chain whose last operators collect into `collector`. -/
def invokeProcess (collector : Collector σ β) : Chain ι → Record β → EStateM Failure σ PUnit
  | .operator operator,record => plane.process (.operator operator) collector record
  | .chained root succeeding,record =>
    plane.process (.chained root succeeding) (some (forward collector succeeding)) record

/-- `ForwardCollector.collect` on a data record; a fork is the same record here. -/
def forward (collector : Collector σ β) : List (Chain ι) → Record β → EStateM Failure σ PUnit
  | [],_ => pure ⟨⟩
  | next::others,record => do
    tryCatch (invokeProcess collector next record) plane.handle
    forward collector others record
end

/-- `_OperatorRunner.process` -/
def runnerProcess (collector : Collector σ β) (chain : Chain ι) (record : Record β) : EStateM Failure σ PUnit :=
  tryCatch (plane.invokeProcess collector chain record) plane.handle

/-- `process_async` and `on_async_result`: an async operator is never chained, its result
is computed first and collected outside of any handler. -/
def runnerProcessAsync (collector : Collector σ β) (operator : ι) (record : Record β) : EStateM Failure σ PUnit := do
  let processed ← plane.invoke operator record
  match processed.raised with
  | some text => plane.handle (.function text)
  | none => forM processed.records (plane.collect (.operator operator) collector)

def collectorOf (collector : Collector σ β) : Chain ι → Collector σ β
  | .operator _ => collector
  | .chained _ succeeding => some (plane.forward collector succeeding)

/-- `RuntimeSourceContext.collect`: a source emits straight into its collector, and no
handler stands around it. -/
def sourceCollect (collector : Collector σ β) (chain : Chain ι) (record : Record β) : EStateM Failure σ PUnit :=
  match plane.collectorOf collector chain with
  | none => pure ⟨⟩
  | some collector => do
    let out ← plane.noted chain record
    collector out

section invariants
variable (collector : Record β → EStateM Failure σ PUnit) (invariant : σ → Prop) (fits : ι → Record β → Prop)
  (gives : ι → Record β → Prop)

/-- What keeps an invariant through every operator of a chain: `fits` holds of the
records that an operator is invoked with, `gives` of what it collects. -/
structure Keeping : Prop where
  invokes : ∀ operator record, fits operator record → Ensures (plane.invoke operator record) invariant
    (fun processed state => invariant state ∧ ∀ out ∈ processed.records, ∀ emitted,
      plane.emissions operator out = .ok emitted → ∀ record ∈ emitted, gives operator record) (fun _ => invariant)
  hands : ∀ operator record, gives operator record →
    Keeps invariant (plane.noted (.operator operator) record >>= collector)
  passes : ∀ chain record, gives chain.root record → Ensures (plane.noted chain record) invariant
    (fun out state => invariant state ∧ ∀ operator, fits operator out) (fun _ => invariant)

theorem collect_keeps (chain : Chain ι) (collector : Record β → EStateM Failure σ PUnit) (record : Record β)
    (valid : ∀ emitted, plane.emissions chain.root record = .ok emitted → ∀ out ∈ emitted, gives chain.root out)
    (keeps : ∀ out, gives chain.root out → Keeps invariant (plane.noted chain out >>= collector)) :
    Keeps invariant (plane.collect chain (some collector) record) := by
  unfold collect
  split
  · exact Ensures.throw (fun _ here => here)
  · exact Ensures.pure (fun _ here => here)
  next collector' _ same =>
    obtain rfl := Option.some.inj same
    cases emits : plane.emissions chain.root record with
    | error text => exact Ensures.throw (fun _ here => here)
    | ok emitted => exact Ensures.forM _ (fun out inside => keeps out (valid emitted emits out inside))

theorem process_keeps (keeping : plane.Keeping collector invariant fits gives) (chain : Chain ι)
    (collector' : Record β → EStateM Failure σ PUnit) (record : Record β) (good : fits chain.root record)
    (keeps : ∀ out, gives chain.root out → Keeps invariant (plane.noted chain out >>= collector')) :
    Keeps invariant (plane.process chain (some collector') record) := by
  unfold process
  refine Ensures.bind _ (keeping.invokes chain.root record good) (fun processed => ?_)
  intro state here
  -- the records of this call are known from here on
  have loop : Keeps invariant (forM processed.records (plane.collect chain (some collector'))) :=
    Ensures.forM _ (fun out inside =>
      plane.collect_keeps invariant gives chain collector' out (here.2 out inside) keeps)
  refine Ensures.bind _ loop (fun _ => ?_) state here.1
  split
  · exact Ensures.throw (fun _ here => here)
  · exact Ensures.pure (fun _ here => here)

theorem handle_keeps (error : Failure) : Keeps invariant (plane.handle error) := by
  unfold handle
  split
  · exact Ensures.pure (fun _ here => here)
  · exact Ensures.throw (fun _ here => here)

mutual
theorem invokeProcess_keeps (keeping : plane.Keeping collector invariant fits gives) :
    ∀ (chain : Chain ι) (record : Record β), fits chain.root record →
      Keeps invariant (plane.invokeProcess (some collector) chain record)
  | .operator operator,record,good => by
    rw [invokeProcess]
    exact plane.process_keeps collector invariant fits gives keeping _ collector record good
      (fun out given => keeping.hands operator out given)
  | .chained root succeeding,record,good => by
    rw [invokeProcess]
    refine plane.process_keeps collector invariant fits gives keeping _ _ record good (fun out given => ?_)
    refine Ensures.bind _ (keeping.passes (.chained root succeeding) out given) (fun out => ?_)
    intro state here
    exact forward_keeps keeping succeeding out here.2 state here.1

theorem forward_keeps (keeping : plane.Keeping collector invariant fits gives) :
    ∀ (succeeding : List (Chain ι)) (record : Record β), (∀ operator, fits operator record) →
      Keeps invariant (plane.forward (some collector) succeeding record)
  | [],_,_ => by
    rw [forward]
    exact Ensures.pure (fun _ here => here)
  | next::others,record,good => by
    rw [forward]
    exact Ensures.bind _
      (Ensures.tryCatch (invokeProcess_keeps keeping next record (good next.root))
        (fun error => plane.handle_keeps invariant error))
      (fun _ => forward_keeps keeping others record good)
end

section
variable (keeping : plane.Keeping collector invariant fits gives)
include keeping

theorem runnerProcess_keeps (chain : Chain ι) (record : Record β)
    (good : fits chain.root record) : Keeps invariant (plane.runnerProcess (some collector) chain record) :=
  Ensures.tryCatch
    (plane.invokeProcess_keeps collector invariant fits gives keeping chain record good)
    (fun error => plane.handle_keeps invariant error)

theorem runnerProcessAsync_keeps (operator : ι)
    (record : Record β) (good : fits operator record) :
    Keeps invariant (plane.runnerProcessAsync (some collector) operator record) := by
  unfold runnerProcessAsync
  refine Ensures.bind _ (keeping.invokes operator record good) (fun processed => ?_)
  intro state here
  cases processed.raised with
  | some text => exact plane.handle_keeps invariant _ state here.1
  | none =>
    refine Ensures.forM _ (fun out inside => ?_) state here.1
    exact plane.collect_keeps invariant gives (.operator operator) collector out (here.2 out inside)
      (fun emitted given => keeping.hands operator emitted given)

theorem sourceCollect_keeps (chain : Chain ι)
    (record : Record β) (given : gives chain.root record) :
    Keeps invariant (plane.sourceCollect (some collector) chain record) := by
  cases chain with
  | operator single => exact keeping.hands single record given
  | chained root succeeding =>
    refine Ensures.bind _ (keeping.passes (.chained root succeeding) record given) (fun out => ?_)
    intro state here
    exact plane.forward_keeps collector invariant fits gives keeping succeeding out here.2 state here.1

end

end invariants

end Operators
end Dataflow
end Klein
