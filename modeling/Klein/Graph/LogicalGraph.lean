import Klein.Fallible
import Klein.Graph.ChannelTopology
import Klein.Graph.CheckedEdges
import Klein.Graph.TopologicalOrder
import Mathlib.Data.List.Sort

/-! The logical graph and its builder (`runtime/graph/logical_graph.py`,
`logical_graph_builder.py`). All vertices belong to one job, so their index is their
identity. A graph that was constructed keeps its vertices in topological order and
its edges by the ranks of their ends. -/
namespace Klein.Graph
open List Option

inductive NodeType where
  | source | sink | transform | take | union
deriving DecidableEq, Repr

def Concurrency.Valid : Concurrency → Prop
  | .scalar value => 0 < value
  | .range least most => 0 < least ∧ least ≤ most

/-- Requirements that `__post_init__` has checked. -/
structure Resources where
  numCpus : Option Rat
  numGpus : Option Rat
  concurrency : Option Concurrency
  valid : ∀ concurrency' ∈ concurrency, concurrency'.Valid
deriving DecidableEq

def Resources.scalarConcurrency (resources : Resources) : Nat :=
  match resources.concurrency with
  | none => 1
  | some (.scalar value) => value
  | some (.range least _) => least

theorem Resources.positive (resources : Resources) : 0 < resources.scalarConcurrency := by
  have valid := resources.valid
  unfold scalarConcurrency
  split
  next => exact Nat.one_pos
  next value found => exact valid _ found
  next least most found => exact (valid _ found).1

/-- `replace(resources, concurrency=parallelism)` -/
def Resources.rescaled (resources : Resources) (parallelism : Nat) (positive : 0 < parallelism) : Resources where
  numCpus := resources.numCpus
  numGpus := resources.numGpus
  concurrency := some (.scalar parallelism)
  valid := fun concurrency same => by
    obtain rfl := some.inj same
    exact positive

/-- `Resources(concurrency=parallelism)` -/
def Resources.scalar (parallelism : Nat) (positive : 0 < parallelism) : Resources where
  numCpus := none
  numGpus := none
  concurrency := some (.scalar parallelism)
  valid := fun concurrency same => by
    obtain rfl := some.inj same
    exact positive

structure ResourceNode where
  resources : Resources
  batchSize : Option Nat
  asyncBufferSize : Option Nat

class OperatorRecipe (ω : Type) where
  name : ω → String
  source : ω → Bool
  tuned : ω → ResourceNode → ω
  name_tuned : ∀ operator node, name (tuned operator node) = name operator
  source_tuned : ∀ operator node, source (tuned operator node) = source operator

structure PlainOperator where
  name : String
  source : Bool
deriving DecidableEq, Repr

instance : OperatorRecipe PlainOperator where
  name := PlainOperator.name
  source := PlainOperator.source
  tuned := fun operator _ => operator
  name_tuned := fun _ _ => rfl
  source_tuned := fun _ _ => rfl

structure VertexSpec (ω : Type) where
  index : Nat
  name : String
  operator : ω
  nodeType : NodeType
  resources : Resources
deriving DecidableEq

structure EdgeSpec where
  source : Nat
  target : Nat
  partitioner : PartitionerSpec
deriving DecidableEq, Repr

variable {ω : Type}

def VertexSpec.concurrency (vertex : VertexSpec ω) : Nat := vertex.resources.scalarConcurrency

def EdgeSpec.pair (edge : EdgeSpec) : Nat × Nat := (edge.source,edge.target)

/-- `VertexId.__str__` -/
def vertexText (job : String) (index : Nat) : String := job ++ "/" ++ toString index

def edgeText (job : String) (source target : Nat) : String := vertexText job source ++ " -> " ++ vertexText job target

section texts
variable (job : String)

def mismatchedKey (key index : Nat) : String :=
  "logical vertex key " ++ vertexText job key ++ " does not match spec id " ++ vertexText job index
def inconsistentSource (key : Nat) : String :=
  "logical vertex " ++ vertexText job key ++ " has inconsistent node and operator source classification"
def missingLogicalEndpoint (source target : Nat) : String := "logical edge " ++ edgeText job source target ++ " has a missing endpoint"
def duplicateLogicalEdge (source target : Nat) : String := "duplicate logical edge " ++ edgeText job source target
def mismatchedRoots (roots sources : List Nat) : String :=
  let text (ids : List Nat) := String.intercalate ", " (ids.map (fun index => "VertexId(job='" ++ job ++ "', index=" ++ toString index ++ ")"))
  "logical graph roots must exactly match source operators; roots=" ++ text roots ++ ", sources=" ++ text sources
def cyclicLogical : String := "LogicalGraph must be acyclic"
def redefinedVertex (index : Nat) : String :=
  "logical vertex " ++ vertexText job index ++ " was defined more than once with different attributes"
def missingVertices (source target : Nat) : String :=
  "cannot add logical edge " ++ edgeText job source target ++ ": one or both vertices do not exist"
def conflictingPartitioners (source target : Nat) : String :=
  "logical edge " ++ edgeText job source target ++ " has conflicting partitioners"
def replacesMissing (index : Nat) : String := "cannot replace missing logical vertex " ++ vertexText job index
def removesMissingEdge (source target : Nat) : String := "cannot remove missing logical edge " ++ edgeText job source target
def removesMissingVertex (index : Nat) : String := "cannot remove missing logical vertex " ++ vertexText job index

end texts

def heappush (ready : List Nat) (vertex : Nat) : List Nat := ready.orderedInsert (· ≤ ·) vertex

theorem pushes_heappush : Pushes heappush := fun ready vertex =>
  (perm_orderedInsert _ vertex ready).trans (perm_append_singleton vertex ready).symm

section construct
variable [OperatorRecipe ω] (job : String) (vertices : Dict Nat (VertexSpec ω)) (edges : List EdgeSpec)

/-- `_validate_vertices`; the ids are all of this job. -/
def validateVertices : List (Nat × VertexSpec ω) → Except String Unit
  | [] => .ok ()
  | (key,vertex)::rest =>
    if vertex.index ≠ key then .error (mismatchedKey job key vertex.index)
    else if decide (vertex.nodeType = .source) ≠ OperatorRecipe.source vertex.operator then .error (inconsistentSource job key)
    else validateVertices rest

def logicalSources : List Nat := (vertices.entries.filter (fun item => OperatorRecipe.source item.2.operator)).map Prod.fst

/-- `_topological_order`; the targets of a vertex are taken by their index. -/
def logicalOrder : Except String (List Nat) :=
  match topologicalOrder heappush vertices.keys ((edges.map EdgeSpec.pair).mergeSort (fun first second => first.2 ≤ second.2)) with
  | none => .error cyclicLogical
  | some ordered => if ordered.length ≠ vertices.keys.length then .error cyclicLogical else .ok ordered

/-- `_validate` -/
def validateLogical : Except String (List Nat) := do
  validateVertices job vertices.entries
  checkPairs vertices.keys (missingLogicalEndpoint job) (duplicateLogicalEdge job) [] (edges.map EdgeSpec.pair)
  checkRoots vertices.keys (mismatchedRoots job) (edges.map EdgeSpec.pair) (logicalSources vertices)
  logicalOrder vertices edges

def rankLe (order : List Nat) (first second : EdgeSpec) : Bool :=
  order.idxOf first.source < order.idxOf second.source ||
    (order.idxOf first.source = order.idxOf second.source && order.idxOf first.target ≤ order.idxOf second.target)

def inOrder (order : List Nat) : Dict Nat (VertexSpec ω) :=
  Dict.ofList (order.filterMap (fun key => (vertices.get? key).map (fun vertex => (key,vertex))))

def construct : Except String (Dict Nat (VertexSpec ω) × List EdgeSpec) := do
  if job = "" then throw "LogicalGraph job_name must not be empty"
  let order ← validateLogical job vertices edges
  return (inOrder vertices order,edges.mergeSort (rankLe order))

end construct

structure LogicalGraph (ω : Type) [OperatorRecipe ω] where
  jobName : String
  vertices : Dict Nat (VertexSpec ω)
  edges : List EdgeSpec
  built : ∃ vertices' edges', construct jobName vertices' edges' = .ok (vertices,edges)

structure LogicalGraphBuilder (ω : Type) where
  jobName : String
  vertices : Dict Nat (VertexSpec ω)
  edges : List EdgeSpec

namespace LogicalGraphBuilder
variable (builder : LogicalGraphBuilder ω)

def addVertex [DecidableEq ω] (spec : VertexSpec ω) : Except String (LogicalGraphBuilder ω) :=
  if ∀ existing ∈ builder.vertices.get? spec.index, existing = spec then
    .ok {builder with vertices := builder.vertices.set spec.index spec}
  else .error (redefinedVertex builder.jobName spec.index)

def replaceVertex (spec : VertexSpec ω) : Except String (LogicalGraphBuilder ω) :=
  if builder.vertices.contains spec.index then .ok {builder with vertices := builder.vertices.set spec.index spec}
  else .error (replacesMissing builder.jobName spec.index)

def vertex (index : Nat) : Except String (VertexSpec ω) :=
  match builder.vertices.get? index with
  | none => .error (vertexText builder.jobName index)
  | some spec => .ok spec

def edge (source target : Nat) : Option EdgeSpec := builder.edges.find? (fun edge => edge.source = source ∧ edge.target = target)

def addEdge (edge : EdgeSpec) : Except String (LogicalGraphBuilder ω) :=
  if ¬ builder.vertices.contains edge.source ∨ ¬ builder.vertices.contains edge.target then
    .error (missingVertices builder.jobName edge.source edge.target)
  else
    match builder.edge edge.source edge.target with
    | none => .ok {builder with edges := builder.edges ++ [edge]}
    | some existing =>
      if existing = edge then .ok builder else .error (conflictingPartitioners builder.jobName edge.source edge.target)

def removeEdge (source target : Nat) : Except String (LogicalGraphBuilder ω) :=
  match builder.edge source target with
  | none => .error (removesMissingEdge builder.jobName source target)
  | some _ => .ok {builder with edges := builder.edges.filter (fun edge => ¬ (edge.source = source ∧ edge.target = target))}

def removeVertex (index : Nat) : Except String (LogicalGraphBuilder ω) :=
  if builder.vertices.contains index then .ok {
    builder with
    vertices := builder.vertices.erase index
    edges := builder.edges.filter (fun edge => edge.source ≠ index ∧ edge.target ≠ index)
  }
  else .error (removesMissingVertex builder.jobName index)

def downstream (index : Nat) : List Nat := (builder.edges.filter (fun edge => edge.source = index)).map EdgeSpec.target

def upstream (index : Nat) : List Nat := (builder.edges.filter (fun edge => edge.target = index)).map EdgeSpec.source

def build [OperatorRecipe ω] : Except String (LogicalGraph ω) :=
  match done : construct builder.jobName builder.vertices builder.edges with
  | .error message => .error message
  | .ok (vertices,edges) => .ok ⟨builder.jobName,vertices,edges,⟨_,_,done⟩⟩

end LogicalGraphBuilder
end Klein.Graph
