import Klein.Coordinator.State
import Klein.Fallible
import Klein.Graph.ChannelTopology
import Klein.Graph.CheckedEdges
import Klein.Graph.Components
import Klein.Graph.TopologicalOrder

/-! The physical topology (`runtime/execution_graph/`): job vertices expanded into
subtasks, job edges into channels, and what checkpoint coordination derives from
them. Vertices and edges that were constructed carry the checks of the constructor. -/
namespace Klein.Graph
open Fallible List
open Coordinator (CheckpointDomain)

structure ExecutionJobVertex where
  id : Nat
  concurrency : Nat
  source : Bool
  positive : 0 < concurrency
deriving DecidableEq

def ExecutionJobVertex.executionVertices (vertex : ExecutionJobVertex) : List ExecutionVertexId :=
  (List.range vertex.concurrency).map (fun index => ⟨vertex.id,index⟩)

structure ExecutionJobEdge where
  source : Nat
  target : Nat
  partitioner : PartitionerSpec
  executionEdges : List (ExecutionVertexId × ExecutionVertexId)
deriving DecidableEq

/-- `_create_execution_edges` -/
def createExecutionEdges (source target : ExecutionJobVertex) (partitioner : PartitionerSpec) :
    Except String (List (ExecutionVertexId × ExecutionVertexId)) := do
  let channels ← (List.range source.concurrency).mapM (fun sourceIndex => do
    let indices ← targetIndices partitioner.topology source.concurrency target.concurrency sourceIndex
    return indices.map (fun targetIndex => (⟨source.id,sourceIndex⟩,⟨target.id,targetIndex⟩)))
  return channels.flatten

def ExecutionJobEdge.make (source target : ExecutionJobVertex) (partitioner : PartitionerSpec) : Except String ExecutionJobEdge :=
  (createExecutionEdges source target partitioner).map (fun channels => ⟨source.id,target.id,partitioner,channels⟩)

section channels
variable (source target : ExecutionJobVertex) (partitioner : PartitionerSpec)

def IsChannel (channel : ExecutionVertexId × ExecutionVertexId) : Prop :=
  ∃ sourceIndex < source.concurrency, ∃ indices,
    targetIndices partitioner.topology source.concurrency target.concurrency sourceIndex = .ok indices ∧
      ∃ targetIndex ∈ indices, channel = (⟨source.id,sourceIndex⟩,⟨target.id,targetIndex⟩)

theorem createExecutionEdges_ok (joins : Joins partitioner.topology source.concurrency target.concurrency) :
    ∃ channels, createExecutionEdges source target partitioner = .ok channels ∧
      ∀ channel, channel ∈ channels ↔ IsChannel source target partitioner channel := by
  obtain ⟨channels,done,spec⟩ := mapM_ok (List.range source.concurrency) (fun sourceIndex => do
    let indices ← targetIndices partitioner.topology source.concurrency target.concurrency sourceIndex
    return indices.map (fun targetIndex =>
      ((⟨source.id,sourceIndex⟩,⟨target.id,targetIndex⟩) : ExecutionVertexId × ExecutionVertexId))) (by
      intro sourceIndex inside
      obtain ⟨indices,found,-⟩ := targetIndices_ok _ _ _ joins sourceIndex (mem_range.mp inside)
      exact ⟨_,ok_bind found⟩)
  refine ⟨channels.flatten,?_,fun channel => ?_⟩
  · unfold createExecutionEdges
    rw [ok_bind done]
    rfl
  · rw [mem_flatten]
    constructor
    · rintro ⟨listed,inside,member⟩
      obtain ⟨sourceIndex,within,made⟩ := (spec listed).mp inside
      obtain ⟨indices,found,made⟩ := bind_ok made
      obtain rfl := Except.ok.inj made
      obtain ⟨targetIndex,own,rfl⟩ := List.mem_map.mp member
      exact ⟨sourceIndex,mem_range.mp within,indices,found,targetIndex,own,rfl⟩
    · rintro ⟨sourceIndex,within,indices,found,targetIndex,own,rfl⟩
      refine ⟨_,(spec _).mpr ⟨sourceIndex,mem_range.mpr within,ok_bind found⟩,?_⟩
      exact List.mem_map_of_mem own

theorem make_ok (edge : ExecutionJobEdge) (made : ExecutionJobEdge.make source target partitioner = .ok edge) :
    Joins partitioner.topology source.concurrency target.concurrency ∧ edge.source = source.id ∧ edge.target = target.id ∧
      edge.partitioner = partitioner ∧ ∀ channel, channel ∈ edge.executionEdges ↔ IsChannel source target partitioner channel := by
  obtain ⟨channels,created,rfl⟩ := map_ok made
  obtain ⟨lists,mapped,-⟩ := bind_ok created
  obtain ⟨_,first⟩ := of_mapM_ok _ _ _ mapped 0 (mem_range.mpr source.positive)
  obtain ⟨indices,found,-⟩ := bind_ok first
  have joins := joins_of_targetIndices _ _ _ 0 indices found
  obtain ⟨channels',created',spec⟩ := createExecutionEdges_ok source target partitioner joins
  cases created.symm.trans created'
  exact ⟨joins,rfl,rfl,rfl,spec⟩

end channels

def setText (items : List Nat) : String :=
  if items = [] then "set()" else "\x7b" ++ String.intercalate ", " (items.map toString) ++ "\x7d"

def keyMismatch (key id : Nat) : String :=
  "execution vertex key " ++ toString key ++ " does not match vertex id " ++ toString id
def missingEndpoint (source target : Nat) : String :=
  "execution edge " ++ toString source ++ " -> " ++ toString target ++ " has a missing endpoint"
def duplicateEdge (source target : Nat) : String :=
  "duplicate execution edge " ++ toString source ++ " -> " ++ toString target
def rootsMismatch (roots sources : List Nat) : String :=
  "ExecutionGraph roots must exactly match source operators; roots=" ++ setText roots ++ ", sources=" ++ setText sources
def cyclic : String := "ExecutionGraph must be acyclic"

section validate
variable (jobVertices : Dict Nat ExecutionJobVertex) (jobEdges : List ExecutionJobEdge)

def checkKeys : List (Nat × ExecutionJobVertex) → Except String Unit
  | [] => .ok ()
  | (key,vertex)::rest => if vertex.id ≠ key then .error (keyMismatch key vertex.id) else checkKeys rest

def sourceJobVertices : List Nat := (jobVertices.entries.filter (fun item => item.2.source)).map Prod.fst

def pairsOf : List (Nat × Nat) := jobEdges.map (fun edge => (edge.source,edge.target))

/-- `_validate_topology` -/
def validateTopology : Except String Unit := do
  checkKeys jobVertices.entries
  checkPairs jobVertices.keys missingEndpoint duplicateEdge [] (pairsOf jobEdges)
  checkRoots jobVertices.keys rootsMismatch (pairsOf jobEdges) (sourceJobVertices jobVertices)

/-- `_topological_job_vertices` -/
def topologicalJobVertices : Except String (List Nat) :=
  match topologicalOrder enqueue jobVertices.keys (pairsOf jobEdges) with
  | none => .error cyclic
  | some ordered => if ordered.length ≠ jobVertices.keys.length then .error cyclic else .ok ordered

end validate

structure ExecutionGraph where
  jobVertices : Dict Nat ExecutionJobVertex
  jobEdges : List ExecutionJobEdge
  order : List Nat
  expanded : ∀ edge ∈ jobEdges, ∃ source target, jobVertices.get? edge.source = some source ∧
    jobVertices.get? edge.target = some target ∧ ExecutionJobEdge.make source target edge.partitioner = .ok edge
  valid : validateTopology jobVertices jobEdges = .ok ()
  ordered : topologicalJobVertices jobVertices jobEdges = .ok order

namespace ExecutionGraph
variable (graph : ExecutionGraph)

def executionVertices : List ExecutionVertexId := graph.jobVertices.values.flatMap (fun vertex => vertex.executionVertices)

def executionEdges : List (ExecutionVertexId × ExecutionVertexId) := graph.jobEdges.flatMap (fun edge => edge.executionEdges)

def inputJobEdges (jobVertexId : Nat) : List ExecutionJobEdge := graph.jobEdges.filter (fun edge => edge.target = jobVertexId)

def subtasks (jobVertexId : Nat) : List ExecutionVertexId :=
  ((graph.jobVertices.get? jobVertexId).map (fun vertex => vertex.executionVertices)).getD []

def sources : List Nat := sourceJobVertices graph.jobVertices

def sinkJobVertices : List Nat :=
  graph.jobVertices.keys.filter (fun key => key ∉ graph.jobEdges.map (fun edge => edge.source))

def sourceExecutionVertices : List ExecutionVertexId := graph.sources.flatMap graph.subtasks
def sinkExecutionVertices : List ExecutionVertexId := graph.sinkJobVertices.flatMap graph.subtasks

abbrev Alignments : Type := Dict ExecutionVertexId (Dict ExecutionVertexId Nat)

/-- One channel of `_propagate_source_alignment`. -/
def propagateEdge (sourceJobVertexId : Nat) (alignments : Alignments) (edge : ExecutionVertexId × ExecutionVertexId) : Alignments :=
  let sourceCounts := (alignments.get? edge.1).getD ∅
  let targetCounts := (alignments.get? edge.2).getD ∅
  alignments.set edge.2 ((sourceCounts.keys.filter (fun sourceId => sourceId.jobVertexId = sourceJobVertexId)).foldl
    (fun counts sourceId => counts.set sourceId ((counts.get? sourceId).getD 0 + 1)) targetCounts)

def propagateSourceAlignment (sourceJobVertexId : Nat) (alignments : Alignments) (currentJobVertexId : Nat) : Alignments :=
  ((graph.inputJobEdges currentJobVertexId).flatMap (fun edge => edge.executionEdges)).foldl
    (propagateEdge sourceJobVertexId) alignments

def accumulateBarrierSplits (alignments : Alignments) (sourceJobVertexId : Nat) : Alignments :=
  (graph.order.filter (fun current => current ≠ sourceJobVertexId)).foldl (graph.propagateSourceAlignment sourceJobVertexId)
    ((graph.subtasks sourceJobVertexId).foldl (fun alignments source => alignments.set source (Dict.empty.set source 1)) alignments)

def barrierSplits : Alignments := graph.sources.foldl graph.accumulateBarrierSplits ∅

/-- One sink of `coordinator_ack_counts`. -/
def acknowledge (acknowledgements : Dict ExecutionVertexId Nat) (vertex : ExecutionVertexId) :
    Except String (Dict ExecutionVertexId Nat) :=
  match graph.barrierSplits.get? vertex with
  | none => .error missingVertex
  | some counts => .ok (counts.entries.foldl (fun acknowledgements item =>
      acknowledgements.set item.1 ((acknowledgements.get? item.1).getD 0 + (if item.2 = 0 then 0 else 1))) acknowledgements)

/-- `coordinator_ack_counts` (`runtime/coordinator/checkpoint_io.py`) -/
def coordinatorAckCounts : Except String (Dict ExecutionVertexId Nat) := graph.sinkExecutionVertices.foldlM graph.acknowledge ∅

def adjacency : Dict ExecutionVertexId (List ExecutionVertexId) :=
  graph.executionEdges.foldl (fun adjacency edge => (adjacency.push edge.1 edge.2).push edge.2 edge.1)
    (Dict.ofList (graph.executionVertices.map (fun vertex => (vertex,[]))))

/-- `_execution_vertex_id_key` -/
def vertexLe (first second : ExecutionVertexId) : Bool :=
  first.jobVertexId < second.jobVertexId || (first.jobVertexId = second.jobVertexId && first.index ≤ second.index)

variable (sha256 : String → String)

/-- `_checkpoint_domain_id` -/
def checkpointDomainId (vertexIds : List ExecutionVertexId) : String :=
  "checkpoint-domain-" ++ sha256 (String.intercalate "," ((vertexIds.mergeSort vertexLe).map
    (fun vertex => toString vertex.jobVertexId ++ ":" ++ toString vertex.index)))

def componentsLe : List ExecutionVertexId → List ExecutionVertexId → Bool
  | [],_ => true
  | _::_,[] => false
  | first::rest,second::rest' => if first = second then componentsLe rest rest' else vertexLe first second

/-- `CheckpointDomain.__post_init__` -/
def makeDomain (id : String) (vertexIds sourceVertexIds sinkVertexIds : List ExecutionVertexId) : Except String CheckpointDomain :=
  if id = "" then .error "checkpoint domain id must not be empty"
  else if vertexIds = [] then .error "checkpoint domain must contain at least one execution vertex"
  else if ¬ vertexIds.Nodup then .error "checkpoint domain execution vertices must be unique"
  else if ¬ sourceVertexIds ⊆ vertexIds then .error "checkpoint domain sources must be domain members"
  else if ¬ sinkVertexIds ⊆ vertexIds then .error "checkpoint domain sinks must be domain members"
  else .ok ⟨id,vertexIds,sourceVertexIds,sinkVertexIds⟩

def checkpointDomains : Except String (List CheckpointDomain) := do
  let components ← connectedComponents graph.adjacency
  let components := (components.map (fun component => component.mergeSort vertexLe)).mergeSort componentsLe
  components.mapM (fun component => makeDomain (checkpointDomainId sha256 component) component
    (component.filter (fun vertex => vertex ∈ graph.sourceExecutionVertices))
    (component.filter (fun vertex => vertex ∈ graph.sinkExecutionVertices)))

end ExecutionGraph

end Klein.Graph
