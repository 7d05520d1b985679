import Klein.Graph.BarrierSplits
import Klein.Graph.WellFormedGraphs

/-! The constructor of the physical graph: which job vertices and edges it accepts, and
the expansion of a logical graph (`execution_graph.py`). -/
namespace Klein.Graph
open Dict Fallible List Option

def expandEdges (jobVertices : Dict Nat ExecutionJobVertex) (edges : List EdgeSpec) : Except String (List ExecutionJobEdge) :=
  edges.mapM (fun edge =>
    match jobVertices.get? edge.source,jobVertices.get? edge.target with
    | some source,some target => ExecutionJobEdge.make source target edge.partitioner
    | _,_ => .error missingVertex)

section make
variable (jobVertices : Dict Nat ExecutionJobVertex) (edges : List EdgeSpec)

def Keyed : Prop := ∀ key vertex, jobVertices.get? key = some vertex → vertex.id = key

def ExecutionJobEdge.spec (edge : ExecutionJobEdge) : EdgeSpec := ⟨edge.source,edge.target,edge.partitioner⟩

def Expanded (edge : ExecutionJobEdge) : Prop := ∃ source target, jobVertices.get? edge.source = some source ∧
  jobVertices.get? edge.target = some target ∧ ExecutionJobEdge.make source target edge.partitioner = .ok edge

theorem expandEdges_spec (keyed : Keyed jobVertices) (jobEdges : List ExecutionJobEdge)
    (done : expandEdges jobVertices edges = .ok jobEdges) :
    jobEdges.map ExecutionJobEdge.spec = edges ∧ ∀ edge ∈ jobEdges, Expanded jobVertices edge := by
  unfold expandEdges at done
  induction edges generalizing jobEdges with
  | nil =>
    obtain rfl := Except.ok.inj done
    exact ⟨rfl,by simp⟩
  | cons edge rest ih =>
    rw [mapM_cons] at done
    obtain ⟨first,here,done⟩ := bind_ok done
    obtain ⟨others,later,done⟩ := bind_ok done
    obtain rfl := Except.ok.inj done
    obtain ⟨same,expanded⟩ := ih others later
    split at here
    next source target found found' =>
      obtain ⟨-,from',to',partitioner,-⟩ := make_ok source target edge.partitioner first here
      rw [keyed _ _ found] at from'
      rw [keyed _ _ found'] at to'
      refine ⟨?_,forall_mem_cons.mpr ⟨⟨source,target,?_,?_,?_⟩,expanded⟩⟩
      · rw [map_cons,same]
        congr 1
        unfold ExecutionJobEdge.spec
        rw [from',to',partitioner]
      · rw [from',found]
      · rw [to',found']
      · rw [partitioner]
        exact here
    next => contradiction

theorem expandEdges_ok (joins : ∀ edge ∈ edges, ∃ source target, jobVertices.get? edge.source = some source ∧
      jobVertices.get? edge.target = some target ∧ Joins edge.partitioner.topology source.concurrency target.concurrency) :
    ∃ jobEdges, expandEdges jobVertices edges = .ok jobEdges := by
  obtain ⟨jobEdges,done,-⟩ := mapM_ok edges (fun edge =>
    match jobVertices.get? edge.source,jobVertices.get? edge.target with
    | some source,some target => ExecutionJobEdge.make source target edge.partitioner
    | _,_ => .error missingVertex) (by
      intro edge own
      obtain ⟨source,target,found,found',joins⟩ := joins edge own
      obtain ⟨channels,made,-⟩ := createExecutionEdges_ok source target edge.partitioner joins
      refine ⟨⟨source.id,target.id,edge.partitioner,channels⟩,?_⟩
      simp only [found,found']
      unfold ExecutionJobEdge.make
      rw [made]
      rfl)
  exact ⟨jobEdges,done⟩

/-- `ExecutionGraph(...)` -/
def ExecutionGraph.make (jobEdges : List ExecutionJobEdge) (expanded : ∀ edge ∈ jobEdges, Expanded jobVertices edge) :
    Except String ExecutionGraph :=
  match valid : validateTopology jobVertices jobEdges with
  | .error message => .error message
  | .ok () =>
    match ordered : topologicalJobVertices jobVertices jobEdges with
    | .error message => .error message
    | .ok order => .ok ⟨jobVertices,jobEdges,order,expanded,valid,ordered⟩

def ExecutionGraph.ofEdges (keyed : Keyed jobVertices) : Except String ExecutionGraph :=
  match done : expandEdges jobVertices edges with
  | .error message => .error message
  | .ok jobEdges => ExecutionGraph.make jobVertices jobEdges (expandEdges_spec jobVertices edges keyed jobEdges done).2

structure Topology : Prop where
  distinct : (edges.map EdgeSpec.pair).Nodup
  joins : ∀ edge ∈ edges, ∃ source target, jobVertices.get? edge.source = some source ∧
    jobVertices.get? edge.target = some target ∧ Joins edge.partitioner.topology source.concurrency target.concurrency
  roots : ∀ key, (∃ vertex, jobVertices.get? key = some vertex ∧ vertex.source = true) ↔
    key ∈ jobVertices.keys ∧ ∀ edge ∈ edges, edge.target ≠ key
  acyclic : ∃ order, (∀ key ∈ jobVertices.keys, key ∈ order) ∧ Ordered (edges.map EdgeSpec.pair) order

theorem checkKeys_iff (items : List (Nat × ExecutionJobVertex)) : checkKeys items = .ok () ↔ ∀ item ∈ items, item.2.id = item.1 := by
  refine ⟨checkKeys_ok items,fun keyed => ?_⟩
  induction items with
  | nil => rfl
  | cons item rest ih =>
    obtain ⟨here,later⟩ := forall_mem_cons.mp keyed
    rw [checkKeys,if_neg (not_not.mpr here)]
    exact ih later

theorem mem_sourceJobVertices (key : Nat) : key ∈ sourceJobVertices jobVertices ↔
    ∃ vertex, jobVertices.get? key = some vertex ∧ vertex.source = true := by
  unfold sourceJobVertices
  constructor
  · intro listed
    obtain ⟨⟨_,vertex⟩,inside,rfl⟩ := List.mem_map.mp listed
    obtain ⟨own,source⟩ := mem_filter.mp inside
    exact ⟨vertex,(jobVertices.get?_eq_some _ _).mpr own,source⟩
  · rintro ⟨vertex,found,source⟩
    exact List.mem_map.mpr ⟨(key,vertex),mem_filter.mpr ⟨(jobVertices.get?_eq_some _ _).mp found,source⟩,rfl⟩

theorem pairsOf_spec (jobEdges : List ExecutionJobEdge) (same : jobEdges.map ExecutionJobEdge.spec = edges) :
    pairsOf jobEdges = edges.map EdgeSpec.pair := by
  rw [← same,List.map_map]
  rfl

theorem ExecutionGraph.make_ok (keyed : Keyed jobVertices) (topology : Topology jobVertices edges) (jobEdges : List ExecutionJobEdge)
    (expanded : ∀ edge ∈ jobEdges, Expanded jobVertices edge) (same : jobEdges.map ExecutionJobEdge.spec = edges) :
    ∃ graph, ExecutionGraph.make jobVertices jobEdges expanded = .ok graph ∧ graph.jobVertices = jobVertices ∧
      graph.jobEdges = jobEdges := by
  have pairs := pairsOf_spec edges jobEdges same
  have ends (edge : EdgeSpec) (own : edge ∈ edges) : edge.source ∈ jobVertices.keys ∧ edge.target ∈ jobVertices.keys := by
    obtain ⟨source,target,found,found',-⟩ := topology.joins edge own
    exact ⟨(jobVertices.mem_keys _).mpr ⟨source,found⟩,(jobVertices.mem_keys _).mpr ⟨target,found'⟩⟩
  have valid : validateTopology jobVertices jobEdges = .ok () := by
    unfold validateTopology
    rw [pairs,@ok_bind _ _ _ _ _ () ((checkKeys_iff _).mpr ?_),@ok_bind _ _ _ _ _ () ((checkPairs_iff _ _ _ _ _).mpr ?_)]
    · refine (checkRoots_iff _ _ _ _).mpr (fun key => ?_)
      rw [mem_sourceJobVertices,List.forall_mem_map]
      exact topology.roots key
    · exact ⟨topology.distinct,by simp,List.forall_mem_map.mpr ends⟩
    · rintro ⟨key,vertex⟩ own
      exact keyed key vertex ((jobVertices.get?_eq_some key vertex).mpr own)
  obtain ⟨order,whole,sorted⟩ := topology.acyclic
  have heads : ∀ pair ∈ edges.map EdgeSpec.pair, pair.2 ∈ jobVertices.keys := List.forall_mem_map.mpr (fun edge own => (ends edge own).2)
  have tails : ∀ pair ∈ edges.map EdgeSpec.pair, pair.1 ∈ jobVertices.keys := List.forall_mem_map.mpr (fun edge own => (ends edge own).1)
  obtain ⟨found,computed,-⟩ := topologicalOrder_spec enqueue jobVertices.keys _ pushes_enqueue jobVertices.distinct topology.distinct heads
  have length := complete_of_ordered enqueue _ _ pushes_enqueue jobVertices.distinct topology.distinct heads tails order whole sorted
    found computed
  have ordered : topologicalJobVertices jobVertices jobEdges = .ok found := by
    unfold topologicalJobVertices
    rw [pairs,computed]
    exact if_neg (not_not.mpr length)
  unfold ExecutionGraph.make
  split
  next message raised =>
    rw [valid] at raised
    contradiction
  next =>
    split
    next message raised =>
      rw [ordered] at raised
      contradiction
    next => exact ⟨_,rfl,rfl,rfl⟩

theorem ExecutionGraph.ofEdges_ok (keyed : Keyed jobVertices) (topology : Topology jobVertices edges) :
    ∃ graph, ExecutionGraph.ofEdges jobVertices edges keyed = .ok graph ∧ graph.jobVertices = jobVertices ∧
      graph.jobEdges.map ExecutionJobEdge.spec = edges := by
  obtain ⟨jobEdges,done⟩ := expandEdges_ok jobVertices edges topology.joins
  obtain ⟨same,expanded⟩ := expandEdges_spec jobVertices edges keyed jobEdges done
  obtain ⟨graph,made,vertices,rfl⟩ := ExecutionGraph.make_ok jobVertices edges keyed topology jobEdges expanded same
  refine ⟨graph,?_,vertices,same⟩
  unfold ExecutionGraph.ofEdges
  split
  next message raised =>
    rw [done] at raised
    contradiction
  next others done' =>
    cases done.symm.trans done'
    exact made

theorem ExecutionGraph.of_ofEdges (keyed : Keyed jobVertices) (graph : ExecutionGraph)
    (done : ExecutionGraph.ofEdges jobVertices edges keyed = .ok graph) : graph.jobVertices = jobVertices ∧
      graph.jobEdges.map ExecutionJobEdge.spec = edges := by
  unfold ExecutionGraph.ofEdges at done
  split at done
  next => contradiction
  next jobEdges expanded =>
    unfold ExecutionGraph.make at done
    split at done
    next => contradiction
    next =>
      split at done
      next => contradiction
      next =>
        obtain rfl := Except.ok.inj done
        exact ⟨rfl,(expandEdges_spec jobVertices edges keyed jobEdges expanded).1⟩

end make

namespace ExecutionGraph
variable (graph : ExecutionGraph)

theorem keyed : Keyed graph.jobVertices := graph.checked.1

theorem topology : Topology graph.jobVertices (graph.jobEdges.map ExecutionJobEdge.spec) := by
  obtain ⟨-,distinct,-,roots⟩ := graph.checked
  obtain ⟨-,whole,sorted⟩ := graph.order_spec
  have pairs := pairsOf_spec _ graph.jobEdges rfl
  rw [pairs] at distinct sorted
  refine ⟨distinct,List.forall_mem_map.mpr (fun edge own => ?_),fun key => ?_,graph.order,fun key known => (whole key).mpr known,sorted⟩
  · obtain ⟨source,target,found,found',made⟩ := graph.expanded edge own
    exact ⟨source,target,found,found',(Graph.make_ok source target edge.partitioner edge made).1⟩
  · rw [← mem_sourceJobVertices,List.forall_mem_map]
    exact roots key

theorem channels_cover (edge : ExecutionJobEdge) (own : edge ∈ graph.jobEdges) :
    (∀ target ∈ graph.subtasks edge.target, ∃ source, (source,target) ∈ edge.executionEdges) ∧
      ∀ source ∈ graph.subtasks edge.source, ∃ target, (source,target) ∈ edge.executionEdges := by
  obtain ⟨sourceVertex,targetVertex,found,found',made⟩ := graph.expanded edge own
  obtain ⟨joins,-,-,-,spec⟩ := Graph.make_ok sourceVertex targetVertex edge.partitioner edge made
  have from' := graph.keyed _ _ found
  have to' := graph.keyed _ _ found'
  constructor
  · intro target listed
    obtain ⟨own,_,same,small⟩ := (graph.mem_subtasks _ _).mp listed
    cases found'.symm.trans same
    obtain ⟨sourceIndex,within,indices,chosen,picked⟩ := targetIndices_cover _ _ _ joins target.index small
    refine ⟨⟨sourceVertex.id,sourceIndex⟩,(spec _).mpr ⟨sourceIndex,within,indices,chosen,target.index,picked,?_⟩⟩
    rw [to',← own]
  · intro source listed
    obtain ⟨own,_,same,small⟩ := (graph.mem_subtasks _ _).mp listed
    cases found.symm.trans same
    obtain ⟨indices,chosen,some,-⟩ := targetIndices_ok _ _ _ joins source.index small
    obtain ⟨targetIndex,picked⟩ := exists_mem_of_ne_nil indices some
    refine ⟨⟨targetVertex.id,targetIndex⟩,(spec _).mpr ⟨source.index,small,indices,chosen,targetIndex,picked,?_⟩⟩
    rw [from',← own]

end ExecutionGraph

namespace LogicalGraph
variable {ω : Type} [OperatorRecipe ω] (graph : LogicalGraph ω)

def jobVertices : Dict Nat ExecutionJobVertex := graph.vertices.mapValues (fun _ vertex =>
  ⟨vertex.index,vertex.concurrency,OperatorRecipe.source vertex.operator,vertex.resources.positive⟩)

theorem keyed : Keyed graph.jobVertices := by
  intro key jobVertex found
  unfold jobVertices at found
  rw [get?_mapValues] at found
  obtain ⟨vertex,own,rfl⟩ := map_eq_some_iff.mp found
  exact graph.wellFormed.2.indices key vertex own

/-- `ExecutionGraph.expand` -/
def expand : Except String ExecutionGraph := ExecutionGraph.ofEdges graph.jobVertices graph.edges graph.keyed

def concurrencyOf (key : Nat) : Nat := ((graph.vertices.get? key).map VertexSpec.concurrency).getD 0

def Matched : Prop := ∀ edge ∈ graph.edges, edge.partitioner = .forward → graph.concurrencyOf edge.source = graph.concurrencyOf edge.target

theorem topology (matched : graph.Matched) : Topology graph.jobVertices graph.edges := by
  have wellFormed := graph.wellFormed.2
  have keys (key : Nat) : key ∈ graph.jobVertices.keys ↔ key ∈ graph.vertices.keys := by
    rw [Dict.mem_keys,Dict.mem_keys,jobVertices,get?_mapValues]
    simp
  refine ⟨wellFormed.distinct,fun edge own => ?_,fun key => ?_,?_⟩
  · obtain ⟨first,second⟩ := wellFormed.ends edge own
    obtain ⟨source,found⟩ := (graph.vertices.mem_keys _).mp first
    obtain ⟨target,found'⟩ := (graph.vertices.mem_keys _).mp second
    refine ⟨_,_,(get?_mapValues _ _ _).trans (by rw [found]; rfl),(get?_mapValues _ _ _).trans (by rw [found']; rfl),
      source.resources.positive,target.resources.positive,fun forward => ?_⟩
    have equal := matched edge own (by revert forward; cases edge.partitioner <;> simp [PartitionerSpec.topology])
    unfold concurrencyOf at equal
    rw [found,found'] at equal
    exact equal
  · rw [keys,jobVertices,get?_mapValues,← wellFormed.roots key]
    cases graph.vertices.get? key <;> simp
  · obtain ⟨order,whole,sorted⟩ := wellFormed.acyclic
    exact ⟨order,fun key known => whole key ((keys key).mp known),sorted⟩

theorem expand_ok (matched : graph.Matched) : ∃ physical, graph.expand = .ok physical ∧
    physical.jobVertices = graph.jobVertices ∧ physical.jobEdges.map ExecutionJobEdge.spec = graph.edges :=
  ExecutionGraph.ofEdges_ok _ _ graph.keyed (graph.topology matched)

theorem matched_of_expand (physical : ExecutionGraph) (done : graph.expand = .ok physical) : graph.Matched := by
  obtain ⟨vertices,edges⟩ := ExecutionGraph.of_ofEdges _ _ graph.keyed physical done
  intro edge own forward
  have joins := physical.topology.joins
  rw [edges,vertices] at joins
  obtain ⟨source,target,found,found',-,-,equal⟩ := joins edge own
  unfold jobVertices at found found'
  rw [get?_mapValues] at found found'
  obtain ⟨first,here,rfl⟩ := map_eq_some_iff.mp found
  obtain ⟨second,there,rfl⟩ := map_eq_some_iff.mp found'
  unfold concurrencyOf
  rw [here,there]
  exact equal (by rw [forward]; rfl)

end LogicalGraph
end Klein.Graph
