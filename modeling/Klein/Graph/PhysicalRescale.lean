import Klein.Graph.LogicalRescale

/-! Changes of parallelism in the physical graph. The subtasks that remain are rebound
to the resized job vertex and keep their runtime, which is the actor with its generation
and status. -/
namespace Klein.Graph
open Fallible List
variable {τ : Type}

/-- One physical subtask; `runtime` is what `rebind` copies. -/
structure ExecutionVertex (τ : Type) where
  id : ExecutionVertexId
  concurrency : Nat
  runtime : τ

def ExecutionVertex.rebind (vertex : ExecutionVertex τ) (concurrency : Nat) : Except String (ExecutionVertex τ) :=
  if concurrency ≤ vertex.id.index then .error "concurrency must include the retained subtask index"
  else .ok {vertex with concurrency := concurrency}

/-- `tasks` are the subtasks of each job vertex by their index. -/
structure PhysicalGraph (τ : Type) where
  graph : ExecutionGraph
  tasks : Nat → List (ExecutionVertex τ)

section fresh
variable (fresh : ExecutionVertexId → τ)

/-- `_create_execution_vertices` -/
def newTasks (vertex : ExecutionJobVertex) : List (ExecutionVertex τ) :=
  (List.range vertex.concurrency).map (fun index => ⟨⟨vertex.id,index⟩,vertex.concurrency,fresh ⟨vertex.id,index⟩⟩)

def deploy {ω : Type} [OperatorRecipe ω] (logical : LogicalGraph ω) : Except String (PhysicalGraph τ) := do
  let graph ← logical.expand
  return ⟨graph,fun key => ((graph.jobVertices.get? key).map (newTasks fresh)).getD []⟩

namespace PhysicalGraph
variable (physical : PhysicalGraph τ)

theorem keyed_set (vertices : Dict Nat ExecutionJobVertex) (keyed : Keyed vertices) (key : Nat) (vertex : ExecutionJobVertex)
    (own : vertex.id = key) : Keyed (vertices.set key vertex) := by
  intro other found here
  rw [Dict.get?_set] at here
  split at here
  next same =>
    obtain rfl := Option.some.inj here
    exact own.trans same.symm
  next => exact keyed other found here

def retain (key concurrency index : Nat) : Except String (ExecutionVertex τ) :=
  match (physical.tasks key)[index]? with
  | none => .error missingVertex
  | some vertex => vertex.rebind concurrency

/-- `_rescale_operator_spec` -/
def rescaleOperatorSpec (key : Nat) (vertex : ExecutionJobVertex) (own : vertex.id = key) (edges : List EdgeSpec) :
    Except String (PhysicalGraph τ) :=
  match physical.graph.jobVertices.get? key with
  | none => .error missingVertex
  | some old =>
    if old.concurrency = vertex.concurrency then .ok physical
    else do
      let retained ← (List.range (min old.concurrency vertex.concurrency)).mapM (physical.retain key vertex.concurrency)
      let graph ← ExecutionGraph.ofEdges (physical.graph.jobVertices.set key vertex) edges
        (keyed_set _ physical.graph.keyed key vertex own)
      return ⟨graph,fun other => if other = key then retained ++ (newTasks fresh vertex).drop retained.length else physical.tasks other⟩

def concurrencyOf (key : Nat) : Nat := ((physical.graph.jobVertices.get? key).map ExecutionJobVertex.concurrency).getD 0

/-- One edge of the loop of `resize_operator`. -/
def resizeEdge (key parallelism : Nat) (edge : ExecutionJobEdge) : EdgeSpec :=
  let sourceParallelism := if edge.source = key then parallelism else physical.concurrencyOf edge.source
  let targetParallelism := if edge.target = key then parallelism else physical.concurrencyOf edge.target
  let partitioner :=
    if (key = edge.source ∨ key = edge.target) ∧ edge.partitioner = .forward ∧ sourceParallelism ≠ targetParallelism then
      defaultPartitioner (.scalar sourceParallelism) (.scalar targetParallelism)
    else edge.partitioner
  ⟨edge.source,edge.target,partitioner⟩

def resizeOperator (key parallelism : Nat) : Except String (PhysicalGraph τ) :=
  if positive : 0 < parallelism then
    match found : physical.graph.jobVertices.get? key with
    | none => .error missingVertex
    | some old => physical.rescaleOperatorSpec fresh key ⟨old.id,parallelism,old.source,positive⟩
        (physical.graph.keyed key old found) (physical.graph.jobEdges.map (physical.resizeEdge key parallelism))
  else .error "parallelism must be positive"

def rescaleOperator {ω : Type} [OperatorRecipe ω] (logical : LogicalGraph ω) (operatorId : LogicalGraph.OperatorId) :
    Except String (PhysicalGraph τ) := do
  let key ← logical.resolveOperator operatorId
  if ¬ (logical.vertices.keys ⊆ physical.graph.jobVertices.keys ∧ physical.graph.jobVertices.keys ⊆ logical.vertices.keys) then
    throw "rescale requires the logical and execution graphs to contain the same operators"
  match found : logical.jobVertices.get? key with
  | none => .error missingVertex
  | some vertex => physical.rescaleOperatorSpec fresh key vertex (logical.keyed key vertex found) logical.edges

def Aligned : Prop := ∀ key, (physical.tasks key).map ExecutionVertex.id = physical.graph.subtasks key

/-- What a rescale keeps: the other operators, and the runtimes of the subtasks that both
parallelisms have. -/
structure Keeps (key : Nat) (after : PhysicalGraph τ) : Prop where
  others : ∀ other ≠ key, after.tasks other = physical.tasks other
  common : ∀ (index : Nat) (vertex vertex' : ExecutionVertex τ), (physical.tasks key)[index]? = some vertex → (after.tasks key)[index]? = some vertex' →
    vertex'.runtime = vertex.runtime ∧ vertex'.id = vertex.id

section spec
variable (key : Nat) (old vertex : ExecutionJobVertex) (own : vertex.id = key) (edges : List EdgeSpec)

theorem newTasks_id (vertex : ExecutionJobVertex) : (newTasks fresh vertex).map ExecutionVertex.id = vertex.executionVertices := by
  unfold newTasks
  rw [List.map_map]
  rfl

theorem retain_mapM (aligned : physical.Aligned) (found : physical.graph.jobVertices.get? key = some old) (count concurrency : Nat)
    (few : count ≤ old.concurrency) (bound : count ≤ concurrency) :
    ∃ retained, (List.range count).mapM (physical.retain key concurrency) = .ok retained ∧ retained.length = count ∧
      ∀ (index : Nat) (rebound : ExecutionVertex τ), retained[index]? = some rebound → ∃ vertex, (physical.tasks key)[index]? = some vertex ∧
        rebound.runtime = vertex.runtime ∧ rebound.id = ⟨key,index⟩ ∧ vertex.id = ⟨key,index⟩ := by
  have ids := aligned key
  unfold ExecutionGraph.subtasks at ids
  rw [found] at ids
  have length : (physical.tasks key).length = old.concurrency := by
    have same := congrArg List.length ids
    simpa [ExecutionJobVertex.executionVertices] using same
  obtain ⟨retained,done,size,spec⟩ := mapM_at (List.range count) (physical.retain key concurrency) id
    (fun index rebound => ∃ vertex, (physical.tasks key)[index]? = some vertex ∧
        rebound.runtime = vertex.runtime ∧ rebound.id = ⟨key,index⟩ ∧ vertex.id = ⟨key,index⟩) (by
      intro index listed
      have small := mem_range.mp listed
      have inside : index < (physical.tasks key).length := by omega
      have here := getElem?_eq_getElem inside
      have named : (physical.tasks key)[index].id = ⟨key,index⟩ := by
        have place := congrArg (fun list => list[index]?) ids
        rw [getElem?_map,here] at place
        have within : index < old.concurrency := by omega
        simpa [ExecutionJobVertex.executionVertices,within,physical.graph.keyed key old found] using place
      refine ⟨{(physical.tasks key)[index] with concurrency := concurrency},?_,(physical.tasks key)[index],here,rfl,named,named⟩
      unfold retain
      rw [here]
      refine if_neg ?_
      rw [named]
      dsimp only
      omega)
  refine ⟨retained,by rw [done,List.map_id],size.trans length_range,fun index rebound at' => ?_⟩
  have inside : index < count := by
    have := (List.getElem?_eq_some_iff.mp at').1
    rw [size,length_range] at this
    exact this
  exact spec index index rebound (by simp [inside]) at'

theorem rescaleOperatorSpec_same (found : physical.graph.jobVertices.get? key = some old) (same : old.concurrency = vertex.concurrency) :
    physical.rescaleOperatorSpec fresh key vertex own edges = .ok physical := by
  unfold rescaleOperatorSpec
  rw [found]
  exact if_pos same

theorem rescaleOperatorSpec_ok (aligned : physical.Aligned) (found : physical.graph.jobVertices.get? key = some old)
    (different : old.concurrency ≠ vertex.concurrency) (topology : Topology (physical.graph.jobVertices.set key vertex) edges) :
    ∃ after, physical.rescaleOperatorSpec fresh key vertex own edges = .ok after ∧ after.Aligned ∧ physical.Keeps key after ∧
      after.graph.jobVertices = physical.graph.jobVertices.set key vertex ∧
      after.graph.jobEdges.map ExecutionJobEdge.spec = edges := by
  obtain ⟨retained,done,length,spec⟩ := physical.retain_mapM key old aligned found (min old.concurrency vertex.concurrency)
    vertex.concurrency (Nat.min_le_left _ _) (Nat.min_le_right _ _)
  obtain ⟨graph,made,vertices,same⟩ := ExecutionGraph.ofEdges_ok _ edges
    (keyed_set _ physical.graph.keyed key vertex own) topology
  have size : (physical.tasks key).length = old.concurrency := by
    have count := congrArg List.length (aligned key)
    unfold ExecutionGraph.subtasks at count
    rw [found] at count
    simpa [ExecutionJobVertex.executionVertices] using count
  have here : graph.subtasks key = vertex.executionVertices := by
    unfold ExecutionGraph.subtasks
    rw [vertices,Dict.get?_set,if_pos rfl]
    rfl
  have aligned' : (retained ++ (newTasks fresh vertex).drop retained.length).map ExecutionVertex.id = vertex.executionVertices := by
    rw [map_append,map_drop,newTasks_id]
    refine ext_getElem? (fun index => ?_)
    by_cases small : index < retained.length
    · rw [getElem?_append_left (by rw [length_map]; exact small),getElem?_map,getElem?_eq_getElem small]
      obtain ⟨_,-,-,named,-⟩ := spec index _ (getElem?_eq_getElem small)
      have inside : index < vertex.concurrency := by omega
      simp [named,ExecutionJobVertex.executionVertices,inside,own]
    · rw [getElem?_append_right (by rw [length_map]; omega),getElem?_drop,length_map,
        Nat.add_sub_cancel' (by omega)]
  refine ⟨⟨graph,fun other => if other = key then retained ++ (newTasks fresh vertex).drop retained.length else physical.tasks other⟩,
    ?_,fun other => ?_,⟨fun other apart => if_neg apart,fun index before after was now => ?_⟩,vertices,same⟩
  · unfold rescaleOperatorSpec
    rw [found]
    dsimp only
    rw [if_neg different,ok_bind done,ok_bind made]
    rfl
  · by_cases apart : other = key
    · subst apart
      rw [here]
      exact (congrArg (List.map ExecutionVertex.id) (if_pos rfl)).trans aligned'
    · refine (congrArg (List.map ExecutionVertex.id) (if_neg apart)).trans ((aligned other).trans ?_)
      unfold ExecutionGraph.subtasks
      rw [vertices,Dict.get?_set,if_neg apart]
  · dsimp only at now
    rw [if_pos rfl] at now
    have within := (List.getElem?_eq_some_iff.mp was).1
    have within' := (List.getElem?_eq_some_iff.mp now).1
    have total := congrArg List.length aligned'
    rw [length_map,ExecutionJobVertex.executionVertices,length_map,length_range] at total
    rw [getElem?_append_left (by omega)] at now
    obtain ⟨own',found',runtime,named,named'⟩ := spec index after now
    cases was.symm.trans found'
    exact ⟨runtime,named.trans named'.symm⟩

end spec
end PhysicalGraph
end fresh
end Klein.Graph
