import Klein.Graph.LogicalRescale
import Klein.Graph.StreamDag

/-! The removal of union vertices (`UnionRule`): every upstream of a union is joined to
every downstream of it, one union after the other. -/
namespace Klein.Graph
open Fallible List
variable {ω : Type}

def joinDownstream (downstreamIds : List Nat) (builder : LogicalGraphBuilder ω) (upstreamId : Nat) :
    Except String (LogicalGraphBuilder ω) := do
  let upstream ← builder.vertex upstreamId
  downstreamIds.foldlM (fun builder downstreamId => do
    let downstream ← builder.vertex downstreamId
    builder.addEdge ⟨upstreamId,downstreamId,defaultPartitioner (.scalar upstream.concurrency) (.scalar downstream.concurrency)⟩) builder

def removeUnion (builder : LogicalGraphBuilder ω) (unionId : Nat) : Except String (LogicalGraphBuilder ω) := do
  let builder ← (builder.upstream unionId).foldlM (joinDownstream (builder.downstream unionId)) builder
  builder.removeVertex unionId

def unionIds (vertices : Dict Nat (VertexSpec ω)) : List Nat :=
  (vertices.entries.filter (fun item => item.2.nodeType = .union)).map Prod.fst

/-- `UnionRule.apply` -/
def unionRule [OperatorRecipe ω] (graph : LogicalGraph ω) : Except String (LogicalGraph ω) := do
  let builder ← (unionIds graph.vertices).foldlM removeUnion graph.toBuilder
  builder.build

/-! Adding several edges. -/
section addEdges
variable (builder : LogicalGraphBuilder ω) (edges : List EdgeSpec)

def Agrees (edges : List EdgeSpec) : Prop := ∀ first ∈ edges, ∀ second ∈ edges, first.pair = second.pair → first = second

structure Extends (after : LogicalGraphBuilder ω) : Prop where
  job : after.jobName = builder.jobName
  vertices : after.vertices = builder.vertices
  edges : ∀ edge, edge ∈ after.edges ↔ edge ∈ builder.edges ∨ edge ∈ edges
  distinct : (after.edges.map EdgeSpec.pair).Nodup

theorem Agrees.of_distinct (distinct : (edges.map EdgeSpec.pair).Nodup) : Agrees edges :=
  fun _ one _ other same => inj_on_of_nodup_map distinct one other same

variable (known : ∀ edge ∈ edges, builder.vertices.contains edge.source = true ∧ builder.vertices.contains edge.target = true)
variable (distinct : (builder.edges.map EdgeSpec.pair).Nodup)

include distinct in
theorem addEdge_cases (edge : EdgeSpec) (source : builder.vertices.contains edge.source = true)
    (target : builder.vertices.contains edge.target = true) :
    (∃ after, builder.addEdge edge = .ok after ∧ Extends builder [edge] after) ∨
      ((∃ message, builder.addEdge edge = .error message) ∧ ∃ existing ∈ builder.edges, existing.pair = edge.pair ∧ existing ≠ edge) := by
  unfold LogicalGraphBuilder.addEdge
  rw [if_neg (by simp [source,target])]
  cases found : builder.edge edge.source edge.target with
  | none =>
    refine .inl ⟨_,rfl,rfl,rfl,fun other => by simp,?_⟩
    dsimp only
    rw [map_append]
    refine distinct.append (nodup_singleton _) (fun pair old last => ?_)
    obtain ⟨other,own,rfl⟩ := List.mem_map.mp old
    obtain ⟨source',target'⟩ := Prod.mk.inj (mem_singleton.mp last)
    exact find?_eq_none.mp found other own (decide_eq_true ⟨source',target'⟩)
  | some existing =>
    have own := mem_of_find?_eq_some found
    obtain ⟨source',target'⟩ : existing.source = edge.source ∧ existing.target = edge.target := by simpa using find?_some found
    dsimp only
    by_cases same : existing = edge
    · rw [if_pos same]
      refine .inl ⟨builder,rfl,rfl,rfl,fun other => ?_,distinct⟩
      rw [mem_singleton]
      refine ⟨.inl,?_⟩
      rintro (old | rfl)
      · exact old
      · exact same ▸ own
    · rw [if_neg same]
      exact .inr ⟨⟨_,rfl⟩,existing,own,Prod.ext source' target',same⟩

include known distinct in
theorem addEdges_spec :
    (∀ after, edges.foldlM LogicalGraphBuilder.addEdge builder = .ok after → Extends builder edges after) ∧
      (Agrees (builder.edges ++ edges) → ∃ after, edges.foldlM LogicalGraphBuilder.addEdge builder = .ok after) := by
  induction edges generalizing builder with
  | nil =>
    refine ⟨fun after done => ?_,fun _ => ⟨builder,rfl⟩⟩
    obtain rfl := Except.ok.inj done
    exact ⟨rfl,rfl,by simp,distinct⟩
  | cons edge rest ih =>
    obtain ⟨⟨source,target⟩,known⟩ := forall_mem_cons.mp known
    rcases addEdge_cases builder distinct edge source target with ⟨next,added,extends'⟩ | ⟨⟨message,raised⟩,existing,own,pair,other⟩
    · obtain ⟨of_ok,ok⟩ := ih next (by rw [extends'.vertices]; exact known) extends'.distinct
      refine ⟨fun after done => ?_,fun agrees => ?_⟩
      · rw [foldlM_cons,ok_bind added] at done
        have more := of_ok after done
        refine ⟨more.job.trans extends'.job,more.vertices.trans extends'.vertices,fun other => ?_,more.distinct⟩
        rw [more.edges,extends'.edges,mem_singleton,mem_cons,or_assoc]
      · obtain ⟨after,done⟩ := ok (fun first one second two => by
          rw [mem_append,extends'.edges,mem_singleton,or_assoc,← mem_cons,← mem_append] at one two
          exact agrees first one second two)
        exact ⟨after,by rw [foldlM_cons,ok_bind added]; exact done⟩
    · refine ⟨fun after done => ?_,fun agrees => ?_⟩
      · obtain ⟨_,added,-⟩ := bind_ok done
        rw [raised] at added
        contradiction
      · exact absurd (agrees existing (mem_append_left _ own) edge (by simp) pair) other

end addEdges

/-! The removal of one union. -/
section removal
variable (builder : LogicalGraphBuilder ω) (distinct : (builder.edges.map EdgeSpec.pair).Nodup)

def bridge (builder : LogicalGraphBuilder ω) (source target : Nat) : EdgeSpec := ⟨source,target,
  defaultPartitioner (.scalar (LogicalGraph.parallelismOf builder.vertices source))
    (.scalar (LogicalGraph.parallelismOf builder.vertices target))⟩

def bridges (builder : LogicalGraphBuilder ω) (unionId : Nat) : List EdgeSpec :=
  (builder.upstream unionId).flatMap (fun source => (builder.downstream unionId).map (bridge builder source))

theorem addEdge_vertices (after : LogicalGraphBuilder ω) (edge : EdgeSpec) (done : builder.addEdge edge = .ok after) :
    after.vertices = builder.vertices := by
  unfold LogicalGraphBuilder.addEdge at done
  split at done
  next => contradiction
  next =>
    split at done
    next =>
      obtain rfl := Except.ok.inj done
      rfl
    next =>
      split at done
      next =>
        obtain rfl := Except.ok.inj done
        rfl
      next => contradiction

theorem joinDownstream_eq (vertices : Dict Nat (VertexSpec ω)) (downstreamIds : List Nat) (source : Nat)
    (known : ∀ target ∈ downstreamIds, ∃ spec, vertices.get? target = some spec) (found : ∃ spec, vertices.get? source = some spec)
    (current : LogicalGraphBuilder ω) (same : current.vertices = vertices) :
    joinDownstream downstreamIds current source =
      (downstreamIds.map (fun target => (⟨source,target,defaultPartitioner (.scalar (LogicalGraph.parallelismOf vertices source))
        (.scalar (LogicalGraph.parallelismOf vertices target))⟩ : EdgeSpec))).foldlM LogicalGraphBuilder.addEdge current := by
  obtain ⟨upstream,here⟩ := found
  have one : current.vertex source = .ok upstream := by
    unfold LogicalGraphBuilder.vertex
    rw [same,here]
  have first : LogicalGraph.parallelismOf vertices source = upstream.concurrency := by
    unfold LogicalGraph.parallelismOf
    rw [here]
    rfl
  unfold joinDownstream
  rw [ok_bind one,first]
  clear one
  induction downstreamIds generalizing current with
  | nil => rfl
  | cons target rest ih =>
    obtain ⟨⟨downstream,there⟩,known⟩ := forall_mem_cons.mp known
    have two : current.vertex target = .ok downstream := by
      unfold LogicalGraphBuilder.vertex
      rw [same,there]
    have second : LogicalGraph.parallelismOf vertices target = downstream.concurrency := by
      unfold LogicalGraph.parallelismOf
      rw [there]
      rfl
    rw [foldlM_cons,map_cons,foldlM_cons,ok_bind two,second]
    cases added : current.addEdge ⟨source,target,
        defaultPartitioner (.scalar upstream.concurrency) (.scalar downstream.concurrency)⟩ with
    | error message => rfl
    | ok next =>
      rw [ok_bind rfl,ok_bind rfl]
      exact ih known next ((addEdge_vertices current next _ added).trans same)

theorem joinDownstream_foldlM (vertices : Dict Nat (VertexSpec ω)) (upstreamIds downstreamIds : List Nat)
    (known : ∀ target ∈ downstreamIds, ∃ spec, vertices.get? target = some spec)
    (found : ∀ source ∈ upstreamIds, ∃ spec, vertices.get? source = some spec)
    (current : LogicalGraphBuilder ω) (same : current.vertices = vertices) :
    upstreamIds.foldlM (joinDownstream downstreamIds) current =
      (upstreamIds.flatMap (fun source => downstreamIds.map (fun target =>
        (⟨source,target,defaultPartitioner (.scalar (LogicalGraph.parallelismOf vertices source))
          (.scalar (LogicalGraph.parallelismOf vertices target))⟩ : EdgeSpec)))).foldlM LogicalGraphBuilder.addEdge current := by
  induction upstreamIds generalizing current with
  | nil => rfl
  | cons source rest ih =>
    obtain ⟨here,found⟩ := forall_mem_cons.mp found
    rw [foldlM_cons,flatMap_cons,foldlM_append,joinDownstream_eq vertices downstreamIds source known here current same]
    cases added : (downstreamIds.map (fun target => (⟨source,target,defaultPartitioner
        (.scalar (LogicalGraph.parallelismOf vertices source)) (.scalar (LogicalGraph.parallelismOf vertices target))⟩ : EdgeSpec))).foldlM
        LogicalGraphBuilder.addEdge current with
    | error message => rfl
    | ok next =>
      rw [ok_bind rfl,ok_bind rfl]
      refine ih found next ?_
      have kept (edges : List EdgeSpec) (before : LogicalGraphBuilder ω) (after : LogicalGraphBuilder ω)
          (done : edges.foldlM LogicalGraphBuilder.addEdge before = .ok after) : after.vertices = before.vertices := by
        induction edges generalizing before with
        | nil =>
          obtain rfl := Except.ok.inj done
          rfl
        | cons edge rest ih =>
          obtain ⟨middle,first,later⟩ := bind_ok done
          exact (ih middle later).trans (addEdge_vertices before middle edge first)
      exact (kept _ current next added).trans same

structure Removed (unionId : Nat) (after : LogicalGraphBuilder ω) : Prop where
  job : after.jobName = builder.jobName
  vertices : after.vertices = builder.vertices.erase unionId
  edges : ∀ edge, edge ∈ after.edges ↔ (edge ∈ builder.edges ∨ edge ∈ bridges builder unionId) ∧
    edge.source ≠ unionId ∧ edge.target ≠ unionId
  distinct : (after.edges.map EdgeSpec.pair).Nodup

theorem mem_bridges (unionId : Nat) (edge : EdgeSpec) : edge ∈ bridges builder unionId ↔
    (∃ first ∈ builder.edges, first.source = edge.source ∧ first.target = unionId) ∧
      (∃ second ∈ builder.edges, second.source = unionId ∧ second.target = edge.target) ∧
      edge = bridge builder edge.source edge.target := by
  unfold bridges LogicalGraphBuilder.upstream LogicalGraphBuilder.downstream
  simp only [mem_flatMap,List.mem_map,mem_filter,decide_eq_true_eq]
  constructor
  · rintro ⟨source,⟨first,⟨own,into⟩,rfl⟩,target,⟨second,⟨own',out⟩,rfl⟩,rfl⟩
    exact ⟨⟨first,own,rfl,into⟩,⟨second,own',out,rfl⟩,rfl⟩
  · rintro ⟨⟨first,own,source,into⟩,⟨second,own',out,target⟩,same⟩
    exact ⟨edge.source,⟨first,⟨own,into⟩,source⟩,edge.target,⟨second,⟨own',out⟩,target⟩,same.symm⟩

include distinct in
theorem removeUnion_spec (unionId : Nat) (ends : ∀ edge ∈ builder.edges, builder.vertices.contains edge.source = true ∧
      builder.vertices.contains edge.target = true) (present : builder.vertices.contains unionId = true) :
    (∀ after, removeUnion builder unionId = .ok after → Removed builder unionId after) ∧
      (Agrees (builder.edges ++ bridges builder unionId) → ∃ after, removeUnion builder unionId = .ok after) := by
  have spec (id : Nat) (contained : builder.vertices.contains id = true) : ∃ spec, builder.vertices.get? id = some spec := by
    rw [Dict.contains_eq_isSome] at contained
    exact Option.isSome_iff_exists.mp contained
  have known : ∀ edge ∈ bridges builder unionId, builder.vertices.contains edge.source = true ∧
      builder.vertices.contains edge.target = true := by
    intro edge listed
    obtain ⟨⟨first,own,source,-⟩,⟨second,own',-,target⟩,-⟩ := (mem_bridges builder unionId edge).mp listed
    exact ⟨source ▸ (ends first own).1,target ▸ (ends second own').2⟩
  have flat : (builder.upstream unionId).foldlM (joinDownstream (builder.downstream unionId)) builder =
      (bridges builder unionId).foldlM LogicalGraphBuilder.addEdge builder := by
    refine joinDownstream_foldlM builder.vertices _ _ (fun target listed => ?_) (fun source listed => ?_) builder rfl
    · obtain ⟨edge,own,rfl⟩ := List.mem_map.mp listed
      exact spec _ (ends edge (mem_filter.mp own).1).2
    · obtain ⟨edge,own,rfl⟩ := List.mem_map.mp listed
      exact spec _ (ends edge (mem_filter.mp own).1).1
  obtain ⟨of_ok,ok⟩ := addEdges_spec builder (bridges builder unionId) known distinct
  unfold removeUnion
  rw [flat]
  constructor
  · intro after done
    obtain ⟨joined,added,removed⟩ := bind_ok done
    have extends' := of_ok joined added
    unfold LogicalGraphBuilder.removeVertex at removed
    rw [extends'.vertices,if_pos present] at removed
    obtain rfl := Except.ok.inj removed
    refine ⟨extends'.job,rfl,fun edge => ?_,extends'.distinct.sublist (filter_sublist.map _)⟩
    rw [mem_filter,extends'.edges,decide_eq_true_eq]
  · intro agrees
    obtain ⟨joined,added⟩ := ok agrees
    have extends' := of_ok joined added
    rw [ok_bind added]
    unfold LogicalGraphBuilder.removeVertex
    rw [extends'.vertices,if_pos present]
    exact ⟨_,rfl⟩

end removal
end Klein.Graph
