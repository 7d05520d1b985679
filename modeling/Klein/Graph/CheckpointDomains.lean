import Klein.Graph.BarrierSplits

/-! Checkpoint domains: the weakly connected components of the physical graph. -/
namespace Klein.Graph.ExecutionGraph
open Dict List
open Coordinator (CheckpointDomain)
variable (graph : ExecutionGraph)

def Joined (first second : ExecutionVertexId) : Prop := graph.Channel first second ∨ graph.Channel second first

def Linked : ExecutionVertexId → ExecutionVertexId → Prop := Relation.ReflTransGen graph.Joined

theorem Reaches.linked (source vertex : ExecutionVertexId) (reaches : graph.Reaches source vertex) : graph.Linked source vertex := by
  induction reaches with
  | refl => exact Relation.ReflTransGen.refl
  | tail _ channel ih => exact ih.tail (.inl channel)

theorem Linked.symm (first second : ExecutionVertexId) (linked : graph.Linked first second) : graph.Linked second first := by
  induction linked with
  | refl => exact Relation.ReflTransGen.refl
  | tail _ joined ih => exact Relation.ReflTransGen.head joined.symm ih

theorem mem_executionVertices (vertex : ExecutionVertexId) :
    vertex ∈ graph.executionVertices ↔ vertex ∈ graph.subtasks vertex.jobVertexId := by
  unfold executionVertices
  rw [mem_flatMap]
  constructor
  · rintro ⟨jobVertex,listed,own⟩
    obtain ⟨key,found⟩ := (mem_values _ _).mp listed
    have inside : vertex ∈ graph.subtasks key := by
      unfold subtasks
      rw [found]
      exact own
    exact ((graph.mem_subtasks _ _).mp inside).1.symm ▸ inside
  · intro own
    unfold subtasks at own
    cases found : graph.jobVertices.get? vertex.jobVertexId with
    | none =>
      rw [found] at own
      exact absurd own (by simp)
    | some jobVertex =>
      rw [found] at own
      exact ⟨jobVertex,(mem_values _ _).mpr ⟨_,found⟩,own⟩

section adjacency

theorem push_foldl (channels : List (ExecutionVertexId × ExecutionVertexId))
    (adjacency : Dict ExecutionVertexId (List ExecutionVertexId)) (first second : ExecutionVertexId) :
    second ∈ ((channels.foldl (fun adjacency edge => (adjacency.push edge.1 edge.2).push edge.2 edge.1) adjacency).get? first).getD [] ↔
      second ∈ (adjacency.get? first).getD [] ∨ (first,second) ∈ channels ∨ (second,first) ∈ channels := by
  induction channels generalizing adjacency with
  | nil => simp
  | cons channel rest ih =>
    have pushed (adjacency : Dict ExecutionVertexId (List ExecutionVertexId)) (key value : ExecutionVertexId) :
        second ∈ ((adjacency.push key value).get? first).getD [] ↔
          second ∈ (adjacency.get? first).getD [] ∨ (first = key ∧ second = value) := by
      unfold Dict.push
      rw [Dict.get?_set]
      by_cases same : first = key
      · subst same
        simp
      · simp [same]
    rw [foldl_cons,ih,pushed,pushed,mem_cons,mem_cons,Prod.ext_iff,Prod.ext_iff]
    tauto

theorem adjacent_iff (first second : ExecutionVertexId) : Adjacent graph.adjacency first second ↔ graph.Joined first second := by
  have empty : ((Dict.ofList (graph.executionVertices.map (fun vertex => (vertex,([] : List ExecutionVertexId))))).get? first).getD [] =
      [] := by
    rw [get?_ofKeys graph.executionVertices (fun _ => []) first]
    split <;> rfl
  have listed := push_foldl graph.executionEdges
    (Dict.ofList (graph.executionVertices.map (fun vertex => (vertex,([] : List ExecutionVertexId))))) first second
  rw [empty] at listed
  unfold Adjacent Joined Channel
  rw [← show _ ↔ _ from listed.trans (or_iff_right (by simp))]
  change _ ↔ second ∈ (graph.adjacency.get? first).getD []
  cases graph.adjacency.get? first <;> simp

theorem joined_known (first second : ExecutionVertexId) (joined : graph.Joined first second) :
    first ∈ graph.executionVertices ∧ second ∈ graph.executionVertices := by
  have ends (tail head : ExecutionVertexId) (channel : graph.Channel tail head) :
      tail ∈ graph.executionVertices ∧ head ∈ graph.executionVertices := by
    obtain ⟨edge,-,source,target⟩ := channel.ends graph tail head
    rw [mem_executionVertices,mem_executionVertices,((graph.mem_subtasks _ _).mp source).1,((graph.mem_subtasks _ _).mp target).1]
    exact ⟨source,target⟩
  rcases joined with channel | channel
  · exact ends first second channel
  · exact (ends second first channel).symm

theorem keys_foldl (channels : List (ExecutionVertexId × ExecutionVertexId))
    (adjacency : Dict ExecutionVertexId (List ExecutionVertexId))
    (known : ∀ channel ∈ channels, channel.1 ∈ adjacency.keys ∧ channel.2 ∈ adjacency.keys) (vertex : ExecutionVertexId) :
    vertex ∈ (channels.foldl (fun adjacency edge => (adjacency.push edge.1 edge.2).push edge.2 edge.1) adjacency).keys ↔
      vertex ∈ adjacency.keys := by
  induction channels generalizing adjacency with
  | nil => exact Iff.rfl
  | cons channel rest ih =>
    have kept (adjacency : Dict ExecutionVertexId (List ExecutionVertexId)) (key value other : ExecutionVertexId)
        (present : key ∈ adjacency.keys) : other ∈ (adjacency.push key value).keys ↔ other ∈ adjacency.keys := by
      unfold Dict.push
      rw [Dict.mem_keys,Dict.mem_keys,Dict.get?_set]
      split
      next same =>
        subst same
        exact iff_of_true ⟨_,rfl⟩ ((Dict.mem_keys _ _).mp present)
      next => exact Iff.rfl
    obtain ⟨⟨first,second⟩,later⟩ := forall_mem_cons.mp known
    have same (other : ExecutionVertexId) :
        other ∈ ((adjacency.push channel.1 channel.2).push channel.2 channel.1).keys ↔ other ∈ adjacency.keys :=
      (kept _ _ _ other ((kept _ _ _ _ first).mpr second)).trans (kept _ _ _ other first)
    rw [foldl_cons,ih _ (fun other listed => ⟨(same _).mpr (later other listed).1,(same _).mpr (later other listed).2⟩),same]

theorem mem_adjacency (vertex : ExecutionVertexId) : vertex ∈ graph.adjacency.keys ↔ vertex ∈ graph.executionVertices := by
  have start (vertex : ExecutionVertexId) :
      vertex ∈ (Dict.ofList (graph.executionVertices.map (fun vertex => (vertex,([] : List ExecutionVertexId))))).keys ↔
        vertex ∈ graph.executionVertices := by
    rw [Dict.mem_keys,get?_ofKeys graph.executionVertices (fun _ => []) vertex]
    split <;> simp_all
  refine (keys_foldl graph.executionEdges _ (fun channel listed => ?_) vertex).trans (start vertex)
  obtain ⟨first,second⟩ := graph.joined_known channel.1 channel.2 (.inl listed)
  exact ⟨(start _).mpr first,(start _).mpr second⟩

theorem connected_iff (first second : ExecutionVertexId) : Connected graph.adjacency first second ↔ graph.Linked first second := by
  have same : Adjacent graph.adjacency = graph.Joined := by
    funext first second
    exact propext (graph.adjacent_iff first second)
  unfold Connected Linked
  rw [same]

end adjacency

structure IsDomain (domain : CheckpointDomain) : Prop where
  distinct : domain.vertexIds.Nodup
  component : ∃ start ∈ graph.executionVertices, ∀ vertex, vertex ∈ domain.vertexIds ↔ graph.Linked start vertex
  sources : ∀ vertex, vertex ∈ domain.sourceVertexIds ↔ vertex ∈ domain.vertexIds ∧ vertex ∈ graph.sourceExecutionVertices
  sinks : ∀ vertex, vertex ∈ domain.sinkVertexIds ↔ vertex ∈ domain.vertexIds ∧ vertex ∈ graph.sinkExecutionVertices

theorem IsDomain.linked (domain : CheckpointDomain) (holds : graph.IsDomain domain) (first second : ExecutionVertexId)
    (inside : first ∈ domain.vertexIds) (linked : graph.Linked first second) : second ∈ domain.vertexIds := by
  obtain ⟨start,-,component⟩ := holds.component
  exact (component second).mpr (((component first).mp inside).trans linked)

structure Partition (domains : List CheckpointDomain) : Prop where
  domain : ∀ domain ∈ domains, graph.IsDomain domain
  apart : domains.Pairwise (fun first second => ∀ vertex ∈ first.vertexIds, vertex ∉ second.vertexIds)
  cover : ∀ vertex ∈ graph.executionVertices, ∃ domain ∈ domains, vertex ∈ domain.vertexIds

variable (sha256 : String → String)

def domainOf (component : List ExecutionVertexId) : CheckpointDomain where
  id := checkpointDomainId sha256 component
  vertexIds := component
  sourceVertexIds := component.filter (fun vertex => vertex ∈ graph.sourceExecutionVertices)
  sinkVertexIds := component.filter (fun vertex => vertex ∈ graph.sinkExecutionVertices)

theorem makeDomain_ok (component : List ExecutionVertexId) (distinct : component.Nodup) (some : component ≠ []) :
    makeDomain (checkpointDomainId sha256 component) component
      (component.filter (fun vertex => vertex ∈ graph.sourceExecutionVertices))
      (component.filter (fun vertex => vertex ∈ graph.sinkExecutionVertices)) = .ok (graph.domainOf sha256 component) := by
  have named : checkpointDomainId sha256 component ≠ "" := by
    intro blank
    have length := congrArg String.length blank
    unfold checkpointDomainId at length
    rw [String.length_append] at length
    exact absurd length (Nat.ne_of_gt (Nat.lt_of_lt_of_le (by decide) (Nat.le_add_right _ _)))
  unfold makeDomain
  rw [if_neg named,if_neg some,if_neg (not_not.mpr distinct),if_neg (not_not.mpr filter_sublist.subset),
    if_neg (not_not.mpr filter_sublist.subset)]
  rfl

theorem checkpointDomains_spec : ∃ domains, graph.checkpointDomains sha256 = .ok domains ∧ graph.Partition domains := by
  have symmetric (first second : ExecutionVertexId) (step : Adjacent graph.adjacency first second) :
      Adjacent graph.adjacency second first := (graph.adjacent_iff second first).mpr ((graph.adjacent_iff first second).mp step).symm
  have whole : Whole graph.adjacency := fun first second step =>
    (graph.mem_adjacency second).mpr (graph.joined_known first second ((graph.adjacent_iff first second).mp step)).2
  obtain ⟨components,done,found,apart,cover⟩ := connectedComponents_spec graph.adjacency symmetric whole
  -- sorting changes neither the components nor their order among themselves matters
  have sorted := ((components.map (fun component => component.mergeSort vertexLe)).mergeSort_perm componentsLe)
  have listed (component : List ExecutionVertexId)
      (inside : component ∈ (components.map (fun component => component.mergeSort vertexLe)).mergeSort componentsLe) :
      ∃ original ∈ components, component.Perm original := by
    obtain ⟨original,own,rfl⟩ := List.mem_map.mp (sorted.mem_iff.mp inside)
    exact ⟨original,own,original.mergeSort_perm vertexLe⟩
  refine ⟨((components.map (fun component => component.mergeSort vertexLe)).mergeSort componentsLe).map (graph.domainOf sha256),
    ?_,?_,?_,?_⟩
  · unfold checkpointDomains
    rw [Fallible.ok_bind done]
    refine Fallible.mapM_map _ _ _ (fun component inside => ?_)
    obtain ⟨original,own,same⟩ := listed component inside
    obtain ⟨start,inside,-⟩ := (found original own).component
    refine graph.makeDomain_ok sha256 component (same.nodup_iff.mpr (found original own).distinct) ?_
    exact ne_nil_of_mem (same.mem_iff.mpr inside)
  · intro domain made
    obtain ⟨component,inside,rfl⟩ := List.mem_map.mp made
    obtain ⟨original,own,same⟩ := listed component inside
    obtain ⟨start,-,known,spec⟩ := (found original own).component
    refine ⟨same.nodup_iff.mpr (found original own).distinct,⟨start,(graph.mem_adjacency start).mp known,fun vertex => ?_⟩,?_,?_⟩
    · exact same.mem_iff.trans ((spec vertex).trans (graph.connected_iff start vertex))
    · intro vertex
      exact mem_filter.trans (by simp [domainOf])
    · intro vertex
      exact mem_filter.trans (by simp [domainOf])
  · rw [pairwise_map]
    refine (List.Perm.pairwise_iff (fun disjoint vertex inside other => disjoint vertex other inside) sorted).mpr ?_
    rw [pairwise_map]
    refine apart.imp (fun {first second} disjoint vertex inside other => ?_)
    exact disjoint vertex ((first.mergeSort_perm vertexLe).mem_iff.mp inside) ((second.mergeSort_perm vertexLe).mem_iff.mp other)
  · intro vertex known
    obtain ⟨component,own,inside⟩ := cover vertex ((graph.mem_adjacency vertex).mpr known)
    refine ⟨_,List.mem_map_of_mem (sorted.mem_iff.mpr (List.mem_map_of_mem own)),?_⟩
    exact (component.mergeSort_perm vertexLe).mem_iff.mpr inside

end Klein.Graph.ExecutionGraph
