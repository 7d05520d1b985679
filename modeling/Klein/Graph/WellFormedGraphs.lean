import Klein.Graph.LogicalGraph

/-! What the constructor of a logical graph accepts. -/
namespace Klein.Graph
open Fallible List Option
variable {ω : Type} [OperatorRecipe ω]

structure WellFormed (vertices : Dict Nat (VertexSpec ω)) (edges : List EdgeSpec) : Prop where
  indices : ∀ key vertex, vertices.get? key = some vertex → vertex.index = key
  consistent : ∀ key vertex, vertices.get? key = some vertex →
    decide (vertex.nodeType = .source) = OperatorRecipe.source vertex.operator
  distinct : (edges.map EdgeSpec.pair).Nodup
  ends : ∀ edge ∈ edges, edge.source ∈ vertices.keys ∧ edge.target ∈ vertices.keys
  roots : ∀ key, (∃ vertex, vertices.get? key = some vertex ∧ OperatorRecipe.source vertex.operator = true) ↔
    key ∈ vertices.keys ∧ ∀ edge ∈ edges, edge.target ≠ key
  acyclic : ∃ order, (∀ key ∈ vertices.keys, key ∈ order) ∧ Ordered (edges.map EdgeSpec.pair) order

section perm
variable (vertices vertices' : Dict Nat (VertexSpec ω)) (edges edges' : List EdgeSpec)

theorem Ordered.of_subset {κ : Type} (first second : List (κ × κ)) (order : List κ) (within : ∀ edge ∈ second, edge ∈ first)
    (ordered : Ordered first order) : Ordered second order :=
  fun before vertex after split edge own => ordered before vertex after split edge (within edge own)

theorem WellFormed.change (wellFormed : WellFormed vertices edges) (change : VertexSpec ω → VertexSpec ω)
    (keeps : ∀ vertex, (change vertex).index = vertex.index ∧ (change vertex).nodeType = vertex.nodeType ∧
      OperatorRecipe.source (change vertex).operator = OperatorRecipe.source vertex.operator)
    (changed : ∀ key, vertices'.get? key = (vertices.get? key).map change)
    (permuted : (edges'.map EdgeSpec.pair).Perm (edges.map EdgeSpec.pair)) : WellFormed vertices' edges' := by
  have keys (key : Nat) : key ∈ vertices'.keys ↔ key ∈ vertices.keys := by
    rw [Dict.mem_keys,Dict.mem_keys,changed]
    simp
  have pairs (edge : EdgeSpec) (own : edge ∈ edges') : ∃ other ∈ edges, other.pair = edge.pair :=
    List.mem_map.mp (permuted.mem_iff.mp (List.mem_map_of_mem own))
  constructor
  · intro key vertex found
    rw [changed] at found
    obtain ⟨old,own,rfl⟩ := map_eq_some_iff.mp found
    exact (keeps old).1.trans (wellFormed.indices key old own)
  · intro key vertex found
    rw [changed] at found
    obtain ⟨old,own,rfl⟩ := map_eq_some_iff.mp found
    rw [(keeps old).2.1,(keeps old).2.2]
    exact wellFormed.consistent key old own
  · exact permuted.nodup_iff.mpr wellFormed.distinct
  · intro edge own
    rw [keys,keys]
    obtain ⟨other,listed,same⟩ := pairs edge own
    obtain ⟨source,target⟩ := Prod.mk.inj same
    rw [← source,← target]
    exact wellFormed.ends other listed
  · intro key
    have targets (edges : List EdgeSpec) : (∀ edge ∈ edges, edge.target ≠ key) ↔ ∀ pair ∈ edges.map EdgeSpec.pair, pair.2 ≠ key := by
      rw [List.forall_mem_map]
      rfl
    rw [keys,targets,changed]
    have before := wellFormed.roots key
    rw [targets] at before
    refine Iff.trans ?_ (before.trans (and_congr_right (fun _ => forall_congr' (fun pair => ?_))))
    · cases graph : vertices.get? key with
      | none => simp
      | some vertex => simp [(keeps vertex).2.2]
    · rw [permuted.mem_iff]
  · obtain ⟨order,whole,ordered⟩ := wellFormed.acyclic
    refine ⟨order,fun key listed => whole key ((keys key).mp listed),?_⟩
    exact Ordered.of_subset _ _ order (fun edge own => permuted.mem_iff.mp own) ordered

theorem WellFormed.perm (wellFormed : WellFormed vertices edges) (same : ∀ key, vertices'.get? key = vertices.get? key)
    (permuted : edges'.Perm edges) : WellFormed vertices' edges' :=
  wellFormed.change vertices vertices' edges edges' id (fun _ => ⟨rfl,rfl,rfl⟩) (fun key => by rw [same,Option.map_id]; rfl)
    (permuted.map _)

end perm

section construct
variable (job : String) (vertices : Dict Nat (VertexSpec ω)) (edges : List EdgeSpec)

theorem validateVertices_iff (items : List (Nat × VertexSpec ω)) : validateVertices job items = .ok () ↔
    ∀ item ∈ items, item.2.index = item.1 ∧ decide (item.2.nodeType = .source) = OperatorRecipe.source item.2.operator := by
  induction items with
  | nil => simp [validateVertices]
  | cons item rest ih =>
    rw [validateVertices,forall_mem_cons]
    split
    next other => exact ⟨fun raised => absurd raised (by simp),fun holds => absurd holds.1.1 other⟩
    next same =>
      split
      next other => exact ⟨fun raised => absurd raised (by simp),fun holds => absurd holds.1.2 other⟩
      next agrees =>
        rw [ih]
        exact ⟨fun later => ⟨⟨not_not.mp same,not_not.mp agrees⟩,later⟩,fun both => both.2⟩

theorem mem_logicalSources (key : Nat) : key ∈ logicalSources vertices ↔
    ∃ vertex, vertices.get? key = some vertex ∧ OperatorRecipe.source vertex.operator = true := by
  unfold logicalSources
  constructor
  · intro listed
    obtain ⟨⟨_,vertex⟩,inside,rfl⟩ := List.mem_map.mp listed
    obtain ⟨own,source⟩ := mem_filter.mp inside
    exact ⟨vertex,(vertices.get?_eq_some _ _).mpr own,source⟩
  · rintro ⟨vertex,found,source⟩
    exact List.mem_map.mpr ⟨(key,vertex),mem_filter.mpr ⟨(vertices.get?_eq_some _ _).mp found,source⟩,rfl⟩

section order
variable (distinct : (edges.map EdgeSpec.pair).Nodup)
  (ends : ∀ edge ∈ edges, edge.source ∈ vertices.keys ∧ edge.target ∈ vertices.keys)

omit [OperatorRecipe ω] in
include distinct ends in
theorem logicalOrder_spec : ∃ ordered, topologicalOrder heappush vertices.keys
      ((edges.map EdgeSpec.pair).mergeSort (fun first second => first.2 ≤ second.2)) = some ordered ∧
    (ordered.length = vertices.keys.length →
      ordered.Nodup ∧ (∀ key, key ∈ ordered ↔ key ∈ vertices.keys) ∧ Ordered (edges.map EdgeSpec.pair) ordered) ∧
    ∀ other, (∀ key ∈ vertices.keys, key ∈ other) → Ordered (edges.map EdgeSpec.pair) other →
      ordered.length = vertices.keys.length := by
  have sorted := (edges.map EdgeSpec.pair).mergeSort_perm (fun first second => decide (first.2 ≤ second.2))
  have once := sorted.nodup_iff.mpr distinct
  have known : ∀ pair ∈ (edges.map EdgeSpec.pair).mergeSort (fun first second => decide (first.2 ≤ second.2)),
      pair.1 ∈ vertices.keys ∧ pair.2 ∈ vertices.keys := by
    intro pair listed
    obtain ⟨edge,own,rfl⟩ := List.mem_map.mp (sorted.mem_iff.mp listed)
    exact ends edge own
  obtain ⟨ordered,done,apart,within,closed,-⟩ := topologicalOrder_spec heappush vertices.keys _ pushes_heappush vertices.distinct once
    (fun pair listed => (known pair listed).2)
  refine ⟨ordered,done,fun complete => ⟨apart,fun key => ⟨within key,?_⟩,?_⟩,fun other whole closed' => ?_⟩
  · exact mem_of_complete heappush _ _ pushes_heappush vertices.distinct once (fun pair listed => (known pair listed).2) ordered done
      complete key
  · exact Ordered.of_subset _ _ ordered (fun edge own => sorted.mem_iff.mpr own) closed
  · refine complete_of_ordered heappush _ _ pushes_heappush vertices.distinct once (fun pair listed => (known pair listed).2)
      (fun pair listed => (known pair listed).1) other whole ?_ ordered done
    exact Ordered.of_subset _ _ other (fun edge own => sorted.mem_iff.mp own) closed'

end order

omit [OperatorRecipe ω] in
theorem get?_inOrder (order : List Nat) (key : Nat) (whole : ∀ key ∈ vertices.keys, key ∈ order) :
    (inOrder vertices order).get? key = vertices.get? key := by
  have general (dict : Dict Nat (VertexSpec ω)) :
      (dict.update (order.filterMap (fun other => (vertices.get? other).map (fun vertex => (other,vertex))))).get? key =
        if key ∈ order then (vertices.get? key).or (dict.get? key) else dict.get? key := by
    clear whole
    induction order generalizing dict with
    | nil => rfl
    | cons first rest ih =>
      cases found : vertices.get? first with
      | none =>
        rw [filterMap_cons_none (by rw [found]; rfl),ih]
        by_cases same : key = first
        · subst same
          simp [found]
        · simp [same]
      | some vertex =>
        rw [filterMap_cons_some (by rw [found]; rfl),Dict.update,foldl_cons,← Dict.update,ih,Dict.get?_set]
        by_cases same : key = first
        · subst same
          simp [found]
        · simp [same]
  refine (general Dict.empty).trans ?_
  by_cases known : key ∈ order
  · rw [if_pos known]
    exact or_none
  · rw [if_neg known]
    exact ((vertices.get?_eq_none key).mpr (fun listed => known (whole key listed))).symm

theorem construct_ok (named : job ≠ "") (wellFormed : WellFormed vertices edges) :
    ∃ vertices' edges', construct job vertices edges = .ok (vertices',edges') ∧
      (∀ key, vertices'.get? key = vertices.get? key) ∧ edges'.Perm edges := by
  obtain ⟨ordered,done,complete,long⟩ := logicalOrder_spec vertices edges wellFormed.distinct wellFormed.ends
  obtain ⟨order,whole,sorted⟩ := wellFormed.acyclic
  have length := long order whole sorted
  obtain ⟨apart,inside,-⟩ := complete length
  have validated : validateLogical job vertices edges = .ok ordered := by
    unfold validateLogical
    rw [@ok_bind _ _ _ _ _ () ((validateVertices_iff job _).mpr ?_),@ok_bind _ _ _ _ _ () ((checkPairs_iff _ _ _ _ _).mpr ?_),
      @ok_bind _ _ _ _ _ () ((checkRoots_iff _ _ _ _).mpr ?_)]
    · unfold logicalOrder
      rw [done]
      exact if_neg (not_not.mpr length)
    · intro key
      rw [mem_logicalSources,List.forall_mem_map]
      exact wellFormed.roots key
    · exact ⟨wellFormed.distinct,by simp,List.forall_mem_map.mpr wellFormed.ends⟩
    · rintro ⟨key,vertex⟩ own
      have found := (vertices.get?_eq_some key vertex).mpr own
      exact ⟨wellFormed.indices key vertex found,wellFormed.consistent key vertex found⟩
  refine ⟨inOrder vertices ordered,edges.mergeSort (rankLe ordered),?_,fun key => ?_,edges.mergeSort_perm _⟩
  · unfold construct
    rw [if_neg named]
    exact ok_bind validated
  · exact get?_inOrder vertices ordered key (fun key known => (inside key).mpr known)

theorem wellFormed_of_construct (vertices' : Dict Nat (VertexSpec ω)) (edges' : List EdgeSpec)
    (done : construct job vertices edges = .ok (vertices',edges')) :
    job ≠ "" ∧ WellFormed vertices' edges' ∧ (∀ key, vertices'.get? key = vertices.get? key) ∧ edges'.Perm edges := by
  unfold construct at done
  split at done
  next => contradiction
  next named =>
    obtain ⟨order,validated,same⟩ := bind_ok done
    obtain ⟨rfl,rfl⟩ := Prod.mk.inj (Except.ok.inj same)
    obtain ⟨_,keys,validated⟩ := bind_ok validated
    obtain ⟨_,pairs,validated⟩ := bind_ok validated
    obtain ⟨_,roots,ordered⟩ := bind_ok validated
    have each := (validateVertices_iff job _).mp keys
    obtain ⟨distinct,-,ends⟩ := (checkPairs_iff _ _ _ _ _).mp pairs
    rw [List.forall_mem_map] at ends
    obtain ⟨found,computed,complete,-⟩ := logicalOrder_spec vertices edges distinct ends
    unfold logicalOrder at ordered
    rw [computed] at ordered
    dsimp only at ordered
    split at ordered
    next => contradiction
    next length =>
      obtain rfl := Except.ok.inj ordered
      obtain ⟨-,inside,closed⟩ := complete (not_not.mp length)
      have kept (key : Nat) := get?_inOrder vertices found key (fun key known => (inside key).mpr known)
      refine ⟨named,WellFormed.perm vertices _ edges _ ?_ kept (edges.mergeSort_perm _),kept,edges.mergeSort_perm _⟩
      refine ⟨fun key vertex own => ?_,fun key vertex own => ?_,distinct,ends,fun key => ?_,
        found,fun key known => (inside key).mpr known,closed⟩
      · exact (each (key,vertex) ((vertices.get?_eq_some key vertex).mp own)).1
      · exact (each (key,vertex) ((vertices.get?_eq_some key vertex).mp own)).2
      · have root := (checkRoots_iff _ _ _ _).mp roots key
        rw [mem_logicalSources,List.forall_mem_map] at root
        exact root

/-- The constructor takes the named graphs that are well formed, acyclic among them, and no others. -/
theorem constructed_iff_wellFormed : (∃ graph, construct job vertices edges = .ok graph) ↔ job ≠ "" ∧ WellFormed vertices edges := by
  constructor
  · rintro ⟨⟨vertices',edges'⟩,done⟩
    obtain ⟨named,wellFormed,same,permuted⟩ := wellFormed_of_construct job vertices edges vertices' edges' done
    exact ⟨named,wellFormed.perm vertices' vertices edges' edges (fun key => (same key).symm) permuted.symm⟩
  · rintro ⟨named,wellFormed⟩
    obtain ⟨vertices',edges',done,-⟩ := construct_ok job vertices edges named wellFormed
    exact ⟨_,done⟩

end construct

section build
variable (builder : LogicalGraphBuilder ω)

theorem LogicalGraphBuilder.build_ok (named : builder.jobName ≠ "") (wellFormed : WellFormed builder.vertices builder.edges) :
    ∃ graph, builder.build = .ok graph ∧ graph.jobName = builder.jobName ∧
      (∀ key, graph.vertices.get? key = builder.vertices.get? key) ∧ graph.edges.Perm builder.edges := by
  obtain ⟨vertices,edges,done,same,permuted⟩ := construct_ok builder.jobName _ _ named wellFormed
  unfold build
  split
  next message raised =>
    rw [done] at raised
    contradiction
  next vertices' edges' made =>
    obtain ⟨rfl,rfl⟩ := Prod.mk.inj (Except.ok.inj (done.symm.trans made))
    exact ⟨_,rfl,rfl,same,permuted⟩

theorem LogicalGraphBuilder.of_build (graph : LogicalGraph ω) (done : builder.build = .ok graph) :
    graph.jobName = builder.jobName ∧ (∀ key, graph.vertices.get? key = builder.vertices.get? key) ∧
      graph.edges.Perm builder.edges := by
  unfold build at done
  split at done
  next => contradiction
  next vertices edges made =>
    obtain rfl := Except.ok.inj done
    obtain ⟨-,-,same,permuted⟩ := wellFormed_of_construct _ _ _ _ _ made
    exact ⟨rfl,same,permuted⟩

end build

theorem LogicalGraph.wellFormed (graph : LogicalGraph ω) : graph.jobName ≠ "" ∧ WellFormed graph.vertices graph.edges := by
  obtain ⟨vertices,edges,done⟩ := graph.built
  obtain ⟨named,wellFormed,-⟩ := wellFormed_of_construct graph.jobName vertices edges _ _ done
  exact ⟨named,wellFormed⟩

end Klein.Graph
