import Klein.Graph.Expansion
import Mathlib.Data.List.Find

/-! Changes of parallelism in the logical graph: a resource plan, and the rescale of one
operator, which gives the forward edges at it a partitioner that may join unequal
parallelisms. -/
namespace Klein.Graph.LogicalGraph
open Dict Fallible List
variable {ω : Type} [OperatorRecipe ω] (graph : LogicalGraph ω)

def toBuilder : LogicalGraphBuilder ω := ⟨graph.jobName,graph.vertices,graph.edges⟩

def nodeKey (vertex : VertexSpec ω) : String := OperatorRecipe.name vertex.operator ++ "[" ++ toString vertex.index ++ "]"

def nodeKeys : List String := graph.vertices.values.map nodeKey

def incompatiblePlan : String := "Cannot apply resource plan"

/-- `is_compatible_with` compares the node keys. -/
def Compatible (plan : Dict String ResourceNode) : Prop := graph.nodeKeys ⊆ plan.keys ∧ plan.keys ⊆ graph.nodeKeys

instance (plan : Dict String ResourceNode) : Decidable (graph.Compatible plan) := inferInstanceAs (Decidable (_ ∧ _))

def tune (plan : Dict String ResourceNode) (builder : LogicalGraphBuilder ω) (vertex : VertexSpec ω) :
    Except String (LogicalGraphBuilder ω) :=
  match plan.get? (nodeKey vertex) with
  | none => .error (nodeKey vertex)
  | some tuned => builder.replaceVertex {
      vertex with
      resources := tuned.resources
      operator := OperatorRecipe.tuned vertex.operator tuned
    }

def withResourcePlan (plan : Dict String ResourceNode) : Except String (LogicalGraph ω) :=
  if graph.Compatible plan then do
    let builder ← graph.vertices.values.foldlM (tune plan) graph.toBuilder
    builder.build
  else .error incompatiblePlan

inductive OperatorId where
  | number (index : Nat)
  | name (candidate : String)
deriving DecidableEq, Repr

def OperatorId.text : OperatorId → String
  | .number index => toString index
  | .name candidate => "'" ++ candidate ++ "'"

def OperatorId.Names (operatorId : OperatorId) (key : Nat) (vertex : VertexSpec ω) : Bool :=
  match operatorId with
  | .number index => key = index
  | .name candidate => candidate = vertex.name || candidate = OperatorRecipe.name vertex.operator

def matchesOf (operatorId : OperatorId) : List Nat :=
  (graph.vertices.entries.filter (fun item => operatorId.Names item.1 item.2)).map Prod.fst

def resolveOperator (operatorId : OperatorId) : Except String Nat :=
  match graph.matchesOf operatorId with
  | [] => .error ("operator " ++ operatorId.text ++ " does not exist")
  | [key] => .ok key
  | _::_::_ => .error ("operator name " ++ operatorId.text ++ " is ambiguous; use its numeric id")

/-- One edge of the loop of `rescale_operator`. -/
def rescaleEdge (key : Nat) (builder : LogicalGraphBuilder ω) (edge : EdgeSpec) : Except String (LogicalGraphBuilder ω) :=
  if (edge.source ≠ key ∧ edge.target ≠ key) ∨ edge.partitioner ≠ .forward then .ok builder
  else do
    let source ← builder.vertex edge.source
    let target ← builder.vertex edge.target
    if source.concurrency = target.concurrency then return builder
    let builder ← builder.removeEdge edge.source edge.target
    builder.addEdge ⟨edge.source,edge.target,defaultPartitioner (.scalar source.concurrency) (.scalar target.concurrency)⟩

def VertexSpec.rescaled (vertex : VertexSpec ω) (parallelism : Nat) (positive : 0 < parallelism) : VertexSpec ω where
  index := vertex.index
  name := vertex.name
  operator := vertex.operator
  nodeType := vertex.nodeType
  resources := vertex.resources.rescaled parallelism positive

def rescaleOperator (operatorId : OperatorId) (parallelism : Nat) : Except String (LogicalGraph ω) :=
  if positive : 0 < parallelism then do
    let key ← graph.resolveOperator operatorId
    match graph.vertices.get? key with
    | none => .error (vertexText graph.jobName key)
    | some current =>
      if current.concurrency = parallelism then .ok graph
      else do
        let builder ← graph.toBuilder.replaceVertex (VertexSpec.rescaled current parallelism positive)
        let builder ← graph.edges.foldlM (rescaleEdge key) builder
        builder.build
  else .error "parallelism must be greater than zero"

section plan
variable (plan : Dict String ResourceNode)

def planned (vertex : VertexSpec ω) : VertexSpec ω :=
  match plan.get? (nodeKey vertex) with
  | none => vertex
  | some tuned => {
      vertex with
      resources := tuned.resources
      operator := OperatorRecipe.tuned vertex.operator tuned
    }

theorem tune_foldlM (vertices : List (VertexSpec ω)) (builder : LogicalGraphBuilder ω)
    (distinct : (vertices.map VertexSpec.index).Nodup)
    (known : ∀ vertex ∈ vertices, (∃ node, plan.get? (nodeKey vertex) = some node) ∧ builder.vertices.contains vertex.index = true) :
    ∃ tuned, vertices.foldlM (tune plan) builder = .ok tuned ∧ tuned.jobName = builder.jobName ∧ tuned.edges = builder.edges ∧
      ∀ key, tuned.vertices.get? key = match vertices.find? (fun vertex => vertex.index = key) with
        | none => builder.vertices.get? key
        | some vertex => some (planned plan vertex) := by
  induction vertices generalizing builder with
  | nil => exact ⟨builder,rfl,rfl,rfl,fun key => rfl⟩
  | cons vertex rest ih =>
    obtain ⟨absent,distinct⟩ := nodup_cons.mp distinct
    obtain ⟨⟨⟨node,found⟩,present⟩,known⟩ := forall_mem_cons.mp known
    have here : tune plan builder vertex = .ok {builder with vertices := builder.vertices.set vertex.index (planned plan vertex)} := by
      unfold tune planned
      rw [found]
      exact if_pos present
    obtain ⟨tuned,done,job,edges,spec⟩ := ih {builder with vertices := builder.vertices.set vertex.index (planned plan vertex)} distinct
      (fun other own => ⟨(known other own).1,by
        rw [contains_eq_isSome,Dict.get?_set]
        have own := (known other own).2
        rw [contains_eq_isSome] at own
        split
        next => rfl
        next => exact own⟩)
    refine ⟨tuned,?_,job,edges,fun key => ?_⟩
    · rw [foldlM_cons,ok_bind here]
      exact done
    · rw [spec,find?_cons]
      by_cases same : vertex.index = key
      · have none : rest.find? (fun vertex => vertex.index = key) = none := by
          refine find?_eq_none.mpr (fun other own holds => absent ?_)
          rw [same,← of_decide_eq_true holds]
          exact List.mem_map_of_mem own
        rw [none,decide_eq_true same]
        dsimp only
        rw [Dict.get?_set,if_pos same.symm]
      · rw [decide_eq_false same]
        cases rest.find? (fun vertex => vertex.index = key) with
        | none =>
          dsimp only
          rw [Dict.get?_set,if_neg (Ne.symm same)]
        | some other => rfl

theorem withResourcePlan_spec (compatible : graph.Compatible plan) : ∃ result, graph.withResourcePlan plan = .ok result ∧
    result.jobName = graph.jobName ∧ (∀ key, result.vertices.get? key = (graph.vertices.get? key).map (planned plan)) ∧
    result.edges.Perm graph.edges := by
  have wellFormed := graph.wellFormed.2
  have entry (item : Nat × VertexSpec ω) (own : item ∈ graph.vertices.entries) : item.2.index = item.1 :=
    wellFormed.indices item.1 item.2 ((graph.vertices.get?_eq_some _ _).mpr own)
  have distinct : (graph.vertices.values.map VertexSpec.index).Nodup := by
    have same : graph.vertices.values.map VertexSpec.index = graph.vertices.keys := by
      unfold Dict.values Dict.keys
      rw [List.map_map]
      exact map_congr_left (fun item own => entry item own)
    rw [same]
    exact graph.vertices.distinct
  have found (key : Nat) : graph.vertices.values.find? (fun vertex => vertex.index = key) = graph.vertices.get? key := by
    unfold Dict.values Dict.get?
    rw [find?_map]
    congr 1
    exact find?_congr (fun item own => by rw [Function.comp,entry item own])
  obtain ⟨tuned,done,job,edges,spec⟩ := tune_foldlM plan graph.vertices.values graph.toBuilder distinct (by
    intro vertex own
    refine ⟨(plan.mem_keys _).mp (compatible.1 (List.mem_map_of_mem own)),?_⟩
    obtain ⟨key,here⟩ := (graph.vertices.mem_values vertex).mp own
    rw [contains_eq_isSome]
    change (graph.vertices.get? vertex.index).isSome = true
    rw [wellFormed.indices key vertex here,here]
    rfl)
  have changed (key : Nat) : tuned.vertices.get? key = (graph.vertices.get? key).map (planned plan) := by
    rw [spec,found]
    change (match graph.vertices.get? key with
      | none => graph.vertices.get? key
      | some vertex => some (planned plan vertex)) = _
    cases graph.vertices.get? key <;> rfl
  have keeps (vertex : VertexSpec ω) : (planned plan vertex).index = vertex.index ∧ (planned plan vertex).nodeType = vertex.nodeType ∧
      OperatorRecipe.source (planned plan vertex).operator = OperatorRecipe.source vertex.operator := by
    unfold planned
    split
    next => exact ⟨rfl,rfl,rfl⟩
    next node _ => exact ⟨rfl,rfl,OperatorRecipe.source_tuned vertex.operator node⟩
  have good : WellFormed tuned.vertices tuned.edges :=
    wellFormed.change _ _ _ _ (planned plan) keeps changed (by rw [edges]; exact List.Perm.refl _)
  obtain ⟨result,built,job',same,permuted⟩ := tuned.build_ok (by rw [job]; exact graph.wellFormed.1) good
  refine ⟨result,?_,job'.trans job,fun key => (same key).trans (changed key),permuted.trans (by rw [edges]; exact List.Perm.refl _)⟩
  unfold withResourcePlan
  rw [if_pos compatible,ok_bind done]
  exact built

end plan

section rescale

def parallelismOf (vertices : Dict Nat (VertexSpec ω)) (key : Nat) : Nat := ((vertices.get? key).map VertexSpec.concurrency).getD 0

def retarget (parallelism : Nat → Nat) (key : Nat) (edge : EdgeSpec) : EdgeSpec :=
  if (edge.source ≠ key ∧ edge.target ≠ key) ∨ edge.partitioner ≠ .forward ∨ parallelism edge.source = parallelism edge.target then edge
  else ⟨edge.source,edge.target,defaultPartitioner (.scalar (parallelism edge.source)) (.scalar (parallelism edge.target))⟩

section
variable (parallelism : Nat → Nat) (key : Nat)
include parallelism key

theorem retarget_pair (edge : EdgeSpec) : (retarget parallelism key edge).pair = edge.pair := by
  unfold retarget
  split <;> rfl

theorem map_retarget_pair (edges : List EdgeSpec) :
    (edges.map (retarget parallelism key)).map EdgeSpec.pair = edges.map EdgeSpec.pair := by
  rw [List.map_map]
  exact map_congr_left (fun edge _ => retarget_pair parallelism key edge)

theorem retarget_explicit (edge : EdgeSpec) (explicit : edge.partitioner ≠ .forward) :
    retarget parallelism key edge = edge := if_pos (.inr (.inl explicit))

end

omit [OperatorRecipe ω] in
theorem removeEdge_ok (builder : LogicalGraphBuilder ω) (before after : List EdgeSpec) (edge : EdgeSpec)
    (permuted : builder.edges.Perm (before ++ edge::after)) (distinct : ((before ++ edge::after).map EdgeSpec.pair).Nodup) :
    ∃ edges, builder.removeEdge edge.source edge.target = .ok {builder with edges := edges} ∧ edges.Perm (before ++ after) := by
  have listed : edge ∈ builder.edges := permuted.mem_iff.mpr (by simp)
  refine ⟨builder.edges.filter (fun other => ¬ (other.source = edge.source ∧ other.target = edge.target)),?_,?_⟩
  · unfold LogicalGraphBuilder.removeEdge
    split
    next none =>
      have missing := find?_eq_none.mp none edge listed
      exact absurd (decide_eq_true ⟨rfl,rfl⟩) missing
    next => rfl
  · refine (permuted.filter _).trans ?_
    rw [map_append,map_cons] at distinct
    obtain ⟨-,apart,separate⟩ := nodup_append.mp distinct
    have kept (others : List EdgeSpec) (other : ∀ item ∈ others, item.pair ≠ edge.pair) :
        others.filter (fun item => ¬ (item.source = edge.source ∧ item.target = edge.target)) = others := by
      exact List.filter_eq_self.mpr (fun item own => decide_eq_true (fun both => other item own (Prod.ext both.1 both.2)))
    rw [filter_append,filter_cons_of_neg (by simp),kept before,kept after]
    · intro item own same
      exact (nodup_cons.mp apart).1 (same ▸ List.mem_map_of_mem own)
    · exact fun item own same => separate _ (List.mem_map_of_mem own) _ mem_cons_self same

omit [OperatorRecipe ω] in
theorem addEdge_ok (builder : LogicalGraphBuilder ω) (edge : EdgeSpec) (source : builder.vertices.contains edge.source = true)
    (target : builder.vertices.contains edge.target = true) (new : edge.pair ∉ builder.edges.map EdgeSpec.pair) :
    builder.addEdge edge = .ok {builder with edges := builder.edges ++ [edge]} := by
  have none : builder.edge edge.source edge.target = none := by
    refine find?_eq_none.mpr (fun other own same => new ?_)
    have same := of_decide_eq_true same
    exact List.mem_map.mpr ⟨other,own,Prod.ext same.1 same.2⟩
  unfold LogicalGraphBuilder.addEdge
  rw [if_neg (by simp [source,target]),none]

omit [OperatorRecipe ω] in
theorem rescaleEdge_foldlM (key : Nat) (rest done : List EdgeSpec) (builder : LogicalGraphBuilder ω)
    (known : ∀ edge ∈ rest, edge.source ∈ builder.vertices.keys ∧ edge.target ∈ builder.vertices.keys)
    (distinct : ((done ++ rest).map EdgeSpec.pair).Nodup) (permuted : builder.edges.Perm (done ++ rest)) :
    ∃ edges, rest.foldlM (rescaleEdge key) builder = .ok {builder with edges := edges} ∧
      edges.Perm (done ++ rest.map (retarget (parallelismOf builder.vertices) key)) := by
  induction rest generalizing done builder with
  | nil => exact ⟨builder.edges,rfl,permuted⟩
  | cons edge rest ih =>
    obtain ⟨⟨first,second⟩,known⟩ := forall_mem_cons.mp known
    obtain ⟨source,found⟩ := (builder.vertices.mem_keys _).mp first
    obtain ⟨target,found'⟩ := (builder.vertices.mem_keys _).mp second
    have from' : parallelismOf builder.vertices edge.source = source.concurrency := by
      unfold parallelismOf
      rw [found]
      rfl
    have to' : parallelismOf builder.vertices edge.target = target.concurrency := by
      unfold parallelismOf
      rw [found']
      rfl
    have next : ∃ edges, rescaleEdge key builder edge = .ok {builder with edges := edges} ∧
        edges.Perm ((done ++ [retarget (parallelismOf builder.vertices) key edge]) ++ rest) := by
      unfold retarget rescaleEdge
      rw [from',to']
      by_cases skipped : (edge.source ≠ key ∧ edge.target ≠ key) ∨ edge.partitioner ≠ .forward
      · rw [if_pos skipped,if_pos (skipped.imp_right .inl)]
        refine ⟨builder.edges,rfl,permuted.trans ?_⟩
        rw [append_assoc]
        exact List.Perm.refl _
      · have one : builder.vertex edge.source = .ok source := by
          unfold LogicalGraphBuilder.vertex
          rw [found]
        have two : builder.vertex edge.target = .ok target := by
          unfold LogicalGraphBuilder.vertex
          rw [found']
        rw [if_neg skipped,ok_bind one,ok_bind two]
        by_cases equal : source.concurrency = target.concurrency
        · rw [if_pos equal,if_pos (.inr (.inr equal))]
          refine ⟨builder.edges,rfl,permuted.trans ?_⟩
          rw [append_assoc]
          exact List.Perm.refl _
        · obtain ⟨others,removed,remaining⟩ := removeEdge_ok builder done rest edge permuted distinct
          have neither : ¬ ((edge.source ≠ key ∧ edge.target ≠ key) ∨ edge.partitioner ≠ .forward ∨
              source.concurrency = target.concurrency) := by
            rintro (far | explicit | same)
            · exact skipped (.inl far)
            · exact skipped (.inr explicit)
            · exact equal same
          have present (index : Nat) (listed : index ∈ builder.vertices.keys) : builder.vertices.contains index = true := by
            rw [contains_eq_isSome]
            exact Option.isSome_iff_exists.mpr ((builder.vertices.mem_keys _).mp listed)
          rw [if_neg equal,if_neg neither]
          refine ⟨others ++ [⟨edge.source,edge.target,defaultPartitioner (.scalar source.concurrency) (.scalar target.concurrency)⟩],?_,?_⟩
          · refine (ok_bind removed).trans (addEdge_ok {builder with edges := others} _ (present _ first)
              (present _ second) (fun again => ?_))
            rw [(remaining.map _).mem_iff,map_append] at again
            rw [map_append,map_cons] at distinct
            obtain ⟨-,apart,separate⟩ := nodup_append.mp distinct
            rcases mem_append.mp again with before | after
            · exact separate _ before _ mem_cons_self rfl
            · exact (nodup_cons.mp apart).1 after
          · refine (remaining.append_right _).trans ?_
            rw [append_assoc,append_assoc]
            exact perm_append_comm.append_left done
    obtain ⟨edges,step,permuted'⟩ := next
    obtain ⟨result,finished,spec⟩ := ih (done ++ [retarget (parallelismOf builder.vertices) key edge]) {builder with edges := edges} known
      (by
        rw [append_assoc,singleton_append,map_append,map_cons,retarget_pair,← map_cons,← map_append]
        exact distinct) permuted'
    refine ⟨result,?_,?_⟩
    · rw [foldlM_cons,ok_bind step]
      exact finished
    · rw [append_assoc] at spec
      exact spec

theorem mem_matchesOf (operatorId : OperatorId) (key : Nat) : key ∈ graph.matchesOf operatorId ↔
    ∃ vertex, graph.vertices.get? key = some vertex ∧ operatorId.Names key vertex = true := by
  unfold matchesOf
  constructor
  · intro listed
    obtain ⟨⟨_,vertex⟩,inside,rfl⟩ := List.mem_map.mp listed
    obtain ⟨own,names⟩ := mem_filter.mp inside
    exact ⟨vertex,(graph.vertices.get?_eq_some _ _).mpr own,names⟩
  · rintro ⟨vertex,found,names⟩
    exact List.mem_map.mpr ⟨(key,vertex),mem_filter.mpr ⟨(graph.vertices.get?_eq_some _ _).mp found,names⟩,rfl⟩

theorem resolveOperator_iff (operatorId : OperatorId) (key : Nat) :
    graph.resolveOperator operatorId = .ok key ↔ ∀ other, other ∈ graph.matchesOf operatorId ↔ other = key := by
  have distinct : (graph.matchesOf operatorId).Nodup := graph.vertices.distinct.sublist (filter_sublist.map Prod.fst)
  unfold resolveOperator
  constructor
  · intro done
    split at done
    next => contradiction
    next only =>
      obtain rfl := Except.ok.inj done
      intro other
      rw [only]
      exact mem_singleton
    next => contradiction
  · intro only
    have one : graph.matchesOf operatorId = [key] := by
      refine perm_singleton.mp ((perm_ext_iff_of_nodup distinct (nodup_singleton key)).mpr (fun other => ?_))
      rw [only,mem_singleton]
    rw [one]

def changed (key parallelism : Nat) (positive : 0 < parallelism) (vertex : VertexSpec ω) : VertexSpec ω :=
  if vertex.index = key then VertexSpec.rescaled vertex parallelism positive else vertex

omit [OperatorRecipe ω] in
theorem changed_keeps (key parallelism : Nat) (positive : 0 < parallelism) (vertex : VertexSpec ω) :
    (changed key parallelism positive vertex).index = vertex.index ∧
      (changed key parallelism positive vertex).name = vertex.name ∧
      (changed key parallelism positive vertex).operator = vertex.operator ∧
      (changed key parallelism positive vertex).nodeType = vertex.nodeType := by
  unfold changed
  split <;> exact ⟨rfl,rfl,rfl,rfl⟩

structure Rescaled (key parallelism : Nat) (positive : 0 < parallelism) (result : LogicalGraph ω) : Prop where
  vertices : ∀ other, result.vertices.get? other = (graph.vertices.get? other).map (changed key parallelism positive)
  edges : result.edges.Perm (graph.edges.map (retarget result.concurrencyOf key))

theorem rescaleOperator_spec (operatorId : OperatorId) (key parallelism : Nat) (positive : 0 < parallelism)
    (resolved : graph.resolveOperator operatorId = .ok key) (different : graph.concurrencyOf key ≠ parallelism) :
    ∃ result, graph.rescaleOperator operatorId parallelism = .ok result ∧ graph.Rescaled key parallelism positive result := by
  have wellFormed := graph.wellFormed.2
  obtain ⟨current,found,-⟩ := (graph.mem_matchesOf operatorId key).mp (((graph.resolveOperator_iff operatorId key).mp resolved key).mpr rfl)
  have own := wellFormed.indices key current found
  have unequal : current.concurrency ≠ parallelism := by
    unfold concurrencyOf at different
    rw [found] at different
    exact different
  have replaced : graph.toBuilder.replaceVertex (VertexSpec.rescaled current parallelism positive) =
      .ok {graph.toBuilder with vertices := graph.vertices.set key (VertexSpec.rescaled current parallelism positive)} := by
    have present : graph.vertices.contains current.index = true := by
      rw [contains_eq_isSome,own,found]
      rfl
    unfold LogicalGraphBuilder.replaceVertex
    rw [← own]
    exact if_pos present
  have vertices (other : Nat) : (graph.vertices.set key (VertexSpec.rescaled current parallelism positive)).get? other =
      (graph.vertices.get? other).map (changed key parallelism positive) := by
    rw [Dict.get?_set]
    by_cases same : other = key
    · subst same
      rw [if_pos rfl,found]
      exact congrArg some (if_pos own).symm
    · rw [if_neg same]
      cases here : graph.vertices.get? other with
      | none => rfl
      | some vertex =>
        refine congrArg some (if_neg (fun again => same ?_)).symm
        exact (wellFormed.indices other vertex here).symm.trans again
  have known (other : Nat) (listed : other ∈ graph.vertices.keys) :
      other ∈ (graph.vertices.set key (VertexSpec.rescaled current parallelism positive)).keys := by
    rw [Dict.mem_keys,vertices]
    obtain ⟨vertex,here⟩ := (graph.vertices.mem_keys other).mp listed
    exact ⟨_,by rw [here]; rfl⟩
  obtain ⟨edges,folded,permuted⟩ := rescaleEdge_foldlM key graph.edges []
    {graph.toBuilder with vertices := graph.vertices.set key (VertexSpec.rescaled current parallelism positive)}
    (fun edge own => ⟨known _ (wellFormed.ends edge own).1,known _ (wellFormed.ends edge own).2⟩) wellFormed.distinct
    (List.Perm.refl _)
  rw [nil_append] at permuted
  have good : WellFormed (graph.vertices.set key (VertexSpec.rescaled current parallelism positive)) edges := by
    refine wellFormed.change _ _ _ _ (changed key parallelism positive) (fun vertex => ?_) vertices ?_
    · obtain ⟨index,-,operator,nodeType⟩ := changed_keeps key parallelism positive vertex
      exact ⟨index,nodeType,by rw [operator]⟩
    · refine (permuted.map _).trans ?_
      rw [map_retarget_pair]
  obtain ⟨result,built,-,same,permuted'⟩ := LogicalGraphBuilder.build_ok
    ⟨graph.jobName,graph.vertices.set key (VertexSpec.rescaled current parallelism positive),edges⟩ graph.wellFormed.1 good
  refine ⟨result,?_,fun other => (same other).trans (vertices other),?_⟩
  · unfold rescaleOperator
    rw [dif_pos positive,ok_bind resolved,found]
    dsimp only
    rw [if_neg unequal,ok_bind replaced,ok_bind folded]
    exact built
  · have agree : result.concurrencyOf = parallelismOf (graph.vertices.set key (VertexSpec.rescaled current parallelism positive)) := by
      funext other
      unfold concurrencyOf parallelismOf
      rw [same]
    rw [agree]
    exact permuted'.trans permuted

end rescale

end Klein.Graph.LogicalGraph
