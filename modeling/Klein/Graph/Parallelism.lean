import Klein.Graph.PhysicalRescale

/-! Both planners agree: rescaling one operator in the logical graph and in the physical
graph gives the same channels, and every graph that is reached can be deployed. -/
namespace Klein.Graph
open Fallible List Option
variable {ω τ : Type} [OperatorRecipe ω]

section equal
variable (first second : ExecutionGraph)

theorem jobEdges_perm (vertices : ∀ key, first.jobVertices.get? key = second.jobVertices.get? key)
    (edges : (first.jobEdges.map ExecutionJobEdge.spec).Perm (second.jobEdges.map ExecutionJobEdge.spec)) :
    first.jobEdges.Perm second.jobEdges := by
  have distinct (graph : ExecutionGraph) : graph.jobEdges.Nodup := graph.checked.2.1.of_map _
  have listed (one other : ExecutionGraph) (same : ∀ key, one.jobVertices.get? key = other.jobVertices.get? key)
      (within : ∀ spec ∈ one.jobEdges.map ExecutionJobEdge.spec, spec ∈ other.jobEdges.map ExecutionJobEdge.spec)
      (edge : ExecutionJobEdge) (own : edge ∈ one.jobEdges) : edge ∈ other.jobEdges := by
    obtain ⟨edge',own',spec⟩ := List.mem_map.mp (within _ (List.mem_map_of_mem own))
    obtain ⟨source,target,found,found',made⟩ := one.expanded edge own
    obtain ⟨source',target',here,here',made'⟩ := other.expanded edge' own'
    unfold ExecutionJobEdge.spec at spec
    obtain ⟨from',to',partitioner⟩ := EdgeSpec.mk.inj spec
    rw [from',← same,found] at here
    rw [to',← same,found'] at here'
    cases here
    cases here'
    rw [partitioner] at made'
    cases made.symm.trans made'
    exact own'
  refine (perm_ext_iff_of_nodup (distinct first) (distinct second)).mpr (fun edge => ⟨?_,?_⟩)
  · exact listed first second vertices (fun spec own => edges.mem_iff.mp own) edge
  · exact listed second first (fun key => (vertices key).symm) (fun spec own => edges.mem_iff.mpr own) edge

theorem Topology.perm (vertices vertices' : Dict Nat ExecutionJobVertex) (edges edges' : List EdgeSpec)
    (topology : Topology vertices edges) (same : ∀ key, vertices'.get? key = vertices.get? key) (permuted : edges'.Perm edges) :
    Topology vertices' edges' := by
  have keys (key : Nat) : key ∈ vertices'.keys ↔ key ∈ vertices.keys := by rw [Dict.mem_keys,Dict.mem_keys,same]
  refine ⟨(permuted.map _).nodup_iff.mpr topology.distinct,fun edge own => ?_,fun key => ?_,?_⟩
  · rw [same,same]
    exact topology.joins edge (permuted.mem_iff.mp own)
  · rw [keys,same]
    refine (topology.roots key).trans (and_congr_right (fun _ => forall_congr' (fun edge => ?_)))
    rw [permuted.mem_iff]
  · obtain ⟨order,whole,sorted⟩ := topology.acyclic
    refine ⟨order,fun key known => whole key ((keys key).mp known),?_⟩
    exact Ordered.of_subset _ _ order (fun edge own => (permuted.map _).mem_iff.mp own) sorted

end equal

section rescaled
variable (logical : LogicalGraph ω) (key parallelism : Nat) (positive : 0 < parallelism) (result : LogicalGraph ω)
variable (rescaled : logical.Rescaled key parallelism positive result)

theorem defaultPartitioner_ne (source target : Nat) (unequal : source ≠ target) :
    defaultPartitioner (.scalar source) (.scalar target) ≠ .forward := by
  unfold defaultPartitioner
  dsimp only
  rw [if_neg unequal]
  split <;> simp

include rescaled in
theorem LogicalGraph.Rescaled.concurrencyOf (known : key ∈ logical.vertices.keys) (other : Nat) :
    result.concurrencyOf other = if other = key then parallelism else logical.concurrencyOf other := by
  unfold LogicalGraph.concurrencyOf
  rw [rescaled.vertices]
  cases found : logical.vertices.get? other with
  | none =>
    have apart : other ≠ key := by
      rintro rfl
      obtain ⟨_,here⟩ := (logical.vertices.mem_keys other).mp known
      rw [found] at here
      contradiction
    rw [if_neg apart]
    rfl
  | some vertex =>
    have own := logical.wellFormed.2.indices other vertex found
    unfold LogicalGraph.changed
    rw [map_some,own]
    split <;> rfl

include rescaled in
theorem LogicalGraph.Rescaled.matched (known : key ∈ logical.vertices.keys) (matched : logical.Matched) : result.Matched := by
  intro edge own forward
  obtain ⟨edge',own',rfl⟩ := List.mem_map.mp (rescaled.edges.mem_iff.mp own)
  unfold LogicalGraph.retarget at forward ⊢
  split at forward
  next kept =>
    rw [if_pos kept]
    rcases kept with ⟨source,target⟩ | explicit | equal
    · rw [rescaled.concurrencyOf logical key parallelism positive result known,if_neg source,
        rescaled.concurrencyOf logical key parallelism positive result known,if_neg target]
      exact matched edge' own' forward
    · exact absurd forward explicit
    · exact equal
  next changed =>
    refine absurd forward (defaultPartitioner_ne _ _ (fun equal => changed (.inr (.inr equal))))

include rescaled in
theorem LogicalGraph.Rescaled.explicit (edge : EdgeSpec) (own : edge ∈ logical.edges) (explicit : edge.partitioner ≠ .forward) :
    edge ∈ result.edges := by
  rw [rescaled.edges.mem_iff]
  exact List.mem_map.mpr ⟨edge,own,LogicalGraph.retarget_explicit _ key edge explicit⟩

include rescaled in
theorem LogicalGraph.Rescaled.resolves (operatorId : LogicalGraph.OperatorId) (target : Nat) :
    result.resolveOperator operatorId = .ok target ↔ logical.resolveOperator operatorId = .ok target := by
  rw [LogicalGraph.resolveOperator_iff,LogicalGraph.resolveOperator_iff]
  refine forall_congr' (fun other => ?_)
  rw [LogicalGraph.mem_matchesOf,LogicalGraph.mem_matchesOf,rescaled.vertices]
  cases logical.vertices.get? other with
  | none => simp
  | some vertex =>
    obtain ⟨-,name,operator,-⟩ := LogicalGraph.changed_keeps key parallelism positive vertex
    have same : operatorId.Names other (LogicalGraph.changed key parallelism positive vertex) = operatorId.Names other vertex := by
      unfold LogicalGraph.OperatorId.Names
      rw [name,operator]
    simp [same]

end rescaled

structure Agree (logical : LogicalGraph ω) (physical : ExecutionGraph) : Prop where
  vertices : ∀ key, physical.jobVertices.get? key = logical.jobVertices.get? key
  edges : (physical.jobEdges.map ExecutionJobEdge.spec).Perm logical.edges

theorem Agree.channels (logical : LogicalGraph ω) (first second : ExecutionGraph) (one : Agree logical first)
    (two : Agree logical second) : first.jobEdges.Perm second.jobEdges :=
  jobEdges_perm first second (fun key => (one.vertices key).trans (two.vertices key).symm) (one.edges.trans two.edges.symm)

structure Deployed (logical : LogicalGraph ω) (physical : PhysicalGraph τ) : Prop where
  matched : logical.Matched
  agree : Agree logical physical.graph
  aligned : physical.Aligned

section step
variable (fresh : ExecutionVertexId → τ) (logical : LogicalGraph ω) (physical : PhysicalGraph τ)
variable (operatorId : LogicalGraph.OperatorId) (key parallelism : Nat) (positive : 0 < parallelism)
variable (resolved : logical.resolveOperator operatorId = .ok key) (deployed : Deployed logical physical)

structure Rescales (logical' : LogicalGraph ω) (physical' : PhysicalGraph τ) : Prop where
  planned : logical.rescaleOperator operatorId parallelism = .ok logical'
  resized : physical.resizeOperator fresh key parallelism = .ok physical'
  replanned : ∃ physical'', physical.rescaleOperator fresh logical' operatorId = .ok physical'' ∧ Deployed logical' physical'' ∧
    physical.Keeps key physical''
  deployed : Deployed logical' physical'
  keeps : physical.Keeps key physical'
  explicit : ∀ edge ∈ logical.edges, edge.partitioner ≠ .forward → edge ∈ logical'.edges
  resolves : ∀ operatorId' key', logical'.resolveOperator operatorId' = .ok key' ↔ logical.resolveOperator operatorId' = .ok key'

include resolved in
theorem known_of_resolved : ∃ vertex, logical.vertices.get? key = some vertex := by
  obtain ⟨vertex,found,-⟩ := (logical.mem_matchesOf operatorId key).mp (((logical.resolveOperator_iff operatorId key).mp resolved key).mpr rfl)
  exact ⟨vertex,found⟩

theorem jobVertices_get? (other : Nat) : logical.jobVertices.get? other = (logical.vertices.get? other).map (fun vertex =>
    ⟨vertex.index,vertex.concurrency,OperatorRecipe.source vertex.operator,vertex.resources.positive⟩) :=
  Dict.get?_mapValues _ _ _

theorem keeps_self : physical.Keeps key physical :=
  ⟨fun _ _ => rfl,fun index vertex vertex' was now => by cases was.symm.trans now; exact ⟨rfl,rfl⟩⟩

include deployed in
theorem physical_concurrencyOf (other : Nat) : physical.concurrencyOf other = logical.concurrencyOf other := by
  unfold PhysicalGraph.concurrencyOf LogicalGraph.concurrencyOf
  rw [deployed.agree.vertices,jobVertices_get?,Option.map_map]
  rfl

include resolved deployed in
theorem rescales_same (same : logical.concurrencyOf key = parallelism) :
    Rescales fresh logical physical operatorId key parallelism logical physical := by
  obtain ⟨vertex,found⟩ := known_of_resolved logical operatorId key resolved
  have equal : vertex.concurrency = parallelism := by
    unfold LogicalGraph.concurrencyOf at same
    rw [found] at same
    exact same
  have here : logical.jobVertices.get? key = some ⟨vertex.index,vertex.concurrency,OperatorRecipe.source vertex.operator,
      vertex.resources.positive⟩ := by
    rw [jobVertices_get?,found]
    rfl
  have here' := (deployed.agree.vertices key).trans here
  have positive : 0 < parallelism := equal ▸ vertex.resources.positive
  refine ⟨?_,?_,⟨physical,?_,deployed,keeps_self physical key⟩,deployed,keeps_self physical key,fun _ own _ => own,fun _ _ => Iff.rfl⟩
  · unfold LogicalGraph.rescaleOperator
    rw [dif_pos positive,ok_bind resolved,found]
    exact if_pos equal
  · unfold PhysicalGraph.resizeOperator
    rw [dif_pos positive]
    split
    next absent =>
      rw [here'] at absent
      contradiction
    next old known =>
      cases here'.symm.trans known
      exact physical.rescaleOperatorSpec_same fresh key _ _ _ _ here' equal
  · have keys (other : Nat) : other ∈ logical.vertices.keys ↔ other ∈ physical.graph.jobVertices.keys := by
      rw [Dict.mem_keys,Dict.mem_keys,deployed.agree.vertices,jobVertices_get?]
      simp
    unfold PhysicalGraph.rescaleOperator
    rw [ok_bind resolved,if_neg (not_not.mpr ⟨fun other own => (keys other).mp own,fun other own => (keys other).mpr own⟩)]
    dsimp only
    split
    next absent =>
      rw [here] at absent
      contradiction
    next vertex' known =>
      cases here.symm.trans known
      exact physical.rescaleOperatorSpec_same fresh key _ _ _ _ here' rfl

include resolved deployed in
theorem rescales_other (positive : 0 < parallelism) (different : logical.concurrencyOf key ≠ parallelism) :
    ∃ logical' physical', Rescales fresh logical physical operatorId key parallelism logical' physical' := by
  obtain ⟨vertex,found⟩ := known_of_resolved logical operatorId key resolved
  have known : key ∈ logical.vertices.keys := (logical.vertices.mem_keys key).mpr ⟨vertex,found⟩
  obtain ⟨logical',done,rescaled⟩ := logical.rescaleOperator_spec operatorId key parallelism positive resolved different
  have matched := rescaled.matched logical key parallelism positive logical' known deployed.matched
  have unequal : vertex.concurrency ≠ parallelism := by
    unfold LogicalGraph.concurrencyOf at different
    rw [found] at different
    exact different
  have here : logical.jobVertices.get? key = some ⟨vertex.index,vertex.concurrency,OperatorRecipe.source vertex.operator,
      vertex.resources.positive⟩ := by
    rw [jobVertices_get?,found]
    rfl
  have here' := (deployed.agree.vertices key).trans here
  have own := logical.wellFormed.2.indices key vertex found
  -- the job vertices of the new logical graph are the old ones with the resized operator
  have vertices (new : ExecutionJobVertex) (same : new = ⟨vertex.index,parallelism,OperatorRecipe.source vertex.operator,positive⟩)
      (other : Nat) : (physical.graph.jobVertices.set key new).get? other = logical'.jobVertices.get? other := by
    subst same
    rw [Dict.get?_set,jobVertices_get?,rescaled.vertices,deployed.agree.vertices,jobVertices_get?]
    cases present : logical.vertices.get? other with
    | none =>
      have apart : other ≠ key := by
        rintro rfl
        rw [found] at present
        contradiction
      rw [if_neg apart]
      rfl
    | some old =>
      have index := logical.wellFormed.2.indices other old present
      unfold LogicalGraph.changed
      rw [map_some,map_some,map_some,index]
      by_cases same : other = key
      · subst same
        cases found.symm.trans present
        rw [if_pos rfl,if_pos rfl]
        rfl
      · rw [if_neg same,if_neg same,index]
  have topology (new : ExecutionJobVertex) (same : new = ⟨vertex.index,parallelism,OperatorRecipe.source vertex.operator,positive⟩)
      (edges : List EdgeSpec) (permuted : edges.Perm logical'.edges) : Topology (physical.graph.jobVertices.set key new) edges :=
    Topology.perm _ _ _ _ (logical'.topology matched) (vertices new same) permuted
  have parallelism' (other : Nat) : (if other = key then parallelism else physical.concurrencyOf other) = logical'.concurrencyOf other := by
    rw [rescaled.concurrencyOf logical key parallelism positive logical' known,physical_concurrencyOf logical physical deployed]
  have resized : (physical.graph.jobEdges.map (physical.resizeEdge key parallelism)).Perm logical'.edges := by
    have each : physical.graph.jobEdges.map (physical.resizeEdge key parallelism) =
        (physical.graph.jobEdges.map ExecutionJobEdge.spec).map (LogicalGraph.retarget logical'.concurrencyOf key) := by
      rw [List.map_map]
      refine map_congr_left (fun edge _ => ?_)
      unfold PhysicalGraph.resizeEdge LogicalGraph.retarget ExecutionJobEdge.spec Function.comp
      dsimp only
      rw [parallelism',parallelism']
      by_cases touched : (key = edge.source ∨ key = edge.target) ∧ edge.partitioner = .forward ∧
          logical'.concurrencyOf edge.source ≠ logical'.concurrencyOf edge.target
      · rw [if_pos touched,if_neg]
        rintro (⟨source,target⟩ | explicit | equal)
        · exact touched.1.elim (fun same => source same.symm) (fun same => target same.symm)
        · exact explicit touched.2.1
        · exact touched.2.2 equal
      · rw [if_neg touched,if_pos]
        by_contra kept
        rw [not_or,not_or,not_not,not_and_or,not_not,not_not] at kept
        exact touched ⟨kept.1.imp Eq.symm Eq.symm,kept.2⟩
    rw [each]
    exact (deployed.agree.edges.map _).trans rescaled.edges.symm
  obtain ⟨physical',made,aligned,keeps,jobVertices,edges⟩ := physical.rescaleOperatorSpec_ok fresh key
    ⟨vertex.index,vertex.concurrency,OperatorRecipe.source vertex.operator,vertex.resources.positive⟩
    ⟨vertex.index,parallelism,OperatorRecipe.source vertex.operator,positive⟩ own _ deployed.aligned here' unequal
    (topology _ rfl _ resized)
  have here'' : logical'.jobVertices.get? key = some ⟨vertex.index,parallelism,OperatorRecipe.source vertex.operator,positive⟩ := by
    rw [← vertices _ rfl,Dict.get?_set,if_pos rfl]
  obtain ⟨physical'',made',aligned',keeps',jobVertices',edges'⟩ := physical.rescaleOperatorSpec_ok fresh key
    ⟨vertex.index,vertex.concurrency,OperatorRecipe.source vertex.operator,vertex.resources.positive⟩
    ⟨vertex.index,parallelism,OperatorRecipe.source vertex.operator,positive⟩ own _ deployed.aligned here' unequal
    (topology _ rfl _ (List.Perm.refl _))
  refine ⟨logical',physical',done,?_,⟨physical'',?_,⟨matched,⟨fun other => ?_,?_⟩,aligned'⟩,keeps'⟩,
    ⟨matched,⟨fun other => ?_,?_⟩,aligned⟩,keeps,rescaled.explicit logical key parallelism positive logical',
    rescaled.resolves logical key parallelism positive logical'⟩
  · unfold PhysicalGraph.resizeOperator
    rw [dif_pos positive]
    split
    next absent =>
      rw [here'] at absent
      contradiction
    next old present =>
      cases here'.symm.trans present
      exact made
  · have keys (other : Nat) : other ∈ logical'.vertices.keys ↔ other ∈ physical.graph.jobVertices.keys := by
      rw [Dict.mem_keys,Dict.mem_keys,deployed.agree.vertices,jobVertices_get?,rescaled.vertices]
      simp
    unfold PhysicalGraph.rescaleOperator
    rw [ok_bind ((rescaled.resolves logical key parallelism positive logical' operatorId key).mpr resolved),
      if_neg (not_not.mpr ⟨fun other own => (keys other).mp own,fun other own => (keys other).mpr own⟩)]
    dsimp only
    split
    next absent =>
      rw [here''] at absent
      contradiction
    next new present =>
      cases here''.symm.trans present
      exact made'
  · rw [jobVertices']
    exact vertices _ rfl other
  · rw [edges']
  · rw [jobVertices]
    exact vertices _ rfl other
  · rw [edges]
    exact resized

include resolved deployed in
theorem exists_rescales (positive : 0 < parallelism) :
    ∃ logical' physical', Rescales fresh logical physical operatorId key parallelism logical' physical' := by
  by_cases same : logical.concurrencyOf key = parallelism
  · exact ⟨logical,physical,rescales_same fresh logical physical operatorId key parallelism resolved deployed same⟩
  · exact rescales_other fresh logical physical operatorId key parallelism resolved deployed positive same

end step

section run
variable (fresh : ExecutionVertexId → τ)

def change (state : LogicalGraph ω × PhysicalGraph τ) (request : LogicalGraph.OperatorId × Nat) :
    Except String (LogicalGraph ω × PhysicalGraph τ) := do
  let key ← state.1.resolveOperator request.1
  let logical ← state.1.rescaleOperator request.1 request.2
  let physical ← state.2.resizeOperator fresh key request.2
  return (logical,physical)

def Admissible (graph : LogicalGraph ω) (request : LogicalGraph.OperatorId × Nat) : Prop :=
  0 < request.2 ∧ ∃ key, graph.resolveOperator request.1 = .ok key

/-- The parallelism can go on changing: the graphs expand to the same channels, which cover
the subtasks, explicit partitioners are those of the initial graph, and the next
request succeeds with the subtasks that remain. -/
structure Deployable (initial logical : LogicalGraph ω) (physical : PhysicalGraph τ) : Prop where
  expands : ∃ expanded, logical.expand = .ok expanded ∧ expanded.jobEdges.Perm physical.graph.jobEdges
  covered : ∀ edge ∈ physical.graph.jobEdges,
    (∀ target ∈ physical.graph.subtasks edge.target, ∃ source, (source,target) ∈ edge.executionEdges) ∧
      ∀ source ∈ physical.graph.subtasks edge.source, ∃ target, (source,target) ∈ edge.executionEdges
  explicit : ∀ edge ∈ initial.edges, edge.partitioner ≠ .forward → edge ∈ logical.edges
  next : ∀ operatorId key parallelism, 0 < parallelism → initial.resolveOperator operatorId = .ok key →
    ∃ logical' physical' physical'', logical.rescaleOperator operatorId parallelism = .ok logical' ∧
      physical.resizeOperator fresh key parallelism = .ok physical' ∧
      physical.rescaleOperator fresh logical' operatorId = .ok physical'' ∧
      physical''.graph.jobEdges.Perm physical'.graph.jobEdges ∧ physical.Keeps key physical' ∧ physical.Keeps key physical''

theorem deploy_ok (logical : LogicalGraph ω) (matched : logical.Matched) :
    ∃ physical, deploy fresh logical = .ok physical ∧ Deployed logical physical := by
  obtain ⟨graph,done,vertices,edges⟩ := logical.expand_ok matched
  refine ⟨⟨graph,fun key => ((graph.jobVertices.get? key).map (newTasks fresh)).getD []⟩,ok_bind done,
    matched,⟨fun key => by rw [vertices],by rw [edges]⟩,fun key => ?_⟩
  unfold ExecutionGraph.subtasks
  dsimp only
  cases graph.jobVertices.get? key with
  | none => rfl
  | some vertex => exact PhysicalGraph.newTasks_id fresh vertex

theorem change_foldlM (initial : LogicalGraph ω) (requests : List (LogicalGraph.OperatorId × Nat))
    (admissible : ∀ request ∈ requests, Admissible initial request) (logical : LogicalGraph ω) (physical : PhysicalGraph τ)
    (deployed : Deployed logical physical)
    (resolves : ∀ operatorId key, logical.resolveOperator operatorId = .ok key ↔ initial.resolveOperator operatorId = .ok key)
    (explicit : ∀ edge ∈ initial.edges, edge.partitioner ≠ .forward → edge ∈ logical.edges) :
    ∃ logical' physical', requests.foldlM (change fresh) (logical,physical) = .ok (logical',physical') ∧
      Deployed logical' physical' ∧
      (∀ operatorId key, logical'.resolveOperator operatorId = .ok key ↔ initial.resolveOperator operatorId = .ok key) ∧
      ∀ edge ∈ initial.edges, edge.partitioner ≠ .forward → edge ∈ logical'.edges := by
  induction requests generalizing logical physical with
  | nil => exact ⟨logical,physical,rfl,deployed,resolves,explicit⟩
  | cons request rest ih =>
    obtain ⟨⟨positive,key,resolved⟩,later⟩ := forall_mem_cons.mp admissible
    have resolved := (resolves request.1 key).mpr resolved
    obtain ⟨logical',physical',rescales⟩ := exists_rescales fresh logical physical request.1 key request.2 resolved deployed positive
    have step : change fresh (logical,physical) request = .ok (logical',physical') := by
      unfold change
      rw [ok_bind resolved,ok_bind rescales.planned,ok_bind rescales.resized]
      rfl
    obtain ⟨logical'',physical'',done,rest⟩ := ih later logical' physical' rescales.deployed
      (fun operatorId key => (rescales.resolves operatorId key).trans (resolves operatorId key))
      (fun edge own apart => rescales.explicit edge (explicit edge own apart) apart)
    refine ⟨logical'',physical'',?_,rest⟩
    rw [foldlM_cons,ok_bind step]
    exact done

theorem Deployed.deployable (initial logical : LogicalGraph ω) (physical : PhysicalGraph τ) (deployed : Deployed logical physical)
    (resolves : ∀ operatorId key, logical.resolveOperator operatorId = .ok key ↔ initial.resolveOperator operatorId = .ok key)
    (explicit : ∀ edge ∈ initial.edges, edge.partitioner ≠ .forward → edge ∈ logical.edges) :
    Deployable fresh initial logical physical := by
  obtain ⟨expanded,done,vertices,edges⟩ := logical.expand_ok deployed.matched
  refine ⟨⟨expanded,done,?_⟩,physical.graph.channels_cover,explicit,fun operatorId key parallelism positive resolved => ?_⟩
  · exact Agree.channels logical expanded physical.graph ⟨fun key => by rw [vertices],by rw [edges]⟩ deployed.agree
  · obtain ⟨logical',physical',rescales⟩ := exists_rescales fresh logical physical operatorId key parallelism
      ((resolves operatorId key).mpr resolved) deployed positive
    obtain ⟨physical'',replanned,deployed',keeps⟩ := rescales.replanned
    exact ⟨logical',physical',physical'',rescales.planned,rescales.resized,replanned,
      Agree.channels logical' _ _ deployed'.agree rescales.deployed.agree,rescales.keeps,keeps⟩

end run

def plannedParallelism (graph : LogicalGraph ω) (plan : Dict String ResourceNode) (key : Nat) : Nat :=
  (((graph.vertices.get? key).bind (fun vertex => plan.get? (LogicalGraph.nodeKey vertex))).map
    (fun node => node.resources.scalarConcurrency)).getD 0

def EqualEnds (graph : LogicalGraph ω) (plan : Dict String ResourceNode) : Prop :=
  ∀ edge ∈ graph.edges, edge.partitioner = .forward → plannedParallelism graph plan edge.source = plannedParallelism graph plan edge.target

theorem plannedParallelism_eq (graph planned : LogicalGraph ω) (plan : Dict String ResourceNode) (compatible : graph.Compatible plan)
    (vertices : ∀ key, planned.vertices.get? key = (graph.vertices.get? key).map (LogicalGraph.planned plan)) (key : Nat) :
    planned.concurrencyOf key = plannedParallelism graph plan key := by
  unfold LogicalGraph.concurrencyOf plannedParallelism
  rw [vertices]
  cases found : graph.vertices.get? key with
  | none => rfl
  | some vertex =>
    have listed : LogicalGraph.nodeKey vertex ∈ graph.nodeKeys := List.mem_map_of_mem ((graph.vertices.mem_values _).mpr ⟨key,found⟩)
    obtain ⟨node,here⟩ := (plan.mem_keys _).mp (compatible.1 listed)
    unfold LogicalGraph.planned
    rw [map_some,bind_some,here]
    rfl

section examples

def forwardPipeline : LogicalGraph PlainOperator where
  jobName := "job"
  vertices := Dict.ofList [(0,⟨0,"read[0]",⟨"read",true⟩,.source,Resources.scalar 1 (by decide)⟩),
    (1,⟨1,"write[1]",⟨"write",false⟩,.sink,Resources.scalar 1 (by decide)⟩)]
  edges := [⟨0,1,.forward⟩]
  built := ⟨Dict.ofList [(0,⟨0,"read[0]",⟨"read",true⟩,.source,Resources.scalar 1 (by decide)⟩),
    (1,⟨1,"write[1]",⟨"write",false⟩,.sink,Resources.scalar 1 (by decide)⟩)],[⟨0,1,.forward⟩],by decide +kernel⟩

def widenSink : Dict String ResourceNode :=
  Dict.ofList [("read[0]",⟨Resources.scalar 1 (by decide),none,none⟩),("write[1]",⟨Resources.scalar 2 (by decide),none,none⟩)]

def widenBoth : Dict String ResourceNode :=
  Dict.ofList [("read[0]",⟨Resources.scalar 2 (by decide),none,none⟩),("write[1]",⟨Resources.scalar 2 (by decide),none,none⟩)]

end examples

end Klein.Graph
