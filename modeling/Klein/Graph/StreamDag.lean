import Klein.Graph.WellFormedGraphs

/-! The streams of the API and their capture as a logical graph (`api/stream.py`,
`LogicalGraph.from_sinks`). A stream is built from earlier streams, so the numbers of
its inputs are smaller than its own. -/
namespace Klein.Graph
open Fallible List Option
variable {ω : Type}

def Resources.effectiveConcurrency (resources : Resources) : Concurrency := resources.concurrency.getD (.scalar 1)

structure Stream (ω : Type) where
  name : String
  operator : ω
  nodeType : NodeType
  resources : Resources
  partitioner : Option PartitionerSpec
  inputs : List Nat

structure StreamDag (ω : Type) [OperatorRecipe ω] where
  jobName : String
  streams : List (Stream ω)
  sinks : List Nat
  named : jobName ≠ ""
  earlier : ∀ (id : Nat) (stream : Stream ω), streams[id]? = some stream → ∀ input ∈ stream.inputs, input < id
  source : ∀ (id : Nat) (stream : Stream ω), streams[id]? = some stream →
    decide (stream.nodeType = .source) = OperatorRecipe.source stream.operator ∧ (stream.nodeType = .source ↔ stream.inputs = [])
  terminal : ∀ sink ∈ sinks, ∃ stream, streams[sink]? = some stream ∧ stream.nodeType ≠ .union

namespace StreamDag
variable [OperatorRecipe ω] (dag : StreamDag ω)

def inputs (id : Nat) : List Nat := (dag.streams[id]?.map Stream.inputs).getD []

def vertexSpec (id : Nat) (stream : Stream ω) : VertexSpec ω where
  index := id
  name := stream.name ++ "[" ++ toString id ++ "]"
  operator := stream.operator
  nodeType := stream.nodeType
  resources := stream.resources

/-- `parent.partitioner or default_partitioner(parent.concurrency, stream.concurrency)` -/
def partitionerOf (parent stream : Stream ω) : PartitionerSpec :=
  parent.partitioner.getD (defaultPartitioner parent.resources.effectiveConcurrency stream.resources.effectiveConcurrency)

structure Capture (ω : Type) where
  builder : LogicalGraphBuilder ω
  visited : List Nat

variable [DecidableEq ω]

def visitParent (visit : Capture ω → Nat → Except String (Capture ω)) (id : Nat) (stream : Stream ω) (capture : Capture ω)
    (parentId : Nat) : Except String (Capture ω) :=
  match dag.streams[parentId]? with
  | none => .error "unknown stream"
  | some parent => do
    let capture ← visit capture parentId
    let builder ← capture.builder.addEdge ⟨parentId,id,partitionerOf parent stream⟩
    return ⟨builder,capture.visited⟩

/-- `visit`; `fuel` bounds the depth of the recursion. -/
def visit : Nat → Capture ω → Nat → Except String (Capture ω)
  | 0,_,_ => .error "maximum recursion depth exceeded"
  | fuel + 1,capture,id =>
    match dag.streams[id]? with
    | none => .error "unknown stream"
    | some stream => do
      let builder ← capture.builder.addVertex (vertexSpec id stream)
      if id ∈ capture.visited then return ⟨builder,capture.visited⟩
      stream.inputs.foldlM (dag.visitParent (visit fuel) id stream) ⟨builder,id::capture.visited⟩

def capture : Except String (Capture ω) :=
  dag.sinks.foldlM (fun capture sink => dag.visit (sink + 1) capture sink) ⟨⟨dag.jobName,∅,[]⟩,[]⟩

/-- `from_sinks` -/
def fromSinks : Except String (LogicalGraph ω) := do
  let capture ← dag.capture
  capture.builder.build

section spec

def Complete (capture : Capture ω) (id : Nat) : Prop := ∀ stream, dag.streams[id]? = some stream → ∀ input ∈ stream.inputs,
  input ∈ capture.visited ∧ ∀ parent, dag.streams[input]? = some parent →
    (⟨input,id,partitionerOf parent stream⟩ : EdgeSpec) ∈ capture.builder.edges

structure Sound (capture : Capture ω) : Prop where
  job : capture.builder.jobName = dag.jobName
  vertices : ∀ id, capture.builder.vertices.get? id =
    if id ∈ capture.visited then dag.streams[id]?.map (vertexSpec id) else none
  edges : ∀ edge ∈ capture.builder.edges, edge.source ∈ capture.visited ∧ edge.target ∈ capture.visited ∧
    ∃ parent stream, dag.streams[edge.source]? = some parent ∧ dag.streams[edge.target]? = some stream ∧
      edge.source ∈ stream.inputs ∧ edge.partitioner = partitionerOf parent stream
  distinct : (capture.builder.edges.map EdgeSpec.pair).Nodup
  known : ∀ id ∈ capture.visited, ∃ stream, dag.streams[id]? = some stream
  used : ∀ id ∈ capture.visited, id ∈ dag.sinks ∨ ∃ user ∈ capture.visited, ∃ stream, dag.streams[user]? = some stream ∧ id ∈ stream.inputs

structure Grows (before after : Capture ω) : Prop where
  visited : ∀ id ∈ before.visited, id ∈ after.visited
  edges : ∀ edge ∈ before.builder.edges, edge ∈ after.builder.edges

omit [OperatorRecipe ω] [DecidableEq ω] in
theorem Grows.refl (capture : Capture ω) : Grows capture capture := ⟨fun _ inside => inside,fun _ own => own⟩

omit [OperatorRecipe ω] [DecidableEq ω] in
theorem Grows.trans (first second third : Capture ω) (one : Grows first second) (two : Grows second third) : Grows first third :=
  ⟨fun id inside => two.visited id (one.visited id inside),fun edge own => two.edges edge (one.edges edge own)⟩

omit [DecidableEq ω] in
theorem Complete.grows (before after : Capture ω) (grows : Grows before after) (id : Nat) (complete : dag.Complete before id) :
    dag.Complete after id := fun stream found input own =>
  ⟨grows.visited input (complete stream found input own).1,
    fun parent found' => grows.edges _ ((complete stream found input own).2 parent found')⟩

section
variable (capture : Capture ω) (sound : dag.Sound capture) (id : Nat) (stream : Stream ω)
  (found : dag.streams[id]? = some stream)
include sound found

theorem Sound.again (old : id ∈ capture.visited) :
    ∃ builder, capture.builder.addVertex (vertexSpec id stream) = .ok builder ∧ dag.Sound ⟨builder,capture.visited⟩ ∧
      builder.edges = capture.builder.edges := by
  have here := sound.vertices id
  rw [if_pos old,found] at here
  refine ⟨{capture.builder with vertices := capture.builder.vertices.set id (vertexSpec id stream)},?_,?_,rfl⟩
  · unfold LogicalGraphBuilder.addVertex
    refine if_pos (fun existing same => ?_)
    rw [show (vertexSpec id stream).index = id from rfl,here] at same
    exact (some.inj same).symm
  · refine {sound with vertices := fun other => ?_}
    dsimp only
    rw [Dict.get?_set]
    split
    next same =>
      subst same
      rw [if_pos old,found]
      rfl
    next => exact sound.vertices other

theorem Sound.enter (new : id ∉ capture.visited)
    (used : id ∈ dag.sinks ∨ ∃ user ∈ capture.visited, ∃ stream, dag.streams[user]? = some stream ∧ id ∈ stream.inputs) :
    ∃ builder, capture.builder.addVertex (vertexSpec id stream) = .ok builder ∧ dag.Sound ⟨builder,id::capture.visited⟩ ∧
      builder.edges = capture.builder.edges := by
  have here := sound.vertices id
  rw [if_neg new] at here
  refine ⟨{capture.builder with vertices := capture.builder.vertices.set id (vertexSpec id stream)},?_,?_,rfl⟩
  · unfold LogicalGraphBuilder.addVertex
    refine if_pos (fun existing same => ?_)
    rw [show (vertexSpec id stream).index = id from rfl,here] at same
    contradiction
  · refine ⟨sound.job,fun other => ?_,fun edge own => ?_,sound.distinct,?_,?_⟩
    · dsimp only
      rw [Dict.get?_set]
      by_cases same : other = id
      · subst same
        rw [if_pos rfl,if_pos mem_cons_self,found]
        rfl
      · rw [if_neg same,sound.vertices]
        simp [same]
    · obtain ⟨source,target,rest⟩ := sound.edges edge own
      exact ⟨mem_cons_of_mem _ source,mem_cons_of_mem _ target,rest⟩
    · exact forall_mem_cons.mpr ⟨⟨stream,found⟩,sound.known⟩
    · refine forall_mem_cons.mpr ⟨used.imp_right (fun ⟨user,inside,rest⟩ => ⟨user,mem_cons_of_mem _ inside,rest⟩),?_⟩
      exact fun other inside => (sound.used other inside).imp_right
        (fun ⟨user,inside,rest⟩ => ⟨user,mem_cons_of_mem _ inside,rest⟩)

end

omit [DecidableEq ω] in
theorem Sound.link (capture : Capture ω) (sound : dag.Sound capture) (parentId id : Nat) (parent stream : Stream ω)
    (found : dag.streams[parentId]? = some parent) (found' : dag.streams[id]? = some stream) (own : parentId ∈ stream.inputs)
    (inside : parentId ∈ capture.visited) (inside' : id ∈ capture.visited) :
    ∃ builder, capture.builder.addEdge ⟨parentId,id,partitionerOf parent stream⟩ = .ok builder ∧
      dag.Sound ⟨builder,capture.visited⟩ ∧ Grows capture ⟨builder,capture.visited⟩ ∧
      (⟨parentId,id,partitionerOf parent stream⟩ : EdgeSpec) ∈ builder.edges := by
  have present (other : Nat) (listed : other ∈ capture.visited) : capture.builder.vertices.contains other = true := by
    obtain ⟨_,here⟩ := sound.known other listed
    rw [Dict.contains_eq_isSome,sound.vertices,if_pos listed,here]
    rfl
  unfold LogicalGraphBuilder.addEdge
  dsimp only
  rw [if_neg (by simp [present _ inside,present _ inside'])]
  cases existing : capture.builder.edge parentId id with
  | none =>
    refine ⟨_,rfl,{sound with edges := ?_,distinct := ?_},⟨fun _ old => old,fun edge old => mem_append_left _ old⟩,
      by simp⟩
    · intro edge listed
      rcases mem_append.mp listed with old | last
      · exact sound.edges edge old
      · obtain rfl := mem_singleton.mp last
        exact ⟨inside,inside',parent,stream,found,found',own,rfl⟩
    · dsimp only
      rw [map_append]
      refine sound.distinct.append (nodup_singleton _) (fun pair old last => ?_)
      obtain ⟨edge,listed,rfl⟩ := List.mem_map.mp old
      obtain ⟨source,target⟩ := Prod.mk.inj (mem_singleton.mp last)
      exact find?_eq_none.mp existing edge listed (decide_eq_true ⟨source,target⟩)
  | some edge =>
    have listed := mem_of_find?_eq_some existing
    obtain ⟨source,target⟩ : edge.source = parentId ∧ edge.target = id := by simpa using find?_some existing
    obtain ⟨-,-,parent',stream',here,here',-,partitioner⟩ := sound.edges edge listed
    rw [source] at here
    rw [target] at here'
    cases found.symm.trans here
    cases found'.symm.trans here'
    have same : edge = ⟨parentId,id,partitionerOf parent stream⟩ := by
      cases edge
      dsimp only at source target partitioner
      rw [source,target,partitioner]
    refine ⟨capture.builder,if_pos same,sound,Grows.refl capture,same ▸ listed⟩

theorem visit_spec (fuel id : Nat) (enough : id < fuel) (capture : Capture ω) (sound : dag.Sound capture)
    (known : ∃ stream, dag.streams[id]? = some stream)
    (used : id ∈ dag.sinks ∨ ∃ user ∈ capture.visited, ∃ stream, dag.streams[user]? = some stream ∧ id ∈ stream.inputs)
    (pending : List Nat) (above : ∀ other ∈ pending, id < other)
    (complete : ∀ other ∈ capture.visited, other ∉ pending → dag.Complete capture other) :
    ∃ after, dag.visit fuel capture id = .ok after ∧ dag.Sound after ∧ Grows capture after ∧ id ∈ after.visited ∧
      ∀ other ∈ after.visited, other ∉ pending → dag.Complete after other := by
  induction fuel generalizing id capture pending with
  | zero => exact absurd enough (Nat.not_lt_zero _)
  | succ fuel ih =>
    obtain ⟨stream,found⟩ := known
    unfold visit
    rw [found]
    dsimp only
    by_cases old : id ∈ capture.visited
    · obtain ⟨builder,added,sound',edges⟩ := sound.again dag capture id stream found old
      refine ⟨⟨builder,capture.visited⟩,?_,sound',⟨fun _ inside => inside,fun edge own => edges ▸ own⟩,old,fun other inside outside => ?_⟩
      · rw [ok_bind added,if_pos old]
        rfl
      · intro stream' here input own
        obtain ⟨reached,edge⟩ := complete other inside outside stream' here input own
        exact ⟨reached,fun parent there => edges ▸ edge parent there⟩
    · obtain ⟨builder,added,sound',edges⟩ := sound.enter dag capture id stream found old used
      rw [ok_bind added,if_neg old]
      have entered : Grows capture ⟨builder,id::capture.visited⟩ :=
        ⟨fun _ inside => mem_cons_of_mem _ inside,fun edge own => edges ▸ own⟩
      -- the loop over the parents, which are all earlier than the stream
      have loop (rest : List Nat) (within : ∀ input ∈ rest, input ∈ stream.inputs) (current : Capture ω) (sound : dag.Sound current)
          (inside : id ∈ current.visited) (complete : ∀ other ∈ current.visited, other ∉ id::pending → dag.Complete current other) :
          ∃ after, rest.foldlM (dag.visitParent (dag.visit fuel) id stream) current = .ok after ∧ dag.Sound after ∧ Grows current after ∧
            (∀ other ∈ after.visited, other ∉ id::pending → dag.Complete after other) ∧
            ∀ input ∈ rest, input ∈ after.visited ∧ ∀ parent, dag.streams[input]? = some parent →
              (⟨input,id,partitionerOf parent stream⟩ : EdgeSpec) ∈ after.builder.edges := by
        induction rest generalizing current with
        | nil => exact ⟨current,rfl,sound,Grows.refl current,complete,by simp⟩
        | cons input rest ihRest =>
          obtain ⟨own,within⟩ := forall_mem_cons.mp within
          have before := dag.earlier id stream found input own
          have small : id < dag.streams.length := (List.getElem?_eq_some_iff.mp found).1
          obtain ⟨parent,here⟩ : ∃ parent, dag.streams[input]? = some parent :=
            ⟨_,getElem?_eq_getElem (before.trans small)⟩
          obtain ⟨visited,done,sound₁,grows₁,reached,complete₁⟩ := ih input (by omega) current sound ⟨parent,here⟩
            (.inr ⟨id,inside,stream,found,own⟩) (id::pending)
            (forall_mem_cons.mpr ⟨before,fun other listed => before.trans (above other listed)⟩) complete
          obtain ⟨builder',linked,sound₂,grows₂,edge⟩ := sound₁.link dag visited input id parent stream here found own reached
            (grows₁.visited id inside)
          obtain ⟨after,finished,sound₃,grows₃,complete₃,all⟩ := ihRest within ⟨builder',visited.visited⟩ sound₂
            (grows₁.visited id inside) (fun other listed outside => (complete₁ other listed outside).grows dag _ _ grows₂)
          refine ⟨after,?_,sound₃,Grows.trans _ _ _ grows₁ (Grows.trans _ _ _ grows₂ grows₃),complete₃,
            forall_mem_cons.mpr ⟨⟨grows₃.visited input (grows₂.visited input reached),fun parent' there => ?_⟩,all⟩⟩
          · have step : dag.visitParent (dag.visit fuel) id stream current input = .ok ⟨builder',visited.visited⟩ := by
              unfold visitParent
              rw [here]
              dsimp only
              rw [ok_bind done,ok_bind linked]
              rfl
            rw [foldlM_cons,ok_bind step]
            exact finished
          · cases here.symm.trans there
            exact grows₃.edges _ edge
      obtain ⟨after,finished,sound₃,grows₃,complete₃,all⟩ := loop stream.inputs (fun _ own => own) ⟨builder,id::capture.visited⟩ sound'
        mem_cons_self (fun other listed outside => by
          obtain ⟨apart,outside⟩ := not_or.mp (mt mem_cons.mpr outside)
          have listed := (mem_cons.mp listed).resolve_left apart
          exact (complete other listed outside).grows dag _ _ entered)
      refine ⟨after,finished,sound₃,Grows.trans _ _ _ entered grows₃,grows₃.visited id mem_cons_self,fun other listed outside => ?_⟩
      by_cases same : other = id
      · subst same
        intro stream' there
        cases found.symm.trans there
        exact all
      · exact complete₃ other listed (fun inside => (mem_cons.mp inside).elim same outside)

structure Captured (capture : Capture ω) : Prop where
  sound : dag.Sound capture
  complete : ∀ id ∈ capture.visited, dag.Complete capture id
  sinks : ∀ sink ∈ dag.sinks, sink ∈ capture.visited

theorem capture_spec : ∃ capture, dag.capture = .ok capture ∧ dag.Captured capture := by
  have along (rest : List Nat) (within : ∀ sink ∈ rest, sink ∈ dag.sinks) (capture : Capture ω) (sound : dag.Sound capture)
      (complete : ∀ id ∈ capture.visited, dag.Complete capture id) :
      ∃ after, rest.foldlM (fun capture sink => dag.visit (sink + 1) capture sink) capture = .ok after ∧ dag.Sound after ∧
        Grows capture after ∧ (∀ id ∈ after.visited, dag.Complete after id) ∧ ∀ sink ∈ rest, sink ∈ after.visited := by
    induction rest generalizing capture with
    | nil => exact ⟨capture,rfl,sound,Grows.refl capture,complete,by simp⟩
    | cons sink rest ih =>
      obtain ⟨own,within⟩ := forall_mem_cons.mp within
      obtain ⟨stream,found,-⟩ := dag.terminal sink own
      obtain ⟨visited,done,sound₁,grows₁,reached,complete₁⟩ := dag.visit_spec (sink + 1) sink (Nat.lt_succ_self _) capture sound
        ⟨stream,found⟩ (.inl own) [] (by simp) (fun other listed _ => complete other listed)
      obtain ⟨after,finished,sound₂,grows₂,complete₂,all⟩ := ih within visited sound₁ (fun other listed => complete₁ other listed (by simp))
      refine ⟨after,?_,sound₂,Grows.trans _ _ _ grows₁ grows₂,complete₂,forall_mem_cons.mpr ⟨grows₂.visited _ reached,all⟩⟩
      rw [foldlM_cons,ok_bind done]
      exact finished
  obtain ⟨after,done,sound,-,complete,all⟩ := along dag.sinks (fun _ own => own) ⟨⟨dag.jobName,∅,[]⟩,[]⟩
    ⟨rfl,fun id => rfl,by simp,by simp,by simp,by simp⟩ (by simp)
  exact ⟨after,done,sound,complete,all⟩

def IsInput (edge : EdgeSpec) : Prop := ∃ parent stream, dag.streams[edge.source]? = some parent ∧
  dag.streams[edge.target]? = some stream ∧ edge.source ∈ stream.inputs ∧ edge.partitioner = partitionerOf parent stream

structure FromSinks (needed : List Nat) (graph : LogicalGraph ω) : Prop where
  sinks : ∀ sink ∈ dag.sinks, sink ∈ needed
  job : graph.jobName = dag.jobName
  vertices : ∀ id, graph.vertices.get? id = if id ∈ needed then dag.streams[id]?.map (vertexSpec id) else none
  edges : ∀ edge, edge ∈ graph.edges ↔ edge.target ∈ needed ∧ dag.IsInput edge
  known : ∀ id ∈ needed, ∃ stream, dag.streams[id]? = some stream
  closed : ∀ id ∈ needed, ∀ stream, dag.streams[id]? = some stream → ∀ input ∈ stream.inputs, input ∈ needed
  used : ∀ id ∈ needed, id ∈ dag.sinks ∨ ∃ user ∈ needed, ∃ stream, dag.streams[user]? = some stream ∧ id ∈ stream.inputs

omit [DecidableEq ω] in
theorem Captured.edges (capture : Capture ω) (captured : dag.Captured capture) (edge : EdgeSpec) :
    edge ∈ capture.builder.edges ↔ edge.target ∈ capture.visited ∧ dag.IsInput edge := by
  constructor
  · exact fun own => (captured.sound.edges edge own).2
  · rintro ⟨inside,parent,stream,found,found',own,partitioner⟩
    have listed := (captured.complete edge.target inside stream found' edge.source own).2 parent found
    rw [← partitioner] at listed
    exact listed

theorem ordered_range (edges : List EdgeSpec) (bound : Nat) (smaller : ∀ edge ∈ edges, edge.source < edge.target) :
    Ordered (edges.map EdgeSpec.pair) (List.range bound) := by
  intro before vertex after split pair own head
  obtain ⟨edge,listed,rfl⟩ := List.mem_map.mp own
  have position : before = List.range vertex := by
    have length := congrArg List.length split
    rw [length_range,length_append,length_cons] at length
    have here : (List.range bound)[before.length]? = some vertex := by
      rw [split,getElem?_append_right (Nat.le_refl _),Nat.sub_self]
      rfl
    have same : before.length = vertex := by
      rw [getElem?_range (by omega)] at here
      exact some.inj here
    have first := congrArg (List.take before.length) split
    rw [take_left,take_range,Nat.min_eq_left (by omega),same] at first
    exact first.symm
  rw [position,mem_range]
  exact Nat.lt_of_lt_of_eq (smaller edge listed) head

omit [DecidableEq ω] in
/-- A graph of some of the streams, in which a stream is fed where it has inputs. -/
theorem wellFormed_of (vertices : Dict Nat (VertexSpec ω)) (edges : List EdgeSpec) (kept : Nat → Prop) [DecidablePred kept]
    (stored : ∀ id, vertices.get? id = if kept id then dag.streams[id]?.map (vertexSpec id) else none)
    (known : ∀ id, kept id → ∃ stream, dag.streams[id]? = some stream) (distinct : (edges.map EdgeSpec.pair).Nodup)
    (ends : ∀ edge ∈ edges, kept edge.source ∧ kept edge.target) (smaller : ∀ edge ∈ edges, edge.source < edge.target)
    (fed : ∀ id, kept id → (dag.inputs id = [] ↔ ∀ edge ∈ edges, edge.target ≠ id)) : WellFormed vertices edges := by
  have vertex (id : Nat) (spec : VertexSpec ω) (found : vertices.get? id = some spec) :
      kept id ∧ ∃ stream, dag.streams[id]? = some stream ∧ spec = vertexSpec id stream := by
    rw [stored] at found
    split at found
    next inside =>
      obtain ⟨stream,here,same⟩ := map_eq_some_iff.mp found
      exact ⟨inside,stream,here,same.symm⟩
    next => contradiction
  have keys (id : Nat) : id ∈ vertices.keys ↔ kept id := by
    rw [Dict.mem_keys]
    refine ⟨fun ⟨spec,found⟩ => (vertex id spec found).1,fun inside => ?_⟩
    obtain ⟨stream,here⟩ := known id inside
    exact ⟨_,by rw [stored,if_pos inside,here]; rfl⟩
  refine ⟨fun id spec found => ?_,fun id spec found => ?_,distinct,fun edge own => ?_,fun id => ?_,
    List.range dag.streams.length,fun id listed => ?_,ordered_range _ _ smaller⟩
  · obtain ⟨-,stream,-,rfl⟩ := vertex id spec found
    rfl
  · obtain ⟨-,stream,here,rfl⟩ := vertex id spec found
    exact (dag.source id stream here).1
  · rw [keys,keys]
    exact ends edge own
  · rw [keys]
    have root (stream : Stream ω) (here : dag.streams[id]? = some stream) :
        OperatorRecipe.source stream.operator = true ↔ dag.inputs id = [] := by
      obtain ⟨agrees,none⟩ := dag.source id stream here
      unfold inputs
      rw [← agrees,decide_eq_true_iff,none,here]
      rfl
    constructor
    · rintro ⟨spec,found,source⟩
      obtain ⟨inside,stream,here,rfl⟩ := vertex id spec found
      exact ⟨inside,(fed id inside).mp ((root stream here).mp source)⟩
    · rintro ⟨inside,none⟩
      obtain ⟨stream,here⟩ := known id inside
      exact ⟨vertexSpec id stream,by rw [stored,if_pos inside,here]; rfl,(root stream here).mpr ((fed id inside).mpr none)⟩
  · obtain ⟨stream,here⟩ := known id ((keys id).mp listed)
    exact mem_range.mpr (List.getElem?_eq_some_iff.mp here).1

theorem fromSinks_ok : ∃ needed graph, dag.fromSinks = .ok graph ∧ dag.FromSinks needed graph := by
  obtain ⟨capture,done,captured⟩ := dag.capture_spec
  have sound := captured.sound
  have good : WellFormed capture.builder.vertices capture.builder.edges := by
    apply dag.wellFormed_of _ _ (· ∈ capture.visited) sound.vertices sound.known sound.distinct
    · exact fun edge own => ⟨(sound.edges edge own).1,(sound.edges edge own).2.1⟩
    · intro edge own
      obtain ⟨-,-,parent,stream,-,found,input,-⟩ := sound.edges edge own
      exact dag.earlier edge.target stream found edge.source input
    · intro id inside
      obtain ⟨stream,here⟩ := sound.known id inside
      unfold inputs
      rw [here]
      constructor
      · intro empty edge own same
        obtain ⟨-,-,parent,stream',-,found',input,-⟩ := sound.edges edge own
        rw [same] at found'
        cases here.symm.trans found'
        exact ne_nil_of_mem input empty
      · refine fun none => eq_nil_iff_forall_not_mem.mpr (fun input own => ?_)
        obtain ⟨reached,edge⟩ := captured.complete id inside stream here input own
        obtain ⟨parent,there⟩ := sound.known input reached
        exact none _ (edge parent there) rfl
  obtain ⟨graph,built,job,vertices,permuted⟩ := capture.builder.build_ok (by rw [sound.job]; exact dag.named) good
  refine ⟨capture.visited,graph,(ok_bind done).trans built,captured.sinks,job.trans sound.job,
    fun id => (vertices id).trans (sound.vertices id),fun edge => ?_,sound.known,fun id inside stream here input own => ?_,sound.used⟩
  · rw [permuted.mem_iff,captured.edges]
  · exact (captured.complete id inside stream here input own).1

end spec
end StreamDag
end Klein.Graph
