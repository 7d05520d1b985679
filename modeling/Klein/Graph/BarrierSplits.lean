import Klein.Graph.ExecutionGraph

/-! The fan-in of barriers. What one job vertex receives of a source is counted over
its channels after all of their tails have been counted, so the table holds for
every subtask how many of its channels carry the barriers of the source. -/
namespace Klein.Graph
open Fallible List

section checks
variable (jobVertices : Dict Nat ExecutionJobVertex)

theorem checkKeys_ok (items : List (Nat × ExecutionJobVertex)) (ok : checkKeys items = .ok ()) :
    ∀ item ∈ items, item.2.id = item.1 := by
  induction items with
  | nil => simp
  | cons item rest ih =>
    unfold checkKeys at ok
    split at ok
    next => contradiction
    next same => exact forall_mem_cons.mpr ⟨not_not.mp same,ih ok⟩

end checks

namespace ExecutionGraph
variable (graph : ExecutionGraph)

theorem checked : (∀ key vertex, graph.jobVertices.get? key = some vertex → vertex.id = key) ∧
    (pairsOf graph.jobEdges).Nodup ∧
    (∀ edge ∈ graph.jobEdges, edge.source ∈ graph.jobVertices.keys ∧ edge.target ∈ graph.jobVertices.keys) ∧
    ∀ key, key ∈ graph.sources ↔ key ∈ graph.jobVertices.keys ∧ ∀ edge ∈ graph.jobEdges, edge.target ≠ key := by
  obtain ⟨_,keys,valid⟩ := bind_ok graph.valid
  obtain ⟨_,edges,roots⟩ := bind_ok valid
  obtain ⟨distinct,-,ends⟩ := (checkPairs_iff _ _ _ _ _).mp edges
  refine ⟨fun key vertex found => checkKeys_ok _ keys (key,vertex) ((Dict.get?_eq_some _ _ _).mp found),distinct,?_,fun key => ?_⟩
  · exact fun edge own => ends (edge.source,edge.target) (mem_map_of_mem own)
  · refine ((checkRoots_iff _ _ _ _).mp roots key).trans (and_congr_right (fun _ => ?_))
    unfold pairsOf
    rw [forall_mem_map]

theorem order_spec : graph.order.Nodup ∧ (∀ key, key ∈ graph.order ↔ key ∈ graph.jobVertices.keys) ∧
    Ordered (pairsOf graph.jobEdges) graph.order := by
  obtain ⟨-,distinct,ends,-⟩ := graph.checked
  have inside : ∀ edge ∈ pairsOf graph.jobEdges, edge.2 ∈ graph.jobVertices.keys := by
    intro pair listed
    obtain ⟨edge,own,rfl⟩ := mem_map.mp listed
    exact (ends edge own).2
  have ordered := graph.ordered
  unfold topologicalJobVertices at ordered
  obtain ⟨order,done,apart,within,sorted,-⟩ := topologicalOrder_spec enqueue graph.jobVertices.keys _ pushes_enqueue
    graph.jobVertices.distinct distinct inside
  rw [done] at ordered
  dsimp only at ordered
  split at ordered
  next => contradiction
  next complete =>
    obtain rfl := Except.ok.inj ordered
    exact ⟨apart,fun key => ⟨within key,mem_of_complete enqueue _ _ pushes_enqueue graph.jobVertices.distinct distinct inside _ done
      (not_not.mp complete) key⟩,sorted⟩

theorem mem_subtasks (key : Nat) (vertex : ExecutionVertexId) : vertex ∈ graph.subtasks key ↔
    vertex.jobVertexId = key ∧ ∃ jobVertex, graph.jobVertices.get? key = some jobVertex ∧ vertex.index < jobVertex.concurrency := by
  unfold subtasks
  cases found : graph.jobVertices.get? key with
  | none => simp
  | some jobVertex =>
    have own := graph.checked.1 key jobVertex found
    simp only [Option.map_some,Option.getD_some,ExecutionJobVertex.executionVertices,mem_map,mem_range,own,
      Option.some.injEq,exists_eq_left']
    constructor
    · rintro ⟨index,small,rfl⟩
      exact ⟨rfl,small⟩
    · rintro ⟨rfl,small⟩
      exact ⟨vertex.index,small,rfl⟩

def Channel (tail head : ExecutionVertexId) : Prop := (tail,head) ∈ graph.executionEdges

def Reaches : ExecutionVertexId → ExecutionVertexId → Prop := Relation.ReflTransGen graph.Channel

theorem channel_ends (edge : ExecutionJobEdge) (own : edge ∈ graph.jobEdges) (tail head : ExecutionVertexId)
    (listed : (tail,head) ∈ edge.executionEdges) : tail ∈ graph.subtasks edge.source ∧ head ∈ graph.subtasks edge.target := by
  obtain ⟨source,target,found,found',made⟩ := graph.expanded edge own
  obtain ⟨joins,-,-,-,spec⟩ := make_ok source target edge.partitioner edge made
  obtain ⟨sourceIndex,small,indices,chosen,targetIndex,picked,same⟩ := (spec _).mp listed
  obtain ⟨_,chosen',-,-,bounded⟩ := targetIndices_ok _ _ _ joins sourceIndex small
  cases chosen.symm.trans chosen'
  obtain ⟨rfl,rfl⟩ := Prod.mk.inj same
  exact ⟨(graph.mem_subtasks _ _).mpr ⟨graph.checked.1 _ _ found,source,found,small⟩,
    (graph.mem_subtasks _ _).mpr ⟨graph.checked.1 _ _ found',target,found',bounded targetIndex picked⟩⟩

theorem Channel.ends (tail head : ExecutionVertexId) (channel : graph.Channel tail head) :
    ∃ edge ∈ graph.jobEdges, tail ∈ graph.subtasks edge.source ∧ head ∈ graph.subtasks edge.target := by
  obtain ⟨edge,own,listed⟩ := mem_flatMap.mp channel
  exact ⟨edge,own,graph.channel_ends edge own tail head listed⟩

theorem covered (key : Nat) (vertex : ExecutionVertexId) (known : vertex ∈ graph.subtasks key) (inner : key ∉ graph.sources) :
    ∃ tail, graph.Channel tail vertex := by
  obtain ⟨own,jobVertex,found,small⟩ := (graph.mem_subtasks key vertex).mp known
  obtain ⟨ids,-,-,roots⟩ := graph.checked
  obtain ⟨edge,listed,into⟩ : ∃ edge ∈ graph.jobEdges, edge.target = key := by
    by_contra none
    refine inner ((roots key).mpr ⟨(graph.jobVertices.mem_keys key).mpr ⟨jobVertex,found⟩,fun edge listed same => ?_⟩)
    exact none ⟨edge,listed,same⟩
  obtain ⟨source,target,_,found',made⟩ := graph.expanded edge listed
  rw [into] at found'
  cases found.symm.trans found'
  obtain ⟨joins,-,-,-,spec⟩ := make_ok source jobVertex edge.partitioner edge made
  obtain ⟨sourceIndex,within,indices,chosen,picked⟩ := targetIndices_cover _ _ _ joins vertex.index small
  refine ⟨⟨source.id,sourceIndex⟩,mem_flatMap.mpr ⟨edge,listed,(spec _).mpr ⟨sourceIndex,within,indices,chosen,
    vertex.index,picked,?_⟩⟩⟩
  rw [ids key jobVertex found,← own]

theorem source_root (tail head : ExecutionVertexId) (channel : graph.Channel tail head) : head.jobVertexId ∉ graph.sources := by
  obtain ⟨edge,own,-,into⟩ := channel.ends graph tail head
  intro source
  exact (((graph.checked.2.2.2 _).mp source).2 edge own) (((graph.mem_subtasks _ _).mp into).1).symm

open Classical in
noncomputable def fanIn (vertex source : ExecutionVertexId) : Nat :=
  graph.executionEdges.countP (fun channel => channel.2 = vertex ∧ graph.Reaches source channel.1)

open Classical in
theorem fanIn_pos (vertex source : ExecutionVertexId) : 0 < graph.fanIn vertex source ↔
    ∃ tail, graph.Channel tail vertex ∧ graph.Reaches source tail := by
  unfold fanIn
  rw [countP_pos_iff]
  constructor
  · rintro ⟨⟨tail,head⟩,listed,holds⟩
    obtain ⟨rfl,reaches⟩ := of_decide_eq_true holds
    exact ⟨tail,listed,reaches⟩
  · rintro ⟨tail,channel,reaches⟩
    exact ⟨(tail,vertex),channel,decide_eq_true ⟨rfl,reaches⟩⟩

noncomputable def expected (vertex source : ExecutionVertexId) : Option Nat :=
  if vertex = source then some 1
  else if graph.fanIn vertex source = 0 then none else some (graph.fanIn vertex source)

theorem expected_isSome (vertex source : ExecutionVertexId) :
    (graph.expected vertex source).isSome = true ↔ graph.Reaches source vertex := by
  unfold expected
  split
  next same =>
    subst same
    exact iff_of_true rfl Relation.ReflTransGen.refl
  next different =>
    have last : graph.Reaches source vertex ↔ ∃ tail, graph.Channel tail vertex ∧ graph.Reaches source tail := by
      refine (Relation.ReflTransGen.cases_tail_iff _ _ _).trans ⟨fun reaches => ?_,fun ⟨tail,channel,before⟩ => ?_⟩
      · obtain ⟨tail,before,channel⟩ := reaches.resolve_left different
        exact ⟨tail,channel,before⟩
      · exact .inr ⟨tail,before,channel⟩
    rw [last,← fanIn_pos]
    split
    next none => simp [none]
    next some => simpa using Nat.pos_of_ne_zero some

/-! The table, entry by entry. -/

def lookup (alignments : Alignments) (vertex source : ExecutionVertexId) : Option Nat :=
  (alignments.get? vertex).bind (fun counts => counts.get? source)

section table
variable (job : Nat)

theorem count_foldl (sources : List ExecutionVertexId) (distinct : sources.Nodup) (counts : Dict ExecutionVertexId Nat)
    (source : ExecutionVertexId) :
    (sources.foldl (fun counts source => counts.set source ((counts.get? source).getD 0 + 1)) counts).get? source =
      if source ∈ sources then some ((counts.get? source).getD 0 + 1) else counts.get? source := by
  induction sources generalizing counts with
  | nil => simp
  | cons first rest ih =>
    obtain ⟨absent,distinct⟩ := nodup_cons.mp distinct
    rw [foldl_cons,ih distinct,Dict.get?_set]
    by_cases same : source = first
    · subst same
      simp [absent]
    · simp [same]

theorem lookup_propagateEdge (alignments : Alignments) (channel : ExecutionVertexId × ExecutionVertexId)
    (vertex source : ExecutionVertexId) : lookup (propagateEdge job alignments channel) vertex source =
      if vertex = channel.2 ∧ source.jobVertexId = job ∧ (lookup alignments channel.1 source).isSome then
        some ((lookup alignments vertex source).getD 0 + 1)
      else lookup alignments vertex source := by
  unfold propagateEdge lookup
  dsimp only
  rw [Dict.get?_set]
  by_cases same : vertex = channel.2
  · subst same
    have distinct : (((alignments.get? channel.1).getD ∅).keys.filter (fun sourceId => sourceId.jobVertexId = job)).Nodup :=
      ((alignments.get? channel.1).getD ∅).distinct.filter _
    rw [if_pos rfl,Option.bind_some,count_foldl _ distinct]
    have known : source ∈ ((alignments.get? channel.1).getD ∅).keys ↔
        ((alignments.get? channel.1).bind (fun counts => counts.get? source)).isSome = true := by
      rw [Dict.mem_keys,← Option.isSome_iff_exists]
      cases alignments.get? channel.1 <;> simp
    have target : ((alignments.get? channel.2).getD ∅).get? source =
        (alignments.get? channel.2).bind (fun counts => counts.get? source) := by
      cases alignments.get? channel.2 <;> simp
    rw [target]
    simp only [mem_filter,known,decide_eq_true_eq,true_and,and_comm]
  · rw [if_neg same,if_neg (fun both => same both.1)]

theorem lookup_foldl (channels : List (ExecutionVertexId × ExecutionVertexId)) (current : Nat)
    (heads : ∀ channel ∈ channels, channel.2.jobVertexId = current) (tails : ∀ channel ∈ channels, channel.1.jobVertexId ≠ current)
    (alignments : Alignments) (vertex source : ExecutionVertexId) :
    lookup (channels.foldl (propagateEdge job) alignments) vertex source =
      if source.jobVertexId = job ∧ 0 < channels.countP (fun channel => channel.2 = vertex ∧ (lookup alignments channel.1 source).isSome) then
        some ((lookup alignments vertex source).getD 0 +
          channels.countP (fun channel => channel.2 = vertex ∧ (lookup alignments channel.1 source).isSome))
      else lookup alignments vertex source := by
  induction channels generalizing alignments with
  | nil => simp
  | cons channel rest ih =>
    obtain ⟨head,heads⟩ := forall_mem_cons.mp heads
    obtain ⟨tail,tails⟩ := forall_mem_cons.mp tails
    have kept : rest.countP (fun other => other.2 = vertex ∧ (lookup (propagateEdge job alignments channel) other.1 source).isSome) =
        rest.countP (fun other => other.2 = vertex ∧ (lookup alignments other.1 source).isSome) := by
      refine countP_congr (fun other listed => ?_)
      have apart : other.1 ≠ channel.2 := fun same => tails other listed (same ▸ head)
      rw [lookup_propagateEdge,if_neg (fun both => apart both.1)]
    rw [foldl_cons,ih heads tails,kept,lookup_propagateEdge,countP_cons]
    generalize rest.countP (fun other => other.2 = vertex ∧ (lookup alignments other.1 source).isSome) = count
    by_cases here : vertex = channel.2 ∧ source.jobVertexId = job ∧ (lookup alignments channel.1 source).isSome = true
    · have counted : channel.2 = vertex ∧ (lookup alignments channel.1 source).isSome = true := ⟨here.1.symm,here.2.2⟩
      simp only [counted,and_self,decide_true,if_true,here.2.1,true_and,Option.getD_some,Nat.zero_lt_succ]
      by_cases more : 0 < count
      · rw [if_pos more]
        congr 1
        omega
      · rw [if_neg more]
        congr 1
        omega
    · simp only [if_neg here]
      by_cases own : source.jobVertexId = job
      · have skipped : ¬ (channel.2 = vertex ∧ (lookup alignments channel.1 source).isSome = true) :=
          fun both => here ⟨both.1.symm,own,both.2⟩
        simp only [skipped,decide_false,Bool.false_eq_true,if_false,Nat.add_zero]
      · simp only [own,false_and,if_false]

theorem countP_inputs (current : Nat) (vertex : ExecutionVertexId) (inside : vertex.jobVertexId = current)
    (test : ExecutionVertexId → Bool) :
    ((graph.inputJobEdges current).flatMap (fun edge => edge.executionEdges)).countP
        (fun channel => channel.2 = vertex ∧ test channel.1 = true) =
      graph.executionEdges.countP (fun channel => channel.2 = vertex ∧ test channel.1 = true) := by
  have ends := graph.channel_ends
  unfold inputJobEdges executionEdges
  generalize graph.jobEdges = edges at ends
  induction edges with
  | nil => rfl
  | cons edge rest ih =>
    have ih := ih (fun other own => ends other (mem_cons_of_mem _ own))
    rw [flatMap_cons,countP_append,← ih]
    by_cases own : edge.target = current
    · rw [filter_cons_of_pos (by simpa using own),flatMap_cons,countP_append]
    · rw [filter_cons_of_neg (by simpa using own)]
      have none : edge.executionEdges.countP (fun channel => channel.2 = vertex ∧ test channel.1 = true) = 0 := by
        refine countP_eq_zero.mpr (fun channel listed holds => own ?_)
        have head := (of_decide_eq_true holds).1
        have into := (ends edge mem_cons_self channel.1 channel.2 listed).2
        rw [head] at into
        exact ((graph.mem_subtasks _ _).mp into).1.symm.trans inside
      rw [none,Nat.zero_add]

theorem tail_before (tail head : ExecutionVertexId) (channel : graph.Channel tail head) (before after : List Nat)
    (split : graph.order = before ++ head.jobVertexId::after) : tail.jobVertexId ∈ before := by
  obtain ⟨edge,own,source,target⟩ := channel.ends graph tail head
  have listed := graph.order_spec.2.2 before _ after split (edge.source,edge.target) (mem_map_of_mem own)
    ((graph.mem_subtasks _ _).mp target).1.symm
  rw [((graph.mem_subtasks _ _).mp source).1]
  exact listed

theorem channel_induction {motive : ExecutionVertexId → Prop}
    (step : ∀ vertex, (∀ tail, graph.Channel tail vertex → motive tail) → motive vertex) (vertex : ExecutionVertexId) :
    motive vertex := by
  have along (before after : List Nat) (split : graph.order = before ++ after) :
      ∀ vertex : ExecutionVertexId, vertex.jobVertexId ∈ before → motive vertex := by
    induction before using List.reverseRecOn generalizing after with
    | nil => simp
    | append_singleton before last ih =>
      intro vertex listed
      have earlier := ih (last::after) (by rw [split,append_assoc]; rfl)
      rcases mem_append.mp listed with first | final
      · exact earlier vertex first
      · have own := mem_singleton.mp final
        refine step vertex (fun tail channel => earlier tail (graph.tail_before tail vertex channel before after ?_))
        rw [split,append_assoc,own]
        rfl
  refine step vertex (fun tail channel => along graph.order [] (append_nil _).symm tail ?_)
  obtain ⟨edge,own,source,-⟩ := channel.ends graph tail vertex
  rw [graph.order_spec.2.1,((graph.mem_subtasks _ _).mp source).1]
  exact (graph.checked.2.2.1 edge own).1

def Filled (accumulated visited : List Nat) (alignments : Alignments) : Prop := ∀ vertex source,
  ((∃ key ∈ accumulated, source ∈ graph.subtasks key) → lookup alignments vertex source = graph.expected vertex source) ∧
  ((∀ key ∈ accumulated, source ∉ graph.subtasks key) → lookup alignments vertex source =
    if source ∈ graph.subtasks job ∧ (vertex.jobVertexId = job ∨ vertex.jobVertexId ∈ visited) then graph.expected vertex source else none)

theorem fanIn_zero (vertex source : ExecutionVertexId) (none : ∀ tail, ¬ graph.Channel tail vertex) : graph.fanIn vertex source = 0 := by
  by_contra some
  obtain ⟨tail,channel,-⟩ := (graph.fanIn_pos vertex source).mp (Nat.pos_of_ne_zero some)
  exact none tail channel

variable (source : job ∈ graph.sources)

include source in
theorem Filled.visit (accumulated visited : List Nat) (current : Nat) (new : job ∉ accumulated) (other : current ≠ job)
    (unvisited : current ∉ visited)
    (earlier : ∀ tail head, graph.Channel tail head → head.jobVertexId = current → tail.jobVertexId = job ∨ tail.jobVertexId ∈ visited)
    (alignments : Alignments) (filled : graph.Filled job accumulated visited alignments) :
    graph.Filled job accumulated (visited ++ [current]) (graph.propagateSourceAlignment job alignments current) := by
  have inputs (channel : ExecutionVertexId × ExecutionVertexId)
      (listed : channel ∈ (graph.inputJobEdges current).flatMap (fun edge => edge.executionEdges)) :
      graph.Channel channel.1 channel.2 ∧ channel.2.jobVertexId = current := by
    obtain ⟨edge,inside,own⟩ := mem_flatMap.mp listed
    obtain ⟨known,into⟩ := mem_filter.mp inside
    have target := (graph.channel_ends edge known channel.1 channel.2 own).2
    exact ⟨mem_flatMap.mpr ⟨edge,known,own⟩,((graph.mem_subtasks _ _).mp target).1.trans (of_decide_eq_true into)⟩
  have tails (channel : ExecutionVertexId × ExecutionVertexId)
      (listed : channel ∈ (graph.inputJobEdges current).flatMap (fun edge => edge.executionEdges)) :
      channel.1.jobVertexId ≠ current := by
    obtain ⟨channel',head⟩ := inputs channel listed
    rintro same
    rcases earlier _ _ channel' head with root | before
    · exact other (same.symm.trans root)
    · exact unvisited (same ▸ before)
  have step (vertex source : ExecutionVertexId) := lookup_foldl job _ current (fun channel listed => (inputs channel listed).2) tails
    alignments vertex source
  change ∀ vertex source, _
  unfold propagateSourceAlignment
  refine fun vertex source => ⟨fun early => ?_,fun late => ?_⟩
  · obtain ⟨key,listed,own⟩ := early
    have apart : source.jobVertexId ≠ job := by
      rw [((graph.mem_subtasks _ _).mp own).1]
      rintro rfl
      exact new listed
    rw [step,if_neg (fun both => apart both.1)]
    exact (filled vertex source).1 ⟨key,listed,own⟩
  · by_cases own : source ∈ graph.subtasks job
    · have root := ((graph.mem_subtasks _ _).mp own).1
      by_cases here : vertex.jobVertexId = current
      · have counted : ((graph.inputJobEdges current).flatMap (fun edge => edge.executionEdges)).countP
            (fun channel => channel.2 = vertex ∧ (lookup alignments channel.1 source).isSome = true) = graph.fanIn vertex source := by
          rw [graph.countP_inputs current vertex here (fun tail => (lookup alignments tail source).isSome)]
          unfold fanIn
          refine countP_congr (fun channel listed => ?_)
          simp only [decide_eq_true_eq]
          refine and_congr_right (fun head => ?_)
          have before := earlier channel.1 channel.2 listed (head ▸ here)
          rw [(filled channel.1 source).2 late,if_pos ⟨own,before⟩]
          exact graph.expected_isSome channel.1 source
        have empty : lookup alignments vertex source = none := by
          rw [(filled vertex source).2 late,if_neg]
          rintro ⟨-,same | before⟩
          · exact other (here.symm.trans same)
          · exact unvisited (here ▸ before)
        have apart : vertex ≠ source := fun same => other (here.symm.trans (same ▸ root))
        rw [step,counted,empty,if_pos (show source ∈ graph.subtasks job ∧ _ from ⟨own,.inr (by simp [here])⟩),expected,if_neg apart]
        by_cases none : graph.fanIn vertex source = 0
        · rw [if_pos none,if_neg (fun both => by omega)]
        · rw [if_neg none,if_pos ⟨root,by omega⟩]
          simp
      · have nothing : ((graph.inputJobEdges current).flatMap (fun edge => edge.executionEdges)).countP
            (fun channel => channel.2 = vertex ∧ (lookup alignments channel.1 source).isSome = true) = 0 := by
          refine countP_eq_zero.mpr (fun channel listed holds => here ?_)
          rw [← (of_decide_eq_true holds).1]
          exact (inputs channel listed).2
        rw [step,nothing,if_neg (fun both => absurd both.2 (lt_irrefl 0)),(filled vertex source).2 late]
        simp [here]
    · have nothing : ((graph.inputJobEdges current).flatMap (fun edge => edge.executionEdges)).countP
          (fun channel => channel.2 = vertex ∧ (lookup alignments channel.1 source).isSome = true) = 0 := by
        refine countP_eq_zero.mpr (fun channel listed holds => ?_)
        have some := (of_decide_eq_true holds).2
        rw [(filled channel.1 source).2 late,if_neg (fun both => own both.1)] at some
        contradiction
      rw [step,nothing,if_neg (fun both => absurd both.2 (lt_irrefl 0)),(filled vertex source).2 late,
        if_neg (fun both => own both.1),if_neg (fun both => own both.1)]

theorem lookup_seed (subtasks : List ExecutionVertexId) (alignments : Alignments) (vertex source : ExecutionVertexId) :
    lookup (subtasks.foldl (fun alignments source => alignments.set source (Dict.empty.set source 1)) alignments) vertex source =
      if vertex ∈ subtasks then (if source = vertex then some 1 else none) else lookup alignments vertex source := by
  induction subtasks generalizing alignments with
  | nil => simp
  | cons first rest ih =>
    rw [foldl_cons,ih]
    by_cases later : vertex ∈ rest
    · simp [later]
    · rw [if_neg later]
      unfold lookup
      rw [Dict.get?_set]
      by_cases same : vertex = first
      · subst same
        rw [if_pos rfl,if_pos mem_cons_self,Option.bind_some,Dict.get?_set]
        rfl
      · rw [if_neg same,if_neg (by simp [same,later])]

def Accumulated (accumulated : List Nat) (alignments : Alignments) : Prop := ∀ vertex source,
  ((∃ key ∈ accumulated, source ∈ graph.subtasks key) → lookup alignments vertex source = graph.expected vertex source) ∧
  ((∀ key ∈ accumulated, source ∉ graph.subtasks key) → lookup alignments vertex source = none)

include source in
theorem root_fanIn (vertex other : ExecutionVertexId) (own : vertex.jobVertexId = job) : graph.fanIn vertex other = 0 :=
  graph.fanIn_zero vertex other (fun tail channel => graph.source_root tail vertex channel (own ▸ source))

include source in
theorem Accumulated.seed (accumulated : List Nat) (new : job ∉ accumulated) (alignments : Alignments)
    (filled : graph.Accumulated accumulated alignments) :
    graph.Filled job accumulated []
      ((graph.subtasks job).foldl (fun alignments source => alignments.set source (Dict.empty.set source 1)) alignments) := by
  refine fun vertex other => ⟨fun early => ?_,fun late => ?_⟩
  · rw [lookup_seed]
    split
    next root =>
      obtain ⟨key,listed,own⟩ := early
      have apart : vertex ≠ other := by
        rintro rfl
        rw [((graph.mem_subtasks _ _).mp root).1.symm.trans ((graph.mem_subtasks _ _).mp own).1] at new
        exact new listed
      rw [if_neg apart.symm,expected,if_neg apart,graph.root_fanIn job source vertex other ((graph.mem_subtasks _ _).mp root).1,
        if_pos rfl]
    next => exact (filled vertex other).1 early
  · rw [lookup_seed]
    by_cases root : vertex ∈ graph.subtasks job
    · have own := ((graph.mem_subtasks _ _).mp root).1
      rw [if_pos root]
      by_cases same : other = vertex
      · subst same
        rw [if_pos rfl,if_pos ⟨root,.inl own⟩,expected,if_pos rfl]
      · rw [if_neg same,expected,if_neg (Ne.symm same),graph.root_fanIn job source vertex other own,if_pos rfl,ite_self]
    · rw [if_neg root,(filled vertex other).2 late]
      split
      next both =>
        have own := both.2.resolve_right (by simp)
        have apart : vertex ≠ other := by
          rintro rfl
          exact root both.1
        rw [expected,if_neg apart,graph.root_fanIn job source vertex other own,if_pos rfl]
      next => rfl

include source in
theorem Filled.loop (accumulated : List Nat) (new : job ∉ accumulated) (rest visited : List Nat)
    (split : graph.order.filter (fun current => current ≠ job) = visited ++ rest) (alignments : Alignments)
    (filled : graph.Filled job accumulated visited alignments) :
    graph.Filled job accumulated (graph.order.filter (fun current => current ≠ job))
      (rest.foldl (graph.propagateSourceAlignment job) alignments) := by
  induction rest generalizing visited alignments with
  | nil =>
    rw [append_nil] at split
    exact split ▸ filled
  | cons current rest ih =>
    have listed : current ∈ graph.order.filter (fun current => current ≠ job) := split ▸ by simp
    obtain ⟨inside,other⟩ := mem_filter.mp listed
    have apart := (graph.order_spec.1.filter (fun current => current ≠ job))
    rw [split] at apart
    have unvisited : current ∉ visited := fun early => (nodup_append.mp apart).2.2 current early current mem_cons_self rfl
    refine ih (visited ++ [current]) (by rw [split,append_assoc]; rfl) _ ?_
    refine filled.visit graph job source accumulated visited current new (by simpa using other) unvisited (fun tail head channel own => ?_)
      alignments
    -- the tail comes before the job vertex in the order
    obtain ⟨before,after,whole⟩ := append_of_mem inside
    have earlier := graph.tail_before tail head channel before after (own ▸ whole)
    by_cases root : tail.jobVertexId = job
    · exact .inl root
    · refine .inr ?_
      have kept : tail.jobVertexId ∈ before.filter (fun current => current ≠ job) := mem_filter.mpr ⟨earlier,by simpa using root⟩
      have cut : before.filter (fun current => current ≠ job) = visited := by
        have once := (graph.order_spec.1.filter (fun current => current ≠ job))
        rw [whole,filter_append,filter_cons_of_pos (by exact other)] at split once
        obtain ⟨-,within,separate⟩ := nodup_append.mp once
        exact ((append_cons_inj_of_notMem (fun early => separate current early current mem_cons_self rfl)
          (nodup_cons.mp within).1).mp split).1
      exact cut ▸ kept

theorem expected_outside (vertex other : ExecutionVertexId) (root : other ∈ graph.subtasks job)
    (outside : vertex.jobVertexId ∉ graph.jobVertices.keys) : graph.expected vertex other = none := by
  have apart : vertex ≠ other := by
    rintro rfl
    obtain ⟨own,jobVertex,found,-⟩ := (graph.mem_subtasks _ _).mp root
    exact outside (own ▸ (graph.jobVertices.mem_keys job).mpr ⟨jobVertex,found⟩)
  have none : graph.fanIn vertex other = 0 := graph.fanIn_zero vertex other (fun tail channel => by
    obtain ⟨edge,own,-,target⟩ := channel.ends graph tail vertex
    exact outside (((graph.mem_subtasks _ _).mp target).1 ▸ (graph.checked.2.2.1 edge own).2))
  rw [expected,if_neg apart,if_pos none]

include source in
theorem Accumulated.accumulate (accumulated : List Nat) (new : job ∉ accumulated) (alignments : Alignments)
    (filled : graph.Accumulated accumulated alignments) :
    graph.Accumulated (accumulated ++ [job]) (graph.accumulateBarrierSplits alignments job) := by
  have all := Filled.loop graph job source accumulated new (graph.order.filter (fun current => current ≠ job)) [] rfl _
    (filled.seed graph job source accumulated new alignments)
  have known : job ∈ graph.order := (graph.order_spec.2.1 job).mpr ((graph.checked.2.2.2 job).mp source).1
  refine fun vertex other => ⟨fun early => ?_,fun late => ?_⟩
  · obtain ⟨key,listed,own⟩ := early
    by_cases before : ∃ key ∈ accumulated, other ∈ graph.subtasks key
    · exact (all vertex other).1 before
    · have absent : ∀ key ∈ accumulated, other ∉ graph.subtasks key := fun key listed own => before ⟨key,listed,own⟩
      rcases mem_append.mp listed with first | last
      · exact absurd own (absent key first)
      · obtain rfl := mem_singleton.mp last
        refine ((all vertex other).2 absent).trans ?_
        split
        next => rfl
        next neither =>
          refine (graph.expected_outside key vertex other own (fun inside => neither ⟨own,?_⟩)).symm
          by_cases root : vertex.jobVertexId = key
          · exact .inl root
          · exact .inr (mem_filter.mpr ⟨(graph.order_spec.2.1 _).mpr inside,by simpa using root⟩)
  · refine ((all vertex other).2 (fun key listed => late key (mem_append_left _ listed))).trans (if_neg (fun both => ?_))
    exact late job (by simp) both.1

end table

theorem accumulated_all (rest accumulated : List Nat) (split : graph.sources = accumulated ++ rest) (alignments : Alignments)
    (filled : graph.Accumulated accumulated alignments) :
    graph.Accumulated graph.sources (rest.foldl graph.accumulateBarrierSplits alignments) := by
  induction rest generalizing accumulated alignments with
  | nil =>
    rw [append_nil] at split
    exact split ▸ filled
  | cons job rest ih =>
    have distinct : graph.sources.Nodup := graph.jobVertices.distinct.sublist (filter_sublist.map Prod.fst)
    rw [split] at distinct
    have new : job ∉ accumulated := fun early => (nodup_append.mp distinct).2.2 job early job mem_cons_self rfl
    have source : job ∈ graph.sources := by simp [split]
    exact ih (accumulated ++ [job]) (by rw [split,append_assoc]; rfl) _
      (filled.accumulate graph job source accumulated new alignments)

theorem barrierSplits_lookup (vertex source : ExecutionVertexId) :
    (source ∈ graph.sourceExecutionVertices → lookup graph.barrierSplits vertex source = graph.expected vertex source) ∧
    (source ∉ graph.sourceExecutionVertices → lookup graph.barrierSplits vertex source = none) := by
  have all := graph.accumulated_all graph.sources [] rfl ∅ (fun vertex source =>
    ⟨fun ⟨key,absent,_⟩ => absurd absent (by simp),fun _ => rfl⟩) vertex source
  unfold sourceExecutionVertices
  rw [mem_flatMap]
  exact ⟨all.1,fun none => all.2 (fun key listed own => none ⟨key,listed,own⟩)⟩

section acknowledgements

theorem mem_sourceExecutionVertices (vertex : ExecutionVertexId) : vertex ∈ graph.sourceExecutionVertices ↔
    vertex.jobVertexId ∈ graph.sources ∧ vertex ∈ graph.subtasks vertex.jobVertexId := by
  unfold sourceExecutionVertices
  rw [mem_flatMap]
  constructor
  · rintro ⟨key,source,own⟩
    have same := ((graph.mem_subtasks _ _).mp own).1
    exact ⟨same ▸ source,same.symm ▸ own⟩
  · exact fun ⟨source,own⟩ => ⟨vertex.jobVertexId,source,own⟩

theorem reached (vertex : ExecutionVertexId) (known : vertex ∈ graph.subtasks vertex.jobVertexId) :
    ∃ source ∈ graph.sourceExecutionVertices, graph.Reaches source vertex := by
  induction vertex using graph.channel_induction with
  | step vertex ih =>
    by_cases source : vertex.jobVertexId ∈ graph.sources
    · exact ⟨vertex,(graph.mem_sourceExecutionVertices vertex).mpr ⟨source,known⟩,Relation.ReflTransGen.refl⟩
    · obtain ⟨tail,channel⟩ := graph.covered _ vertex known source
      obtain ⟨edge,-,inside,-⟩ := channel.ends graph tail vertex
      obtain ⟨source,root,reaches⟩ := ih tail channel (((graph.mem_subtasks _ _).mp inside).1 ▸ inside)
      exact ⟨source,root,reaches.tail channel⟩

theorem acknowledge_foldl (items : List (ExecutionVertexId × Nat)) (distinct : (items.map Prod.fst).Nodup)
    (acknowledgements : Dict ExecutionVertexId Nat) (source : ExecutionVertexId) :
    (items.foldl (fun acknowledgements item =>
      acknowledgements.set item.1 ((acknowledgements.get? item.1).getD 0 + (if item.2 = 0 then 0 else 1))) acknowledgements).get? source =
    match (items.find? (fun item => item.1 = source)).map Prod.snd with
    | none => acknowledgements.get? source
    | some count => some ((acknowledgements.get? source).getD 0 + (if count = 0 then 0 else 1)) := by
  induction items generalizing acknowledgements with
  | nil => rfl
  | cons item rest ih =>
    obtain ⟨absent,distinct⟩ := nodup_cons.mp distinct
    rw [foldl_cons,ih distinct]
    by_cases same : item.1 = source
    · have none : rest.find? (fun item => item.1 = source) = none := by
        refine find?_eq_none.mpr (fun other listed own => absent ?_)
        rw [same,← of_decide_eq_true own]
        exact mem_map_of_mem listed
      rw [none,find?_cons_of_pos (by simpa using same)]
      dsimp only [Option.map_none,Option.map_some]
      rw [Dict.get?_set,if_pos same.symm,same]
    · rw [find?_cons_of_neg (by simpa using same),Dict.get?_set,if_neg (Ne.symm same)]

open Classical in
theorem acknowledge_spec (acknowledgements : Dict ExecutionVertexId Nat) (sink : ExecutionVertexId)
    (known : sink ∈ graph.subtasks sink.jobVertexId) :
    ∃ next, graph.acknowledge acknowledgements sink = .ok next ∧ ∀ source, next.get? source =
      if source ∈ graph.sourceExecutionVertices ∧ graph.Reaches source sink then some ((acknowledgements.get? source).getD 0 + 1)
      else acknowledgements.get? source := by
  obtain ⟨root,listed,reaches⟩ := graph.reached sink known
  have own := (graph.barrierSplits_lookup sink root).1 listed
  cases found : graph.barrierSplits.get? sink with
  | none =>
    have some := (graph.expected_isSome sink root).mpr reaches
    rw [← own,lookup,found] at some
    contradiction
  | some counts =>
    refine ⟨_,by unfold acknowledge; rw [found],fun source => ?_⟩
    rw [acknowledge_foldl counts.entries counts.distinct]
    have entry : (counts.entries.find? (fun item => item.1 = source)).map Prod.snd = lookup graph.barrierSplits sink source := by
      rw [lookup,found]
      rfl
    rw [entry]
    by_cases listed : source ∈ graph.sourceExecutionVertices
    · rw [(graph.barrierSplits_lookup sink source).1 listed]
      have defined := graph.expected_isSome sink source
      cases count : graph.expected sink source with
      | none =>
        rw [count] at defined
        rw [if_neg (fun both => absurd (defined.mpr both.2) (by simp))]
      | some value =>
        rw [count] at defined
        have positive : value ≠ 0 := by
          unfold expected at count
          rintro rfl
          split at count
          next => exact absurd count (by simp)
          next =>
            split at count
            next => contradiction
            next some => exact some (Option.some.inj count)
        rw [if_pos ⟨listed,defined.mp rfl⟩]
        dsimp only
        rw [if_neg positive]
    · rw [(graph.barrierSplits_lookup sink source).2 listed,if_neg (fun both => listed both.1)]

open Classical in
theorem acknowledge_foldlM (sinks : List ExecutionVertexId) (known : ∀ sink ∈ sinks, sink ∈ graph.subtasks sink.jobVertexId)
    (before : ExecutionVertexId → Nat) (acknowledgements : Dict ExecutionVertexId Nat)
    (start : ∀ source, acknowledgements.get? source =
      if source ∈ graph.sourceExecutionVertices ∧ 0 < before source then some (before source) else none) :
    ∃ result, sinks.foldlM graph.acknowledge acknowledgements = .ok result ∧ ∀ source, result.get? source =
      if source ∈ graph.sourceExecutionVertices ∧ 0 < before source + sinks.countP (fun sink => graph.Reaches source sink) then
        some (before source + sinks.countP (fun sink => graph.Reaches source sink)) else none := by
  induction sinks generalizing before acknowledgements with
  | nil => exact ⟨acknowledgements,rfl,start⟩
  | cons sink rest ih =>
    obtain ⟨here,later⟩ := forall_mem_cons.mp known
    obtain ⟨next,done,counts⟩ := graph.acknowledge_spec acknowledgements sink here
    obtain ⟨result,finished,spec⟩ := ih later (fun source => before source + if graph.Reaches source sink then 1 else 0) next (by
      intro source
      rw [counts,start]
      by_cases listed : source ∈ graph.sourceExecutionVertices
      · by_cases reaches : graph.Reaches source sink
        · have positive : 0 < before source + 1 := Nat.succ_pos _
          simp only [listed,reaches,true_and,and_self,if_true,positive,Option.some.injEq]
          by_cases some : 0 < before source
          · rw [if_pos some]
            rfl
          · rw [if_neg some,Option.getD_none]
            omega
        · rw [if_neg (fun both => reaches both.2),if_neg reaches,Nat.add_zero]
      · rw [if_neg (fun both => listed both.1),if_neg (fun both => listed both.1),if_neg (fun both => listed both.1)])
    refine ⟨result,?_,fun source => ?_⟩
    · rw [foldlM_cons,ok_bind done]
      exact finished
    · have counted : before source + (sink::rest).countP (fun sink => graph.Reaches source sink) =
          before source + (if graph.Reaches source sink then 1 else 0) + rest.countP (fun sink => graph.Reaches source sink) := by
        rw [countP_cons]
        by_cases reaches : graph.Reaches source sink
        · simp [reaches]
          omega
        · simp [reaches]
      rw [spec,counted]

open Classical in
theorem coordinatorAckCounts_spec : ∃ acknowledgements, graph.coordinatorAckCounts = .ok acknowledgements ∧
    ∀ source, acknowledgements.get? source =
      if source ∈ graph.sourceExecutionVertices ∧ 0 < graph.sinkExecutionVertices.countP (fun sink => graph.Reaches source sink) then
        some (graph.sinkExecutionVertices.countP (fun sink => graph.Reaches source sink))
      else none := by
  obtain ⟨acknowledgements,done,spec⟩ := graph.acknowledge_foldlM graph.sinkExecutionVertices (by
    intro sink listed
    obtain ⟨key,-,own⟩ := mem_flatMap.mp listed
    exact ((graph.mem_subtasks _ _).mp own).1.symm ▸ own) (fun _ => 0) ∅ (fun source => by simp)
  refine ⟨acknowledgements,done,fun source => ?_⟩
  rw [spec]
  simp only [Nat.zero_add]

end acknowledgements

end ExecutionGraph
end Klein.Graph
