import Mathlib
import Klein.Graph.CheckpointDomains
import Klein.Runs

/-! Barriers on their way through the graph. A source subtask sends the barrier of an
epoch on all of its channels, every other subtask sends it once, when as many have
arrived as the table of fan-ins says. -/
namespace Klein.Graph.ExecutionGraph
open List
open Coordinator (CheckpointDomain)
variable (graph : ExecutionGraph)

structure Transit where
  channel : ExecutionVertexId × ExecutionVertexId
  source : ExecutionVertexId
  epoch : Nat
deriving DecidableEq

structure Sent where
  vertex : ExecutionVertexId
  source : ExecutionVertexId
  epoch : Nat
deriving DecidableEq

structure BarrierFlow where
  sent : List Sent
  flying : List Transit
  arrived : List Transit

def BarrierFlow.idle : BarrierFlow := ⟨[],[],[]⟩

def BarrierFlow.received (flow : BarrierFlow) (vertex source : ExecutionVertexId) (epoch : Nat) : Nat :=
  flow.arrived.countP (fun transit => transit.channel.2 = vertex ∧ transit.source = source ∧ transit.epoch = epoch)

def outgoing (sent : Sent) : List Transit :=
  (graph.executionEdges.filter (fun channel => channel.1 = sent.vertex)).map (fun channel => ⟨channel,sent.source,sent.epoch⟩)

def BarrierFlow.send (flow : BarrierFlow) (sent : Sent) : BarrierFlow where
  sent := sent::flow.sent
  flying := flow.flying ++ graph.outgoing sent
  arrived := flow.arrived

inductive BarrierLabel where
  | emit (source : ExecutionVertexId) (epoch : Nat)
  | deliver (transit : Transit)
  | forward (vertex source : ExecutionVertexId) (epoch : Nat)
deriving DecidableEq

def barrierStep (flow : BarrierFlow) : BarrierLabel → Option BarrierFlow
  | .emit source epoch =>
    if source ∈ graph.sourceExecutionVertices ∧ ⟨source,source,epoch⟩ ∉ flow.sent then some (flow.send graph ⟨source,source,epoch⟩)
    else none
  | .deliver transit =>
    if transit ∈ flow.flying then some ⟨flow.sent,flow.flying.erase transit,transit::flow.arrived⟩ else none
  | .forward vertex source epoch =>
    if vertex ≠ source ∧ lookup graph.barrierSplits vertex source = some (flow.received vertex source epoch) ∧
        ⟨vertex,source,epoch⟩ ∉ flow.sent then
      some (flow.send graph ⟨vertex,source,epoch⟩)
    else none

def BarrierLabel.Emits : BarrierLabel → Prop
  | .emit _ _ => True
  | _ => False

def Settled (flow : BarrierFlow) : Prop := ∀ label : BarrierLabel, ¬ label.Emits → graph.barrierStep flow label = none

structure Flowing (flow : BarrierFlow) : Prop where
  once : flow.sent.Nodup
  conserved : (flow.flying ++ flow.arrived).Perm (flow.sent.flatMap graph.outgoing)
  emitted : ∀ sent ∈ flow.sent, sent.source ∈ graph.sourceExecutionVertices ∧ ⟨sent.source,sent.source,sent.epoch⟩ ∈ flow.sent
  reaches : ∀ sent ∈ flow.sent, graph.Reaches sent.source sent.vertex

theorem Flowing.idle : graph.Flowing .idle := ⟨nodup_nil,List.Perm.refl _,by simp [BarrierFlow.idle],by simp [BarrierFlow.idle]⟩

theorem countP_outgoing (sent : List Sent) (once : sent.Nodup) (vertex source : ExecutionVertexId) (epoch : Nat) :
    (sent.flatMap graph.outgoing).countP (fun transit => transit.channel.2 = vertex ∧ transit.source = source ∧ transit.epoch = epoch) =
      graph.executionEdges.countP (fun channel => channel.2 = vertex ∧ (⟨channel.1,source,epoch⟩ : Sent) ∈ sent) := by
  induction sent with
  | nil => simp
  | cons first rest ih =>
    obtain ⟨new,once⟩ := nodup_cons.mp once
    have here : (graph.outgoing first).countP
        (fun transit => transit.channel.2 = vertex ∧ transit.source = source ∧ transit.epoch = epoch) =
        graph.executionEdges.countP (fun channel => channel.2 = vertex ∧ first = ⟨channel.1,source,epoch⟩) := by
      unfold outgoing
      rw [countP_map,countP_filter]
      refine countP_congr (fun channel _ => ?_)
      cases first
      simp only [Function.comp,Bool.and_eq_true,decide_eq_true_eq,Sent.mk.injEq]
      tauto
    rw [flatMap_cons,countP_append,ih once,here]
    clear ih here
    induction graph.executionEdges with
    | nil => rfl
    | cons channel others ih =>
      have either : decide (channel.2 = vertex ∧ (⟨channel.1,source,epoch⟩ : Sent) ∈ first::rest) =
          (decide (channel.2 = vertex ∧ first = ⟨channel.1,source,epoch⟩) ||
            decide (channel.2 = vertex ∧ (⟨channel.1,source,epoch⟩ : Sent) ∈ rest)) := by
        rw [Bool.eq_iff_iff]
        simp only [Bool.or_eq_true,decide_eq_true_eq,mem_cons]
        tauto
      have apart : ¬ (first = ⟨channel.1,source,epoch⟩ ∧ (⟨channel.1,source,epoch⟩ : Sent) ∈ rest) := by
        rintro ⟨rfl,again⟩
        exact new again
      rw [countP_cons,countP_cons,countP_cons,← ih,either]
      by_cases one : channel.2 = vertex ∧ first = ⟨channel.1,source,epoch⟩
      · have other : ¬ (channel.2 = vertex ∧ (⟨channel.1,source,epoch⟩ : Sent) ∈ rest) := fun both => apart ⟨one.2,both.2⟩
        rw [decide_eq_true one,decide_eq_false other,Bool.true_or,if_pos rfl,if_neg Bool.false_ne_true]
        omega
      · rw [decide_eq_false one,Bool.false_or,if_neg Bool.false_ne_true]
        omega

section steps

theorem Flowing.received_le (flow : BarrierFlow) (flowing : graph.Flowing flow) (vertex source : ExecutionVertexId) (epoch : Nat) :
    flow.received vertex source epoch ≤
      graph.executionEdges.countP (fun channel => channel.2 = vertex ∧ (⟨channel.1,source,epoch⟩ : Sent) ∈ flow.sent) := by
  rw [← graph.countP_outgoing flow.sent flowing.once,← flowing.conserved.countP_eq,countP_append]
  exact Nat.le_add_left _ _

open Classical in
section
variable (flow : BarrierFlow) (flowing : graph.Flowing flow) (vertex source : ExecutionVertexId) (epoch : Nat)
include flowing vertex source epoch

theorem Flowing.bounded :
    flow.received vertex source epoch ≤ graph.fanIn vertex source := by
  refine (flowing.received_le graph flow vertex source epoch).trans (countP_mono_left (fun channel _ holds => ?_))
  obtain ⟨head,sent⟩ := of_decide_eq_true holds
  exact decide_eq_true ⟨head,flowing.reaches _ sent⟩

theorem Flowing.send (root : source ∈ graph.sourceExecutionVertices) (path : graph.Reaches source vertex)
    (new : (⟨vertex,source,epoch⟩ : Sent) ∉ flow.sent)
    (begun : vertex = source ∨ (⟨source,source,epoch⟩ : Sent) ∈ flow.sent) :
    graph.Flowing (flow.send graph ⟨vertex,source,epoch⟩) where
  once := nodup_cons.mpr ⟨new,flowing.once⟩
  conserved := by
    have moved : (flow.flying ++ graph.outgoing ⟨vertex,source,epoch⟩ ++ flow.arrived).Perm
        (graph.outgoing ⟨vertex,source,epoch⟩ ++ (flow.flying ++ flow.arrived)) := by
      rw [← append_assoc]
      exact perm_append_comm.append_right _
    exact moved.trans (flowing.conserved.append_left _)
  emitted := by
    refine forall_mem_cons.mpr ⟨⟨root,?_⟩,fun sent listed => ?_⟩
    · rcases begun with rfl | before
      · exact mem_cons_self
      · exact mem_cons_of_mem _ before
    · exact ⟨(flowing.emitted sent listed).1,mem_cons_of_mem _ (flowing.emitted sent listed).2⟩
  reaches := forall_mem_cons.mpr ⟨path,flowing.reaches⟩

end

theorem Flowing.step (flow next : BarrierFlow) (label : BarrierLabel) (flowing : graph.Flowing flow)
    (taken : graph.barrierStep flow label = some next) : graph.Flowing next := by
  cases label with
  | emit source epoch =>
    obtain ⟨⟨root,new⟩,same⟩ := Option.ite_none_right_eq_some.mp taken
    obtain rfl := Option.some.inj same
    exact flowing.send graph flow source source epoch root Relation.ReflTransGen.refl new (.inl rfl)
  | deliver transit =>
    obtain ⟨listed,same⟩ := Option.ite_none_right_eq_some.mp taken
    obtain rfl := Option.some.inj same
    refine {flowing with conserved := List.Perm.trans ?_ flowing.conserved}
    exact perm_middle.trans (((perm_cons_erase listed).symm).append_right flow.arrived)
  | forward vertex source epoch =>
    obtain ⟨⟨apart,aligned,new⟩,same⟩ := Option.ite_none_right_eq_some.mp taken
    obtain rfl := Option.some.inj same
    have root : source ∈ graph.sourceExecutionVertices := by
      by_contra other
      rw [(graph.barrierSplits_lookup vertex source).2 other] at aligned
      contradiction
    have count := (graph.barrierSplits_lookup vertex source).1 root
    have path := (graph.expected_isSome vertex source).mp (by rw [← count,aligned]; rfl)
    -- at least one barrier has arrived, so the source has emitted the epoch
    have positive : 0 < flow.received vertex source epoch := by
      rw [count,expected,if_neg apart] at aligned
      split at aligned
      next => contradiction
      next some => exact Nat.lt_of_lt_of_eq (Nat.pos_of_ne_zero some) (Option.some.inj aligned)
    have sent := positive.trans_le (flowing.received_le graph flow vertex source epoch)
    obtain ⟨channel,-,holds⟩ := countP_pos_iff.mp sent
    have before := (flowing.emitted _ (of_decide_eq_true holds).2).2
    exact flowing.send graph flow vertex source epoch root path new (.inr before)

theorem Flowing.run (labels : List BarrierLabel) (flow : BarrierFlow) (ran : Runs.exec graph.barrierStep .idle labels = some flow) :
    graph.Flowing flow :=
  Runs.exec_invariant graph.barrierStep (fun _ _ => True) graph.Flowing
    (fun flow label next flowing _ taken => flowing.step graph flow next label taken) labels .idle flow (Flowing.idle graph)
    (Runs.Along.of_forall _ _ labels (fun _ _ _ => trivial) _) ran

end steps

section settled
variable (flow : BarrierFlow) (flowing : graph.Flowing flow) (settled : graph.Settled flow)

include flowing settled in
theorem Settled.received (vertex source : ExecutionVertexId) (epoch : Nat) : flow.received vertex source epoch =
    graph.executionEdges.countP (fun channel => channel.2 = vertex ∧ (⟨channel.1,source,epoch⟩ : Sent) ∈ flow.sent) := by
  have delivered : flow.flying = [] := by
    refine eq_nil_iff_forall_not_mem.mpr (fun transit listed => ?_)
    have stuck := settled (.deliver transit) id
    dsimp only [barrierStep] at stuck
    rw [if_pos listed] at stuck
    contradiction
  rw [← graph.countP_outgoing flow.sent flowing.once,← flowing.conserved.countP_eq,delivered]
  rfl

include flowing settled in
theorem Settled.forwarded (source : ExecutionVertexId) (epoch : Nat) (emitted : (⟨source,source,epoch⟩ : Sent) ∈ flow.sent)
    (vertex : ExecutionVertexId) : graph.Reaches source vertex → (⟨vertex,source,epoch⟩ : Sent) ∈ flow.sent := by
  induction vertex using graph.channel_induction with
  | step vertex ih =>
    intro path
    by_cases same : vertex = source
    · subst same
      exact emitted
    · have count : flow.received vertex source epoch = graph.fanIn vertex source := by
        rw [settled.received graph flow flowing]
        refine countP_congr (fun channel listed => ?_)
        simp only [decide_eq_true_eq]
        refine and_congr_right (fun head => ?_)
        exact ⟨flowing.reaches _,ih channel.1 (head ▸ listed)⟩
      have root := (flowing.emitted _ emitted).1
      have aligned := (graph.barrierSplits_lookup vertex source).1 root
      have some := (graph.expected_isSome vertex source).mpr path
      by_contra unsent
      have stuck := settled (.forward vertex source epoch) id
      unfold expected at aligned some
      rw [if_neg same] at aligned some
      split at some
      next => contradiction
      next positive =>
        rw [if_neg positive,← count] at aligned
        dsimp only [barrierStep] at stuck
        rw [if_pos ⟨same,aligned,unsent⟩] at stuck
        contradiction

include flowing settled in
theorem Settled.exact (source : ExecutionVertexId) (epoch : Nat) (emitted : (⟨source,source,epoch⟩ : Sent) ∈ flow.sent)
    (vertex : ExecutionVertexId) : flow.received vertex source epoch = graph.fanIn vertex source := by
  rw [settled.received graph flow flowing]
  refine countP_congr (fun channel listed => ?_)
  simp only [decide_eq_true_eq]
  refine and_congr_right (fun head => ?_)
  exact ⟨flowing.reaches _,settled.forwarded graph flow flowing source epoch emitted channel.1⟩

end settled

section progress

def BarrierFlow.emissions (flow : BarrierFlow) : List Sent := flow.sent.filter (fun sent => sent.vertex = sent.source)

def remaining (flow : BarrierFlow) : Nat :=
  (graph.executionVertices.length * flow.emissions.length - flow.sent.length) * (graph.executionEdges.length + 1) + flow.flying.length

theorem Flowing.sent_le (flow : BarrierFlow) (flowing : graph.Flowing flow) :
    flow.sent.length ≤ graph.executionVertices.length * flow.emissions.length := by
  have inside : flow.sent ⊆ graph.executionVertices.flatMap (fun vertex =>
      flow.emissions.map (fun sent => ⟨vertex,sent.source,sent.epoch⟩)) := by
    intro sent listed
    obtain ⟨root,begun⟩ := flowing.emitted sent listed
    have known : sent.vertex ∈ graph.executionVertices := by
      have path := flowing.reaches sent listed
      rcases Relation.ReflTransGen.cases_tail_iff _ _ _ |>.mp path with same | ⟨tail,-,channel⟩
      · rw [same,graph.mem_executionVertices]
        exact ((graph.mem_sourceExecutionVertices _).mp root).2
      · exact (graph.joined_known tail sent.vertex (.inl channel)).2
    refine mem_flatMap.mpr ⟨sent.vertex,known,mem_map.mpr ⟨_,mem_filter.mpr ⟨begun,by simp⟩,rfl⟩⟩
  have short := (flowing.once.subperm inside).length_le
  rw [length_flatMap] at short
  simpa using short

theorem Flowing.remaining_lt (flow next : BarrierFlow) (label : BarrierLabel) (flowing : graph.Flowing flow)
    (quiet : ¬ label.Emits) (taken : graph.barrierStep flow label = some next) : graph.remaining next < graph.remaining flow := by
  have bound := (flowing.step graph flow next label taken).sent_le graph next
  cases label with
  | emit => exact absurd trivial quiet
  | deliver transit =>
    obtain ⟨listed,same⟩ := Option.ite_none_right_eq_some.mp taken
    obtain rfl := Option.some.inj same
    have shorter := length_erase_of_mem listed
    have some := length_pos_of_mem listed
    unfold remaining BarrierFlow.emissions
    dsimp only
    omega
  | forward vertex source epoch =>
    obtain ⟨⟨apart,-,-⟩,same⟩ := Option.ite_none_right_eq_some.mp taken
    obtain rfl := Option.some.inj same
    have emissions : (flow.send graph ⟨vertex,source,epoch⟩).emissions = flow.emissions :=
      filter_cons_of_neg (by simpa using apart)
    have few : (graph.outgoing ⟨vertex,source,epoch⟩).length ≤ graph.executionEdges.length := by
      unfold outgoing
      rw [length_map]
      exact length_filter_le _ _
    unfold remaining
    rw [emissions] at bound ⊢
    dsimp only [BarrierFlow.send] at bound ⊢
    rw [length_cons] at bound ⊢
    rw [length_append]
    obtain ⟨room,left⟩ := Nat.exists_eq_add_of_le bound
    rw [left,show flow.sent.length + 1 + room - (flow.sent.length + 1) = room by omega,
      show flow.sent.length + 1 + room - flow.sent.length = room + 1 by omega,Nat.succ_mul]
    omega

theorem exists_settled (flow : BarrierFlow) (flowing : graph.Flowing flow) :
    ∃ labels settled, (∀ label ∈ labels, ¬ label.Emits) ∧ Runs.exec graph.barrierStep flow labels = some settled ∧
      graph.Settled settled := by
  induction size : graph.remaining flow using Nat.strong_induction_on generalizing flow with
  | _ size ih =>
    by_cases settled : graph.Settled flow
    · exact ⟨[],flow,by simp,rfl,settled⟩
    · unfold Settled at settled
      push Not at settled
      obtain ⟨label,quiet,enabled⟩ := settled
      obtain ⟨next,taken⟩ := Option.ne_none_iff_exists'.mp enabled
      have fewer := flowing.remaining_lt graph flow next label quiet taken
      obtain ⟨labels,final,all,ran,settled⟩ := ih _ (size ▸ fewer) next (flowing.step graph flow next label taken) rfl
      exact ⟨label::labels,final,forall_mem_cons.mpr ⟨quiet,all⟩,by rw [Runs.exec_cons,taken]; exact ran,settled⟩

end progress

theorem lookup_other (vertex source : ExecutionVertexId) (apart : vertex ≠ source) : lookup graph.barrierSplits vertex source =
    if source ∈ graph.sourceExecutionVertices ∧ 0 < graph.fanIn vertex source then some (graph.fanIn vertex source) else none := by
  by_cases root : source ∈ graph.sourceExecutionVertices
  · rw [(graph.barrierSplits_lookup vertex source).1 root,expected,if_neg apart]
    by_cases none : graph.fanIn vertex source = 0
    · rw [if_pos none,if_neg (fun both => absurd none (Nat.ne_of_gt both.2))]
    · rw [if_neg none,if_pos ⟨root,Nat.pos_of_ne_zero none⟩]
  · rw [(graph.barrierSplits_lookup vertex source).2 root,if_neg (fun both => root both.1)]

theorem lookup_getD (vertex source : ExecutionVertexId) (apart : vertex ≠ source) (root : source ∈ graph.sourceExecutionVertices) :
    (lookup graph.barrierSplits vertex source).getD 0 = graph.fanIn vertex source := by
  rw [graph.lookup_other vertex source apart]
  split
  next => rfl
  next none => exact (Nat.eq_zero_of_not_pos (fun positive => none ⟨root,positive⟩)).symm

theorem lookup_source (source : ExecutionVertexId) (root : source ∈ graph.sourceExecutionVertices) (other : ExecutionVertexId) :
    lookup graph.barrierSplits source other = if other = source then some 1 else none := by
  by_cases same : other = source
  · subst same
    rw [(graph.barrierSplits_lookup other other).1 root,expected,if_pos rfl,if_pos rfl]
  · have none := graph.root_fanIn source.jobVertexId ((graph.mem_sourceExecutionVertices source).mp root).1 source other rfl
    rw [graph.lookup_other source other (Ne.symm same),if_neg same,none,if_neg (fun both => absurd both.2 (lt_irrefl 0))]

theorem Flowing.unsent (flow : BarrierFlow) (flowing : graph.Flowing flow) (vertex source : ExecutionVertexId) (epoch : Nat)
    (outside : source ∉ graph.sourceExecutionVertices) : flow.received vertex source epoch = 0 := by
  refine Nat.le_zero.mp ((flowing.received_le graph flow vertex source epoch).trans (Nat.le_of_eq (countP_eq_zero.mpr ?_)))
  exact fun channel _ holds => outside (flowing.emitted _ (of_decide_eq_true holds).2).1

open Classical in
/-- The fan-ins, the barriers that arrive, the acknowledgements and the checkpoint domains agree. -/
theorem barriers_match_fan_in (sha256 : String → String) :
    (∀ vertex source, vertex ≠ source → lookup graph.barrierSplits vertex source =
      if source ∈ graph.sourceExecutionVertices ∧ 0 < graph.fanIn vertex source then some (graph.fanIn vertex source) else none) ∧
    (∀ source ∈ graph.sourceExecutionVertices, ∀ other,
      lookup graph.barrierSplits source other = if other = source then some 1 else none) ∧
    (∀ labels flow, Runs.exec graph.barrierStep .idle labels = some flow →
      (∀ vertex source epoch, vertex ≠ source →
        flow.received vertex source epoch ≤ (lookup graph.barrierSplits vertex source).getD 0) ∧
      (graph.Settled flow → ∀ source epoch, (⟨source,source,epoch⟩ : Sent) ∈ flow.sent → ∀ vertex ≠ source,
        flow.received vertex source epoch = (lookup graph.barrierSplits vertex source).getD 0) ∧
      ∃ more settled, (∀ label ∈ more, ¬ label.Emits) ∧ Runs.exec graph.barrierStep flow more = some settled ∧
        graph.Settled settled) ∧
    (∃ acknowledgements, graph.coordinatorAckCounts = .ok acknowledgements ∧ ∀ source ∈ graph.sourceExecutionVertices,
      (acknowledgements.get? source).getD 0 = graph.sinkExecutionVertices.countP (fun sink => graph.Reaches source sink)) ∧
    ∃ domains, graph.checkpointDomains sha256 = .ok domains ∧ graph.Partition domains ∧
      ∀ source sink, graph.Reaches source sink → ∀ domain ∈ domains, source ∈ domain.vertexIds ↔ sink ∈ domain.vertexIds := by
  refine ⟨graph.lookup_other,graph.lookup_source,fun labels flow ran => ?_,?_,?_⟩
  · have flowing := Flowing.run graph labels flow ran
    refine ⟨fun vertex source epoch apart => ?_,fun settled source epoch emitted vertex apart => ?_,graph.exists_settled flow flowing⟩
    · by_cases root : source ∈ graph.sourceExecutionVertices
      · rw [graph.lookup_getD vertex source apart root]
        exact flowing.bounded graph flow vertex source epoch
      · rw [flowing.unsent graph flow vertex source epoch root]
        exact Nat.zero_le _
    · rw [graph.lookup_getD vertex source apart (flowing.emitted _ emitted).1]
      exact settled.exact graph flow flowing source epoch emitted vertex
  · obtain ⟨acknowledgements,done,spec⟩ := graph.coordinatorAckCounts_spec
    refine ⟨acknowledgements,done,fun source root => ?_⟩
    rw [spec]
    split
    next => rfl
    next none => exact (Nat.eq_zero_of_not_pos (fun positive => none ⟨root,positive⟩)).symm
  · obtain ⟨domains,done,partition⟩ := graph.checkpointDomains_spec sha256
    refine ⟨domains,done,partition,fun source sink path domain listed => ?_⟩
    have linked := path.linked graph source sink
    exact ⟨fun inside => (partition.domain domain listed).linked graph domain source sink inside linked,
      fun inside => (partition.domain domain listed).linked graph domain sink source inside (linked.symm graph)⟩

section seed

private def ingest : ExecutionJobVertex := ⟨0,1,true,Nat.one_pos⟩
private def deliverTo : ExecutionJobVertex := ⟨1,1,false,Nat.one_pos⟩

def pipeline : ExecutionGraph where
  jobVertices := Dict.ofList [(0,ingest),(1,deliverTo)]
  jobEdges := [⟨0,1,.forward,[(⟨0,0⟩,⟨1,0⟩)]⟩]
  order := [0,1]
  expanded := by
    intro edge listed
    obtain rfl := mem_singleton.mp listed
    exact ⟨ingest,deliverTo,by decide,by decide,by decide⟩
  valid := by decide
  ordered := by decide

/-- The source counts itself, though no channel leads into it. -/
theorem source_counts_itself : (⟨0,0⟩ : ExecutionVertexId) ∈ pipeline.sourceExecutionVertices ∧
    (∀ channel ∈ pipeline.executionEdges, channel.2 ≠ ⟨0,0⟩) ∧
    ¬ ∀ vertex source, source ∈ pipeline.sourceExecutionVertices →
      lookup pipeline.barrierSplits vertex source = if pipeline.fanIn vertex source = 0 then none else some (pipeline.fanIn vertex source) := by
  have none : pipeline.fanIn ⟨0,0⟩ ⟨0,0⟩ = 0 := pipeline.fanIn_zero _ _ (fun tail channel => by
    obtain ⟨-,same⟩ := Prod.mk.inj (mem_singleton.mp channel)
    exact absurd same (by decide))
  refine ⟨by decide,by decide,fun claimed => ?_⟩
  have counted := claimed ⟨0,0⟩ ⟨0,0⟩ (by decide)
  rw [if_pos none] at counted
  exact absurd counted (by decide)

end seed

end Klein.Graph.ExecutionGraph
