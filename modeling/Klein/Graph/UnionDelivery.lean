import Mathlib
import Klein.Graph.UnionRule

/-! What the removal of unions delivers. A record that passes a union arrives once for
every path through unions; the rewritten graph has one edge for each pair of operators, so
it delivers what it should exactly when there is one path and the partitioner set
on its last union is the default one. -/
namespace Klein.Graph.StreamDag
open Fallible List Option
variable {ω : Type} [OperatorRecipe ω] (dag : StreamDag ω)

theorem mem_inputs (id input : Nat) : input ∈ dag.inputs id ↔ ∃ stream, dag.streams[id]? = some stream ∧ input ∈ stream.inputs := by
  unfold inputs
  cases dag.streams[id]? <;> simp

theorem input_lt (id input : Nat) (own : input ∈ dag.inputs id) : input < id := by
  obtain ⟨stream,found,listed⟩ := (dag.mem_inputs id input).mp own
  exact dag.earlier id stream found input listed

inductive Passes (removed : List Nat) (origin : Nat) : Nat → Prop where
  | direct (target : Nat) (own : origin ∈ dag.inputs target) : Passes removed origin target
  | through (middle target : Nat) (inside : middle ∈ removed) (own : middle ∈ dag.inputs target)
      (arrives : Passes removed origin middle) : Passes removed origin target

def Via (removed : List Nat) (origin target : Nat) : Prop :=
  ∃ middle ∈ removed, middle ∈ dag.inputs target ∧ dag.Passes removed origin middle

theorem passes_iff (removed : List Nat) (origin target : Nat) :
    dag.Passes removed origin target ↔ origin ∈ dag.inputs target ∨ dag.Via removed origin target := by
  constructor
  · intro passes
    cases passes with
    | direct _ own => exact .inl own
    | through middle _ inside own arrives => exact .inr ⟨middle,inside,own,arrives⟩
  · rintro (own | ⟨middle,inside,own,arrives⟩)
    · exact .direct _ own
    · exact .through _ _ inside own arrives

theorem Passes.lt (removed : List Nat) (origin target : Nat) (passes : dag.Passes removed origin target) : origin < target := by
  induction passes with
  | direct target own => exact dag.input_lt target origin own
  | through middle target _ own _ ih => exact ih.trans (dag.input_lt target middle own)

theorem Passes.mono (removed removed' : List Nat) (origin target : Nat) (more : ∀ id ∈ removed, id ∈ removed')
    (passes : dag.Passes removed origin target) : dag.Passes removed' origin target := by
  induction passes with
  | direct target own => exact .direct target own
  | through middle target inside own _ ih => exact .through middle target (more middle inside) own ih

theorem Passes.comp (removed : List Nat) (origin middle target : Nat) (inside : middle ∈ removed)
    (first : dag.Passes removed origin middle) (second : dag.Passes removed middle target) : dag.Passes removed origin target := by
  induction second with
  | direct target own => exact .through middle target inside own first
  | through other target inside' own _ ih => exact .through other target inside' own ih

theorem passes_cons (removed : List Nat) (added origin target : Nat) : dag.Passes (added::removed) origin target ↔
    dag.Passes removed origin target ∨ (dag.Passes removed origin added ∧ dag.Passes removed added target) := by
  constructor
  · intro passes
    induction passes with
    | direct target own => exact .inl (.direct target own)
    | through middle target inside own _ ih =>
      rcases mem_cons.mp inside with rfl | old
      · exact .inr ⟨ih.elim id And.left,.direct target own⟩
      · exact ih.imp (.through middle target old own) (fun both => ⟨both.1,.through middle target old own both.2⟩)
  · rintro (passes | ⟨first,second⟩)
    · exact passes.mono dag _ _ _ _ (fun id inside => mem_cons_of_mem _ inside)
    · exact Passes.comp dag _ _ _ _ mem_cons_self (first.mono dag _ _ _ _ (fun id inside => mem_cons_of_mem _ inside))
        (second.mono dag _ _ _ _ (fun id inside => mem_cons_of_mem _ inside))

theorem via_cons (removed : List Nat) (added origin target : Nat) : dag.Via (added::removed) origin target ↔
    dag.Via removed origin target ∨ (dag.Passes removed origin added ∧ dag.Passes removed added target) := by
  constructor
  · rintro ⟨middle,inside,own,passes⟩
    rw [passes_cons] at passes
    rcases mem_cons.mp inside with rfl | old
    · exact .inr ⟨passes.elim id And.left,.direct target own⟩
    · exact passes.imp (fun passes => ⟨middle,old,own,passes⟩) (fun both => ⟨both.1,.through middle target old own both.2⟩)
  · rintro (⟨middle,inside,own,passes⟩ | ⟨first,second⟩)
    · exact ⟨middle,mem_cons_of_mem _ inside,own,(passes_cons dag _ _ _ _).mpr (.inl passes)⟩
    · rcases (dag.passes_iff _ _ _).mp second with own | ⟨middle,inside,own,passes⟩
      · exact ⟨added,mem_cons_self,own,(passes_cons dag _ _ _ _).mpr (.inl first)⟩
      · exact ⟨middle,mem_cons_of_mem _ inside,own,(passes_cons dag _ _ _ _).mpr (.inr ⟨first,passes⟩)⟩

def concurrency (id : Nat) : Nat := ((dag.streams[id]?).map (fun stream => stream.resources.scalarConcurrency)).getD 0

def ruleDefault (source target : Nat) : PartitionerSpec :=
  defaultPartitioner (.scalar (dag.concurrency source)) (.scalar (dag.concurrency target))

section elimination
variable (needed : List Nat)

def Delivers (removed : List Nat) (edge : EdgeSpec) : Prop := edge.target ∈ needed ∧ edge.target ∉ removed ∧ edge.source ∉ removed ∧
  (dag.IsInput edge ∨ (dag.Via removed edge.source edge.target ∧ edge.partitioner = dag.ruleDefault edge.source edge.target))

structure Eliminated (removed : List Nat) (builder : LogicalGraphBuilder ω) : Prop where
  job : builder.jobName = dag.jobName
  vertices : ∀ id, builder.vertices.get? id =
    if id ∈ needed ∧ id ∉ removed then dag.streams[id]?.map (vertexSpec id) else none
  edges : ∀ edge, edge ∈ builder.edges ↔ dag.Delivers needed removed edge
  distinct : (builder.edges.map EdgeSpec.pair).Nodup

structure Needed : Prop where
  known : ∀ id ∈ needed, ∃ stream, dag.streams[id]? = some stream
  closed : ∀ id ∈ needed, ∀ input ∈ dag.inputs id, input ∈ needed
  used : ∀ id ∈ needed, id ∈ dag.sinks ∨ ∃ user ∈ needed, id ∈ dag.inputs user

variable (whole : dag.Needed needed)

theorem Needed.passes (removed : List Nat) (origin target : Nat) (inside : target ∈ needed)
    (passes : dag.Passes removed origin target) (whole : dag.Needed needed) : origin ∈ needed := by
  induction passes with
  | direct target own => exact whole.closed target inside origin own
  | through middle target _ own _ ih => exact ih (whole.closed target inside middle own)

theorem IsInput.own (edge : EdgeSpec) (isInput : dag.IsInput edge) : edge.source ∈ dag.inputs edge.target := by
  obtain ⟨parent,stream,-,found,own,-⟩ := isInput
  exact (dag.mem_inputs _ _).mpr ⟨stream,found,own⟩

theorem Delivers.passes (removed : List Nat) (edge : EdgeSpec) (delivers : dag.Delivers needed removed edge) :
    dag.Passes removed edge.source edge.target :=
  (dag.passes_iff _ _ _).mpr (delivers.2.2.2.imp (IsInput.own dag edge) And.left)

include whole in
theorem exists_delivers (removed : List Nat) (source target : Nat) (inside : target ∈ needed) (kept : target ∉ removed)
    (kept' : source ∉ removed) (passes : dag.Passes removed source target) :
    ∃ partitioner, dag.Delivers needed removed ⟨source,target,partitioner⟩ := by
  rcases (dag.passes_iff _ _ _).mp passes with own | via
  · obtain ⟨stream,found⟩ := whole.known target inside
    obtain ⟨parent,found'⟩ := whole.known source (whole.closed target inside source own)
    obtain ⟨stream',here,listed⟩ := (dag.mem_inputs _ _).mp own
    cases found.symm.trans here
    exact ⟨partitionerOf parent stream,inside,kept,kept',.inl ⟨parent,stream,found',found,listed,rfl⟩⟩
  · exact ⟨dag.ruleDefault source target,inside,kept,kept',.inr ⟨via,rfl⟩⟩

include whole in
theorem Eliminated.remove (removed : List Nat) (builder : LogicalGraphBuilder ω) (eliminated : dag.Eliminated needed removed builder)
    (unionId : Nat) (inside : unionId ∈ needed) (new : unionId ∉ removed) :
    (∀ after, removeUnion builder unionId = .ok after → dag.Eliminated needed (unionId::removed) after) ∧
      (Agrees (builder.edges ++ bridges builder unionId) → ∃ after, removeUnion builder unionId = .ok after) := by
  have present (id : Nat) (own : id ∈ needed) (kept : id ∉ removed) : builder.vertices.contains id = true := by
    obtain ⟨stream,found⟩ := whole.known id own
    rw [Dict.contains_eq_isSome,eliminated.vertices,if_pos ⟨own,kept⟩,found]
    rfl
  have ends : ∀ edge ∈ builder.edges, builder.vertices.contains edge.source = true ∧ builder.vertices.contains edge.target = true := by
    intro edge own
    have delivers := (eliminated.edges edge).mp own
    exact ⟨present _ (Needed.passes dag needed removed _ _ delivers.1 (delivers.passes dag) whole) delivers.2.2.1,
      present _ delivers.1 delivers.2.1⟩
  obtain ⟨of_ok,ok⟩ := removeUnion_spec builder eliminated.distinct unionId ends (present unionId inside new)
  refine ⟨fun after done => ?_,ok⟩
  have removal := of_ok after done
  refine ⟨removal.job.trans eliminated.job,fun id => ?_,fun edge => ?_,removal.distinct⟩
  · rw [removal.vertices,Dict.get?_erase,eliminated.vertices]
    by_cases same : id = unionId
    · subst same
      simp
    · simp [same]
  · have parallelism (id : Nat) (own : id ∈ needed) (kept : id ∉ removed) :
        LogicalGraph.parallelismOf builder.vertices id = dag.concurrency id := by
      obtain ⟨stream,found⟩ := whole.known id own
      unfold LogicalGraph.parallelismOf concurrency
      rw [eliminated.vertices,if_pos ⟨own,kept⟩,found]
      rfl
    have upstream : (∃ first ∈ builder.edges, first.source = edge.source ∧ first.target = unionId) ↔
        edge.source ∉ removed ∧ dag.Passes removed edge.source unionId := by
      constructor
      · rintro ⟨first,own,source,target⟩
        have delivers := (eliminated.edges first).mp own
        rw [← source,← target]
        exact ⟨delivers.2.2.1,delivers.passes dag⟩
      · rintro ⟨kept,passes⟩
        obtain ⟨partitioner,delivers⟩ := dag.exists_delivers needed whole removed edge.source unionId inside new kept passes
        exact ⟨_,(eliminated.edges _).mpr delivers,rfl,rfl⟩
    have downstream : (∃ second ∈ builder.edges, second.source = unionId ∧ second.target = edge.target) ↔
        edge.target ∈ needed ∧ edge.target ∉ removed ∧ dag.Passes removed unionId edge.target := by
      constructor
      · rintro ⟨second,own,source,target⟩
        have delivers := (eliminated.edges second).mp own
        rw [← source,← target]
        exact ⟨delivers.1,delivers.2.1,delivers.passes dag⟩
      · rintro ⟨own,kept,passes⟩
        obtain ⟨partitioner,delivers⟩ := dag.exists_delivers needed whole removed unionId edge.target own kept new passes
        exact ⟨_,(eliminated.edges _).mpr delivers,rfl,rfl⟩
    have made (source : edge.source ∈ needed ∧ edge.source ∉ removed) (target : edge.target ∈ needed ∧ edge.target ∉ removed) :
        edge = bridge builder edge.source edge.target ↔ edge.partitioner = dag.ruleDefault edge.source edge.target := by
      unfold bridge ruleDefault
      rw [parallelism _ source.1 source.2,parallelism _ target.1 target.2]
      cases edge
      simp
    rw [removal.edges,mem_bridges,eliminated.edges,upstream,downstream]
    constructor
    · rintro ⟨⟨own,kept,kept',rest⟩ | ⟨⟨kept',first⟩,⟨own,kept,second⟩,same⟩,apart',apart⟩
      · refine ⟨own,fun listed => (mem_cons.mp listed).elim apart kept,fun listed => (mem_cons.mp listed).elim apart' kept',?_⟩
        exact rest.imp_right (fun ⟨via,partitioner⟩ => ⟨(dag.via_cons _ _ _ _).mpr (.inl via),partitioner⟩)
      · refine ⟨own,fun listed => (mem_cons.mp listed).elim apart kept,fun listed => (mem_cons.mp listed).elim apart' kept',?_⟩
        have source := Needed.passes dag needed removed _ _ inside first whole
        exact .inr ⟨(dag.via_cons _ _ _ _).mpr (.inr ⟨first,second⟩),(made ⟨source,kept'⟩ ⟨own,kept⟩).mp same⟩
    · rintro ⟨own,kept,kept',rest⟩
      obtain ⟨apart,kept⟩ := not_or.mp (mt mem_cons.mpr kept)
      obtain ⟨apart',kept'⟩ := not_or.mp (mt mem_cons.mpr kept')
      refine ⟨?_,apart',apart⟩
      rcases rest with isInput | ⟨via,partitioner⟩
      · exact .inl ⟨own,kept,kept',.inl isInput⟩
      · rcases (dag.via_cons _ _ _ _).mp via with old | ⟨first,second⟩
        · exact .inl ⟨own,kept,kept',.inr ⟨old,partitioner⟩⟩
        · have source := Needed.passes dag needed removed _ _ inside first whole
          exact .inr ⟨⟨kept',first⟩,⟨own,kept,second⟩,(made ⟨source,kept'⟩ ⟨own,kept⟩).mpr partitioner⟩

end elimination

section arrivals

def IsUnion (id : Nat) : Bool := (dag.streams[id]?).any (fun stream => stream.nodeType = .union)

def arrivalsWithin : Nat → Nat → List (Nat × Nat)
  | 0,_ => []
  | fuel + 1,id => (dag.inputs id).flatMap (fun input =>
      if dag.IsUnion input then (arrivalsWithin fuel input).map (fun arrival => (arrival.1,input)) else [(input,input)])

def arrivals (id : Nat) : List (Nat × Nat) := dag.arrivalsWithin (id + 1) id

theorem arrivalsWithin_eq (fuel id : Nat) (enough : id < fuel) : dag.arrivalsWithin fuel id = dag.arrivals id := by
  have same (first second id : Nat) (one : id < first) (two : id < second) : dag.arrivalsWithin first id = dag.arrivalsWithin second id := by
    induction first generalizing second id with
    | zero => exact absurd one (Nat.not_lt_zero _)
    | succ first ih =>
      cases second with
      | zero => exact absurd two (Nat.not_lt_zero _)
      | succ second =>
        unfold arrivalsWithin
        refine flatMap_congr (fun input own => ?_)
        have before := dag.input_lt id input own
        rw [ih second input (by omega) (by omega)]
  exact same fuel (id + 1) id enough (Nat.lt_succ_self id)

theorem mem_arrivals (id origin last : Nat) : (origin,last) ∈ dag.arrivals id ↔ last ∈ dag.inputs id ∧
    if dag.IsUnion last then ∃ before, (origin,before) ∈ dag.arrivals last else origin = last := by
  unfold arrivals
  rw [arrivalsWithin,mem_flatMap]
  constructor
  · rintro ⟨input,own,listed⟩
    split at listed
    next union =>
      obtain ⟨arrival,inside,same⟩ := List.mem_map.mp listed
      obtain ⟨rfl,rfl⟩ := Prod.mk.inj same
      rw [dag.arrivalsWithin_eq id input (dag.input_lt id input own)] at inside
      exact ⟨own,by rw [if_pos union]; exact ⟨arrival.2,inside⟩⟩
    next other =>
      obtain ⟨rfl,rfl⟩ := Prod.mk.inj (mem_singleton.mp listed)
      exact ⟨own,by rw [if_neg other]⟩
  · rintro ⟨own,rest⟩
    refine ⟨last,own,?_⟩
    split at rest
    next union =>
      obtain ⟨before,inside⟩ := rest
      rw [if_pos union,dag.arrivalsWithin_eq id last (dag.input_lt id last own)]
      exact List.mem_map.mpr ⟨(origin,before),inside,rfl⟩
    next other =>
      rw [if_neg other,rest]
      exact mem_singleton_self _

theorem arrives_direct (id input : Nat) (own : input ∈ dag.inputs id) (plain : ¬ dag.IsUnion input = true) :
    (input,input) ∈ dag.arrivals id := (dag.mem_arrivals id input input).mpr ⟨own,by rw [if_neg plain]⟩

theorem arrives_through (id input origin : Nat) (own : input ∈ dag.inputs id) (union : dag.IsUnion input = true)
    (arrives : ∃ before, (origin,before) ∈ dag.arrivals input) : (origin,input) ∈ dag.arrivals id :=
  (dag.mem_arrivals id origin input).mpr ⟨own,by rw [if_pos union]; exact arrives⟩

theorem isUnion_iff (id : Nat) : dag.IsUnion id = true ↔ ∃ stream, dag.streams[id]? = some stream ∧ stream.nodeType = .union := by
  unfold IsUnion
  cases dag.streams[id]? <;> simp

theorem arrivals_origin (id origin last : Nat) (arrives : (origin,last) ∈ dag.arrivals id) : ¬ dag.IsUnion origin = true := by
  induction id using Nat.strong_induction_on generalizing last with
  | _ id ih =>
    obtain ⟨own,rest⟩ := (dag.mem_arrivals id origin last).mp arrives
    split at rest
    next union =>
      obtain ⟨before,inside⟩ := rest
      exact ih last (dag.input_lt id last own) before inside
    next other => exact rest ▸ other

section
variable (removed : List Nat) (unions : ∀ id ∈ removed, dag.IsUnion id = true)
include unions

theorem arrivals_passes (origin middle target : Nat)
    (union : dag.IsUnion middle = true) (arrives : ∃ last, (origin,last) ∈ dag.arrivals middle)
    (passes : dag.Passes removed middle target) : ∃ last, (origin,last) ∈ dag.arrivals target := by
  induction passes with
  | direct target own => exact ⟨middle,dag.arrives_through target middle origin own union arrives⟩
  | through other target inside own _ ih =>
    exact ⟨other,dag.arrives_through target other origin own (unions other inside) ih⟩

theorem passes_arrivals (origin target : Nat)
    (plain : ¬ dag.IsUnion origin = true) (passes : dag.Passes removed origin target) : ∃ last, (origin,last) ∈ dag.arrivals target := by
  induction passes with
  | direct target own => exact ⟨origin,dag.arrives_direct target origin own plain⟩
  | through other target inside own _ ih =>
    exact ⟨other,dag.arrives_through target other origin own (unions other inside) ih⟩

end

theorem exists_arrival (id : Nat) (some : dag.inputs id ≠ []) : ∃ origin last, (origin,last) ∈ dag.arrivals id := by
  induction id using Nat.strong_induction_on with
  | _ id ih =>
    obtain ⟨input,own⟩ := exists_mem_of_ne_nil _ some
    by_cases union : dag.IsUnion input = true
    · obtain ⟨stream,found,nodeType⟩ := (dag.isUnion_iff input).mp union
      have inner : dag.inputs input ≠ [] := by
        intro none
        unfold inputs at none
        rw [found] at none
        have source := (dag.source input stream found).2.mpr none
        rw [nodeType] at source
        contradiction
      obtain ⟨origin,last,inside⟩ := ih input (dag.input_lt id input own) inner
      exact ⟨origin,input,dag.arrives_through id input origin own union ⟨last,inside⟩⟩
    · exact ⟨input,input,dag.arrives_direct id input own union⟩

theorem arrivals_nodup_input (id input : Nat) (own : input ∈ dag.inputs id) (union : dag.IsUnion input = true)
    (once : ((dag.arrivals id).map Prod.fst).Nodup) : ((dag.arrivals input).map Prod.fst).Nodup := by
  have part : ((dag.arrivals input).map (fun arrival => (arrival.1,input))).Sublist (dag.arrivals id) := by
    conv =>
      arg 2
      rw [arrivals,arrivalsWithin,flatMap_def]
    refine sublist_flatten_of_mem (List.mem_map.mpr ⟨input,own,?_⟩)
    rw [if_pos union,dag.arrivalsWithin_eq id input (dag.input_lt id input own)]
  have kept := once.sublist (part.map Prod.fst)
  rw [List.map_map] at kept
  exact kept

section simple
variable (needed : List Nat) (whole : dag.Needed needed)

include whole in
theorem Needed.arrivals_pass (removed : List Nat) (covers : ∀ id ∈ needed, dag.IsUnion id = true → id ∈ removed) (target : Nat)
    (inside : target ∈ needed) (origin last : Nat) (arrives : (origin,last) ∈ dag.arrivals target) :
    dag.Passes removed origin target ∧ (dag.IsUnion last = true → dag.Via removed origin target) := by
  induction target using Nat.strong_induction_on generalizing last with
  | _ target ih =>
    obtain ⟨own,rest⟩ := (dag.mem_arrivals target origin last).mp arrives
    have known := whole.closed target inside last own
    split at rest
    next union =>
      obtain ⟨early,inside⟩ := rest
      have via : dag.Via removed origin target :=
        ⟨last,covers last known union,own,(ih last (dag.input_lt target last own) known early inside).1⟩
      exact ⟨(dag.passes_iff _ _ _).mpr (.inr via),fun _ => via⟩
    next other => exact ⟨.direct target (rest ▸ own),fun union => absurd union other⟩

def Simple : Prop := ∀ id ∈ needed, ¬ dag.IsUnion id = true → ((dag.arrivals id).map Prod.fst).Nodup

include whole in
theorem Simple.all (simple : dag.Simple needed) (id : Nat) (inside : id ∈ needed) : ((dag.arrivals id).map Prod.fst).Nodup := by
  induction size : dag.streams.length - id using Nat.strong_induction_on generalizing id with
  | _ size ih =>
    by_cases union : dag.IsUnion id = true
    · rcases whole.used id inside with sink | ⟨user,listed,own⟩
      · obtain ⟨stream,found,other⟩ := dag.terminal id sink
        obtain ⟨stream',found',same⟩ := (dag.isUnion_iff id).mp union
        cases found.symm.trans found'
        exact absurd same other
      · have later := dag.input_lt user id own
        obtain ⟨stream,found⟩ := whole.known user listed
        have small := (List.getElem?_eq_some_iff.mp found).1
        exact dag.arrivals_nodup_input user id own union (ih _ (by omega) user listed rfl)
    · exact simple id inside union

include whole in
theorem Simple.apart (simple : dag.Simple needed) (removed : List Nat) (unions : ∀ id ∈ removed, dag.IsUnion id = true)
    (unionId source target : Nat) (union : dag.IsUnion unionId = true) (inside : target ∈ needed) (kept : source ∉ unionId::removed)
    (first : dag.Passes removed source unionId) (second : dag.Passes removed unionId target) : source ∉ dag.inputs target := by
  intro own
  have all : ∀ id ∈ unionId::removed, dag.IsUnion id = true := forall_mem_cons.mpr ⟨union,unions⟩
  have more (id : Nat) (listed : id ∈ removed) : id ∈ unionId::removed := mem_cons_of_mem _ listed
  -- the last hop of the path through the union
  obtain ⟨last,listed,hop,passes⟩ : dag.Via (unionId::removed) source target := (dag.via_cons _ _ _ _).mpr (.inr ⟨first,second⟩)
  have apart : source ≠ last := fun same => kept (same ▸ listed)
  have twice (origin : Nat) (one : (origin,source) ∈ dag.arrivals target) (other : (origin,last) ∈ dag.arrivals target) : False := by
    have same := inj_on_of_nodup_map (simple.all dag needed whole target inside) one other rfl
    exact apart (Prod.mk.inj same).2
  by_cases nested : dag.IsUnion source = true
  · obtain ⟨stream,found,nodeType⟩ := (dag.isUnion_iff source).mp nested
    have some : dag.inputs source ≠ [] := by
      intro none
      unfold inputs at none
      rw [found] at none
      have root := (dag.source source stream found).2.mpr none
      rw [nodeType] at root
      contradiction
    obtain ⟨origin,before,arrives⟩ := dag.exists_arrival source some
    exact twice origin (dag.arrives_through target source origin own nested ⟨before,arrives⟩)
      (dag.arrives_through target last origin hop (all last listed)
        (dag.arrivals_passes (unionId::removed) all origin source last nested ⟨before,arrives⟩ passes))
  · exact twice source (dag.arrives_direct target source own nested)
      (dag.arrives_through target last source hop (all last listed)
        (dag.passes_arrivals (unionId::removed) all source last nested passes))

end simple
end arrivals
section rule
variable (needed : List Nat) (whole : dag.Needed needed)

include whole in
theorem Eliminated.agrees (simple : dag.Simple needed) (removed : List Nat) (unions : ∀ id ∈ removed, dag.IsUnion id = true)
    (builder : LogicalGraphBuilder ω) (eliminated : dag.Eliminated needed removed builder) (unionId : Nat)
    (union : dag.IsUnion unionId = true) (inside : unionId ∈ needed) (new : unionId ∉ removed) :
    Agrees (builder.edges ++ bridges builder unionId) := by
  have parallelism (id : Nat) (own : id ∈ needed) (kept : id ∉ removed) :
      LogicalGraph.parallelismOf builder.vertices id = dag.concurrency id := by
    obtain ⟨stream,found⟩ := whole.known id own
    unfold LogicalGraph.parallelismOf concurrency
    rw [eliminated.vertices,if_pos ⟨own,kept⟩,found]
    rfl
  -- an edge that is there and a bridge over the same vertices
  have mixed (first second : EdgeSpec) (own : first ∈ builder.edges) (bridge : second ∈ bridges builder unionId)
      (pair : first.pair = second.pair) : first = second := by
    obtain ⟨⟨into,intoOwn,source,target⟩,⟨out,outOwn,source',target'⟩,same⟩ := (mem_bridges builder unionId second).mp bridge
    obtain ⟨sources,targets⟩ := Prod.mk.inj pair
    have one := (eliminated.edges into).mp intoOwn
    have two := (eliminated.edges out).mp outOwn
    have delivers := (eliminated.edges first).mp own
    have passes := one.passes dag
    have passes' := two.passes dag
    rw [source,target,← sources] at passes
    rw [source',target',← targets] at passes'
    have kept : first.source ∉ unionId::removed := by
      intro listed
      rcases mem_cons.mp listed with rfl | old
      · exact absurd (passes.lt dag) (lt_irrefl _)
      · exact delivers.2.2.1 old
    rcases delivers.2.2.2 with isInput | ⟨-,partitioner⟩
    · exact absurd (IsInput.own dag first isInput)
        (simple.apart dag needed whole removed unions unionId first.source first.target union delivers.1 kept passes passes')
    · have known := Needed.passes dag needed removed _ _ delivers.1 (delivers.passes dag) whole
      rw [same]
      unfold Graph.bridge
      rw [← sources,← targets,parallelism _ known delivers.2.2.1,parallelism _ delivers.1 delivers.2.1]
      cases first
      exact congrArg _ partitioner
  intro first one second two pair
  rcases mem_append.mp one with old | made
  · rcases mem_append.mp two with old' | made'
    · exact Agrees.of_distinct _ eliminated.distinct first old second old' pair
    · exact mixed first second old made' pair
  · rcases mem_append.mp two with old' | made'
    · exact (mixed second first old' made pair.symm).symm
    · obtain ⟨-,-,same⟩ := (mem_bridges builder unionId first).mp made
      obtain ⟨-,-,same'⟩ := (mem_bridges builder unionId second).mp made'
      obtain ⟨sources,targets⟩ := Prod.mk.inj pair
      rw [same,same',sources,targets]

include whole in
theorem Eliminated.foldlM (unionIds removed : List Nat) (builder : LogicalGraphBuilder ω)
    (eliminated : dag.Eliminated needed removed builder) (distinct : unionIds.Nodup) (fresh : ∀ id ∈ unionIds, id ∉ removed)
    (unions : ∀ id ∈ unionIds, dag.IsUnion id = true ∧ id ∈ needed) (unions' : ∀ id ∈ removed, dag.IsUnion id = true) :
    (∀ after, unionIds.foldlM removeUnion builder = .ok after → dag.Eliminated needed (unionIds.reverse ++ removed) after) ∧
      (dag.Simple needed → ∃ after, unionIds.foldlM removeUnion builder = .ok after) := by
  induction unionIds generalizing removed builder with
  | nil =>
    refine ⟨fun after done => ?_,fun _ => ⟨builder,rfl⟩⟩
    obtain rfl := Except.ok.inj done
    exact eliminated
  | cons unionId rest ih =>
    obtain ⟨absent,distinct⟩ := nodup_cons.mp distinct
    obtain ⟨new,fresh⟩ := forall_mem_cons.mp fresh
    obtain ⟨⟨union,inside⟩,unions⟩ := forall_mem_cons.mp unions
    obtain ⟨of_ok,ok⟩ := eliminated.remove dag needed whole removed builder unionId inside new
    have fresh' : ∀ id ∈ rest, id ∉ unionId::removed := fun id own listed =>
      (mem_cons.mp listed).elim (fun same => absent (same ▸ own)) (fresh id own)
    have later (next : LogicalGraphBuilder ω) (done : removeUnion builder unionId = .ok next) :=
      ih (unionId::removed) next (of_ok next done) distinct fresh' unions (forall_mem_cons.mpr ⟨union,unions'⟩)
    refine ⟨fun after done => ?_,fun simple => ?_⟩
    · obtain ⟨next,removal,done⟩ := bind_ok done
      rw [reverse_cons,append_assoc]
      exact (later next removal).1 after done
    · obtain ⟨next,removal⟩ := ok (eliminated.agrees dag needed whole simple removed unions' builder unionId union inside new)
      obtain ⟨after,done⟩ := (later next removal).2 simple
      exact ⟨after,by rw [foldlM_cons,ok_bind removal]; exact done⟩

variable (graph : LogicalGraph ω) (fromSinks : dag.FromSinks needed graph)

include fromSinks in
theorem FromSinks.isNeeded : dag.Needed needed where
  known := fromSinks.known
  closed := fun id inside input own => by
    obtain ⟨stream,found,listed⟩ := (dag.mem_inputs id input).mp own
    exact fromSinks.closed id inside stream found input listed
  used := fun id inside => (fromSinks.used id inside).imp_right (fun ⟨user,listed,stream,found,own⟩ =>
    ⟨user,listed,(dag.mem_inputs user id).mpr ⟨stream,found,own⟩⟩)

include fromSinks in
theorem FromSinks.start : dag.Eliminated needed [] graph.toBuilder where
  job := fromSinks.job
  vertices := fun id => by
    change graph.vertices.get? id = _
    rw [fromSinks.vertices]
    simp
  edges := fun edge => by
    have none : ¬ dag.Via [] edge.source edge.target := fun ⟨_,listed,_⟩ => absurd listed (by simp)
    refine (fromSinks.edges edge).trans ?_
    unfold Delivers
    simp [none]
  distinct := graph.wellFormed.2.distinct

include fromSinks in
theorem FromSinks.mem_unionIds (id : Nat) : id ∈ unionIds graph.vertices ↔ id ∈ needed ∧ dag.IsUnion id = true := by
  unfold unionIds
  rw [dag.isUnion_iff]
  constructor
  · intro listed
    obtain ⟨⟨_,vertex⟩,inside,rfl⟩ := List.mem_map.mp listed
    obtain ⟨own,union⟩ := mem_filter.mp inside
    have found := (graph.vertices.get?_eq_some _ _).mpr own
    rw [fromSinks.vertices] at found
    split at found
    next known =>
      obtain ⟨stream,here,rfl⟩ := map_eq_some_iff.mp found
      exact ⟨known,stream,here,of_decide_eq_true union⟩
    next => contradiction
  · rintro ⟨known,stream,here,union⟩
    refine List.mem_map.mpr ⟨(id,vertexSpec id stream),mem_filter.mpr ⟨(graph.vertices.get?_eq_some _ _).mp ?_,decide_eq_true union⟩,rfl⟩
    rw [fromSinks.vertices,if_pos known,here]
    rfl

include whole in
theorem Eliminated.wellFormed (removed : List Nat) (all : ∀ id, id ∈ removed ↔ id ∈ needed ∧ dag.IsUnion id = true)
    (builder : LogicalGraphBuilder ω) (eliminated : dag.Eliminated needed removed builder) :
    WellFormed builder.vertices builder.edges := by
  apply dag.wellFormed_of _ _ (fun id => id ∈ needed ∧ id ∉ removed) eliminated.vertices (fun id inside => whole.known id inside.1)
    eliminated.distinct
  · intro edge own
    have delivers := (eliminated.edges edge).mp own
    exact ⟨⟨Needed.passes dag needed removed _ _ delivers.1 (delivers.passes dag) whole,delivers.2.2.1⟩,delivers.1,delivers.2.1⟩
  · exact fun edge own => (((eliminated.edges edge).mp own).passes dag).lt dag
  · intro id inside
    constructor
    · intro empty edge own same
      have into := ((eliminated.edges edge).mp own).passes dag
      rw [same,passes_iff] at into
      rcases into with direct | ⟨middle,-,hop,-⟩
      · exact ne_nil_of_mem direct empty
      · exact ne_nil_of_mem hop empty
    · intro none
      by_contra some
      obtain ⟨origin,last,arrives⟩ := dag.exists_arrival id some
      have plain := dag.arrivals_origin id origin last arrives
      have passes := (whole.arrivals_pass dag needed removed (fun other known union => (all other).mpr ⟨known,union⟩) id inside.1
        origin last arrives).1
      obtain ⟨partitioner,delivers⟩ := dag.exists_delivers needed whole removed origin id inside.1 inside.2
        (fun listed => plain ((all origin).mp listed).2) passes
      exact none _ ((eliminated.edges _).mpr delivers) rfl

end rule

def IsNeeded (id : Nat) : Prop := ∃ sink ∈ dag.sinks, Relation.ReflTransGen (fun user input => input ∈ dag.inputs user) sink id

def explicit (id : Nat) : Option PartitionerSpec := (dag.streams[id]?).bind Stream.partitioner

def required (origin last target : Nat) : PartitionerSpec :=
  (dag.explicit last).getD (if origin = last then defaultPartitioner
      (((dag.streams[origin]?).map (fun stream => stream.resources.effectiveConcurrency)).getD (.scalar 1))
      (((dag.streams[target]?).map (fun stream => stream.resources.effectiveConcurrency)).getD (.scalar 1))
    else dag.ruleDefault origin target)

/-- The graph is built, and it delivers on every path to every operator, with the
partitioner of the path. -/
def Delivered [DecidableEq ω] : Prop := ∃ graph result, dag.fromSinks = .ok graph ∧ unionRule graph = .ok result ∧
  ∀ target, dag.IsNeeded target → ¬ dag.IsUnion target = true →
    ((result.edges.filter (fun edge => edge.target = target)).map (fun edge => (edge.source,edge.partitioner))).Perm
      ((dag.arrivals target).map (fun arrival => (arrival.1,dag.required arrival.1 arrival.2 target)))

/-- There is one path through unions, and the partitioner set on its last union is the
default one. -/
def OnePath : Prop := ∀ target, dag.IsNeeded target → ¬ dag.IsUnion target = true →
  ((dag.arrivals target).map Prod.fst).Nodup ∧ ∀ origin last, (origin,last) ∈ dag.arrivals target → dag.IsUnion last = true →
    ∀ partitioner, dag.explicit last = some partitioner → partitioner = dag.ruleDefault origin target

section delivered
variable (needed : List Nat) (graph : LogicalGraph ω) (fromSinks : dag.FromSinks needed graph)

include fromSinks in
theorem FromSinks.mem_needed (id : Nat) : id ∈ needed ↔ dag.IsNeeded id := by
  have whole := fromSinks.isNeeded dag needed graph
  constructor
  · intro inside
    induction size : dag.streams.length - id using Nat.strong_induction_on generalizing id with
    | _ size ih =>
      rcases whole.used id inside with sink | ⟨user,listed,own⟩
      · exact ⟨id,sink,Relation.ReflTransGen.refl⟩
      · have later := dag.input_lt user id own
        obtain ⟨stream,found⟩ := whole.known user listed
        have small := (List.getElem?_eq_some_iff.mp found).1
        obtain ⟨sink,final,path⟩ := ih _ (by omega) user listed rfl
        exact ⟨sink,final,path.tail own⟩
  · rintro ⟨sink,final,path⟩
    induction path with
    | refl => exact fromSinks.sinks sink final
    | tail _ own ih => exact whole.closed _ ih _ own

theorem required_direct (origin target : Nat) (edge : EdgeSpec) (isInput : dag.IsInput edge) (source : edge.source = origin)
    (target' : edge.target = target) : edge.partitioner = dag.required origin origin target := by
  obtain ⟨parent,stream,found,found',-,partitioner⟩ := isInput
  rw [source] at found
  rw [target'] at found'
  unfold required explicit
  rw [partitioner,found,found',if_pos rfl]
  rfl

variable (removed : List Nat) (all : ∀ id, id ∈ removed ↔ id ∈ needed ∧ dag.IsUnion id = true)

include fromSinks all in
theorem delivers_iff (target : Nat) (inside : target ∈ needed) (plain : ¬ dag.IsUnion target = true) (origin : Nat)
    (partitioner : PartitionerSpec) : dag.Delivers needed removed ⟨origin,target,partitioner⟩ ↔
      ∃ last, (origin,last) ∈ dag.arrivals target ∧
        partitioner = if dag.IsUnion last then dag.ruleDefault origin target else dag.required origin last target := by
  have whole := fromSinks.isNeeded dag needed graph
  have covers (id : Nat) (known : id ∈ needed) (union : dag.IsUnion id = true) : id ∈ removed := (all id).mpr ⟨known,union⟩
  have unions : ∀ id ∈ removed, dag.IsUnion id = true := fun id listed => ((all id).mp listed).2
  constructor
  · rintro ⟨-,kept,kept',rest⟩
    have known := Needed.passes dag needed removed _ _ inside ((dag.passes_iff _ _ _).mpr (rest.imp (IsInput.own dag _) And.left)) whole
    have origin' : ¬ dag.IsUnion origin = true := fun union => kept' (covers origin known union)
    rcases rest with isInput | ⟨⟨middle,listed,own,passes⟩,same⟩
    · refine ⟨origin,dag.arrives_direct target origin (IsInput.own dag _ isInput) origin',?_⟩
      rw [if_neg origin']
      exact dag.required_direct origin target _ isInput rfl rfl
    · refine ⟨middle,dag.arrives_through target middle origin own (unions middle listed)
        (dag.passes_arrivals removed unions origin middle origin' passes),?_⟩
      rw [if_pos (unions middle listed)]
      exact same
  · rintro ⟨last,arrives,same⟩
    obtain ⟨passes,via⟩ := whole.arrivals_pass dag needed removed covers target inside origin last arrives
    have origin' := dag.arrivals_origin target origin last arrives
    refine ⟨inside,fun listed => plain (unions target listed),fun listed => origin' (unions origin listed),?_⟩
    split at same
    next union => exact .inr ⟨via union,same⟩
    next other =>
      obtain ⟨own,rest⟩ := (dag.mem_arrivals _ _ _).mp arrives
      rw [if_neg other] at rest
      subst rest
      obtain ⟨stream,found⟩ := whole.known target inside
      obtain ⟨parent,found'⟩ := whole.known origin (whole.closed target inside origin own)
      obtain ⟨stream',here,listed⟩ := (dag.mem_inputs _ _).mp own
      cases found.symm.trans here
      have direct : dag.IsInput ⟨origin,target,partitionerOf parent stream⟩ := ⟨parent,stream,found',found,listed,rfl⟩
      have partitioner' := dag.required_direct origin target _ direct rfl rfl
      rw [same,← partitioner']
      exact .inl direct

end delivered

section once
variable (result : LogicalGraph ω) (target : Nat)

theorem sources_nodup : ((result.edges.filter (fun edge => edge.target = target)).map EdgeSpec.source).Nodup := by
  refine (nodup_map_iff_inj_on ((result.wellFormed.2.distinct.of_map _).filter _)).mpr (fun first one second two same => ?_)
  obtain ⟨own,into⟩ := mem_filter.mp one
  obtain ⟨own',into'⟩ := mem_filter.mp two
  exact inj_on_of_nodup_map result.wellFormed.2.distinct own own'
    (Prod.ext same ((of_decide_eq_true into).trans (of_decide_eq_true into').symm))

theorem arrivals_nodup (delivers : ((result.edges.filter (fun edge => edge.target = target)).map
      (fun edge => (edge.source,edge.partitioner))).Perm
      ((dag.arrivals target).map (fun arrival => (arrival.1,dag.required arrival.1 arrival.2 target)))) :
    ((dag.arrivals target).map Prod.fst).Nodup := by
  have firsts := delivers.map Prod.fst
  rw [List.map_map,List.map_map] at firsts
  exact firsts.nodup_iff.mp (sources_nodup result target)

end once

/-- The rewritten graph delivers what the streams say exactly under one path and no other
explicit partitioner. -/
theorem delivered_iff [DecidableEq ω] : dag.Delivered ↔ dag.OnePath := by
  obtain ⟨needed,graph,captured,fromSinks⟩ := dag.fromSinks_ok
  have whole := fromSinks.isNeeded dag needed graph
  have listed := fromSinks.mem_unionIds dag needed graph
  have ids : (unionIds graph.vertices).Nodup := graph.vertices.distinct.sublist (filter_sublist.map Prod.fst)
  obtain ⟨of_ok,ok⟩ := Eliminated.foldlM dag needed whole (unionIds graph.vertices) [] graph.toBuilder
    (fromSinks.start dag needed graph) ids (by simp) (fun id own => ⟨((listed id).mp own).2,((listed id).mp own).1⟩) (by simp)
  have all (id : Nat) : id ∈ (unionIds graph.vertices).reverse ++ [] ↔ id ∈ needed ∧ dag.IsUnion id = true := by
    rw [append_nil,mem_reverse,listed]
  -- the edges into an operator, when the rule returns
  have edges (result : LogicalGraph ω) (done : unionRule graph = .ok result) (target : Nat) (inside : target ∈ needed)
      (plain : ¬ dag.IsUnion target = true) (origin : Nat) (partitioner : PartitionerSpec) :
      (origin,partitioner) ∈ (result.edges.filter (fun edge => edge.target = target)).map (fun edge => (edge.source,edge.partitioner)) ↔
      ∃ last, (origin,last) ∈ dag.arrivals target ∧
        partitioner = if dag.IsUnion last then dag.ruleDefault origin target else dag.required origin last target := by
    obtain ⟨builder,removed,built⟩ := bind_ok done
    have eliminated := of_ok builder removed
    obtain ⟨-,-,permuted⟩ := builder.of_build result built
    rw [← dag.delivers_iff needed graph fromSinks _ all target inside plain,← eliminated.edges,← permuted.mem_iff,List.mem_map]
    constructor
    · rintro ⟨edge,own,same⟩
      obtain ⟨rfl,rfl⟩ := Prod.mk.inj same
      obtain ⟨own,into⟩ := mem_filter.mp own
      rw [← of_decide_eq_true into]
      exact own
    · exact fun own => ⟨_,mem_filter.mpr ⟨own,by simp⟩,rfl⟩
  constructor
  · rintro ⟨graph',result,captured',done,delivers⟩ target isNeeded plain
    cases captured.symm.trans captured'
    have inside := (fromSinks.mem_needed dag needed graph target).mpr isNeeded
    have same := delivers target isNeeded plain
    have once := dag.arrivals_nodup result target same
    refine ⟨once,fun origin last arrives union partitioner explicit => ?_⟩
    have own := same.mem_iff.mpr (List.mem_map_of_mem arrives)
    obtain ⟨last',arrives',equal⟩ := (edges result done target inside plain _ _).mp own
    cases inj_on_of_nodup_map once arrives arrives' rfl
    rw [if_pos union] at equal
    unfold required at equal
    rw [explicit] at equal
    exact equal
  · intro onePath
    have simple : dag.Simple needed := fun id inside plain => (onePath id ((fromSinks.mem_needed dag needed graph id).mp inside) plain).1
    obtain ⟨builder,removed⟩ := ok simple
    have eliminated := of_ok builder removed
    obtain ⟨result,built,-⟩ := builder.build_ok (by rw [eliminated.job]; exact dag.named)
      (eliminated.wellFormed dag needed whole _ all builder)
    have done : unionRule graph = .ok result := (ok_bind removed).trans built
    refine ⟨graph,result,captured,done,fun target isNeeded plain => ?_⟩
    have inside := (fromSinks.mem_needed dag needed graph target).mpr isNeeded
    obtain ⟨once,explicit⟩ := onePath target isNeeded plain
    have apart : ((result.edges.filter (fun edge => edge.target = target)).map (fun edge => (edge.source,edge.partitioner))).Nodup := by
      have firsts := sources_nodup result target
      refine List.Nodup.of_map Prod.fst ?_
      rw [List.map_map]
      exact firsts
    have apart' : ((dag.arrivals target).map (fun arrival => (arrival.1,dag.required arrival.1 arrival.2 target))).Nodup := by
      refine List.Nodup.of_map Prod.fst ?_
      rw [List.map_map]
      exact once
    refine (perm_ext_iff_of_nodup apart apart').mpr (fun ⟨origin,partitioner⟩ => ?_)
    rw [edges result done target inside plain,List.mem_map]
    -- through a union the rule's partitioner is the required one
    have agree (origin last : Nat) (arrives : (origin,last) ∈ dag.arrivals target) :
        (if dag.IsUnion last then dag.ruleDefault origin target else dag.required origin last target) = dag.required origin last target := by
      split
      next union =>
        have other : origin ≠ last := fun same => dag.arrivals_origin target origin last arrives (same ▸ union)
        unfold required
        rw [if_neg other]
        cases found : dag.explicit last with
        | none => rfl
        | some partitioner => exact (explicit origin last arrives union partitioner found).symm
      next => rfl
    constructor
    · rintro ⟨last,arrives,same⟩
      rw [agree origin last arrives] at same
      exact ⟨(origin,last),arrives,by rw [same]⟩
    · rintro ⟨⟨origin',last⟩,arrives,same⟩
      obtain ⟨rfl,rfl⟩ := Prod.mk.inj same
      exact ⟨last,arrives,(agree _ last arrives).symm⟩

def selfUnion : StreamDag PlainOperator where
  jobName := "job"
  streams := [⟨"Source",⟨"read",true⟩,.source,Resources.scalar 1 Nat.one_pos,none,[]⟩,
    ⟨"Union",⟨"union",false⟩,.union,Resources.scalar 1 Nat.one_pos,none,[0,0]⟩,
    ⟨"StreamSink",⟨"write",false⟩,.sink,Resources.scalar 1 Nat.one_pos,none,[1]⟩]
  sinks := [2]
  named := by decide
  earlier := fun id stream found => by
    match id with
    | 0 | 1 | 2 =>
      obtain rfl := some.inj found
      decide
    | id + 3 => exact absurd found (by simp)
  source := fun id stream found => by
    match id with
    | 0 | 1 | 2 =>
      obtain rfl := some.inj found
      decide
    | id + 3 => exact absurd found (by simp)
  terminal := fun sink listed => by
    obtain rfl := mem_singleton.mp listed
    exact ⟨_,rfl,by decide⟩

/-- The two paths of every record become one edge. -/
theorem self_union_loses : ¬ selfUnion.Delivered := by
  rintro ⟨graph,result,-,-,delivers⟩
  have once := selfUnion.arrivals_nodup result 2 (delivers 2 ⟨2,mem_singleton_self 2,Relation.ReflTransGen.refl⟩ (by decide))
  exact absurd once (by decide)

end Klein.Graph.StreamDag
