import Klein.EventTime.WatermarkOperator
import Klein.EventTime.WindowRuns
import Klein.Runs

/-! Records inside the declared out-of-orderness: parallel watermark operators feed
one tracker and one window operator (`docs/event-time.md`). -/
namespace Klein.EventTime
open Function List Option

namespace WindowOperator
variable {κ β : Type} [DecidableEq κ] (c : WindowConfig κ β)

/-- A record at the current watermark, without lateness, whose window ends right
after it, or whose session would join one that has just been emitted. -/
def Collides (o : WindowOperator κ β) (block : β) (timestamp : Int) : Prop :=
  c.allowedLatenessMs = 0 ∧ timestamp = o.currentWatermark ∧
    ((∃ window ∈ c.assigner.assignWindows timestamp, window.stop = timestamp + 1) ∨
      c.assigner.isMerging = true ∧
        ∃ result ∈ o.results, result.1.1 = c.keySelector block ∧ result.1.2.stop = timestamp + 1)

/-- `reference` processed the records of `o` without its watermarks. -/
structure Mirrors (o reference : WindowOperator κ β) : Prop where
  scheduled : Scheduled c o
  scheduled' : Scheduled c reference
  mirrored : ∀ entry value, reference.state.get? entry = some value ↔
    o.state.get? entry = some value ∨ (entry,value) ∈ o.results
  once : (o.results.map Prod.fst).Nodup
  gone : ∀ result ∈ o.results, o.state.get? result.1 = none
  passed : ∀ result ∈ o.results, cleanupTimestamp c result.1.2 ≤ o.currentWatermark
  waiting : ∀ entry value, o.state.get? entry = some value → o.currentWatermark < cleanupTimestamp c entry.2
  untouched : reference.currentWatermark = -1 ∧ reference.results = []
  undropped : o.lateDrops = 0

variable (o reference : WindowOperator κ β)

theorem Mirrors.init : Mirrors c (WindowOperator.init (κ := κ) (β := β)) WindowOperator.init where
  scheduled := ⟨nodup_nil,by simp [WindowOperator.init]⟩
  scheduled' := ⟨nodup_nil,by simp [WindowOperator.init]⟩
  mirrored := by simp [WindowOperator.init]
  once := nodup_nil
  gone := by simp [WindowOperator.init]
  passed := by simp [WindowOperator.init]
  waiting := by simp [WindowOperator.init]
  untouched := ⟨rfl,rfl⟩
  undropped := rfl

theorem Mirrors.watermark (mirrors : Mirrors c o reference) (timestamp : Int) :
    Mirrors c (o.onEventTimeWatermark c timestamp) reference := by
  by_cases later : o.currentWatermark < timestamp
  · have fires := onEventTimeWatermark_fires c o mirrors.scheduled timestamp later
    obtain ⟨fired,results,once,exact'⟩ := fires.results
    have known (result : (κ × TimeWindow) × β) (inside : result ∈ fired) :
        o.state.get? result.1 = some result.2 ∧ cleanupTimestamp c result.1.2 ≤ timestamp :=
      (exact' result.1 result.2).mp inside
    constructor
    case scheduled => exact fires.scheduled
    case scheduled' => exact mirrors.scheduled'
    case mirrored =>
      intro entry value
      rw [mirrors.mirrored,fires.state,results,mem_append,exact']
      by_cases past : cleanupTimestamp c entry.2 ≤ timestamp
      · simp only [past,if_true,and_true,reduceCtorEq,false_or]
        exact or_comm
      · simp [past]
    case once =>
      rw [results,map_append]
      refine mirrors.once.append once (fun entry mine theirs => ?_)
      obtain ⟨result,inside,rfl⟩ := List.mem_map.mp mine
      obtain ⟨other,inside',same⟩ := List.mem_map.mp theirs
      have held := (known other inside').1
      rw [same,mirrors.gone result inside] at held
      contradiction
    case gone =>
      intro result inside
      rw [fires.state]
      rw [results] at inside
      rcases mem_append.mp inside with old | new
      · rw [mirrors.gone result old]
        exact ite_self none
      · exact if_pos (known result new).2
    case passed =>
      intro result inside
      rw [fires.currentWatermark]
      rw [results] at inside
      rcases mem_append.mp inside with old | new
      · have before := mirrors.passed result old
        omega
      · exact (known result new).2
    case waiting =>
      intro entry value found
      rw [fires.state] at found
      rw [fires.currentWatermark]
      have future := (ite_none_left_eq_some.mp found).1
      omega
    case untouched => exact mirrors.untouched
    case undropped => exact fires.lateDrops.trans mirrors.undropped
  · have same : o.onEventTimeWatermark c timestamp = o := if_pos (by omega)
    rw [same]
    exact mirrors

section record
variable (mirrors : Mirrors c o reference) (block : β) (timestamp : Int)
variable (timely : o.currentWatermark ≤ timestamp) (valid : 0 ≤ timestamp)
variable (apart : ¬ Collides c o block timestamp)

include mirrors timely apart in
theorem Mirrors.apart_from (window : TimeWindow) (inside : window ∈ c.assigner.assignWindows timestamp)
    (merging : c.assigner.isMerging = true) (result : (κ × TimeWindow) × β) (emitted : result ∈ o.results)
    (own : result.1.1 = c.keySelector block) : result.1.2.overlaps window = false := by
  cases assigner : c.assigner with
  | tumbling size offset positive => simp [assigner,WindowAssigner.isMerging] at merging
  | sliding size slide offset positive steps => simp [assigner,WindowAssigner.isMerging] at merging
  | session gap positive =>
    rw [assigner] at inside
    obtain rfl := mem_singleton.mp inside
    by_contra overlaps
    have meets : timestamp < result.1.2.stop := by
      simp only [TimeWindow.overlaps,Bool.not_eq_false,decide_eq_true_eq] at overlaps
      exact overlaps.2
    have past := mirrors.passed result emitted
    unfold cleanupTimestamp at past
    exact apart ⟨by omega,by omega,.inr ⟨merging,result,emitted,own,by omega⟩⟩

include mirrors in
theorem Mirrors.alike (entry : κ × TimeWindow) (kept : ∀ result ∈ o.results, result.1 ≠ entry) :
    reference.state.get? entry = o.state.get? entry := by
  apply Option.ext
  intro value
  exact (mirrors.mirrored entry value).trans (or_iff_left (fun emitted => kept _ emitted rfl))

include mirrors timely apart in
theorem Mirrors.plan (window : TimeWindow) (inside : window ∈ c.assigner.assignWindows timestamp) :
    (reference.sessionMergePlan c (c.keySelector block) window).1 = (o.sessionMergePlan c (c.keySelector block) window).1 ∧
      (reference.sessionMergePlan c (c.keySelector block) window).2.Perm
        (o.sessionMergePlan c (c.keySelector block) window).2 := by
  unfold sessionMergePlan
  split
  next merging =>
    have perm : ((reference.namespaces c (c.keySelector block)).filter (fun other => other.overlaps window)).Perm
        ((o.namespaces c (c.keySelector block)).filter (fun other => other.overlaps window)) := by
      refine (perm_ext_iff_of_nodup ((nodup_namespaces c _ _).filter _) ((nodup_namespaces c _ _).filter _)).mpr
        (fun other => ?_)
      simp only [mem_filter,mem_namespaces]
      refine and_congr_left (fun overlaps => exists_congr (fun value => ?_))
      refine (mirrors.mirrored _ value).trans (or_iff_left (fun emitted => ?_))
      rw [mirrors.apart_from c o reference block timestamp timely apart window inside merging _ emitted rfl] at overlaps
      contradiction
    have commutes : RightCommutative TimeWindow.merge := ⟨fun first second third => by
      ext1 <;> simp only [TimeWindow.merge] <;> omega⟩
    exact ⟨perm.foldl_eq window,perm⟩
  next => exact ⟨rfl,List.Perm.refl _⟩

theorem merge_stop (overlapping : List TimeWindow) (candidate : TimeWindow) :
    candidate.stop ≤ (overlapping.foldl TimeWindow.merge candidate).stop := by
  induction overlapping generalizing candidate with
  | nil => exact Int.le_refl _
  | cons window rest ih => exact Int.le_trans (Int.le_max_left _ _) (ih (candidate.merge window))

theorem plan_stop (key : κ) (window : TimeWindow) : window.stop ≤ (o.sessionMergePlan c key window).1.stop := by
  unfold sessionMergePlan
  split
  · exact merge_stop _ window
  · exact Int.le_refl _

theorem plan_held (key : κ) (window other : TimeWindow) (inside : other ∈ (o.sessionMergePlan c key window).2) :
    ∃ value, o.state.get? (key,other) = some value := by
  unfold sessionMergePlan at inside
  split at inside
  · exact (mem_namespaces c o key other).mp (mem_filter.mp inside).1
  · contradiction

include timely apart in
theorem timely_window (window : TimeWindow) (inside : window ∈ c.assigner.assignWindows timestamp) :
    o.currentWatermark < cleanupTimestamp c (o.sessionMergePlan c (c.keySelector block) window).1 := by
  have contains := c.assigner.assignWindows_contains timestamp window inside
  have grows := plan_stop c o (c.keySelector block) window
  unfold cleanupTimestamp
  by_contra late
  exact apart ⟨by omega,by omega,.inl ⟨window,inside,by omega⟩⟩

variable (commutative : ∀ first second, c.reduceFunction first second = c.reduceFunction second first)
variable (associative : ∀ first second third,
  c.reduceFunction (c.reduceFunction first second) third = c.reduceFunction first (c.reduceFunction second third))

omit [DecidableEq κ] in
include commutative associative in
theorem join_rightCommutative : RightCommutative (join c) := ⟨fun accumulated first second => by
  cases accumulated with
  | none => exact congrArg some (commutative first second)
  | some before =>
    refine congrArg some ?_
    change c.reduceFunction (c.reduceFunction before first) second = c.reduceFunction (c.reduceFunction before second) first
    rw [associative,commutative first second,← associative]⟩

include mirrors timely valid apart commutative associative in
theorem Mirrors.window (window : TimeWindow) (inside : window ∈ c.assigner.assignWindows timestamp) :
    let next := o.processWindow c (c.keySelector block) block window
    let next' := reference.processWindow c (c.keySelector block) block window
    next.2 = false ∧ next'.2 = false ∧ next.1.currentWatermark = o.currentWatermark ∧ next.1.results = o.results ∧
      Mirrors c next.1 next'.1 := by
  have contains := c.assigner.assignWindows_contains timestamp window inside
  obtain ⟨target,overlapping⟩ := mirrors.plan c o reference block timestamp timely apart window inside
  have future := timely_window c o block timestamp timely apart window inside
  have future' : reference.currentWatermark <
      cleanupTimestamp c (reference.sessionMergePlan c (c.keySelector block) window).1 := by
    have grows := plan_stop c reference (c.keySelector block) window
    rw [mirrors.untouched.1]
    unfold cleanupTimestamp
    omega
  obtain ⟨kept,touches⟩ := processWindow_touches c o (c.keySelector block) block window future
  obtain ⟨kept',touches'⟩ := processWindow_touches c reference (c.keySelector block) block window future'
  dsimp only
  have held := plan_held c o (c.keySelector block) window
  generalize o.processWindow c (c.keySelector block) block window = next at kept touches ⊢
  generalize reference.processWindow c (c.keySelector block) block window = next' at kept' touches' ⊢
  generalize o.sessionMergePlan c (c.keySelector block) window = plan at target overlapping future touches held
  generalize reference.sessionMergePlan c (c.keySelector block) window = plan' at target overlapping touches'
  rw [target] at touches'
  have unemitted (result : (κ × TimeWindow) × β) (emitted : result ∈ o.results) :
      result.1 ≠ (c.keySelector block,plan.1) := by
    intro same
    have past := mirrors.passed result emitted
    rw [same] at past
    dsimp only at past
    omega
  have own := mirrors.alike c o reference (c.keySelector block,plan.1) unemitted
  have same : prior c reference (c.keySelector block) plan.1 plan'.2 = prior c o (c.keySelector block) plan.1 plan.2 := by
    have values : plan.2.filterMap (fun other => reference.state.get? (c.keySelector block,other)) =
        plan.2.filterMap (fun other => o.state.get? (c.keySelector block,other)) := by
      refine filterMap_congr (fun other member => mirrors.alike c o reference _ (fun result emitted equal => ?_))
      obtain ⟨value,found⟩ := held other member
      rw [← equal,mirrors.gone result emitted] at found
      contradiction
    have commutes := join_rightCommutative c commutative associative
    unfold prior
    rw [(overlapping.filterMap _).foldl_eq none,values,own]
    simp only [overlapping.mem_iff]
  refine ⟨kept,kept',touches.currentWatermark,touches.results,?_⟩
  constructor
  case scheduled => exact touches.scheduled c o next.1 _ _ _ _ mirrors.scheduled
  case scheduled' => exact touches'.scheduled c reference next'.1 _ _ _ _ mirrors.scheduled'
  case mirrored =>
    intro entry value
    rw [touches.state,touches'.state,touches.results,same]
    by_cases self : entry = (c.keySelector block,plan.1)
    · rw [if_pos self,if_pos self]
      exact (or_iff_left (fun emitted => unemitted _ emitted self)).symm
    rw [if_neg self,if_neg self]
    by_cases merged : entry.1 = c.keySelector block ∧ entry.2 ∈ plan.2
    · rw [if_pos merged,if_pos (merged.imp_right overlapping.mem_iff.mpr)]
      refine iff_of_false (by simp) (fun either => ?_)
      rcases either with impossible | emitted
      · contradiction
      · obtain ⟨value',found⟩ := held entry.2 merged.2
        rw [← merged.1,mirrors.gone _ emitted] at found
        contradiction
    · rw [if_neg merged,if_neg (fun inside => merged (inside.imp_right overlapping.mem_iff.mp))]
      exact mirrors.mirrored entry value
  case once =>
    rw [touches.results]
    exact mirrors.once
  case gone =>
    rw [touches.results]
    intro result emitted
    rw [touches.state,if_neg (unemitted result emitted),mirrors.gone result emitted]
    exact ite_self none
  case passed =>
    rw [touches.results,touches.currentWatermark]
    exact mirrors.passed
  case waiting =>
    intro entry value found
    rw [touches.currentWatermark]
    rw [touches.state] at found
    split at found
    next self =>
      rw [self]
      exact future
    next => exact mirrors.waiting entry value (ite_none_left_eq_some.mp found).2
  case untouched => exact ⟨touches'.currentWatermark.trans mirrors.untouched.1,touches'.results.trans mirrors.untouched.2⟩
  case undropped => exact touches.lateDrops.trans mirrors.undropped

include mirrors timely valid apart commutative associative in
theorem Mirrors.windows (windows : List TimeWindow) (inside : windows ⊆ c.assigner.assignWindows timestamp) :
    let next := windows.foldl (fun progress window =>
      let (next,late) := progress.1.processWindow c (c.keySelector block) block window
      (next,progress.2 || late)) (o,false)
    let next' := windows.foldl (fun progress window =>
      let (next,late) := progress.1.processWindow c (c.keySelector block) block window
      (next,progress.2 || late)) (reference,false)
    next.2 = false ∧ next'.2 = false ∧ next.1.currentWatermark = o.currentWatermark ∧ Mirrors c next.1 next'.1 := by
  induction windows generalizing o reference with
  | nil => exact ⟨rfl,rfl,rfl,mirrors⟩
  | cons window rest ih =>
    obtain ⟨kept,kept',watermark,results,next⟩ := mirrors.window c o reference block timestamp timely valid apart
      commutative associative window (inside mem_cons_self)
    have apart' : ¬ Collides c (o.processWindow c (c.keySelector block) block window).1 block timestamp := by
      unfold Collides
      rw [watermark,results]
      exact apart
    obtain ⟨rest,rest',same,last⟩ := ih _ _ next (watermark.symm ▸ timely) apart'
      (fun other member => inside (mem_cons_of_mem _ member))
    dsimp only [foldl_cons]
    rw [kept,kept']
    exact ⟨rest,rest',same.trans watermark,last⟩

include mirrors timely valid apart commutative associative in
theorem Mirrors.record :
    (o.processManagedElement c block timestamp).currentWatermark = o.currentWatermark ∧
      Mirrors c (o.processManagedElement c block timestamp) (reference.processManagedElement c block timestamp) := by
  obtain ⟨kept,kept',watermark,next⟩ := mirrors.windows c o reference block timestamp timely valid apart commutative associative
    _ (fun _ member => member)
  unfold processManagedElement
  dsimp only at kept kept' watermark next ⊢
  rw [kept,kept']
  exact ⟨watermark,next⟩

end record

theorem Mirrors.final (mirrors : Mirrors c o reference) (timestamp : Int) (bounded : o.currentWatermark ≤ timestamp)
    (valid : 0 ≤ timestamp) :
    (o.onEventTimeWatermark c timestamp).results.Perm (reference.onEventTimeWatermark c timestamp).results := by
  have after := mirrors.watermark c o reference timestamp
  have reached : (o.onEventTimeWatermark c timestamp).currentWatermark = timestamp := by
    by_cases later : o.currentWatermark < timestamp
    · exact (onEventTimeWatermark_fires c o mirrors.scheduled timestamp later).currentWatermark
    · have same : o.onEventTimeWatermark c timestamp = o := if_pos (by omega)
      rw [same]
      omega
  have fires := onEventTimeWatermark_fires c reference mirrors.scheduled' timestamp (by rw [mirrors.untouched.1]; omega)
  obtain ⟨fired,results,once,exact'⟩ := fires.results
  rw [results,mirrors.untouched.2,nil_append]
  refine (perm_ext_iff_of_nodup after.once.of_map once.of_map).mpr (fun result => ?_)
  rw [show result = (result.1,result.2) from rfl,exact',after.mirrored]
  constructor
  · exact fun emitted => ⟨.inr emitted,(after.passed result emitted).trans_eq reached⟩
  · rintro ⟨held | emitted,past⟩
    · have future := after.waiting _ _ held
      rw [reached] at future
      omega
    · exact emitted

end WindowOperator

/-- Parallel watermark operators, their output lanes, and the task that they feed;
`arrived` are the records that the task has processed. -/
structure Pipeline (ι κ β τ : Type) where
  operators : ι → WatermarkOperator τ
  lanes : ι → List (StreamElement (Record β))
  tracker : InputWatermarkTracker ι
  window : WindowOperator κ β
  arrived : List (Record β)

inductive PipelineLabel (ι β τ : Type) where
  | feed (lane : ι) (block : β) (now : τ)
  | deliver (lane : ι)

namespace Pipeline
variable {ι κ β τ : Type} [DecidableEq ι] [DecidableEq κ]
variable (strategy : WatermarkStrategy β) (c : WindowConfig κ β) (inputs : List ι)

def init (now : τ) : Pipeline ι κ β τ where
  operators := fun _ => WatermarkOperator.init now
  lanes := fun _ => []
  tracker := InputWatermarkTracker.init inputs
  window := WindowOperator.init
  arrived := []

/-- `apply_event_time_controls` before a window operator. -/
def applyControl (window : WindowOperator κ β) : StreamControl → WindowOperator κ β
  | .watermark timestamp => window.onEventTimeWatermark c timestamp
  | .inputIdle => window
  | .inputActive _ => window

def step (p : Pipeline ι κ β τ) : PipelineLabel ι β τ → Option (Pipeline ι κ β τ)
  | .feed lane block now =>
    if lane ∉ inputs then none
    else match (p.operators lane).processElement strategy now block with
    | .error _ => none
    | .ok (operator,sent) => some {p with
      operators := Function.update p.operators lane operator
      lanes := Function.update p.lanes lane (p.lanes lane ++ sent)}
  | .deliver lane =>
    match p.lanes lane with
    | [] => none
    | .record record::rest => some {p with
      lanes := Function.update p.lanes lane rest
      window := p.window.processManagedElement c record.block record.timestamp
      arrived := p.arrived ++ [record]}
    | .control control::rest =>
      let (tracker,outputs) := p.tracker.onControl lane control
      some {p with
        lanes := Function.update p.lanes lane rest
        tracker
        window := outputs.foldl (applyControl c) p.window}

def InBound (p : Pipeline ι κ β τ) : PipelineLabel ι β τ → Prop
  | .feed lane block _ => ∀ timestamp, strategy.timestampAssigner block = .integer timestamp →
    (p.operators lane).maxTimestamp - strategy.maxOutOfOrdernessMs ≤ timestamp
  | .deliver _ => True

def InTime (p : Pipeline ι κ β τ) : PipelineLabel ι β τ → Prop
  | .feed _ block _ => ∀ timestamp, strategy.timestampAssigner block = .integer timestamp → timestamp ≤ maxWatermark
  | .deliver lane => ∀ record rest, p.lanes lane = .record record::rest →
    ¬ p.window.Collides c record.block record.timestamp

def reference (records : List (Record β)) : WindowOperator κ β :=
  records.foldl (fun window record => window.processManagedElement c record.block record.timestamp) WindowOperator.init

inductive Orderly : Int → List (StreamElement (Record β)) → Int → Prop where
  | nil (mark : Int) : Orderly mark [] mark
  | record (mark last : Int) (record : Record β) (rest : List (StreamElement (Record β)))
      (above : mark ≤ record.timestamp) (valid : 0 ≤ record.timestamp) (after : Orderly mark rest last) :
      Orderly mark (.record record::rest) last
  | watermark (mark last : Int) (timestamp : Nat) (rest : List (StreamElement (Record β))) (rises : mark < timestamp)
      (bounded : timestamp ≤ maxWatermark) (after : Orderly timestamp rest last) :
      Orderly mark (.control (.watermark timestamp)::rest) last

omit [DecidableEq ι] [DecidableEq κ] in
theorem Orderly.append (mark middle last : Int) (first second : List (StreamElement (Record β)))
    (orderly : Orderly mark first middle) (orderly' : Orderly middle second last) : Orderly mark (first ++ second) last := by
  induction orderly with
  | nil => exact orderly'
  | record mark _ record rest above valid _ ih => exact .record mark last record _ above valid (ih orderly')
  | watermark mark _ timestamp rest rises bounded _ ih => exact .watermark mark last timestamp _ rises bounded (ih orderly')

structure LaneFlows (p : Pipeline ι κ β τ) (lane : ι) (mark : Int) : Prop where
  known : p.tracker.inputs.get? lane = some (InputWatermarkTracker.told ⟨mark,false⟩)
  behind : p.tracker.outputWatermark ≤ mark
  bounded : mark ≤ maxWatermark
  orderly : Orderly mark (p.lanes lane) (p.operators lane).lastEmittedWatermark
  awake : (p.operators lane).idle = false
  own : (p.operators lane).lastEmittedWatermark =
    WatermarkTask.ownWatermark strategy.maxOutOfOrdernessMs (p.operators lane).maxTimestamp
  largest : -1 ≤ (p.operators lane).maxTimestamp ∧ (p.operators lane).maxTimestamp ≤ maxWatermark

structure Flows (p : Pipeline ι κ β τ) : Prop where
  mirrors : WindowOperator.Mirrors c p.window (reference c p.arrived)
  current : p.window.currentWatermark = p.tracker.outputWatermark
  start : -1 ≤ p.tracker.outputWatermark ∧ p.tracker.outputWatermark ≤ maxWatermark
  settled : ∀ minimum, p.tracker.candidate = some minimum → (minimum : Int) ≤ p.tracker.outputWatermark
  lanes : ∀ lane ∈ inputs, ∃ mark, LaneFlows strategy p lane mark
  others : ∀ lane, lane ∉ inputs → p.tracker.inputs.get? lane = none ∧ p.lanes lane = []

section flow
variable (p : Pipeline ι κ β τ)

omit [DecidableEq κ] in
theorem candidate_fresh (t : InputWatermarkTracker ι)
    (fresh : ∀ input state, t.inputs.get? input = some state → state.watermark = none) : t.candidate = none := by
  apply eq_none_iff_forall_not_mem.mpr
  intro minimum found
  obtain ⟨⟨input,reported⟩,-⟩ := (t.candidate_eq_some minimum).mp found
  have nothing := fresh input _ reported
  contradiction

omit [DecidableEq ι] [DecidableEq κ] in
theorem processElement_orderly (o operator : WatermarkOperator τ) (now : τ) (block : β)
    (sent : List (StreamElement (Record β))) (awake : o.idle = false)
    (own : o.lastEmittedWatermark = WatermarkTask.ownWatermark strategy.maxOutOfOrdernessMs o.maxTimestamp)
    (largest : -1 ≤ o.maxTimestamp ∧ o.maxTimestamp ≤ maxWatermark)
    (inBound : ∀ timestamp, strategy.timestampAssigner block = .integer timestamp →
      o.maxTimestamp - strategy.maxOutOfOrdernessMs ≤ timestamp)
    (inTime : ∀ timestamp, strategy.timestampAssigner block = .integer timestamp → timestamp ≤ maxWatermark)
    (processed : o.processElement strategy now block = .ok (operator,sent)) :
    Orderly o.lastEmittedWatermark sent operator.lastEmittedWatermark ∧ operator.idle = false ∧
      operator.lastEmittedWatermark =
        WatermarkTask.ownWatermark strategy.maxOutOfOrdernessMs operator.maxTimestamp ∧
      -1 ≤ operator.maxTimestamp ∧ operator.maxTimestamp ≤ maxWatermark := by
  cases assigned : strategy.timestampAssigner block with
  | other =>
    unfold WatermarkOperator.processElement at processed
    rw [assigned] at processed
    contradiction
  | integer timestamp =>
    by_cases invalid : timestamp < 0
    · unfold WatermarkOperator.processElement at processed
      rw [assigned] at processed
      dsimp only at processed
      rw [if_pos invalid] at processed
      contradiction
    have valid : 0 ≤ timestamp := by omega
    have near := inBound timestamp assigned
    have low := inTime timestamp assigned
    have candidate : o.candidate strategy timestamp =
        max o.maxTimestamp timestamp - strategy.maxOutOfOrdernessMs := rfl
    have quiet : o.resume (β := β) = [] := by
      unfold WatermarkOperator.resume
      rw [awake]
      rfl
    have above : o.lastEmittedWatermark ≤ timestamp := by
      rw [own]
      unfold WatermarkTask.ownWatermark
      split <;> omega
    rw [WatermarkTask.processElement_ok strategy o now block timestamp assigned valid,quiet,nil_append] at processed
    unfold WatermarkTask.ownWatermark at own
    split at processed
    next rises =>
      obtain ⟨rfl,rfl⟩ := Prod.mk.inj (Except.ok.inj processed)
      have stamped : (((o.candidate strategy timestamp).toNat : Nat) : Int) = o.candidate strategy timestamp :=
        Int.toNat_of_nonneg rises.1
      refine ⟨?_,rfl,?_,by dsimp only; omega,by dsimp only; omega⟩
      · refine .record _ _ _ _ above valid (.watermark _ _ _ _ (by omega) (by omega) ?_)
        rw [stamped]
        exact .nil _
      · unfold WatermarkTask.ownWatermark
        rw [if_pos (by dsimp only; omega)]
        exact candidate
    next still =>
      obtain ⟨rfl,rfl⟩ := Prod.mk.inj (Except.ok.inj processed)
      refine ⟨.record _ _ _ _ above valid (.nil _),rfl,?_,by dsimp only; omega,by dsimp only; omega⟩
      unfold WatermarkTask.ownWatermark
      dsimp only
      split at own <;> split <;> omega

theorem Flows.init (now : τ) : Flows strategy c inputs (Pipeline.init (κ := κ) (β := β) inputs now) := by
  have known (lane : ι) := Dict.get?_ofKeys inputs (fun _ => InputState.new) lane
  constructor
  case mirrors => exact WindowOperator.Mirrors.init c
  case current => rfl
  case start =>
    refine ⟨Int.le_refl _,?_⟩
    change (-1 : Int) ≤ maxWatermark
    omega
  case settled =>
    intro minimum found
    rw [candidate_fresh] at found
    · contradiction
    · intro input state stored
      have same := (known input).symm.trans stored
      obtain ⟨-,fresh⟩ := ite_none_right_eq_some.mp same
      rw [← some.inj fresh]
      rfl
  case lanes =>
    intro lane inside
    have negative : ¬ (0 : Int) ≤ -1 - strategy.maxOutOfOrdernessMs := by omega
    refine ⟨-1,?_⟩
    constructor
    case known => exact (known lane).trans (if_pos inside)
    case behind => exact Int.le_refl _
    case bounded => omega
    case orderly => exact .nil _
    case awake => rfl
    case own => exact (if_neg negative).symm
    case largest =>
      refine ⟨Int.le_refl _,?_⟩
      change (-1 : Int) ≤ maxWatermark
      omega
  case others =>
    intro lane outside
    exact ⟨(known lane).trans (if_neg outside),rfl⟩

variable (flows : Flows strategy c inputs p)

include flows in
theorem Flows.feed (lane : ι) (block : β) (now : τ) (inBound : InBound strategy p (.feed lane block now))
    (inTime : InTime strategy c p (.feed lane block now)) (next : Pipeline ι κ β τ)
    (stepped : p.step strategy c inputs (.feed lane block now) = some next) : Flows strategy c inputs next := by
  by_cases outside : lane ∉ inputs
  · rw [step,if_pos outside] at stepped
    contradiction
  have inside : lane ∈ inputs := by simpa using outside
  rw [step,if_neg outside] at stepped
  cases processed : (p.operators lane).processElement strategy now block with
  | error message =>
    rw [processed] at stepped
    contradiction
  | ok result =>
    obtain ⟨operator,sent⟩ := result
    rw [processed] at stepped
    obtain rfl := some.inj stepped
    obtain ⟨mark,before⟩ := flows.lanes lane inside
    obtain ⟨orderly,awake,own,largest⟩ := processElement_orderly strategy _ operator now block sent before.awake
      before.own before.largest inBound inTime processed
    refine {flows with lanes := ?lanes,others := ?others}
    case lanes =>
      intro other inside'
      by_cases same : other = lane
      · subst same
        refine ⟨mark,before.known,before.behind,before.bounded,?_,?_,?_,?_⟩ <;>
          simp only [update_self]
        · exact before.orderly.append _ _ _ _ _ orderly
        · exact awake
        · exact own
        · exact largest
      · obtain ⟨mark',kept⟩ := flows.lanes other inside'
        refine ⟨mark',kept.known,kept.behind,kept.bounded,?_,?_,?_,?_⟩ <;>
          simp only [update_of_ne same]
        · exact kept.orderly
        · exact kept.awake
        · exact kept.own
        · exact kept.largest
    case others =>
      intro other outside'
      obtain ⟨unknown,nothing⟩ := flows.others other outside'
      have different : other ≠ lane := fun same => outside' (same ▸ inside)
      exact ⟨unknown,(update_of_ne different _ _).trans nothing⟩

omit [DecidableEq ι] in
theorem apply_rises (window replay : WindowOperator κ β) (before last : Int) (outputs : List StreamControl)
    (rises : Rises before outputs last) (current : window.currentWatermark = before)
    (mirrors : WindowOperator.Mirrors c window replay) :
    (outputs.foldl (applyControl c) window).currentWatermark = last ∧
      WindowOperator.Mirrors c (outputs.foldl (applyControl c) window) replay := by
  induction rises generalizing window with
  | nil => exact ⟨current,mirrors⟩
  | watermark before last timestamp rest less _ ih =>
    apply ih
    · exact (WindowOperator.onEventTimeWatermark_fires c window mirrors.scheduled timestamp
        (by rw [current]; exact less)).currentWatermark
    · exact mirrors.watermark c window replay timestamp
  | inputIdle before last rest _ ih => exact ih window current mirrors
  | inputActive before last resume rest _ ih => exact ih window current mirrors

theorem told_watermark (mark : Int) (low : -1 ≤ mark) (timestamp : Nat) (rises : mark < timestamp) :
    (InputWatermarkTracker.told ⟨mark,false⟩).after (.watermark timestamp) =
      InputWatermarkTracker.told ⟨timestamp,false⟩ := by
  by_cases fresh : mark < 0
  · have valid : ¬ ((timestamp : Nat) : Int) < 0 := by omega
    simp [InputWatermarkTracker.told,InputState.after,fresh,valid]
  · have valid : ¬ ((timestamp : Nat) : Int) < 0 := by omega
    have newer : max mark.toNat timestamp = timestamp := by omega
    simp [InputWatermarkTracker.told,InputState.after,fresh,valid,newer]

include flows in
theorem Flows.deliverRecord (lane : ι) (record : Record β) (rest : List (StreamElement (Record β)))
    (waiting : p.lanes lane = .record record::rest) (apart : ¬ p.window.Collides c record.block record.timestamp)
    (commutative : ∀ first second, c.reduceFunction first second = c.reduceFunction second first)
    (associative : ∀ first second third, c.reduceFunction (c.reduceFunction first second) third =
      c.reduceFunction first (c.reduceFunction second third)) : Flows strategy c inputs {
        p with
        lanes := Function.update p.lanes lane rest
        window := p.window.processManagedElement c record.block record.timestamp
        arrived := p.arrived ++ [record]
      } := by
  have inside : lane ∈ inputs := by
    by_contra outside
    rw [(flows.others lane outside).2] at waiting
    contradiction
  obtain ⟨mark,before⟩ := flows.lanes lane inside
  have orderly := before.orderly
  rw [waiting] at orderly
  cases orderly with
  | record _ _ _ _ above valid after =>
    have timely : p.window.currentWatermark ≤ record.timestamp := by
      rw [flows.current]
      exact Int.le_trans before.behind above
    obtain ⟨watermark,mirrors⟩ := flows.mirrors.record c p.window (reference c p.arrived) record.block record.timestamp
      timely valid apart commutative associative
    have replay : reference c (p.arrived ++ [record]) =
        (reference c p.arrived).processManagedElement c record.block record.timestamp := by
      unfold reference
      rw [foldl_append]
      rfl
    refine {flows with
      mirrors := ?mirrors,current := watermark.trans flows.current,lanes := ?lanes,others := ?others}
    case mirrors =>
      dsimp only
      rw [replay]
      exact mirrors
    case lanes =>
      intro other inside'
      by_cases same : other = lane
      · subst same
        refine ⟨mark,{before with orderly := ?_}⟩
        simp only [update_self]
        exact after
      · obtain ⟨mark',kept⟩ := flows.lanes other inside'
        refine ⟨mark',{kept with orderly := ?_}⟩
        simp only [update_of_ne same]
        exact kept.orderly
    case others =>
      intro other outside
      obtain ⟨unknown,nothing⟩ := flows.others other outside
      have different : other ≠ lane := fun same => outside (same ▸ inside)
      exact ⟨unknown,(update_of_ne different _ _).trans nothing⟩

include flows in
theorem Flows.deliverControl (lane : ι) (control : StreamControl) (rest : List (StreamElement (Record β)))
    (waiting : p.lanes lane = .control control::rest) : Flows strategy c inputs {
        p with
        lanes := Function.update p.lanes lane rest
        tracker := (p.tracker.onControl lane control).1
        window := (p.tracker.onControl lane control).2.foldl (applyControl c) p.window
      } := by
  have inside : lane ∈ inputs := by
    by_contra outside
    rw [(flows.others lane outside).2] at waiting
    contradiction
  obtain ⟨mark,before⟩ := flows.lanes lane inside
  have orderly := before.orderly
  rw [waiting] at orderly
  cases orderly with
  | watermark _ _ timestamp _ rises bounded after =>
    have low : -1 ≤ mark := Int.le_trans flows.start.1 before.behind
    have state : p.tracker.stateOf lane = InputWatermarkTracker.told ⟨mark,false⟩ := by
      simp [InputWatermarkTracker.stateOf,before.known]
    have inputs' (other : ι) : (p.tracker.onControl lane (.watermark timestamp)).1.inputs.get? other =
        if other = lane then some (InputWatermarkTracker.told ⟨timestamp,false⟩) else p.tracker.inputs.get? other := by
      rw [p.tracker.onControl_get?,state,told_watermark mark low timestamp rises]
    have counted : ¬ p.tracker.Overlooks (.onControl lane (.watermark timestamp)) := by
      rintro ⟨asleep,-⟩
      have idle := asleep lane _ before.known
      contradiction
    have progress : (p.tracker.onControl lane (.watermark timestamp)).1.outputWatermark =
        raise p.tracker.outputWatermark (p.tracker.onControl lane (.watermark timestamp)).1.candidate :=
      (p.tracker.call_progress flows.settled (.onControl lane (.watermark timestamp))).mpr counted
    have moved := p.tracker.call_rises (.onControl lane (.watermark timestamp))
    dsimp only [InputWatermarkTracker.call] at moved
    generalize p.tracker.onControl lane (.watermark timestamp) = called at inputs' progress moved ⊢
    obtain ⟨current,mirrors⟩ := apply_rises c p.window (reference c p.arrived) _ _ _ moved flows.current flows.mirrors
    -- the aggregate is at most what any lane has reported
    have below (other : ι) (mark' : Int) (low' : p.tracker.outputWatermark ≤ mark')
        (known : called.1.inputs.get? other = some (InputWatermarkTracker.told ⟨mark',false⟩)) :
        called.1.outputWatermark ≤ mark' := by
      rw [progress]
      cases found : called.1.candidate with
      | none => exact low'
      | some minimum =>
        obtain ⟨-,all⟩ := (called.1.candidate_eq_some minimum).mp found
        obtain ⟨watermark,told,least⟩ := all other _ known rfl
        simp only [InputWatermarkTracker.told,ite_none_left_eq_some,Option.some.injEq] at told
        rw [raise]
        omega
    have known := (inputs' lane).trans (if_pos rfl)
    have under := below lane timestamp (by
      have behind := before.behind
      omega) known
    have grows : p.tracker.outputWatermark ≤ called.1.outputWatermark := by
      rw [progress]
      cases called.1.candidate with
      | none => exact Int.le_refl _
      | some minimum => exact Int.le_max_left _ _
    constructor
    case mirrors => exact mirrors
    case current => exact current
    case start =>
      have start := flows.start
      dsimp only
      omega
    case settled =>
      intro minimum found
      dsimp only at found ⊢
      rw [progress,found,raise]
      exact Int.le_max_right _ _
    case lanes =>
      intro other inside'
      by_cases same : other = lane
      · subst same
        refine ⟨timestamp,known,under,by omega,?_,before.awake,before.own,before.largest⟩
        simp only [update_self]
        exact after
      · obtain ⟨mark',kept⟩ := flows.lanes other inside'
        have known' := ((inputs' other).trans (if_neg same)).trans kept.known
        refine ⟨mark',known',below other mark' kept.behind known',kept.bounded,?_,kept.awake,kept.own,kept.largest⟩
        simp only [update_of_ne same]
        exact kept.orderly
    case others =>
      intro other outside
      obtain ⟨unknown,nothing⟩ := flows.others other outside
      have different : other ≠ lane := fun same => outside (same ▸ inside)
      exact ⟨((inputs' other).trans (if_neg different)).trans unknown,(update_of_ne different _ _).trans nothing⟩

end flow

section run
variable (commutative : ∀ first second, c.reduceFunction first second = c.reduceFunction second first)
variable (associative : ∀ first second third, c.reduceFunction (c.reduceFunction first second) third =
  c.reduceFunction first (c.reduceFunction second third))

include commutative associative in
theorem Flows.step (p next : Pipeline ι κ β τ) (label : PipelineLabel ι β τ) (flows : Flows strategy c inputs p)
    (inBound : InBound strategy p label) (inTime : InTime strategy c p label)
    (stepped : p.step strategy c inputs label = some next) : Flows strategy c inputs next := by
  cases label with
  | feed lane block now => exact flows.feed strategy c inputs p lane block now inBound inTime next stepped
  | deliver lane =>
    rw [Pipeline.step] at stepped
    cases waiting : p.lanes lane with
    | nil =>
      rw [waiting] at stepped
      contradiction
    | cons element rest =>
      rw [waiting] at stepped
      cases element with
      | record record =>
        rw [← some.inj stepped]
        exact flows.deliverRecord strategy c inputs p lane record rest waiting (inTime record rest waiting)
          commutative associative
      | control control =>
        rw [← some.inj stepped]
        exact flows.deliverControl strategy c inputs p lane control rest waiting

include commutative associative in
/-- Records within the bound that collide with no watermark are never dropped, and
the run with the final watermark emits what the records alone would. -/
theorem in_bound_records_never_late (now : τ) (labels : List (PipelineLabel ι β τ)) (final : Pipeline ι κ β τ)
    (run : Runs.exec (Pipeline.step strategy c inputs) (init inputs now) labels = some final)
    (inBound : Runs.Along (Pipeline.step strategy c inputs) (InBound strategy) (init inputs now) labels)
    (inTime : Runs.Along (Pipeline.step strategy c inputs) (InTime strategy c) (init inputs now) labels) :
    final.window.lateDrops = 0 ∧ (final.window.onEventTimeWatermark c maxWatermark).results.Perm
      ((reference c final.arrived).onEventTimeWatermark c maxWatermark).results := by
  have flows := Runs.exec_invariant _ _ (Flows strategy c inputs)
    (fun p label next flows meets stepped =>
      flows.step strategy c inputs commutative associative p next label meets.1 meets.2 stepped)
    labels _ final (Flows.init strategy c inputs now) (inBound.and _ _ _ _ _ inTime) run
  have start := flows.start
  refine ⟨flows.mirrors.undropped,flows.mirrors.final c _ _ maxWatermark ?_ (by omega)⟩
  rw [flows.current]
  exact start.2

end run

instance (o : WindowOperator κ β) (block : β) (timestamp : Int) : Decidable (o.Collides c block timestamp) :=
  inferInstanceAs (Decidable (_ ∧ _ ∧ (_ ∨ _)))

instance (p : Pipeline ι κ β τ) (label : PipelineLabel ι β τ) : Decidable (InBound strategy p label) :=
  match label with
  | .feed lane block _ => match assigned : strategy.timestampAssigner block with
    | .integer timestamp =>
      decidable_of_iff ((p.operators lane).maxTimestamp - strategy.maxOutOfOrdernessMs ≤ timestamp) (by
        simp [InBound,assigned])
    | .other => .isTrue (by simp [InBound,assigned])
  | .deliver _ => .isTrue trivial

instance (p : Pipeline ι κ β τ) (label : PipelineLabel ι β τ) : Decidable (InTime strategy c p label) :=
  match label with
  | .feed lane block _ => match assigned : strategy.timestampAssigner block with
    | .integer timestamp => decidable_of_iff (timestamp ≤ maxWatermark) (by simp [InTime,assigned])
    | .other => .isTrue (by simp [InTime,assigned])
  | .deliver lane => match waiting : p.lanes lane with
    | .record record::rest => decidable_of_iff (¬ p.window.Collides c record.block record.timestamp) (by
        simp [InTime,waiting])
    | .control _::_ => .isTrue (by simp [InTime,waiting])
    | [] => .isTrue (by simp [InTime,waiting])

def ascending : WatermarkStrategy Nat := ⟨fun block => .integer block,0,none⟩

def tens : WindowConfig Unit Nat where
  keySelector := fun _ => ()
  assigner := .tumbling 10 0 (by decide)
  reduceFunction := (· + ·)
  allowedLatenessMs := 0
  rank := fun window => window.start.toNat
  digest := fun _ window => window.start.toNat

/-- Two inputs, and a window that closes before the last record. -/
theorem closed_windows_stay_closed : ∃ final,
    Runs.exec (Pipeline.step ascending tens [false,true]) (init (κ := Unit) [false,true] ())
      [.feed false 4 (),.feed true 8 (),.deliver true,.deliver false,.deliver true,.deliver false,.feed false 12 (),
        .feed true 12 (),.deliver false,.deliver true,.deliver false,.deliver true,.feed true 15 (),.deliver true] =
      some final ∧ final.window.lateDrops = 0 ∧ (final.window.onEventTimeWatermark tens maxWatermark).results.Perm
        ((reference tens final.arrived).onEventTimeWatermark tens maxWatermark).results := by
  obtain ⟨final,run,-⟩ := Runs.exec_check (Pipeline.step ascending tens [false,true]) (init (κ := Unit) [false,true] ())
    [.feed false 4 (),.feed true 8 (),.deliver true,.deliver false,.deliver true,.deliver false,.feed false 12 (),
      .feed true 12 (),.deliver false,.deliver true,.deliver false,.deliver true,.feed true 15 (),.deliver true]
    (fun _ => True) (by decide +kernel)
  exact ⟨final,run,in_bound_records_never_late ascending tens [false,true] Nat.add_comm Nat.add_assoc () _ final run
    (by decide +kernel) (by decide +kernel)⟩

/-- The second of two equal timestamps comes after the window they both belong to. -/
theorem equal_timestamp_dropped : ¬ ∀ (labels : List (PipelineLabel Unit Nat Unit)) (final : Pipeline Unit Unit Nat Unit),
    Runs.exec (Pipeline.step ascending tens [()]) (init [()] ()) labels = some final →
    Runs.Along (Pipeline.step ascending tens [()]) (InBound ascending) (init (κ := Unit) [()] ()) labels →
    final.window.lateDrops = 0 := by
  intro never
  obtain ⟨final,run,dropped⟩ := Runs.exec_check (Pipeline.step ascending tens [()]) (init (κ := Unit) [()] ())
    [.feed () 9 (),.feed () 9 (),.deliver (),.deliver (),.deliver ()] (fun final => final.window.lateDrops = 1)
    (by decide +kernel)
  rw [never _ final run (by decide +kernel)] at dropped
  contradiction

end Pipeline
end Klein.EventTime
