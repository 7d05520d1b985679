import Klein.EventTime.TrackerStream

/-! A task that runs a watermark operator (`runtime/operator/watermark_operator.py`):
the operator's own controls and the aggregated controls of its inputs
(`InboxPump.apply_event_time_controls`) leave on one stream. -/
namespace Klein.EventTime
open List

@[irreducible] def maxWatermark : Nat := 2 ^ 63 - 1

theorem maxWatermark_pos : 0 < maxWatermark := by
  unfold maxWatermark
  omega

inductive Assigned where
  | integer (value : Int)
  | other
deriving DecidableEq, Repr

structure WatermarkStrategy (β : Type) where
  timestampAssigner : β → Assigned
  maxOutOfOrdernessMs : Nat
  idleTimeoutMs : Option Nat

structure Record (β : Type) where
  block : β
  timestamp : Int
deriving DecidableEq, Repr

/-- `τ` are the readings of the monotonic clock. -/
structure WatermarkOperator (τ : Type) where
  maxTimestamp : Int
  lastEmittedWatermark : Int
  lastRecordMonotonic : τ
  idle : Bool

namespace WatermarkOperator
variable {β τ : Type} (strategy : WatermarkStrategy β)

def init (now : τ) : WatermarkOperator τ := ⟨-1,-1,now,false⟩

def invalidTimestamp : String := "watermark timestamp assigners must return a non-negative integer"

variable (o : WatermarkOperator τ)

def resume : List (StreamElement (Record β)) :=
  if o.idle then
    [.control (.inputActive (if o.lastEmittedWatermark < 0 then none else some o.lastEmittedWatermark.toNat))]
  else []

def candidate (timestamp : Int) : Int := max o.maxTimestamp timestamp - strategy.maxOutOfOrdernessMs

/-- `process_element` -/
def processElement (now : τ) (block : β) :
    Except String (WatermarkOperator τ × List (StreamElement (Record β))) :=
  match strategy.timestampAssigner block with
  | .other => .error invalidTimestamp
  | .integer timestamp =>
    if timestamp < 0 then .error invalidTimestamp
    else
      let seen : WatermarkOperator τ :=
        ⟨max o.maxTimestamp timestamp,o.lastEmittedWatermark,now,false⟩
      let sent := o.resume ++ [.record ⟨block,timestamp⟩]
      let candidate := o.candidate strategy timestamp
      if 0 ≤ candidate ∧ o.lastEmittedWatermark < candidate then
        .ok ({seen with lastEmittedWatermark := candidate},sent ++ [.control (.watermark candidate.toNat)])
      else .ok (seen,sent)

/-- `on_idle`; `timedOut` compares the time between two readings of the clock with
a number of milliseconds. -/
def onIdle (timedOut : τ → τ → Nat → Bool) (now : τ) : WatermarkOperator τ × List (StreamElement (Record β)) :=
  match strategy.idleTimeoutMs with
  | none => (o,[])
  | some timeout =>
    if o.idle then (o,[])
    else if timedOut now o.lastRecordMonotonic timeout then ({o with idle := true},[.control .inputIdle])
    else (o,[])

/-- `on_input_idle` and `on_input_active`; a watermark of the inputs is no concern
of the operator. -/
def onInputControl (now : τ) : StreamControl → WatermarkOperator τ
  | .watermark _ => o
  | .inputIdle => {o with idle := true}
  | .inputActive _ => {o with idle := false,lastRecordMonotonic := now}

end WatermarkOperator

structure WatermarkTask (ι β τ : Type) where
  tracker : InputWatermarkTracker ι
  operator : WatermarkOperator τ
  sent : List (StreamElement (Record β))

inductive TaskEvent (ι β τ : Type) where
  | record (block : β) (now : τ)
  | idleCheck (now : τ)
  | upstream (call : TrackerCall ι) (now : τ)

namespace WatermarkTask
variable {ι β τ : Type} [DecidableEq ι] (strategy : WatermarkStrategy β) (timedOut : τ → τ → Nat → Bool)

def init (inputs : List ι) (now : τ) : WatermarkTask ι β τ :=
  ⟨InputWatermarkTracker.init inputs,WatermarkOperator.init now,[]⟩

/-- `apply_event_time_controls`: the operator hears of each control and it is sent on. -/
def applyEventTimeControls (now : τ) (operator : WatermarkOperator τ) (controls : List StreamControl) :
    WatermarkOperator τ := controls.foldl (fun operator control => operator.onInputControl now control) operator

def step (task : WatermarkTask ι β τ) : TaskEvent ι β τ → WatermarkTask ι β τ
  | .record block now =>
    match task.operator.processElement strategy now block with
    | .error _ => task
    | .ok (operator,sent) => {task with operator,sent := task.sent ++ sent}
  | .idleCheck now =>
    let (operator,sent) := task.operator.onIdle strategy timedOut now
    {task with operator,sent := task.sent ++ sent}
  | .upstream call now =>
    let (tracker,controls) := task.tracker.call call
    ⟨tracker,applyEventTimeControls now task.operator controls,task.sent ++ controls.map StreamElement.control⟩

def run (task : WatermarkTask ι β τ) (events : List (TaskEvent ι β τ)) : WatermarkTask ι β τ :=
  events.foldl (step strategy timedOut) task

end WatermarkTask

def largestTimestamp {β : Type} (largest : Int) (elements : List (StreamElement (Record β))) : Int :=
  elements.foldl (fun largest element => match element with
    | .record record => max largest record.timestamp
    | .control _ => largest) largest

def Covered {β : Type} (bound : Nat) : Int → List (StreamElement (Record β)) → Prop
  | _,[] => True
  | largest,.record record::rest => Covered bound (max largest record.timestamp) rest
  | largest,.control (.watermark timestamp)::rest =>
    (timestamp = maxWatermark ∨ (timestamp : Int) ≤ largest - bound) ∧ Covered bound largest rest
  | largest,.control .inputIdle::rest => Covered bound largest rest
  | largest,.control (.inputActive _)::rest => Covered bound largest rest

def SpeaksForStrategy {β : Type} (bound : Nat) (stream : List (StreamElement (Record β))) : Prop :=
  WellFormed Shown.start stream ∧ Covered bound (-1) stream

inductive Rises : Int → List StreamControl → Int → Prop where
  | nil (last : Int) : Rises last [] last
  | watermark (before last : Int) (timestamp : Nat) (rest : List StreamControl) (rises : before < timestamp)
      (after : Rises timestamp rest last) : Rises before (.watermark timestamp::rest) last
  | inputIdle (before last : Int) (rest : List StreamControl) (after : Rises before rest last) :
      Rises before (.inputIdle::rest) last
  | inputActive (before last : Int) (resume : Option Nat) (rest : List StreamControl) (after : Rises before rest last) :
      Rises before (.inputActive resume::rest) last

theorem Rises.append (before middle last : Int) (first second : List StreamControl) (rises : Rises before first middle)
    (rises' : Rises middle second last) : Rises before (first ++ second) last := by
  induction rises with
  | nil => exact rises'
  | watermark before _ timestamp rest less _ ih => exact .watermark before last timestamp _ less (ih rises')
  | inputIdle before _ rest _ ih => exact .inputIdle before last _ (ih rises')
  | inputActive before _ resume rest _ ih => exact .inputActive before last resume _ (ih rises')

namespace InputWatermarkTracker
variable {ι : Type} (t next : InputWatermarkTracker ι) (same : next.outputWatermark = t.outputWatermark)

include same in
theorem advance_rises : Rises t.outputWatermark next.advance.2 next.advance.1.outputWatermark := by
  rw [← same]
  unfold advance
  split
  · exact .nil _
  split
  · exact .nil _
  · exact .watermark _ _ _ _ (by omega) (.nil _)

include same in
theorem reactivateAndAdvance_rises (shouldReactivate due : Bool) : Rises t.outputWatermark
    (next.reactivateAndAdvance shouldReactivate due).2
    (next.reactivateAndAdvance shouldReactivate due).1.outputWatermark := by
  have wakes : Rises t.outputWatermark (next.reactivateOutput shouldReactivate).2
      (next.reactivateOutput shouldReactivate).1.outputWatermark := by
    rw [← same]
    cases shouldReactivate
    · exact .nil _
    · exact .inputActive _ _ _ _ (.nil _)
  rw [reactivateAndAdvance_eq]
  cases due
  · exact wakes
  · exact wakes.append _ _ _ _ _ (advance_rises (next.reactivateOutput shouldReactivate).1 _ rfl)

include same in
theorem idleOutput_rises : Rises t.outputWatermark next.idleOutput.2 next.idleOutput.1.outputWatermark := by
  rw [← same]
  unfold idleOutput
  split
  · exact .nil _
  · exact .inputIdle _ _ _ (.nil _)

variable [DecidableEq ι]

theorem call_rises (call : TrackerCall ι) :
    Rises t.outputWatermark (t.call call).2 (t.call call).1.outputWatermark := by
  cases call with
  | reconfigureInputs inputIds =>
    dsimp only [InputWatermarkTracker.call,reconfigureInputs]
    split
    · exact .nil _
    split
    · apply idleOutput_rises
      rfl
    · apply reactivateAndAdvance_rises
      rfl
  | onControl sender control =>
    cases control with
    | watermark timestamp =>
      dsimp only [InputWatermarkTracker.call,onControl,onWatermark]
      apply reactivateAndAdvance_rises
      rfl
    | inputIdle =>
      change Rises t.outputWatermark ((t.admitted sender).onIdle sender (t.stateOf sender)).2
        ((t.admitted sender).onIdle sender (t.stateOf sender)).1.outputWatermark
      dsimp only [onIdle]
      split
      · exact .nil _
      split
      · apply idleOutput_rises
        rfl
      · apply advance_rises
        rfl
    | inputActive resumeWatermark =>
      dsimp only [InputWatermarkTracker.call,onControl,onActive]
      apply reactivateAndAdvance_rises
      rfl

end InputWatermarkTracker

def SpeaksFrom {β : Type} (bound : Nat) (shown : Shown) (largest : Int) (stream : List (StreamElement (Record β))) :
    Prop := WellFormed shown stream ∧ Covered bound largest stream

theorem Covered.append {β : Type} (bound : Nat) (largest : Int) (first second : List (StreamElement (Record β))) :
    Covered bound largest (first ++ second) ↔
      Covered bound largest first ∧ Covered bound (largestTimestamp largest first) second := by
  induction first generalizing largest with
  | nil => simp [Covered,largestTimestamp]
  | cons element rest ih =>
    cases element with
    | record record => exact ih (max largest record.timestamp)
    | control control =>
      cases control with
      | watermark timestamp => exact (and_congr_right (fun _ => ih largest)).trans and_assoc.symm
      | inputIdle => exact ih largest
      | inputActive resume => exact ih largest

theorem SpeaksFrom.append {β : Type} (bound : Nat) (shown : Shown) (largest : Int)
    (first second : List (StreamElement (Record β))) : SpeaksFrom bound shown largest (first ++ second) ↔
      SpeaksFrom bound shown largest first ∧
        SpeaksFrom bound (shownBy shown first) (largestTimestamp largest first) second := by
  unfold SpeaksFrom
  rw [WellFormed.append,Covered.append]
  tauto

namespace WatermarkTask
variable {ι β τ : Type} [DecidableEq ι] (strategy : WatermarkStrategy β)

def Agrees (lastEmitted : Int) : Bool → List StreamControl → Prop
  | _,[] => True
  | idle,.watermark timestamp::rest =>
    (timestamp = maxWatermark ∧ idle = false ∧ lastEmitted < maxWatermark) ∧ Agrees lastEmitted idle rest
  | idle,.inputIdle::rest => idle = false ∧ Agrees lastEmitted true rest
  | idle,.inputActive _::rest => idle = true ∧ Agrees lastEmitted false rest

def Keeps (task : WatermarkTask ι β τ) : TaskEvent ι β τ → Prop
  | .record block _ => ∀ timestamp, strategy.timestampAssigner block = .integer timestamp → 0 ≤ timestamp →
    task.tracker.currentWatermark = maxWatermark →
    task.operator.lastEmittedWatermark < task.operator.candidate strategy timestamp →
    (maxWatermark : Int) < task.operator.candidate strategy timestamp
  | .idleCheck _ => True
  | .upstream call _ =>
    Agrees task.operator.lastEmittedWatermark task.operator.idle (task.tracker.call call).2


def ownWatermark (bound : Nat) (largest : Int) : Int := if 0 ≤ largest - bound then largest - bound else -1

def Marked (forwarded lastEmitted watermark : Int) : Prop :=
  forwarded = -1 ∧ watermark = lastEmitted ∨ forwarded = maxWatermark ∧ watermark = max (maxWatermark : Int) lastEmitted

omit [DecidableEq ι] in
theorem agrees_iff (bound : Nat) (largest forwarded forwarded' : Int) (controls : List StreamControl) (shown : Shown)
    (rises : Rises forwarded controls forwarded')
    (marked : Marked forwarded (ownWatermark bound largest) shown.watermark) :
    (SpeaksFrom bound shown largest (controls.map (StreamElement.control (ρ := Record β))) ↔
      Agrees (ownWatermark bound largest) shown.idle controls) ∧
    (Agrees (ownWatermark bound largest) shown.idle controls → Marked forwarded' (ownWatermark bound largest)
      (shownBy shown (controls.map (StreamElement.control (ρ := Record β)))).watermark) := by
  induction rises generalizing shown with
  | nil => exact ⟨by simp [SpeaksFrom,WellFormed,Covered,Agrees],fun _ => marked⟩
  | watermark before last timestamp rest less _ ih =>
    have own : ownWatermark bound largest = largest - bound ∨ largest - bound < 0 ∧ ownWatermark bound largest = -1 := by
      unfold ownWatermark
      split <;> omega
    have top := maxWatermark_pos
    -- a watermark of the inputs below the final one is never covered and new
    have allowed : ((shown.idle = false ∧ shown.watermark < timestamp) ∧
        (timestamp = maxWatermark ∨ (timestamp : Int) ≤ largest - bound)) ↔
        timestamp = maxWatermark ∧ shown.idle = false ∧ ownWatermark bound largest < maxWatermark := by
      constructor
      · rintro ⟨⟨awake,rises⟩,covered⟩
        rcases marked with ⟨-,mark⟩ | ⟨-,mark⟩ <;> exact ⟨by omega,awake,by omega⟩
      · rintro ⟨final,awake,low⟩
        rcases marked with ⟨-,mark⟩ | ⟨same,-⟩
        · exact ⟨⟨awake,by omega⟩,.inl final⟩
        · omega
    have rest' (fits : timestamp = maxWatermark ∧ shown.idle = false ∧ ownWatermark bound largest < maxWatermark) :=
      ih {shown with watermark := timestamp} (.inr ⟨by rw [fits.1],by
        have final := fits.1
        have low := fits.2.2
        dsimp only
        omega⟩)
    have split : SpeaksFrom bound shown largest
        ((StreamControl.watermark timestamp::rest).map (StreamElement.control (ρ := Record β))) ↔
        ((shown.idle = false ∧ shown.watermark < timestamp) ∧
          (timestamp = maxWatermark ∨ (timestamp : Int) ≤ largest - bound)) ∧
        SpeaksFrom bound {shown with watermark := timestamp} largest
          (rest.map (StreamElement.control (ρ := Record β))) := and_and_and_comm
    rw [split,allowed]
    exact ⟨and_congr_right (fun fits => (rest' fits).1),fun fits => (rest' fits.1).2 fits.2⟩
  | inputIdle before last rest _ ih =>
    have rest' := ih {shown with idle := true} marked
    have split : SpeaksFrom bound shown largest
        ((StreamControl.inputIdle::rest).map (StreamElement.control (ρ := Record β))) ↔
        shown.idle = false ∧ SpeaksFrom bound {shown with idle := true} largest
          (rest.map (StreamElement.control (ρ := Record β))) := and_assoc
    rw [split]
    exact ⟨and_congr_right (fun _ => rest'.1),fun fits => rest'.2 fits.2⟩
  | inputActive before last resume rest _ ih =>
    have rest' := ih {shown with idle := false} marked
    have split : SpeaksFrom bound shown largest
        ((StreamControl.inputActive resume::rest).map (StreamElement.control (ρ := Record β))) ↔
        shown.idle = true ∧ SpeaksFrom bound {shown with idle := false} largest
          (rest.map (StreamElement.control (ρ := Record β))) := and_assoc
    rw [split]
    exact ⟨and_congr_right (fun _ => rest'.1),fun fits => rest'.2 fits.2⟩

structure Paired (task : WatermarkTask ι β τ) : Prop where
  idle : (shownBy Shown.start task.sent).idle = task.operator.idle
  largest : largestTimestamp (-1) task.sent = task.operator.maxTimestamp
  own : task.operator.lastEmittedWatermark =
    ownWatermark strategy.maxOutOfOrdernessMs task.operator.maxTimestamp
  marked : Marked task.tracker.outputWatermark task.operator.lastEmittedWatermark
    (shownBy Shown.start task.sent).watermark
  start : -1 ≤ task.operator.maxTimestamp

structure Steps (task : WatermarkTask ι β τ) (event : TaskEvent ι β τ) (next : WatermarkTask ι β τ)
    (sent : List (StreamElement (Record β))) : Prop where
  appended : next.sent = task.sent ++ sent
  speaks : SpeaksFrom strategy.maxOutOfOrdernessMs (shownBy Shown.start task.sent) (largestTimestamp (-1) task.sent) sent ↔
    Keeps strategy task event
  paired : Keeps strategy task event → Paired strategy next

omit [DecidableEq ι] in
theorem shownBy_append (shown : Shown) (first second : List (StreamElement (Record β))) :
    shownBy shown (first ++ second) = shownBy (shownBy shown first) second := foldl_append

omit [DecidableEq ι] in
theorem largestTimestamp_append (largest : Int) (first second : List (StreamElement (Record β))) :
    largestTimestamp largest (first ++ second) = largestTimestamp (largestTimestamp largest first) second :=
  foldl_append

section steps
variable (task : WatermarkTask ι β τ) (paired : Paired strategy task)

include paired in
theorem Paired.upstream (call : TrackerCall ι) (now : τ) (timedOut : τ → τ → Nat → Bool) :
    Steps strategy task (.upstream call now) (task.step strategy timedOut (.upstream call now))
      ((task.tracker.call call).2.map StreamElement.control) := by
  obtain ⟨iff,marked⟩ := agrees_iff (β := β) strategy.maxOutOfOrdernessMs task.operator.maxTimestamp _ _ _
    (shownBy Shown.start task.sent) (task.tracker.call_rises call) (paired.own ▸ paired.marked)
  have heard (operator : WatermarkOperator τ) (shown : Shown) (controls : List StreamControl)
      (same : shown.idle = operator.idle) :
      (shownBy shown (controls.map (StreamElement.control (ρ := Record β)))).idle =
        (applyEventTimeControls now operator controls).idle ∧
      (applyEventTimeControls now operator controls).maxTimestamp = operator.maxTimestamp ∧
      (applyEventTimeControls now operator controls).lastEmittedWatermark = operator.lastEmittedWatermark := by
    induction controls generalizing shown operator with
    | nil => exact ⟨same,rfl,rfl⟩
    | cons control rest ih =>
      cases control with
      | watermark timestamp => exact ih operator _ same
      | inputIdle => exact ih {operator with idle := true} {shown with idle := true} rfl
      | inputActive resume =>
        exact ih {operator with idle := false,lastRecordMonotonic := now} {shown with idle := false} rfl
  have unrecorded (largest : Int) (controls : List StreamControl) :
      largestTimestamp largest (controls.map (StreamElement.control (ρ := Record β))) = largest := by
    induction controls with
    | nil => rfl
    | cons control rest ih => exact ih
  obtain ⟨idle,maxTimestamp,lastEmitted⟩ := heard task.operator _ (task.tracker.call call).2 paired.idle
  rw [← paired.own,paired.idle] at iff marked
  refine ⟨rfl,?_,fun keeps => ?_⟩
  · rw [paired.largest]
    exact iff
  · constructor
    case idle => exact (congrArg Shown.idle (shownBy_append _ _ _)).trans idle
    case largest =>
      refine (largestTimestamp_append _ _ _).trans ?_
      rw [unrecorded,paired.largest]
      exact maxTimestamp.symm
    case own =>
      refine lastEmitted.trans (paired.own.trans ?_)
      rw [← maxTimestamp]
      rfl
    case marked =>
      have after := marked keeps
      rw [← lastEmitted] at after
      exact (congrArg Shown.watermark (shownBy_append _ _ _)).symm ▸ after
    case start => exact maxTimestamp.symm ▸ paired.start

include paired in
theorem Paired.idleCheck (now : τ) (timedOut : τ → τ → Nat → Bool) : ∃ sent,
    Steps strategy task (.idleCheck now) (task.step strategy timedOut (.idleCheck now)) sent := by
  have nothing : Steps strategy task (.idleCheck now) {task with sent := task.sent ++ []} [] := by
    rw [append_nil]
    exact ⟨(append_nil _).symm,by simp [SpeaksFrom,WellFormed,Covered,Keeps],fun _ => paired⟩
  dsimp only [step,WatermarkOperator.onIdle]
  split
  · exact ⟨[],nothing⟩
  split
  · exact ⟨[],nothing⟩
  next awake =>
    split
    · have open' : (shownBy Shown.start task.sent).idle = false := paired.idle.trans (Bool.eq_false_iff.mpr awake)
      refine ⟨[.control .inputIdle],rfl,by simp [SpeaksFrom,WellFormed,Covered,Keeps,Shown.Allows,open'],fun _ => ?_⟩
      exact {
        idle := by simp [shownBy,Shown.after]
        largest := by
          refine (largestTimestamp_append _ _ _).trans ?_
          exact paired.largest
        own := paired.own
        marked := (congrArg Shown.watermark (shownBy_append Shown.start task.sent _)).symm ▸ paired.marked
        start := paired.start}
    · exact ⟨[],nothing⟩

theorem processElement_ok (o : WatermarkOperator τ) (now : τ) (block : β) (timestamp : Int)
    (assigned : strategy.timestampAssigner block = .integer timestamp) (valid : 0 ≤ timestamp) :
    o.processElement strategy now block =
      if 0 ≤ o.candidate strategy timestamp ∧ o.lastEmittedWatermark < o.candidate strategy timestamp then
        .ok (⟨max o.maxTimestamp timestamp,o.candidate strategy timestamp,now,false⟩,
          o.resume ++ [.record ⟨block,timestamp⟩] ++ [.control (.watermark (o.candidate strategy timestamp).toNat)])
      else .ok (⟨max o.maxTimestamp timestamp,o.lastEmittedWatermark,now,false⟩,
        o.resume ++ [.record ⟨block,timestamp⟩]) := by
  unfold WatermarkOperator.processElement
  rw [assigned]
  dsimp only
  rw [if_neg (by omega)]

omit [DecidableEq ι] in
include paired in
theorem Paired.resumed (block : β) (timestamp : Int) :
    SpeaksFrom strategy.maxOutOfOrdernessMs (shownBy Shown.start task.sent) (largestTimestamp (-1) task.sent)
      (task.operator.resume ++ [.record ⟨block,timestamp⟩]) ∧
    shownBy Shown.start (task.sent ++ (task.operator.resume ++ [.record ⟨block,timestamp⟩])) =
      ⟨(shownBy Shown.start task.sent).watermark,false⟩ ∧
    largestTimestamp (-1) (task.sent ++ (task.operator.resume ++ [.record ⟨block,timestamp⟩])) =
      max task.operator.maxTimestamp timestamp := by
  have idle := paired.idle
  rw [shownBy_append,largestTimestamp_append,paired.largest]
  generalize shownBy Shown.start task.sent = shown at idle ⊢
  obtain ⟨watermark,idle'⟩ := shown
  obtain rfl : idle' = task.operator.idle := idle
  unfold WatermarkOperator.resume
  cases task.operator.idle <;>
    simp [SpeaksFrom,WellFormed,Covered,Shown.Allows,Shown.after,shownBy,largestTimestamp]

include paired in
theorem Paired.record (block : β) (now : τ) (timedOut : τ → τ → Nat → Bool) : ∃ sent,
    Steps strategy task (.record block now) (task.step strategy timedOut (.record block now)) sent := by
  have nothing (keeps : Keeps strategy task (.record block now)) : Steps strategy task (.record block now) task [] :=
    ⟨(append_nil _).symm,iff_of_true ⟨trivial,trivial⟩ keeps,fun _ => paired⟩
  dsimp only [step]
  cases assigned : strategy.timestampAssigner block with
  | other =>
    have failed : task.operator.processElement strategy now block = .error WatermarkOperator.invalidTimestamp := by
      simp [WatermarkOperator.processElement,assigned]
    rw [failed]
    exact ⟨[],nothing (fun timestamp same => by simp [assigned] at same)⟩
  | integer timestamp =>
    by_cases valid : 0 ≤ timestamp
    · obtain ⟨speaks,shown,largest⟩ := paired.resumed strategy task block timestamp
      rw [processElement_ok strategy task.operator now block timestamp assigned valid]
      have marked := paired.marked
      have own := paired.own
      have start := paired.start
      have candidate : task.operator.candidate strategy timestamp =
          max task.operator.maxTimestamp timestamp - strategy.maxOutOfOrdernessMs := rfl
      have keeps : Keeps strategy task (.record block now) ↔ (task.tracker.outputWatermark = maxWatermark →
          task.operator.lastEmittedWatermark < task.operator.candidate strategy timestamp →
          (maxWatermark : Int) < task.operator.candidate strategy timestamp) := by
        constructor
        · exact fun all => all timestamp assigned valid
        · intro one other same valid'
          cases assigned.symm.trans same
          exact one
      generalize task.operator.candidate strategy timestamp = candidate' at candidate keeps ⊢
      unfold ownWatermark at own
      by_cases rises : 0 ≤ candidate' ∧ task.operator.lastEmittedWatermark < candidate'
      · rw [if_pos rises]
        have stamped : ((candidate'.toNat : Nat) : Int) = candidate' := Int.toNat_of_nonneg rises.1
        have told : shownBy Shown.start (task.sent ++ (task.operator.resume ++ [.record ⟨block,timestamp⟩] ++
            [.control (.watermark candidate'.toNat)])) = ⟨candidate',false⟩ := by
          rw [← append_assoc,shownBy_append,shown]
          simp only [shownBy,foldl_cons,foldl_nil,Shown.after,stamped]
        refine ⟨_,rfl,?_,fun kept => ?_⟩
        · -- the watermark is new unless the final one came before it
          rw [SpeaksFrom.append,← shownBy_append,← largestTimestamp_append,shown,largest,keeps,and_iff_right speaks]
          have covered : candidate' ≤ max task.operator.maxTimestamp timestamp - strategy.maxOutOfOrdernessMs :=
            Int.le_of_eq candidate
          simp only [SpeaksFrom,WellFormed,Covered,Shown.Allows,stamped,covered,or_true,and_true,true_and]
          rcases marked with ⟨fresh,mark⟩ | ⟨final,mark⟩
          · exact iff_of_true (by omega) (fun impossible => by omega)
          · rw [mark,Int.max_lt]
            exact ⟨fun less _ _ => less.1,fun less => ⟨less final rises.2,rises.2⟩⟩
        · have kept' := keeps.mp kept
          constructor
          case idle => exact congrArg Shown.idle told
          case largest =>
            dsimp only
            rw [← append_assoc,largestTimestamp_append,largest]
            rfl
          case own =>
            unfold ownWatermark
            dsimp only
            exact candidate.trans (if_pos (by omega)).symm
          case marked =>
            dsimp only
            rw [told]
            rcases marked with ⟨fresh,-⟩ | ⟨final,-⟩
            · exact .inl ⟨fresh,rfl⟩
            · have above := kept' final rises.2
              exact .inr ⟨final,by dsimp only; omega⟩
          case start => exact Int.le_trans start (Int.le_max_left _ _)
      · rw [if_neg rises]
        have stale (less : task.operator.lastEmittedWatermark < candidate') : False := by
          split at own <;> omega
        refine ⟨_,rfl,iff_of_true speaks (keeps.mpr (fun _ less => (stale less).elim)),fun _ => ?_⟩
        exact {
          idle := congrArg Shown.idle shown
          largest := largest
          own := by
            unfold ownWatermark
            dsimp only
            split at own <;> split <;> omega
          marked := (congrArg Shown.watermark shown).symm ▸ marked
          start := Int.le_trans start (Int.le_max_left _ _)}
    · have failed : task.operator.processElement strategy now block = .error WatermarkOperator.invalidTimestamp := by
        simp [WatermarkOperator.processElement,assigned,Int.not_le.mp valid]
      rw [failed]
      exact ⟨[],nothing (fun other same valid' => by
        cases assigned.symm.trans same
        exact absurd valid' valid)⟩

end steps

section runs
variable (timedOut : τ → τ → Nat → Bool) (inputs : List ι) (now : τ)

theorem Paired.event (task : WatermarkTask ι β τ) (paired : Paired strategy task) (event : TaskEvent ι β τ) : ∃ sent,
    Steps strategy task event (task.step strategy timedOut event) sent := by
  cases event with
  | record block now => exact paired.record strategy task block now timedOut
  | idleCheck now => exact paired.idleCheck strategy task now timedOut
  | upstream call now => exact ⟨_,paired.upstream strategy task call now timedOut⟩

theorem Paired.init : Paired strategy (WatermarkTask.init (β := β) inputs now) where
  idle := rfl
  largest := rfl
  own := by
    have negative : ¬ (0 : Int) ≤ -1 - strategy.maxOutOfOrdernessMs := by omega
    exact (if_neg negative).symm
  marked := .inl ⟨rfl,rfl⟩
  start := Int.le_refl _

theorem step_appends (task : WatermarkTask ι β τ) (event : TaskEvent ι β τ) :
    ∃ sent, (task.step strategy timedOut event).sent = task.sent ++ sent := by
  cases event with
  | record block now =>
    dsimp only [step]
    split
    · exact ⟨[],(append_nil _).symm⟩
    · exact ⟨_,rfl⟩
  | idleCheck now => exact ⟨_,rfl⟩
  | upstream call now => exact ⟨_,rfl⟩

theorem run_concat (task : WatermarkTask ι β τ) (events : List (TaskEvent ι β τ)) (event : TaskEvent ι β τ) :
    task.run strategy timedOut (events ++ [event]) = (task.run strategy timedOut events).step strategy timedOut event := by
  simp [run,foldl_append]

/-- The stream of a task speaks for its strategy exactly when each event keeps it. -/
theorem stream_speaks_for_strategy (events : List (TaskEvent ι β τ)) :
    SpeaksForStrategy strategy.maxOutOfOrdernessMs ((WatermarkTask.init inputs now).run strategy timedOut events).sent ↔
      ∀ before event, before ++ [event] <+: events →
        Keeps strategy ((WatermarkTask.init inputs now).run strategy timedOut before) event := by
  suffices both : (SpeaksForStrategy strategy.maxOutOfOrdernessMs
      ((WatermarkTask.init inputs now).run strategy timedOut events).sent ↔
        ∀ before event, before ++ [event] <+: events →
          Keeps strategy ((WatermarkTask.init inputs now).run strategy timedOut before) event) ∧
      (SpeaksForStrategy strategy.maxOutOfOrdernessMs
        ((WatermarkTask.init inputs now).run strategy timedOut events).sent →
          Paired strategy ((WatermarkTask.init inputs now).run strategy timedOut events)) from both.1
  induction events using List.reverseRecOn with
  | nil =>
    refine ⟨iff_of_true ⟨trivial,trivial⟩ (fun before event impossible => ?_),fun _ => Paired.init strategy inputs now⟩
    have long := impossible.length_le
    simp at long
  | append_singleton earlier last ih =>
    rw [run_concat]
    obtain ⟨sent,appended⟩ := step_appends strategy timedOut
      ((WatermarkTask.init inputs now).run strategy timedOut earlier) last
    have whole : SpeaksForStrategy strategy.maxOutOfOrdernessMs
        (((WatermarkTask.init inputs now).run strategy timedOut earlier).step strategy timedOut last).sent →
        SpeaksForStrategy strategy.maxOutOfOrdernessMs
          ((WatermarkTask.init inputs now).run strategy timedOut earlier).sent := by
      rw [appended]
      exact fun all => ((SpeaksFrom.append _ _ _ _ _).mp all).1
    have step (speaks : SpeaksForStrategy strategy.maxOutOfOrdernessMs
        ((WatermarkTask.init inputs now).run strategy timedOut earlier).sent) :=
      (ih.2 speaks).event strategy timedOut _ last
    refine ⟨⟨fun all before event inside => ?_,fun keeps => ?_⟩,fun all => ?_⟩
    · have speaks := whole all
      obtain ⟨sent',steps⟩ := step speaks
      rcases prefix_concat_iff.mp inside with same | within
      · obtain ⟨rfl,same'⟩ := append_inj' same rfl
        obtain rfl := singleton_inj.mp same'
        rw [steps.appended] at all
        exact steps.speaks.mp ((SpeaksFrom.append _ _ _ _ _).mp all).2
      · exact ih.1.mp speaks before event within
    · have speaks := ih.1.mpr (fun before event within => keeps before event (within.trans (prefix_append _ _)))
      obtain ⟨sent',steps⟩ := step speaks
      rw [steps.appended]
      exact (SpeaksFrom.append _ _ _ _ _).mpr ⟨speaks,steps.speaks.mpr (keeps earlier last (prefix_refl _))⟩
    · have speaks := whole all
      obtain ⟨sent',steps⟩ := step speaks
      rw [steps.appended] at all
      exact steps.paired (steps.speaks.mp ((SpeaksFrom.append _ _ _ _ _).mp all).2)

end runs

def plainStrategy : WatermarkStrategy Int := ⟨.integer,0,none⟩

/-- A watermark of the inputs is sent on, ahead of every timestamp that was assigned. -/
theorem foreign_watermark_sent_on : ¬ ∀ events : List (TaskEvent Unit Int Nat),
    SpeaksForStrategy plainStrategy.maxOutOfOrdernessMs
      ((WatermarkTask.init [()] 0).run plainStrategy (fun _ _ _ => false) events).sent := by
  intro all
  have sent : ((WatermarkTask.init [()] 0).run plainStrategy (fun _ _ _ => false)
      [.record 10 0,.upstream (.onControl () (.watermark 100)) 0]).sent =
      [.record ⟨10,10⟩,.control (.watermark 10),.control (.watermark 100)] := by decide +kernel
  have speaks := all [.record 10 0,.upstream (.onControl () (.watermark 100)) 0]
  rw [sent] at speaks
  obtain ⟨-,-,covered,-⟩ := speaks
  have below : 100 ≠ maxWatermark := by
    unfold maxWatermark
    omega
  rcases covered with final | late
  · exact below final
  · revert late
    decide

end WatermarkTask
end Klein.EventTime
