import Mathlib.Data.List.Infix
import Klein.EventTime.InputWatermarkTracker

/-! What a tracker should know after its calls, told from the calls alone, and how
far its aggregate follows it. -/
namespace Klein.EventTime
open Dict List Option

section history
variable {ι : Type} [DecidableEq ι]

def StreamControl.reports : StreamControl → List Nat
  | .watermark timestamp => [timestamp]
  | .inputIdle => []
  | .inputActive resumeWatermark => resumeWatermark.toList

def configured (initial : List ι) (calls : List (TrackerCall ι)) : List ι :=
  calls.foldl (fun inputs call => match call with
    | .onControl sender _ => inputs.insert sender
    | .reconfigureInputs inputIds => inputIds) initial

def reported (input : ι) (calls : List (TrackerCall ι)) : List Nat :=
  calls.foldl (fun reports call => match call with
    | .onControl sender control => if sender = input then reports ++ control.reports else reports
    | .reconfigureInputs inputIds => if input ∈ inputIds then reports else []) []

def highestReported (input : ι) (calls : List (TrackerCall ι)) : Option Nat := (reported input calls).max?

/-- The last control of the input was `InputIdle`. -/
def isIdleInput (input : ι) (calls : List (TrackerCall ι)) : Bool :=
  calls.foldl (fun idle call => match call with
    | .onControl sender control => if sender = input then decide (control = .inputIdle) else idle
    | .reconfigureInputs inputIds => if input ∈ inputIds then idle else false) false

def leastReport (reports : List (Option Nat)) : Option Nat :=
  if reports.any Option.isNone then none else (reports.filterMap id).min?

def minimumWatermark (initial : List ι) (calls : List (TrackerCall ι)) : Option Nat :=
  leastReport (((configured initial calls).filter (fun input => ! isIdleInput input calls)).map
    (fun input => highestReported input calls))

def raise (watermark : Int) : Option Nat → Int
  | none => watermark
  | some minimum => max watermark minimum

def runningWatermark (initial : List ι) (calls : List (TrackerCall ι)) : Int :=
  (calls.inits.map (minimumWatermark initial)).foldl raise (-1)

theorem leastReport_eq_some (reports : List (Option Nat)) (minimum : Nat) :
    leastReport reports = some minimum ↔
      some minimum ∈ reports ∧ ∀ report ∈ reports, ∃ watermark, report = some watermark ∧ minimum ≤ watermark := by
  unfold leastReport
  split
  next missing =>
    obtain ⟨report,inside,absent⟩ := List.any_eq_true.mp missing
    constructor
    · intro impossible
      contradiction
    · rintro ⟨-,all⟩
      obtain ⟨watermark,rfl,-⟩ := all report inside
      simp at absent
  next complete =>
    rw [min?_eq_some_iff]
    constructor
    · rintro ⟨inside,least⟩
      refine ⟨by simpa using inside,fun report member => ?_⟩
      cases found : report with
      | none => exact absurd (List.any_eq_true.mpr ⟨report,member,by simp [found]⟩) complete
      | some watermark => exact ⟨watermark,rfl,least watermark (mem_filterMap.mpr ⟨report,member,found⟩)⟩
    · rintro ⟨inside,all⟩
      refine ⟨mem_filterMap.mpr ⟨_,inside,rfl⟩,fun watermark member => ?_⟩
      obtain ⟨report,known,same⟩ := mem_filterMap.mp member
      obtain ⟨other,found,least⟩ := all report known
      cases same.symm.trans found
      exact least

theorem leastReport_congr (first second : List (Option Nat)) (same : ∀ report, report ∈ first ↔ report ∈ second) :
    leastReport first = leastReport second := by
  apply Option.ext
  intro minimum
  simp only [leastReport_eq_some,same]

variable (initial : List ι) (calls : List (TrackerCall ι)) (call : TrackerCall ι)

theorem runningWatermark_snoc : runningWatermark initial (calls ++ [call]) =
    raise (runningWatermark initial calls) (minimumWatermark initial (calls ++ [call])) := by
  simp [runningWatermark,inits_append,foldl_append]

theorem minimumWatermark_nil : minimumWatermark initial [] = none := by
  apply eq_none_iff_forall_not_mem.mpr
  intro minimum found
  obtain ⟨inside,-⟩ := (leastReport_eq_some _ _).mp found
  obtain ⟨input,-,same⟩ := List.mem_map.mp inside
  simp [highestReported,reported] at same

theorem minimum_le_running (minimum : Nat) (found : minimumWatermark initial calls = some minimum) :
    (minimum : Int) ≤ runningWatermark initial calls := by
  induction calls using List.reverseRecOn with
  | nil =>
    rw [minimumWatermark_nil] at found
    contradiction
  | append_singleton before last _ =>
    rw [runningWatermark_snoc,found,raise]
    exact Int.le_max_right _ _

theorem unconfigured (input : ι) (absent : input ∉ configured initial calls) :
    reported input calls = [] ∧ isIdleInput input calls = false := by
  induction calls using List.reverseRecOn with
  | nil => exact ⟨rfl,rfl⟩
  | append_singleton before last ih =>
    cases last with
    | onControl sender control =>
      have absent' : input ≠ sender ∧ input ∉ configured initial before := by
        simpa [configured,foldl_append] using absent
      simpa [reported,isIdleInput,foldl_append,Ne.symm absent'.1] using ih absent'.2
    | reconfigureInputs inputIds =>
      have absent' : input ∉ inputIds := by simpa [configured,foldl_append] using absent
      simp [reported,isIdleInput,foldl_append,absent']

theorem max?_concat (values : List Nat) (value : Nat) :
    (values ++ [value]).max? = some ((values.max?.map (fun highest => max highest value)).getD value) := by
  cases values with
  | nil => rfl
  | cons first rest =>
    rw [cons_append,max?_cons',max?_cons',foldl_append]
    rfl

end history

def InputState.after (state : InputState) : StreamControl → InputState
  | .watermark timestamp =>
    ⟨some ((state.watermark.map (fun highest => max highest timestamp)).getD timestamp),false⟩
  | .inputIdle => {state with idle := true}
  | .inputActive none => {state with idle := false}
  | .inputActive (some resume) =>
    ⟨some ((state.watermark.map (fun highest => max highest resume)).getD resume),false⟩

namespace InputWatermarkTracker
section aggregate
variable {ι : Type} (t : InputWatermarkTracker ι)

theorem candidate_eq : t.candidate =
    leastReport ((t.inputs.values.filter (fun state => ! state.idle)).map InputState.watermark) := by
  simp [candidate,leastReport,List.any_map,filterMap_map,Function.comp_def]

theorem advance_spec : t.advance.1 = {t with outputWatermark := raise t.outputWatermark t.candidate} := by
  unfold advance
  split
  next none => rw [none,raise]
  next minimum found =>
    rw [found,raise]
    split
    next low => rw [Int.max_eq_left low]
    next high => rw [Int.max_eq_right (by omega)]

theorem reactivateAndAdvance_spec (shouldReactivate due : Bool) :
    (t.reactivateAndAdvance shouldReactivate due).1.inputs = t.inputs ∧
      (t.reactivateAndAdvance shouldReactivate due).1.outputWatermark =
        if due then raise t.outputWatermark t.candidate else t.outputWatermark := by
  cases shouldReactivate <;> cases due <;>
    simp [reactivateAndAdvance,reactivateOutput,advance_spec,candidate]

theorem idleOutput_spec : t.idleOutput.1.inputs = t.inputs ∧ t.idleOutput.1.outputWatermark = t.outputWatermark := by
  unfold idleOutput
  split <;> exact ⟨rfl,rfl⟩

variable [DecidableEq ι]

theorem mem_active (report : Option Nat) :
    report ∈ (t.inputs.values.filter (fun state => ! state.idle)).map InputState.watermark ↔
      ∃ input, t.inputs.get? input = some ⟨report,false⟩ := by
  simp only [List.mem_map,mem_filter,mem_values]
  constructor
  · rintro ⟨⟨watermark,idle⟩,⟨⟨input,found⟩,live⟩,rfl⟩
    have awake : idle = false := by simpa using live
    exact ⟨input,awake ▸ found⟩
  · rintro ⟨input,found⟩
    exact ⟨⟨report,false⟩,⟨⟨input,found⟩,rfl⟩,rfl⟩

theorem candidate_eq_some (minimum : Nat) : t.candidate = some minimum ↔
    (∃ input, t.inputs.get? input = some ⟨some minimum,false⟩) ∧
      ∀ input state, t.inputs.get? input = some state → state.idle = false →
        ∃ watermark, state.watermark = some watermark ∧ minimum ≤ watermark := by
  rw [candidate_eq,leastReport_eq_some,mem_active]
  refine and_congr_right (fun _ => ?_)
  constructor
  · rintro all input ⟨watermark,idle⟩ found rfl
    exact all watermark ((t.mem_active watermark).mpr ⟨input,found⟩)
  · intro all report inside
    obtain ⟨input,found⟩ := (t.mem_active report).mp inside
    exact all input _ found rfl

theorem candidate_exists (input : ι) (state : InputState) (found : t.inputs.get? input = some state)
    (active : state.idle = false) (all : ∀ input state, t.inputs.get? input = some state → state.idle = false →
      ∃ watermark, state.watermark = some watermark) : ∃ minimum, t.candidate = some minimum := by
  have live (state : InputState) (inside : state ∈ t.inputs.values.filter (fun state => ! state.idle)) :
      ∃ watermark, state.watermark = some watermark := by
    obtain ⟨known,awake⟩ := mem_filter.mp inside
    obtain ⟨other,held⟩ := (mem_values _ _).mp known
    exact all other state held (by simpa using awake)
  have own : state ∈ t.inputs.values.filter (fun state => ! state.idle) :=
    mem_filter.mpr ⟨(mem_values _ _).mpr ⟨input,found⟩,by simp [active]⟩
  unfold candidate
  dsimp only
  split
  next missing =>
    obtain ⟨other,inside,absent⟩ := List.any_eq_true.mp missing
    obtain ⟨watermark,reported⟩ := live other inside
    simp [reported] at absent
  next =>
    apply isSome_iff_exists.mp
    rw [isSome_min?_iff]
    obtain ⟨watermark,reported⟩ := live state own
    exact ne_nil_of_mem (mem_filterMap.mpr ⟨state,own,reported⟩)

theorem candidate_congr (other : InputWatermarkTracker ι) (same : ∀ input, other.inputs.get? input = t.inputs.get? input) :
    other.candidate = t.candidate := by
  apply Option.ext
  intro minimum
  simp only [candidate_eq_some,same]

theorem candidate_none (idle : t.inputs.values.all InputState.idle = true) : t.candidate = none := by
  apply eq_none_iff_forall_not_mem.mpr
  intro minimum found
  obtain ⟨⟨input,active⟩,-⟩ := (t.candidate_eq_some minimum).mp found
  have asleep := List.all_eq_true.mp idle _ ((mem_values _ _).mpr ⟨input,active⟩)
  contradiction

end aggregate

section calls
variable {ι : Type} [DecidableEq ι] (t : InputWatermarkTracker ι)

def stateOf (sender : ι) : InputState := (t.inputs.get? sender).getD InputState.new

def admitted (sender : ι) : InputWatermarkTracker ι :=
  {t with inputs := if t.inputs.contains sender then t.inputs else t.inputs.set sender (t.stateOf sender)}

theorem admitted_get? (sender input : ι) : (t.admitted sender).inputs.get? input =
    if input = sender then some (t.stateOf sender) else t.inputs.get? input := by
  unfold admitted stateOf
  cases known : t.inputs.get? sender with
  | none =>
    have absent : t.inputs.contains sender = false := by simp [contains_eq_isSome,known]
    simp [absent]
  | some state =>
    have present : t.inputs.contains sender = true := by simp [contains_eq_isSome,known]
    by_cases same : input = sender
    · simp [present,same,known]
    · simp [present,same]

theorem onControl_get? (sender : ι) (control : StreamControl) (input : ι) :
    (t.onControl sender control).1.inputs.get? input =
      if input = sender then some ((t.stateOf sender).after control) else t.inputs.get? input := by
  have admitted := t.admitted_get? sender input
  change (match control with
    | .watermark timestamp => (t.admitted sender).onWatermark sender (t.stateOf sender) timestamp
    | .inputIdle => (t.admitted sender).onIdle sender (t.stateOf sender)
    | .inputActive resumeWatermark => (t.admitted sender).onActive sender (t.stateOf sender) resumeWatermark).1.inputs.get?
      input = _
  generalize t.stateOf sender = state at admitted ⊢
  cases control with
  | watermark timestamp =>
    dsimp only [onWatermark]
    rw [(reactivateAndAdvance_spec _ _ _).1,Dict.get?_set]
    by_cases same : input = sender
    · rw [if_pos same,if_pos same]
      cases reported : state.watermark with
      | none => simp [InputState.after,reported]
      | some watermark =>
        by_cases newer : watermark < timestamp
        · simp [InputState.after,reported,newer,Nat.max_eq_right (Nat.le_of_lt newer)]
        · simp [InputState.after,reported,newer,Nat.max_eq_left (Nat.not_lt.mp newer)]
    · rw [if_neg same,if_neg same,admitted,if_neg same]
  | inputIdle =>
    dsimp only [onIdle]
    split
    next asleep =>
      rw [admitted]
      have unchanged : state.after .inputIdle = state := by
        obtain ⟨watermark,idle⟩ := state
        cases asleep
        rfl
      rw [unchanged]
    next =>
      split
      all_goals
        first | rw [(idleOutput_spec _).1,Dict.get?_set] | rw [advance_spec,Dict.get?_set]
        by_cases same : input = sender
        · rw [if_pos same,if_pos same]
          rfl
        · rw [if_neg same,if_neg same,admitted,if_neg same]
  | inputActive resumeWatermark =>
    dsimp only [onActive]
    rw [(reactivateAndAdvance_spec _ _ _).1,Dict.get?_set]
    by_cases same : input = sender
    · rw [if_pos same,if_pos same]
      cases resumeWatermark <;> rfl
    · rw [if_neg same,if_neg same,admitted,if_neg same]

theorem reconfigureInputs_get? (inputIds : List ι) (input : ι) : (t.reconfigureInputs inputIds).1.inputs.get? input =
    if input ∈ inputIds then some (t.stateOf input) else none := by
  unfold reconfigureInputs
  dsimp only
  rw [← get?_ofKeys inputIds t.stateOf input]
  split
  · rfl
  split
  · rw [(idleOutput_spec _).1]
    rfl
  · rw [(reactivateAndAdvance_spec _ _ _).1]
    rfl

def Overlooks : TrackerCall ι → Prop
  | .onControl sender (.watermark timestamp) =>
    (∀ input state, t.inputs.get? input = some state → state.idle = true) ∧
      ∃ watermark, t.inputs.get? sender = some ⟨some watermark,true⟩ ∧ timestamp ≤ watermark ∧
        t.outputWatermark < watermark
  | _ => False

theorem recomputed (next : InputWatermarkTracker ι) (shouldReactivate : Bool) :
    (next.reactivateAndAdvance shouldReactivate true).1.outputWatermark =
      raise next.outputWatermark (next.reactivateAndAdvance shouldReactivate true).1.candidate := by
  obtain ⟨inputs,output⟩ := reactivateAndAdvance_spec next shouldReactivate true
  have same := candidate_congr next (next.reactivateAndAdvance shouldReactivate true).1 (fun input => by rw [inputs])
  rw [output,same,if_pos rfl]

variable (settled : ∀ minimum, t.candidate = some minimum → (minimum : Int) ≤ t.outputWatermark)

include settled in
theorem repeated_progress (sender : ι) (timestamp watermark : Nat) (idle : Bool)
    (known : t.inputs.get? sender = some ⟨some watermark,idle⟩) (stale : timestamp ≤ watermark) :
    t.outputWatermark = raise t.outputWatermark (t.onControl sender (.watermark timestamp)).1.candidate ↔
      ¬ t.Overlooks (.onControl sender (.watermark timestamp)) := by
  have inputs (input : ι) : (t.onControl sender (.watermark timestamp)).1.inputs.get? input =
      if input = sender then some ⟨some watermark,false⟩ else t.inputs.get? input := by
    rw [onControl_get?,stateOf,known]
    simp [InputState.after,Nat.max_eq_left stale]
  generalize (t.onControl sender (.watermark timestamp)).1 = next at inputs
  by_cases asleep : ∀ input state, t.inputs.get? input = some state → state.idle = true
  · -- every input was idle, so the sender is the only active one now
    have awake : idle = true := asleep sender _ known
    subst awake
    have least : next.candidate = some watermark := by
      refine (next.candidate_eq_some watermark).mpr ⟨⟨sender,by rw [inputs,if_pos rfl]⟩,fun input state found active => ?_⟩
      rw [inputs] at found
      split at found
      · cases found
        exact ⟨watermark,rfl,Nat.le_refl _⟩
      · rw [asleep input state found] at active
        contradiction
    rw [least,raise]
    constructor
    · rintro same ⟨-,other,found,-,less⟩
      cases known.symm.trans found
      omega
    · intro counted
      have low : ¬ t.outputWatermark < watermark := fun less => counted ⟨asleep,watermark,known,stale,less⟩
      omega
  · -- another input is active, and the sender does not lower what it allowed before
    have counted : ¬ t.Overlooks (.onControl sender (.watermark timestamp)) := fun overlooks => asleep overlooks.1
    refine ⟨fun _ => counted,fun _ => ?_⟩
    cases found : next.candidate with
    | none => rfl
    | some minimum =>
      obtain ⟨-,all⟩ := (next.candidate_eq_some minimum).mp found
      have above (input : ι) (state : InputState) (was : t.inputs.get? input = some state) (active : state.idle = false) :
          ∃ reported, state.watermark = some reported ∧ minimum ≤ reported := by
        by_cases same : input = sender
        · subst same
          cases known.symm.trans was
          obtain rfl : idle = false := active
          exact all input _ (by rw [inputs,if_pos rfl]) rfl
        · exact all input state (by rw [inputs,if_neg same,was]) active
      push Not at asleep
      obtain ⟨input,state,was,active⟩ := asleep
      have active' : state.idle = false := by simpa using active
      obtain ⟨least,before⟩ := t.candidate_exists input state was active' (fun other state' was' active'' =>
        (above other state' was' active'').imp (fun _ reported => reported.1))
      obtain ⟨⟨other,attained⟩,-⟩ := (t.candidate_eq_some least).mp before
      obtain ⟨reported,same,less⟩ := above other _ attained rfl
      cases same
      have low := settled least before
      rw [raise]
      omega

include settled in
theorem call_progress (next : TrackerCall ι) :
    (t.call next).1.outputWatermark = raise t.outputWatermark (t.call next).1.candidate ↔ ¬ t.Overlooks next := by
  cases next with
  | reconfigureInputs inputIds =>
    refine ⟨fun _ overlooks => overlooks,fun _ => ?_⟩
    dsimp only [call,reconfigureInputs]
    split
    next empty =>
      rw [candidate_none]
      · rfl
      · have nothing : (Dict.ofList (inputIds.map (fun inputId =>
            (inputId,(t.inputs.get? inputId).getD InputState.new)))).entries = [] := List.isEmpty_iff.mp empty
        simp [Dict.values,nothing]
    split
    next asleep =>
      obtain ⟨inputs,output⟩ := idleOutput_spec {t with
        inputs := Dict.ofList (inputIds.map (fun inputId => (inputId,(t.inputs.get? inputId).getD InputState.new)))}
      rw [output,candidate_none]
      · rfl
      · rw [inputs]
        exact asleep
    next => exact recomputed _ _
  | onControl sender control =>
    cases control with
    | watermark timestamp =>
      by_cases newer : (t.stateOf sender).watermark.all (fun watermark => decide (watermark < timestamp)) = true
      · refine ⟨fun _ overlooks => ?_,fun _ => ?_⟩
        · obtain ⟨-,watermark,known,stale,-⟩ := overlooks
          have less : watermark < timestamp := by simpa [stateOf,known] using newer
          omega
        · change ((t.admitted sender).onWatermark sender (t.stateOf sender) timestamp).1.outputWatermark =
            raise t.outputWatermark ((t.admitted sender).onWatermark sender (t.stateOf sender) timestamp).1.candidate
          dsimp only [onWatermark]
          rw [newer]
          exact recomputed _ _
      · have same : (t.call (.onControl sender (.watermark timestamp))).1.outputWatermark = t.outputWatermark := by
          change ((t.admitted sender).onWatermark sender (t.stateOf sender) timestamp).1.outputWatermark = _
          have stale := Bool.eq_false_iff.mpr newer
          dsimp only [onWatermark]
          rw [stale,(reactivateAndAdvance_spec _ _ _).2]
          rfl
        rw [same]
        cases known : t.inputs.get? sender with
        | none => simp [stateOf,known,InputState.new] at newer
        | some state =>
          obtain ⟨watermark,idle⟩ := state
          cases watermark with
          | none => simp [stateOf,known] at newer
          | some watermark =>
            have stale : timestamp ≤ watermark := by simpa [stateOf,known] using newer
            exact t.repeated_progress settled sender timestamp watermark idle known stale
    | inputIdle =>
      refine ⟨fun _ overlooks => overlooks,fun _ => ?_⟩
      change ((t.admitted sender).onIdle sender (t.stateOf sender)).1.outputWatermark =
        raise t.outputWatermark ((t.admitted sender).onIdle sender (t.stateOf sender)).1.candidate
      unfold onIdle
      split
      next asleep =>
        -- only a known input is idle, so nothing changes
        have same : (t.admitted sender).candidate = t.candidate := by
          refine candidate_congr t _ (fun input => ?_)
          rw [admitted_get?]
          split
          next equal =>
            subst equal
            cases known : t.inputs.get? input with
            | none => simp [stateOf,known,InputState.new] at asleep
            | some state => simp [stateOf,known]
          next => rfl
        rw [same]
        cases found : t.candidate with
        | none => rfl
        | some minimum => exact (Int.max_eq_left (settled minimum found)).symm
      dsimp only
      split
      next asleep =>
        obtain ⟨inputs,output⟩ := idleOutput_spec {t.admitted sender with
          inputs := (t.admitted sender).inputs.set sender {t.stateOf sender with idle := true}}
        rw [output,candidate_none]
        · rfl
        · rw [inputs]
          exact asleep
      next =>
        rw [advance_spec]
        rfl
    | inputActive resumeWatermark =>
      refine ⟨fun _ overlooks => overlooks,fun _ => ?_⟩
      exact recomputed _ _

end calls

section progress
variable {ι : Type} [DecidableEq ι] (initial : List ι)

def Follows (calls : List (TrackerCall ι)) (t : InputWatermarkTracker ι) : Prop :=
  ∀ input, t.inputs.get? input = if input ∈ configured initial calls then
    some ⟨highestReported input calls,isIdleInput input calls⟩ else none

theorem Follows.candidate (calls : List (TrackerCall ι)) (t : InputWatermarkTracker ι) (follows : Follows initial calls t) :
    t.candidate = minimumWatermark initial calls := by
  rw [candidate_eq]
  refine leastReport_congr _ _ (fun report => ?_)
  rw [mem_active]
  simp only [List.mem_map,mem_filter,follows _,ite_none_right_eq_some,Option.some.injEq,InputState.mk.injEq,
    Bool.not_eq_true']
  exact exists_congr (fun input => by tauto)

theorem Follows.init : Follows initial [] (InputWatermarkTracker.init initial) := by
  intro input
  exact get?_ofKeys initial (fun _ => InputState.new) input

section
variable (calls : List (TrackerCall ι)) (t : InputWatermarkTracker ι) (follows : Follows initial calls t)
include follows

theorem Follows.stateOf (sender : ι) : t.stateOf sender = ⟨highestReported sender calls,isIdleInput sender calls⟩ := by
  unfold InputWatermarkTracker.stateOf
  rw [follows sender]
  by_cases known : sender ∈ configured initial calls
  · simp [known]
  · obtain ⟨nothing,awake⟩ := unconfigured initial calls sender known
    simp [known,highestReported,nothing,awake,InputState.new]

theorem Follows.call (next : TrackerCall ι) : Follows initial (calls ++ [next]) (t.call next).1 := by
  intro input
  cases next with
  | onControl sender control =>
    refine (t.onControl_get? sender control input).trans ?_
    rw [follows.stateOf]
    by_cases same : input = sender
    · subst same
      have listed : input ∈ configured initial (calls ++ [.onControl input control]) := by
        simp [configured,foldl_append]
      rw [if_pos rfl,if_pos listed,some_inj]
      cases control with
      | watermark timestamp =>
        simp [InputState.after,highestReported,reported,isIdleInput,foldl_append,StreamControl.reports,max?_concat]
      | inputIdle =>
        simp [InputState.after,highestReported,reported,isIdleInput,foldl_append,StreamControl.reports]
      | inputActive resumeWatermark =>
        cases resumeWatermark <;>
          simp [InputState.after,highestReported,reported,isIdleInput,foldl_append,StreamControl.reports,max?_concat]
    · have kept : configured initial (calls ++ [.onControl sender control]) =
          (configured initial calls).insert sender := by simp [configured,foldl_append]
      rw [if_neg same,follows,kept]
      simp [same,Ne.symm same,highestReported,reported,isIdleInput,foldl_append]
  | reconfigureInputs inputIds =>
    refine (t.reconfigureInputs_get? inputIds input).trans ?_
    rw [follows.stateOf]
    have listed : configured initial (calls ++ [.reconfigureInputs inputIds]) = inputIds := by
      simp [configured,foldl_append]
    rw [listed]
    by_cases known : input ∈ inputIds <;> simp [known,highestReported,reported,isIdleInput,foldl_append]

end

theorem run_snoc (t : InputWatermarkTracker ι) (calls : List (TrackerCall ι)) (next : TrackerCall ι) :
    t.run (calls ++ [next]) =
      (((t.run calls).1.call next).1,(t.run calls).2 ++ ((t.run calls).1.call next).2) := by
  simp [run,foldl_append]

theorem run_follows (calls : List (TrackerCall ι)) : Follows initial calls ((init initial).run calls).1 := by
  induction calls using List.reverseRecOn with
  | nil => exact Follows.init initial
  | append_singleton before last ih =>
    rw [run_snoc]
    exact ih.call initial before _ last

def Exact (calls : List (TrackerCall ι)) : Prop :=
  ∀ before, before <+: calls →
    ((init initial).run before).1.currentWatermark = runningWatermark initial before

theorem exact_snoc (calls : List (TrackerCall ι)) (next : TrackerCall ι) (exact' : Exact initial calls) :
    Exact initial (calls ++ [next]) ↔ ¬ ((init initial).run calls).1.Overlooks next := by
  have follows := run_follows initial calls
  have current : ((init initial).run calls).1.outputWatermark = runningWatermark initial calls :=
    exact' calls (prefix_refl calls)
  have settled (minimum : Nat) (found : ((init initial).run calls).1.candidate = some minimum) :
      (minimum : Int) ≤ ((init initial).run calls).1.outputWatermark := by
    rw [follows.candidate] at found
    rw [current]
    exact minimum_le_running initial calls minimum found
  rw [← call_progress _ settled next,(follows.call initial calls _ next).candidate,current,← runningWatermark_snoc]
  constructor
  · intro all
    have last := all (calls ++ [next]) (prefix_refl _)
    rw [run_snoc] at last
    exact last
  · intro last before inside
    rcases prefix_concat_iff.mp inside with rfl | earlier
    · rw [run_snoc]
      exact last
    · exact exact' before earlier

/-- The aggregate is exact throughout a list of calls exactly when no repeated
watermark that wakes an input is overlooked. -/
theorem watermark_exact (calls : List (TrackerCall ι)) : Exact initial calls ↔
    ∀ before next, before ++ [next] <+: calls → ¬ ((init initial).run before).1.Overlooks next := by
  induction calls using List.reverseRecOn with
  | nil =>
    constructor
    · intro _ before next impossible
      have long := impossible.length_le
      simp at long
    · intro _ before inside
      obtain rfl := prefix_nil.mp inside
      simp [run,init,currentWatermark,runningWatermark,minimumWatermark_nil,raise]
  | append_singleton earlier last ih =>
    constructor
    · intro exact' before next inside
      have exact'' : Exact initial earlier := fun other within => exact' other (within.trans (prefix_append _ _))
      rcases prefix_concat_iff.mp inside with same | within
      · obtain ⟨rfl,same'⟩ := append_inj' same rfl
        obtain rfl := singleton_inj.mp same'
        exact (exact_snoc initial before next exact'').mp exact'
      · exact ih.mp exact'' before next within
    · intro none
      have exact'' : Exact initial earlier :=
        ih.mpr (fun before next within => none before next (within.trans (prefix_append _ _)))
      exact (exact_snoc initial earlier last exact'').mpr (none earlier last (prefix_refl _))

end progress

/-- Two inputs go idle one after the other, and the faster one repeats its watermark. -/
theorem repeated_watermark_overlooked : ¬ ∀ calls : List (TrackerCall Nat), Exact [0,1] calls := by
  intro all
  have exact' := all [.onControl 0 (.watermark 3),.onControl 1 (.watermark 10),.onControl 1 .inputIdle,
    .onControl 0 .inputIdle,.onControl 1 (.watermark 10)] _ (prefix_refl _)
  revert exact'
  decide

end InputWatermarkTracker
end Klein.EventTime
