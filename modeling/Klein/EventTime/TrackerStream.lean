import Mathlib
import Klein.EventTime.TrackerProgress

/-! The controls that a tracker returns are themselves a control stream, and a
tracker that reads them as its only input knows what the first one does. -/
namespace Klein.EventTime
open Dict List Option

inductive StreamElement (ρ : Type) where
  | record (record : ρ)
  | control (control : StreamControl)
deriving DecidableEq, Repr

structure Shown where
  watermark : Int
  idle : Bool
deriving DecidableEq, Repr

def Shown.start : Shown := ⟨-1,false⟩

def Shown.after {ρ : Type} (shown : Shown) : StreamElement ρ → Shown
  | .record _ => shown
  | .control (.watermark timestamp) => {shown with watermark := timestamp}
  | .control .inputIdle => {shown with idle := true}
  | .control (.inputActive _) => {shown with idle := false}

/-- Watermarks rise strictly, `InputIdle` and `InputActive` alternate, and an idle
stream carries neither a record nor a watermark. -/
def Shown.Allows {ρ : Type} (shown : Shown) : StreamElement ρ → Prop
  | .record _ => shown.idle = false
  | .control (.watermark timestamp) => shown.idle = false ∧ shown.watermark < timestamp
  | .control .inputIdle => shown.idle = false
  | .control (.inputActive _) => shown.idle = true

def WellFormed {ρ : Type} : Shown → List (StreamElement ρ) → Prop
  | _,[] => True
  | shown,element::rest => shown.Allows element ∧ WellFormed (shown.after element) rest

def shownBy {ρ : Type} (shown : Shown) (elements : List (StreamElement ρ)) : Shown := elements.foldl Shown.after shown

theorem WellFormed.append {ρ : Type} (shown : Shown) (first second : List (StreamElement ρ)) :
    WellFormed shown (first ++ second) ↔ WellFormed shown first ∧ WellFormed (shownBy shown first) second := by
  induction first generalizing shown with
  | nil => simp [WellFormed,shownBy]
  | cons element rest ih =>
    simp only [cons_append,WellFormed,ih,and_assoc]
    rfl

inductive Speaks : Shown → List StreamControl → Shown → Prop where
  | nil (shown : Shown) : Speaks shown [] shown
  | watermark (before : Int) (timestamp : Nat) (rest : List StreamControl) (last : Shown) (rises : before < timestamp)
      (after : Speaks ⟨timestamp,false⟩ rest last) : Speaks ⟨before,false⟩ (.watermark timestamp::rest) last
  | inputIdle (watermark : Int) (rest : List StreamControl) (last : Shown) (after : Speaks ⟨watermark,true⟩ rest last) :
      Speaks ⟨watermark,false⟩ (.inputIdle::rest) last
  | inputActive (watermark : Int) (rest : List StreamControl) (last : Shown) (after : Speaks ⟨watermark,false⟩ rest last) :
      Speaks ⟨watermark,true⟩
        (.inputActive (if watermark < 0 then none else some watermark.toNat)::rest) last

theorem Speaks.append (first middle last : Shown) (one two : List StreamControl) (speaks : Speaks first one middle)
    (speaks' : Speaks middle two last) : Speaks first (one ++ two) last := by
  induction speaks with
  | nil => exact speaks'
  | watermark before timestamp rest _ rises _ ih => exact .watermark before timestamp _ last rises (ih speaks')
  | inputIdle watermark rest _ _ ih => exact .inputIdle watermark _ last (ih speaks')
  | inputActive watermark rest _ _ ih => exact .inputActive watermark _ last (ih speaks')

theorem Speaks.wellFormed {ρ : Type} (first last : Shown) (controls : List StreamControl)
    (speaks : Speaks first controls last) :
    WellFormed first (controls.map (StreamElement.control (ρ := ρ))) ∧
      shownBy first (controls.map (StreamElement.control (ρ := ρ))) = last := by
  induction speaks with
  | nil shown => exact ⟨trivial,rfl⟩
  | watermark before timestamp rest last rises _ ih => exact ⟨⟨⟨rfl,rises⟩,ih.1⟩,ih.2⟩
  | inputIdle watermark rest last _ ih => exact ⟨⟨rfl,ih.1⟩,ih.2⟩
  | inputActive watermark rest last _ ih => exact ⟨⟨rfl,ih.1⟩,ih.2⟩

namespace InputWatermarkTracker
variable {ι : Type} (t : InputWatermarkTracker ι)

def shown : Shown := ⟨t.outputWatermark,t.outputIdle⟩

theorem advance_speaks (active : t.outputIdle = false) :
    Speaks t.shown t.advance.2 t.advance.1.shown ∧ t.advance.1.outputIdle = false := by
  unfold advance shown
  rw [active]
  split
  · exact ⟨active ▸ .nil _,active⟩
  split
  · exact ⟨active ▸ .nil _,active⟩
  · exact ⟨.watermark _ _ _ _ (by omega) (.nil _),rfl⟩

theorem reactivateOutput_speaks : Speaks t.shown (t.reactivateOutput t.outputIdle).2
    (t.reactivateOutput t.outputIdle).1.shown ∧ (t.reactivateOutput t.outputIdle).1.outputIdle = false := by
  unfold reactivateOutput shown
  cases idle : t.outputIdle with
  | false => exact ⟨by simpa [idle] using Speaks.nil _,idle⟩
  | true => exact ⟨.inputActive _ _ _ (.nil _),rfl⟩

theorem reactivateAndAdvance_eq (shouldReactivate due : Bool) : t.reactivateAndAdvance shouldReactivate due =
    if due then ((t.reactivateOutput shouldReactivate).1.advance.1,
      (t.reactivateOutput shouldReactivate).2 ++ (t.reactivateOutput shouldReactivate).1.advance.2)
    else t.reactivateOutput shouldReactivate := by
  cases due <;> rfl

theorem reactivateAndAdvance_speaks (due : Bool) : Speaks t.shown (t.reactivateAndAdvance t.outputIdle due).2
    (t.reactivateAndAdvance t.outputIdle due).1.shown ∧ (t.reactivateAndAdvance t.outputIdle due).1.outputIdle = false := by
  obtain ⟨wakes,awake⟩ := t.reactivateOutput_speaks
  rw [reactivateAndAdvance_eq]
  cases due with
  | false => exact ⟨wakes,awake⟩
  | true =>
    obtain ⟨advances,awake'⟩ := (t.reactivateOutput t.outputIdle).1.advance_speaks awake
    exact ⟨wakes.append _ _ _ _ _ advances,awake'⟩

theorem idleOutput_speaks : Speaks t.shown t.idleOutput.2 t.idleOutput.1.shown ∧ t.idleOutput.1.outputIdle = true := by
  unfold idleOutput shown
  cases idle : t.outputIdle with
  | false => exact ⟨.inputIdle _ _ _ (.nil _),rfl⟩
  | true => exact ⟨by simpa [idle] using Speaks.nil _,idle⟩

variable [DecidableEq ι]

structure Coherent (t : InputWatermarkTracker ι) : Prop where
  populated : ∃ input state, t.inputs.get? input = some state
  idle : t.outputIdle = true ↔ ∀ input state, t.inputs.get? input = some state → state.idle = true

theorem all_idle (inputs : Dict ι InputState) : inputs.values.all InputState.idle = true ↔
    ∀ input state, inputs.get? input = some state → state.idle = true := by
  rw [List.all_eq_true]
  constructor
  · exact fun all input state found => all state ((mem_values _ _).mpr ⟨input,found⟩)
  · rintro all state inside
    obtain ⟨input,found⟩ := (mem_values _ _).mp inside
    exact all input state found

theorem Coherent.awake (input : ι) (state : InputState) (found : t.inputs.get? input = some state)
    (active : state.idle = false) (output : t.outputIdle = false) : Coherent t := by
  refine ⟨⟨input,state,found⟩,?_⟩
  constructor
  · intro idle
    rw [output] at idle
    contradiction
  · intro all
    rw [all input state found] at active
    contradiction

structure Said (t : InputWatermarkTracker ι) (result : InputWatermarkTracker ι × List StreamControl) : Prop where
  speaks : Speaks t.shown result.2 result.1.shown
  coherent : Coherent result.1

theorem Said.reactivates (next : InputWatermarkTracker ι) (same : next.shown = t.shown) (due : Bool) (input : ι)
    (state : InputState) (found : next.inputs.get? input = some state) (active : state.idle = false) :
    Said t (next.reactivateAndAdvance next.outputIdle due) := by
  obtain ⟨speaks,awake⟩ := next.reactivateAndAdvance_speaks due
  obtain ⟨inputs,-⟩ := reactivateAndAdvance_spec next next.outputIdle due
  exact ⟨same ▸ speaks,Coherent.awake _ input state (inputs.symm ▸ found) active awake⟩

theorem Said.idles (next : InputWatermarkTracker ι) (same : next.shown = t.shown)
    (populated : ∃ input state, next.inputs.get? input = some state)
    (all : next.inputs.values.all InputState.idle = true) : Said t next.idleOutput := by
  obtain ⟨speaks,asleep⟩ := next.idleOutput_speaks
  obtain ⟨inputs,-⟩ := next.idleOutput_spec
  refine ⟨same ▸ speaks,by rwa [inputs],?_⟩
  rw [asleep,inputs]
  exact iff_of_true rfl ((all_idle next.inputs).mp all)

theorem Coherent.onControl (coherent : Coherent t) (sender : ι) (control : StreamControl) : Said t (t.onControl sender control) := by
  have admitted := t.admitted_get? sender
  cases control with
  | watermark timestamp =>
    change Said t ((t.admitted sender).onWatermark sender (t.stateOf sender) timestamp)
    dsimp only [onWatermark]
    generalize watermark : (if (t.stateOf sender).watermark.all (fun watermark => decide (watermark < timestamp)) then
      some timestamp else (t.stateOf sender).watermark) = reported
    generalize (t.stateOf sender).watermark.all (fun watermark => decide (watermark < timestamp)) = newer
    generalize built : (InputWatermarkTracker.mk ((t.admitted sender).inputs.set sender ⟨reported,false⟩)
      (t.admitted sender).outputWatermark (t.admitted sender).outputIdle) = next
    have inputs (input : ι) : next.inputs.get? input =
        if input = sender then some ⟨reported,false⟩ else t.inputs.get? input := by
      rw [← built,Dict.get?_set,admitted]
      split <;> rfl
    have output : next.shown = t.shown := by rw [← built]; rfl
    -- an idle sender among idle inputs means that the output was idle already
    have same : ((t.admitted sender).outputIdle || ((t.stateOf sender).idle && next.allInputsWereIdleExcept sender)) =
        next.outputIdle := by
      rw [show next.outputIdle = (t.admitted sender).outputIdle from congrArg Shown.idle output,Bool.or_eq_left_iff_imp,
        Bool.and_eq_true]
      rintro ⟨asleep,others⟩
      refine coherent.idle.mpr (fun input state found => ?_)
      by_cases own : input = sender
      · subst own
        rwa [stateOf,found] at asleep
      · have member : (input,state) ∈ next.inputs.entries := by
          rw [← Dict.get?_eq_some,inputs,if_neg own,found]
        simpa [own] using List.all_eq_true.mp others _ member
    rw [same]
    exact Said.reactivates t next output newer sender ⟨reported,false⟩ (by rw [inputs,if_pos rfl]) rfl
  | inputIdle =>
    change Said t ((t.admitted sender).onIdle sender (t.stateOf sender))
    dsimp only [onIdle]
    have known : (t.admitted sender).inputs.get? sender = some (t.stateOf sender) := by rw [admitted,if_pos rfl]
    split
    next asleep =>
      refine ⟨.nil _,⟨sender,_,known⟩,coherent.idle.trans (forall_congr' (fun input => ?_))⟩
      rw [admitted]
      by_cases own : input = sender
      · subst own
        cases found : t.inputs.get? input with
        | none => simp [stateOf,found,InputState.new] at asleep
        | some state => simp [stateOf,found]
      · rw [if_neg own]
    have own : ((t.admitted sender).inputs.set sender {t.stateOf sender with idle := true}).get? sender =
        some {t.stateOf sender with idle := true} := by rw [Dict.get?_set,if_pos rfl]
    split
    next all => exact Said.idles t {t.admitted sender with inputs := (t.admitted sender).inputs.set sender _} rfl ⟨sender,_,own⟩ all
    next active =>
      rw [all_idle] at active
      push Not at active
      obtain ⟨input,state,found,awake⟩ := active
      have different : input ≠ sender := by
        rintro rfl
        rw [own] at found
        cases found
        exact awake rfl
      rw [Dict.get?_set,if_neg different,admitted,if_neg different] at found
      have output : t.outputIdle = false := by
        rw [Bool.eq_false_iff]
        exact fun idle => awake (coherent.idle.mp idle input state found)
      obtain ⟨speaks,quiet⟩ := advance_speaks
        {t.admitted sender with inputs := (t.admitted sender).inputs.set sender {t.stateOf sender with idle := true}} output
      refine ⟨speaks,Coherent.awake _ input state ?_ (by simpa using awake) quiet⟩
      rw [advance_spec]
      dsimp only
      rw [Dict.get?_set,if_neg different,admitted,if_neg different,found]
  | inputActive resumeWatermark =>
    exact Said.reactivates t _ (by rfl) true sender _ ((Dict.get?_set _ _ _ _).trans (if_pos rfl)) rfl

theorem reconfigureInputs_said (inputIds : List ι) (some' : inputIds ≠ []) :
    Said t (t.reconfigureInputs inputIds) := by
  obtain ⟨first,inside⟩ := exists_mem_of_ne_nil inputIds some'
  have found := get?_ofKeys inputIds t.stateOf first
  rw [if_pos inside] at found
  unfold InputWatermarkTracker.reconfigureInputs
  dsimp only
  split
  next empty =>
    rw [Dict.isEmpty_iff] at empty
    have absent := empty first
    rw [show Dict.ofList (inputIds.map (fun inputId => (inputId,(t.inputs.get? inputId).getD InputState.new))) =
      Dict.ofList (inputIds.map (fun other => (other,t.stateOf other))) from rfl,found] at absent
    contradiction
  split
  next all => exact Said.idles t _ (by rfl) ⟨first,_,found⟩ all
  next active =>
    rw [all_idle] at active
    push Not at active
    obtain ⟨input,state,found,awake⟩ := active
    exact Said.reactivates t _ (by rfl) true input state found (by simpa using awake)

def Populates : TrackerCall ι → Prop
  | .onControl _ _ => True
  | .reconfigureInputs inputIds => inputIds ≠ []

theorem Coherent.call (coherent : Coherent t) (next : TrackerCall ι) (populates : Populates next) : Said t (t.call next) := by
  cases next with
  | onControl sender control => exact coherent.onControl t sender control
  | reconfigureInputs inputIds => exact t.reconfigureInputs_said inputIds populates

theorem Coherent.init (initial : List ι) (some' : initial ≠ []) : Coherent (init initial) := by
  obtain ⟨first,inside⟩ := exists_mem_of_ne_nil initial some'
  have found := get?_ofKeys initial (fun _ => InputState.new) first
  rw [if_pos inside] at found
  exact Coherent.awake _ first InputState.new found rfl rfl

theorem run_said (initial : List ι) (some' : initial ≠ []) (calls : List (TrackerCall ι))
    (populate : ∀ next ∈ calls, Populates next) : Said (InputWatermarkTracker.init initial) ((init initial).run calls) := by
  induction calls using List.reverseRecOn with
  | nil => exact ⟨.nil _,Coherent.init initial some'⟩
  | append_singleton before last ih =>
    have earlier := ih (fun next inside => populate next (mem_append_left _ inside))
    have said := earlier.coherent.call _ last (populate last (by simp))
    rw [run_snoc]
    exact ⟨earlier.speaks.append _ _ _ _ _ said.speaks,said.coherent⟩

section echo
variable {κ : Type} [DecidableEq κ] (input : κ)

def told (shown : Shown) : InputState := ⟨if shown.watermark < 0 then none else some shown.watermark.toNat,shown.idle⟩

structure Echoes (shown : Shown) (receiver : InputWatermarkTracker κ) : Prop where
  only : ∀ other, receiver.inputs.get? other = if other = input then some (told shown) else none
  same : receiver.shown = shown

theorem Echoes.coherent (shown : Shown) (receiver : InputWatermarkTracker κ) (echoes : Echoes input shown receiver) :
    Coherent receiver := by
  have own := echoes.only input
  rw [if_pos rfl] at own
  refine ⟨⟨input,_,own⟩,?_⟩
  rw [show receiver.outputIdle = shown.idle from congrArg Shown.idle echoes.same]
  constructor
  · intro idle other state found
    rw [echoes.only] at found
    split at found
    · cases found
      exact idle
    · contradiction
  · exact fun all => all input _ own

theorem candidate_single (receiver : InputWatermarkTracker κ) (state : InputState)
    (only : ∀ other, receiver.inputs.get? other = if other = input then some state else none) :
    receiver.candidate = if state.idle then none else state.watermark := by
  apply Option.ext
  intro minimum
  obtain ⟨watermark,idle⟩ := state
  rw [candidate_eq_some]
  simp only [only,ite_none_right_eq_some,Option.some.injEq,InputState.mk.injEq]
  cases idle
  · constructor
    · rintro ⟨⟨other,-,rfl,-⟩,-⟩
      rfl
    · intro found
      refine ⟨⟨input,rfl,found,rfl⟩,?_⟩
      rintro other state ⟨-,rfl⟩ -
      exact ⟨minimum,found,Nat.le_refl _⟩
  · simp

theorem Echoes.receive (shown next : Shown) (receiver : InputWatermarkTracker κ) (echoes : Echoes input shown receiver)
    (control : StreamControl) (tells : (told shown).after control = told next)
    (rises : next.watermark = raise shown.watermark (if next.idle then none else (told next).watermark))
    (awake : ∀ timestamp, control = .watermark timestamp → shown.idle = false) :
    Echoes input next (receiver.call (.onControl input control)).1 := by
  have own := echoes.only input
  rw [if_pos rfl] at own
  have state : receiver.stateOf input = told shown := by simp [stateOf,own]
  have only (other : κ) : (receiver.call (.onControl input control)).1.inputs.get? other =
      if other = input then some (told next) else none := by
    refine (receiver.onControl_get? input control other).trans ?_
    rw [state,tells,echoes.only]
    by_cases same : other = input <;> simp [same]
  have before : receiver.outputWatermark = shown.watermark := congrArg Shown.watermark echoes.same
  have settled (minimum : Nat) (found : receiver.candidate = some minimum) :
      (minimum : Int) ≤ receiver.outputWatermark := by
    rw [candidate_single input receiver _ echoes.only] at found
    have reported := (ite_none_left_eq_some.mp found).2
    simp only [told,ite_none_left_eq_some,Option.some.injEq] at reported
    omega
  have counted : ¬ receiver.Overlooks (.onControl input control) := by
    intro overlooks
    cases control with
    | watermark timestamp =>
      have asleep : (told shown).idle = true := overlooks.1 input _ own
      rw [show (told shown).idle = shown.idle from rfl,awake timestamp rfl] at asleep
      contradiction
    | inputIdle => exact overlooks
    | inputActive resumeWatermark => exact overlooks
  have progress := (receiver.call_progress settled _).mpr counted
  rw [candidate_single input _ _ only,before] at progress
  have coherent := ((echoes.coherent input shown receiver).call receiver (.onControl input control) trivial).coherent
  refine ⟨only,?_⟩
  unfold InputWatermarkTracker.shown
  have idle : (receiver.call (.onControl input control)).1.outputIdle = next.idle := by
    rw [Bool.eq_iff_iff,coherent.idle]
    constructor
    · exact fun all => all input _ ((only input).trans (if_pos rfl))
    · intro asleep other known found
      rw [only] at found
      obtain ⟨-,same⟩ := ite_none_right_eq_some.mp found
      cases same
      exact asleep
  rw [progress,idle]
  exact congrArg (Shown.mk · next.idle) rises.symm

theorem run_fst (t : InputWatermarkTracker κ) (calls : List (TrackerCall κ)) :
    (t.run calls).1 = calls.foldl (fun tracker next => (tracker.call next).1) t := by
  induction calls using List.reverseRecOn with
  | nil => rfl
  | append_singleton before last ih => rw [run_snoc,foldl_append,ih]; rfl

theorem Echoes.receives (shown last : Shown) (controls : List StreamControl) (speaks : Speaks shown controls last)
    (receiver : InputWatermarkTracker κ) (echoes : Echoes input shown receiver) :
    Echoes input last (receiver.run (controls.map (TrackerCall.onControl input))).1 := by
  rw [run_fst]
  induction speaks generalizing receiver with
  | nil => exact echoes
  | watermark before timestamp rest last rises _ ih =>
    refine ih _ (echoes.receive input _ _ receiver (.watermark timestamp) ?_ ?_ (fun _ _ => rfl))
    · by_cases fresh : before < 0
      · simp [told,InputState.after,fresh]
      · have less : before.toNat ≤ timestamp := by omega
        simp [told,InputState.after,fresh,less]
    · have stamped : ¬ (timestamp : Int) < 0 := by omega
      simp only [told,stamped,Bool.false_eq_true,if_false,raise,Int.toNat_natCast]
      omega
  | inputIdle watermark rest last _ ih =>
    refine ih _ (echoes.receive input _ _ receiver .inputIdle rfl ?_ (fun _ impossible => by contradiction))
    rfl
  | inputActive watermark rest last _ ih =>
    refine ih _ (echoes.receive input _ _ receiver _ ?_ ?_ (fun _ impossible => by contradiction))
    · by_cases fresh : watermark < 0 <;> simp [told,InputState.after,fresh]
    · by_cases fresh : watermark < 0
      · simp [told,fresh,raise]
      · simp only [told,fresh,Bool.false_eq_true,if_false,raise]
        omega

theorem Echoes.init : Echoes input Shown.start (InputWatermarkTracker.init [input]) := by
  refine ⟨fun other => ?_,rfl⟩
  refine (get?_ofKeys [input] (fun _ => InputState.new) other).trans ?_
  simp [told,Shown.start,InputState.new]

end echo

/-- What a tracker returns is a well-formed control stream that shows its aggregate
and its idleness, and a second tracker fed with it agrees with the first. -/
theorem outputs_form_control_stream {κ : Type} [DecidableEq κ] (initial : List ι) (some' : initial ≠ [])
    (calls : List (TrackerCall ι)) (populate : ∀ next ∈ calls, Populates next) :
    let tracker := ((InputWatermarkTracker.init initial).run calls).1
    let outputs := ((InputWatermarkTracker.init initial).run calls).2
    WellFormed Shown.start (outputs.map (StreamElement.control (ρ := Empty))) ∧
      (tracker.isIdle = true ↔ ∀ input state, tracker.inputs.get? input = some state → state.idle = true) ∧
      ∀ input : κ, let second := ((InputWatermarkTracker.init [input]).run
          (outputs.map (TrackerCall.onControl input))).1
        second.currentWatermark = tracker.currentWatermark ∧ second.isIdle = tracker.isIdle := by
  have said := run_said initial some' calls populate
  refine ⟨(said.speaks.wellFormed _ _ _).1,said.coherent.idle,fun input => ?_⟩
  have echoes := Echoes.receives input _ _ _ said.speaks _ (Echoes.init input)
  exact ⟨congrArg Shown.watermark echoes.same,congrArg Shown.idle echoes.same⟩

theorem outputs_of_two_inputs :
    ((InputWatermarkTracker.init [true,false]).run [.onControl true (.watermark 4),.onControl false .inputIdle,
        .reconfigureInputs [false],.onControl false (.inputActive (some 6))]).2 =
      [.watermark 4,.inputIdle,.inputActive (some 4),.watermark 6] ∧
    WellFormed Shown.start ((((InputWatermarkTracker.init [true,false]).run [.onControl true (.watermark 4),
      .onControl false .inputIdle,.reconfigureInputs [false],.onControl false (.inputActive (some 6))]).2).map
        (StreamElement.control (ρ := Empty))) :=
  ⟨by decide,(outputs_form_control_stream (κ := Unit) [true,false] (by decide) _ (by simp [Populates])).1⟩

end InputWatermarkTracker
end Klein.EventTime
