import Klein.Dict

/-! Minimum-watermark and idle-input aggregation of one task
(`runtime/event_time/input_watermark_tracker.py`). The timestamps of the controls
are validated when the controls are made (`runtime/message.py`); a task hands no
rescale barrier to its tracker. -/
namespace Klein.EventTime

inductive StreamControl where
  | watermark (timestamp : Nat)
  | inputIdle
  | inputActive (resumeWatermark : Option Nat)
deriving DecidableEq, Repr

structure InputState where
  watermark : Option Nat
  idle : Bool
deriving DecidableEq, Repr

def InputState.new : InputState := ⟨none,false⟩

structure InputWatermarkTracker (ι : Type) where
  inputs : Dict ι InputState
  outputWatermark : Int
  outputIdle : Bool

variable {ι : Type} [DecidableEq ι]

namespace InputWatermarkTracker

def init (inputIds : List ι) : InputWatermarkTracker ι where
  inputs := Dict.ofList (inputIds.map (fun inputId => (inputId,InputState.new)))
  outputWatermark := -1
  outputIdle := false

variable (t : InputWatermarkTracker ι)

def currentWatermark : Int := t.outputWatermark
def isIdle : Bool := t.outputIdle

/-- `_resume_watermark` -/
def resumeWatermark : Option Nat :=
  if t.outputWatermark < 0 then none else some t.outputWatermark.toNat

/-- What `_advance` takes for the aggregate: the least watermark of the active
inputs, once there is one and each of them has reported. -/
def candidate : Option Nat :=
  let active := t.inputs.values.filter (fun state => ! state.idle)
  if active.any (fun state => state.watermark.isNone) then none
  else (active.filterMap InputState.watermark).min?

/-- `_advance` -/
def advance : InputWatermarkTracker ι × List StreamControl :=
  match t.candidate with
  | none => (t,[])
  | some candidate =>
    if (candidate : Int) ≤ t.outputWatermark then (t,[])
    else ({t with outputWatermark := candidate},[.watermark candidate])

/-- `_reactivate_output` -/
def reactivateOutput (shouldReactivate : Bool) : InputWatermarkTracker ι × List StreamControl :=
  if shouldReactivate then ({t with outputIdle := false},[.inputActive t.resumeWatermark]) else (t,[])

/-- `_reactivate_output` and then `_advance`, where it is due. -/
def reactivateAndAdvance (shouldReactivate due : Bool) : InputWatermarkTracker ι × List StreamControl :=
  let (reactivated,output) := t.reactivateOutput shouldReactivate
  if due then
    let (advanced,progress) := reactivated.advance
    (advanced,output ++ progress)
  else (reactivated,output)

def idleOutput : InputWatermarkTracker ι × List StreamControl :=
  if t.outputIdle then (t,[]) else ({t with outputIdle := true},[.inputIdle])

/-- `reconfigure_inputs` -/
def reconfigureInputs (inputIds : List ι) : InputWatermarkTracker ι × List StreamControl :=
  let next := {t with
    inputs := Dict.ofList (inputIds.map (fun inputId => (inputId,(t.inputs.get? inputId).getD InputState.new)))}
  if next.inputs.isEmpty then (next,[])
  else if next.inputs.values.all InputState.idle then next.idleOutput
  else next.reactivateAndAdvance next.outputIdle true

/-- `_all_inputs_were_idle_except` -/
def allInputsWereIdleExcept (sender : ι) : Bool :=
  t.inputs.entries.all (fun item => item.1 = sender || item.2.idle)

/-- `_on_watermark` of the sender's own state. -/
def onWatermark (sender : ι) (state : InputState) (timestamp : Nat) : InputWatermarkTracker ι × List StreamControl :=
  let wasIdle := state.idle
  let isNewer := state.watermark.all (fun watermark => decide (watermark < timestamp))
  let next := {t with
    inputs := t.inputs.set sender ⟨if isNewer then some timestamp else state.watermark,false⟩}
  next.reactivateAndAdvance (next.outputIdle || (wasIdle && next.allInputsWereIdleExcept sender)) isNewer

/-- `_on_idle` -/
def onIdle (sender : ι) (state : InputState) : InputWatermarkTracker ι × List StreamControl :=
  if state.idle then (t,[])
  else
    let next := {t with inputs := t.inputs.set sender {state with idle := true}}
    if next.inputs.values.all InputState.idle then next.idleOutput else next.advance

/-- `_on_active` -/
def onActive (sender : ι) (state : InputState) (resumeWatermark : Option Nat) :
    InputWatermarkTracker ι × List StreamControl :=
  let watermark := match resumeWatermark with
    | none => state.watermark
    | some resume => some ((state.watermark.map (fun previous => max previous resume)).getD resume)
  let next := {t with inputs := t.inputs.set sender ⟨watermark,false⟩}
  next.reactivateAndAdvance next.outputIdle true

/-- `on_control`; an unknown sender is taken in first. -/
def onControl (sender : ι) (control : StreamControl) : InputWatermarkTracker ι × List StreamControl :=
  let state := (t.inputs.get? sender).getD InputState.new
  let known := {t with inputs := if t.inputs.contains sender then t.inputs else t.inputs.set sender state}
  match control with
  | .watermark timestamp => known.onWatermark sender state timestamp
  | .inputIdle => known.onIdle sender state
  | .inputActive resumeWatermark => known.onActive sender state resumeWatermark

end InputWatermarkTracker

inductive TrackerCall (ι : Type) where
  | onControl (sender : ι) (control : StreamControl)
  | reconfigureInputs (inputIds : List ι)
deriving DecidableEq, Repr

namespace InputWatermarkTracker

def call (t : InputWatermarkTracker ι) : TrackerCall ι → InputWatermarkTracker ι × List StreamControl
  | .onControl sender control => t.onControl sender control
  | .reconfigureInputs inputIds => t.reconfigureInputs inputIds

def run (t : InputWatermarkTracker ι) (calls : List (TrackerCall ι)) : InputWatermarkTracker ι × List StreamControl :=
  calls.foldl (fun state call =>
    let (next,output) := state.1.call call
    (next,state.2 ++ output)) (t,[])

end InputWatermarkTracker
end Klein.EventTime
