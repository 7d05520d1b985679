import Klein.Dict
import Klein.Message

/-! Per-sender replay durability watermarks of a receiving task
(`runtime/worker/watermark.py`). A mark is pending from the moment its batch was
processed and becomes forwarded once the output behind it has left the task. -/
namespace Klein

inductive WatermarkMode where
  | disabled
  | pipelined
  | sink
deriving DecidableEq, Repr

structure WatermarkController where
  mode : WatermarkMode
  flushIntervalBatches : Nat
  flushPositive : 0 < flushIntervalBatches
  forwardedTo : Dict InputChannel Int
  pendingBySender : Dict InputChannel Int
  batchesSinceFlush : Nat

namespace WatermarkController

def init (mode : WatermarkMode) (flushIntervalBatches : Nat) (positive : 0 < flushIntervalBatches) :
    WatermarkController :=
  ⟨mode,flushIntervalBatches,positive,∅,∅,0⟩

def active (controller : WatermarkController) : Bool := controller.mode ≠ .disabled

def forwardedSequenceFor (controller : WatermarkController) : Option InputChannel → Int
  | none => -1
  | some sender => (controller.forwardedTo.get? sender).getD (-1)

/-- The table update of `apply_forwarded`; the pushed acknowledgement that
follows it is a message of the lane. -/
def applyForwarded (controller : WatermarkController) (sender : InputChannel) (sequence : Int) :
    WatermarkController :=
  {controller with forwardedTo :=
    controller.forwardedTo.set sender (max ((controller.forwardedTo.get? sender).getD (-1)) sequence)}

def noteProcessed (controller : WatermarkController) :
    Option InputChannel → Option Int → WatermarkController × Bool
  | some sender,some sequence =>
    let counted := controller.batchesSinceFlush + 1
    ({controller with
      pendingBySender :=
        controller.pendingBySender.set sender (max ((controller.pendingBySender.get? sender).getD (-1)) sequence)
      batchesSinceFlush := counted},decide (controller.flushIntervalBatches ≤ counted))
  | _,_ => (controller,false)

/-- The marks that `advance` publishes: none when the controller is inactive. -/
def due (controller : WatermarkController) : List (InputChannel × Int) :=
  if controller.active then controller.pendingBySender.entries else []

def dropPublished (pending : Dict InputChannel Int) (mark : InputChannel × Int) : Dict InputChannel Int :=
  if (pending.get? mark.1).getD (-1) ≤ mark.2 then pending.erase mark.1 else pending

/-- The bookkeeping of `advance` after its marks were published. -/
def settle (controller : WatermarkController) (published : List (InputChannel × Int)) : WatermarkController :=
  {controller with
    pendingBySender := published.foldl dropPublished controller.pendingBySender
    batchesSinceFlush := 0}

section
variable (controller : WatermarkController)
include controller

@[simp] theorem applyForwarded_pending (sender : InputChannel) (sequence : Int) :
    (controller.applyForwarded sender sequence).pendingBySender = controller.pendingBySender := rfl

theorem forwarded_applyForwarded (sender other : InputChannel) (sequence : Int) :
    (controller.applyForwarded sender sequence).forwardedSequenceFor (some other) =
      if other = sender then max (controller.forwardedSequenceFor (some other)) sequence
      else controller.forwardedSequenceFor (some other) := by
  by_cases same : other = sender <;> simp [forwardedSequenceFor,applyForwarded,same]

@[simp] theorem publish_pending (marks : List (InputChannel × Int)) :
    (marks.foldl (fun current mark => current.applyForwarded mark.1 mark.2) controller).pendingBySender =
      controller.pendingBySender := by
  induction marks generalizing controller with
  | nil => rfl
  | cons mark rest ih => exact ih (controller.applyForwarded mark.1 mark.2)

@[simp] theorem publish_mode (marks : List (InputChannel × Int)) :
    (marks.foldl (fun current mark => current.applyForwarded mark.1 mark.2) controller).mode = controller.mode := by
  induction marks generalizing controller with
  | nil => rfl
  | cons mark rest ih => exact ih (controller.applyForwarded mark.1 mark.2)

end

theorem dropPublished_get (pending : Dict InputChannel Int) (mark : InputChannel × Int) (sender : InputChannel)
    (sequence : Int) (found : (dropPublished pending mark).get? sender = some sequence) :
    pending.get? sender = some sequence := by
  unfold dropPublished at found
  split at found
  · by_cases same : sender = mark.1
    · simp [same] at found
    · simpa [same] using found
  · exact found

theorem settle_pending (controller : WatermarkController) (published : List (InputChannel × Int))
    (sender : InputChannel) (sequence : Int)
    (found : (controller.settle published).pendingBySender.get? sender = some sequence) :
    controller.pendingBySender.get? sender = some sequence := by
  unfold settle at found
  dsimp only at found
  induction published generalizing controller with
  | nil => exact found
  | cons mark rest ih =>
    exact dropPublished_get _ mark sender sequence
      (ih {controller with pendingBySender := dropPublished controller.pendingBySender mark} found)

end WatermarkController
end Klein
