import Klein.EventTime.WindowRuns
import Klein.Runs

/-! Runs of the window operator: records, watermarks, and `finish` at the end of its
input. -/
namespace Klein.EventTime
open List

inductive WindowInput (β : Type) where
  | record (block : β) (timestamp : Int)
  | watermark (timestamp : Int)

namespace WindowOperator
variable {κ β : Type} [DecidableEq κ] (c : WindowConfig κ β)

/-- `process_element` or a watermark; nothing where a negative timestamp or a timer that
eight bytes do not hold raises. -/
def step (o : WindowOperator κ β) : WindowInput β → Option (WindowOperator κ β)
  | .record block timestamp =>
    if timestamp < 0 then none
    else
      let next := o.processManagedElement c block timestamp
      if next.timers.all (fun timer => timer.timestamp < 2 ^ 64) then some next else none
  | .watermark timestamp => some (o.onEventTimeWatermark c timestamp)

/-- The bound of `finish`. -/
def lastTimestamp : Int := 2 ^ 63 - 1

/-- `finish` -/
def finish (o : WindowOperator κ β) : WindowOperator κ β :=
  (o.dueTimers c lastTimestamp).foldl onTimer {o with
    timers := o.timers.filter (fun timer => ¬ timer.timestamp ≤ lastTimestamp)}

theorem step_record (o next : WindowOperator κ β) (block : β) (timestamp : Int) (taken : o.step c (.record block timestamp) = some next) :
    0 ≤ timestamp ∧ o.processManagedElement c block timestamp = next := by
  rw [step] at taken
  split at taken
  next => cases taken
  next valid =>
    dsimp only at taken
    split at taken
    next => exact ⟨Int.not_lt.mp valid,Option.some.inj taken⟩
    next => cases taken

section reducing

def reduced (blocks : List β) : Option β := blocks.foldl (join c) none

omit [DecidableEq κ] in
theorem reduced_append (blocks : List β) (block : β) : reduced c (blocks ++ [block]) = join c (reduced c blocks) block := by
  unfold reduced
  rw [foldl_append]
  rfl

omit [DecidableEq κ] in
theorem reduced_eq_none (blocks : List β) : reduced c blocks = none ↔ blocks = [] := by
  cases blocks with
  | nil => simp [reduced]
  | cons first rest =>
    have known (rest : List β) (before : β) : rest.foldl (join c) (some before) ≠ none := by
      induction rest generalizing before with
      | nil => simp
      | cons block rest ih => exact ih _
    refine iff_of_false (known rest _) (by simp)

end reducing

section finishing

theorem foldl_onTimer_watermark (due : List (WindowTimer κ)) (o : WindowOperator κ β) (watermark : Int) :
    due.foldl onTimer {o with currentWatermark := watermark} = {due.foldl onTimer o with currentWatermark := watermark} := by
  induction due generalizing o with
  | nil => rfl
  | cons timer rest ih =>
    have first : onTimer {o with currentWatermark := watermark} timer = {o.onTimer timer with currentWatermark := watermark} := by
      unfold onTimer
      dsimp only
      split <;> rfl
    rw [foldl_cons,foldl_cons,first]
    exact ih (o.onTimer timer)

theorem finish_fires (o : WindowOperator κ β) (scheduled : Scheduled c o) :
    Fires c o lastTimestamp {o.finish c with currentWatermark := lastTimestamp} := by
  have ahead : lastTimestamp - 1 < lastTimestamp := by decide
  have fires := onEventTimeWatermark_fires c {o with currentWatermark := lastTimestamp - 1} {scheduled with}
    lastTimestamp ahead
  have same : onEventTimeWatermark c {o with currentWatermark := lastTimestamp - 1} lastTimestamp =
      {o.finish c with currentWatermark := lastTimestamp} := by
    unfold onEventTimeWatermark finish
    rw [if_neg (Int.not_le.mpr ahead)]
    exact foldl_onTimer_watermark (o.dueTimers c lastTimestamp) {o with
      timers := o.timers.filter (fun timer => ¬ timer.timestamp ≤ lastTimestamp)} lastTimestamp
  rw [same] at fires
  exact {fires with}

end finishing
end WindowOperator
end Klein.EventTime
