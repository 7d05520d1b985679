import Klein.Dict
import Klein.EventTime.Durations
import Klein.Runs
import Mathlib.Data.List.Perm.Basic
import Mathlib.Data.List.Perm.Lattice

/-! The interval join (`runtime/operator/interval_join_operator.py`) over keyed state
without time-to-live. Timestamps are in milliseconds, and the backend hands out the
buckets of a key and due timers in the order of their encodings, which `rank` and
`digest` stand for. -/
namespace Klein.EventTime

inductive JoinSide where
  | left
  | right
deriving DecidableEq

structure IntervalJoinConfig (κ α β : Type) where
  leftKey : α → κ
  rightKey : β → κ
  leftTimestamp : α → Int
  rightTimestamp : β → Int
  lowerMs : Int
  upperMs : Int
  allowedLatenessMs : Int
  rank : Int → Nat
  digest : κ → JoinSide → Int → Nat

structure JoinTimer (κ : Type) where
  timestamp : Int
  key : κ
  side : JoinSide
  bucket : Int
deriving DecidableEq

/-- `emitted` has the arguments of the join function, `lateDrops` is the metric. -/
structure IntervalJoinOperator (κ α β : Type) where
  leftState : Dict (κ × Int) (List α)
  rightState : Dict (κ × Int) (List β)
  timers : List (JoinTimer κ)
  currentWatermark : Int
  lateDrops : Nat
  emitted : List (α × β)

inductive JoinInput (α β : Type) where
  | left (row : α)
  | right (row : β)
  | watermark (timestamp : Int)

namespace IntervalJoinConfig
variable {κ α β : Type} (c : IntervalJoinConfig κ α β)

/-- `__init__`, of bounds in microseconds. -/
def build (lowerBound upperBound allowedLateness : Int) : Except String (IntervalJoinConfig κ α β) := do
  let lowerMs ← milliseconds lowerBound
  let upperMs ← milliseconds upperBound
  let allowedLatenessMs ← milliseconds allowedLateness
  if upperMs < lowerMs then throw "lower_bound must not exceed upper_bound"
  if allowedLatenessMs < 0 then throw "allowed_lateness must not be negative"
  return {c with
    lowerMs := lowerMs
    upperMs := upperMs
    allowedLatenessMs := allowedLatenessMs}

def within (left right : Int) : Bool := c.lowerMs ≤ right - left ∧ right - left ≤ c.upperMs

def leftCleanup (timestamp : Int) : Int := timestamp + c.upperMs + c.allowedLatenessMs + 1

def rightCleanup (timestamp : Int) : Int := max 0 (timestamp - c.lowerMs + c.allowedLatenessMs + 1)

end IntervalJoinConfig

namespace IntervalJoinOperator
variable {κ α β ρ : Type} [DecidableEq κ] (c : IntervalJoinConfig κ α β)

def init : IntervalJoinOperator κ α β := ⟨∅,∅,[],-1,0,[]⟩

/-- `namespaces` of a key. -/
def namespaces (state : Dict (κ × Int) (List ρ)) (key : κ) : List Int :=
  ((state.keys.filter (fun entry => entry.1 = key)).map Prod.snd).mergeSort (fun first second => c.rank first ≤ c.rank second)

def partners (state : Dict (κ × Int) (List ρ)) (key : κ) (test : Int → Bool) : List ρ :=
  ((namespaces c state key).filter test).flatMap (fun bucket => (state.get? (key,bucket)).getD [])

variable (o : IntervalJoinOperator κ α β)

/-- `register_event_time_timer`; it raises for what eight bytes do not hold. -/
def registerTimer (timer : JoinTimer κ) : Option (IntervalJoinOperator κ α β) :=
  if 0 ≤ timer.timestamp ∧ timer.timestamp < 2 ^ 64 then some {o with timers := o.timers.insert timer}
  else none

/-- `_join_left` -/
def joinLeft (row : α) (timestamp : Int) : Option (IntervalJoinOperator κ α β) :=
  if c.leftCleanup timestamp ≤ o.currentWatermark then some {o with lateDrops := o.lateDrops + 1}
  else
    let rows := partners c o.rightState (c.leftKey row) (c.within timestamp)
    registerTimer {o with
      emitted := o.emitted ++ rows.map (fun right => (row,right))
      leftState := o.leftState.push (c.leftKey row,timestamp) row}
      ⟨c.leftCleanup timestamp,c.leftKey row,.left,timestamp⟩

/-- `_join_right` -/
def joinRight (row : β) (timestamp : Int) : Option (IntervalJoinOperator κ α β) :=
  if c.rightCleanup timestamp ≤ o.currentWatermark then some {o with lateDrops := o.lateDrops + 1}
  else
    let rows := partners c o.leftState (c.rightKey row) (fun left => c.within left timestamp)
    registerTimer {o with
      emitted := o.emitted ++ rows.map (fun left => (left,row))
      rightState := o.rightState.push (c.rightKey row,timestamp) row}
      ⟨c.rightCleanup timestamp,c.rightKey row,.right,timestamp⟩

/-- `on_timer` -/
def onTimer (timer : JoinTimer κ) : IntervalJoinOperator κ α β :=
  match timer.side with
  | .left => {o with leftState := o.leftState.erase (timer.key,timer.bucket)}
  | .right => {o with rightState := o.rightState.erase (timer.key,timer.bucket)}

/-- `pop_due_timers`, without the timers that it takes out. -/
def dueTimers (timestamp : Int) : List (JoinTimer κ) :=
  (o.timers.filter (fun timer => timer.timestamp ≤ timestamp)).mergeSort (fun first second =>
    first.timestamp < second.timestamp ∨ first.timestamp = second.timestamp ∧
      c.digest first.key first.side first.bucket ≤ c.digest second.key second.side second.bucket)

/-- `on_event_time_watermark` -/
def onEventTimeWatermark (timestamp : Int) : IntervalJoinOperator κ α β :=
  if timestamp ≤ o.currentWatermark then o
  else (o.dueTimers c timestamp).foldl onTimer {o with
    currentWatermark := timestamp
    timers := o.timers.filter (fun timer => ¬ timer.timestamp ≤ timestamp)}

/-- `process_element` of a record of a side, or a watermark; nothing where it raises. -/
def step : JoinInput α β → Option (IntervalJoinOperator κ α β)
  | .left row => if c.leftTimestamp row < 0 then none else o.joinLeft c row (c.leftTimestamp row)
  | .right row => if c.rightTimestamp row < 0 then none else o.joinRight c row (c.rightTimestamp row)
  | .watermark timestamp => some (o.onEventTimeWatermark c timestamp)

end IntervalJoinOperator
end Klein.EventTime
