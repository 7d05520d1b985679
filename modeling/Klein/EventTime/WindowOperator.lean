import Mathlib.Data.List.Perm.Basic
import Mathlib.Order.Lattice
import Klein.Dict

/-! Event-time windows (`api/time_window.py`, `api/*_window.py`) and their operator
(`runtime/operator/window_operator.py`) over keyed state without time-to-live. The
backend hands out windows and due timers in the order of their encodings, which
`rank` and `digest` stand for. -/
namespace Klein.EventTime
open List

/-- A half-open interval; `stop` is the source's `end`. -/
@[ext] structure TimeWindow where
  start : Int
  stop : Int
  ordered : start < stop
deriving DecidableEq

namespace TimeWindow

def overlaps (window other : TimeWindow) : Bool := window.start < other.stop ∧ other.start < window.stop

def merge (window other : TimeWindow) : TimeWindow where
  start := min window.start other.start
  stop := max window.stop other.stop
  ordered := by
    have first := window.ordered
    omega

end TimeWindow

inductive WindowAssigner where
  | tumbling (size offset : Int) (positive : 0 < size)
  | sliding (size slide offset : Int) (positive : 0 < size) (steps : 0 < slide)
  | session (gap : Int) (positive : 0 < gap)

namespace WindowAssigner

def isMerging : WindowAssigner → Bool
  | .session _ _ => true
  | _ => false

/-- The loop of `SlidingWindow.assign_windows`. -/
def slidingFrom (size slide timestamp : Int) (positive : 0 < size) (steps : 0 < slide) (start : Int) : List TimeWindow :=
  if timestamp < start + size then
    ⟨start,start + size,by omega⟩::slidingFrom size slide timestamp positive steps (start - slide)
  else []
termination_by (start + size - timestamp).toNat

def assignWindows (assigner : WindowAssigner) (timestamp : Int) : List TimeWindow :=
  match assigner with
  | .tumbling size offset positive =>
    let start := (timestamp - offset % size) / size * size + offset % size
    [⟨start,start + size,by omega⟩]
  | .sliding size slide offset positive steps =>
    slidingFrom size slide timestamp positive steps
      ((timestamp - offset % slide) / slide * slide + offset % slide)
  | .session gap positive => [⟨timestamp,timestamp + gap,by omega⟩]

theorem slidingFrom_contains (size slide timestamp : Int) (positive : 0 < size) (steps : 0 < slide) (start : Int)
    (window : TimeWindow) (inside : window ∈ slidingFrom size slide timestamp positive steps start) :
    timestamp < window.stop := by
  induction start using slidingFrom.induct size slide timestamp steps with
  | case1 start before ih =>
    rw [slidingFrom,if_pos before] at inside
    rcases mem_cons.mp inside with rfl | later
    · exact before
    · exact ih later
  | case2 start past =>
    rw [slidingFrom,if_neg past] at inside
    contradiction

theorem assignWindows_contains (assigner : WindowAssigner) (timestamp : Int) (window : TimeWindow)
    (inside : window ∈ assigner.assignWindows timestamp) : timestamp < window.stop := by
  cases assigner with
  | tumbling size offset positive =>
    obtain rfl := mem_singleton.mp inside
    have next := Int.lt_ediv_add_one_mul_self (timestamp - offset % size) positive
    rw [Int.add_mul,Int.one_mul] at next
    dsimp only
    omega
  | sliding size slide offset positive steps =>
    exact slidingFrom_contains size slide timestamp positive steps _ window inside
  | session gap positive =>
    obtain rfl := mem_singleton.mp inside
    dsimp only
    omega

end WindowAssigner

structure WindowConfig (κ β : Type) where
  keySelector : β → κ
  assigner : WindowAssigner
  reduceFunction : β → β → β
  allowedLatenessMs : Nat
  rank : TimeWindow → Nat
  digest : κ → TimeWindow → Nat

structure WindowTimer (κ : Type) where
  timestamp : Int
  key : κ
  window : TimeWindow
deriving DecidableEq

/-- `lateDrops` is the metric of dropped records, `results` what was emitted. -/
structure WindowOperator (κ β : Type) where
  state : Dict (κ × TimeWindow) β
  timers : List (WindowTimer κ)
  currentWatermark : Int
  lateDrops : Nat
  results : List ((κ × TimeWindow) × β)

namespace WindowOperator
variable {κ β : Type} [DecidableEq κ] (c : WindowConfig κ β)

def init : WindowOperator κ β := ⟨∅,[],-1,0,[]⟩

def cleanupTimestamp (window : TimeWindow) : Int := window.stop - 1 + c.allowedLatenessMs

def timerOf (key : κ) (window : TimeWindow) : WindowTimer κ := ⟨cleanupTimestamp c window,key,window⟩

variable (o : WindowOperator κ β)

/-- `namespaces` of the current key. -/
def namespaces (key : κ) : List TimeWindow :=
  ((o.state.keys.filter (fun entry => entry.1 = key)).map Prod.snd).mergeSort
    (fun first second => c.rank first ≤ c.rank second)

/-- `_session_merge_plan` -/
def sessionMergePlan (key : κ) (candidate : TimeWindow) : TimeWindow × List TimeWindow :=
  if c.assigner.isMerging then
    let overlapping := (o.namespaces c key).filter (fun window => window.overlaps candidate)
    (overlapping.foldl TimeWindow.merge candidate,overlapping)
  else (candidate,[])

def absorb (key : κ) (progress : WindowOperator κ β × Option β) (window : TimeWindow) :
    WindowOperator κ β × Option β :=
  let (o,accumulated) := progress
  ({o with
    state := o.state.erase (key,window)
    timers := o.timers.erase (timerOf c key window)},
  match o.state.get? (key,window) with
  | none => accumulated
  | some value => some ((accumulated.map (fun before => c.reduceFunction before value)).getD value))

/-- `_merge_session_windows` -/
def mergeSessionWindows (key : κ) (target : TimeWindow) (overlapping : List TimeWindow) : WindowOperator κ β :=
  let (absorbed,accumulated) := overlapping.foldl (absorb c key) (o,none)
  match accumulated with
  | none => absorbed
  | some value => {absorbed with state := absorbed.state.set (key,target) value}

/-- The body of the loop over the windows of a record; the result says whether the
window was dropped. -/
def processWindow (key : κ) (block : β) (window : TimeWindow) : WindowOperator κ β × Bool :=
  let (target,overlapping) := o.sessionMergePlan c key window
  if cleanupTimestamp c target ≤ o.currentWatermark then (o,true)
  else
    let merged := o.mergeSessionWindows c key target overlapping
    let value := match merged.state.get? (key,target) with
      | none => block
      | some current => c.reduceFunction current block
    ({merged with
      state := merged.state.set (key,target) value
      timers := merged.timers.insert (timerOf c key target)},false)

/-- `process_managed_element` of a record with its event time. -/
def processManagedElement (block : β) (timestamp : Int) : WindowOperator κ β :=
  let (processed,dropped) := (c.assigner.assignWindows timestamp).foldl (fun progress window =>
    let (next,late) := progress.1.processWindow c (c.keySelector block) block window
    (next,progress.2 || late)) (o,false)
  if dropped then {processed with lateDrops := processed.lateDrops + 1} else processed

/-- `on_timer` -/
def onTimer (timer : WindowTimer κ) : WindowOperator κ β :=
  match o.state.get? (timer.key,timer.window) with
  | none => o
  | some result => {o with
    state := o.state.erase (timer.key,timer.window)
    results := o.results ++ [((timer.key,timer.window),result)]}

/-- `pop_due_timers`, without the timers that it takes out. -/
def dueTimers (timestamp : Int) : List (WindowTimer κ) :=
  (o.timers.filter (fun timer => timer.timestamp ≤ timestamp)).mergeSort (fun first second =>
    first.timestamp < second.timestamp ∨ first.timestamp = second.timestamp ∧
      c.digest first.key first.window ≤ c.digest second.key second.window)

/-- `on_event_time_watermark` -/
def onEventTimeWatermark (timestamp : Int) : WindowOperator κ β :=
  if timestamp ≤ o.currentWatermark then o
  else (o.dueTimers c timestamp).foldl onTimer {o with
    currentWatermark := timestamp
    timers := o.timers.filter (fun timer => ¬ timer.timestamp ≤ timestamp)}

end WindowOperator
end Klein.EventTime
