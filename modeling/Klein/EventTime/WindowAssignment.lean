import Klein.EventTime.Durations
import Klein.EventTime.WindowOperator
import Klein.Fallible

/-! The constructors of the window assigners (`api/tumbling_window.py`,
`api/sliding_window.py`, `api/session_window.py`) and of the operator, and which windows
a timestamp is assigned to. -/
namespace Klein.EventTime
open Fallible List

/-- `TumblingWindow` -/
def tumblingWindow (size offset : Int) : Except String WindowAssigner := do
  let size ← positiveMilliseconds size "size"
  let offset ← milliseconds offset
  return .tumbling size.1 offset size.2

/-- `SlidingWindow` -/
def slidingWindow (size slide offset : Int) : Except String WindowAssigner := do
  let size ← positiveMilliseconds size "size"
  let slide ← positiveMilliseconds slide "slide"
  let offset ← milliseconds offset
  return .sliding size.1 slide.1 offset size.2 slide.2

/-- `SessionWindow` -/
def sessionWindow (gap : Int) : Except String WindowAssigner := do
  let gap ← positiveMilliseconds gap "gap"
  return .session gap.1 gap.2

/-- `WindowOperator` with an assigner and the lateness that it allows. -/
def WindowConfig.build {κ β : Type} (c : WindowConfig κ β) (assigner : WindowAssigner) (allowedLateness : Int) :
    Except String (WindowConfig κ β) := do
  if allowedLateness < 0 then throw "allowed_lateness must not be negative"
  let allowedLatenessMs ← milliseconds allowedLateness
  return {c with
    assigner := assigner
    allowedLatenessMs := allowedLatenessMs.toNat}

theorem WindowConfig.build_ok {κ β : Type} (base built : WindowConfig κ β) (assigner : WindowAssigner) (allowedLateness : Int)
    (ok : base.build assigner allowedLateness = .ok built) : ∃ allowedLatenessMs, milliseconds allowedLateness = .ok allowedLatenessMs ∧
      0 ≤ allowedLateness ∧ built = {base with
        assigner := assigner
        allowedLatenessMs := allowedLatenessMs.toNat} := by
  unfold WindowConfig.build at ok
  by_cases negative : allowedLateness < 0
  · rw [if_pos negative] at ok
    cases ok
  · rw [if_neg negative] at ok
    obtain ⟨allowedLatenessMs,computed,ok⟩ := bind_ok ok
    exact ⟨allowedLatenessMs,computed,Int.not_lt.mp negative,(Except.ok.inj ok).symm⟩

theorem positiveMilliseconds_ok (value : Int) (name : String) (converted : {milliseconds : Int // 0 < milliseconds})
    (ok : positiveMilliseconds value name = .ok converted) : milliseconds value = .ok converted.1 := by
  obtain ⟨computed,done,ok⟩ := bind_ok ok
  split at ok
  next positive =>
    obtain rfl := Except.ok.inj ok
    exact done
  next => cases ok

namespace WindowAssigner

section sliding
variable (size slide timestamp : Int) (positive : 0 < size) (steps : 0 < slide) (start : Int)

theorem mem_slidingFrom (window : TimeWindow) :
    window ∈ slidingFrom size slide timestamp positive steps start ↔
      timestamp < window.stop ∧ window.stop = window.start + size ∧ ∃ back : Nat, window.start = start - back * slide := by
  induction start using slidingFrom.induct size slide timestamp steps with
  | case1 start before ih =>
    rw [slidingFrom,if_pos before,mem_cons,ih]
    constructor
    · intro either
      rcases either with rfl | ⟨contains,ends,back,whole⟩
      · exact ⟨before,rfl,0,by simp⟩
      · refine ⟨contains,ends,back + 1,?_⟩
        rw [whole]
        push_cast
        ring
    · intro reached
      obtain ⟨contains,ends,back,whole⟩ := reached
      cases back with
      | zero =>
        refine .inl ?_
        ext1
        · simpa using whole
        · simpa [whole] using ends
      | succ back =>
        refine .inr ⟨contains,ends,back,?_⟩
        rw [whole]
        push_cast
        ring
  | case2 start past =>
    rw [slidingFrom,if_neg past]
    refine iff_of_false not_mem_nil (fun reached => ?_)
    obtain ⟨contains,ends,back,whole⟩ := reached
    have lower : 0 ≤ (back : Int) * slide := Int.mul_nonneg (Int.natCast_nonneg back) (Int.le_of_lt steps)
    omega

theorem nodup_slidingFrom : (slidingFrom size slide timestamp positive steps start).Nodup := by
  induction start using slidingFrom.induct size slide timestamp steps with
  | case1 start before ih =>
    rw [slidingFrom,if_pos before]
    refine nodup_cons.mpr ⟨fun inside => ?_,ih⟩
    obtain ⟨-,-,back,whole⟩ := (mem_slidingFrom size slide timestamp positive steps (start - slide) _).mp inside
    have lower : 0 ≤ (back : Int) * slide := Int.mul_nonneg (Int.natCast_nonneg back) (Int.le_of_lt steps)
    dsimp only at whole
    omega
  | case2 start past =>
    rw [slidingFrom,if_neg past]
    exact nodup_nil

theorem lastStart (offset : Int) (steps : 0 < slide) :
    ∃ turns, (timestamp - offset % slide) / slide * slide + offset % slide = offset + turns * slide ∧
      offset + turns * slide ≤ timestamp ∧ timestamp < offset + (turns + 1) * slide := by
  have whole := Int.emod_add_mul_ediv offset slide
  have below := Int.ediv_mul_le (timestamp - offset % slide) (Int.ne_of_gt steps)
  have above := Int.lt_ediv_add_one_mul_self (timestamp - offset % slide) steps
  refine ⟨(timestamp - offset % slide) / slide - offset / slide,?_,?_,?_⟩
  · linarith
  · linarith
  · linarith

include steps in
theorem starts_back (offset turns first : Int) (below : offset + turns * slide ≤ timestamp)
    (above : timestamp < offset + (turns + 1) * slide) :
    (∃ back : Nat, first = offset + turns * slide - back * slide) ↔ slide ∣ first - offset ∧ first ≤ timestamp := by
  constructor
  · intro reached
    obtain ⟨back,rfl⟩ := reached
    have lower : 0 ≤ (back : Int) * slide := Int.mul_nonneg (Int.natCast_nonneg back) (Int.le_of_lt steps)
    refine ⟨⟨turns - back,by ring⟩,by omega⟩
  · intro reached
    obtain ⟨⟨index,whole⟩,early⟩ := reached
    have less : index < turns + 1 := by
      by_contra later
      have more : (turns + 1) * slide ≤ index * slide := Int.mul_le_mul_of_nonneg_right (by omega) (Int.le_of_lt steps)
      linarith
    refine ⟨(turns - index).toNat,?_⟩
    rw [Int.toNat_of_nonneg (by omega)]
    linarith

end sliding

structure Aligned (size slide offset timestamp : Int) (windows : List TimeWindow) : Prop where
  once : windows.Nodup
  exact : ∀ window, window ∈ windows ↔ window.stop - window.start = size ∧ slide ∣ window.start - offset ∧
    window.start ≤ timestamp ∧ timestamp < window.stop

theorem sliding_aligned (size slide offset timestamp : Int) (positive : 0 < size) (steps : 0 < slide) :
    Aligned size slide offset timestamp (assignWindows (.sliding size slide offset positive steps) timestamp) := by
  obtain ⟨turns,first,below,above⟩ := lastStart slide timestamp offset steps
  change Aligned size slide offset timestamp
    (slidingFrom size slide timestamp positive steps ((timestamp - offset % slide) / slide * slide + offset % slide))
  rw [first]
  refine ⟨nodup_slidingFrom size slide timestamp positive steps _,fun window => ?_⟩
  rw [mem_slidingFrom,starts_back slide timestamp steps offset turns window.start below above]
  constructor
  · intro reached
    obtain ⟨contains,ends,aligned,early⟩ := reached
    exact ⟨by omega,aligned,early,contains⟩
  · intro reached
    obtain ⟨ends,aligned,early,contains⟩ := reached
    exact ⟨contains,by omega,aligned,early⟩

theorem tumbling_aligned (size offset timestamp : Int) (positive : 0 < size) :
    Aligned size size offset timestamp (assignWindows (.tumbling size offset positive) timestamp) := by
  obtain ⟨turns,first,below,above⟩ := lastStart size timestamp offset positive
  refine ⟨nodup_singleton _,fun window => ?_⟩
  unfold assignWindows
  dsimp only
  rw [mem_singleton]
  constructor
  · intro same
    subst same
    dsimp only
    rw [first]
    exact ⟨by omega,⟨turns,by ring⟩,below,by linarith⟩
  · intro reached
    obtain ⟨ends,aligned,early,contains⟩ := reached
    obtain ⟨back,start⟩ := (starts_back size timestamp positive offset turns window.start below above).mpr ⟨aligned,early⟩
    have last : back = 0 := by
      by_contra more
      have lower : (1 : Int) * size ≤ (back : Int) * size := Int.mul_le_mul_of_nonneg_right (by omega) (Int.le_of_lt positive)
      linarith
    subst last
    ext1
    · dsimp only
      rw [start,first]
      simp
    · simp only [Nat.cast_zero,Int.zero_mul,Int.sub_zero] at start
      dsimp only
      rw [first]
      omega

end WindowAssigner
end Klein.EventTime
