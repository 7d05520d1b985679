import Klein.Binary64

/-! Durations (`datetime.timedelta`) in microseconds, and the milliseconds that
operators and window assigners make of them. -/
namespace Klein.EventTime

/-- `int(duration.total_seconds() * 1000)` -/
def milliseconds (microseconds : Int) : Except String Int :=
  match Binary64.nearest (microseconds / 1000000 : ℚ) with
  | none => .error "integer division result too large for a float"
  | some seconds =>
    match Binary64.nearest (seconds * 1000) with
    | none => .error "cannot convert float infinity to integer"
    | some value => .ok (Binary64.truncate value)

/-- `_positive_milliseconds` (`api/tumbling_window.py`) -/
def positiveMilliseconds (value : Int) (name : String) : Except String {milliseconds : Int // 0 < milliseconds} := do
  let milliseconds ← milliseconds value
  if positive : 0 < milliseconds then return ⟨milliseconds,positive⟩
  else throw s!"window {name} must be positive"

theorem milliseconds_zero : milliseconds 0 = .ok 0 := by decide +kernel

def Whole (duration : Int) : Prop := ∃ converted, milliseconds duration = .ok converted ∧ 1000 * converted = duration

theorem Whole.eq (duration converted : Int) (whole : Whole duration) (computed : milliseconds duration = .ok converted) :
    1000 * converted = duration := by
  obtain ⟨other,computed',same⟩ := whole
  obtain rfl := Except.ok.inj (computed.symm.trans computed')
  exact same

end Klein.EventTime
