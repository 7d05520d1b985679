import Mathlib.Data.Rat.Floor

/-! Correct rounding to a 64-bit float, ties to even, of an exact number. -/
namespace Klein.Binary64

/-- `2 ^ exponent` -/
def power : Int → ℚ
  | .ofNat exponent => (2 ^ exponent : Nat)
  | .negSucc exponent => 1 / (2 ^ (exponent + 1) : Nat)

def exponent (value : ℚ) : Int :=
  let guess : Int := (Nat.log2 value.num.natAbs : Int) - (Nat.log2 value.den : Int)
  if power guess ≤ value then guess else guess - 1

def nearestEven (value : ℚ) : Int :=
  let low := value.floor
  let rest := value - low
  if rest < 1 / 2 then low
  else if 1 / 2 < rest then low + 1
  else if low % 2 = 0 then low else low + 1

def nearest (value : ℚ) : Option ℚ :=
  if value = 0 then some 0
  else
    let unit := power (max (exponent |value| - 52) (-1074))
    let rounded := nearestEven (value / unit) * unit
    if |rounded| < power 1024 then some rounded else none

/-- `int()` of a float. -/
def truncate (value : ℚ) : Int := value.num.tdiv value.den

end Klein.Binary64
