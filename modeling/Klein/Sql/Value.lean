import Klein.Bytes

/-! SQL values, their identity (`runtime/operator/sql_value_semantics.py` over
`state/key_encoding.py`) and Python's equality of them. A number is exact: floats,
decimals and fractions are the rationals they stand for. A datetime is its
microseconds on the clock, its fold and, when aware, its zone. -/
namespace Klein.Sql

inductive Real where
  | finite (value : ℚ)
  | infinity (positive : Bool)
  | nan
  deriving DecidableEq

inductive Value (ζ : Type) where
  | null
  | boolean (value : Bool)
  | integer (value : Int)
  | float (value : Real)
  | decimal (value : Real)
  | fraction (value : ℚ)
  | text (value : String)
  | bytes (value : Bytes)
  | naive (clock : Int) (fold : Bool)
  | aware (clock : Int) (fold : Bool) (zone : ζ)
  deriving DecidableEq

/-- The kinds of `_NaNIdentity`. -/
inductive NaNKind where
  | float
  | decimal
  deriving DecidableEq

inductive Identity (ζ : Type) where
  | null
  | number (value : ℚ)
  | infinity (positive : Bool)
  | notANumber (kind : NaNKind)
  | text (value : String)
  | bytes (value : Bytes)
  | naive (clock : Int) (fold : Bool)
  | aware (clock : Int) (fold : Bool) (zone : ζ)
  deriving DecidableEq

namespace Value
variable {ζ : Type}

def IsNaN : Value ζ → Prop
  | .float .nan | .decimal .nan => True
  | _ => False

instance (value : Value ζ) : Decidable value.IsNaN := by
  unfold IsNaN
  split <;> infer_instance

/-- `_normalize_nan` of a scalar, when it is replaced. -/
def normalizeNaN : Value ζ → Option NaNKind
  | .float .nan => some .float
  | .decimal .nan => some .decimal
  | _ => none

/-- `_canonical_real` and `_canonical_decimal`. -/
def canonicalReal : Real → Except String (Identity ζ)
  | .finite value => .ok (.number value)
  | .infinity positive => .ok (.infinity positive)
  | .nan => .error "NaN values are unsupported as keyed-state keys"

/-- `_canonicalize` of a scalar. -/
def canonicalize : Value ζ → Except String (Identity ζ)
  | .null => .ok .null
  | .boolean value => .ok (.number (if value then 1 else 0))
  | .integer value => .ok (.number value)
  | .float value => canonicalReal value
  | .decimal value => canonicalReal value
  | .fraction value => .ok (.number value)
  | .text value => .ok (.text value)
  | .bytes value => .ok (.bytes value)
  | .naive clock fold => .ok (.naive clock fold)
  | .aware clock fold zone => .ok (.aware clock fold zone)

/-- What `state_value_key` pickles for a scalar. -/
def stateValueKey (value : Value ζ) : Except String (Identity ζ) :=
  match value.normalizeNaN with
  | some kind => .ok (.notANumber kind)
  | none => value.canonicalize

/-- The identity of a value under `state_value_key`. -/
def identity : Value ζ → Identity ζ
  | .null => .null
  | .boolean value => .number (if value then 1 else 0)
  | .integer value => .number value
  | .float (.finite value) => .number value
  | .float (.infinity positive) => .infinity positive
  | .float .nan => .notANumber .float
  | .decimal (.finite value) => .number value
  | .decimal (.infinity positive) => .infinity positive
  | .decimal .nan => .notANumber .decimal
  | .fraction value => .number value
  | .text value => .text value
  | .bytes value => .bytes value
  | .naive clock fold => .naive clock fold
  | .aware clock fold zone => .aware clock fold zone

variable (value : Value ζ)

theorem stateValueKey_eq : value.stateValueKey = .ok value.identity := by
  cases value with
  | float real => cases real <;> rfl
  | decimal real => cases real <;> rfl
  | _ => rfl

theorem canonicalize_ok (identity : Identity ζ) :
    value.canonicalize = .ok identity ↔ ¬ value.IsNaN ∧ value.identity = identity := by
  cases value with
  | float real => cases real <;> simp [canonicalize,canonicalReal,IsNaN,Value.identity]
  | decimal real => cases real <;> simp [canonicalize,canonicalReal,IsNaN,Value.identity]
  | _ => simp [canonicalize,IsNaN,Value.identity]

theorem identity_eq_null : value.identity = .null ↔ value = .null := by
  cases value with
  | float real => cases real <;> simp [identity]
  | decimal real => cases real <;> simp [identity]
  | _ => simp [identity]

theorem isNaN_of_identity (other : Value ζ) (same : value.identity = other.identity) : value.IsNaN ↔ other.IsNaN := by
  have nan (value : Value ζ) : value.IsNaN ↔ ∃ kind, value.identity = .notANumber kind := by
    cases value with
    | float real => cases real <;> simp [identity,IsNaN]
    | decimal real => cases real <;> simp [identity,IsNaN]
    | _ => simp [identity,IsNaN]
  rw [nan,nan,same]

end Value

/-- The time zones: their offsets from UTC in microseconds, the zone object of
`timezone.utc`, and which zones unpickle to the object they were. -/
structure Zones (ζ : Type) where
  utcoffset : ζ → Int → Bool → Int
  utc : ζ
  interned : ζ → Bool

namespace Zones
variable {ζ : Type} (zones : Zones ζ)

def instant (clock : Int) (fold : Bool) (zone : ζ) : Int := clock - zones.utcoffset zone clock fold

def Problematic (clock : Int) (fold : Bool) (zone : ζ) : Prop :=
  zones.utcoffset zone clock (!fold) ≠ zones.utcoffset zone clock fold

instance (clock : Int) (fold : Bool) (zone : ζ) : Decidable (zones.Problematic clock fold zone) :=
  inferInstanceAs (Decidable (_ ≠ _))

end Zones

def Value.magnitude {ζ : Type} : Value ζ → Option (Identity ζ)
  | .boolean value => some (.number (if value then 1 else 0))
  | .integer value => some (.number value)
  | .float (.finite value) | .decimal (.finite value) | .fraction value => some (.number value)
  | .float (.infinity positive) | .decimal (.infinity positive) => some (.infinity positive)
  | _ => none

/-- `==` of a value that was read from state, a copy, and another one. -/
def Value.equal {ζ : Type} [DecidableEq ζ] (zones : Zones ζ) (stored value : Value ζ) : Bool :=
  match stored,value with
  | .null,.null => true
  | .text stored,.text value => stored = value
  | .bytes stored,.bytes value => stored = value
  | .naive stored _,.naive value _ => stored = value
  | .aware clock fold zone,.aware clock' fold' zone' =>
    if zone = zone' ∧ zones.interned zone then clock = clock'
    else zones.instant clock fold zone = zones.instant clock' fold' zone' ∧
      ¬ zones.Problematic clock fold zone ∧ ¬ zones.Problematic clock' fold' zone'
  | stored,value => stored.magnitude.isSome ∧ stored.magnitude = value.magnitude

end Klein.Sql
