import Klein.Dict
import Klein.Fallible
import Klein.Sql.Value

/-! The accumulator of streaming aggregates (`runtime/operator/sql_aggregate_operator.py`)
over numeric arguments. Numbers are exact: a float is the rational it stands for and
nothing rounds, but what is too large for a float overflows as it does in Python. -/
namespace Klein.Sql

inductive Number where
  | exact (value : ℚ)
  | float (value : Real)
  deriving DecidableEq

/-- The value of a number, which is its identity under `state_value_key`. -/
def Number.real : Number → Real
  | .exact value => .finite value
  | .float value => value

namespace Real

def floatLimit : ℚ := 2 ^ 1024 - 2 ^ 970

def Overflows (value : ℚ) : Prop := value ≤ -floatLimit ∨ floatLimit ≤ value

instance (value : ℚ) : Decidable (Overflows value) := inferInstanceAs (Decidable (_ ∨ _))

/-- `-inf` before the rationals before `inf` before NaN. -/
def rank : Real → ℤ ×ₗ ℚ
  | .finite value => toLex (0,value)
  | .infinity positive => toLex (if positive then 1 else -1,0)
  | .nan => toLex (2,0)

theorem rank_injective : Function.Injective rank := by
  intro one other same
  have pair := congrArg ofLex same
  cases one with
  | finite value =>
    cases other with
    | finite other => simpa [rank] using pair
    | infinity positive => cases positive <;> simp [rank] at pair
    | nan => simp [rank] at pair
  | infinity positive =>
    cases other with
    | finite other => cases positive <;> simp [rank] at pair
    | infinity other => cases positive <;> cases other <;> simp [rank] at pair ⊢
    | nan => cases positive <;> simp [rank] at pair
  | nan =>
    cases other with
    | finite other => simp [rank] at pair
    | infinity positive => cases positive <;> simp [rank] at pair
    | nan => rfl

instance : LinearOrder Real := LinearOrder.lift' rank rank_injective

theorem lt_iff (one other : Real) : one < other ↔ rank one < rank other := Iff.rfl

/-- `<` of two floats. -/
def less : Real → Real → Bool
  | .finite value,.finite other => value < other
  | .finite _,.infinity positive => positive
  | .infinity positive,.finite _ => !positive
  | .infinity positive,.infinity other => !positive && other
  | _,_ => false

end Real

/-- `compare_non_null_values`: all NaNs are one greatest value. -/
def compareNonNullValues (left right : Real) : Int :=
  if left = .nan ∨ right = .nan then
    if left = .nan ∧ right = .nan then 0 else if left = .nan then 1 else -1
  else if right.less left then 1
  else if left.less right then -1
  else 0

theorem Real.less_iff (one other : Real) (number : one ≠ .nan) (number' : other ≠ .nan) :
    one.less other = true ↔ one < other := by
  rw [lt_iff]
  cases one with
  | finite value =>
    cases other with
    | finite other => simp [less,rank,Prod.Lex.toLex_lt_toLex]
    | infinity positive => cases positive <;> simp [less,rank,Prod.Lex.toLex_lt_toLex]
    | nan => contradiction
  | infinity positive =>
    cases other with
    | finite other => cases positive <;> simp [less,rank,Prod.Lex.toLex_lt_toLex]
    | infinity other => cases positive <;> cases other <;> simp [less,rank,Prod.Lex.toLex_lt_toLex]
    | nan => contradiction
  | nan => contradiction

theorem Real.le_nan (value : Real) : value ≤ .nan := by
  refine le_of_not_gt (fun above => ?_)
  rw [lt_iff] at above
  cases value with
  | finite value => simp [rank,Prod.Lex.toLex_lt_toLex] at above
  | infinity positive => cases positive <;> simp [rank,Prod.Lex.toLex_lt_toLex] at above
  | nan => exact lt_irrefl _ above

theorem compare_neg (left right : Real) : compareNonNullValues left right < 0 ↔ left < right := by
  unfold compareNonNullValues
  by_cases nan : left = .nan
  · subst nan
    have not : ¬ Real.nan < right := not_lt_of_ge right.le_nan
    by_cases both : right = .nan <;> simp [both,not]
  · by_cases nan' : right = .nan
    · subst nan'
      simp [nan,lt_of_le_of_ne left.le_nan nan]
    · rw [if_neg (by simp [nan,nan'])]
      by_cases above : right.less left = true
      · rw [if_pos above]
        have below := (right.less_iff left nan' nan).mp above
        simp [not_lt_of_gt below]
      · rw [if_neg above]
        by_cases below : left.less right = true
        · simp [below,(left.less_iff right nan nan').mp below]
        · have not : ¬ left < right := fun less => below ((left.less_iff right nan nan').mpr less)
          simp [below,not]

theorem compare_pos (left right : Real) : 0 < compareNonNullValues left right ↔ right < left := by
  rw [← compare_neg right left]
  unfold compareNonNullValues
  by_cases nan : left = .nan
  · by_cases nan' : right = .nan <;> simp [nan,nan']
  · by_cases nan' : right = .nan
    · simp [nan,nan']
    · have one : ¬ (left = .nan ∨ right = .nan) := not_or_intro nan nan'
      have other : ¬ (right = .nan ∨ left = .nan) := not_or_intro nan' nan
      rw [if_neg one,if_neg other]
      by_cases above : right.less left = true
      · have below := (right.less_iff left nan' nan).mp above
        have not : ¬ left.less right = true := fun less => lt_asymm below ((left.less_iff right nan nan').mp less)
        rw [if_pos above,if_neg not,if_pos above]
        decide
      · rw [if_neg above]
        by_cases below : left.less right = true
        · rw [if_pos below,if_pos below]
          decide
        · rw [if_neg below,if_neg below,if_neg above]

inductive AggregateKind where
  | count
  | sum
  | avg
  | min
  | max
  deriving DecidableEq

/-- `aggregate.key.upper()` -/
def AggregateKind.key : AggregateKind → String
  | .count => "COUNT"
  | .sum => "SUM"
  | .avg => "AVG"
  | .min => "MIN"
  | .max => "MAX"

/-- An aggregate call: `*` is no argument, which only COUNT takes; an argument is what
`evaluate_expression` makes of a row, where NULL is nothing. -/
structure Aggregate (ρ : Type) where
  kind : AggregateKind
  argument : Option (ρ → Option Number)
  required : argument = none → kind = .count

/-- The accumulator of one aggregate: the count, the fields of SUM and AVG, and those of
MIN and MAX, whose values are kept by their identity with how often they came. -/
structure Item where
  count : Int
  sum : ℚ
  floatingSum : ℚ
  floatingCount : Int
  nanCount : Int
  nanValue : Option Number
  positiveInfinityCount : Int
  positiveInfinityValue : Option Number
  negativeInfinityCount : Int
  negativeInfinityValue : Option Number
  values : Dict Real (Number × Int)
  current : Option Number
  currentKey : Option Real

namespace Item

def empty : Item := ⟨0,0,0,0,0,none,0,none,0,none,∅,none,none⟩

/-- `infinity_sign`: `math.isinf` of what is too large for a float raises. -/
def infinitySign : Number → Except String Int
  | .exact value => if Real.Overflows value then .error "int too large to convert to float" else .ok 0
  | .float (.infinity positive) => .ok (if positive then 1 else -1)
  | .float _ => .ok 0

def direction (addition : Bool) : Int := if addition then 1 else -1

/-- `_update_sum` -/
def updateSum (item : Item) (value : Number) (addition : Bool) : Except String Item :=
  if value.real = .nan then
    let count := item.nanCount + direction addition
    .ok {
      item with
      nanCount := count
      nanValue := if addition ∧ item.nanCount = 0 then some value else if count = 0 then none else item.nanValue}
  else do
    let sign ← infinitySign value
    if 0 < sign then
      let count := item.positiveInfinityCount + direction addition
      return {
        item with
        positiveInfinityCount := count
        positiveInfinityValue := if count = 0 then none else some value}
    else if sign < 0 then
      let count := item.negativeInfinityCount + direction addition
      return {
        item with
        negativeInfinityCount := count
        negativeInfinityValue := if count = 0 then none else some value}
    else match value with
      | .float (.finite ratio) =>
        return {
          item with
          floatingCount := item.floatingCount + direction addition
          floatingSum := item.floatingSum + ratio * direction addition}
      | .float _ => return item
      | .exact value => return {item with sum := if addition then item.sum + value else item.sum - value}

def beats (minimum : Bool) (value current : Real) : Bool :=
  if minimum then compareNonNullValues value current < 0 else 0 < compareNonNullValues value current

/-- `_replace_extreme` -/
def replaceExtreme (item : Item) (minimum : Bool) : Item :=
  match item.values.entries with
  | [] => {item with current := none, currentKey := none}
  | (key,value,_)::_ =>
    let best := item.values.entries.foldl
      (fun best candidate => if beats minimum candidate.2.1.real best.2.real then (candidate.1,candidate.2.1) else best) (key,value)
    {item with current := some best.2, currentKey := some best.1}

def recounted : Option (Number × Int) → Int
  | none => 1
  | some (_,count) => count + 1

def replaces (minimum : Bool) (current : Option Number) (value : Number) : Bool :=
  match current with
  | none => true
  | some current => beats minimum value.real current.real

/-- `_update_extreme` -/
def updateExtreme (item : Item) (value : Number) (addition minimum : Bool) : Item :=
  let existing := item.values.get? value.real
  if addition then
    let counted := {
      item with
      values := item.values.set value.real (value,recounted existing)}
    if replaces minimum item.current value then {counted with current := some value, currentKey := some value.real} else counted
  else match existing with
    | none => item
    | some (kept,count) =>
      if 1 < count then {item with values := item.values.set value.real (kept,count - 1)}
      else
        let popped := {item with values := item.values.erase value.real}
        if item.currentKey = some value.real then popped.replaceExtreme minimum else popped

/-- `_sum_value`: the sum of an infinity of each sign is NaN, and a sum that is too large
for a float is an infinity. -/
def asFloat (combined : ℚ) : Real := if Real.Overflows combined then .infinity (0 < combined) else .finite combined

def sumValue (item : Item) : Option Number :=
  if item.nanCount ≠ 0 then item.nanValue
  else if item.positiveInfinityCount ≠ 0 ∧ item.negativeInfinityCount ≠ 0 then some (.float .nan)
  else if item.positiveInfinityCount ≠ 0 then item.positiveInfinityValue
  else if item.negativeInfinityCount ≠ 0 then item.negativeInfinityValue
  else if item.floatingCount ≠ 0 then some (.float (asFloat (item.floatingSum + item.sum)))
  else some (.exact item.sum)

def divide : Number → Int → Number
  | .exact value,count => .exact (value / count)
  | .float (.finite value),count => .float (.finite (value / count))
  | .float value,_ => .float value

/-- `_aggregate_value` -/
def aggregateValue (kind : AggregateKind) (item : Item) : Option Number :=
  match kind with
  | .count => some (.exact item.count)
  | .sum => if item.count ≠ 0 then item.sumValue else none
  | .avg => if item.count ≠ 0 then item.sumValue.map (fun value => divide value item.count) else none
  | .min | .max => item.current

end Item

namespace Aggregate
variable {ρ : Type}

/-- `_update_aggregate` -/
def update (aggregate : Aggregate ρ) (item : Item) (row : ρ) (addition : Bool) : Except String Item :=
  match aggregate.argument with
  | none =>
    if aggregate.kind = .count then .ok {item with count := item.count + Item.direction addition}
    else .error (aggregate.kind.key ++ " requires an input expression")
  | some argument =>
    match argument row with
    | none => .ok item
    | some value =>
      let counted := {item with count := item.count + Item.direction addition}
      match aggregate.kind with
      | .count => .ok counted
      | .sum | .avg => counted.updateSum value addition
      | .min => .ok (counted.updateExtreme value addition true)
      | .max => .ok (counted.updateExtreme value addition false)

end Aggregate

end Klein.Sql
