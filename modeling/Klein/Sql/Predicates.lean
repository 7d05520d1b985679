import Mathlib
import Klein.Dict
import Klein.Fallible

/-! WHERE predicates of the batch engine: `_evaluate` of one row
(`_internal/sql/expression.py`) and the Ray Data expression that `_translate`
(`_internal/sql/ray_data_expression.py`) lowers a predicate to, which runs on Arrow. -/
namespace Klein.Sql
open List Option

inductive Datum (φ : Type) where
  | boolean (value : Bool)
  | integer (value : Int)
  | float (value : φ)
  | text (value : String)
  deriving DecidableEq

inductive Comparison where
  | eq
  | neq
  | gt
  | gte
  | lt
  | lte
  deriving DecidableEq

inductive Arithmetic where
  | add
  | sub
  | mul
  deriving DecidableEq

/-- Python's floats: the float of a number token, and the operations with a float among
numeric operands. -/
structure Floats (φ : Type) where
  parse : String → φ
  truth : φ → Bool
  negate : φ → φ
  compare : Comparison → Datum φ → Datum φ → Bool
  arithmetic : Arithmetic → Datum φ → Datum φ → Option (Datum φ)

namespace Datum
variable {φ : Type} (floats : Floats φ)

def integral : Datum φ → Option Int
  | .boolean value => some (if value then 1 else 0)
  | .integer value => some value
  | _ => none

def truth : Datum φ → Bool
  | .boolean value => value
  | .integer value => value ≠ 0
  | .float value => floats.truth value
  | .text value => value ≠ ""

/-- `-value` -/
def negate : Datum φ → Option (Datum φ)
  | .boolean value => some (.integer (if value then -1 else 0))
  | .integer value => some (.integer (-value))
  | .float value => some (.float (floats.negate value))
  | .text _ => none

def ordered {α : Type} [DecidableEq α] [LT α] [DecidableRel (fun one other : α => one < other)] (one other : α) : Comparison → Bool
  | .eq => one = other
  | .neq => one ≠ other
  | .gt => other < one
  | .gte => ¬ one < other
  | .lt => one < other
  | .lte => ¬ other < one

/-- `_COMPARISON_OPERATIONS`; text and numbers are different and have no order. -/
def compare (comparison : Comparison) (left right : Datum φ) : Option Bool :=
  match left,right with
  | .text left,.text right => some (ordered left right comparison)
  | .text _,_ | _,.text _ =>
    match comparison with
    | .eq => some false
    | .neq => some true
    | _ => none
  | left,right =>
    match left.integral,right.integral with
    | some left,some right => some (ordered left right comparison)
    | _,_ => some (floats.compare comparison left right)

def equal (left right : Datum φ) : Bool := left.compare floats .eq right = some true

def repeated (text : String) (times : Option Int) : Option (Datum φ) :=
  times.map (fun times => .text (String.join (List.replicate times.toNat text)))

/-- `_ARITHMETIC_OPERATIONS` -/
def arithmetic (operation : Arithmetic) (left right : Datum φ) : Option (Datum φ) :=
  match left,right with
  | .text left,.text right => if operation = .add then some (.text (left ++ right)) else none
  | .text left,right => if operation = .mul then repeated left right.integral else none
  | left,.text right => if operation = .mul then repeated right left.integral else none
  | left,right =>
    match left.integral,right.integral with
    | some left,some right =>
      some (.integer (match operation with
        | .add => left + right
        | .sub => left - right
        | .mul => left * right))
    | _,_ => floats.arithmetic operation left right

end Datum

inductive Choice where
  | literal (text : String) (isString : Bool)
  | boolean (value : Bool)
  | null

inductive Expression where
  | column (table name : String)
  | null
  | boolean (value : Bool)
  | literal (text : String) (isString : Bool)
  | paren (this : Expression)
  | neg (this : Expression)
  | not (this : Expression)
  | arithmetic (operation : Arithmetic) (this expression : Expression)
  | comparison (operation : Comparison) (this expression : Expression)
  | and (this expression : Expression)
  | or (this expression : Expression)
  | isNull (this : Expression)
  | isIn (this : Expression) (choices : List Choice)

/-- A row; `none` is NULL. -/
abbrev Fields (φ : Type) := Dict String (Option (Datum φ))

section evaluation
variable {φ : Type} (floats : Floats φ)

/-- `_literal_value`, and `_evaluate_literal`. -/
def literalValue (text : String) (isString : Bool) : Datum φ :=
  if isString then .text text
  else match text.toInt? with
    | some value => .integer value
    | none => .float (floats.parse text)

def endsWith (key suffix : String) : Bool := suffix.toList.isSuffixOf key.toList

/-- `_evaluate_column`; no value where the lookup raises. -/
def evaluateColumn (row : Fields φ) (table name : String) : Option (Option (Datum φ)) :=
  let unqualified :=
    match row.get? name with
    | some value => some value
    | none =>
      match (row.entries.filter (fun entry => endsWith entry.1 ("." ++ name))).map Prod.snd with
      | [value] => some value
      | _ => none
  if table ≠ "" then
    match row.get? (table ++ "." ++ name) with
    | some value => some value
    | none => unqualified
  else unqualified

def evaluateChoice : Choice → Option (Datum φ)
  | .literal text isString => some (literalValue floats text isString)
  | .boolean value => some (.boolean value)
  | .null => none

/-- `_evaluate`; no value where it raises, and NULL is `some none`. -/
def evaluate (row : Fields φ) : Expression → Option (Option (Datum φ))
  | .column table name => evaluateColumn row table name
  | .null => some none
  | .boolean value => some (some (.boolean value))
  | .literal text isString => some (some (literalValue floats text isString))
  | .paren this => evaluate row this
  | .neg this => do
    match ← evaluate row this with
    | none => return none
    | some value => (value.negate floats).map some
  | .not this => do
    match ← evaluate row this with
    | none => return none
    | some value => return some (.boolean (!value.truth floats))
  | .arithmetic operation this expression => do
    let left ← evaluate row this
    let right ← evaluate row expression
    match left,right with
    | some left,some right => (left.arithmetic floats operation right).map some
    | _,_ => return none
  | .comparison operation this expression => do
    let left ← evaluate row this
    let right ← evaluate row expression
    match left,right with
    | some left,some right => (left.compare floats operation right).map (fun holds => some (.boolean holds))
    | _,_ => return none
  | .and this expression => do
    match ← evaluate row this,← evaluate row expression with
    | some (.boolean false),_ | _,some (.boolean false) => return some (.boolean false)
    | some left,some right => return some (.boolean (left.truth floats && right.truth floats))
    | _,_ => return none
  | .or this expression => do
    match ← evaluate row this,← evaluate row expression with
    | some (.boolean true),_ | _,some (.boolean true) => return some (.boolean true)
    | some left,some right => return some (.boolean (left.truth floats || right.truth floats))
    | _,_ => return none
  | .isNull this => do
    let left ← evaluate row this
    return some (.boolean left.isNone)
  | .isIn this choices => do
    match ← evaluate row this with
    | none => return none
    | some value =>
      let choices := choices.map (evaluateChoice floats)
      if choices.any (fun choice => choice.any (value.equal floats)) then return some (.boolean true)
      else if choices.any Option.isNone then return none
      else return some (.boolean false)

/-- `_FilterRow` -/
def filterRow (expression : Expression) (row : Fields φ) : Option Bool :=
  (evaluate floats row expression).map (fun value => value matches some (.boolean true))

end evaluation

inductive NativeExpression (φ : Type) where
  | col (name : String)
  | lit (value : Option (Datum φ))
  | negate (operand : NativeExpression φ)
  | arithmetic (operation : Arithmetic) (left right : NativeExpression φ)
  | comparison (operation : Comparison) (left right : NativeExpression φ)
  | isNull (operand : NativeExpression φ)
  | isIn (operand : NativeExpression φ) (values : List (Datum φ))
  | notIn (operand : NativeExpression φ) (values : List (Datum φ))

section lowering
variable {φ : Type} (floats : Floats φ)

/-- `_column_name` -/
def columnName (aliases : List String) (table name : String) : Option String :=
  if table ≠ "" then some (table ++ "." ++ name)
  else if "_klein_".toList.isPrefixOf name.toList then some name
  else match aliases with
    | [single] => some (single ++ "." ++ name)
    | [] => some name
    | _ => none

/-- The values of `_translate_in`, unless a choice is no literal. -/
def choiceValues (choices : List Choice) : Option (List (Datum φ)) :=
  choices.mapM (evaluateChoice floats)

/-- `_translate` -/
def translate (aliases : List String) (predicate : Bool) : Expression → Option (NativeExpression φ)
  | .column table name => (columnName aliases table name).map .col
  | .null => some (.lit none)
  | .boolean value => some (.lit (some (.boolean value)))
  | .literal text isString => some (.lit (some (literalValue floats text isString)))
  | .paren this => translate aliases predicate this
  | .neg this => (translate aliases predicate this).map .negate
  | .not (.isIn this choices) =>
    if predicate then do
      let operand ← translate aliases true this
      let values ← choiceValues floats choices
      return .notIn operand values
    else none
  | .not _ => none
  | .arithmetic operation this expression => do
    let left ← translate aliases predicate this
    let right ← translate aliases predicate expression
    return .arithmetic operation left right
  | .comparison operation this expression => do
    let left ← translate aliases predicate this
    let right ← translate aliases predicate expression
    return .comparison operation left right
  | .and _ _ => none
  | .or _ _ => none
  | .isNull this => (translate aliases predicate this).map .isNull
  | .isIn this choices =>
    if predicate then do
      let operand ← translate aliases true this
      let values ← choiceValues floats choices
      return .isIn operand values
    else none

end lowering

structure Arrow (φ : Type) where
  negate : Option (Datum φ) → Option (Option (Datum φ))
  arithmetic : Arithmetic → Option (Datum φ) → Option (Datum φ) → Option (Option (Datum φ))
  comparison : Comparison → Option (Datum φ) → Option (Datum φ) → Option (Option (Datum φ))
  isIn : Option (Datum φ) → List (Datum φ) → Option Bool

namespace Arrow
variable {φ : Type} (arrow : Arrow φ)

def evaluate (row : Fields φ) : NativeExpression φ → Option (Option (Datum φ))
  | .col name => row.get? name
  | .lit value => some value
  | .negate operand => do arrow.negate (← evaluate row operand)
  | .arithmetic operation left right => do arrow.arithmetic operation (← evaluate row left) (← evaluate row right)
  | .comparison operation left right => do arrow.comparison operation (← evaluate row left) (← evaluate row right)
  | .isNull operand => do return some (.boolean (← evaluate row operand).isNone)
  | .isIn operand values => do return some (.boolean (← arrow.isIn (← evaluate row operand) values))
  | .notIn operand values => do return some (.boolean (!(← arrow.isIn (← evaluate row operand) values)))

/-- `Dataset.filter`; a predicate is boolean, and NULL is dropped. -/
def filter (native : NativeExpression φ) (row : Fields φ) : Option Bool :=
  (arrow.evaluate row native).bind (fun value => match value with
    | none => some false
    | some (.boolean keep) => some keep
    | some _ => none)

/-- What Arrow says of its kernels: NULL in is NULL out, but `is_in` is false of it, and
on values they compute what Python does, where it does not raise. -/
structure Documented (floats : Floats φ) : Prop where
  negate_null : ∀ result, arrow.negate none = some result → result = none
  arithmetic_null : ∀ operation left right result, left = none ∨ right = none →
    arrow.arithmetic operation left right = some result → result = none
  comparison_null : ∀ operation left right result, left = none ∨ right = none →
    arrow.comparison operation left right = some result → result = none
  isIn_null : ∀ values result, arrow.isIn none values = some result → result = false
  negate_value : ∀ value result python, arrow.negate (some value) = some result → value.negate floats = some python →
    result = some python
  arithmetic_value : ∀ operation left right result python, arrow.arithmetic operation (some left) (some right) = some result →
    left.arithmetic floats operation right = some python → result = some python
  comparison_value : ∀ operation left right result python, arrow.comparison operation (some left) (some right) = some result →
    left.compare floats operation right = some python → result = some (.boolean python)
  isIn_value : ∀ value values result, arrow.isIn (some value) values = some result →
    result = values.any (value.equal floats)

end Arrow

namespace Expression
variable {φ : Type} (row : Fields φ)

def Unknown : Expression → Prop
  | .column table name => evaluateColumn row table name = some none
  | .null => True
  | .boolean _ => False
  | .literal _ _ => False
  | .paren this => Unknown this
  | .neg this => Unknown this
  | .not this => Unknown this
  | .arithmetic _ this expression => Unknown this ∨ Unknown expression
  | .comparison _ this expression => Unknown this ∨ Unknown expression
  | .isIn this _ => Unknown this
  -- the first is never NULL, and the others are not lowered
  | .isNull _ => False
  | .and _ _ => False
  | .or _ _ => False

def Steady : Expression → Prop
  | .isIn this _ => ¬ Unknown row this ∧ Steady this
  | .paren this => Steady this
  | .neg this => Steady this
  | .not this => Steady this
  | .isNull this => Steady this
  | .arithmetic _ this expression => Steady this ∧ Steady expression
  | .comparison _ this expression => Steady this ∧ Steady expression
  | .and this expression => Steady this ∧ Steady expression
  | .or this expression => Steady this ∧ Steady expression
  | _ => True

def Sheltered : Expression → Prop
  | .paren this => Sheltered this
  | .isIn this _ => Steady row this
  | expression => Steady row expression

def Qualified (aliases : List String) : Expression → Prop
  | .column table name => table = "" → "_klein_".toList.isPrefixOf name.toList = false → aliases ≠ [] → row.contains name = false
  | .paren this => Qualified aliases this
  | .neg this => Qualified aliases this
  | .not this => Qualified aliases this
  | .isNull this => Qualified aliases this
  | .arithmetic _ this expression => Qualified aliases this ∧ Qualified aliases expression
  | .comparison _ this expression => Qualified aliases this ∧ Qualified aliases expression
  | .and this expression => Qualified aliases this ∧ Qualified aliases expression
  | .or this expression => Qualified aliases this ∧ Qualified aliases expression
  | .isIn this _ => Qualified aliases this
  | _ => True

def stripped : Expression → Expression
  | .paren this => stripped this
  | expression => expression

end Expression

section agreement
attribute [local simp] evaluate
open Expression
variable {φ : Type} {floats : Floats φ} {row : Fields φ} {aliases : List String} {predicate : Bool}

theorem choiceValues_eq (choices : List Choice) (values : List (Datum φ)) (found : choiceValues floats choices = some values) :
    choices.map (evaluateChoice floats) = values.map some := by
  unfold choiceValues at found
  induction choices generalizing values with
  | nil =>
    obtain rfl := some.inj found
    rfl
  | cons choice rest ih =>
    rw [mapM_cons] at found
    obtain ⟨value,own,found⟩ := bind_eq_some_iff.mp found
    obtain ⟨others,remaining,found⟩ := bind_eq_some_iff.mp found
    obtain rfl := some.inj found
    rw [map_cons,map_cons,own,ih others remaining]

theorem evaluate_isIn (this : Expression) (choices : List Choice) (values : List (Datum φ))
    (found : choiceValues floats choices = some values) :
    evaluate floats row (.isIn this choices) =
      (evaluate floats row this).map (Option.map (fun value => .boolean (values.any (value.equal floats)))) := by
  rw [evaluate]
  cases evaluate floats row this with
  | none => rfl
  | some result =>
    cases result with
    | none => rfl
    | some value =>
      have known : (values.map some).any Option.isNone = false := by simp
      have members : (values.map some).any (fun choice => choice.any (value.equal floats)) = values.any (value.equal floats) := by
        rw [List.any_map]
        rfl
      dsimp only [bind_eq_bind,bind_some]
      rw [choiceValues_eq choices values found,members,known,map_some,map_some]
      cases values.any (value.equal floats) <;> rfl

theorem translate_not (this : Expression) (native : NativeExpression φ)
    (lowered : translate floats aliases predicate (.not this) = some native) :
    ∃ inner choices operand values, this = .isIn inner choices ∧ translate floats aliases true inner = some operand ∧
      choiceValues floats choices = some values ∧ native = .notIn operand values ∧
      translate floats aliases true this = some (.isIn operand values) := by
  cases this with
  | isIn inner choices =>
    rw [translate] at lowered
    split at lowered
    next =>
      obtain ⟨operand,translated,lowered⟩ := bind_eq_some_iff.mp lowered
      obtain ⟨values,listed,lowered⟩ := bind_eq_some_iff.mp lowered
      refine ⟨inner,choices,operand,values,rfl,translated,listed,(some.inj lowered).symm,?_⟩
      rw [translate,if_pos rfl,translated,listed]
      rfl
    next => cases lowered
  | _ => cases lowered

theorem translate_isIn (this : Expression) (choices : List Choice) (native : NativeExpression φ)
    (lowered : translate floats aliases predicate (.isIn this choices) = some native) :
    ∃ operand values, translate floats aliases true this = some operand ∧ choiceValues floats choices = some values ∧
      native = .isIn operand values := by
  rw [translate] at lowered
  split at lowered
  next =>
    obtain ⟨operand,translated,lowered⟩ := bind_eq_some_iff.mp lowered
    obtain ⟨values,listed,lowered⟩ := bind_eq_some_iff.mp lowered
    exact ⟨operand,values,translated,listed,(some.inj lowered).symm⟩
  next => cases lowered

theorem binary_none (left right value : Option (Datum φ)) (compute : Datum φ → Datum φ → Option (Option (Datum φ)))
    (known : ∀ left right value, compute left right = some value → value ≠ none)
    (evaluated : (match left,right with
      | some left,some right => compute left right
      | _,_ => some none) = some value) : value = none ↔ left = none ∨ right = none := by
  cases left with
  | none =>
    obtain rfl := some.inj evaluated
    simp
  | some left =>
    cases right with
    | none =>
      obtain rfl := some.inj evaluated
      simp
    | some right => simp [known left right value evaluated]

theorem unknown_iff (expression : Expression) (native : NativeExpression φ) (value : Option (Datum φ))
    (lowered : translate floats aliases predicate expression = some native)
    (evaluated : evaluate floats row expression = some value) : value = none ↔ Unknown row expression := by
  induction expression generalizing predicate native value with
  | column table name =>
    rw [evaluate] at evaluated
    rw [Unknown,evaluated]
    simp
  | null | boolean _ | literal _ _ =>
    obtain rfl := some.inj evaluated
    simp [Unknown]
  | paren this ih => exact ih native value lowered evaluated
  | neg this ih =>
    obtain ⟨operand,translated,-⟩ := map_eq_some_iff.mp lowered
    rw [evaluate] at evaluated
    obtain ⟨inner,found,evaluated⟩ := bind_eq_some_iff.mp evaluated
    rw [Unknown,← ih operand inner translated found]
    cases inner with
    | none =>
      obtain rfl := some.inj evaluated
      simp
    | some inner =>
      obtain ⟨negated,-,rfl⟩ := map_eq_some_iff.mp evaluated
      simp
  | not this ih =>
    obtain ⟨inner,choices,operand,values,-,-,-,-,translated⟩ := translate_not this native lowered
    rw [evaluate] at evaluated
    obtain ⟨result,found,evaluated⟩ := bind_eq_some_iff.mp evaluated
    rw [Unknown,← ih _ result translated found]
    cases result with
    | none =>
      obtain rfl := some.inj evaluated
      simp
    | some result =>
      obtain rfl := some.inj evaluated
      simp
  | arithmetic _ this expression first second | comparison _ this expression first second =>
    obtain ⟨one,translated,lowered⟩ := bind_eq_some_iff.mp lowered
    obtain ⟨other,translated',-⟩ := bind_eq_some_iff.mp lowered
    rw [evaluate] at evaluated
    obtain ⟨left,found,evaluated⟩ := bind_eq_some_iff.mp evaluated
    obtain ⟨right,found',evaluated⟩ := bind_eq_some_iff.mp evaluated
    rw [Unknown,← first one left translated found,← second other right translated' found']
    exact binary_none left right value _ (fun left right value computed => by
      obtain ⟨result,-,rfl⟩ := map_eq_some_iff.mp computed
      simp) evaluated
  | and this expression => cases lowered
  | or this expression => cases lowered
  | isNull this ih =>
    rw [evaluate] at evaluated
    obtain ⟨inner,-,evaluated⟩ := bind_eq_some_iff.mp evaluated
    obtain rfl := some.inj evaluated
    simp [Unknown]
  | isIn this choices ih =>
    obtain ⟨operand,values,translated,listed,-⟩ := translate_isIn this choices native lowered
    rw [evaluate_isIn this choices values listed] at evaluated
    obtain ⟨inner,found,rfl⟩ := map_eq_some_iff.mp evaluated
    rw [Unknown,← ih operand inner translated found,map_eq_none_iff]

theorem endsWith_append (first second : String) : endsWith (first ++ second) second = true := by
  unfold endsWith
  rw [isSuffixOf_iff_suffix,String.toList_append]
  exact suffix_append _ _

theorem column_agrees (table name native : String) (value found : Option (Datum φ))
    (named : columnName aliases table name = some native)
    (qualified : Qualified row aliases (.column table name)) (evaluated : evaluateColumn row table name = some value)
    (held : row.get? native = some found) : found = value := by
  unfold columnName at named
  unfold evaluateColumn at evaluated
  dsimp only at evaluated
  by_cases with' : table ≠ ""
  · rw [if_pos with'] at named evaluated
    obtain rfl := some.inj named
    rw [held] at evaluated
    exact some.inj evaluated
  · rw [if_neg with'] at named evaluated
    by_cases klein : "_klein_".toList.isPrefixOf name.toList = true
    · rw [if_pos klein] at named
      obtain rfl := some.inj named
      rw [held] at evaluated
      exact some.inj evaluated
    · rw [if_neg klein] at named
      match aliases,named,qualified with
      | [],named,_ =>
        obtain rfl := some.inj named
        rw [held] at evaluated
        exact some.inj evaluated
      | [single],named,qualified =>
        obtain rfl := some.inj named
        have bare := qualified (not_not.mp with') (Bool.eq_false_iff.mpr klein) (by simp)
        rw [Dict.contains_eq_isSome,isSome_eq_false_iff,isNone_iff_eq_none] at bare
        rw [bare] at evaluated
        dsimp only at evaluated
        -- the native column is among those with this suffix, so it is the only one
        have inside : found ∈ (row.entries.filter (fun entry => endsWith entry.1 ("." ++ name))).map Prod.snd := by
          refine List.mem_map.mpr ⟨(single ++ "." ++ name,found),mem_filter.mpr ⟨(Dict.get?_eq_some row _ _).mp held,?_⟩,rfl⟩
          rw [String.append_assoc]
          exact endsWith_append single ("." ++ name)
        split at evaluated
        next only same =>
          rw [same] at inside
          exact (mem_singleton.mp inside).trans (some.inj evaluated)
        next => cases evaluated

variable {arrow : Arrow φ}

theorem translate_agrees (documented : arrow.Documented floats) (expression : Expression) (native : NativeExpression φ)
    (value found : Option (Datum φ)) (lowered : translate floats aliases predicate expression = some native)
    (steady : Steady row expression) (qualified : Qualified row aliases expression)
    (evaluated : evaluate floats row expression = some value) (computed : arrow.evaluate row native = some found) :
    found = value := by
  induction expression generalizing predicate native value found with
  | column table name =>
    obtain ⟨named,same,rfl⟩ := map_eq_some_iff.mp lowered
    exact column_agrees table name named value found same qualified evaluated computed
  | null | boolean _ | literal _ _ =>
    obtain rfl := some.inj lowered
    exact (some.inj computed).symm.trans (some.inj evaluated)
  | paren this ih => exact ih native value found lowered steady qualified evaluated computed
  | neg this ih =>
    obtain ⟨operand,translated,rfl⟩ := map_eq_some_iff.mp lowered
    rw [evaluate] at evaluated
    obtain ⟨inner,known,evaluated⟩ := bind_eq_some_iff.mp evaluated
    obtain ⟨inner',known',computed⟩ := bind_eq_some_iff.mp computed
    obtain rfl := ih operand inner inner' translated steady qualified known known'
    cases inner' with
    | none =>
      obtain rfl := some.inj evaluated
      exact documented.negate_null found computed
    | some inner =>
      obtain ⟨negated,python,rfl⟩ := map_eq_some_iff.mp evaluated
      exact documented.negate_value inner found negated computed python
  | not this ih =>
    obtain ⟨inner,choices,operand,values,-,-,-,rfl,translated⟩ := translate_not this native lowered
    rw [evaluate] at evaluated
    obtain ⟨result,known,evaluated⟩ := bind_eq_some_iff.mp evaluated
    obtain ⟨asking,held,computed⟩ := bind_eq_some_iff.mp computed
    obtain ⟨member,asked,computed⟩ := bind_eq_some_iff.mp computed
    obtain rfl := some.inj computed
    have within : arrow.evaluate row (.isIn operand values) = some (some (.boolean member)) := by
      rw [Arrow.evaluate,held]
      exact congrArg (fun member => Option.bind member (fun member => some (some (Datum.boolean member)))) asked
    obtain rfl := ih _ result _ translated steady qualified known within
    exact some.inj evaluated
  | arithmetic operation this expression first second | comparison operation this expression first second =>
    obtain ⟨one,translated,lowered⟩ := bind_eq_some_iff.mp lowered
    obtain ⟨other,translated',lowered⟩ := bind_eq_some_iff.mp lowered
    obtain rfl := some.inj lowered
    rw [evaluate] at evaluated
    obtain ⟨left,known,evaluated⟩ := bind_eq_some_iff.mp evaluated
    obtain ⟨right,known',evaluated⟩ := bind_eq_some_iff.mp evaluated
    obtain ⟨left',here,computed⟩ := bind_eq_some_iff.mp computed
    obtain ⟨right',there,computed⟩ := bind_eq_some_iff.mp computed
    obtain rfl := first one left left' translated steady.1 qualified.1 known here
    obtain rfl := second other right right' translated' steady.2 qualified.2 known' there
    cases left' with
    | none =>
      obtain rfl := some.inj evaluated
      first
      | exact documented.arithmetic_null operation _ _ found (.inl rfl) computed
      | exact documented.comparison_null operation _ _ found (.inl rfl) computed
    | some left =>
      cases right' with
      | none =>
        obtain rfl := some.inj evaluated
        first
        | exact documented.arithmetic_null operation _ _ found (.inr rfl) computed
        | exact documented.comparison_null operation _ _ found (.inr rfl) computed
      | some right =>
        obtain ⟨result,python,rfl⟩ := map_eq_some_iff.mp evaluated
        first
        | exact documented.arithmetic_value operation left right found result computed python
        | exact documented.comparison_value operation left right found result computed python
  | and this expression => cases lowered
  | or this expression => cases lowered
  | isNull this ih =>
    obtain ⟨operand,translated,rfl⟩ := map_eq_some_iff.mp lowered
    rw [evaluate] at evaluated
    obtain ⟨inner,known,evaluated⟩ := bind_eq_some_iff.mp evaluated
    obtain ⟨inner',known',computed⟩ := bind_eq_some_iff.mp computed
    obtain rfl := ih operand inner inner' translated steady qualified known known'
    exact (some.inj computed).symm.trans (some.inj evaluated)
  | isIn this choices ih =>
    obtain ⟨operand,values,translated,listed,rfl⟩ := translate_isIn this choices native lowered
    rw [evaluate_isIn this choices values listed] at evaluated
    obtain ⟨inner,known,rfl⟩ := map_eq_some_iff.mp evaluated
    obtain ⟨inner',known',computed⟩ := bind_eq_some_iff.mp computed
    obtain ⟨member,asked,computed⟩ := bind_eq_some_iff.mp computed
    obtain rfl := some.inj computed
    obtain rfl := ih operand inner inner' translated steady.2 qualified known known'
    cases inner' with
    | none => exact absurd ((unknown_iff this operand none translated known).mp rfl) steady.1
    | some inner =>
      rw [documented.isIn_value inner values member asked]
      rfl

theorem filter_eq_true (native : NativeExpression φ) (keep : Bool) (kept : arrow.filter native row = some keep) :
    ∃ found, arrow.evaluate row native = some found ∧ (keep = true ↔ found = some (.boolean true)) := by
  obtain ⟨found,computed,kept⟩ := bind_eq_some_iff.mp kept
  refine ⟨found,computed,?_⟩
  cases found with
  | none =>
    obtain rfl := some.inj kept
    simp
  | some datum =>
    cases datum with
    | boolean held =>
      obtain rfl := some.inj kept
      simp
    | _ => cases kept

theorem filterRow_eq_true (expression : Expression) (keep : Bool) (kept : filterRow floats expression row = some keep) :
    ∃ value, evaluate floats row expression = some value ∧ (keep = true ↔ value = some (.boolean true)) := by
  obtain ⟨value,evaluated,rfl⟩ := map_eq_some_iff.mp kept
  refine ⟨value,evaluated,?_⟩
  split
  next => simp
  next other => simpa using fun same => other same

section
variable (documented : arrow.Documented floats)
include documented

theorem membership_unknown (this : Expression) (choices : List Choice)
    (native : NativeExpression φ) (value found : Option (Datum φ))
    (lowered : translate floats aliases predicate (.isIn this choices) = some native) (steady : Steady row this)
    (qualified : Qualified row aliases this) (unknown : Unknown row this)
    (evaluated : evaluate floats row (.isIn this choices) = some value) (computed : arrow.evaluate row native = some found) :
    value = none ∧ found = some (.boolean false) := by
  obtain ⟨operand,values,translated,listed,rfl⟩ := translate_isIn this choices native lowered
  rw [evaluate_isIn this choices values listed] at evaluated
  obtain ⟨inner,known,rfl⟩ := map_eq_some_iff.mp evaluated
  obtain ⟨inner',known',computed⟩ := bind_eq_some_iff.mp computed
  obtain ⟨member,asked,computed⟩ := bind_eq_some_iff.mp computed
  obtain rfl := some.inj computed
  obtain rfl := translate_agrees documented this operand inner inner' translated steady qualified known known'
  obtain rfl := (unknown_iff this operand inner' translated known).mpr unknown
  exact ⟨rfl,by rw [documented.isIn_null values member asked]⟩

theorem sheltered_keeps (expression : Expression) (native : NativeExpression φ)
    (value found : Option (Datum φ)) (lowered : translate floats aliases predicate expression = some native)
    (qualified : Qualified row aliases expression) (evaluated : evaluate floats row expression = some value)
    (computed : arrow.evaluate row native = some found) (sheltered : Sheltered row expression) :
    found = some (.boolean true) ↔ value = some (.boolean true) := by
  have steady (steady : Steady row expression) : found = some (.boolean true) ↔ value = some (.boolean true) := by
    rw [translate_agrees documented expression native value found lowered steady qualified evaluated computed]
  induction expression with
  | paren this ih => exact ih lowered qualified evaluated sheltered steady
  | isIn this choices ih =>
    by_cases unknown : Unknown row this
    · obtain ⟨rfl,rfl⟩ := membership_unknown documented this choices native value found lowered sheltered qualified unknown
        evaluated computed
      simp
    · exact steady ⟨unknown,sheltered⟩
  | _ => exact steady sheltered

theorem not_in_differs (expression this : Expression) (choices : List Choice)
    (shape : stripped expression = .not (.isIn this choices)) (native : NativeExpression φ) (value found : Option (Datum φ))
    (lowered : translate floats aliases predicate expression = some native) (qualified : Qualified row aliases expression)
    (evaluated : evaluate floats row expression = some value) (computed : arrow.evaluate row native = some found)
    (steady : Steady row this) (same : found = some (.boolean true) ↔ value = some (.boolean true)) :
    Sheltered row expression := by
  induction expression with
  | paren inner ih => exact ih shape lowered qualified evaluated
  | not inner ih =>
    obtain rfl := Expression.not.inj shape
    refine ⟨fun unknown => ?_,steady⟩
    obtain ⟨-,-,operand,values,-,-,-,rfl,translated⟩ := translate_not _ native lowered
    rw [evaluate] at evaluated
    obtain ⟨result,known,evaluated⟩ := bind_eq_some_iff.mp evaluated
    obtain ⟨asking,held,computed⟩ := bind_eq_some_iff.mp computed
    obtain ⟨member,asked,computed⟩ := bind_eq_some_iff.mp computed
    have within : arrow.evaluate row (.isIn operand values) = some (some (.boolean member)) := by
      rw [Arrow.evaluate,held]
      exact congrArg (fun member => Option.bind member (fun member => some (some (Datum.boolean member)))) asked
    obtain ⟨rfl,refused⟩ := membership_unknown documented this choices _ result _ translated steady qualified unknown known within
    obtain rfl := some.inj evaluated
    obtain rfl := some.inj computed
    obtain rfl := Datum.boolean.inj (some.inj refused)
    cases same.mp rfl
  | _ => cases shape

end

end agreement

open Expression in
/-- The native filter keeps the rows that the row filter keeps, where NULL is asked for by
no membership but one that is the whole predicate; and of the predicates that are one
NOT IN, nowhere else. -/
theorem native_keeps {φ : Type} (floats : Floats φ) (arrow : Arrow φ) (documented : arrow.Documented floats)
    (expression : Expression) (aliases : List String) (native : NativeExpression φ)
    (lowered : translate floats aliases true expression = some native) (row : Fields φ) (qualified : Qualified row aliases expression)
    (keep keep' : Bool) (kept : arrow.filter native row = some keep) (kept' : filterRow floats expression row = some keep') :
    (Sheltered row expression → keep = keep') ∧
      (∀ this choices, stripped expression = .not (.isIn this choices) → Steady row this →
        keep = keep' → Sheltered row expression) := by
  obtain ⟨found,computed,kept⟩ := filter_eq_true native keep kept
  obtain ⟨value,evaluated,kept'⟩ := filterRow_eq_true expression keep' kept'
  constructor
  · intro sheltered
    have same := sheltered_keeps documented expression native value found lowered qualified evaluated computed sheltered
    exact Bool.eq_iff_iff.mpr (kept.trans (same.trans kept'.symm))
  · intro this choices shape steady same
    refine not_in_differs documented expression this choices shape native value found lowered qualified evaluated computed steady ?_
    exact kept.symm.trans (by rw [same]; exact kept')

section runs

def typedEqual {φ : Type} : Datum φ → Datum φ → Option Bool
  | .boolean left,.boolean right => some (left = right)
  | .integer left,.integer right => some (left = right)
  | .text left,.text right => some (left = right)
  | _,_ => none

def fitting {φ : Type} (value : Int) : Option (Option (Datum φ)) :=
  if -2 ^ 63 ≤ value ∧ value < 2 ^ 63 then some (some (.integer value)) else none

def kernels {φ : Type} : Arrow φ where
  negate
    | none => some none
    | some (.integer value) => fitting (-value)
    | some _ => none
  arithmetic
    | .add,some (.integer left),some (.integer right) => fitting (left + right)
    | .sub,some (.integer left),some (.integer right) => fitting (left - right)
    | .mul,some (.integer left),some (.integer right) => fitting (left * right)
    | _,some _,some _ => none
    | _,_,_ => some none
  comparison
    | operation,some (.integer left),some (.integer right) => some (some (.boolean (Datum.ordered left right operation)))
    | operation,some (.text left),some (.text right) => some (some (.boolean (Datum.ordered left right operation)))
    | _,some _,some _ => none
    | _,_,_ => some none
  isIn
    | none,_ => some false
    | some value,values => (values.mapM (typedEqual value)).map (fun tests => tests.any id)

theorem fitting_eq {φ : Type} (value : Int) (result : Option (Datum φ)) (fits : fitting value = some result) :
    result = some (.integer value) := by
  unfold fitting at fits
  split at fits
  next => exact (some.inj fits).symm
  next => cases fits

theorem typedEqual_eq {φ : Type} (floats : Floats φ) (value other : Datum φ) (result : Bool)
    (typed : typedEqual value other = some result) : result = value.equal floats other := by
  cases value with
  | boolean left =>
    cases other with
    | boolean right =>
      obtain rfl := some.inj typed
      cases left <;> cases right <;> rfl
    | _ => cases typed
  | integer left =>
    cases other with
    | integer right =>
      obtain rfl := some.inj typed
      simp [Datum.equal,Datum.compare,Datum.integral,Datum.ordered]
    | _ => cases typed
  | text left =>
    cases other with
    | text right =>
      obtain rfl := some.inj typed
      simp [Datum.equal,Datum.compare,Datum.ordered]
    | _ => cases typed
  | float left => cases typed

theorem kernels_documented {φ : Type} (floats : Floats φ) : (kernels : Arrow φ).Documented floats := by
  constructor
  · intro result done
    exact (some.inj done).symm
  · intro operation left right result absent done
    rcases absent with rfl | rfl
    · cases operation <;> exact (some.inj done).symm
    · cases left with
      | none => cases operation <;> exact (some.inj done).symm
      | some left => cases operation <;> cases left <;> exact (some.inj done).symm
  · intro operation left right result absent done
    rcases absent with rfl | rfl
    · exact (some.inj done).symm
    · cases left with
      | none => exact (some.inj done).symm
      | some left => cases left <;> exact (some.inj done).symm
  · intro values result done
    exact (some.inj done).symm
  · intro value result python done negated
    cases value with
    | integer value =>
      obtain rfl := some.inj negated
      exact fitting_eq _ result done
    | _ => cases done
  · intro operation left right result python done computed
    cases left with
    | integer left =>
      cases right with
      | integer right =>
        obtain rfl := some.inj computed
        cases operation <;> exact fitting_eq _ result done
      | _ => cases operation <;> cases done
    | _ => cases operation <;> cases done
  · intro operation left right result python done computed
    cases left with
    | integer left =>
      cases right with
      | integer right =>
        obtain rfl := some.inj computed
        exact (some.inj done).symm
      | _ => cases done
    | text left =>
      cases right with
      | text right =>
        obtain rfl := some.inj computed
        exact (some.inj done).symm
      | _ => cases done
    | _ => cases done
  · intro value values result done
    obtain ⟨tests,typed,rfl⟩ := map_eq_some_iff.mp done
    induction values generalizing tests with
    | nil =>
      obtain rfl := some.inj typed
      rfl
    | cons other rest ih =>
      rw [mapM_cons] at typed
      obtain ⟨test,own,typed⟩ := bind_eq_some_iff.mp typed
      obtain ⟨others,remaining,typed⟩ := bind_eq_some_iff.mp typed
      obtain rfl := some.inj typed
      have later := ih others remaining (congrArg (Option.map (fun tests : List Bool => tests.any id)) remaining)
      rw [any_cons,any_cons,later,typedEqual_eq floats value other test own]
      rfl

def exactFloats : Floats ℚ where
  parse text := match text.splitOn "." with
    | [whole,fraction] =>
      let places := fraction.length
      ((whole ++ fraction).toInt?.getD 0 : ℚ) / (10 : ℚ) ^ places
    | _ => 0
  truth value := value ≠ 0
  negate value := -value
  compare operation left right := Datum.ordered (number left) (number right) operation
  arithmetic operation left right := some (.float (match operation with
    | .add => number left + number right
    | .sub => number left - number right
    | .mul => number left * number right))
where
  number : Datum ℚ → ℚ
    | .float value => value
    | other => (other.integral.getD 0 : ℚ)

/-- `name NOT IN ('a')` -/
def otherNames : Expression := .not (.isIn (.column "t" "name") [.literal "a" true])

def nativeOtherNames : NativeExpression ℚ := .notIn (.col "t.name") [.text "a"]

theorem otherNames_lowered : translate exactFloats ["t"] true otherNames = some nativeOtherNames := rfl

def named (value : Option (Datum ℚ)) : Fields ℚ := Dict.ofList [("t.name",value)]

/-- A name that is known is kept by both filters or by none. -/
theorem known_name_kept : ∃ keep keep', kernels.filter nativeOtherNames (named (some (.text "b"))) = some keep ∧
    filterRow exactFloats otherNames (named (some (.text "b"))) = some keep' ∧ keep = keep' := by
  have kept : kernels.filter nativeOtherNames (named (some (.text "b"))) = some true := by decide +kernel
  have kept' : filterRow exactFloats otherNames (named (some (.text "b"))) = some true := by decide +kernel
  refine ⟨true,true,kept,kept',?_⟩
  refine (native_keeps exactFloats kernels (kernels_documented exactFloats) otherNames ["t"] nativeOtherNames otherNames_lowered
    (named (some (.text "b"))) ?_ true true kept kept').1 ?_
  · intro unqualified
    exact absurd unqualified (by decide)
  · have known : evaluateColumn (named (some (.text "b"))) "t" "name" = some (some (.text "b")) := by decide +kernel
    refine ⟨fun unknown => ?_,trivial⟩
    cases known.symm.trans unknown

/-- The row without a name is kept by the native filter only. -/
theorem unknown_name_kept : translate exactFloats ["t"] true otherNames = some nativeOtherNames ∧
    kernels.filter nativeOtherNames (named none) = some true ∧ filterRow exactFloats otherNames (named none) = some false := by
  refine ⟨rfl,?_,?_⟩
  · decide +kernel
  · decide +kernel

end runs

end Klein.Sql
