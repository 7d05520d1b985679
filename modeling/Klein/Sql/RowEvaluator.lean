import Klein.Sql.Predicates

/-! `evaluate_expression` (`_internal/sql/expression.py`) on BETWEEN, IN, COALESCE and
CASE over any expressions, and the value that three-valued logic gives to them: no value
where the operands of a comparison have no common type or a connective is not boolean. -/
namespace Klein.Sql
open List Option

inductive RowExpression where
  | column (table name : String)
  | null
  | boolean (value : Bool)
  | literal (text : String) (isString : Bool)
  | paren (this : RowExpression)
  | not (this : RowExpression)
  | comparison (operation : Comparison) (this expression : RowExpression)
  | and (this expression : RowExpression)
  | or (this expression : RowExpression)
  | isNull (this : RowExpression)
  | between (this low high : RowExpression)
  | isIn (this : RowExpression) (expressions : List RowExpression)
  | coalesce (this : RowExpression) (expressions : List RowExpression)
  | case (this : Option RowExpression) (ifs : List (RowExpression × RowExpression)) (default : Option RowExpression)

abbrev Nullable (φ : Type) := Option (Datum φ)

section choice
variable {φ : Type}

def firstKnown : List (Option (Nullable φ)) → Option (Nullable φ)
  | [] => some none
  | candidate :: rest => do
    match ← candidate with
    | some value => return some value
    | none => firstKnown rest

def firstBranch (chosen : Nullable φ → Option Bool) : List (Option (Nullable φ) × Option (Nullable φ)) → Option (Nullable φ) → Option (Nullable φ)
  | [],otherwise => otherwise
  | (condition,result) :: rest,otherwise => do
    if ← chosen (← condition) then result else firstBranch chosen rest otherwise

end choice

namespace RowExpression

section evaluation
variable {φ : Type} (floats : Floats φ) (row : Fields φ)

mutual

/-- `_evaluate`; nothing where it raises. -/
def evaluate : RowExpression → Option (Nullable φ)
  | .column table name => evaluateColumn row table name
  | .null => some none
  | .boolean value => some (some (.boolean value))
  | .literal text isString => some (some (literalValue floats text isString))
  | .paren this => evaluate this
  | .not this => do
    match ← evaluate this with
    | none => return none
    | some value => return some (.boolean (!value.truth floats))
  | .comparison operation this expression => do
    match ← evaluate this,← evaluate expression with
    | some left,some right => (left.compare floats operation right).map (fun holds => some (.boolean holds))
    | _,_ => return none
  | .and this expression => do
    match ← evaluate this,← evaluate expression with
    | some (.boolean false),_ | _,some (.boolean false) => return some (.boolean false)
    | some left,some right => return some (.boolean (left.truth floats && right.truth floats))
    | _,_ => return none
  | .or this expression => do
    match ← evaluate this,← evaluate expression with
    | some (.boolean true),_ | _,some (.boolean true) => return some (.boolean true)
    | some left,some right => return some (.boolean (left.truth floats || right.truth floats))
    | _,_ => return none
  | .isNull this => do return some (.boolean (← evaluate this).isNone)
  | .between this low high => do
    match ← evaluate this,← evaluate low,← evaluate high with
    | some value,some low,some high =>
      if ← low.compare floats .lte value then (value.compare floats .lte high).map (fun holds => some (.boolean holds))
      else return some (.boolean false)
    | _,_,_ => return none
  | .isIn this expressions => do
    match ← evaluate this with
    | none => return none
    | some value =>
      let choices ← (evaluateAll expressions).mapM id
      if choices.any (fun choice => choice.any (value.equal floats)) then return some (.boolean true)
      else if choices.any Option.isNone then return none
      else return some (.boolean false)
  | .coalesce this expressions => firstKnown (evaluate this :: evaluateAll expressions)
  | .case none ifs default =>
    firstBranch (fun matched => some (matched matches some (.boolean true))) (evaluateIfs ifs) (evaluateDefault default)
  | .case (some this) ifs default => do
    let base ← evaluate this
    firstBranch (fun matched => some (base.any (fun base => matched.any (fun matched => matched.equal floats base))))
      (evaluateIfs ifs) (evaluateDefault default)

def evaluateAll : List RowExpression → List (Option (Nullable φ))
  | [] => []
  | expression :: rest => evaluate expression :: evaluateAll rest

def evaluateIfs : List (RowExpression × RowExpression) → List (Option (Nullable φ) × Option (Nullable φ))
  | [] => []
  | (condition,result) :: rest => (evaluate condition,evaluate result) :: evaluateIfs rest

def evaluateDefault : Option RowExpression → Option (Nullable φ)
  | none => some none
  | some default => evaluate default

end

end evaluation
end RowExpression

/-- The truth values of SQL; `none` is UNKNOWN. -/
abbrev Truth := Option Bool

namespace Truth
variable {φ : Type}

def negation (truth : Truth) : Truth := truth.map (fun value => !value)

def conjunction : Truth → Truth → Truth
  | some false,_ | _,some false => some false
  | some true,some true => some true
  | _,_ => none

def disjunction : Truth → Truth → Truth
  | some true,_ | _,some true => some true
  | some false,some false => some false
  | _,_ => none

def cell (truth : Truth) : Nullable φ := truth.map Datum.boolean

def read : Nullable φ → Option Truth
  | none => some none
  | some (.boolean value) => some (some value)
  | some _ => none

def comparison (operation : Comparison) : Nullable φ → Nullable φ → Option Truth
  | none,_ | _,none => some none
  | some (.boolean left),some (.boolean right) => some (some (Datum.ordered left right operation))
  | some (.integer left),some (.integer right) => some (some (Datum.ordered left right operation))
  | some (.text left),some (.text right) => some (some (Datum.ordered left right operation))
  | some _,some _ => none

def membership (value : Nullable φ) : List (Nullable φ) → Option Truth
  | [] => some (some false)
  | choice :: rest => do return disjunction (← comparison .eq value choice) (← membership value rest)

end Truth

namespace RowExpression

section standard
variable {φ : Type} (floats : Floats φ) (row : Fields φ)

mutual

def standard : RowExpression → Option (Nullable φ)
  | .column table name => evaluateColumn row table name
  | .null => some none
  | .boolean value => some (some (.boolean value))
  | .literal text isString => some (some (literalValue floats text isString))
  | .paren this => standard this
  | .not this => do return (← Truth.read (← standard this)).negation.cell
  | .comparison operation this expression => do
    return (← Truth.comparison operation (← standard this) (← standard expression)).cell
  | .and this expression => do
    return ((← Truth.read (← standard this)).conjunction (← Truth.read (← standard expression))).cell
  | .or this expression => do
    return ((← Truth.read (← standard this)).disjunction (← Truth.read (← standard expression))).cell
  | .isNull this => do return some (.boolean (← standard this).isNone)
  | .between this low high => do
    let value ← standard this
    let above ← Truth.comparison .lte (← standard low) value
    let below ← Truth.comparison .lte value (← standard high)
    return (above.conjunction below).cell
  | .isIn this expressions => do
    let value ← standard this
    return (← Truth.membership value (← (standardAll expressions).mapM id)).cell
  | .coalesce this expressions => firstKnown (standard this :: standardAll expressions)
  | .case none ifs default =>
    firstBranch (fun condition => (Truth.read condition).map (fun truth => truth = some true)) (standardIfs ifs) (standardDefault default)
  | .case (some this) ifs default => do
    let base ← standard this
    firstBranch (fun condition => (Truth.comparison .eq base condition).map (fun truth => truth = some true))
      (standardIfs ifs) (standardDefault default)

def standardAll : List RowExpression → List (Option (Nullable φ))
  | [] => []
  | expression :: rest => standard expression :: standardAll rest

def standardIfs : List (RowExpression × RowExpression) → List (Option (Nullable φ) × Option (Nullable φ))
  | [] => []
  | (condition,result) :: rest => (standard condition,standard result) :: standardIfs rest

def standardDefault : Option RowExpression → Option (Nullable φ)
  | none => some none
  | some default => standard default

end

/-- A BETWEEN that one bound is unknown of and the other one refutes, or an empty list
that is asked for NULL. -/
def lopsided : RowExpression → Bool
  | .between this low high =>
    match standard floats row this,standard floats row low,standard floats row high with
    | some (some value),some none,some (some high) => Truth.comparison .lte (some value) (some high) = some (some false)
    | some (some value),some (some low),some none => Truth.comparison .lte (some low) (some value) = some (some false)
    | _,_,_ => false
  | .isIn this [] => (standard floats row this matches some none)
  | _ => false

end standard

def children : RowExpression → List RowExpression
  | .paren this | .not this | .isNull this => [this]
  | .comparison _ this expression | .and this expression | .or this expression => [this,expression]
  | .between this low high => [this,low,high]
  | .isIn this expressions | .coalesce this expressions => this :: expressions
  | .case this ifs default => this.toList ++ ifs.flatMap (fun branch => [branch.1,branch.2]) ++ default.toList
  | _ => []

inductive Within : RowExpression → RowExpression → Prop
  | self (expression : RowExpression) : Within expression expression
  | child (inner middle outer : RowExpression) : Within inner middle → middle ∈ outer.children → Within inner outer

theorem sizeOf_children (expression inner : RowExpression) (member : inner ∈ expression.children) : sizeOf inner < sizeOf expression := by
  cases expression with
  | case this ifs default =>
    rcases mem_append.mp member with member | member
    · rcases mem_append.mp member with member | member
      · cases this with
        | none => cases member
        | some this =>
          obtain rfl := mem_singleton.mp member
          simp only [case.sizeOf_spec,Option.some.sizeOf_spec]
          omega
      · obtain ⟨branch,among,part⟩ := mem_flatMap.mp member
        have small := sizeOf_lt_of_mem among
        obtain ⟨condition,result⟩ := branch
        simp only [Prod.mk.sizeOf_spec] at small
        simp only [mem_cons,not_mem_nil,or_false] at part
        rcases part with rfl | rfl <;> simp only [case.sizeOf_spec] <;> omega
    · cases default with
      | none => cases member
      | some default =>
        obtain rfl := mem_singleton.mp member
        simp only [case.sizeOf_spec,Option.some.sizeOf_spec]
        omega
  | isIn this expressions | coalesce this expressions =>
    rcases mem_cons.mp member with rfl | member
    · simp only [isIn.sizeOf_spec,coalesce.sizeOf_spec]
      omega
    · have small := sizeOf_lt_of_mem member
      simp only [isIn.sizeOf_spec,coalesce.sizeOf_spec]
      omega
  | between this low high =>
    simp only [children,mem_cons,not_mem_nil,or_false] at member
    rcases member with rfl | rfl | rfl <;> simp only [between.sizeOf_spec] <;> omega
  | paren this | not this | isNull this =>
    obtain rfl := mem_singleton.mp member
    simp
  | comparison operation this expression | and this expression | or this expression =>
    simp only [children,mem_cons,not_mem_nil,or_false] at member
    rcases member with rfl | rfl <;> simp only [comparison.sizeOf_spec,and.sizeOf_spec,or.sizeOf_spec] <;> omega
  | column | null | boolean | literal => cases member

section agreement
variable {φ : Type} (floats : Floats φ)

theorem read_eq (cell : Nullable φ) (truth : Truth) (known : Truth.read cell = some truth) : cell = truth.cell := by
  cases cell with
  | none =>
    obtain rfl := some.inj known
    rfl
  | some datum =>
    cases datum with
    | boolean value =>
      obtain rfl := some.inj known
      rfl
    | _ => cases known

theorem comparison_values (operation : Comparison) (left right : Datum φ) (truth : Truth)
    (compared : Truth.comparison operation (some left) (some right) = some truth) :
    ∃ holds, truth = some holds ∧ left.compare floats operation right = some holds := by
  cases left with
  | boolean left =>
    cases right with
    | boolean right =>
      refine ⟨_,(some.inj compared).symm,?_⟩
      cases left <;> cases right <;> cases operation <;> rfl
    | _ => cases compared
  | integer left =>
    cases right with
    | integer right => exact ⟨_,(some.inj compared).symm,rfl⟩
    | _ => cases compared
  | text left =>
    cases right with
    | text right => exact ⟨_,(some.inj compared).symm,rfl⟩
    | _ => cases compared
  | float left => cases right <;> cases compared

theorem comparison_null (operation : Comparison) (left right : Nullable φ) (truth : Truth) (null : left = none ∨ right = none)
    (compared : Truth.comparison operation left right = some truth) : truth = none := by
  rcases null with rfl | rfl
  · exact (some.inj compared).symm
  · cases left <;> exact (some.inj compared).symm

theorem equality_symm (left right : Datum φ) : Truth.comparison .eq (some left) (some right) = Truth.comparison .eq (some right) (some left) := by
  cases left <;> cases right <;> simp [Truth.comparison,Datum.ordered,eq_comm]

theorem equality_values (left right : Datum φ) (truth : Truth) (compared : Truth.comparison .eq (some left) (some right) = some truth) :
    truth = some (left.equal floats right) := by
  obtain ⟨holds,rfl,computed⟩ := comparison_values floats .eq left right truth compared
  unfold Datum.equal
  rw [computed]
  cases holds <;> rfl

theorem membership_value (value : Datum φ) (choices : List (Nullable φ)) (truth : Truth)
    (member : Truth.membership (some value) choices = some truth) :
    truth = if choices.any (fun choice => choice.any (value.equal floats)) then some true
      else if choices.any Option.isNone then none else some false := by
  induction choices generalizing truth with
  | nil => exact (some.inj member).symm
  | cons choice rest ih =>
    obtain ⟨first,compared,member⟩ := bind_eq_some_iff.mp member
    obtain ⟨later,remaining,member⟩ := bind_eq_some_iff.mp member
    obtain rfl := some.inj member
    have tail := ih later remaining
    cases choice with
    | none =>
      obtain rfl := comparison_null .eq (some value) none first (.inr rfl) compared
      subst tail
      simp only [any_cons,any_none,isNone_none,Bool.false_or,Bool.true_or,if_true]
      split
      · rfl
      · split <;> rfl
    | some choice =>
      obtain rfl := equality_values floats value choice first compared
      subst tail
      simp only [any_cons,any_some,isNone_some,Bool.false_or]
      cases value.equal floats choice with
      | true => rfl
      | false =>
        rw [Bool.false_or]
        split
        · rfl
        · split <;> rfl

theorem membership_null (choices : List (Nullable φ)) (truth : Truth) (asked : choices ≠ [])
    (member : Truth.membership none choices = some truth) : truth = none := by
  induction choices generalizing truth with
  | nil => cases asked rfl
  | cons choice rest ih =>
    obtain ⟨later,remaining,member⟩ := bind_eq_some_iff.mp member
    obtain rfl := some.inj member
    cases rest with
    | nil =>
      obtain rfl := some.inj remaining
      rfl
    | cons =>
      obtain rfl := ih later nofun remaining
      rfl

def Follows {α : Type} (known computed : Option α) : Prop := ∀ value, known = some value → computed = some value

theorem firstKnown_follows (known computed : List (Option (Nullable φ))) (each : List.Forall₂ Follows known computed) :
    Follows (firstKnown known) (firstKnown computed) := by
  induction each with
  | nil => exact fun value done => done
  | cons first rest ih =>
    intro value done
    obtain ⟨cell,own,done⟩ := bind_eq_some_iff.mp done
    rw [firstKnown,first cell own]
    cases cell with
    | none => exact ih value done
    | some datum => exact done

theorem firstBranch_follows (chosen chosen' : Nullable φ → Option Bool) (test : ∀ cell, Follows (chosen cell) (chosen' cell))
    (known computed : List (Option (Nullable φ) × Option (Nullable φ)))
    (each : List.Forall₂ (fun known computed => Follows known.1 computed.1 ∧ Follows known.2 computed.2) known computed)
    (otherwise otherwise' : Option (Nullable φ)) (default : Follows otherwise otherwise') :
    Follows (firstBranch chosen known otherwise) (firstBranch chosen' computed otherwise') := by
  induction each with
  | nil => exact default
  | cons first rest ih =>
    intro value done
    obtain ⟨cell,own,done⟩ := bind_eq_some_iff.mp done
    obtain ⟨taken,asked,done⟩ := bind_eq_some_iff.mp done
    rw [firstBranch,first.1 cell own]
    change (chosen' cell).bind _ = _
    rw [test cell taken asked]
    cases taken with
    | true => exact first.2 value done
    | false => exact ih value done

end agreement

section values
attribute [local simp] evaluate standard lopsided
variable {φ : Type} (floats : Floats φ) (row : Fields φ)

theorem standardAll_eq (expressions : List RowExpression) : standardAll floats row expressions = expressions.map (standard floats row) := by
  induction expressions with
  | nil => rfl
  | cons expression rest ih => exact congrArg (standard floats row expression :: ·) ih

theorem evaluateAll_eq (expressions : List RowExpression) : evaluateAll floats row expressions = expressions.map (evaluate floats row) := by
  induction expressions with
  | nil => rfl
  | cons expression rest ih => exact congrArg (evaluate floats row expression :: ·) ih

theorem standardIfs_eq (ifs : List (RowExpression × RowExpression)) :
    standardIfs floats row ifs = ifs.map (fun branch => (standard floats row branch.1,standard floats row branch.2)) := by
  induction ifs with
  | nil => rfl
  | cons branch rest ih =>
    exact congrArg ((standard floats row branch.1,standard floats row branch.2) :: ·) ih

theorem evaluateIfs_eq (ifs : List (RowExpression × RowExpression)) :
    evaluateIfs floats row ifs = ifs.map (fun branch => (evaluate floats row branch.1,evaluate floats row branch.2)) := by
  induction ifs with
  | nil => rfl
  | cons branch rest ih =>
    exact congrArg ((evaluate floats row branch.1,evaluate floats row branch.2) :: ·) ih

def Agrees (expression : RowExpression) : Prop := Follows (standard floats row expression) (evaluate floats row expression)

theorem all_follow (expressions : List RowExpression) (agree : ∀ expression ∈ expressions, Agrees floats row expression) :
    List.Forall₂ Follows (standardAll floats row expressions) (evaluateAll floats row expressions) := by
  rw [standardAll_eq,evaluateAll_eq,forall₂_map_left_iff,forall₂_map_right_iff,forall₂_same]
  exact agree

theorem ifs_follow (ifs : List (RowExpression × RowExpression))
    (agree : ∀ branch ∈ ifs, Agrees floats row branch.1 ∧ Agrees floats row branch.2) :
    List.Forall₂ (fun known computed : Option (Nullable φ) × Option (Nullable φ) => Follows known.1 computed.1 ∧ Follows known.2 computed.2)
      (standardIfs floats row ifs) (evaluateIfs floats row ifs) := by
  rw [standardIfs_eq,evaluateIfs_eq,forall₂_map_left_iff,forall₂_map_right_iff,forall₂_same]
  exact agree

theorem gathered_follow (known computed : List (Option (Nullable φ))) (each : List.Forall₂ Follows known computed) (cells : List (Nullable φ))
    (gathered : known.mapM id = some cells) : computed.mapM id = some cells := by
  induction each generalizing cells with
  | nil => exact gathered
  | cons first rest ih =>
    rw [mapM_cons] at gathered
    obtain ⟨cell,own,gathered⟩ := bind_eq_some_iff.mp gathered
    obtain ⟨others,remaining,gathered⟩ := bind_eq_some_iff.mp gathered
    obtain rfl := some.inj gathered
    rw [mapM_cons,id,first cell own,ih others remaining]
    rfl

theorem connective_agrees (this expression : RowExpression) (first : Agrees floats row this) (second : Agrees floats row expression) :
    Agrees floats row (.and this expression) ∧ Agrees floats row (.or this expression) := by
  constructor
  all_goals
    intro value known
    obtain ⟨left,own,known⟩ := bind_eq_some_iff.mp known
    obtain ⟨truth,read,known⟩ := bind_eq_some_iff.mp known
    obtain ⟨right,own',known⟩ := bind_eq_some_iff.mp known
    obtain ⟨truth',read',known⟩ := bind_eq_some_iff.mp known
    obtain rfl := some.inj known
    obtain rfl := read_eq left truth read
    obtain rfl := read_eq right truth' read'
    rw [evaluate,first _ own,second _ own']
    rcases truth with _ | _ | _ <;> rcases truth' with _ | _ | _ <;> rfl

theorem comparison_agrees (operation : Comparison) (this expression : RowExpression) (first : Agrees floats row this)
    (second : Agrees floats row expression) : Agrees floats row (.comparison operation this expression) := by
  intro value known
  obtain ⟨left,own,known⟩ := bind_eq_some_iff.mp known
  obtain ⟨right,own',known⟩ := bind_eq_some_iff.mp known
  obtain ⟨truth,compared,known⟩ := bind_eq_some_iff.mp known
  obtain rfl := some.inj known
  rw [evaluate,first _ own,second _ own']
  cases left with
  | none =>
    obtain rfl := comparison_null operation none right truth (.inl rfl) compared
    rfl
  | some left =>
    cases right with
    | none =>
      obtain rfl := comparison_null operation (some left) none truth (.inr rfl) compared
      rfl
    | some right =>
      obtain ⟨holds,rfl,computed⟩ := comparison_values floats operation left right truth compared
      exact congrArg (Option.map (fun holds => some (Datum.boolean holds))) computed

theorem between_standard (this low high : RowExpression) (value : Nullable φ) (known : standard floats row (.between this low high) = some value) :
    ∃ cell small large above below, standard floats row this = some cell ∧ standard floats row low = some small ∧
      standard floats row high = some large ∧ Truth.comparison .lte small cell = some above ∧ Truth.comparison .lte cell large = some below ∧
      value = (above.conjunction below).cell := by
  obtain ⟨cell,own,known⟩ := bind_eq_some_iff.mp known
  obtain ⟨small,lower,known⟩ := bind_eq_some_iff.mp known
  obtain ⟨above,compared,known⟩ := bind_eq_some_iff.mp known
  obtain ⟨large,upper,known⟩ := bind_eq_some_iff.mp known
  obtain ⟨below,compared',known⟩ := bind_eq_some_iff.mp known
  exact ⟨cell,small,large,above,below,own,lower,upper,compared,compared',(some.inj known).symm⟩

theorem between_null (this low high : RowExpression) (cell small large : Nullable φ) (own : evaluate floats row this = some cell)
    (lower : evaluate floats row low = some small) (upper : evaluate floats row high = some large)
    (null : cell = none ∨ small = none ∨ large = none) : evaluate floats row (.between this low high) = some none := by
  rw [evaluate,own,lower,upper]
  rcases null with rfl | rfl | rfl
  · rfl
  · cases cell <;> rfl
  · cases cell <;> cases small <;> rfl

theorem between_agrees (this low high : RowExpression) (first : Agrees floats row this) (second : Agrees floats row low)
    (third : Agrees floats row high) (straight : lopsided floats row (.between this low high) = false) :
    Agrees floats row (.between this low high) := by
  intro value known
  obtain ⟨cell,small,large,above,below,own,lower,upper,compared,compared',rfl⟩ := between_standard floats row this low high value known
  have null := between_null floats row this low high cell small large (first _ own) (second _ lower) (third _ upper)
  rw [lopsided,own,lower,upper] at straight
  cases cell with
  | none =>
    obtain rfl := comparison_null .lte small none above (.inr rfl) compared
    obtain rfl := comparison_null .lte none large below (.inl rfl) compared'
    exact null (.inl rfl)
  | some datum =>
    cases small with
    | none =>
      obtain rfl := comparison_null .lte none (some datum) above (.inl rfl) compared
      cases large with
      | none =>
        obtain rfl := comparison_null .lte (some datum) none below (.inr rfl) compared'
        exact null (.inr (.inl rfl))
      | some large =>
        have apart := of_decide_eq_false straight
        rcases below with _ | _ | _
        · exact null (.inr (.inl rfl))
        · exact absurd compared' apart
        · exact null (.inr (.inl rfl))
    | some small =>
      obtain ⟨holds,rfl,computed⟩ := comparison_values floats .lte small datum above compared
      cases large with
      | none =>
        obtain rfl := comparison_null .lte (some datum) none below (.inr rfl) compared'
        have apart := of_decide_eq_false straight
        cases holds with
        | false => exact absurd compared apart
        | true => exact null (.inr (.inr rfl))
      | some large =>
        obtain ⟨holds',rfl,computed'⟩ := comparison_values floats .lte datum large below compared'
        rw [evaluate,first _ own,second _ lower,third _ upper]
        change (small.compare floats .lte datum).bind _ = _
        rw [computed]
        cases holds with
        | false => rfl
        | true =>
          have outcome := congrArg (Option.map (fun holds => some ((Datum.boolean holds : Datum φ)))) computed'
          cases holds' <;> exact outcome

theorem isIn_agrees (this : RowExpression) (expressions : List RowExpression) (first : Agrees floats row this)
    (rest : ∀ expression ∈ expressions, Agrees floats row expression) (straight : lopsided floats row (.isIn this expressions) = false) :
    Agrees floats row (.isIn this expressions) := by
  intro value known
  obtain ⟨cell,own,known⟩ := bind_eq_some_iff.mp known
  obtain ⟨cells,gathered,known⟩ := bind_eq_some_iff.mp known
  obtain ⟨truth,member,known⟩ := bind_eq_some_iff.mp known
  obtain rfl := some.inj known
  have choices := gathered_follow _ _ (all_follow floats row expressions rest) cells gathered
  rw [evaluate,first _ own]
  cases cell with
  | none =>
    cases expressions with
    | nil =>
      rw [lopsided,own] at straight
      cases straight
    | cons expression expressions =>
      have asked : cells ≠ [] := by
        intro empty
        subst empty
        rw [standardAll,mapM_cons] at gathered
        obtain ⟨cell,-,gathered⟩ := bind_eq_some_iff.mp gathered
        obtain ⟨others,-,gathered⟩ := bind_eq_some_iff.mp gathered
        cases gathered
      obtain rfl := membership_null cells truth asked member
      rfl
  | some datum =>
    obtain rfl := membership_value floats datum cells truth member
    change ((evaluateAll floats row expressions).mapM id).bind _ = _
    rw [choices]
    change (if _ then _ else if _ then _ else _) = _
    split
    · rfl
    · split <;> rfl

theorem default_follows (default : Option RowExpression) (agree : ∀ expression ∈ default, Agrees floats row expression) :
    Follows (standardDefault floats row default) (evaluateDefault floats row default) := by
  cases default with
  | none => exact fun value known => known
  | some default => exact agree default rfl

theorem case_agrees (this : Option RowExpression) (ifs : List (RowExpression × RowExpression)) (default : Option RowExpression)
    (first : ∀ expression ∈ this, Agrees floats row expression)
    (branches : ∀ branch ∈ ifs, Agrees floats row branch.1 ∧ Agrees floats row branch.2)
    (last : ∀ expression ∈ default, Agrees floats row expression) : Agrees floats row (.case this ifs default) := by
  have each := ifs_follow floats row ifs branches
  have otherwise := default_follows floats row default last
  cases this with
  | none =>
    refine firstBranch_follows _ _ (fun cell taken asked => ?_) _ _ each _ _ otherwise
    obtain ⟨truth,read,rfl⟩ := map_eq_some_iff.mp asked
    obtain rfl := read_eq cell truth read
    rcases truth with _ | _ | _ <;> rfl
  | some this =>
    intro value known
    obtain ⟨base,own,known⟩ := bind_eq_some_iff.mp known
    rw [evaluate,first this rfl base own]
    refine firstBranch_follows _ _ (fun cell taken asked => ?_) _ _ each _ _ otherwise value known
    obtain ⟨truth,compared,rfl⟩ := map_eq_some_iff.mp asked
    cases base with
    | none =>
      obtain rfl := comparison_null .eq none cell truth (.inl rfl) compared
      rfl
    | some base =>
      cases cell with
      | none =>
        obtain rfl := comparison_null .eq (some base) none truth (.inr rfl) compared
        rfl
      | some cell =>
        rw [equality_symm] at compared
        obtain rfl := equality_values floats cell base truth compared
        simp

section
variable (expression : RowExpression) (agree : ∀ inner ∈ expression.children, Agrees floats row inner)
include agree

theorem agrees_of_children (straight : lopsided floats row expression = false) : Agrees floats row expression := by
  cases expression with
  | column table name => exact fun value known => known
  | null => exact fun value known => known
  | boolean value => exact fun value known => known
  | literal text isString => exact fun value known => known
  | paren this => exact agree this (mem_singleton.mpr rfl)
  | not this =>
    have first := agree this (mem_singleton.mpr rfl)
    intro value known
    obtain ⟨cell,own,known⟩ := bind_eq_some_iff.mp known
    obtain ⟨truth,read,known⟩ := bind_eq_some_iff.mp known
    obtain rfl := some.inj known
    obtain rfl := read_eq cell truth read
    rw [evaluate,first _ own]
    rcases truth with _ | _ | _ <;> rfl
  | comparison operation this expression =>
    exact comparison_agrees floats row operation this expression (agree this (by simp [children])) (agree expression (by simp [children]))
  | and this expression =>
    exact (connective_agrees floats row this expression (agree this (by simp [children])) (agree expression (by simp [children]))).1
  | or this expression =>
    exact (connective_agrees floats row this expression (agree this (by simp [children])) (agree expression (by simp [children]))).2
  | isNull this =>
    intro value known
    obtain ⟨cell,own,known⟩ := bind_eq_some_iff.mp known
    rw [evaluate,agree this (mem_singleton.mpr rfl) cell own]
    exact known
  | between this low high =>
    exact between_agrees floats row this low high (agree this (by simp [children])) (agree low (by simp [children]))
      (agree high (by simp [children])) straight
  | isIn this expressions =>
    exact isIn_agrees floats row this expressions (agree this mem_cons_self) (fun inner member => agree inner (mem_cons_of_mem _ member))
      straight
  | coalesce this expressions =>
    refine firstKnown_follows _ _ (List.Forall₂.cons (agree this mem_cons_self) ?_)
    exact all_follow floats row expressions (fun inner member => agree inner (mem_cons_of_mem _ member))
  | case this ifs default =>
    refine case_agrees floats row this ifs default (fun inner member => agree inner ?_) (fun branch member => ⟨agree _ ?_,agree _ ?_⟩)
      (fun inner member => agree inner ?_)
    · exact mem_append_left _ (mem_append_left _ (mem_toList.mpr member))
    · exact mem_append_left _ (mem_append_right _ (mem_flatMap.mpr ⟨branch,member,mem_cons_self⟩))
    · exact mem_append_left _ (mem_append_right _ (mem_flatMap.mpr ⟨branch,member,mem_cons_of_mem _ mem_cons_self⟩))
    · exact mem_append_right _ (mem_toList.mpr member)

theorem lopsided_differs (skewed : lopsided floats row expression = true) : ¬ Agrees floats row expression := by
  intro agrees
  unfold lopsided at skewed
  split at skewed
  next this low high =>
    have first := agree this (by simp [children])
    have second := agree low (by simp [children])
    have third := agree high (by simp [children])
    split at skewed
    next value most own lower upper =>
      have refuted := of_decide_eq_true skewed
      have null := between_null floats row this low high _ _ _ (first _ own) (second _ lower) (third _ upper) (.inr (.inl rfl))
      have false : standard floats row (.between this low high) = some (some (.boolean false)) := by
        rw [standard,own,lower,upper]
        change (Truth.comparison .lte (some value) (some most)).bind _ = _
        rw [refuted]
        rfl
      cases (agrees _ false).symm.trans null
    next value least own lower upper =>
      have refuted := of_decide_eq_true skewed
      have null := between_null floats row this low high _ _ _ (first _ own) (second _ lower) (third _ upper) (.inr (.inr rfl))
      have false : standard floats row (.between this low high) = some (some (.boolean false)) := by
        rw [standard,own,lower,upper]
        change (Truth.comparison .lte (some least) (some value)).bind _ = _
        rw [refuted]
        rfl
      cases (agrees _ false).symm.trans null
    next => cases skewed
  next this =>
    split at skewed
    next own =>
      have false : standard floats row (.isIn this []) = some (some (.boolean false)) := by
        rw [standard,own]
        rfl
      have computed := agrees _ false
      rw [evaluate,agree this mem_cons_self _ own] at computed
      cases computed
    next => cases skewed
  next => cases skewed

end

theorem Within.trans (inner middle outer : RowExpression) (within : Within inner middle) (within' : Within middle outer) : Within inner outer := by
  induction within' with
  | self => exact within
  | child between outer nested member ih => exact .child inner between outer ih member

theorem agrees_of_straight (expression : RowExpression) (straight : ∀ inner, Within inner expression → lopsided floats row inner = false) :
    Agrees floats row expression := by
  have among (inner : RowExpression) (member : inner ∈ expression.children) : Agrees floats row inner :=
    agrees_of_straight inner (fun deeper within => straight deeper (.child deeper inner expression within member))
  exact agrees_of_children floats row expression among (straight expression (.self expression))
termination_by sizeOf expression
decreasing_by exact sizeOf_children expression inner member

/-- `_FilterRow` -/
def kept (expression : RowExpression) : Option Bool := (evaluate floats row expression).map (fun value => value matches some (.boolean true))

/-- The code gives an expression and all within it their standard values if and only if
no BETWEEN in it has one bound NULL and is refuted by the other one, and no empty list is
asked for NULL; and WHERE keeps a row of such an expression where its value is TRUE. -/
theorem evaluates_standard (expression : RowExpression) :
    ((∀ inner, Within inner expression → ∀ value, standard floats row inner = some value → evaluate floats row inner = some value) ↔
      ∀ inner, Within inner expression → lopsided floats row inner = false) ∧
    ((∀ inner, Within inner expression → lopsided floats row inner = false) → ∀ value, standard floats row expression = some value →
      evaluate floats row expression = some value ∧ kept floats row expression = some (value matches some (.boolean true))) := by
  refine ⟨⟨fun agree inner within => ?_,fun straight inner within => ?_⟩,fun straight value known => ?_⟩
  · have below (deeper : RowExpression) (member : deeper ∈ inner.children) : Agrees floats row deeper :=
      agree deeper (.trans _ _ _ (.child deeper deeper inner (.self deeper) member) within)
    exact Bool.eq_false_iff.mpr (fun skewed => lopsided_differs floats row inner below skewed (agree inner within))
  · exact agrees_of_straight floats row inner (fun deeper nested => straight deeper (nested.trans _ _ _ within))
  · have computed := agrees_of_straight floats row expression straight value known
    refine ⟨computed,?_⟩
    unfold kept
    rw [computed]
    rfl

end values

section lopsided_row

/-- `NOT x BETWEEN low AND high` -/
def outside : RowExpression := .not (.between (.column "" "x") (.column "" "low") (.column "" "high"))

def unbounded : Fields ℚ := Dict.ofList [("x",some (.integer 5)),("low",none),("high",some (.integer 3))]

/-- It is TRUE of 5 and a range up to 3, but the code says NULL and drops the row. -/
theorem unbounded_dropped : standard exactFloats unbounded outside = some (some (.boolean true)) ∧
    evaluate exactFloats unbounded outside = some none ∧ kept exactFloats unbounded outside = some false := by
  refine ⟨?_,?_,?_⟩ <;> decide +kernel

end lopsided_row

end RowExpression
end Klein.Sql
