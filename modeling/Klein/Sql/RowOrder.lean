import Klein.StableSort
import Klein.Sql.Aggregates

/-! ORDER BY over rows: `compare_non_null_values` (`runtime/operator/sql_value_semantics.py`)
on every kind of value, `_compare_values` and `_compare` of the streaming Top-N
(`runtime/operator/sql_top_n_operator.py`), and the rows that they order totally. -/
namespace Klein.Sql
open Fallible Option StableSort

/-- What `<` of two values looks at. -/
inductive Comparand (ζ : Type) where
  | number (value : Real)
  | text (value : String)
  | bytes (value : Bytes)
  | naive (clock : Int)
  | aware (clock : Int) (fold : Bool) (zone : ζ)

/-- `<`, unless it raises. Datetimes of one zone object are compared by their clocks. -/
def Comparand.below {ζ : Type} [DecidableEq ζ] (zones : Zones ζ) : Comparand ζ → Comparand ζ → Option Bool
  | .number left,.number right => some (left.less right)
  | .text left,.text right => some (left < right)
  | .bytes left,.bytes right => some (left < right)
  | .naive left,.naive right => some (left < right)
  | .aware clock fold zone,.aware clock' fold' zone' =>
    if zone = zone' ∧ zones.interned zone then some (clock < clock')
    else some (zones.instant clock fold zone < zones.instant clock' fold' zone')
  | _,_ => none

namespace Value
variable {ζ : Type}

def comparand : Value ζ → Option (Comparand ζ)
  | .null => none
  | .boolean value => some (.number (.finite (if value then 1 else 0)))
  | .integer value => some (.number (.finite value))
  | .float value => some (.number value)
  | .decimal value => some (.number value)
  | .fraction value => some (.number (.finite value))
  | .text value => some (.text value)
  | .bytes value => some (.bytes value)
  | .naive clock _ => some (.naive clock)
  | .aware clock fold zone => some (.aware clock fold zone)

/-- `type(value).__name__` -/
def typeName : Value ζ → String
  | .null => "NoneType"
  | .boolean _ => "bool"
  | .integer _ => "int"
  | .float _ => "float"
  | .decimal _ => "decimal.Decimal"
  | .fraction _ => "Fraction"
  | .text _ => "str"
  | .bytes _ => "bytes"
  | .naive .. | .aware .. => "datetime.datetime"

/-- The TypeError of `left > right`. -/
def unorderable (left right : Value ζ) : String :=
  match left,right with
  | .naive ..,.aware .. | .aware ..,.naive .. => "can't compare offset-naive and offset-aware datetimes"
  | _,_ => "'>' not supported between instances of '" ++ left.typeName ++ "' and '" ++ right.typeName ++ "'"

variable [DecidableEq ζ] (zones : Zones ζ)

def below (left right : Value ζ) : Option Bool := do
  let left ← left.comparand
  let right ← right.comparand
  left.below zones right

/-- `compare_non_null_values` -/
def compareNonNull (left right : Value ζ) : Except String Int :=
  if left.IsNaN ∨ right.IsNaN then
    .ok (if left.IsNaN ∧ right.IsNaN then 0 else if left.IsNaN then 1 else -1)
  else
    match right.below zones left,left.below zones right with
    | some above,some below => .ok (if above then 1 else if below then -1 else 0)
    | _,_ => .error (unorderable left right)

/-- `_compare_values` -/
def compareValues (nullsFirst : Bool) (left right : Value ζ) : Except String Int :=
  if left = .null ∧ right = .null then .ok 0
  else if left = .null then .ok (if nullsFirst then -1 else 1)
  else if right = .null then .ok (if nullsFirst then 1 else -1)
  else compareNonNull zones left right

def Comparable (left right : Value ζ) : Prop :=
  left = .null ∨ right = .null ∨ left.IsNaN ∨ right.IsNaN ∨ (left.below zones right).isSome = true

instance (left right : Value ζ) : Decidable (Comparable zones left right) := by
  unfold Comparable
  infer_instance

def IsAware : Value ζ → Bool
  | .aware .. => true
  | _ => false

/-- Values that can be compared, the aware datetimes among them without a cycle: one zone
orders them by the clock, two by the instant. -/
structure Sortable (values : List (Value ζ)) : Prop where
  comparable : ∀ left ∈ values, ∀ right ∈ values, Comparable zones left right
  acyclic : ∀ left ∈ values, ∀ middle ∈ values, ∀ right ∈ values, left.IsAware → middle.IsAware → right.IsAware →
    middle.below zones left = some false → right.below zones middle = some false → right.below zones left = some false

instance (values : List (Value ζ)) : Decidable (Sortable zones values) :=
  decidable_of_iff ((∀ left ∈ values, ∀ right ∈ values, Comparable zones left right) ∧
    ∀ left ∈ values, ∀ middle ∈ values, ∀ right ∈ values, left.IsAware → middle.IsAware → right.IsAware →
      middle.below zones left = some false → right.below zones middle = some false → right.below zones left = some false)
    ⟨fun both => ⟨both.1,both.2⟩,fun sortable => ⟨sortable.comparable,sortable.acyclic⟩⟩

def Upto (left right : Value ζ) : Prop := right.IsNaN ∨ ¬ left.IsNaN ∧ right.below zones left = some false

end Value

namespace Comparand
variable {ζ : Type} [DecidableEq ζ] {zones : Zones ζ} {left middle right : Comparand ζ}

def IsAware : Comparand ζ → Bool
  | .aware .. => true
  | _ => false

theorem below_asymm (number : left ≠ .number .nan) (number' : right ≠ .number .nan)
    (answers : (left.below zones right).isSome = true) :
    ∃ one other, left.below zones right = some one ∧ right.below zones left = some other ∧ ¬ (one = true ∧ other = true) := by
  have strict {α : Type} [LinearOrder α] (left right : α) [Decidable (left < right)] [Decidable (right < left)] :
      ¬ (decide (left < right) = true ∧ decide (right < left) = true) := by
    rw [decide_eq_true_eq,decide_eq_true_eq]
    exact fun both => lt_asymm both.1 both.2
  cases left with
  | number left =>
    cases right with
    | number right =>
      have known : left ≠ .nan := fun nan => number (congrArg _ nan)
      have known' : right ≠ .nan := fun nan => number' (congrArg _ nan)
      refine ⟨_,_,rfl,rfl,fun both => ?_⟩
      exact lt_asymm ((left.less_iff right known known').mp both.1) ((right.less_iff left known' known).mp both.2)
    | _ => cases answers
  | text left =>
    cases right with
    | text right => exact ⟨_,_,rfl,rfl,strict left right⟩
    | _ => cases answers
  | bytes left =>
    cases right with
    | bytes right => exact ⟨_,_,rfl,rfl,strict left right⟩
    | _ => cases answers
  | naive left =>
    cases right with
    | naive right => exact ⟨_,_,rfl,rfl,strict left right⟩
    | _ => cases answers
  | aware clock fold zone =>
    cases right with
    | aware clock' fold' zone' =>
      by_cases one : zone = zone' ∧ zones.interned zone = true
      · have other : zone' = zone ∧ zones.interned zone' = true := ⟨one.1.symm,one.1 ▸ one.2⟩
        exact ⟨_,_,if_pos one,if_pos other,strict clock clock'⟩
      · have other : ¬ (zone' = zone ∧ zones.interned zone' = true) := fun other => one ⟨other.1.symm,other.1 ▸ other.2⟩
        exact ⟨_,_,if_neg one,if_neg other,strict _ _⟩
    | _ => cases answers

theorem below_trans (number : left ≠ .number .nan) (number' : middle ≠ .number .nan) (number'' : right ≠ .number .nan)
    (plain : ¬ (left.IsAware ∧ middle.IsAware ∧ right.IsAware)) (one : middle.below zones left = some false)
    (other : right.below zones middle = some false) : right.below zones left = some false := by
  have through {α : Type} [LinearOrder α] (left middle right : α) [Decidable (middle < left)] [Decidable (right < middle)]
      [Decidable (right < left)] (one : some (decide (middle < left)) = some false)
      (other : some (decide (right < middle)) = some false) : some (decide (right < left)) = some false := by
    simp only [Option.some.injEq,decide_eq_false_iff_not,not_lt] at one other ⊢
    exact le_trans one other
  cases left with
  | number left =>
    cases middle with
    | number middle =>
      cases right with
      | number right =>
        have known : left ≠ .nan := fun nan => number (congrArg _ nan)
        have known' : middle ≠ .nan := fun nan => number' (congrArg _ nan)
        have known'' : right ≠ .nan := fun nan => number'' (congrArg _ nan)
        have meaning (one other : Real) (first : one ≠ .nan) (second : other ≠ .nan) : one.less other = decide (one < other) := by
          rw [Bool.eq_iff_iff,decide_eq_true_eq]
          exact one.less_iff other first second
        change some (right.less left) = some false
        change some (middle.less left) = some false at one
        change some (right.less middle) = some false at other
        rw [meaning _ _ known' known] at one
        rw [meaning _ _ known'' known'] at other
        rw [meaning _ _ known'' known]
        exact through left middle right one other
      | _ => cases other
    | _ => cases one
  | text left =>
    cases middle with
    | text middle =>
      cases right with
      | text right => exact through left middle right one other
      | _ => cases other
    | _ => cases one
  | bytes left =>
    cases middle with
    | bytes middle =>
      cases right with
      | bytes right => exact through left middle right one other
      | _ => cases other
    | _ => cases one
  | naive left =>
    cases middle with
    | naive middle =>
      cases right with
      | naive right => exact through left middle right one other
      | _ => cases other
    | _ => cases one
  | aware =>
    cases middle with
    | aware =>
      cases right with
      | aware => exact absurd ⟨rfl,rfl,rfl⟩ plain
      | _ => cases other
    | _ => cases one

end Comparand

namespace Value
variable {ζ : Type} {left middle right : Value ζ}

theorem comparand_some (known : left ≠ .null) : ∃ comparand, left.comparand = some comparand := by
  cases left with
  | null => exact absurd rfl known
  | _ => exact ⟨_,rfl⟩

theorem comparand_number (comparand : Comparand ζ) (held : left.comparand = some comparand) (number : ¬ left.IsNaN) :
    comparand ≠ .number .nan := by
  intro nan
  subst nan
  cases left with
  | float value =>
    obtain rfl := Comparand.number.inj (some.inj held)
    exact number trivial
  | decimal value =>
    obtain rfl := Comparand.number.inj (some.inj held)
    exact number trivial
  | _ => cases held

theorem comparand_aware (comparand : Comparand ζ) (held : left.comparand = some comparand) : left.IsAware = comparand.IsAware := by
  cases left with
  | null => cases held
  | _ =>
    obtain rfl := some.inj held
    rfl

variable [DecidableEq ζ] {zones : Zones ζ}

theorem below_eq (comparand comparand' : Comparand ζ) (held : left.comparand = some comparand)
    (held' : right.comparand = some comparand') : left.below zones right = comparand.below zones comparand' := by
  unfold below
  rw [held,held']
  rfl

theorem Sortable.trans (values : List (Value ζ)) (sortable : Sortable zones values) (inside : left ∈ values)
    (inside' : middle ∈ values) (inside'' : right ∈ values) (known : left ≠ .null) (known' : middle ≠ .null)
    (known'' : right ≠ .null) (one : Upto zones left middle) (other : Upto zones middle right) : Upto zones left right := by
  obtain nan | ⟨number',below'⟩ := other
  · exact .inl nan
  obtain nan | ⟨number,below⟩ := one
  · exact absurd nan number'
  by_cases nan'' : right.IsNaN
  · exact .inl nan''
  refine .inr ⟨number,?_⟩
  by_cases aware : left.IsAware ∧ middle.IsAware ∧ right.IsAware
  · exact sortable.acyclic left inside middle inside' right inside'' aware.1 aware.2.1 aware.2.2 below below'
  · obtain ⟨first,held⟩ := comparand_some known
    obtain ⟨second,held'⟩ := comparand_some known'
    obtain ⟨third,held''⟩ := comparand_some known''
    rw [below_eq _ _ held' held] at below
    rw [below_eq _ _ held'' held'] at below'
    rw [comparand_aware _ held,comparand_aware _ held',comparand_aware _ held''] at aware
    rw [below_eq _ _ held'' held]
    exact Comparand.below_trans (comparand_number _ held number) (comparand_number _ held' number')
      (comparand_number _ held'' nan'') aware below below'

theorem compareNonNull_spec (known : left ≠ .null) (known' : right ≠ .null) (comparable : Comparable zones left right) :
    ∃ sign : Int, compareNonNull zones left right = .ok sign ∧ compareNonNull zones right left = .ok (-sign) ∧
      (sign ≤ 0 ↔ Upto zones left right) := by
  unfold compareNonNull Upto
  by_cases nan : left.IsNaN
  · by_cases nan' : right.IsNaN
    · exact ⟨0,by simp [nan,nan'],by simp [nan,nan'],by simp [nan']⟩
    · exact ⟨1,by simp [nan,nan'],by simp [nan,nan'],by simp [nan,nan']⟩
  · by_cases nan' : right.IsNaN
    · exact ⟨-1,by simp [nan,nan'],by simp [nan,nan'],by simp [nan']⟩
    · obtain null | null | nan'' | nan'' | answers := comparable
      · exact absurd null known
      · exact absurd null known'
      · exact absurd nan'' nan
      · exact absurd nan'' nan'
      obtain ⟨first,held⟩ := comparand_some known
      obtain ⟨second,held'⟩ := comparand_some known'
      rw [below_eq _ _ held held'] at answers
      obtain ⟨below,above,one,other,asymm⟩ := Comparand.below_asymm (comparand_number _ held nan)
        (comparand_number _ held' nan') answers
      rw [← below_eq _ _ held held'] at one
      rw [← below_eq _ _ held' held] at other
      have neither : ¬ (left.IsNaN ∨ right.IsNaN) := not_or_intro nan nan'
      have neither' : ¬ (right.IsNaN ∨ left.IsNaN) := not_or_intro nan' nan
      refine ⟨if above then 1 else if below then -1 else 0,?_,?_,?_⟩
      · rw [if_neg neither,one,other]
      · rw [if_neg neither',one,other]
        cases above with
        | true =>
          cases below with
          | true => exact absurd ⟨rfl,rfl⟩ asymm
          | false => rfl
        | false => cases below <;> rfl
      · rw [other]
        cases above with
        | true => simp [nan']
        | false => cases below <;> simp [nan]

end Value

structure Ordered (ρ ζ : Type) where
  this : ρ → Except String (Value ζ)
  desc : Bool
  nullsFirst : Bool

section
variable {ρ ζ : Type} [DecidableEq ζ] (zones : Zones ζ)

namespace Ordered
variable (ordered : Ordered ρ ζ)

def direct (left right : Value ζ) : Except String Int :=
  (Value.compareValues zones ordered.nullsFirst left right).map (fun comparison =>
    if left = .null ∨ right = .null then comparison else if ordered.desc then -comparison else comparison)

/-- One turn of the loop of `_compare`. -/
def compare (left right : ρ) : Except String Int := do
  let leftValue ← ordered.this left
  let rightValue ← ordered.this right
  ordered.direct zones leftValue rightValue

structure Sorts (rows : List ρ) : Prop where
  defined : ∀ row ∈ rows, (ordered.this row).isOk = true
  sortable : Value.Sortable zones (rows.filterMap (fun row => (ordered.this row).toOption))

instance (rows : List ρ) : Decidable (ordered.Sorts zones rows) :=
  decidable_of_iff ((∀ row ∈ rows, (ordered.this row).isOk = true) ∧
    Value.Sortable zones (rows.filterMap (fun row => (ordered.this row).toOption)))
    ⟨fun both => ⟨both.1,both.2⟩,fun sorts => ⟨sorts.defined,sorts.sortable⟩⟩

def Front (left right : Value ζ) : Prop :=
  if left = .null then right = .null ∨ ordered.nullsFirst = true
  else if right = .null then ordered.nullsFirst = false
  else if ordered.desc then Value.Upto zones right left
  else Value.Upto zones left right

end Ordered

/-- `_compare` -/
def compareRows : List (Ordered ρ ζ) → ρ → ρ → Except String Int
  | [] => fun _ _ => .ok 0
  | ordered::order => andThen (ordered.compare zones) (compareRows order)

def SortsBy : List (Ordered ρ ζ) → List ρ → Prop
  | [],_ => True
  | ordered::order,rows =>
    ordered.Sorts zones rows ∧ ∀ row ∈ rows, SortsBy order (rows.filter (ties (ordered.compare zones) row))

instance decidableSortsBy : ∀ (order : List (Ordered ρ ζ)) (rows : List ρ), Decidable (SortsBy zones order rows)
  | [],_ => .isTrue trivial
  | ordered::order,rows =>
    have := decidableSortsBy order
    inferInstanceAs (Decidable (ordered.Sorts zones rows ∧ ∀ row ∈ rows, SortsBy zones order (rows.filter (ties (ordered.compare zones) row))))

variable {zones}

namespace Ordered
variable {ordered : Ordered ρ ζ}

theorem direct_spec (left right : Value ζ) (comparable : Value.Comparable zones left right)
    (comparable' : Value.Comparable zones right left) :
    ∃ sign : Int, ordered.direct zones left right = .ok sign ∧ ordered.direct zones right left = .ok (-sign) ∧
      (sign ≤ 0 ↔ ordered.Front zones left right) := by
  unfold direct Value.compareValues Front
  by_cases null : left = .null
  · subst null
    by_cases null' : right = .null
    · subst null'
      exact ⟨0,rfl,rfl,by simp⟩
    · cases first : ordered.nullsFirst with
      | true => exact ⟨-1,by simp [null',Except.map],by simp [null',Except.map],by simp⟩
      | false => exact ⟨1,by simp [null',Except.map],by simp [null',Except.map],by simp [null']⟩
  · by_cases null' : right = .null
    · subst null'
      cases first : ordered.nullsFirst with
      | true => exact ⟨1,by simp [null,Except.map],by simp [null,Except.map],by simp [null]⟩
      | false => exact ⟨-1,by simp [null,Except.map],by simp [null,Except.map],by simp [null]⟩
    · obtain ⟨sign,one,other,meaning⟩ := Value.compareNonNull_spec null null' comparable
      obtain ⟨sign',one',other',meaning'⟩ := Value.compareNonNull_spec null' null comparable'
      obtain rfl : sign' = -sign := Except.ok.inj (one'.symm.trans other)
      cases down : ordered.desc with
      | true => exact ⟨-sign,by simp [null,null',one,Except.map],by simp [null,null',other,Except.map],by simp [null,null',meaning']⟩
      | false => exact ⟨sign,by simp [null,null',one,Except.map],by simp [null,null',other,Except.map],by simp [null,null',meaning]⟩

theorem front_trans (values : List (Value ζ)) (sortable : Value.Sortable zones values) (left middle right : Value ζ)
    (inside : left ∈ values) (inside' : middle ∈ values) (inside'' : right ∈ values)
    (one : ordered.Front zones left middle) (other : ordered.Front zones middle right) : ordered.Front zones left right := by
  unfold Front at one other ⊢
  by_cases null : left = .null
  · by_cases null' : middle = .null
    · simpa [null,null'] using other
    · rw [if_pos null] at one ⊢
      exact .inr (one.resolve_left null')
  · rw [if_neg null] at one ⊢
    by_cases null' : middle = .null
    · rw [if_pos null'] at one other
      have last : right = .null := other.resolve_right (by simp [one])
      rw [if_pos last]
      exact one
    · rw [if_neg null'] at one other
      by_cases null'' : right = .null
      · rw [if_pos null''] at other ⊢
        exact other
      · rw [if_neg null''] at other ⊢
        cases down : ordered.desc with
        | true =>
          rw [down,if_pos rfl] at one other
          exact sortable.trans values inside'' inside' inside null'' null' null other one
        | false =>
          rw [down,if_neg (by decide)] at one other
          exact sortable.trans values inside inside' inside'' null null' null'' one other

theorem Sorts.compares (rows : List ρ) (sorts : ordered.Sorts zones rows) : Compares (ordered.compare zones) rows := by
  have value (row : ρ) (inside : row ∈ rows) : ∃ value, ordered.this row = .ok value ∧
      value ∈ rows.filterMap (fun row => (ordered.this row).toOption) := by
    cases done : ordered.this row with
    | error raised =>
      have defined := sorts.defined row inside
      rw [done] at defined
      cases defined
    | ok value =>
      refine ⟨value,rfl,List.mem_filterMap.mpr ⟨row,inside,?_⟩⟩
      rw [done]
      rfl
  have compared (left right : ρ) (one other : Value ζ) (first : ordered.this left = .ok one)
      (second : ordered.this right = .ok other) : ordered.compare zones left right = ordered.direct zones one other := by
    unfold compare
    rw [ok_bind first,ok_bind second]
  have front (left right : ρ) (one other : Value ζ) (first : ordered.this left = .ok one)
      (second : ordered.this right = .ok other) (inside : one ∈ rows.filterMap (fun row => (ordered.this row).toOption))
      (inside' : other ∈ rows.filterMap (fun row => (ordered.this row).toOption)) :
      NotGreater (ordered.compare zones) left right ↔ ordered.Front zones one other := by
    obtain ⟨sign,forth,-,meaning⟩ := @direct_spec _ _ _ _ ordered one other
      (sorts.sortable.comparable one inside other inside') (sorts.sortable.comparable other inside' one inside)
    rw [← compared left right one other first second] at forth
    rw [notGreater_iff forth,meaning]
  constructor
  · intro left inside right inside'
    obtain ⟨one,first,member⟩ := value left inside
    obtain ⟨other,second,member'⟩ := value right inside'
    obtain ⟨sign,forth,back,-⟩ := @direct_spec _ _ _ _ ordered one other
      (sorts.sortable.comparable one member other member') (sorts.sortable.comparable other member' one member)
    rw [compared left right one other first second,compared right left other one second first]
    exact ⟨sign,forth,back⟩
  · intro left inside middle inside' right inside'' lower upper
    obtain ⟨one,first,member⟩ := value left inside
    obtain ⟨other,second,member'⟩ := value middle inside'
    obtain ⟨last,third,member''⟩ := value right inside''
    rw [front left middle one other first second member member'] at lower
    rw [front middle right other last second third member' member''] at upper
    rw [front left right one last first third member member'']
    exact front_trans _ sorts.sortable one other last member member' member'' lower upper

end Ordered

theorem SortsBy.compares (order : List (Ordered ρ ζ)) (rows : List ρ) (sorts : SortsBy zones order rows) :
    Compares (compareRows zones order) rows := by
  induction order generalizing rows with
  | nil =>
    constructor
    · intro left _ right _
      exact ⟨0,rfl,rfl⟩
    · intro left _ middle _ right _ _ _
      exact (@notGreater_iff _ _ _ _ _ 0 rfl).mpr (Int.le_refl 0)
  | cons ordered order ih => exact sorts.1.compares.andThen (fun row inside => ih _ (sorts.2 row inside))

end
end Klein.Sql
