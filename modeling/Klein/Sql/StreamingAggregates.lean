import Klein.Runs
import Klein.Sql.Recomputation

/-! One group of `SQLAggregateOperator` (`runtime/operator/sql_aggregate_operator.py`):
the rows that count, the accumulators of its aggregates and the result row. A row is
known by its key under `state_value_key`. Beside it stands the list of the rows that
were added and not yet taken away. -/
namespace Klein.Sql
open Dict Fallible List Option

inductive Projection (ρ : Type) where
  | aggregate (name : String) (call : Aggregate ρ)
  | scalar (name : String) (sql : String)

def Projection.call {ρ : Type} : Projection ρ → Option (Aggregate ρ)
  | .aggregate _ call => some call
  | .scalar _ _ => none

structure SQLAggregateOperator (ρ κ : Type) where
  groupExpressions : List String
  projections : List (Projection ρ)
  retractable : Bool
  rowKey : ρ → κ

structure Accumulator (κ : Type) where
  rowCount : Int
  aggregates : List Item
  rowCounts : Option (Dict κ Int)

inductive Cell (γ β : Type) where
  | group (value : γ)
  | aggregate (value : β)

def Cell.map {γ γ' β β' : Type} (regroup : γ → γ') (change : β → β') : Cell γ β → Cell γ' β'
  | .group value => .group (regroup value)
  | .aggregate value => .aggregate (change value)

namespace SQLAggregateOperator
variable {ρ κ γ β : Type} (o : SQLAggregateOperator ρ κ)

def aggregateExpressions : List (Aggregate ρ) := o.projections.filterMap Projection.call

/-- `_empty_accumulator` -/
def emptyAccumulator : Accumulator κ :=
  ⟨0,o.aggregateExpressions.map (fun _ => Item.empty),if o.retractable then some ∅ else none⟩

/-- The loop of `_apply_row` over `zip(…, strict=True)`. -/
def updateAll (row : ρ) (addition : Bool) : List (Aggregate ρ) → List Item → Except String (List Item)
  | [],[] => .ok []
  | aggregate::aggregates,item::items => do
    let next ← aggregate.update item row addition
    let others ← updateAll row addition aggregates items
    return next::others
  | _,_ => .error "zip() arguments differ in length"

variable [DecidableEq κ]

/-- `_accept_row`: whether the row counts, and the counts after it. -/
def acceptRow (accumulator : Accumulator κ) (row : ρ) (addition : Bool) : Except String (Bool × Accumulator κ) :=
  match accumulator.rowCounts with
  | none =>
    if addition then .ok (true,accumulator)
    else .error "received a retraction from a stream declared as insert-only"
  | some rowCounts =>
    let existing := (rowCounts.get? (o.rowKey row)).getD 0
    if ¬ addition ∧ existing = 0 then .ok (false,accumulator)
    else
      let counts :=
        if addition then rowCounts.set (o.rowKey row) (existing + 1)
        else if existing = 1 then rowCounts.erase (o.rowKey row)
        else rowCounts.set (o.rowKey row) (existing - 1)
      .ok (true,{accumulator with rowCounts := some counts})

/-- `_apply_row` -/
def applyRow (accumulator : Accumulator κ) (row : ρ) (addition : Bool) : Except String (Bool × Accumulator κ) := do
  let (accepted,accumulator) ← o.acceptRow accumulator row addition
  if accepted then
    let aggregates ← updateAll row addition o.aggregateExpressions accumulator.aggregates
    return (true,{
      accumulator with
      rowCount := accumulator.rowCount + Item.direction addition
      aggregates := aggregates})
  else return (false,accumulator)

/-- The loop of `_result` over the projections; each aggregate takes the next value. -/
def project (lookup : Dict String γ) : List (Projection ρ) → List β → Dict String (Cell γ β) → Except String (Dict String (Cell γ β))
  | [],_,result => .ok result
  | .aggregate name _::rest,values,result =>
    if result.contains name then .error ("Duplicate SQL output column " ++ name ++ "; add an explicit alias")
    else match values with
      | value::values => project lookup rest values (result.set name (.aggregate value))
      | [] => .error "list index out of range"
  | .scalar name sql::rest,values,result =>
    if result.contains name then .error ("Duplicate SQL output column " ++ name ++ "; add an explicit alias")
    else match lookup.get? sql with
      | some value => project lookup rest values (result.set name (.group value))
      | none => .error ("Non-aggregate projection " ++ sql ++ " must appear in GROUP BY")

/-- `_result` of the values of the aggregates, with the values of the group key. -/
def resultOf (empty : Prop) [Decidable empty] (values : List β) (key : List γ) : Except String (Option (Dict String (Cell γ β))) :=
  if empty ∧ o.groupExpressions ≠ [] then .ok none
  else (project (Dict.ofList (o.groupExpressions.zip key)) o.projections values ∅).map some

def result (accumulator : Accumulator κ) (key : List γ) : Except String (Option (Dict String (Cell γ (Option Number)))) :=
  o.resultOf (accumulator.rowCount = 0)
    (List.zipWith (fun aggregate item => Item.aggregateValue aggregate.kind item) o.aggregateExpressions accumulator.aggregates) key

end SQLAggregateOperator

namespace Aggregate
variable {ρ : Type}

def valueOf (aggregate : Aggregate ρ) (row : ρ) : Option Number := aggregate.argument.bind (fun argument => argument row)

def recomputed (aggregate : Aggregate ρ) (rows : Multiset ρ) : Option Real :=
  match aggregate.argument with
  | none => some (.finite (Multiset.card rows))
  | some argument => recompute aggregate.kind (rows.filterMap argument)

/-- SUM and AVG ask `math.isinf` of each value. -/
def Takes (aggregate : Aggregate ρ) (row : ρ) : Prop :=
  aggregate.kind = .sum ∨ aggregate.kind = .avg → ∀ value ∈ aggregate.valueOf row, value.Fits

def Holds (rows : Multiset ρ) (aggregate : Aggregate ρ) (item : Item) : Prop :=
  match aggregate.argument with
  | none => item.count = Multiset.card rows
  | some argument =>
    item.count = Multiset.card (rows.filterMap argument) ∧
      match aggregate.kind with
      | .count => True
      | .sum | .avg => Sums item (rows.filterMap argument)
      | .min => Extremes true item (rows.filterMap argument)
      | .max => Extremes false item (rows.filterMap argument)

variable {aggregate : Aggregate ρ} {item : Item} {rows : Multiset ρ}

theorem Holds.empty (aggregate : Aggregate ρ) : Holds 0 aggregate Item.empty := by
  unfold Holds
  split
  · rfl
  · refine ⟨rfl,?_⟩
    split
    · trivial
    · exact Sums.empty
    · exact Sums.empty
    · exact Extremes.empty
    · exact Extremes.empty

theorem updateExtreme_count (item : Item) (value : Number) (addition minimum : Bool) :
    (item.updateExtreme value addition minimum).count = item.count := by
  have replaced (item : Item) : (item.replaceExtreme minimum).count = item.count := by
    unfold Item.replaceExtreme
    split <;> rfl
  unfold Item.updateExtreme
  dsimp only
  cases addition with
  | true => cases Item.replaces minimum item.current value <;> rfl
  | false =>
    cases item.values.get? value.real with
    | none => rfl
    | some entry =>
      rw [if_neg (by decide)]
      dsimp only
      split
      · rfl
      · split
        · exact replaced _
        · rfl

theorem Holds.update (before after : Multiset ρ) (row : ρ) (addition : Bool) (holds : Holds before aggregate item)
    (takes : aggregate.Takes row) (changed : if addition then after = row ::ₘ before
      else ∃ other, before = other ::ₘ after ∧ aggregate.valueOf other = aggregate.valueOf row) :
    ∃ next, aggregate.update item row addition = .ok next ∧ Holds after aggregate next := by
  unfold Aggregate.update
  unfold Holds at holds
  cases called : aggregate.argument with
  | none =>
    rw [called] at holds
    have counts : aggregate.kind = .count := aggregate.required called
    refine ⟨{item with count := item.count + Item.direction addition},by simp [counts],?_⟩
    unfold Holds
    rw [called]
    dsimp only at holds ⊢
    cases addition with
    | true =>
      rw [if_pos rfl] at changed
      rw [changed,Multiset.card_cons,holds]
      simp [Item.direction]
    | false =>
      rw [if_neg (by decide)] at changed
      obtain ⟨other,rfl,-⟩ := changed
      rw [Multiset.card_cons] at holds
      rw [holds]
      simp [Item.direction]
  | some argument =>
    rw [called] at holds
    have valued (row : ρ) : aggregate.valueOf row = argument row := by simp [valueOf,called]
    dsimp only at holds ⊢
    obtain ⟨counted,fields⟩ := holds
    -- the argument of the row is the value that enters or leaves the multiset
    cases evaluated : argument row with
    | none =>
      refine ⟨item,rfl,?_⟩
      have same : after.filterMap argument = before.filterMap argument := by
        cases addition with
        | true =>
          rw [if_pos rfl] at changed
          rw [changed,Multiset.filterMap_cons_none _ _ evaluated]
        | false =>
          rw [if_neg (by decide)] at changed
          obtain ⟨other,rfl,equal⟩ := changed
          rw [valued,valued,evaluated] at equal
          rw [Multiset.filterMap_cons_none _ _ equal]
      unfold Holds
      rw [called]
      dsimp only
      rw [same]
      exact ⟨counted,fields⟩
    | some value =>
      have moved : if addition then after.filterMap argument = value ::ₘ before.filterMap argument
          else before.filterMap argument = value ::ₘ after.filterMap argument := by
        cases addition with
        | true =>
          rw [if_pos rfl] at changed ⊢
          rw [changed,Multiset.filterMap_cons_some _ _ _ evaluated]
        | false =>
          rw [if_neg (by decide)] at changed ⊢
          obtain ⟨other,rfl,equal⟩ := changed
          rw [valued,valued,evaluated] at equal
          rw [Multiset.filterMap_cons_some _ _ _ equal]
      have count : item.count + Item.direction addition = Multiset.card (after.filterMap argument) := by
        cases addition with
        | true =>
          rw [if_pos rfl] at moved
          rw [moved,Multiset.card_cons,counted]
          simp [Item.direction]
        | false =>
          rw [if_neg (by decide)] at moved
          rw [moved,Multiset.card_cons] at counted
          rw [counted]
          simp [Item.direction]
      have summed (sums : Sums item (before.filterMap argument)) (fits : value.Fits) :
          ∃ next, Item.updateSum {item with count := item.count + Item.direction addition} value addition = .ok next ∧
            Sums next (after.filterMap argument) ∧ next.count = Multiset.card (after.filterMap argument) := by
        have start : Sums {item with count := item.count + Item.direction addition} (before.filterMap argument) := {sums with}
        obtain ⟨next,taken,step⟩ := updateSum_step {item with count := item.count + Item.direction addition} value addition fits
        refine ⟨next,taken,?_,step.count.trans count⟩
        cases addition with
        | true =>
          rw [if_pos rfl] at moved
          rw [moved]
          exact start.add step
        | false =>
          rw [if_neg (by decide)] at moved
          rw [moved] at start
          exact start.remove step
      have ranged (minimum : Bool) (extremes : Extremes minimum item (before.filterMap argument)) :
          Extremes minimum (Item.updateExtreme {item with count := item.count + Item.direction addition} value addition minimum)
            (after.filterMap argument) := by
        have start : Extremes minimum {item with count := item.count + Item.direction addition} (before.filterMap argument) :=
          {extremes with}
        cases addition with
        | true =>
          rw [if_pos rfl] at moved
          rw [moved]
          exact start.add
        | false =>
          rw [if_neg (by decide)] at moved
          rw [moved] at start
          exact start.remove
      dsimp only
      unfold Holds
      rw [called]
      cases kind : aggregate.kind with
      | count => exact ⟨_,rfl,count,trivial⟩
      | sum | avg =>
        rw [kind] at fields
        obtain ⟨next,taken,sums,counted⟩ := summed fields (takes (by simp [kind]) value (by rw [valued]; exact evaluated))
        exact ⟨next,taken,counted,sums⟩
      | min =>
        rw [kind] at fields
        exact ⟨_,rfl,(updateExtreme_count _ _ _ _).trans count,ranged true fields⟩
      | max =>
        rw [kind] at fields
        exact ⟨_,rfl,(updateExtreme_count _ _ _ _).trans count,ranged false fields⟩

theorem Holds.value (holds : Holds rows aggregate item) :
    (Item.aggregateValue aggregate.kind item).map Number.real = aggregate.recomputed rows := by
  unfold Holds at holds
  unfold Aggregate.recomputed
  cases called : aggregate.argument with
  | none =>
    rw [called] at holds
    dsimp only at holds ⊢
    rw [aggregate.required called]
    simp [Item.aggregateValue,Number.real,holds]
  | some argument =>
    rw [called] at holds
    dsimp only at holds ⊢
    obtain ⟨counted,fields⟩ := holds
    have none_iff : item.count ≠ 0 ↔ rows.filterMap argument ≠ 0 := by
      rw [counted,← Multiset.card_pos]
      omega
    cases kind : aggregate.kind with
    | count => simp [Item.aggregateValue,recompute,Number.real,counted]
    | sum =>
      rw [kind] at fields
      unfold Item.aggregateValue recompute
      dsimp only
      by_cases none' : rows.filterMap argument = 0
      · rw [if_neg (fun some' => none_iff.mp some' none'),if_pos none']
        rfl
      · rw [if_pos (none_iff.mpr none'),if_neg none',fields.sumValue]
    | avg =>
      rw [kind] at fields
      unfold Item.aggregateValue recompute
      dsimp only
      by_cases none' : rows.filterMap argument = 0
      · rw [if_neg (fun some' => none_iff.mp some' none'),if_pos none']
        rfl
      · rw [if_pos (none_iff.mpr none'),if_neg none']
        obtain ⟨sum,found,same⟩ := map_eq_some_iff.mp fields.sumValue
        rw [found,← same,counted]
        apply congrArg some
        cases sum with
        | exact value => simp [Item.divide,Number.real,Real.divide]
        | float real => cases real <;> simp [Item.divide,Number.real,Real.divide]
    | min =>
      rw [kind] at fields
      exact fields.currentValue
    | max =>
      rw [kind] at fields
      exact fields.currentValue

end Aggregate

namespace SQLAggregateOperator
variable {ρ κ γ β : Type} (o : SQLAggregateOperator ρ κ)

def SameArguments (one other : ρ) : Prop := ∀ aggregate ∈ o.aggregateExpressions, aggregate.valueOf one = aggregate.valueOf other

instance (one other : ρ) : Decidable (o.SameArguments one other) := inferInstanceAs (Decidable (∀ _ ∈ _,_))

variable [DecidableEq κ]

/-- The rows that were added and not taken away: a retraction takes one row of its key,
one with the same arguments when there is one. -/
def changeRows (rows : List ρ) (addition : Bool) (row : ρ) : List ρ :=
  if addition then rows ++ [row]
  else if ∃ other ∈ rows, o.rowKey other = o.rowKey row ∧ o.SameArguments other row then
    rows.eraseP (fun other => o.rowKey other = o.rowKey row ∧ o.SameArguments other row)
  else rows.eraseP (fun other => o.rowKey other = o.rowKey row)

/-- What a step needs: the arguments of SUM and AVG are not too large for `math.isinf`, a
retraction of a row that is there repeats the arguments of one that is there, and a
stream that is declared as insert-only has no retractions. -/
structure Sound (rows : List ρ) (addition : Bool) (row : ρ) : Prop where
  takes : addition = true → ∀ aggregate ∈ o.aggregateExpressions, aggregate.Takes row
  repeats : addition = false → (∃ other ∈ rows, o.rowKey other = o.rowKey row) →
    ∃ other ∈ rows, o.rowKey other = o.rowKey row ∧ o.SameArguments other row
  declared : o.retractable = false → addition = true

structure Represents (accumulator : Accumulator κ) (rows : List ρ) : Prop where
  rowCount : accumulator.rowCount = rows.length
  aggregates : List.Forall₂ (Aggregate.Holds (rows : Multiset ρ)) o.aggregateExpressions accumulator.aggregates
  rowCounts : if o.retractable then
      ∃ counts, accumulator.rowCounts = some counts ∧
        ∀ key, (counts.get? key).getD 0 = (rows.countP (fun row => o.rowKey row = key) : Int)
    else accumulator.rowCounts = none
  takes : ∀ row ∈ rows, ∀ aggregate ∈ o.aggregateExpressions, aggregate.Takes row

theorem Represents.empty : o.Represents o.emptyAccumulator [] := by
  refine ⟨rfl,?_,?_,by simp⟩
  · unfold emptyAccumulator
    dsimp only
    induction o.aggregateExpressions with
    | nil => exact .nil
    | cons aggregate rest ih => exact .cons (Aggregate.Holds.empty aggregate) ih
  · unfold emptyAccumulator
    split
    · exact ⟨∅,rfl,fun _ => rfl⟩
    · rfl

omit [DecidableEq κ] in
theorem updateAll_holds (before after : Multiset ρ) (row : ρ) (addition : Bool) (aggregates : List (Aggregate ρ)) (items : List Item)
    (holds : List.Forall₂ (Aggregate.Holds before) aggregates items) (takes : ∀ aggregate ∈ aggregates, aggregate.Takes row)
    (changed : ∀ aggregate ∈ aggregates, if addition then after = row ::ₘ before
      else ∃ other, before = other ::ₘ after ∧ aggregate.valueOf other = aggregate.valueOf row) :
    ∃ next, updateAll row addition aggregates items = .ok next ∧ List.Forall₂ (Aggregate.Holds after) aggregates next := by
  induction holds with
  | nil => exact ⟨[],rfl,.nil⟩
  | cons first rest ih =>
    obtain ⟨takes,others⟩ := forall_mem_cons.mp takes
    obtain ⟨changed,changes⟩ := forall_mem_cons.mp changed
    obtain ⟨next,taken,held⟩ := first.update before after row addition takes changed
    obtain ⟨items,done,kept⟩ := ih others changes
    refine ⟨next::items,?_,.cons held kept⟩
    unfold updateAll
    rw [ok_bind taken,ok_bind done]
    rfl

variable {o} {accumulator : Accumulator κ} {rows : List ρ}

theorem changeRows_found (row : ρ) (found : ∃ other ∈ rows, o.rowKey other = o.rowKey row ∧ o.SameArguments other row) :
    ∃ other, o.rowKey other = o.rowKey row ∧ o.SameArguments other row ∧
      (rows : Multiset ρ) = other ::ₘ (o.changeRows rows false row : Multiset ρ) := by
  obtain ⟨other,inside,same⟩ := found
  have test : decide (o.rowKey other = o.rowKey row ∧ o.SameArguments other row) = true := decide_eq_true same
  obtain ⟨removed,earlier,later,-,taken,listed,erased⟩ := exists_of_eraseP (p := fun other => decide (o.rowKey other = o.rowKey row ∧ o.SameArguments other row))
    inside test
  have spec := of_decide_eq_true taken
  refine ⟨removed,spec.1,spec.2,?_⟩
  unfold changeRows
  rw [if_neg (by decide),if_pos ⟨other,inside,same⟩,erased,listed]
  exact Multiset.coe_eq_coe.mpr perm_middle

theorem changeRows_absent (row : ρ) (absent : ∀ other ∈ rows, o.rowKey other ≠ o.rowKey row) : o.changeRows rows false row = rows := by
  unfold changeRows
  rw [if_neg (by decide),if_neg (fun ⟨other,inside,same,_⟩ => absent other inside same)]
  exact eraseP_of_forall_not (fun other inside => by simpa using absent other inside)

theorem counts_changed (counts : Dict κ Int) (before after : List ρ) (key : κ) (change number : Int)
    (counted : ∀ key, (counts.get? key).getD 0 = (before.countP (fun row => o.rowKey row = key) : Int))
    (same : number = (counts.get? key).getD 0 + change)
    (moved : ∀ other, (after.countP (fun row => o.rowKey row = other) : Int) =
      before.countP (fun row => o.rowKey row = other) + if key = other then change else 0) (other : κ) :
    ((counts.set key number).get? other).getD 0 = (after.countP (fun row => o.rowKey row = other) : Int) := by
  rw [Dict.get?_set,moved other]
  by_cases own : other = key
  · subst own
    rw [if_pos rfl,if_pos rfl,← counted other]
    exact same
  · rw [if_neg own,if_neg (Ne.symm own),counted other]
    omega

theorem countP_cons_coe (rows after : List ρ) (row : ρ) (same : (after : Multiset ρ) = row ::ₘ (rows : Multiset ρ)) (key : κ) :
    after.countP (fun other => o.rowKey other = key) =
      rows.countP (fun other => o.rowKey other = key) + if o.rowKey row = key then 1 else 0 := by
  have perm : after.Perm (row::rows) := Multiset.coe_eq_coe.mp same
  rw [perm.countP_eq,countP_cons]
  simp

theorem Represents.addition (represents : o.Represents accumulator rows) (row : ρ)
    (takes : ∀ aggregate ∈ o.aggregateExpressions, aggregate.Takes row) :
    ∃ next, o.applyRow accumulator row true = .ok (true,next) ∧ o.Represents next (o.changeRows rows true row) := by
  have changed : (o.changeRows rows true row : Multiset ρ) = row ::ₘ (rows : Multiset ρ) := by
    unfold changeRows
    rw [if_pos rfl,← Multiset.coe_add,add_comm]
    rfl
  obtain ⟨items,done,holds⟩ := updateAll_holds rows (o.changeRows rows true row) row true _ _ represents.aggregates takes
    (fun _ _ => by rw [if_pos rfl]; exact changed)
  have length : (o.changeRows rows true row).length = rows.length + 1 := by
    unfold changeRows
    simp
  have inside : ∀ other ∈ o.changeRows rows true row, ∀ aggregate ∈ o.aggregateExpressions, aggregate.Takes other := by
    intro other within
    unfold changeRows at within
    rw [if_pos rfl,mem_append,mem_singleton] at within
    rcases within with old | rfl
    · exact represents.takes other old
    · exact takes
  have counted (counts : Option (Dict κ Int))
      (accepted : o.acceptRow accumulator row true = .ok (true,{accumulator with rowCounts := counts})) :
      o.applyRow accumulator row true = .ok (true,⟨accumulator.rowCount + 1,items,counts⟩) := by
    unfold applyRow
    rw [ok_bind accepted]
    dsimp only
    rw [if_pos rfl,ok_bind done]
    rfl
  have rowCounts := represents.rowCounts
  by_cases retractable : o.retractable
  · rw [if_pos retractable] at rowCounts
    obtain ⟨counts,kept,number⟩ := rowCounts
    refine ⟨_,counted (some (counts.set (o.rowKey row) ((counts.get? (o.rowKey row)).getD 0 + 1))) ?_,?_,holds,?_,inside⟩
    · unfold acceptRow
      rw [kept]
      simp
    · simp [represents.rowCount,length]
    · rw [if_pos retractable]
      refine ⟨_,rfl,counts_changed counts rows _ (o.rowKey row) 1 _ number rfl (fun other => ?_)⟩
      rw [countP_cons_coe rows _ row changed other]
      split <;> simp
  · rw [if_neg retractable] at rowCounts
    refine ⟨_,counted none ?_,?_,holds,?_,inside⟩
    · unfold acceptRow
      rw [rowCounts]
      simp [← rowCounts]
    · simp [represents.rowCount,length]
    · rw [if_neg retractable]

theorem Represents.retraction (represents : o.Represents accumulator rows) (row : ρ) (sound : o.Sound rows false row) :
    ∃ accepted next, o.applyRow accumulator row false = .ok (accepted,next) ∧ o.Represents next (o.changeRows rows false row) ∧
      (accepted = false → o.changeRows rows false row = rows ∧ next = accumulator) := by
  have retractable : o.retractable = true := by
    by_contra insertOnly
    exact absurd (sound.declared (by simpa using insertOnly)) (by decide)
  have rowCounts := represents.rowCounts
  rw [if_pos retractable] at rowCounts
  obtain ⟨counts,kept,number⟩ := rowCounts
  have here := number (o.rowKey row)
  by_cases present : ∃ other ∈ rows, o.rowKey other = o.rowKey row
  · obtain ⟨other,key,arguments,changed⟩ := changeRows_found row (sound.repeats rfl present)
    have some' : 0 < rows.countP (fun other => o.rowKey other = o.rowKey row) := by
      rw [countP_pos_iff]
      obtain ⟨twin,inside,same⟩ := present
      exact ⟨twin,inside,by simpa using same⟩
    have listed : other ∈ rows := Multiset.mem_coe.mp (by rw [changed]; exact Multiset.mem_cons_self _ _)
    have takes : ∀ aggregate ∈ o.aggregateExpressions, aggregate.Takes row := by
      intro aggregate inside sums value found
      rw [← arguments aggregate inside] at found
      exact represents.takes other listed aggregate inside sums value found
    obtain ⟨items,done,holds⟩ := updateAll_holds rows (o.changeRows rows false row) row false _ _ represents.aggregates takes
      (fun aggregate inside => by
        rw [if_neg (by decide)]
        exact ⟨other,changed,arguments aggregate inside⟩)
    have length : rows.length = (o.changeRows rows false row).length + 1 := by
      have cards := congrArg Multiset.card changed
      rw [Multiset.card_cons] at cards
      exact cards
    have accepted : ∃ after, o.acceptRow accumulator row false = .ok (true,{accumulator with rowCounts := some after}) ∧
        ∀ key, (after.get? key).getD 0 = ((o.changeRows rows false row).countP (fun row => o.rowKey row = key) : Int) := by
      have moved (key' : κ) : ((o.changeRows rows false row).countP (fun row => o.rowKey row = key') : Int) =
          rows.countP (fun row => o.rowKey row = key') + if o.rowKey row = key' then -1 else 0 := by
        rw [countP_cons_coe _ rows other changed key',key]
        split <;> simp
      unfold acceptRow
      rw [kept]
      dsimp only
      rw [if_neg (by rw [here]; simp; omega)]
      by_cases last : (counts.get? (o.rowKey row)).getD 0 = 1
      · refine ⟨counts.erase (o.rowKey row),by simp [last],fun key' => ?_⟩
        rw [Dict.get?_erase,moved key']
        by_cases own : key' = o.rowKey row
        · subst own
          rw [if_pos rfl,if_pos rfl,← here,last]
          rfl
        · rw [if_neg own,if_neg (Ne.symm own),number key']
          omega
      · exact ⟨_,by simp [last],counts_changed counts rows _ (o.rowKey row) (-1) _ number (Int.sub_eq_add_neg) moved⟩
    obtain ⟨after,accepted,counted⟩ := accepted
    refine ⟨true,⟨accumulator.rowCount + -1,items,some after⟩,?_,⟨?_,holds,?_,?_⟩,fun refused => by cases refused⟩
    · unfold applyRow
      rw [ok_bind accepted]
      dsimp only
      rw [if_pos rfl,ok_bind done]
      rfl
    · rw [represents.rowCount,length]
      simp
    · rw [if_pos retractable]
      exact ⟨after,rfl,counted⟩
    · intro row' inside
      refine represents.takes row' (Multiset.mem_coe.mp ?_)
      rw [changed]
      exact Multiset.mem_cons_of_mem inside
  · have absent : ∀ other ∈ rows, o.rowKey other ≠ o.rowKey row := fun other inside same => present ⟨other,inside,same⟩
    have none' : rows.countP (fun other => o.rowKey other = o.rowKey row) = 0 :=
      countP_eq_zero.mpr (fun other inside => by simpa using absent other inside)
    have unchanged := changeRows_absent row absent
    refine ⟨false,accumulator,?_,by rw [unchanged]; exact represents,fun _ => ⟨unchanged,rfl⟩⟩
    have refused : o.acceptRow accumulator row false = .ok (false,accumulator) := by
      unfold acceptRow
      rw [kept]
      dsimp only
      rw [if_pos ⟨by decide,by rw [here,none']; rfl⟩]
    unfold applyRow
    rw [ok_bind refused]
    rfl

theorem applyRow_cases {next : Accumulator κ} {row : ρ} {addition changed : Bool}
    (done : o.applyRow accumulator row addition = .ok (changed,next)) :
    (changed = false ∧ next = accumulator ∧ addition = false ∧ ∃ counts, accumulator.rowCounts = some counts ∧
      (counts.get? (o.rowKey row)).getD 0 = 0) ∨
    (changed = true ∧ next.rowCount = accumulator.rowCount + Item.direction addition ∧
      updateAll row addition o.aggregateExpressions accumulator.aggregates = .ok next.aggregates ∧
      ((accumulator.rowCounts = none ∧ next.rowCounts = none ∧ addition = true) ∨
        ∃ counts after, accumulator.rowCounts = some counts ∧ next.rowCounts = some after ∧
          (∀ key, (after.get? key).getD 0 = (counts.get? key).getD 0 + if key = o.rowKey row then Item.direction addition else 0) ∧
          (addition = false → (counts.get? (o.rowKey row)).getD 0 ≠ 0))) := by
  unfold applyRow at done
  obtain ⟨⟨accepted,middle⟩,accepts,done⟩ := bind_ok done
  dsimp only at done
  unfold acceptRow at accepts
  cases kept : accumulator.rowCounts with
  | none =>
    rw [kept] at accepts
    cases addition with
    | false => cases accepts
    | true =>
      obtain ⟨rfl,rfl⟩ := Prod.mk.inj (Except.ok.inj accepts)
      rw [if_pos rfl] at done
      obtain ⟨items,updated,done⟩ := bind_ok done
      obtain ⟨rfl,rfl⟩ := Prod.mk.inj (Except.ok.inj done)
      exact .inr ⟨rfl,rfl,updated,.inl ⟨rfl,kept,rfl⟩⟩
  | some counts =>
    rw [kept] at accepts
    dsimp only at accepts
    by_cases refused : ¬ addition = true ∧ (counts.get? (o.rowKey row)).getD 0 = 0
    · rw [if_pos refused] at accepts
      obtain ⟨rfl,rfl⟩ := Prod.mk.inj (Except.ok.inj accepts)
      rw [if_neg (by decide)] at done
      obtain ⟨rfl,rfl⟩ := Prod.mk.inj (Except.ok.inj done)
      exact .inl ⟨rfl,rfl,by simpa using refused.1,counts,rfl,refused.2⟩
    · rw [if_neg refused] at accepts
      obtain ⟨rfl,rfl⟩ := Prod.mk.inj (Except.ok.inj accepts)
      rw [if_pos rfl] at done
      obtain ⟨items,updated,done⟩ := bind_ok done
      obtain ⟨rfl,rfl⟩ := Prod.mk.inj (Except.ok.inj done)
      refine .inr ⟨rfl,rfl,updated,.inr ⟨counts,_,rfl,rfl,fun key => ?_,fun retraction none' => ?_⟩⟩
      · cases addition with
        | true =>
          simp only [if_true,Dict.get?_set,Item.direction]
          by_cases own : key = o.rowKey row
          · subst own
            simp
          · simp [own]
        | false =>
          simp only [Bool.false_eq_true,if_false,Item.direction]
          by_cases own : key = o.rowKey row
          · subst own
            by_cases last : (counts.get? (o.rowKey row)).getD 0 = 1
            · simp [last,Dict.get?_erase]
            · simp [last,Int.sub_eq_add_neg]
          · by_cases last : (counts.get? (o.rowKey row)).getD 0 = 1
            · simp [last,own,Dict.get?_erase]
            · simp [last,own]
      · exact refused ⟨by simp [retraction],none'⟩

section results
omit [DecidableEq κ]
variable {γ γ' β β' : Type}

theorem project_map (regroup : γ → γ') (change : β → β') (lookup : Dict String γ) (projections : List (Projection ρ))
    (values : List β) (result : Dict String (Cell γ β)) :
    project (lookup.mapValues (fun _ => regroup)) projections (values.map change)
        (result.mapValues (fun _ => Cell.map regroup change)) =
      (project lookup projections values result).map (fun row => row.mapValues (fun _ => Cell.map regroup change)) := by
  induction projections generalizing values result with
  | nil => rfl
  | cons projection rest ih =>
    have contains (name : String) :
        (result.mapValues (fun _ => Cell.map regroup change)).contains name = result.contains name := by
      rw [contains_eq_isSome,contains_eq_isSome,get?_mapValues,isSome_map]
    cases projection with
    | aggregate name call =>
      unfold project
      rw [contains]
      by_cases twice : result.contains name = true
      · rw [if_pos twice,if_pos twice]
        rfl
      · rw [if_neg twice,if_neg twice]
        cases values with
        | nil => rfl
        | cons value values =>
          have next := ih values (result.set name (.aggregate value))
          rw [mapValues_set] at next
          exact next
    | scalar name sql =>
      unfold project
      rw [contains]
      by_cases twice : result.contains name = true
      · rw [if_pos twice,if_pos twice]
        rfl
      · rw [if_neg twice,if_neg twice,get?_mapValues]
        cases lookup.get? sql with
        | none => rfl
        | some value =>
          have next := ih values (result.set name (.group value))
          rw [mapValues_set] at next
          exact next

theorem resultOf_map (regroup : γ → γ') (change : β → β') (empty : Prop) [Decidable empty] (values : List β) (key : List γ) :
    o.resultOf empty (values.map change) (key.map regroup) =
      (o.resultOf empty values key).map (Option.map (fun row => row.mapValues (fun _ => Cell.map regroup change))) := by
  unfold resultOf
  by_cases nothing : empty ∧ o.groupExpressions ≠ []
  · rw [if_pos nothing,if_pos nothing]
    rfl
  · have grouped : Dict.ofList (o.groupExpressions.zip (key.map regroup)) =
        (Dict.ofList (o.groupExpressions.zip key)).mapValues (fun _ => regroup) := by
      rw [mapValues_ofList,zip_map_right]
      rfl
    rw [if_neg nothing,if_neg nothing,grouped]
    have mapped := project_map regroup change (Dict.ofList (o.groupExpressions.zip key)) o.projections values ∅
    rw [show (∅ : Dict String (Cell γ' β')) = Dict.mapValues (fun _ => Cell.map regroup change) ∅ from rfl,mapped]
    cases project (Dict.ofList (o.groupExpressions.zip key)) o.projections values ∅
    · rfl
    · rfl

def canonical (result : Option (Dict String (Cell γ (Option Number)))) : Option (Dict String (Cell γ (Option Real))) :=
  result.map (fun row => row.mapValues (fun _ => Cell.map id (Option.map Number.real)))

variable (o) in
def recomputedResult (rows : Multiset ρ) (key : List γ) : Except String (Option (Dict String (Cell γ (Option Real)))) :=
  o.resultOf (Multiset.card rows = 0) (o.aggregateExpressions.map (fun aggregate => aggregate.recomputed rows)) key

end results

theorem values_recomputed (aggregates : List (Aggregate ρ)) (items : List Item) (rows : Multiset ρ)
    (holds : List.Forall₂ (Aggregate.Holds rows) aggregates items) :
    (List.zipWith (fun aggregate item => Item.aggregateValue aggregate.kind item) aggregates items).map (Option.map Number.real) =
      aggregates.map (fun aggregate => aggregate.recomputed rows) := by
  induction holds with
  | nil => rfl
  | cons first rest ih => rw [zipWith_cons_cons,map_cons,map_cons,first.value,ih]

omit [DecidableEq κ] in
theorem resultOf_congr (empty empty' : Prop) [Decidable empty] [Decidable empty'] (same : empty ↔ empty') (values : List β)
    (key : List γ) : o.resultOf empty values key = o.resultOf empty' values key := by
  unfold resultOf
  simp only [same]

theorem Represents.result (represents : o.Represents accumulator rows) (key : List γ) :
    (o.result accumulator key).map canonical = o.recomputedResult (rows : Multiset ρ) key := by
  have empty : (accumulator.rowCount = 0) ↔ Multiset.card (rows : Multiset ρ) = 0 := by
    rw [represents.rowCount,Multiset.coe_card]
    omega
  have mapped := o.resultOf_map id (Option.map Number.real) (accumulator.rowCount = 0)
    (List.zipWith (fun aggregate item => Item.aggregateValue aggregate.kind item) o.aggregateExpressions accumulator.aggregates) key
  rw [List.map_id,values_recomputed _ _ _ represents.aggregates] at mapped
  unfold recomputedResult
  rw [← resultOf_congr _ _ empty]
  exact mapped.symm

variable (o) in
def applyAll (accumulator : Accumulator κ) (changes : List (Bool × ρ)) : Except String (Accumulator κ) :=
  changes.foldlM (fun accumulator change => (o.applyRow accumulator change.2 change.1).map Prod.snd) accumulator

variable (o) in
def rowsStep (rows : List ρ) (change : Bool × ρ) : Option (List ρ) := some (o.changeRows rows change.1 change.2)

theorem Represents.step (represents : o.Represents accumulator rows) (addition : Bool) (row : ρ) (sound : o.Sound rows addition row) :
    ∃ accepted next, o.applyRow accumulator row addition = .ok (accepted,next) ∧
      o.Represents next (o.changeRows rows addition row) := by
  cases addition with
  | true =>
    obtain ⟨next,done,kept⟩ := represents.addition row (sound.takes rfl)
    exact ⟨true,next,done,kept⟩
  | false =>
    obtain ⟨accepted,next,done,kept,-⟩ := represents.retraction row sound
    exact ⟨accepted,next,done,kept⟩

theorem Represents.run (represents : o.Represents accumulator rows) (changes : List (Bool × ρ)) (final : List ρ)
    (sound : Runs.Along o.rowsStep (fun rows change => o.Sound rows change.1 change.2) rows changes)
    (reached : Runs.exec o.rowsStep rows changes = some final) :
    ∃ next, o.applyAll accumulator changes = .ok next ∧ o.Represents next final := by
  induction changes generalizing accumulator rows with
  | nil =>
    obtain rfl := some.inj reached
    exact ⟨accumulator,rfl,represents⟩
  | cons change rest ih =>
    obtain ⟨accepted,next,done,kept⟩ := represents.step change.1 change.2 sound.1
    obtain ⟨last,finished,held⟩ := ih kept (sound.2 _ rfl) reached
    refine ⟨last,?_,held⟩
    unfold applyAll
    rw [foldlM_cons,done]
    exact finished

section runs

/-- `SELECT SUM(v) AS total` over rows of one number. -/
def sumQuery : SQLAggregateOperator Number Real := ⟨[],[.aggregate "total" ⟨.sum,some some,nofun⟩],true,Number.real⟩

def half : Number := .float (.finite (3 / 2))

/-- The row of `1` is taken away as `1.0`, which has its identity. -/
def mixed : List (Bool × Number) := [(true,half),(true,.exact 1),(false,.float (.finite 1))]

def repeated : List (Bool × Number) := [(true,half),(true,.exact 1),(false,.exact 1)]

theorem takes_small (row : Number) (fits : row.Fits) : ∀ aggregate ∈ sumQuery.aggregateExpressions, aggregate.Takes row := by
  intro aggregate inside _ value found
  obtain rfl := mem_singleton.mp inside
  obtain rfl := some.inj found
  exact fits

theorem repeated_sound :
    Runs.Along sumQuery.rowsStep (fun rows change => sumQuery.Sound rows change.1 change.2) [] repeated := by
  have one : Number.Fits (.exact 1) := show ¬ Real.Overflows 1 by decide +kernel
  refine ⟨⟨fun _ => takes_small _ trivial,nofun,nofun⟩,fun first taken => ⟨⟨fun _ => takes_small _ one,nofun,nofun⟩,
    fun second taken' => ⟨⟨nofun,fun _ _ => ?_,nofun⟩,fun _ _ => trivial⟩⟩⟩
  obtain rfl := some.inj taken
  obtain rfl := some.inj taken'
  exact ⟨.exact 1,by decide +kernel,rfl,fun _ _ => rfl⟩

theorem sumQuery_result {β : Type} (empty : Prop) [Decidable empty] (value : β) :
    sumQuery.resultOf empty [value] ([] : List Unit) = .ok (some (Dict.set ∅ "total" (.aggregate value))) := by
  unfold resultOf
  rw [if_neg (fun both => both.2 rfl)]
  rfl

end runs

end SQLAggregateOperator
end Klein.Sql
