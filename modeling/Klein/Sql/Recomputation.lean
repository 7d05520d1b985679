import Klein.Sql.Aggregates

/-! What an aggregate is of a multiset of values, from scratch, and the accumulators that
stand for a multiset: adding a value and taking it away again leave them standing for the
multiset with and without it. -/
namespace Klein.Sql
open Multiset

namespace Number

def exactPart : Number → ℚ
  | .exact value => value
  | .float _ => 0

def floatPart : Number → ℚ
  | .float (.finite value) => value
  | _ => 0

def IsFloating : Number → Prop
  | .float (.finite _) => True
  | _ => False

instance (value : Number) : Decidable value.IsFloating := by
  unfold IsFloating
  split <;> infer_instance

end Number

/-- The sum of values: NaN when one is NaN or when there are infinities of both signs,
the infinity that is there, else the exact total, as a float when one of them is. -/
def total (values : Multiset Number) : Real :=
  if .float .nan ∈ values then .nan
  else if .float (.infinity true) ∈ values ∧ .float (.infinity false) ∈ values then .nan
  else if .float (.infinity true) ∈ values then .infinity true
  else if .float (.infinity false) ∈ values then .infinity false
  else
    let sum := (values.map Number.floatPart).sum + (values.map Number.exactPart).sum
    if 0 < values.countP Number.IsFloating then Item.asFloat sum else .finite sum

def Real.divide : Real → Nat → Real
  | .finite value,count => .finite (value / count)
  | value,_ => value

def extreme (minimum : Bool) (values : Multiset Real) : Option Real :=
  if minimum then values.sort.head? else values.sort.getLast?

def recompute (kind : AggregateKind) (values : Multiset Number) : Option Real :=
  match kind with
  | .count => some (.finite (card values))
  | .sum => if values = 0 then none else some (total values)
  | .avg => if values = 0 then none else some ((total values).divide (card values))
  | .min => extreme true (values.map Number.real)
  | .max => extreme false (values.map Number.real)

structure Sums (item : Item) (values : Multiset Number) : Prop where
  sum : item.sum = (values.map Number.exactPart).sum
  floatingSum : item.floatingSum = (values.map Number.floatPart).sum
  floatingCount : item.floatingCount = (values.countP Number.IsFloating : Int)
  nanCount : item.nanCount = (values.count (.float .nan) : Int)
  nanValue : item.nanValue = if .float .nan ∈ values then some (.float .nan) else none
  positiveInfinityCount : item.positiveInfinityCount = (values.count (.float (.infinity true)) : Int)
  positiveInfinityValue :
    item.positiveInfinityValue = if .float (.infinity true) ∈ values then some (.float (.infinity true)) else none
  negativeInfinityCount : item.negativeInfinityCount = (values.count (.float (.infinity false)) : Int)
  negativeInfinityValue :
    item.negativeInfinityValue = if .float (.infinity false) ∈ values then some (.float (.infinity false)) else none

/-- A value whose sign `math.isinf` can take. -/
def Number.Fits : Number → Prop
  | .exact value => ¬ Real.Overflows value
  | .float _ => True

/-- What `_update_sum` does: each field moves by what the value is to it. -/
structure SumStep (item : Item) (value : Number) (addition : Bool) (next : Item) : Prop where
  sum : next.sum = item.sum + value.exactPart * Item.direction addition
  floatingSum : next.floatingSum = item.floatingSum + value.floatPart * Item.direction addition
  floatingCount : next.floatingCount = item.floatingCount + if value.IsFloating then Item.direction addition else 0
  nanCount : next.nanCount = item.nanCount + if .float .nan = value then Item.direction addition else 0
  nanValue : next.nanValue = if .float .nan = value then
      if addition ∧ item.nanCount = 0 then some value else if next.nanCount = 0 then none else item.nanValue
    else item.nanValue
  positiveInfinityCount : next.positiveInfinityCount =
    item.positiveInfinityCount + if .float (.infinity true) = value then Item.direction addition else 0
  positiveInfinityValue : next.positiveInfinityValue = if .float (.infinity true) = value then
      if next.positiveInfinityCount = 0 then none else some value
    else item.positiveInfinityValue
  negativeInfinityCount : next.negativeInfinityCount =
    item.negativeInfinityCount + if .float (.infinity false) = value then Item.direction addition else 0
  negativeInfinityValue : next.negativeInfinityValue = if .float (.infinity false) = value then
      if next.negativeInfinityCount = 0 then none else some value
    else item.negativeInfinityValue
  count : next.count = item.count

theorem updateSum_step (item : Item) (value : Number) (addition : Bool) (fits : value.Fits) :
    ∃ next, item.updateSum value addition = .ok next ∧ SumStep item value addition next := by
  cases value with
  | exact number =>
    have small : ¬ Real.Overflows number := fits
    refine ⟨{item with sum := if addition then item.sum + number else item.sum - number},?_,?_⟩
    · simp [Item.updateSum,Number.real,Item.infinitySign,small,Bind.bind,Except.bind,Pure.pure,Except.pure]
    · constructor
      case sum => cases addition <;> simp [Number.exactPart,Item.direction,sub_eq_add_neg]
      all_goals simp [Number.floatPart,Number.IsFloating]
  | float real =>
    cases real with
    | finite ratio =>
      refine ⟨_,rfl,?_⟩
      constructor <;> simp [Number.floatPart,Number.exactPart,Number.IsFloating]
    | infinity positive =>
      cases positive with
      | true =>
        refine ⟨_,rfl,?_⟩
        constructor <;> simp [Number.floatPart,Number.exactPart,Number.IsFloating]
      | false =>
        refine ⟨_,rfl,?_⟩
        constructor <;> simp [Number.floatPart,Number.exactPart,Number.IsFloating]
    | nan =>
      refine ⟨_,rfl,?_⟩
      constructor <;> simp [Number.floatPart,Number.exactPart,Number.IsFloating]

namespace Sums
variable {item next : Item} {values : Multiset Number} {value : Number}

theorem empty : Sums Item.empty 0 := by constructor <;> rfl

section
variable (special : Number)
include special

theorem counted (values : Multiset Number) :
    (if (values.count special : Int) = 0 then none else some special) = if special ∈ values then some special else none := by
  by_cases inside : special ∈ values
  · have positive := count_pos.mpr inside
    rw [if_neg (by omega),if_pos inside]
  · rw [count_eq_zero.mpr inside,if_neg inside]
    rfl

theorem counted_cons (values : Multiset Number) (different : special ≠ value) :
    (if special ∈ value ::ₘ values then some special else none) = if special ∈ values then some special else none := by
  simp [different]

theorem infinityValue (before after : Option Number) (values : Multiset Number)
    (kept : before = if special ∈ values then some special else none) (count : Int) (same : count = (value ::ₘ values).count special)
    (taken : after = if special = value then if count = 0 then none else some value else before) :
    after = if special ∈ value ::ₘ values then some special else none := by
  rw [taken]
  by_cases met : special = value
  · subst met
    rw [if_pos rfl,same,counted]
  · rw [if_neg met,kept,counted_cons special values met]

theorem infinityValue_removed (before after : Option Number) (values : Multiset Number)
    (kept : before = if special ∈ value ::ₘ values then some special else none) (count : Int)
    (same : count = values.count special)
    (taken : after = if special = value then if count = 0 then none else some value else before) :
    after = if special ∈ values then some special else none := by
  rw [taken]
  by_cases met : special = value
  · subst met
    rw [if_pos rfl,same,counted]
  · rw [if_neg met,kept,counted_cons special values met]

theorem count_added : ((value ::ₘ values).count special : Int) =
    values.count special + if special = value then Item.direction true else 0 := by
  rw [count_cons]
  split <;> simp [Item.direction]

end

theorem count_removed (value special : Number) : (values.count special : Int) =
    (value ::ₘ values).count special + if special = value then Item.direction false else 0 := by
  rw [count_cons]
  split <;> simp [Item.direction]

theorem add (sums : Sums item values) (step : SumStep item value true next) : Sums next (value ::ₘ values) := by
  have nan : next.nanCount = (value ::ₘ values).count (.float .nan) := by
    rw [step.nanCount,sums.nanCount,count_added]
  have positive : next.positiveInfinityCount = (value ::ₘ values).count (.float (.infinity true)) := by
    rw [step.positiveInfinityCount,sums.positiveInfinityCount,count_added]
  have negative : next.negativeInfinityCount = (value ::ₘ values).count (.float (.infinity false)) := by
    rw [step.negativeInfinityCount,sums.negativeInfinityCount,count_added]
  refine ⟨?_,?_,?_,nan,?_,positive,?_,negative,?_⟩
  · simp [step.sum,sums.sum,Item.direction,add_comm]
  · simp [step.floatingSum,sums.floatingSum,Item.direction,add_comm]
  · rw [step.floatingCount,sums.floatingCount,countP_cons]
    split <;> simp [Item.direction]
  · rw [step.nanValue]
    by_cases met : .float .nan = value
    · subst met
      rw [if_pos rfl,nan,sums.nanValue,sums.nanCount,if_pos (mem_cons_self _ _)]
      by_cases inside : .float .nan ∈ values
      · have some' := count_pos.mpr inside
        rw [if_neg (by omega),if_neg (by rw [count_cons_self]; omega),if_pos inside]
      · rw [if_pos ⟨rfl,by rw [count_eq_zero.mpr inside]; rfl⟩]
    · rw [if_neg met,sums.nanValue,counted_cons _ _ met]
  · exact infinityValue _ _ _ values sums.positiveInfinityValue _ positive step.positiveInfinityValue
  · exact infinityValue _ _ _ values sums.negativeInfinityValue _ negative step.negativeInfinityValue

theorem remove (sums : Sums item (value ::ₘ values)) (step : SumStep item value false next) : Sums next values := by
  have nan : next.nanCount = values.count (.float .nan) := by
    rw [step.nanCount,sums.nanCount,← count_removed value]
  have positive : next.positiveInfinityCount = values.count (.float (.infinity true)) := by
    rw [step.positiveInfinityCount,sums.positiveInfinityCount,← count_removed value]
  have negative : next.negativeInfinityCount = values.count (.float (.infinity false)) := by
    rw [step.negativeInfinityCount,sums.negativeInfinityCount,← count_removed value]
  refine ⟨?_,?_,?_,nan,?_,positive,?_,negative,?_⟩
  · simp [step.sum,sums.sum,Item.direction]
  · simp [step.floatingSum,sums.floatingSum,Item.direction]
  · rw [step.floatingCount,sums.floatingCount,countP_cons]
    split <;> simp [Item.direction]
  · rw [step.nanValue]
    by_cases met : .float .nan = value
    · subst met
      rw [if_pos rfl,if_neg (by simp),nan,sums.nanValue,if_pos (mem_cons_self _ _),counted]
    · rw [if_neg met,sums.nanValue,counted_cons _ _ met]
  · exact infinityValue_removed _ _ _ values sums.positiveInfinityValue _ positive step.positiveInfinityValue
  · exact infinityValue_removed _ _ _ values sums.negativeInfinityValue _ negative step.negativeInfinityValue

theorem floating_exact (values : Multiset Number) (none' : values.countP Number.IsFloating = 0) :
    (values.map Number.floatPart).sum = 0 := by
  apply sum_eq_zero
  intro part inside
  obtain ⟨value,within,rfl⟩ := mem_map.mp inside
  have not := countP_eq_zero.mp none' value within
  cases value with
  | exact value => rfl
  | float real =>
    cases real with
    | finite ratio => exact absurd trivial not
    | infinity positive => rfl
    | nan => rfl

theorem sumValue (sums : Sums item values) : item.sumValue.map Number.real = some (total values) := by
  have zero (special : Number) : (values.count special : Int) ≠ 0 ↔ special ∈ values := by
    rw [← count_pos]
    omega
  unfold Item.sumValue total
  rw [sums.nanCount,sums.positiveInfinityCount,sums.negativeInfinityCount,sums.nanValue,sums.positiveInfinityValue,
    sums.negativeInfinityValue,sums.floatingCount,sums.floatingSum,sums.sum]
  simp only [zero]
  by_cases nan : .float .nan ∈ values
  · rw [if_pos nan,if_pos nan,if_pos nan]
    rfl
  rw [if_neg nan,if_neg nan]
  by_cases positive : .float (.infinity true) ∈ values
  · by_cases negative : .float (.infinity false) ∈ values
    · rw [if_pos ⟨positive,negative⟩,if_pos ⟨positive,negative⟩]
      rfl
    · have one : ¬ (.float (.infinity true) ∈ values ∧ .float (.infinity false) ∈ values) := fun both => negative both.2
      rw [if_neg one,if_neg one,if_pos positive,if_pos positive,if_pos positive]
      rfl
  have one : ¬ (.float (.infinity true) ∈ values ∧ .float (.infinity false) ∈ values) := fun both => positive both.1
  rw [if_neg one,if_neg one,if_neg positive,if_neg positive]
  by_cases negative : .float (.infinity false) ∈ values
  · rw [if_pos negative,if_pos negative,if_pos negative]
    rfl
  rw [if_neg negative,if_neg negative]
  by_cases floating : 0 < values.countP Number.IsFloating
  · rw [if_pos (by omega),if_pos floating]
    rfl
  · have none' : values.countP Number.IsFloating = 0 := by omega
    rw [if_neg (by omega),if_neg floating,floating_exact values none',zero_add]
    rfl

end Sums
theorem beats_iff (minimum : Bool) (value current : Real) :
    Item.beats minimum value current = true ↔ if minimum then value < current else current < value := by
  unfold Item.beats
  cases minimum with
  | true => simpa using compare_neg value current
  | false => simpa using compare_pos value current

theorem beats_trans (minimum : Bool) (first second third : Real) (one : ¬ Item.beats minimum first second = true)
    (other : ¬ Item.beats minimum second third = true) : ¬ Item.beats minimum first third = true := by
  rw [beats_iff] at one other ⊢
  cases minimum with
  | true =>
    simp only [if_true,not_lt] at one other ⊢
    exact other.trans one
  | false =>
    simp only [Bool.false_eq_true,if_false,not_lt] at one other ⊢
    exact one.trans other

def IsExtreme (minimum : Bool) (values : Multiset Real) : Option Real → Prop
  | none => values = 0
  | some best => best ∈ values ∧ ∀ other ∈ values, ¬ Item.beats minimum other best = true

theorem IsExtreme.unique (minimum : Bool) (values : Multiset Real) (one other : Option Real)
    (first : IsExtreme minimum values one) (second : IsExtreme minimum values other) : one = other := by
  cases one with
  | none =>
    cases other with
    | none => rfl
    | some best =>
      rw [show values = 0 from first] at second
      exact absurd second.1 (notMem_zero _)
  | some value =>
    cases other with
    | none =>
      rw [show values = 0 from second] at first
      exact absurd first.1 (notMem_zero _)
    | some best =>
      have below := first.2 best second.1
      have above := second.2 value first.1
      rw [beats_iff] at below above
      apply congrArg some
      cases minimum with
      | true =>
        simp only [if_true,not_lt] at below above
        exact le_antisymm below above
      | false =>
        simp only [Bool.false_eq_true,if_false,not_lt] at below above
        exact le_antisymm above below

theorem extreme_spec (minimum : Bool) (values : Multiset Real) : IsExtreme minimum values (extreme minimum values) := by
  have sorted := pairwise_sort (s := values) (r := fun one other => one ≤ other)
  have members (value : Real) : value ∈ values.sort ↔ value ∈ values := mem_sort _
  unfold extreme
  cases minimum with
  | true =>
    rw [if_pos rfl]
    cases listed : values.sort with
    | nil =>
      refine eq_zero_of_forall_notMem (fun value inside => ?_)
      have absent := (members value).mpr inside
      rw [listed] at absent
      cases absent
    | cons first rest =>
      rw [listed] at sorted
      refine ⟨(members first).mp (by rw [listed]; exact List.mem_cons_self),fun other inside => ?_⟩
      rw [beats_iff,if_pos rfl,not_lt]
      have within := (members other).mpr inside
      rw [listed,List.mem_cons] at within
      rcases within with rfl | later
      · exact le_rfl
      · exact (List.pairwise_cons.mp sorted).1 other later
  | false =>
    rw [if_neg (by decide)]
    rcases List.eq_nil_or_concat values.sort with listed | ⟨rest,last,listed⟩
    · rw [listed]
      refine eq_zero_of_forall_notMem (fun value inside => ?_)
      have absent := (members value).mpr inside
      rw [listed] at absent
      cases absent
    · rw [List.concat_eq_append] at listed
      rw [listed] at sorted
      rw [listed,List.getLast?_concat]
      refine ⟨(members last).mp (by rw [listed]; simp),fun other inside => ?_⟩
      rw [beats_iff,if_neg (by decide),not_lt]
      have within := (members other).mpr inside
      rw [listed,List.mem_append,List.mem_singleton] at within
      rcases within with earlier | rfl
      · exact (List.pairwise_append.mp sorted).2.2 other earlier last (List.mem_singleton_self _)
      · exact le_rfl

structure Kept (item : Item) (values : Multiset Number) : Prop where
  counted : ∀ key, (item.values.get? key).map Prod.snd =
    if key ∈ values.map Number.real then some ((values.map Number.real).count key : Int) else none
  keyed : ∀ key value count, item.values.get? key = some (value,count) → value.real = key

structure Extremes (minimum : Bool) (item : Item) (values : Multiset Number) : Prop extends Kept item values where
  currentKey : item.currentKey = item.current.map Number.real
  current : IsExtreme minimum (values.map Number.real) (item.current.map Number.real)

namespace Kept
variable {item : Item} {values : Multiset Number} {value : Number}

theorem mem (kept : Kept item values) (key : Real) : key ∈ values.map Number.real ↔ ∃ entry, item.values.get? key = some entry := by
  have counted := kept.counted key
  constructor
  · intro inside
    rw [if_pos inside] at counted
    obtain ⟨entry,found,-⟩ := Option.map_eq_some_iff.mp counted
    exact ⟨entry,found⟩
  · rintro ⟨entry,found⟩
    by_contra absent
    rw [if_neg absent,found] at counted
    cases counted

theorem count (kept : Kept item values) (key : Real) (kept' : Number) (count : Int)
    (found : item.values.get? key = some (kept',count)) : count = ((values.map Number.real).count key : Int) := by
  have counted := kept.counted key
  rw [if_pos ((kept.mem key).mpr ⟨_,found⟩),found] at counted
  exact Option.some.inj counted

theorem add (kept : Kept item values) (count : Int) (next : Item)
    (counted : count = ((values.map Number.real).count value.real : Int) + 1)
    (stored : next.values = item.values.set value.real (value,count)) : Kept next (value ::ₘ values) := by
  refine ⟨fun key => ?_,fun key other number found => ?_⟩
  · rw [stored,Dict.get?_set,map_cons]
    by_cases same : value.real = key
    · subst same
      rw [if_pos rfl,if_pos (mem_cons_self _ _),count_cons_self,counted]
      rfl
    · have members : key ∈ value.real ::ₘ values.map Number.real ↔ key ∈ values.map Number.real := by
        rw [mem_cons]
        exact or_iff_right (Ne.symm same)
      rw [if_neg (Ne.symm same),kept.counted key,count_cons_of_ne (Ne.symm same)]
      simp only [members]
  · rw [stored,Dict.get?_set] at found
    by_cases same : value.real = key
    · subst same
      rw [if_pos rfl] at found
      obtain ⟨rfl,-⟩ := Prod.mk.inj (Option.some.inj found)
      rfl
    · rw [if_neg (Ne.symm same)] at found
      exact kept.keyed key other number found

theorem remove (kept : Kept item (value ::ₘ values)) (other : Number) (next : Item) (keyed : other.real = value.real)
    (stored : next.values = if value.real ∈ values.map Number.real then
        item.values.set value.real (other,((values.map Number.real).count value.real : Int))
      else item.values.erase value.real) : Kept next values := by
  have before (key : Real) (different : value.real ≠ key) : (item.values.get? key).map Prod.snd =
      if key ∈ values.map Number.real then some ((values.map Number.real).count key : Int) else none := by
    have members : key ∈ value.real ::ₘ values.map Number.real ↔ key ∈ values.map Number.real := by
      rw [mem_cons]
      exact or_iff_right (Ne.symm different)
    rw [kept.counted key,map_cons,count_cons_of_ne (Ne.symm different)]
    simp only [members]
  by_cases shared : value.real ∈ values.map Number.real
  · rw [if_pos shared] at stored
    refine ⟨fun key => ?_,fun key kept' number found => ?_⟩
    · rw [stored,Dict.get?_set]
      by_cases same : value.real = key
      · subst same
        rw [if_pos rfl,if_pos shared]
        rfl
      · rw [if_neg (Ne.symm same)]
        exact before key same
    · rw [stored,Dict.get?_set] at found
      by_cases same : value.real = key
      · subst same
        rw [if_pos rfl] at found
        obtain ⟨rfl,-⟩ := Prod.mk.inj (Option.some.inj found)
        exact keyed
      · rw [if_neg (Ne.symm same)] at found
        exact kept.keyed key kept' number found
  · rw [if_neg shared] at stored
    refine ⟨fun key => ?_,fun key kept' number found => ?_⟩
    · rw [stored,Dict.get?_erase]
      by_cases same : value.real = key
      · subst same
        rw [if_pos rfl,if_neg shared]
        rfl
      · rw [if_neg (Ne.symm same)]
        exact before key same
    · rw [stored,Dict.get?_erase] at found
      by_cases same : value.real = key
      · rw [if_pos same.symm] at found
        cases found
      · rw [if_neg (Ne.symm same)] at found
        exact kept.keyed key kept' number found

theorem foldl_best (minimum : Bool) (entries : List (Real × Number × Int)) (start : Real × Number) :
    let best := entries.foldl (fun best candidate =>
      if Item.beats minimum candidate.2.1.real best.2.real then (candidate.1,candidate.2.1) else best) start
    (best = start ∨ ∃ entry ∈ entries, best = (entry.1,entry.2.1)) ∧
      ¬ Item.beats minimum start.2.real best.2.real = true ∧
      ∀ entry ∈ entries, ¬ Item.beats minimum entry.2.1.real best.2.real = true := by
  have self (real : Real) : ¬ Item.beats minimum real real = true := by
    rw [beats_iff]
    cases minimum <;> simp
  induction entries generalizing start with
  | nil => exact ⟨.inl rfl,self _,by simp⟩
  | cons entry rest ih =>
    dsimp only
    rw [List.foldl_cons]
    by_cases better : Item.beats minimum entry.2.1.real start.2.real = true
    · rw [if_pos better]
      obtain ⟨origin,first,others⟩ := ih (entry.1,entry.2.1)
      have above : ¬ Item.beats minimum start.2.real entry.2.1.real = true := by
        rw [beats_iff] at better ⊢
        cases minimum with
        | true => exact not_lt_of_gt better
        | false => exact not_lt_of_gt better
      refine ⟨.inr ?_,beats_trans minimum _ _ _ above first,?_⟩
      · rcases origin with same | ⟨other,inside,same⟩
        · exact ⟨entry,List.mem_cons_self,same⟩
        · exact ⟨other,List.mem_cons_of_mem _ inside,same⟩
      · rw [List.forall_mem_cons]
        exact ⟨first,others⟩
    · rw [if_neg better]
      obtain ⟨origin,first,others⟩ := ih start
      refine ⟨?_,first,?_⟩
      · rcases origin with same | ⟨other,inside,same⟩
        · exact .inl same
        · exact .inr ⟨other,List.mem_cons_of_mem _ inside,same⟩
      · rw [List.forall_mem_cons]
        exact ⟨beats_trans minimum _ _ _ better first,others⟩

theorem replaceExtreme (kept : Kept item values) (minimum : Bool) : Extremes minimum (item.replaceExtreme minimum) values := by
  have entry (key : Real) (number : Number) (count : Int) :
      (key,number,count) ∈ item.values.entries ↔ item.values.get? key = some (number,count) :=
    (Dict.get?_eq_some _ _ _).symm
  unfold Item.replaceExtreme
  split
  next none' =>
    refine ⟨⟨kept.counted,kept.keyed⟩,rfl,eq_zero_of_forall_notMem (fun key inside => ?_)⟩
    obtain ⟨⟨number,count⟩,found⟩ := (kept.mem key).mp inside
    have listed := (entry key number count).mpr found
    rw [none'] at listed
    cases listed
  next key number count rest listed =>
    obtain ⟨origin,-,others⟩ := foldl_best minimum item.values.entries (key,number)
    dsimp only at origin others ⊢
    generalize item.values.entries.foldl _ (key,number) = best at origin others ⊢
    have stored : ∃ count, (best.1,best.2,count) ∈ item.values.entries := by
      rcases origin with rfl | ⟨⟨key,number,count⟩,inside,rfl⟩
      · exact ⟨count,by rw [listed]; exact List.mem_cons_self⟩
      · exact ⟨count,inside⟩
    obtain ⟨count,inside⟩ := stored
    have found := (entry _ _ _).mp inside
    have keyed := kept.keyed _ _ _ found
    refine ⟨⟨kept.counted,kept.keyed⟩,congrArg some keyed.symm,?_,fun other within => ?_⟩
    · rw [keyed]
      exact (kept.mem _).mpr ⟨_,found⟩
    · obtain ⟨⟨number,count⟩,found'⟩ := (kept.mem other).mp within
      have best' := others _ ((entry other number count).mpr found')
      rw [kept.keyed _ _ _ found'] at best'
      exact best'

end Kept

namespace Extremes
variable {minimum : Bool} {item : Item} {values : Multiset Number} {value : Number}

theorem empty : Extremes minimum Item.empty 0 :=
  ⟨⟨fun _ => rfl,fun _ _ _ found => by cases found⟩,rfl,rfl⟩

theorem beats_self (real : Real) : ¬ Item.beats minimum real real = true := by
  rw [beats_iff]
  cases minimum <;> simp

theorem beats_asymm (one other : Real) (better : Item.beats minimum one other = true) : ¬ Item.beats minimum other one = true := by
  rw [beats_iff] at better ⊢
  cases minimum with
  | true => exact not_lt_of_gt better
  | false => exact not_lt_of_gt better

theorem add (extremes : Extremes minimum item values) :
    Extremes minimum (item.updateExtreme value true minimum) (value ::ₘ values) := by
  unfold Item.updateExtreme
  dsimp only
  rw [if_pos (show true = true from rfl)]
  generalize number : Item.recounted (item.values.get? value.real) = count
  have counted : count = ((values.map Number.real).count value.real : Int) + 1 := by
    rw [← number]
    cases found : item.values.get? value.real with
    | none =>
      have absent : value.real ∉ values.map Number.real := fun inside => by
        obtain ⟨entry,some'⟩ := (extremes.mem _).mp inside
        rw [found] at some'
        cases some'
      rw [count_eq_zero.mpr absent]
      rfl
    | some entry =>
      rw [← extremes.count _ _ _ found]
      rfl
  have kept (current : Option Number) (currentKey : Option Real) : Kept {
      item with
      values := item.values.set value.real (value,count)
      current := current
      currentKey := currentKey} (value ::ₘ values) := extremes.toKept.add count _ counted rfl
  have current := extremes.current
  split
  next replaces =>
    refine ⟨kept _ _,rfl,?_⟩
    rw [map_cons]
    refine ⟨mem_cons_self _ _,fun other inside => ?_⟩
    rcases mem_cons.mp inside with rfl | old
    · exact beats_self _
    · cases before : item.current with
      | none =>
        rw [before] at current
        rw [show values.map Number.real = 0 from current] at old
        exact absurd old (notMem_zero _)
      | some best =>
        rw [before] at current replaces
        exact beats_trans minimum _ _ _ (current.2 other old) (beats_asymm _ _ replaces)
  next stays =>
    refine ⟨kept item.current item.currentKey,extremes.currentKey,?_⟩
    dsimp only
    rw [map_cons]
    cases before : item.current with
    | none =>
      rw [before] at stays
      exact absurd (show Item.replaces minimum none value = true from rfl) stays
    | some best =>
      rw [before] at current stays
      refine ⟨mem_cons_of_mem current.1,fun other inside => ?_⟩
      rcases mem_cons.mp inside with rfl | old
      · exact stays
      · exact current.2 other old

theorem narrowed {first : Real} {values : Multiset Real} {result : Option Real} (wide : IsExtreme minimum (first ::ₘ values) result)
    (among : result = some first → first ∈ values) : IsExtreme minimum values result := by
  cases result with
  | none => exact absurd wide cons_ne_zero
  | some best =>
    refine ⟨?_,fun other inside => wide.2 other (mem_cons_of_mem inside)⟩
    rcases mem_cons.mp wide.1 with rfl | inside
    · exact among rfl
    · exact inside

theorem remove (extremes : Extremes minimum item (value ::ₘ values)) :
    Extremes minimum (item.updateExtreme value false minimum) values := by
  unfold Item.updateExtreme
  dsimp only
  rw [if_neg (by decide)]
  obtain ⟨⟨other,count⟩,found⟩ := (extremes.mem value.real).mp (mem_map_of_mem _ (mem_cons_self _ _))
  have keyed := extremes.keyed _ _ _ found
  have counted := extremes.count _ _ _ found
  rw [map_cons,count_cons_self] at counted
  have current := extremes.current
  rw [map_cons] at current
  rw [found]
  dsimp only
  by_cases shared : value.real ∈ values.map Number.real
  · have positive := count_pos.mpr shared
    rw [if_pos (by omega)]
    refine ⟨extremes.toKept.remove other _ keyed ?_,extremes.currentKey,narrowed current (fun _ => shared)⟩
    rw [if_pos shared]
    apply congrArg (item.values.set value.real)
    apply congrArg (Prod.mk other)
    omega
  · have zero := count_eq_zero.mpr shared
    rw [if_neg (by omega)]
    have popped : Kept {item with values := item.values.erase value.real} values :=
      extremes.toKept.remove other _ keyed (if_neg shared).symm
    split
    next => exact popped.replaceExtreme minimum
    next another =>
      refine ⟨popped,extremes.currentKey,narrowed current (fun same => absurd ?_ another)⟩
      rw [extremes.currentKey,same]

theorem currentValue (extremes : Extremes minimum item values) :
    item.current.map Number.real = extreme minimum (values.map Number.real) :=
  extremes.current.unique minimum _ _ _ (extreme_spec minimum _)

end Extremes

end Klein.Sql
