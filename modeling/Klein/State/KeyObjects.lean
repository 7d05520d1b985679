import Klein.Binary64
import Klein.Bytes

/-! Python values that may be keys: numbers, texts, ranges and containers of them,
with Python's `==`. A text or byte string is an object of its own: its label says
which, and `none` is the interned one. Keys with a NaN are refused and have no
value here. -/
namespace Klein.State
open List

inductive PyFloat where
  | zero (negative : Bool)
  | finite (value : ℚ) (nonzero : value ≠ 0) (exact : Binary64.nearest value = some value)
  | infinite (negative : Bool)
deriving DecidableEq

inductive PyDecimal where
  | finite (negative : Bool) (coefficient : Nat) (exponent : Int)
  | infinite (negative : Bool)
deriving DecidableEq

inductive Extended where
  | finite (value : ℚ)
  | infinite (negative : Bool)
deriving DecidableEq

def PyFloat.value : PyFloat → Extended
  | .zero _ => .finite 0
  | .finite value _ _ => .finite value
  | .infinite negative => .infinite negative

/-- `Decimal.as_integer_ratio` -/
def PyDecimal.value : PyDecimal → Extended
  | .finite negative coefficient exponent => .finite ((if negative then -1 else 1) * coefficient * 10 ^ exponent)
  | .infinite negative => .infinite negative

inductive Content where
  | text (points : List Nat)
  | bytes (data : Bytes)
deriving DecidableEq

@[ext] structure Leaf where
  content : Content
  label : Option Nat
deriving DecidableEq

structure PyRange where
  start : Int
  stop : Int
  step : Int
  moves : step ≠ 0
deriving DecidableEq

/-- `len(range)` -/
def PyRange.size (range : PyRange) : Int :=
  if 0 < range.step then
    if range.stop ≤ range.start then 0 else (range.stop - range.start - 1) / range.step + 1
  else if range.start ≤ range.stop then 0 else (range.start - range.stop - 1) / -range.step + 1

inductive PyAtom where
  | none
  | bool (value : Bool)
  | int (value : Int)
  | float (value : PyFloat)
  | decimal (value : PyDecimal)
  | fraction (value : ℚ)
  | complex (real imag : PyFloat)
  | leaf (value : Leaf)
  | range (value : PyRange)
deriving DecidableEq

/-- What the equality of Python depends on; a range counts as the sequence of its numbers. -/
inductive Meaning where
  | none
  | number (real imag : Extended)
  | content (value : Content)
  | range (size first step : Int)
deriving DecidableEq

namespace PyAtom

def meaning : PyAtom → Meaning
  | .none => .none
  | .bool value => .number (.finite (if value then 1 else 0)) (.finite 0)
  | .int value => .number (.finite value) (.finite 0)
  | .float value => .number value.value (.finite 0)
  | .decimal value => .number value.value (.finite 0)
  | .fraction value => .number (.finite value) (.finite 0)
  | .complex real imag => .number real.value imag.value
  | .leaf value => .content value.content
  | .range value => .range value.size (if 0 < value.size then value.start else 0) (if 1 < value.size then value.step else 1)

def equal (value other : PyAtom) : Bool := value.meaning = other.meaning

def leaves : PyAtom → List Leaf
  | .leaf value => [value]
  | _ => []

def relabel (change : Leaf → Option Nat) : PyAtom → PyAtom
  | .leaf value => .leaf ⟨value.content,change value⟩
  | other => other

end PyAtom

/-- `canonicalSet` is the class `_CanonicalSet`. -/
inductive Kind where
  | tuple | list | canonicalSet | set | frozenset | dict
deriving DecidableEq

namespace Kind

def ordered : Kind → Bool
  | .tuple | .list | .canonicalSet => true
  | .set | .frozenset | .dict => false

def comparable : Kind → Kind → Bool
  | .set,.frozenset | .frozenset,.set => true
  | kind,other => kind = other

/-- A `_CanonicalSet` is read back as a frozen set. -/
def restored : Kind → Kind
  | .canonicalSet => .frozenset
  | kind => kind

def listed : Kind → Bool
  | .tuple | .list | .dict => true
  | .set | .frozenset | .canonicalSet => false

theorem comparable_refl (kind : Kind) : kind.comparable kind = true := by
  cases kind <;> rfl

theorem comparable_symm (kind other : Kind) (same : kind.comparable other = true) : other.comparable kind = true := by
  revert same
  cases kind <;> cases other <;> decide

theorem comparable_trans (kind other third : Kind) (first : kind.comparable other = true)
    (second : other.comparable third = true) : kind.comparable third = true := by
  revert first second
  cases kind <;> cases other <;> cases third <;> decide

theorem comparable_ordered (kind other : Kind) (same : kind.comparable other = true) : other.ordered = kind.ordered := by
  revert same
  cases kind <;> cases other <;> decide

end Kind

inductive PyObject where
  | atom (value : PyAtom)
  | node (kind : Kind) (items : List PyObject)

namespace PyObject

def pair (key item : PyObject) : PyObject := .node .tuple [key,item]

/-- `pair[0]` -/
def keyOf : PyObject → PyObject
  | .node _ (key::_) => key
  | other => other

@[elab_as_elim, induction_eliminator] theorem inductionOn {motive : PyObject → Prop} (atom : ∀ value, motive (.atom value))
    (node : ∀ kind items, (∀ item ∈ items, motive item) → motive (.node kind items)) : ∀ object, motive object
  | .atom value => atom value
  | .node kind items => node kind items (fun item inside => by
    have smaller := sizeOf_lt_of_mem inside
    exact inductionOn atom node item)
termination_by object => sizeOf object

mutual

/-- `==` -/
def equal : PyObject → PyObject → Bool
  | .atom value,.atom other => value.equal other
  | .node kind items,.node otherKind others =>
    kind.comparable otherKind &&
      if kind.ordered then inOrder items others else decide (items.length = others.length) && within items others
  | _,_ => false

def inOrder : List PyObject → List PyObject → Bool
  | [],[] => true
  | item::items,other::others => equal item other && inOrder items others
  | _,_ => false

def within : List PyObject → List PyObject → Bool
  | [],_ => true
  | item::items,others => others.any (fun other => equal item other) && within items others

end

mutual

def leaves : PyObject → List Leaf
  | .atom value => value.leaves
  | .node _ items => leavesOf items

def leavesOf : List PyObject → List Leaf
  | [] => []
  | item::items => leaves item ++ leavesOf items

end

mutual

def relabel (change : Leaf → Option Nat) : PyObject → PyObject
  | .atom value => .atom (value.relabel change)
  | .node kind items => .node kind (relabelAll change items)

def relabelAll (change : Leaf → Option Nat) : List PyObject → List PyObject
  | [] => []
  | item::items => relabel change item::relabelAll change items

end

section correspondence
variable (atoms : PyAtom → PyAtom → Prop) (kinds : Kind → Kind → Prop) (fixed : Kind → Bool)

mutual

def Corresponds : PyObject → PyObject → Prop
  | .atom value,.atom other => atoms value other
  | .node kind items,.node other others =>
    kinds kind other ∧ ∃ arranged, arranged.Perm others ∧ (fixed kind = true → arranged = others) ∧ CorrespondAll items arranged
  | _,_ => False

def CorrespondAll : List PyObject → List PyObject → Prop
  | [],[] => True
  | item::items,other::others => Corresponds item other ∧ CorrespondAll items others
  | _,_ => False

end

theorem correspondAll_iff (items others : List PyObject) :
    CorrespondAll atoms kinds fixed items others ↔ List.Forall₂ (Corresponds atoms kinds fixed) items others := by
  induction items generalizing others with
  | nil => cases others <;> simp [CorrespondAll]
  | cons item rest ih => cases others <;> simp [CorrespondAll,ih]

theorem corresponds_node (kind other : Kind) (items others : List PyObject) :
    Corresponds atoms kinds fixed (.node kind items) (.node other others) ↔ kinds kind other ∧ ∃ arranged, arranged.Perm others ∧
      (fixed kind = true → arranged = others) ∧ List.Forall₂ (Corresponds atoms kinds fixed) items arranged := by
  simp only [Corresponds,correspondAll_iff]

end correspondence

/-- What makes a container one of Python's: the members of a set and the keys of a
dict are different. -/
def Formed : Kind → List PyObject → Prop
  | .tuple,_ | .list,_ => True
  | .canonicalSet,_ => False
  | .set,items | .frozenset,items => items.Pairwise (fun item other => ¬ item.equal other)
  | .dict,items => (∀ item ∈ items, ∃ key value, item = pair key value) ∧
    items.Pairwise (fun item other => ¬ item.keyOf.equal other.keyOf)

inductive Valid : PyObject → Prop
  | atom (value : PyAtom) : Valid (.atom value)
  | node (kind : Kind) (items : List PyObject) (each : ∀ item ∈ items, Valid item) (formed : Formed kind items) :
    Valid (.node kind items)

section equality

theorem leavesOf_eq (items : List PyObject) : leavesOf items = items.flatMap leaves := by
  induction items with
  | nil => rfl
  | cons item rest ih => exact congrArg (leaves item ++ ·) ih

theorem relabelAll_eq (change : Leaf → Option Nat) (items : List PyObject) : relabelAll change items = items.map (relabel change) := by
  induction items with
  | nil => rfl
  | cons item rest ih => exact congrArg (relabel change item::·) ih

@[simp] theorem leaves_node (kind : Kind) (items : List PyObject) : (node kind items).leaves = items.flatMap leaves :=
  leavesOf_eq items

@[simp] theorem relabel_node (change : Leaf → Option Nat) (kind : Kind) (items : List PyObject) :
    (node kind items).relabel change = .node kind (items.map (relabel change)) :=
  congrArg (node kind) (relabelAll_eq change items)

theorem inOrder_iff (items others : List PyObject) :
    inOrder items others = true ↔ List.Forall₂ (fun item other => item.equal other) items others := by
  induction items generalizing others with
  | nil => cases others <;> simp [inOrder]
  | cons item rest ih => cases others <;> simp [inOrder,ih]

theorem within_iff (items others : List PyObject) :
    within items others = true ↔ ∀ item ∈ items, ∃ other ∈ others, item.equal other := by
  induction items with
  | nil => simp [within]
  | cons item rest ih => simp [within,ih]

theorem equal_ordered (kind other : Kind) (items others : List PyObject) (ordered : kind.ordered = true) :
    (node kind items).equal (node other others) ↔
      kind.comparable other ∧ List.Forall₂ (fun item other => item.equal other) items others := by
  rw [equal,if_pos ordered,Bool.and_eq_true,inOrder_iff]

theorem equal_unordered (kind other : Kind) (items others : List PyObject) (unordered : kind.ordered = false) :
    (node kind items).equal (node other others) ↔
      kind.comparable other ∧ items.length = others.length ∧ ∀ item ∈ items, ∃ other ∈ others, item.equal other := by
  rw [equal,unordered,if_neg Bool.false_ne_true,Bool.and_eq_true,Bool.and_eq_true,decide_eq_true_eq,within_iff]

theorem equal_refl (object : PyObject) : object.equal object := by
  induction object with
  | atom value => exact decide_eq_true rfl
  | node kind items ih =>
    cases ordered : kind.ordered with
    | true =>
      rw [equal_ordered kind kind items items ordered]
      exact ⟨Kind.comparable_refl kind,forall₂_same.mpr ih⟩
    | false =>
      rw [equal_unordered kind kind items items ordered]
      exact ⟨Kind.comparable_refl kind,rfl,fun item inside => ⟨item,inside,ih item inside⟩⟩

theorem equal_trans (first second third : PyObject) (left : first.equal second) (right : second.equal third) :
    first.equal third := by
  induction first generalizing second third with
  | atom value =>
    cases second with
    | node _ _ => cases left
    | atom other =>
      cases third with
      | node _ _ => cases right
      | atom last => exact decide_eq_true ((of_decide_eq_true left).trans (of_decide_eq_true right))
  | node kind items ih =>
    cases second with
    | atom _ => cases left
    | node other others =>
      cases third with
      | atom _ => cases right
      | node last lasts =>
        cases ordered : kind.ordered with
        | true =>
          rw [equal_ordered _ _ _ _ ordered] at left ⊢
          have next := (Kind.comparable_ordered _ _ left.1).trans ordered
          rw [equal_ordered _ _ _ _ next] at right
          refine ⟨Kind.comparable_trans _ _ _ left.1 right.1,?_⟩
          have chained := left.2
          clear left
          replace right := right.2
          induction chained generalizing lasts with
          | nil => exact right
          | cons same _ again =>
            cases right with
            | cons next rest =>
              exact .cons (ih _ mem_cons_self _ _ same next)
                (again (fun item inside => ih item (mem_cons_of_mem _ inside)) _ rest)
        | false =>
          rw [equal_unordered _ _ _ _ ordered] at left ⊢
          have next := (Kind.comparable_ordered _ _ left.1).trans ordered
          rw [equal_unordered _ _ _ _ next] at right
          refine ⟨Kind.comparable_trans _ _ _ left.1 right.1,left.2.1.trans right.2.1,fun item inside => ?_⟩
          obtain ⟨middle,among,same⟩ := left.2.2 item inside
          obtain ⟨final,among,again⟩ := right.2.2 middle among
          exact ⟨final,among,ih item inside middle final same again⟩

theorem equal_pair (key item key' item' : PyObject) :
    (pair key item).equal (pair key' item') ↔ key.equal key' ∧ item.equal item' := by
  unfold pair
  rw [equal_ordered _ _ _ _ rfl]
  simp [Kind.comparable]

end equality

section matching
variable {α β : Type} (related : α → β → Prop)

theorem exists_arrangement (items : List α) (others : List β) (length : items.length = others.length)
    (apart : items.Pairwise (fun item later => ∀ other, related item other → ¬ related later other))
    (each : ∀ item ∈ items, ∃ other ∈ others, related item other) :
    ∃ arranged, arranged.Perm others ∧ List.Forall₂ related items arranged := by
  induction items generalizing others with
  | nil => exact ⟨[],by rw [length_eq_zero_iff.mp length.symm],.nil⟩
  | cons item rest ih =>
    obtain ⟨other,among,same⟩ := each item mem_cons_self
    obtain ⟨before,after,rfl⟩ := append_of_mem among
    obtain ⟨off,apart⟩ := pairwise_cons.mp apart
    obtain ⟨arranged,reordered,beside⟩ := ih (before ++ after) (by simp at length ⊢; omega) apart (fun later inside => by
      obtain ⟨partner,found,fits⟩ := each later (mem_cons_of_mem _ inside)
      have differs : partner ≠ other := by
        intro equal
        exact off later inside other same (equal ▸ fits)
      exact ⟨partner,by simpa [differs] using found,fits⟩)
    exact ⟨other::arranged,(reordered.cons other).trans perm_middle.symm,.cons same beside⟩

theorem beside_imp (other : α → β → Prop) (items : List α) (others : List β)
    (weaker : ∀ item ∈ items, ∀ partner ∈ others, related item partner → other item partner)
    (beside : List.Forall₂ related items others) : List.Forall₂ other items others := by
  induction beside with
  | nil => exact .nil
  | cons same _ ih =>
    refine .cons (weaker _ mem_cons_self _ mem_cons_self same) (ih (fun item inside partner among => ?_))
    exact weaker item (mem_cons_of_mem _ inside) partner (mem_cons_of_mem _ among)

section
variable (items : List α) (others : List β) (beside : List.Forall₂ related items others)
include beside

theorem exists_left (other : β) (among : other ∈ others) :
    ∃ item ∈ items, related item other := by
  induction beside with
  | nil => cases among
  | cons same _ ih =>
    rcases mem_cons.mp among with rfl | among
    · exact ⟨_,mem_cons_self,same⟩
    · obtain ⟨item,inside,fits⟩ := ih among
      exact ⟨item,mem_cons_of_mem _ inside,fits⟩

theorem exists_right (item : α) (inside : item ∈ items) :
    ∃ other ∈ others, related item other :=
  exists_left (fun other item => related item other) others items beside.flip item inside

end

theorem pairwise_beside (apart : α → α → Prop) (apart' : β → β → Prop) (items : List α) (others : List β)
    (beside : List.Forall₂ related items others) (off : items.Pairwise apart)
    (carries : ∀ item ∈ items, ∀ later ∈ items, ∀ partner partner', related item partner → related later partner' →
      apart item later → apart' partner partner') : others.Pairwise apart' := by
  induction beside with
  | nil => exact .nil
  | @cons item partner rest rest' same beside ih =>
    obtain ⟨first,off⟩ := pairwise_cons.mp off
    refine .cons (fun partner' among => ?_) (ih off (fun item inside later among => carries item (mem_cons_of_mem _ inside)
      later (mem_cons_of_mem _ among)))
    obtain ⟨later,inside,fits⟩ := exists_left _ rest rest' beside partner' among
    exact carries item mem_cons_self later (mem_cons_of_mem _ inside) partner partner' same fits (first later inside)

theorem exists_beside (items : List α) (each : ∀ item ∈ items, ∃ other, related item other) :
    ∃ others, List.Forall₂ related items others := by
  induction items with
  | nil => exact ⟨[],.nil⟩
  | cons item rest ih =>
    obtain ⟨other,first⟩ := each item mem_cons_self
    obtain ⟨others,beside⟩ := ih (fun later inside => each later (mem_cons_of_mem _ inside))
    exact ⟨other::others,.cons first beside⟩

theorem eq_of_apart (related : α → α → Prop) (items : List α) (apart : items.Pairwise (fun item other => ¬ related item other ∧ ¬ related other item))
    (item other : α) (inside : item ∈ items) (among : other ∈ items) (same : related item other) : item = other := by
  induction apart with
  | nil => cases inside
  | cons first _ ih =>
    cases mem_cons.mp inside with
    | inl head =>
      subst head
      cases mem_cons.mp among with
      | inl head => exact head.symm
      | inr later => exact absurd same (first other later).1
    | inr later =>
      cases mem_cons.mp among with
      | inl head => exact absurd (head ▸ same) (first item later).2
      | inr last => exact ih later last

end matching

section valid

theorem Formed.pairwise (kind : Kind) (items : List PyObject) (unordered : kind.ordered = false) (formed : Formed kind items) :
    items.Pairwise (fun item other => ¬ item.equal other) := by
  cases kind with
  | set => exact formed
  | frozenset => exact formed
  | dict =>
    refine formed.2.imp_of_mem (fun {item other} inside among different same => different ?_)
    obtain ⟨key,value,rfl⟩ := formed.1 item inside
    obtain ⟨key',value',rfl⟩ := formed.1 other among
    exact ((equal_pair _ _ _ _).mp same).1
  | tuple => cases unordered
  | list => cases unordered
  | canonicalSet => cases unordered

theorem arranged_of_equal (kind other : Kind) (items others : List PyObject) (unordered : kind.ordered = false)
    (formed : Formed kind items) (symm : ∀ item ∈ items, ∀ other, item.equal other → other.equal item)
    (same : (node kind items).equal (node other others)) :
    ∃ arranged, arranged.Perm others ∧ List.Forall₂ (fun item other => item.equal other) items arranged := by
  obtain ⟨-,length,each⟩ := (equal_unordered _ _ _ _ unordered).mp same
  refine exists_arrangement _ items others length ?_ each
  refine (formed.pairwise kind items unordered).imp_of_mem (fun {item later} _ inside different partner fits again => ?_)
  exact different (equal_trans _ _ _ fits (symm later inside partner again))

theorem equal_symm (first second : PyObject) (valid : first.Valid) (same : first.equal second) : second.equal first := by
  induction valid generalizing second with
  | atom value =>
    cases second with
    | atom other => exact decide_eq_true (of_decide_eq_true same).symm
    | node _ _ => cases same
  | node kind items _ formed ih =>
    cases second with
    | atom _ => cases same
    | node other others =>
      cases ordered : kind.ordered with
      | true =>
        rw [equal_ordered _ _ _ _ ordered] at same
        rw [equal_ordered _ _ _ _ ((Kind.comparable_ordered _ _ same.1).trans ordered)]
        refine ⟨Kind.comparable_symm _ _ same.1,?_⟩
        exact (beside_imp _ _ items others (fun item inside partner _ fits => ih item inside partner fits) same.2).flip
      | false =>
        obtain ⟨arranged,reordered,beside⟩ := arranged_of_equal kind other items others ordered formed (fun item inside => ih item inside) same
        rw [equal_unordered _ _ _ _ ordered] at same
        rw [equal_unordered _ _ _ _ ((Kind.comparable_ordered _ _ same.1).trans ordered)]
        refine ⟨Kind.comparable_symm _ _ same.1,same.2.1.symm,fun partner among => ?_⟩
        obtain ⟨item,inside,fits⟩ := exists_left _ items arranged beside partner (reordered.mem_iff.mpr among)
        exact ⟨item,inside,ih item inside partner fits⟩

end valid

end PyObject
end Klein.State
