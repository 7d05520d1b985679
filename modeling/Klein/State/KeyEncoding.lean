import Klein.State.KeyObjects

/-! Canonical forms of keys and their encodings (`state/key_encoding.py`,
`state/key_group_range.py`). Pickle is a parameter. It writes an object that it has
met before as a reference to the first one, and among those it meets are the names
of the classes it writes. -/
namespace Klein.State

def isBinary (value : ℚ) : Bool := value.den &&& (value.den - 1) = 0 ∧ Binary64.nearest value = some value

namespace PyAtom

/-- `_canonical_ratio` -/
def canonicalRatio (value : ℚ) : PyAtom :=
  if whole : value.den = 1 then .int value.num
  else if value.den &&& (value.den - 1) = 0 then
    if exact : Binary64.nearest value = some value then
      .float (.finite value (fun zero => whole (zero ▸ rfl)) exact)
    else .fraction value
  else .fraction value

def canonicalValue : Extended → PyAtom
  | .finite value => canonicalRatio value
  | .infinite negative => .float (.infinite negative)

/-- `_canonical_decimal` -/
def canonicalDecimal (value : PyDecimal) : PyAtom := canonicalValue value.value

/-- `_canonical_real` -/
def canonicalReal (value : PyFloat) : PyAtom := canonicalValue value.value

/-- `0.0 if value == 0 else value` -/
def unsigned : PyFloat → PyFloat
  | .zero _ => .zero false
  | other => other

/-- `_canonical_complex` -/
def canonicalComplex (real imag : PyFloat) : PyAtom :=
  if (unsigned imag).value = .finite 0 then canonicalReal (unsigned real) else .complex (unsigned real) (unsigned imag)

/-- `_canonical_range` -/
def canonicalRange (range : PyRange) : PyRange :=
  if range.size = 0 then ⟨0,0,1,by decide⟩
  else if range.size = 1 then ⟨range.start,range.start + 1,1,by decide⟩
  else ⟨range.start,range.start + range.step * range.size,range.step,range.moves⟩

def canonical : PyAtom → PyAtom
  | .none => .none
  | .bool value => .int (if value then 1 else 0)
  | .int value => .int value
  | .float value => canonicalReal value
  | .decimal value => canonicalDecimal value
  | .fraction value => canonicalRatio value
  | .complex real imag => canonicalComplex real imag
  | .leaf value => .leaf value
  | .range value => .range (canonicalRange value)

end PyAtom

def word (name : String) : Leaf := ⟨.text (name.toList.map Char.toNat),none⟩

/-- The names that pickle writes for a canonical value. Built-in classes make the text of
their own name anew. -/
def Meaning.names : Meaning → List Leaf
  | .number real imag =>
    if imag = .finite 0 then
      match real with
      | .finite value => if value.den = 1 ∨ isBinary value then [] else [word "fractions",word "Fraction"]
      | .infinite _ => []
    else [word "builtins"]
  | .range _ _ _ => [word "builtins"]
  | _ => []

def reserved : List Leaf :=
  [word "fractions",word "Fraction",word "builtins",word "ray.klein.state.key_encoding",word "_decode_canonical_set"]

inductive Protocol where
  | four | highest

structure KeyPickle where
  dumps : Protocol → PyObject → Bytes
  loads : Bytes → PyObject

namespace PyObject

/-- `sorted(items, key=…)` -/
def sortedBy (key : PyObject → Bytes) (items : List PyObject) : List PyObject :=
  items.insertionSort (fun item other => key item ≤ key other)

/-- `pair[1]` -/
def itemOf : PyObject → PyObject
  | .node _ (_::item::_) => item
  | other => other

def setItem (items : List PyObject) (item : PyObject) : List PyObject :=
  if items.any (fun other => other.keyOf.equal item.keyOf) then
    items.map (fun other => if other.keyOf.equal item.keyOf then pair other.keyOf item.itemOf else other)
  else items ++ [item]

/-- `dict(items)` -/
def dictOf (items : List PyObject) : List PyObject := items.foldl setItem []

section encoding
variable (pickle : KeyPickle)

/-- Containers of canonical items, sorted by `encode_key`, for which pickle is enough: a
canonical item is its own canonical form. -/
def gather (items : List PyObject) : Kind → PyObject
  | .set | .frozenset => .node .canonicalSet (sortedBy (pickle.dumps .four) items)
  | .dict => .node .dict (dictOf (sortedBy (fun item => pickle.dumps .four item.keyOf) items))
  | kind => .node kind items

mutual

/-- `_canonicalize`: values of other classes are returned. -/
def canonicalize : PyObject → PyObject
  | .atom value => .atom value.canonical
  | .node kind items => if kind = .canonicalSet then .node kind items else gather pickle (canonicalizeAll items) kind

def canonicalizeAll : List PyObject → List PyObject
  | [] => []
  | item::items => canonicalize item::canonicalizeAll items

end

def encodeKey (protocol : Protocol) (key : PyObject) : Bytes := pickle.dumps protocol (canonicalize pickle key)

def decodeKey (encoded : Bytes) : PyObject := pickle.loads encoded

/-- `blake2b` is the digest as a number. -/
def keyGroupForKey (blake2b : Bytes → Nat) (key : PyObject) (maxParallelism : Nat) : Except String Nat :=
  if maxParallelism < 1 then .error "max_parallelism must be at least 1"
  else .ok (blake2b (encodeKey pickle .four key) % maxParallelism)

end encoding

def setNames : Kind → List Leaf
  | .set | .frozenset | .canonicalSet => [word "ray.klein.state.key_encoding",word "_decode_canonical_set"]
  | _ => []

mutual

def names : PyObject → List Leaf
  | .atom value => value.meaning.names
  | .node kind items => setNames kind ++ namesOf items

def namesOf : List PyObject → List Leaf
  | [] => []
  | item::items => names item ++ namesOf items

end

/-- What pickle makes of a value: a number for each object, from the first time it is
met, and none for the names of classes. -/
def memoized (object : PyObject) : PyObject :=
  object.relabel (fun leaf => if leaf ∈ object.names then none else some (object.leaves.idxOf leaf))

def Restored (change : Leaf → Option Nat) : PyObject → PyObject → Prop :=
  Corresponds (fun value other => other = value.relabel change) (fun kind other => other = kind.restored) Kind.listed

structure Fresh (change : Leaf → Option Nat) (object : PyObject) : Prop where
  distinct : ∀ leaf ∈ object.leaves, ∀ other ∈ object.leaves, leaf.content = other.content → change leaf = change other → leaf = other
  unnamed : ∀ leaf ∈ object.leaves, (⟨leaf.content,change leaf⟩ : Leaf) ∉ reserved

inductive Plain : PyObject → Prop
  | atom (value : PyAtom) (fixed : value.canonical = value) : Plain (.atom value)
  | node (kind : Kind) (items : List PyObject) (written : kind ≠ .set ∧ kind ≠ .frozenset) (each : ∀ item ∈ items, Plain item) :
    Plain (.node kind items)

end PyObject

/-- Pickle writes values with what they share, and nothing else, and reads back what it wrote. -/
structure KeyPickle.Lawful (pickle : KeyPickle) : Prop where
  dumps_iff : ∀ protocol object other, PyObject.Plain object → PyObject.Plain other →
    (pickle.dumps protocol object = pickle.dumps protocol other ↔ object.memoized = other.memoized)
  restores : ∀ protocol object, ∃ change, PyObject.Fresh change object ∧
    PyObject.Restored change object (pickle.loads (pickle.dumps protocol object))

end Klein.State
