import Klein.State.KeyNormalForm

/-! Keys that are read back from their encodings, as snapshots of key groups do
(`MemoryStateBackend.snapshot_key_groups`): they are equal to the keys that were
written, and they are routed like them unless a text of the key names a class. -/
namespace Klein.State
open List

namespace PyObject

def Unnamed (key : PyObject) : Prop := ∀ leaf ∈ key.leaves, leaf ∉ key.names

theorem Meaning.names_reserved (meaning : Meaning) (leaf : Leaf) (named : leaf ∈ meaning.names) : leaf ∈ reserved := by
  have classes : leaf ∈ [word "fractions",word "Fraction"] ∨ leaf ∈ [word "builtins"] := by
    cases meaning with
    | none => cases named
    | content value => cases named
    | range size first step => exact .inr named
    | number real imag =>
      by_cases whole : imag = .finite 0
      · left
        rw [whole] at named
        cases real with
        | infinite negative => cases named
        | finite value =>
          change leaf ∈ (if value.den = 1 ∨ isBinary value then [] else [word "fractions",word "Fraction"]) at named
          by_cases written : value.den = 1 ∨ isBinary value
          · rw [if_pos written] at named
            cases named
          · rw [if_neg written] at named
            exact named
      · right
        unfold Meaning.names at named
        dsimp only at named
        rw [if_neg whole] at named
        exact named
  unfold reserved
  simp only [mem_cons,not_mem_nil,or_false] at classes ⊢
  rcases classes with (same | same) | same
  · exact .inl same
  · exact .inr (.inl same)
  · exact .inr (.inr (.inl same))

theorem names_reserved (key : PyObject) (leaf : Leaf) (named : leaf ∈ key.names) : leaf ∈ reserved := by
  induction key with
  | atom value => exact Meaning.names_reserved value.meaning leaf named
  | node kind items ih =>
    rw [names_node,mem_append] at named
    cases named with
    | inl named =>
      have sets : leaf ∈ [word "ray.klein.state.key_encoding",word "_decode_canonical_set"] := by
        revert named
        cases kind <;> first | exact id | exact nofun
      unfold reserved
      simp only [mem_cons,not_mem_nil,or_false] at sets ⊢
      exact .inr (.inr (.inr sets))
    | inr named =>
      obtain ⟨item,inside,named⟩ := mem_flatMap.mp named
      exact ih item inside named

theorem Fresh.steady (pickle : KeyPickle) (key : PyObject) (valid : key.Valid) (change : Leaf → Option Nat) (fresh : Fresh change (canonicalize pickle key)) (unnamed : key.Unnamed) :
    Steady change key where
  distinct := fun leaf found other known => fresh.distinct leaf ((leaves_canonicalize pickle key valid leaf).mpr found) other
    ((leaves_canonicalize pickle key valid other).mpr known)
  unnamed := unnamed
  still := fun leaf found named => fresh.unnamed leaf ((leaves_canonicalize pickle key valid leaf).mpr found)
    (names_reserved key _ named)

instance (key : PyObject) : Decidable key.Unnamed := by
  unfold Unnamed
  infer_instance

theorem encodeKey_differs (pickle : KeyPickle) (lawful : pickle.Lawful) (key : PyObject) (valid : key.Valid) (change : Leaf → Option Nat)
    (other : PyObject) (matched : Matches change key other) (fresh : ∀ leaf ∈ key.leaves, (⟨leaf.content,change leaf⟩ : Leaf) ∉ key.names)
    (named : ¬ key.Unnamed) (protocol : Protocol) : encodeKey pickle protocol other ≠ encodeKey pickle protocol key := by
  have valid' := matches_valid change key _ valid matched
  intro same
  have seen := (lawful.dumps_iff protocol _ _ (plain_canonicalize pickle other valid') (plain_canonicalize pickle key valid)).mp same
  simp only [Unnamed,not_forall,not_not] at named
  obtain ⟨leaf,found,named⟩ := named
  have labels (object : PyObject) (label : Option Nat) : (∃ leaf ∈ object.memoized.leaves, leaf.label = label) ↔
      ∃ leaf ∈ object.leaves, (if leaf ∈ object.names then none else some (object.leaves.idxOf leaf)) = label := by
    unfold memoized
    rw [leaves_relabel]
    simp
  have once : ∃ leaf ∈ (canonicalize pickle key).memoized.leaves, leaf.label = none := by
    rw [labels]
    exact ⟨leaf,(leaves_canonicalize pickle key valid leaf).mpr found,if_pos ((names_canonicalize pickle key valid leaf).mpr named)⟩
  rw [← seen,labels] at once
  obtain ⟨text,known,unlabelled⟩ := once
  have reached : text ∈ (canonicalize pickle other).names := by
    by_contra absent
    rw [if_neg absent] at unlabelled
    cases unlabelled
  rw [names_canonicalize pickle other valid',names_matches change key other matched] at reached
  rw [leaves_canonicalize pickle other valid',leaves_matches change key other matched] at known
  obtain ⟨own,known,rfl⟩ := known
  exact fresh own known reached

section recovered
variable (pickle : KeyPickle) (lawful : pickle.Lawful) (protocol : Protocol) (key : PyObject) (valid : key.Valid)
include lawful valid

theorem recovered_matches : ∃ change, Fresh change (canonicalize pickle key) ∧
    Matches change key (decodeKey pickle (encodeKey pickle protocol key)) := by
  obtain ⟨change,fresh,restored⟩ := lawful.restores protocol (canonicalize pickle key)
  exact ⟨change,fresh,matches_canonical pickle change key _ valid restored⟩

theorem recovered_encoded (unnamed : key.Unnamed) (again : Protocol) :
    (∃ change, canonicalize pickle (decodeKey pickle (encodeKey pickle protocol key)) = (canonicalize pickle key).relabel change) ∧
      encodeKey pickle again (decodeKey pickle (encodeKey pickle protocol key)) = encodeKey pickle again key := by
  obtain ⟨change,fresh,matched⟩ := recovered_matches pickle lawful protocol key valid
  have steady := Fresh.steady pickle key valid change fresh unnamed
  exact ⟨⟨change,canonicalize_matches pickle lawful change key _ valid matched steady⟩,
    encodeKey_matches pickle lawful change again key _ valid matched steady⟩

theorem recovered_differs (named : ¬ key.Unnamed) (again : Protocol) :
    encodeKey pickle again (decodeKey pickle (encodeKey pickle protocol key)) ≠ encodeKey pickle again key := by
  obtain ⟨change,fresh,matched⟩ := recovered_matches pickle lawful protocol key valid
  exact encodeKey_differs pickle lawful key valid change _ matched (fun leaf found named =>
    fresh.unnamed leaf ((leaves_canonicalize pickle key valid leaf).mpr found) (names_reserved key _ named)) named again

end recovered

theorem digests_of_routed (pickle : KeyPickle) (blake2b : Bytes → Nat) (key other : PyObject)
    (routed : ∀ maxParallelism, keyGroupForKey pickle blake2b key maxParallelism = keyGroupForKey pickle blake2b other maxParallelism) :
    blake2b (encodeKey pickle .four key) = blake2b (encodeKey pickle .four other) := by
  have groups := routed (max (blake2b (encodeKey pickle .four key)) (blake2b (encodeKey pickle .four other)) + 1)
  unfold keyGroupForKey at groups
  rw [if_neg (by omega),if_neg (by omega)] at groups
  have groups := Except.ok.inj groups
  rw [Nat.mod_eq_of_lt (by omega),Nat.mod_eq_of_lt (by omega)] at groups
  exact groups

/-- Canonical forms say which keys are equal, and a key that is read back is routed as it
was exactly where none of its texts names a class that is pickled with it. -/
theorem key_encoding_normal (pickle : KeyPickle) (lawful : pickle.Lawful) (blake2b : Bytes → Nat) :
    (∀ number other : PyAtom, (∃ real imag, number.meaning = .number real imag) → number.equal other →
      number.canonical = other.canonical) ∧
    ∀ protocol (key : PyObject), key.Valid →
      (decodeKey pickle (encodeKey pickle protocol key)).equal key ∧
      (∀ other : PyObject, other.Valid → encodeKey pickle protocol other = encodeKey pickle protocol key → other.equal key) ∧
      (key.Unnamed → ∃ change,
        canonicalize pickle (decodeKey pickle (encodeKey pickle protocol key)) = (canonicalize pickle key).relabel change) ∧
      (key.Unnamed → ∀ maxParallelism, keyGroupForKey pickle blake2b (decodeKey pickle (encodeKey pickle protocol key)) maxParallelism =
        keyGroupForKey pickle blake2b key maxParallelism) ∧
      ((blake2b (encodeKey pickle .four (decodeKey pickle (encodeKey pickle protocol key))) = blake2b (encodeKey pickle .four key) →
          encodeKey pickle .four (decodeKey pickle (encodeKey pickle protocol key)) = encodeKey pickle .four key) →
        (∀ maxParallelism, keyGroupForKey pickle blake2b (decodeKey pickle (encodeKey pickle protocol key)) maxParallelism =
          keyGroupForKey pickle blake2b key maxParallelism) → key.Unnamed) := by
  refine ⟨fun number other real same => ?_,fun protocol key valid => ⟨?_,?_,?_,?_,?_⟩⟩
  · obtain ⟨real,imag,known⟩ := real
    refine PyAtom.canonical_same number other (of_decide_eq_true same) ((PyAtom.leaves_eq_nil number).mpr (fun content text => ?_))
    rw [known] at text
    cases text
  · obtain ⟨change,-,matched⟩ := recovered_matches pickle lawful protocol key valid
    exact equal_symm _ _ valid (matches_equal change key _ matched)
  · exact fun other valid' same => encodeKey_injective pickle lawful protocol other key valid' valid same
  · exact fun unnamed => (recovered_encoded pickle lawful protocol key valid unnamed .four).1
  · intro unnamed maxParallelism
    unfold keyGroupForKey
    rw [(recovered_encoded pickle lawful protocol key valid unnamed .four).2]
  · intro collides routed
    by_contra named
    have differs := recovered_differs pickle lawful protocol key valid named .four
    exact differs (collides (digests_of_routed pickle blake2b _ key routed))

section tree

deriving instance Countable for PyFloat, PyDecimal, Content, Leaf, PyRange, PyAtom, Kind

noncomputable def atomNumber : PyAtom → Nat := (exists_injective_nat PyAtom).choose

noncomputable def kindNumber : Kind → Nat := (exists_injective_nat Kind).choose

mutual

noncomputable def write : PyObject → List Nat
  | .atom value => [0,atomNumber value]
  | .node kind items => (kindNumber kind + 1)::items.length::writeAll items

noncomputable def writeAll : List PyObject → List Nat
  | [] => []
  | item::items => write item ++ writeAll items

end

theorem write_append_inj (object other : PyObject) (rest rest' : List Nat) (same : write object ++ rest = write other ++ rest') :
    object = other ∧ rest = rest' := by
  induction object generalizing other rest rest' with
  | atom value =>
    cases other with
    | atom other =>
      simp only [write,cons_append,nil_append,List.cons.injEq,true_and] at same
      obtain rfl := (exists_injective_nat PyAtom).choose_spec same.1
      exact ⟨rfl,same.2⟩
    | node _ _ => simp [write] at same
  | node kind items ih =>
    cases other with
    | atom _ => simp [write] at same
    | node other others =>
      simp only [write,cons_append,List.cons.injEq,Nat.add_right_cancel_iff] at same
      obtain ⟨kinds,length,same⟩ := same
      obtain rfl := (exists_injective_nat Kind).choose_spec kinds
      have each : items = others ∧ rest = rest' := by
        clear kinds
        induction items generalizing others with
        | nil =>
          obtain rfl := length_eq_zero_iff.mp length.symm
          exact ⟨rfl,same⟩
        | cons item items again =>
          cases others with
          | nil => cases length
          | cons other others =>
            simp only [writeAll,append_assoc] at same
            obtain ⟨rfl,later⟩ := ih item mem_cons_self other _ _ same
            obtain ⟨rfl,last⟩ := again (fun item inside => ih item (mem_cons_of_mem _ inside)) others
              (Nat.succ.inj length) later
            exact ⟨rfl,last⟩
      exact ⟨congrArg _ each.1,each.2⟩

instance : Countable PyObject := by
  have injective : Function.Injective write := fun object other same =>
    (write_append_inj object other [] [] (by rw [same])).1
  exact injective.countable

def objectOf : Option Nat → Option Nat
  | none => some 0
  | some position => some (position + 1)

mutual

def thaw : PyObject → PyObject
  | .atom value => .atom (value.relabel (fun leaf => objectOf leaf.label))
  | .node kind items => .node kind.restored (thawAll items)

def thawAll : List PyObject → List PyObject
  | [] => []
  | item::items => thaw item::thawAll items

end

theorem thawAll_eq (items : List PyObject) : thawAll items = items.map thaw := by
  induction items with
  | nil => rfl
  | cons item rest ih => exact congrArg (thaw item::·) ih

theorem thaw_restored (change : Leaf → Option Nat) (object : PyObject) :
    Restored (fun leaf => objectOf (change leaf)) object (thaw (object.relabel change)) := by
  induction object with
  | atom value => cases value <;> rfl
  | node kind items ih =>
    rw [relabel_node,thaw,thawAll_eq,List.map_map]
    refine (corresponds_node _ _ _ _ _ _ _).mpr ⟨rfl,_,List.Perm.refl _,fun _ => rfl,?_⟩
    rw [forall₂_map_right_iff]
    exact forall₂_same.mpr ih

noncomputable def objectNumber : PyObject → Nat := (exists_injective_nat PyObject).choose

theorem objectNumber_injective : Function.Injective objectNumber := (exists_injective_nat PyObject).choose_spec

def protocolNumber : Protocol → Nat
  | .four => 4
  | .highest => 5

instance : Nonempty PyObject := ⟨.atom .none⟩

noncomputable def treePickle : KeyPickle where
  dumps protocol object := List.replicate (Nat.pair (protocolNumber protocol) (objectNumber object.memoized)) 0
  loads encoded := thaw (Function.invFun objectNumber (Nat.unpair encoded.length).2)

theorem names_interned (object : PyObject) (leaf : Leaf) (named : leaf ∈ object.names) : leaf.label = none := by
  have listed := names_reserved object leaf named
  revert listed
  exact (by decide : ∀ leaf ∈ reserved, leaf.label = none) leaf

theorem treePickle_lawful : treePickle.Lawful where
  dumps_iff protocol object other _ _ := by
    unfold treePickle
    dsimp only
    constructor
    · intro same
      have numbers := congrArg List.length same
      rw [length_replicate,length_replicate,Nat.pair_eq_pair] at numbers
      exact objectNumber_injective numbers.2
    · intro same
      rw [same]
  restores protocol object := by
    refine ⟨fun leaf => objectOf (if leaf ∈ object.names then none else some (object.leaves.idxOf leaf)),⟨?_,?_⟩,?_⟩
    · intro leaf found other known content same
      by_cases named : leaf ∈ object.names <;> by_cases named' : other ∈ object.names
      · exact Leaf.ext content ((names_interned object leaf named).trans (names_interned object other named').symm)
      · simp [named,named',objectOf] at same
      · simp [named,named',objectOf] at same
      · simp only [named,named',if_false,objectOf,Option.some.injEq,Nat.add_right_cancel_iff] at same
        exact (idxOf_inj found).mp same
    · intro leaf _ named
      have interned := (by decide : ∀ leaf ∈ reserved, leaf.label = none) _ named
      dsimp only at interned
      split at interned <;> cases interned
    · unfold treePickle
      dsimp only
      rw [length_replicate,Nat.unpair_pair,Function.leftInverse_invFun objectNumber_injective]
      exact thaw_restored _ object

def third (name : String) (label : Option Nat) : PyObject := pair (.atom (.leaf ⟨(word name).content,label⟩)) (.atom (.fraction (1 / 3)))

theorem third_valid (name : String) (label : Option Nat) : (third name label).Valid := by
  refine .node .tuple _ (fun item inside => ?_) trivial
  simp only [mem_cons,not_mem_nil,or_false] at inside
  rcases inside with rfl | rfl
  · exact .atom _
  · exact .atom _

end tree

/-- A key of a text of its own comes back to its group. -/
theorem own_text_routed : (decodeKey treePickle (encodeKey treePickle .highest (third "fractions" (some 0)))).equal (third "fractions" (some 0)) ∧
    ∀ maxParallelism, keyGroupForKey treePickle Encodable.encode
      (decodeKey treePickle (encodeKey treePickle .highest (third "fractions" (some 0)))) maxParallelism =
        keyGroupForKey treePickle Encodable.encode (third "fractions" (some 0)) maxParallelism := by
  have unnamed : (third "fractions" (some 0)).Unnamed := by decide +kernel
  obtain ⟨equal,-,-,routed,-⟩ := (key_encoding_normal treePickle treePickle_lawful Encodable.encode).2 .highest
    (third "fractions" (some 0)) (third_valid _ _)
  exact ⟨equal,routed unnamed⟩

/-- The interned text comes back as another object, and the key to another group. -/
theorem class_name_rerouted : (third "fractions" none).Valid ∧
    ∃ maxParallelism, keyGroupForKey treePickle Encodable.encode
      (decodeKey treePickle (encodeKey treePickle .highest (third "fractions" none))) maxParallelism ≠
        keyGroupForKey treePickle Encodable.encode (third "fractions" none) maxParallelism := by
  refine ⟨third_valid _ _,not_forall.mp (fun routed => ?_)⟩
  have named : ¬ (third "fractions" none).Unnamed := by decide +kernel
  exact recovered_differs treePickle treePickle_lawful .highest _ (third_valid _ _) named .four
    (Encodable.encode_injective (digests_of_routed treePickle _ _ _ routed))

end PyObject
end Klein.State
