import Klein.Fallible
import Klein.Sql.Value

/-! The keys of an equi-join: `encode_join_key` of the batch engine
(`_internal/sql/batch_join.py`), which encodes one component after the other, and
`encode_key` of the whole tuple, under which the streaming join
(`runtime/operator/sql_join_operator.py`) stores its rows. -/
namespace Klein.Sql
open Fallible List

/-- What is handed to pickle: a canonical scalar, a tuple of them with the place where
each remembered object of it was met first, or a group key, which reduces to its bytes. -/
inductive Pickled (ζ : Type) where
  | scalar (identity : Identity ζ)
  | tuple (identities : List (Identity ζ)) (places : List Nat)
  | group (identity : Bytes)
  deriving DecidableEq

/-- A component of a key and the objects that pickle remembers while it writes it: the
string, bytes or datetime itself, its zone, the names of classes; nothing of a number
but a name. -/
structure Component (ζ : Type) where
  value : Value ζ
  objects : List Nat

/-- A tuple of components. How many objects of one are remembered depends on what is
written of it. -/
structure JoinKey {ζ : Type} (remembered : Identity ζ → Nat) where
  components : List (Component ζ)
  visited : ∀ component ∈ components, component.objects.length = remembered component.value.identity

section
variable {ζ : Type} {remembered : Identity ζ → Nat} (key : JoinKey remembered)

def JoinKey.values : List (Value ζ) := key.components.map Component.value

def JoinKey.HasNull : Prop := .null ∈ key.values

def JoinKey.places : List Nat :=
  let objects := key.components.flatMap Component.objects
  objects.map objects.idxOf

variable [DecidableEq ζ] (zones : Zones ζ) (pickle : Pickled ζ → Bytes)

instance : Decidable key.HasNull := inferInstanceAs (Decidable (_ ∈ _))

/-- `encode_key` of the tuple. -/
def encodeKey : Except String Bytes := do
  let identities ← key.values.mapM Value.canonicalize
  return pickle (.tuple identities key.places)

/-- One past the last microsecond of `datetime.max`. -/
def clockLimit : Int := 315537897600000000

/-- `value.astimezone(timezone.utc)` of an aware datetime; the zone of UTC itself
returns the datetime unchanged. -/
def astimezone : Value ζ → Except String (Value ζ)
  | .aware clock fold zone =>
    if zone = zones.utc then .ok (.aware clock fold zone)
    else if 0 ≤ zones.instant clock fold zone ∧ zones.instant clock fold zone < clockLimit then
      .ok (.aware (zones.instant clock fold zone) false zones.utc)
    else .error "date value out of range"
  | value => .ok value

def encodeValue (value : Value ζ) : Except String Bytes := do
  let moved ← astimezone zones value
  let identity ← moved.stateValueKey
  return pickle (.scalar identity)

/-- `len(part).to_bytes(8, "big") + part`. -/
def frame (part : Bytes) : Except String Bytes :=
  if part.length < 256 ^ 8 then .ok (Bytes.ofNat 8 part.length ++ part) else .error "int too big to convert"

/-- `b"\x00left"` and `b"\x00right"`. -/
def nullToken (left : Bool) : Bytes := if left then [0,108,101,102,116] else [0,114,105,103,104,116]

def encodeJoinKey (left : Bool) : Except String Bytes :=
  if key.HasNull then .ok (nullToken left)
  else do
    let parts ← key.values.mapM (encodeValue zones pickle)
    let framed ← parts.mapM frame
    return 1::framed.flatten

/-- The key under which `process_managed_element` keeps a row, if it keeps it: the key
is encoded before its components are checked for NULL. -/
def storedUnder : Option Bytes :=
  match encodeKey key pickle with
  | .error _ => none
  | .ok encoded => if key.HasNull then none else some encoded

end

namespace JoinKeys
variable {ζ : Type}

theorem frames_injective (parts parts' framed framed' : List Bytes) (done : parts.mapM frame = .ok framed)
    (done' : parts'.mapM frame = .ok framed') (same : framed.flatten = framed'.flatten) : parts = parts' := by
  have one (part : Bytes) (rest framed : List Bytes) (done : (part::rest).mapM frame = .ok framed) :
      part.length < 256 ^ 8 ∧ ∃ others, rest.mapM frame = .ok others ∧
        framed.flatten = Bytes.ofNat 8 part.length ++ (part ++ others.flatten) := by
    rw [mapM_cons] at done
    obtain ⟨first,here,done⟩ := bind_ok done
    obtain ⟨others,later,done⟩ := bind_ok done
    cases done
    unfold frame at here
    split at here
    next short =>
      cases here
      exact ⟨short,others,later,by simp⟩
    next => cases here
  have some' (part : Bytes) (tail : Bytes) : Bytes.ofNat 8 part.length ++ (part ++ tail) ≠ [] := by
    intro empty
    have length := congrArg List.length empty
    simp at length
  induction parts generalizing parts' framed framed' with
  | nil =>
    cases done
    cases parts' with
    | nil => rfl
    | cons part' rest' =>
      obtain ⟨-,others',-,written⟩ := one part' rest' framed' done'
      exact absurd (same.trans written).symm (some' part' _)
  | cons part rest ih =>
    obtain ⟨short,others,later,written⟩ := one part rest framed done
    cases parts' with
    | nil =>
      cases done'
      exact absurd (written.symm.trans same) (some' part _)
    | cons part' rest' =>
      obtain ⟨short',others',later',written'⟩ := one part' rest' framed' done'
      rw [written,written'] at same
      obtain ⟨sizes,tails⟩ := append_inj same (by rw [Bytes.length_ofNat,Bytes.length_ofNat])
      have length : part.length = part'.length := by
        rw [← Bytes.toNat_ofNat 8 part.length short,sizes,Bytes.toNat_ofNat 8 part'.length short']
      obtain ⟨rfl,flat⟩ := append_inj tails length
      rw [ih rest' others others' later later' flat]

theorem canonicalize_mapM (values : List (Value ζ)) (identities : List (Identity ζ)) :
    values.mapM Value.canonicalize = .ok identities ↔
      (∀ value ∈ values, ¬ value.IsNaN) ∧ values.map Value.identity = identities := by
  induction values generalizing identities with
  | nil =>
    constructor
    · intro done
      cases done
      simp
    · rintro ⟨-,rfl⟩
      rfl
  | cons value rest ih =>
    rw [mapM_cons,forall_mem_cons]
    constructor
    · intro done
      obtain ⟨first,here,done⟩ := bind_ok done
      obtain ⟨others,later,done⟩ := bind_ok done
      cases done
      obtain ⟨number,rfl⟩ := (value.canonicalize_ok first).mp here
      obtain ⟨numbers,rfl⟩ := (ih others).mp later
      exact ⟨⟨number,numbers⟩,rfl⟩
    · rintro ⟨⟨number,numbers⟩,rfl⟩
      rw [ok_bind ((value.canonicalize_ok _).mpr ⟨number,rfl⟩),
        ok_bind ((ih _).mpr ⟨numbers,rfl⟩)]
      rfl

variable [DecidableEq ζ] (zones : Zones ζ) (pickle : Pickled ζ → Bytes)

def written (moved : Value ζ) : Bytes := pickle (.scalar moved.identity)

theorem encodeValue_eq (value : Value ζ) : encodeValue zones pickle value = (astimezone zones value).map (written pickle) := by
  unfold encodeValue
  cases astimezone zones value with
  | error raised => rfl
  | ok moved =>
    change (moved.stateValueKey >>= fun identity => Except.ok (pickle (.scalar identity))) = _
    rw [ok_bind moved.stateValueKey_eq]
    rfl

theorem encodeValue_mapM (values : List (Value ζ)) (parts : List Bytes) :
    values.mapM (encodeValue zones pickle) = .ok parts ↔
      ∃ moved, values.mapM (astimezone zones) = .ok moved ∧ parts = moved.map (written pickle) := by
  induction values generalizing parts with
  | nil =>
    constructor
    · intro done
      cases done
      exact ⟨[],rfl,rfl⟩
    · rintro ⟨moved,done,rfl⟩
      cases done
      rfl
  | cons value rest ih =>
    constructor
    · intro done
      rw [mapM_cons] at done
      obtain ⟨first,here,done⟩ := bind_ok done
      obtain ⟨others,later,done⟩ := bind_ok done
      cases done
      rw [encodeValue_eq] at here
      obtain ⟨head,converted,rfl⟩ := map_ok here
      obtain ⟨tail,convertible,rfl⟩ := (ih others).mp later
      refine ⟨head::tail,?_,rfl⟩
      rw [mapM_cons,ok_bind converted,ok_bind convertible]
      rfl
    · rintro ⟨moved,done,rfl⟩
      rw [mapM_cons] at done
      obtain ⟨head,converted,done⟩ := bind_ok done
      obtain ⟨tail,convertible,done⟩ := bind_ok done
      cases done
      have first : encodeValue zones pickle value = .ok (written pickle head) := by
        rw [encodeValue_eq,converted]
        rfl
      rw [mapM_cons,ok_bind first,ok_bind ((ih _).mpr ⟨tail,convertible,rfl⟩)]
      rfl

theorem frame_mapM (parts : List Bytes) : (∃ framed, parts.mapM frame = .ok framed) ↔ ∀ part ∈ parts, part.length < 256 ^ 8 := by
  have one (part : Bytes) : (∃ framed, frame part = .ok framed) ↔ part.length < 256 ^ 8 := by
    unfold frame
    split
    next short => exact ⟨fun _ => short,fun _ => ⟨_,rfl⟩⟩
    next long =>
      constructor
      · rintro ⟨framed,done⟩
        cases done
      · exact fun short => absurd short long
  constructor
  · rintro ⟨framed,done⟩ part inside
    exact (one part).mp (of_mapM_ok parts frame framed done part inside)
  · intro short
    obtain ⟨framed,done,-⟩ := mapM_ok parts frame (fun part inside => (one part).mpr (short part inside))
    exact ⟨framed,done⟩

variable {remembered : Identity ζ → Nat} (left right : JoinKey remembered)

/-- The keys of both sides have no NaN, one identity for each component, the zones of
datetimes included, and share their objects in one way. -/
def Alike : Prop :=
  (∀ value ∈ left.values, ¬ value.IsNaN) ∧ left.values.map Value.identity = right.values.map Value.identity ∧
    left.places = right.places

def EqualInUtc : Prop :=
  ∃ moved moved', left.values.mapM (astimezone zones) = .ok moved ∧ right.values.mapM (astimezone zones) = .ok moved' ∧
    moved.map Value.identity = moved'.map Value.identity

def Writable : Prop :=
  ∃ moved, left.values.mapM (astimezone zones) = .ok moved ∧ ∀ value ∈ moved, (written pickle value).length < 256 ^ 8

def BatchMatches : Prop :=
  ∃ encoded, encodeJoinKey left zones pickle true = .ok encoded ∧ encodeJoinKey right zones pickle false = .ok encoded

def StreamMatches : Prop := ∃ encoded, storedUnder left pickle = some encoded ∧ storedUnder right pickle = some encoded

def EnginesAgree : Prop :=
  (¬ left.HasNull → ¬ right.HasNull → (BatchMatches zones pickle left right ↔ StreamMatches pickle left right)) ∧
    (left.HasNull ∨ right.HasNull → ¬ BatchMatches zones pickle left right ∧ ¬ StreamMatches pickle left right)

theorem storedUnder_eq (key : JoinKey remembered) (encoded : Bytes) : storedUnder key pickle = some encoded ↔
    ¬ key.HasNull ∧ (∀ value ∈ key.values, ¬ value.IsNaN) ∧
      pickle (.tuple (key.values.map Value.identity) key.places) = encoded := by
  unfold storedUnder encodeKey
  cases canonical : key.values.mapM Value.canonicalize with
  | error raised =>
    constructor
    · intro stored
      cases stored
    · rintro ⟨-,numbers,-⟩
      rw [(canonicalize_mapM key.values _).mpr ⟨numbers,rfl⟩] at canonical
      cases canonical
  | ok identities =>
    obtain ⟨numbers,rfl⟩ := (canonicalize_mapM key.values identities).mp canonical
    by_cases absent : key.HasNull
    · simp [absent,bind,Except.bind,pure,Except.pure]
    · have kept : (∀ value ∈ key.values, ¬ value.IsNaN) ↔ True := iff_true_intro numbers
      simp [absent,bind,Except.bind,pure,Except.pure,kept]

theorem stream_iff (injective : Function.Injective pickle) (known : ¬ left.HasNull) (known' : ¬ right.HasNull) :
    StreamMatches pickle left right ↔ Alike left right := by
  unfold StreamMatches Alike
  constructor
  · rintro ⟨encoded,stored,stored'⟩
    obtain ⟨-,numbers,dumped⟩ := (storedUnder_eq pickle left encoded).mp stored
    obtain ⟨-,-,dumped'⟩ := (storedUnder_eq pickle right encoded).mp stored'
    obtain ⟨identities,places⟩ := Pickled.tuple.inj (injective (dumped.trans dumped'.symm))
    exact ⟨numbers,identities,places⟩
  · rintro ⟨numbers,identities,places⟩
    have numbers' : ∀ value ∈ right.values, ¬ value.IsNaN := by
      have canonical := (canonicalize_mapM left.values _).mpr ⟨numbers,identities⟩
      intro value inside nan
      have inside' : value.identity ∈ left.values.map Value.identity := by
        rw [identities]
        exact List.mem_map_of_mem inside
      obtain ⟨twin,within,same⟩ := List.mem_map.mp inside'
      exact numbers twin within ((twin.isNaN_of_identity value same).mpr nan)
    refine ⟨_,(storedUnder_eq pickle left _).mpr ⟨known,numbers,rfl⟩,(storedUnder_eq pickle right _).mpr ⟨known',numbers',?_⟩⟩
    rw [identities,places]

theorem encodeJoinKey_eq (key : JoinKey remembered) (side : Bool) (known : ¬ key.HasNull) (encoded : Bytes) :
    encodeJoinKey key zones pickle side = .ok encoded ↔
      ∃ moved framed, key.values.mapM (astimezone zones) = .ok moved ∧
        (moved.map (written pickle)).mapM frame = .ok framed ∧ encoded = 1::framed.flatten := by
  unfold encodeJoinKey
  rw [if_neg known]
  constructor
  · intro done
    obtain ⟨parts,encodes,done⟩ := bind_ok done
    obtain ⟨framed,frames,done⟩ := bind_ok done
    cases done
    obtain ⟨moved,converts,rfl⟩ := (encodeValue_mapM zones pickle key.values parts).mp encodes
    exact ⟨moved,framed,converts,frames,rfl⟩
  · rintro ⟨moved,framed,converts,frames,rfl⟩
    rw [ok_bind ((encodeValue_mapM zones pickle key.values _).mpr ⟨moved,converts,rfl⟩),
      ok_bind frames]
    rfl

theorem batch_iff (injective : Function.Injective pickle) (known : ¬ left.HasNull) (known' : ¬ right.HasNull) :
    BatchMatches zones pickle left right ↔ EqualInUtc zones left right ∧ Writable zones pickle left := by
  unfold BatchMatches
  constructor
  · rintro ⟨encoded,done,done'⟩
    obtain ⟨moved,framed,converts,frames,rfl⟩ := (encodeJoinKey_eq zones pickle left true known encoded).mp done
    obtain ⟨moved',framed',converts',frames',same⟩ := (encodeJoinKey_eq zones pickle right false known' _).mp done'
    have parts := frames_injective _ _ _ _ frames frames' (List.cons.inj same).2
    have scalars : Function.Injective (fun identity : Identity ζ => pickle (.scalar identity)) :=
      fun one other same => Pickled.scalar.inj (injective same)
    refine ⟨⟨moved,moved',converts,converts',scalars.list_map ?_⟩,moved,converts,fun value inside => ?_⟩
    · rw [List.map_map,List.map_map]
      exact parts
    · exact (frame_mapM _).mp ⟨framed,frames⟩ _ (List.mem_map_of_mem inside)
  · rintro ⟨⟨moved,moved',converts,converts',same⟩,again,converts'',short⟩
    obtain rfl := Except.ok.inj (converts.symm.trans converts'')
    obtain ⟨framed,frames⟩ := (frame_mapM (moved.map (written pickle))).mpr (by simpa using short)
    have parts : moved'.map (written pickle) = moved.map (written pickle) := by
      have dumps := congrArg (List.map (fun identity : Identity ζ => pickle (.scalar identity))) same
      rw [List.map_map,List.map_map] at dumps
      exact dumps.symm
    refine ⟨_,(encodeJoinKey_eq zones pickle left true known _).mpr ⟨moved,framed,converts,frames,rfl⟩,
      (encodeJoinKey_eq zones pickle right false known' _).mpr ⟨moved',framed,converts',?_,rfl⟩⟩
    rw [parts]
    exact frames

theorem batch_null (absent : left.HasNull ∨ right.HasNull) : ¬ BatchMatches zones pickle left right := by
  rintro ⟨encoded,done,done'⟩
  have token (key : JoinKey remembered) (side : Bool) (encoded : Bytes) (done : encodeJoinKey key zones pickle side = .ok encoded) :
      (key.HasNull ∧ encoded = nullToken side) ∨ (¬ key.HasNull ∧ ∃ tail, encoded = 1::tail) := by
    by_cases null : key.HasNull
    · unfold encodeJoinKey at done
      rw [if_pos null] at done
      exact .inl ⟨null,(Except.ok.inj done).symm⟩
    · obtain ⟨-,framed,-,-,rfl⟩ := (encodeJoinKey_eq zones pickle key side null encoded).mp done
      exact .inr ⟨null,framed.flatten,rfl⟩
  have one := token left true encoded done
  have other := token right false encoded done'
  rcases one with ⟨-,rfl⟩ | ⟨known,tail,rfl⟩
  · rcases other with ⟨-,same⟩ | ⟨-,tail,same⟩
    · simp [nullToken] at same
    · simp [nullToken] at same
  · rcases other with ⟨-,same⟩ | ⟨known',-⟩
    · simp [nullToken] at same
    · exact absent.elim known known'

theorem stream_null (absent : left.HasNull ∨ right.HasNull) : ¬ StreamMatches pickle left right := by
  rintro ⟨encoded,stored,stored'⟩
  exact absent.elim ((storedUnder_eq pickle left encoded).mp stored).1 ((storedUnder_eq pickle right encoded).mp stored').1

/-- The engines match the same keys exactly when keys that are equal in UTC have no NaN,
the same zones and the same shared objects, and keys that are all the same can be written
component by component. -/
theorem engines_agree_iff (injective : Function.Injective pickle) : EnginesAgree zones pickle left right ↔
    (¬ left.HasNull → ¬ right.HasNull →
      (EqualInUtc zones left right → Writable zones pickle left → Alike left right) ∧
        (Alike left right → EqualInUtc zones left right ∧ Writable zones pickle left)) := by
  unfold EnginesAgree
  constructor
  · rintro ⟨agree,-⟩ known known'
    have same := agree known known'
    rw [batch_iff zones pickle left right injective known known',stream_iff pickle left right injective known known'] at same
    exact ⟨fun equal writable => same.mp ⟨equal,writable⟩,same.mpr⟩
  · intro exactly
    refine ⟨fun known known' => ?_,fun absent => ⟨batch_null zones pickle left right absent,stream_null pickle left right absent⟩⟩
    rw [batch_iff zones pickle left right injective known known',stream_iff pickle left right injective known known']
    obtain ⟨forward,backward⟩ := exactly known known'
    exact ⟨fun both => forward both.1 both.2,backward⟩

section runs

instance encodableChar : Encodable Char := Encodable.ofLeftInverse Char.toNat Char.ofNat Char.ofNat_toNat
instance encodableString : Encodable String := Encodable.ofLeftInverse String.toList String.ofList (fun text => by simp)
deriving instance Encodable for NaNKind
deriving instance Encodable for Identity
deriving instance Encodable for Pickled

def offsets : Zones Int := ⟨fun zone _ _ => zone,0,fun zone => zone = 0⟩

/-- Pickle, protocol 4, of the string `qz`, of a pair of it that is one object and of one
that is two. -/
def table : List (Pickled Int × Bytes) :=
  [(.scalar (.text "qz"),[128,4,149,6,0,0,0,0,0,0,0,140,2,113,122,148,46]),
    (.tuple [.text "qz",.text "qz"] [0,0],[128,4,149,10,0,0,0,0,0,0,0,140,2,113,122,148,104,0,134,148,46]),
    (.tuple [.text "qz",.text "qz"] [0,1],
      [128,4,149,13,0,0,0,0,0,0,0,140,2,113,122,148,140,2,113,122,148,134,148,46])]

def dumps (pickled : Pickled Int) : Bytes := (table.lookup pickled).getD (List.replicate (Encodable.encode pickled) 0)

theorem table_injective {α : Type} [DecidableEq α] [Encodable α] (table : List (α × Bytes))
    (distinct : ∀ one ∈ table, ∀ other ∈ table, one.2 = other.2 → one.1 = other.1)
    (marked : ∀ entry ∈ table, entry.2.head? = some 128) :
    Function.Injective (fun value => (table.lookup value).getD (List.replicate (Encodable.encode value) 0)) := by
  have cases' (value : α) : (value,(table.lookup value).getD (List.replicate (Encodable.encode value) 0)) ∈ table ∨
      (table.lookup value).getD (List.replicate (Encodable.encode value) 0) = List.replicate (Encodable.encode value) 0 := by
    cases found : table.lookup value with
    | none => exact .inr rfl
    | some encoded =>
      obtain ⟨before,after,split,-⟩ := lookup_eq_some_iff.mp found
      exact .inl (by simp [split])
  have zeros (count : Nat) : (List.replicate count (0 : Fin 256)).head? ≠ some 128 := by
    cases count with
    | zero => simp
    | succ count => simp [replicate_succ]
  intro one other same
  dsimp only at same
  rcases cases' one with listed | plain
  · rcases cases' other with listed' | plain'
    · exact distinct _ listed _ listed' same
    · refine absurd (marked _ listed) ?_
      rw [same,plain']
      exact zeros _
  · rcases cases' other with listed' | plain'
    · refine absurd (marked _ listed') ?_
      rw [← same,plain]
      exact zeros _
    · rw [plain,plain'] at same
      exact Encodable.encode_injective (replicate_left_injective 0 same)

theorem dumps_injective : Function.Injective dumps := table_injective table (by decide) (by decide)

def strings : Identity Int → Nat
  | .text _ => 1
  | _ => 0

def pair (first second : Nat) : JoinKey strings := ⟨[⟨.text "qz",[first]⟩,⟨.text "qz",[second]⟩],by
  simp [strings,Value.identity]⟩

theorem pair_known (first second : Nat) : ¬ (pair first second).HasNull := by
  simp [JoinKey.HasNull,JoinKey.values,pair]

theorem pair_moved (first second : Nat) :
    (pair first second).values.mapM (astimezone offsets) = .ok [.text "qz",.text "qz"] := rfl

theorem pair_writable (first second : Nat) : Writable offsets dumps (pair first second) := by
  refine ⟨_,pair_moved first second,?_⟩
  decide

theorem pair_equal (first second third fourth : Nat) : EqualInUtc offsets (pair first second) (pair third fourth) :=
  ⟨_,_,pair_moved first second,pair_moved third fourth,rfl⟩

/-- Two rows whose two key columns hold one string object each match on both engines. -/
theorem shared_pairs_agree : EnginesAgree offsets dumps (pair 0 0) (pair 1 1) := by
  apply (engines_agree_iff offsets dumps (pair 0 0) (pair 1 1) dumps_injective).mpr
  intro _ _
  refine ⟨fun _ _ => ⟨?_,rfl,rfl⟩,fun _ => ⟨pair_equal 0 0 1 1,pair_writable 0 0⟩⟩
  decide

/-- A row whose key columns hold one string object does not meet a row that holds two
equal ones in the streaming join. -/
theorem shared_pair_misses : ¬ EnginesAgree offsets dumps (pair 0 0) (pair 1 2) := by
  intro agree
  have batch := (batch_iff offsets dumps (pair 0 0) (pair 1 2) dumps_injective (pair_known 0 0) (pair_known 1 2)).mpr
    ⟨pair_equal 0 0 1 2,pair_writable 0 0⟩
  have stream := (agree.1 (pair_known 0 0) (pair_known 1 2)).mp batch
  obtain ⟨-,-,places⟩ :=
    (stream_iff dumps (pair 0 0) (pair 1 2) dumps_injective (pair_known 0 0) (pair_known 1 2)).mp stream
  exact absurd places (by decide)

end runs

end JoinKeys
end Klein.Sql
