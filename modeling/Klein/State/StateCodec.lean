import Klein.Bytes
import Klein.Fallible

/-! Physical keys and values of managed state (`state/state_codec.py`). Pickle and
the hashes are parameters; `struct` is not. A name is its UTF-8 text. -/
namespace Klein.State
open Fallible List

inductive StateTTLUpdateType where
  | onCreateAndWrite | onReadAndWrite
deriving DecidableEq

inductive StateVisibility where
  | neverReturnExpired | returnExpiredIfNotCleanedUp
deriving DecidableEq

structure StateTTLConfig where
  ttlMilliseconds : Nat
  updateType : StateTTLUpdateType
  visibility : StateVisibility
deriving DecidableEq

structure StateDescriptor (Value : Type) where
  name : Bytes
  dumps : Value → Except String Bytes
  loads : Bytes → Except String Value
  ttlConfig : Option StateTTLConfig

inductive TimerDomain where
  | eventTime | processingTime
deriving DecidableEq

structure TimerEvent (Key : Type) where
  timestamp : Nat
  key : Key
  space : Key
  domain : TimerDomain
deriving DecidableEq

/-- Pickle for keys and namespaces, up to equality of keys. `encodePair` is
`encode_key((key, namespace))`; `keyHash` is the number that
`key_group_for_key` reduces. -/
structure KeyCodec (Key : Type) where
  encodeKey : Key → Except String Bytes
  decodeKey : Bytes → Except String Key
  encodePair : Key → Key → Except String Bytes
  dumpsPair : Key → Key → Except String Bytes
  loadsPair : Bytes → Except String (Key × Key)
  sha256 : Bytes → Bytes
  keyHash : Key → Nat

structure KeyCodec.Lawful {Key : Type} (codec : KeyCodec Key) : Prop where
  decode_encode : ∀ key encoded, codec.encodeKey key = .ok encoded → codec.decodeKey encoded = .ok key
  loads_dumps : ∀ key space encoded, codec.dumpsPair key space = .ok encoded → codec.loadsPair encoded = .ok (key,space)

/-- What is written is read back, as a copy that may differ from it in its encoding. -/
structure KeyCodec.Readable {Key : Type} (codec : KeyCodec Key) : Prop where
  decode_encode : ∀ key encoded, codec.encodeKey key = .ok encoded → ∃ copy, codec.decodeKey encoded = .ok copy
  loads_dumps : ∀ key space encoded, codec.dumpsPair key space = .ok encoded → ∃ copy, codec.loadsPair encoded = .ok copy

theorem KeyCodec.Lawful.readable {Key : Type} (codec : KeyCodec Key) (lawful : codec.Lawful) : codec.Readable :=
  ⟨fun key encoded ok => ⟨key,lawful.decode_encode key encoded ok⟩,
    fun key space encoded ok => ⟨(key,space),lawful.loads_dumps key space encoded ok⟩⟩

/-- Pickling of framework-owned snapshots as `β`, read by `restricted_pickle_loads`. -/
structure Pickle (α β : Type) where
  dumps : α → β
  loads : β → Except String α
  loads_dumps : ∀ value, loads (dumps value) = .ok value

def structError : String := "struct.error: argument out of range"

/-- `struct.pack(">I", …)` and `struct.pack(">Q", …)` -/
def packUnsigned (width : Nat) (value : Int) : Except String Bytes :=
  if 0 ≤ value ∧ value < 256 ^ width then .ok (Bytes.ofNat width value.toNat) else .error structError

/-- `struct.pack(">q", …)` -/
def packSigned (value : Int) : Except String Bytes :=
  if -2 ^ 63 ≤ value ∧ value < 2 ^ 63 then .ok (Bytes.ofNat 8 (value % 2 ^ 64).toNat) else .error structError

def unpackSigned (bytes : Bytes) : Int :=
  if bytes.toNat < 2 ^ 63 then bytes.toNat else bytes.toNat - 2 ^ 64

def component (value : Bytes) : Except String Bytes := (packUnsigned 4 value.length).map (· ++ value)

def readComponent (value : Bytes) : Except String (Bytes × Bytes) :=
  if value.length < 4 then .error "managed state key is truncated"
  else
    let size := Bytes.toNat (value.take 4)
    let rest := value.drop 4
    if rest.length < size then .error "managed state key is truncated" else .ok (rest.take size,rest.drop size)

def encodeStateValue (payload : Bytes) (expiresAt : Option Int) : Except String Bytes :=
  (packSigned (expiresAt.getD (-1))).map (· ++ payload)

def decodeStateValue (encoded : Bytes) : Except String (Option Int × Bytes) :=
  if encoded.length < 8 then .error "managed state value is truncated"
  else
    let expiry := unpackSigned (encoded.take 8)
    .ok (if expiry = -1 then none else some expiry,encoded.drop 8)

def encodeExpiryKey (expiresAt : Int) (stateKey : Bytes) : Except String Bytes :=
  (packUnsigned 8 expiresAt).map (· ++ stateKey)

def decodeExpiryKey (encoded : Bytes) : Except String (Nat × Bytes) :=
  if encoded.length < 8 then .error "state expiry key is truncated"
  else .ok (Bytes.toNat (encoded.take 8),encoded.drop 8)

def timerPrefix : TimerDomain → Bytes
  | .eventTime => [101]
  | .processingTime => [112]

variable {Key Value : Type} (codec : KeyCodec Key)

def stateKeyPrefix (descriptor : StateDescriptor Value) (key : Key) : Except String Bytes := do
  let name ← component descriptor.name
  let key ← component (← codec.encodeKey key)
  return name ++ key

def encodeStateKey (descriptor : StateDescriptor Value) (key space : Key) : Except String Bytes := do
  let name ← component descriptor.name
  let key ← component (← codec.encodeKey key)
  let space ← component (← codec.encodeKey space)
  return name ++ key ++ space

def readStateKey (encoded : Bytes) : Except String (Bytes × Bytes × Bytes) := do
  let (name,rest) ← readComponent encoded
  let (key,rest) ← readComponent rest
  let (space,rest) ← readComponent rest
  if rest = [] then return (name,key,space) else throw "managed state key contains trailing bytes"

def decodeStateNamespace (encoded : Bytes) : Except String Key := do
  let (_,_,space) ← readStateKey encoded
  codec.decodeKey space

def decodeStateKey (encoded : Bytes) : Except String (Bytes × Key × Key) := do
  let (name,key,space) ← readStateKey encoded
  return (name,← codec.decodeKey key,← codec.decodeKey space)

def encodeTimerKey (timestamp : Int) (key space : Key) (domain : TimerDomain) : Except String Bytes := do
  let payload ← codec.encodePair key space
  let stamp ← packUnsigned 8 timestamp
  return timerPrefix domain ++ stamp ++ codec.sha256 payload

def encodeTimerValue (key space : Key) : Except String Bytes := codec.dumpsPair key space

def decodeTimer (encodedKey encodedValue : Bytes) : Except String (Nat × Key × Key) :=
  if encodedKey.length < 9 then .error "state timer key is truncated"
  else do
    let (key,space) ← codec.loadsPair encodedValue
    return (Bytes.toNat ((encodedKey.drop 1).take 8),key,space)

/-- `key_group_for_key` (`state/key_group_range.py`) -/
def keyGroupForKey (key : Key) (maxParallelism : Nat) : Except String Nat :=
  if maxParallelism < 1 then .error "max_parallelism must be at least 1" else .ok (codec.keyHash key % maxParallelism)

section laws

theorem packUnsigned_ok (width : Nat) (value : Int) (packed : Bytes) (ok : packUnsigned width value = .ok packed) :
    0 ≤ value ∧ value < 256 ^ width ∧ packed.length = width ∧ (Bytes.toNat packed : Int) = value := by
  unfold packUnsigned at ok
  split at ok
  next fits =>
    cases ok
    have small : value.toNat < 256 ^ width := by
      have same : ((256 ^ width : Nat) : Int) = 256 ^ width := by simp
      omega
    refine ⟨fits.1,fits.2,Bytes.length_ofNat _ _,?_⟩
    rw [Bytes.toNat_ofNat width _ small]
    omega
  next => contradiction

theorem packSigned_ok (value : Int) (packed : Bytes) (ok : packSigned value = .ok packed) :
    packed.length = 8 ∧ unpackSigned packed = value := by
  unfold packSigned at ok
  split at ok
  next fits =>
    cases ok
    refine ⟨Bytes.length_ofNat _ _,?_⟩
    unfold unpackSigned
    rw [Bytes.toNat_ofNat 8 _ (by omega)]
    split <;> omega
  next => contradiction

theorem readComponent_component (value encoded rest : Bytes) (ok : component value = .ok encoded) :
    readComponent (encoded ++ rest) = .ok (value,rest) := by
  obtain ⟨size,packed,rfl⟩ := map_ok ok
  obtain ⟨-,-,length,number⟩ := packUnsigned_ok 4 _ size packed
  have taken : ((size ++ value) ++ rest).take 4 = size := by
    rw [append_assoc,← length]
    exact take_left
  have dropped : ((size ++ value) ++ rest).drop 4 = value ++ rest := by
    rw [append_assoc,← length]
    exact drop_left
  have counted : Bytes.toNat size = value.length := by exact_mod_cast number
  unfold readComponent
  dsimp only
  rw [taken,dropped,counted,if_neg (by simp [length]),if_neg (by simp),take_left,drop_left]

theorem readStateKey_components (name key space name' key' space' : Bytes) (first : component name = .ok name')
    (second : component key = .ok key') (third : component space = .ok space') :
    readStateKey (name' ++ key' ++ space') = .ok (name,key,space) := by
  have last := readComponent_component space space' [] third
  rw [append_nil] at last
  unfold readStateKey
  rw [append_assoc,ok_bind (readComponent_component name name' _ first)]
  dsimp only
  rw [ok_bind (readComponent_component key key' _ second)]
  dsimp only
  rw [ok_bind last]
  exact if_pos rfl

theorem readStateKey_encode (descriptor : StateDescriptor Value) (key space : Key) (encoded : Bytes)
    (ok : encodeStateKey codec descriptor key space = .ok encoded) :
    ∃ encodedKey encodedSpace, codec.encodeKey key = .ok encodedKey ∧ codec.encodeKey space = .ok encodedSpace ∧
      readStateKey encoded = .ok (descriptor.name,encodedKey,encodedSpace) := by
  obtain ⟨name,first,ok⟩ := bind_ok ok
  obtain ⟨key',keyed,ok⟩ := bind_ok ok
  obtain ⟨key'',second,ok⟩ := bind_ok ok
  obtain ⟨space',spaced,ok⟩ := bind_ok ok
  obtain ⟨space'',third,ok⟩ := bind_ok ok
  cases ok
  exact ⟨key',space',keyed,spaced,readStateKey_components _ _ _ _ _ _ first second third⟩

theorem decodeStateKey_encode (lawful : codec.Lawful) (descriptor : StateDescriptor Value) (key space : Key)
    (encoded : Bytes) (ok : encodeStateKey codec descriptor key space = .ok encoded) :
    decodeStateKey codec encoded = .ok (descriptor.name,key,space) := by
  obtain ⟨_,_,keyed,spaced,read⟩ := readStateKey_encode codec descriptor key space encoded ok
  unfold decodeStateKey
  rw [ok_bind read]
  dsimp only
  rw [ok_bind (lawful.decode_encode _ _ keyed),ok_bind (lawful.decode_encode _ _ spaced)]
  rfl

theorem decodeStateKey_copy (readable : codec.Readable) (descriptor : StateDescriptor Value) (key space : Key)
    (encoded : Bytes) (ok : encodeStateKey codec descriptor key space = .ok encoded) :
    ∃ key' space', decodeStateKey codec encoded = .ok (descriptor.name,key',space') := by
  obtain ⟨_,_,keyed,spaced,read⟩ := readStateKey_encode codec descriptor key space encoded ok
  obtain ⟨key',keyed⟩ := readable.decode_encode _ _ keyed
  obtain ⟨space',spaced⟩ := readable.decode_encode _ _ spaced
  refine ⟨key',space',?_⟩
  unfold decodeStateKey
  rw [ok_bind read]
  dsimp only
  rw [ok_bind keyed,ok_bind spaced]
  rfl

theorem decodeStateValue_encode (payload encoded : Bytes) (expiresAt : Option Int)
    (ok : encodeStateValue payload expiresAt = .ok encoded) :
    decodeStateValue encoded = .ok (if expiresAt = some (-1) then none else expiresAt,payload) := by
  obtain ⟨expiry,packed,rfl⟩ := map_ok ok
  obtain ⟨length,number⟩ := packSigned_ok _ expiry packed
  have taken : (expiry ++ payload).take 8 = expiry := by
    rw [← length]
    exact take_left
  have dropped : (expiry ++ payload).drop 8 = payload := by
    rw [← length]
    exact drop_left
  unfold decodeStateValue
  dsimp only
  rw [taken,dropped,number,if_neg (by simp [length])]
  cases expiresAt with
  | none => simp
  | some value => by_cases unset : value = -1 <;> simp [unset]

theorem decodeExpiryKey_encode (expiresAt : Int) (stateKey encoded : Bytes)
    (ok : encodeExpiryKey expiresAt stateKey = .ok encoded) :
    ∃ stamp : Nat, (stamp : Int) = expiresAt ∧ decodeExpiryKey encoded = .ok (stamp,stateKey) := by
  obtain ⟨stamp,packed,rfl⟩ := map_ok ok
  obtain ⟨-,-,length,number⟩ := packUnsigned_ok 8 _ stamp packed
  have taken : (stamp ++ stateKey).take 8 = stamp := by
    rw [← length]
    exact take_left
  have dropped : (stamp ++ stateKey).drop 8 = stateKey := by
    rw [← length]
    exact drop_left
  refine ⟨Bytes.toNat stamp,number,?_⟩
  unfold decodeExpiryKey
  rw [taken,dropped,if_neg (by simp [length])]

end laws
end Klein.State
