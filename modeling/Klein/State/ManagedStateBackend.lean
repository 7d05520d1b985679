import Klein.Dict
import Klein.State.StateCodec

/-! The contract of managed state (`state/managed_state_backend.py`) and what its
two backends compute alike. An operation carries the readings of the clock that it
makes; `snapshotAndRestore` is `snapshot_key_groups` followed by
`restore_key_groups` on its result. -/
namespace Klein.State

inductive Operation (Key Value : Type) where
  | setCurrentKey (key : Key)
  | currentKey
  | get (descriptor : StateDescriptor Value) (space : Key) (now later : Int)
  | put (descriptor : StateDescriptor Value) (value : Value) (space : Key) (now : Int)
  | delete (descriptor : StateDescriptor Value) (space : Key)
  | namespaces (descriptor : StateDescriptor Value)
  | registerTimer (timestamp : Int) (space : Key) (domain : TimerDomain)
  | deleteTimer (timestamp : Int) (space : Key) (domain : TimerDomain)
  | popDueTimers (timestamp : Int) (domain : TimerDomain) (limit : Option Int)
  | cleanupExpired (nowMs : Option Int) (limit : Option Int) (now : Int)
  | snapshotAndRestore (maxParallelism : Nat) (positive : 0 < maxParallelism) (keyGroups : List Nat)

inductive Result (Key Value : Type) where
  | nothing
  | key (key : Key)
  | value (value : Option Value)
  | namespaces (spaces : List Key)
  | timers (events : List (TimerEvent Key))
  | removed (count : Nat)
deriving DecidableEq

def currentKeyUnset : String := "current key is not set"
def negativeTimer : String := "timer timestamp must be non-negative"

section access
variable {Value : Type} (descriptor : StateDescriptor Value)

/-- `_expiry_for` -/
def expiryFor (now : Int) : Option Int := descriptor.ttlConfig.map (fun ttl => now + ttl.ttlMilliseconds)

def hides (expiresAt : Option Int) (now : Int) : Bool :=
  expiresAt.any (fun expiresAt => expiresAt ≤ now) &&
    descriptor.ttlConfig.all (fun ttl => ttl.visibility = .neverReturnExpired)

def refreshes : Bool := descriptor.ttlConfig.any (fun ttl => ttl.updateType = .onReadAndWrite)

/-- What `put` stores. -/
def encodeValue (value : Value) (expiresAt : Option Int) : Except String Bytes := do
  encodeStateValue (← descriptor.dumps value) expiresAt

end access

def expiryKey (stateKey : Bytes) : Option Int → Except String (Option Bytes)
  | none => .ok none
  | some expiresAt => (encodeExpiryKey expiresAt stateKey).map some

def indexKey (stateKey : Bytes) : Option Bytes → Except String (Option Bytes)
  | none => .ok none
  | some encoded => do
    let (expiresAt,_) ← decodeStateValue encoded
    expiryKey stateKey expiresAt

def isCurrent (expiresAt : Nat) : Option Bytes → Except String Bool
  | none => .ok false
  | some encoded => do
    let (stored,_) ← decodeStateValue encoded
    return stored = some (expiresAt : Int)

def limitReached (limit : Option Int) (processed : Nat) : Bool := limit.any (fun limit => limit ≤ (processed : Int))

section timers
variable {Key : Type} (codec : KeyCodec Key)

/-- What `register_timer` writes for the current key; the value is encoded first. -/
def timerEntry (currentKey : Except String Key) (timestamp : Int) (space : Key) (domain : TimerDomain) :
    Except String (Bytes × Bytes) := do
  let key ← currentKey
  let encodedValue ← encodeTimerValue codec key space
  return (← encodeTimerKey codec timestamp key space domain,encodedValue)

/-- The loop of `pop_due_timers` over the timers of a domain. -/
def dueTimers (timestamp : Int) (domain : TimerDomain) (limit : Option Int) :
    Nat → List (Bytes × Bytes) → Except String (List (TimerEvent Key))
  | _,[] => .ok []
  | count,(encodedKey,encodedValue)::rest => do
    let (stamp,key,space) ← decodeTimer codec encodedKey encodedValue
    if timestamp < stamp then return []
    else
      let event : TimerEvent Key := ⟨stamp,key,space,domain⟩
      if limitReached limit (count + 1) then return [event]
      else return event::(← dueTimers timestamp domain limit (count + 1) rest)

def timerKeys : List (TimerEvent Key) → List Bytes × Except String Unit
  | [] => ([],.ok ())
  | event::rest =>
    match encodeTimerKey codec event.timestamp event.key event.space event.domain with
    | .error raised => ([],.error raised)
    | .ok encodedKey => (encodedKey::(timerKeys rest).1,(timerKeys rest).2)

end timers

inductive ColumnFamily where
  | state | expiry | timers
deriving DecidableEq

def ColumnFamily.name : ColumnFamily → String
  | .state => "state"
  | .expiry => "expiry"
  | .timers => "timers"

/-- The contents of a key-group snapshot: dictionaries in memory, lists of entries in RocksDB. -/
structure KeyGroupContents (γ : Type) where
  state : γ
  expiry : γ
  timers : γ
deriving DecidableEq

def KeyGroupContents.of {γ : Type} (contents : KeyGroupContents γ) : ColumnFamily → γ
  | .state => contents.state
  | .expiry => contents.expiry
  | .timers => contents.timers

section keyGroups
variable {Key : Type} (codec : KeyCodec Key) (maxParallelism : Nat)

def stateGroup (entry : Bytes × Bytes) : Except String Nat := do
  let (_,key,_) ← decodeStateKey codec entry.1
  keyGroupForKey codec key maxParallelism

def expiryGroup (entry : Bytes × Bytes) : Except String Nat := do
  let (_,stateKey) ← decodeExpiryKey entry.1
  let (_,key,_) ← decodeStateKey codec stateKey
  keyGroupForKey codec key maxParallelism

def timerGroup (entry : Bytes × Bytes) : Except String Nat := do
  let (_,key,_) ← decodeTimer codec entry.1 entry.2
  keyGroupForKey codec key maxParallelism

/-- One loop of `snapshot_key_groups`: each entry goes to the bucket of its group. -/
def bucketed {γ : Type} (empty : γ) (groupOf : Bytes × Bytes → Except String Nat) (add : γ → Bytes × Bytes → γ)
    (requested : List Nat) : Dict Nat γ → List (Bytes × Bytes) → Except String (Dict Nat γ)
  | buckets,[] => .ok buckets
  | buckets,entry::rest => do
    let group ← groupOf entry
    if group ∈ requested then
      bucketed empty groupOf add requested (buckets.set group (add ((buckets.get? group).getD empty) entry)) rest
    else bucketed empty groupOf add requested buckets rest

def exportKeyGroups {γ : Type} (empty : γ) (add : γ → Bytes × Bytes → γ) (requested : List Nat)
    (state expiry timers : List (Bytes × Bytes)) : Except String (Dict Nat (KeyGroupContents γ)) := do
  let buckets ← bucketed ⟨empty,empty,empty⟩ (stateGroup codec maxParallelism)
    (fun contents entry => {contents with state := add contents.state entry}) requested ∅ state
  let buckets ← bucketed ⟨empty,empty,empty⟩ (expiryGroup codec maxParallelism)
    (fun contents entry => {contents with expiry := add contents.expiry entry}) requested buckets expiry
  bucketed ⟨empty,empty,empty⟩ (timerGroup codec maxParallelism)
    (fun contents entry => {contents with timers := add contents.timers entry}) requested buckets timers

end keyGroups

/-- `KEY_ENCODING_VERSION` and the format version beside it. -/
def keyEncodingVersion : Nat := 2
def formatVersion : Nat := 2

structure KeyGroupPayload (γ : Type) where
  formatVersion : Nat
  keyEncodingVersion : Nat
  contents : KeyGroupContents γ
deriving DecidableEq

/-- `require_key_encoding_version` after the check of the format. -/
def requireVersions {γ : Type} (context : String) (payload : KeyGroupPayload γ) : Except String (KeyGroupContents γ) :=
  if payload.formatVersion ≠ formatVersion then
    .error (context ++ " uses the legacy key encoding and cannot be restored safely; " ++
      "resume it with the Klein version that wrote it, or restart from clean state")
  else if payload.keyEncodingVersion ≠ keyEncodingVersion then
    .error (context ++ " uses unsupported key encoding version " ++ toString payload.keyEncodingVersion ++ "; expected " ++
      toString keyEncodingVersion)
  else .ok payload.contents

end Klein.State
