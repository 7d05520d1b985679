import Klein.OrderedMap
import Klein.State.ManagedStateBackend

/-! `state/memory_state_backend.py`: three dictionaries of bytes. An operation
returns its result, or what it raises, and the backend after it. -/
namespace Klein.State

structure MemoryStateBackend (Key : Type) where
  currentKey : Option Key
  state : Dict Bytes Bytes
  expiry : Dict Bytes Bytes
  timers : Dict Bytes Bytes

namespace MemoryStateBackend
variable {Key Value : Type} (codec : KeyCodec Key)

def init : MemoryStateBackend Key := ⟨none,∅,∅,∅⟩

variable (b : MemoryStateBackend Key)

def requireCurrentKey : Except String Key := b.currentKey.elim (.error currentKeyUnset) .ok

/-- `_state_key` -/
def stateKey (descriptor : StateDescriptor Value) (space : Key) : Except String Bytes := do
  encodeStateKey codec descriptor (← b.requireCurrentKey) space

/-- `self._expiry.pop(…, None)` of an entry, if there is one. -/
def popExpiry : Option Bytes → MemoryStateBackend Key
  | none => b
  | some expiryKey => {b with expiry := b.expiry.erase expiryKey}

def put (descriptor : StateDescriptor Value) (value : Value) (space : Key) (now : Int) :
    Except String Unit × MemoryStateBackend Key :=
  match b.stateKey codec descriptor space with
  | .error raised => (.error raised,b)
  | .ok stateKey =>
    let expiresAt := expiryFor descriptor now
    match indexKey stateKey (b.state.get? stateKey) with
    | .error raised => (.error raised,b)
    | .ok previous =>
      let popped := b.popExpiry previous
      match encodeValue descriptor value expiresAt with
      | .error raised => (.error raised,popped)
      | .ok encoded =>
        let stored := {popped with state := popped.state.set stateKey encoded}
        match expiryKey stateKey expiresAt with
        | .error raised => (.error raised,stored)
        | .ok none => (.ok (),stored)
        | .ok (some expiryKey) => (.ok (),{stored with expiry := stored.expiry.set expiryKey []})

/-- `later` is the second reading of the clock, by the refreshing `put`. -/
def get (descriptor : StateDescriptor Value) (space : Key) (now later : Int) :
    Except String (Option Value) × MemoryStateBackend Key :=
  match b.stateKey codec descriptor space with
  | .error raised => (.error raised,b)
  | .ok stateKey =>
    match b.state.get? stateKey with
    | none => (.ok none,b)
    | some encoded =>
      match decodeStateValue encoded with
      | .error raised => (.error raised,b)
      | .ok (expiresAt,payload) =>
        if hides descriptor expiresAt now then (.ok none,{b with state := b.state.erase stateKey})
        else match descriptor.loads payload with
        | .error raised => (.error raised,b)
        | .ok value =>
          if refreshes descriptor then
            let (written,next) := b.put codec descriptor value space later
            (written.map (fun _ => some value),next)
          else (.ok (some value),b)

def delete (descriptor : StateDescriptor Value) (space : Key) : Except String Unit × MemoryStateBackend Key :=
  match b.stateKey codec descriptor space with
  | .error raised => (.error raised,b)
  | .ok stateKey =>
    let popped := {b with state := b.state.erase stateKey}
    match indexKey stateKey (b.state.get? stateKey) with
    | .error raised => (.error raised,popped)
    | .ok previous => (.ok (),popped.popExpiry previous)

def namespaces (descriptor : StateDescriptor Value) : Except String (List Key) := do
  let prefix' ← stateKeyPrefix codec descriptor (← b.requireCurrentKey)
  (b.state.sorted.keys.filter (fun key => prefix'.isPrefixOf key)).mapM (decodeStateNamespace codec)

def registerTimer (timestamp : Int) (space : Key) (domain : TimerDomain) :
    Except String Unit × MemoryStateBackend Key :=
  if timestamp < 0 then (.error negativeTimer,b)
  else
    match timerEntry codec b.requireCurrentKey timestamp space domain with
    | .error raised => (.error raised,b)
    | .ok (encodedKey,encodedValue) => (.ok (),{b with timers := b.timers.set encodedKey encodedValue})

def deleteTimer (timestamp : Int) (space : Key) (domain : TimerDomain) : Except String Unit × MemoryStateBackend Key :=
  match b.requireCurrentKey >>= fun key => encodeTimerKey codec timestamp key space domain with
  | .error raised => (.error raised,b)
  | .ok encodedKey => (.ok (),{b with timers := b.timers.erase encodedKey})

def popDueTimers (timestamp : Int) (domain : TimerDomain) (limit : Option Int) :
    Except String (List (TimerEvent Key)) × MemoryStateBackend Key :=
  match dueTimers codec timestamp domain limit 0
      (b.timers.sorted.entries.filter (fun item => (timerPrefix domain).isPrefixOf item.1)) with
  | .error raised => (.error raised,b)
  | .ok events =>
    let (keys,raised) := timerKeys codec events
    (raised.map (fun _ => events),{b with timers := keys.foldl Dict.erase b.timers})

/-- The loop of `cleanup_expired`. -/
def cleanupLoop (now : Int) (limit : Option Int) (b : MemoryStateBackend Key) (processed removed : Nat) :
    List Bytes → Except String Nat × MemoryStateBackend Key
  | [] => (.ok removed,b)
  | expiryKey::rest =>
    match decodeExpiryKey expiryKey with
    | .error raised => (.error raised,b)
    | .ok (expiresAt,stateKey) =>
      if now < expiresAt ∨ limitReached limit processed then (.ok removed,b)
      else match isCurrent expiresAt (b.state.get? stateKey) with
      | .error raised => (.error raised,b)
      | .ok true => cleanupLoop now limit {b with
          state := b.state.erase stateKey
          expiry := b.expiry.erase expiryKey} (processed + 1) (removed + 1) rest
      | .ok false =>
        cleanupLoop now limit {b with expiry := b.expiry.erase expiryKey} (processed + 1) removed rest

def cleanupExpired (nowMs : Option Int) (limit : Option Int) (now : Int) : Except String Nat × MemoryStateBackend Key :=
  cleanupLoop (nowMs.getD now) limit b 0 0 b.expiry.sorted.keys

def table : ColumnFamily → Dict Bytes Bytes
  | .state => b.state
  | .expiry => b.expiry
  | .timers => b.timers

variable {Blob : Type} (pickle : Pickle (KeyGroupPayload (Dict Bytes Bytes)) Blob)

def snapshotKeyGroups (maxParallelism : Nat) (keyGroups : List Nat) : Except String (Dict Nat Blob) := do
  let buckets ← exportKeyGroups codec maxParallelism ∅ (fun dict entry => Dict.set dict entry.1 entry.2) keyGroups
    b.state.entries b.expiry.entries b.timers.entries
  return buckets.mapValues (fun _ contents => pickle.dumps ⟨formatVersion,keyEncodingVersion,contents⟩)

def loadKeyGroup (snapshot : Blob) : Except String (KeyGroupContents (Dict Bytes Bytes)) := do
  requireVersions "memory key-group snapshot" (← pickle.loads snapshot)

def restoreKeyGroups (snapshots : Dict Nat Blob) : Except String Unit × MemoryStateBackend Key :=
  match snapshots.values.mapM (loadKeyGroup pickle) with
  | .error raised => (.error raised,b)
  | .ok payloads => (.ok (),{b with
      state := payloads.foldl (fun state payload => state.update payload.state.entries) ∅
      expiry := payloads.foldl (fun expiry payload => expiry.update payload.expiry.entries) ∅
      timers := payloads.foldl (fun timers payload => timers.update payload.timers.entries) ∅})

def apply : Operation Key Value → Except String (Result Key Value) × MemoryStateBackend Key
  | .setCurrentKey key => (.ok .nothing,{b with currentKey := some key})
  | .currentKey => (b.requireCurrentKey.map .key,b)
  | .get descriptor space now later => (b.get codec descriptor space now later).map (Except.map .value) id
  | .put descriptor value space now => (b.put codec descriptor value space now).map (Except.map (fun _ => .nothing)) id
  | .delete descriptor space => (b.delete codec descriptor space).map (Except.map (fun _ => .nothing)) id
  | .namespaces descriptor => ((b.namespaces codec descriptor).map .namespaces,b)
  | .registerTimer timestamp space domain =>
    (b.registerTimer codec timestamp space domain).map (Except.map (fun _ => .nothing)) id
  | .deleteTimer timestamp space domain =>
    (b.deleteTimer codec timestamp space domain).map (Except.map (fun _ => .nothing)) id
  | .popDueTimers timestamp domain limit => (b.popDueTimers codec timestamp domain limit).map (Except.map .timers) id
  | .cleanupExpired nowMs limit now => (b.cleanupExpired nowMs limit now).map (Except.map .removed) id
  | .snapshotAndRestore maxParallelism _ keyGroups =>
    match b.snapshotKeyGroups codec pickle maxParallelism keyGroups with
    | .error raised => (.error raised,b)
    | .ok snapshots => (b.restoreKeyGroups pickle snapshots).map (Except.map (fun _ => .nothing)) id

end MemoryStateBackend
end Klein.State
