import Klein.OrderedMap
import Klein.State.ManagedStateBackend

/-! `state/rocks_db_state_backend.py`: three column families, which are maps in the
order of their bytes; a write batch is written whole. The family of the encoding
version is written when the database is opened and exported empty. -/
namespace Klein.State

structure RocksDBStateBackend (Key : Type) where
  currentKey : Option Key
  state : OrderedMap Bytes Bytes
  expiry : OrderedMap Bytes Bytes
  timers : OrderedMap Bytes Bytes

namespace RocksDBStateBackend
variable {Key Value : Type} (codec : KeyCodec Key)

def init : RocksDBStateBackend Key := ⟨none,∅,∅,∅⟩

variable (b : RocksDBStateBackend Key)

def requireCurrentKey : Except String Key := b.currentKey.elim (.error currentKeyUnset) .ok

/-- `_state_key` -/
def stateKey (descriptor : StateDescriptor Value) (space : Key) : Except String Bytes := do
  encodeStateKey codec descriptor (← b.requireCurrentKey) space

def deleteExpiry : Option Bytes → RocksDBStateBackend Key
  | none => b
  | some expiryKey => {b with expiry := b.expiry.erase expiryKey}

def putExpiry : Option Bytes → RocksDBStateBackend Key
  | none => b
  | some expiryKey => {b with expiry := b.expiry.set expiryKey []}

def put (descriptor : StateDescriptor Value) (value : Value) (space : Key) (now : Int) :
    Except String Unit × RocksDBStateBackend Key :=
  match b.stateKey codec descriptor space with
  | .error raised => (.error raised,b)
  | .ok stateKey =>
    let expiresAt := expiryFor descriptor now
    match encodeValue descriptor value expiresAt with
    | .error raised => (.error raised,b)
    | .ok encoded =>
      match indexKey stateKey (b.state.get? stateKey) with
      | .error raised => (.error raised,b)
      | .ok previous =>
        match expiryKey stateKey expiresAt with
        | .error raised => (.error raised,b)
        | .ok expiryKey =>
          let deleted := b.deleteExpiry previous
          (.ok (),{deleted with state := deleted.state.set stateKey encoded}.putExpiry expiryKey)

/-- `_delete_state_key` -/
def deleteStateKey (stateKey : Bytes) : Except String Unit × RocksDBStateBackend Key :=
  match indexKey stateKey (b.state.get? stateKey) with
  | .error raised => (.error raised,b)
  | .ok previous => (.ok (),{b with state := b.state.erase stateKey}.deleteExpiry previous)

def get (descriptor : StateDescriptor Value) (space : Key) (now later : Int) :
    Except String (Option Value) × RocksDBStateBackend Key :=
  match b.stateKey codec descriptor space with
  | .error raised => (.error raised,b)
  | .ok stateKey =>
    match b.state.get? stateKey with
    | none => (.ok none,b)
    | some encoded =>
      match decodeStateValue encoded with
      | .error raised => (.error raised,b)
      | .ok (expiresAt,payload) =>
        if hides descriptor expiresAt now then
          let (deleted,next) := b.deleteStateKey stateKey
          (deleted.map (fun _ => none),next)
        else match descriptor.loads payload with
        | .error raised => (.error raised,b)
        | .ok value =>
          if refreshes descriptor then
            let (written,next) := b.put codec descriptor value space later
            (written.map (fun _ => some value),next)
          else (.ok (some value),b)

def delete (descriptor : StateDescriptor Value) (space : Key) : Except String Unit × RocksDBStateBackend Key :=
  match b.stateKey codec descriptor space with
  | .error raised => (.error raised,b)
  | .ok stateKey => b.deleteStateKey stateKey

def namespaces (descriptor : StateDescriptor Value) : Except String (List Key) := do
  let prefix' ← stateKeyPrefix codec descriptor (← b.requireCurrentKey)
  (((b.state.itemsFrom prefix').map Prod.fst).takeWhile (fun key => prefix'.isPrefixOf key)).mapM
    (decodeStateNamespace codec)

def registerTimer (timestamp : Int) (space : Key) (domain : TimerDomain) :
    Except String Unit × RocksDBStateBackend Key :=
  if timestamp < 0 then (.error negativeTimer,b)
  else
    match timerEntry codec b.requireCurrentKey timestamp space domain with
    | .error raised => (.error raised,b)
    | .ok (encodedKey,encodedValue) => (.ok (),{b with timers := b.timers.set encodedKey encodedValue})

def deleteTimer (timestamp : Int) (space : Key) (domain : TimerDomain) : Except String Unit × RocksDBStateBackend Key :=
  match b.requireCurrentKey >>= fun key => encodeTimerKey codec timestamp key space domain with
  | .error raised => (.error raised,b)
  | .ok encodedKey => (.ok (),{b with timers := b.timers.erase encodedKey})

def popDueTimers (timestamp : Int) (domain : TimerDomain) (limit : Option Int) :
    Except String (List (TimerEvent Key)) × RocksDBStateBackend Key :=
  match dueTimers codec timestamp domain limit 0
      ((b.timers.itemsFrom (timerPrefix domain)).takeWhile (fun item => (timerPrefix domain).isPrefixOf item.1)) with
  | .error raised => (.error raised,b)
  | .ok events =>
    let (keys,raised) := timerKeys codec events
    (raised.map (fun _ => events),{b with timers := keys.foldl OrderedMap.erase b.timers})

/-- The loop of `cleanup_expired`: the state keys and index entries of the batch. -/
def cleanupLoop (now : Int) (limit : Option Int) (processed : Nat) :
    List Bytes → Except String (List Bytes × List Bytes)
  | [] => .ok ([],[])
  | expiryKey::rest => do
    let (expiresAt,stateKey) ← decodeExpiryKey expiryKey
    if now < expiresAt ∨ limitReached limit processed then return ([],[])
    else
      let current ← isCurrent expiresAt (b.state.get? stateKey)
      let (removed,deleted) ← cleanupLoop now limit (processed + 1) rest
      return (if current then stateKey::removed else removed,expiryKey::deleted)

def cleanupExpired (nowMs : Option Int) (limit : Option Int) (now : Int) : Except String Nat × RocksDBStateBackend Key :=
  match b.cleanupLoop (nowMs.getD now) limit 0 b.expiry.keys with
  | .error raised => (.error raised,b)
  | .ok (removed,deleted) => (.ok removed.length,{b with
      state := removed.foldl OrderedMap.erase b.state
      expiry := deleted.foldl OrderedMap.erase b.expiry})

variable {Blob : Type} (pickle : Pickle (KeyGroupPayload (List (Bytes × Bytes))) Blob)

def snapshotKeyGroups (maxParallelism : Nat) (keyGroups : List Nat) : Except String (Dict Nat Blob) := do
  let buckets ← exportKeyGroups codec maxParallelism [] (fun entries entry => entries ++ [entry]) keyGroups
    b.state.entries b.expiry.entries b.timers.entries
  return buckets.mapValues (fun _ contents => pickle.dumps ⟨formatVersion,keyEncodingVersion,contents⟩)

def table : ColumnFamily → OrderedMap Bytes Bytes
  | .state => b.state
  | .expiry => b.expiry
  | .timers => b.timers

def domainOf (encodedKey : Bytes) : Except String TimerDomain :=
  if encodedKey.take 1 = timerPrefix .eventTime then .ok .eventTime
  else if encodedKey.take 1 = timerPrefix .processingTime then .ok .processingTime
  else .error "timer key has an invalid domain"

/-- The checks of `_validate_key_group_entry`, before its own error. -/
def checkEntry (entry : Bytes × Bytes) : ColumnFamily → Except String Unit
  | .state => do
    let _ ← decodeStateKey codec entry.1
    let _ ← decodeStateValue entry.2
    return ()
  | .expiry => do
    let (_,stateKey) ← decodeExpiryKey entry.1
    let _ ← decodeStateKey codec stateKey
    if entry.2 = [] then return () else throw "expiry index values must be empty"
  | .timers => do
    let domain ← domainOf entry.1
    let (timestamp,key,space) ← decodeTimer codec entry.1 entry.2
    if (← encodeTimerKey codec timestamp key space domain) = entry.1 then return ()
    else throw "timer key does not match its payload"

def validateKeyGroupEntry (family : ColumnFamily) (entry : Bytes × Bytes) : Except String Unit :=
  match checkEntry codec entry family with
  | .ok _ => .ok ()
  | .error _ => .error ("RocksDB key-group snapshot contains an invalid '" ++ family.name ++ "' entry")

/-- `_validated_key_group_entries`: `seen` also holds the entries so far. -/
def validatedKeyGroupEntries : Dict (ColumnFamily × Bytes) Bytes → List (ColumnFamily × Bytes × Bytes) →
    Except String (Dict (ColumnFamily × Bytes) Bytes)
  | seen,[] => .ok seen
  | seen,(family,encodedKey,encodedValue)::rest => do
    validateKeyGroupEntry codec family (encodedKey,encodedValue)
    match seen.get? (family,encodedKey) with
    | some previous =>
      if previous = encodedValue then validatedKeyGroupEntries seen rest
      else throw ("RocksDB key-group snapshot contains conflicting '" ++ family.name ++ "' entry")
    | none => validatedKeyGroupEntries (seen.set (family,encodedKey) encodedValue) rest

def payloadEntries (contents : KeyGroupContents (List (Bytes × Bytes))) : List (ColumnFamily × Bytes × Bytes) :=
  contents.state.map (Prod.mk .state) ++ contents.expiry.map (Prod.mk .expiry) ++ contents.timers.map (Prod.mk .timers)

def loadKeyGroup (snapshot : Blob) : Except String (KeyGroupContents (List (Bytes × Bytes))) := do
  requireVersions "RocksDB key-group snapshot" (← pickle.loads snapshot)

def staged (seen : Dict (ColumnFamily × Bytes) Bytes) (family : ColumnFamily) : OrderedMap Bytes Bytes :=
  (seen.entries.filter (fun item => item.1.1 = family)).foldl (fun map item => map.set item.1.2 item.2) ∅

def restoreKeyGroups (snapshots : Dict Nat Blob) : Except String Unit × RocksDBStateBackend Key :=
  match snapshots.values.mapM (loadKeyGroup pickle) >>= fun payloads =>
    validatedKeyGroupEntries codec ∅ (payloads.flatMap payloadEntries) with
  | .error raised => (.error raised,b)
  | .ok seen => (.ok (),{b with
      state := staged seen .state
      expiry := staged seen .expiry
      timers := staged seen .timers})

def apply : Operation Key Value → Except String (Result Key Value) × RocksDBStateBackend Key
  | .setCurrentKey key => (.ok .nothing,{b with currentKey := some key})
  | .currentKey => (b.requireCurrentKey.map .key,b)
  | .get descriptor space now later => (b.get codec descriptor space now later).map (Except.map .value) id
  | .put descriptor value space now => (b.put codec descriptor value space now).map (Except.map (fun _ => .nothing)) id
  | .delete descriptor space => (b.delete codec descriptor space).map (Except.map (fun _ => .nothing)) id
  | .namespaces descriptor => ((b.namespaces codec descriptor).map .namespaces,b)
  | .registerTimer timestamp space domain =>
    (b.registerTimer codec timestamp space domain).map (Except.map (fun _ => .nothing)) id
  | .deleteTimer timestamp space domain =>
    (b.deleteTimer codec timestamp space domain).map (Except.map (fun _ => .nothing)) id
  | .popDueTimers timestamp domain limit => (b.popDueTimers codec timestamp domain limit).map (Except.map .timers) id
  | .cleanupExpired nowMs limit now => (b.cleanupExpired nowMs limit now).map (Except.map .removed) id
  | .snapshotAndRestore maxParallelism _ keyGroups =>
    match b.snapshotKeyGroups codec pickle maxParallelism keyGroups with
    | .error raised => (.error raised,b)
    | .ok snapshots => (b.restoreKeyGroups codec pickle snapshots).map (Except.map (fun _ => .nothing)) id

end RocksDBStateBackend
end Klein.State
