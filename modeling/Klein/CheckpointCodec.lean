import Mathlib.Data.List.Forall2
import Klein.CheckpointStorage
import Klein.Fallible
import Klein.Json

/-! The bytes of checkpoint metadata (`runtime/coordinator/checkpoint_io.py`): the JSON
that is written for a checkpoint, and the reader, which checks every field of it before
an application value is unpickled. -/
namespace Klein.CheckpointIO
open Fallible List

/-- What a decoder hook of `json.loads` is called with, inner objects first. -/
inductive HookCall where
  | constant (literal : String)
  | pairs (names : List String)

mutual
def hookCalls : Json → List HookCall
  | .float literal => if literal ∈ ["NaN","Infinity","-Infinity"] then [.constant literal] else []
  | .list items => hookCallsItems items
  | .object entries => hookCallsEntries entries ++ [.pairs (entries.map Prod.fst)]
  | _ => []
def hookCallsItems : List Json → List HookCall
  | [] => []
  | item::rest => hookCalls item ++ hookCallsItems rest
def hookCallsEntries : List (String × Json) → List HookCall
  | [] => []
  | (_,value)::rest => hookCalls value ++ hookCallsEntries rest
end

/-- The standard library: `parse` is `json.loads` of UTF-8, whose error comes with the hook
calls before it, `dumps` is `json.dumps`, and `b64decode` validates. -/
structure Library where
  sha : Sha256
  repr : Json → String
  parse : Bytes → Except (List HookCall × String) Json
  dumps : Json → Bytes
  b64encode : Bytes → String
  b64decode : String → Option Bytes

structure OperatorStateRecord where
  taskKey : String
  uri : String
  checksum : String
  sizeBytes : Nat

/-- `_CheckpointEnvelope` -/
structure MetadataEnvelope where
  metadataRevision : Nat
  barrierHighWater : Nat
  sourcePayloads : List (String × Nat × Bytes)
  operatorStates : List OperatorStateRecord
  sinkPayloads : List (String × Nat × String × Bytes)

def checkpointMetadataMagic : Bytes := "KLEIN-CHECKPOINT-METADATA-V4\n".toUTF8.toList

def envelopeFields : List String :=
  ["version","metadata_revision","source_states","barrier_high_water","operator_states","sink_committables"]

def sourceFields : List String := ["task_key","checkpoint_id","payload_b64","size_bytes","checksum"]

def operatorFields : List String := ["task_key","uri","checksum","size_bytes"]

def sinkFields : List String := ["task_key","checkpoint_id","transaction_id","payload_b64","size_bytes","checksum"]

section writer
variable (lib : Library)

/-- `_encode_application_payload`, of a pickled value; `sort_keys` orders the items. -/
def payloadItems (payload : Bytes) : List (String × Json) :=
  [("checksum",.text (checksum lib.sha payload)),("payload_b64",.text (lib.b64encode payload)),("size_bytes",.int payload.length)]

def sourceRecord (entry : String × Nat × Bytes) : Json :=
  .object (("checkpoint_id",.int entry.2.1)::payloadItems lib entry.2.2 ++ [("task_key",.text entry.1)])

def operatorRecord (entry : OperatorStateRecord) : Json :=
  .object [("checksum",.text entry.checksum),("size_bytes",.int entry.sizeBytes),("task_key",.text entry.taskKey),("uri",.text entry.uri)]

def sinkRecord (entry : String × Nat × String × Bytes) : Json :=
  .object (("checkpoint_id",.int entry.2.1)::payloadItems lib entry.2.2.2 ++
    [("task_key",.text entry.1),("transaction_id",.text entry.2.2.1)])

/-- The object of `_encode_checkpoint_mapping` -/
def encodedMapping (envelope : MetadataEnvelope) : Json :=
  .object [("barrier_high_water",.int envelope.barrierHighWater),
    ("metadata_revision",.int envelope.metadataRevision),
    ("operator_states",.list (envelope.operatorStates.map operatorRecord)),
    ("sink_committables",.list (envelope.sinkPayloads.map (sinkRecord lib))),
    ("source_states",.list (envelope.sourcePayloads.map (sourceRecord lib))),
    ("version",.int checkpointFormatVersion)]

/-- `_encode_checkpoint_mapping` -/
def encodeMetadata (envelope : MetadataEnvelope) : Bytes := checkpointMetadataMagic ++ lib.dumps (encodedMapping lib envelope)

/-- The entries that `write_checkpoint` encodes. -/
def WriteCall.envelope (root : String) (call : WriteCall) (revision highWater : Nat) : MetadataEnvelope where
  metadataRevision := revision
  barrierHighWater := highWater
  sourcePayloads := call.sourceStates.map (fun entry => (entry.taskKey,entry.checkpointId,entry.state))
  operatorStates := call.items.map (fun item =>
    ⟨item.1,(statePath lib.sha revision item).uri root,checksum lib.sha item.2,item.2.length⟩)
  sinkPayloads := call.sinkCommittables.map (fun entry => (entry.taskKey,entry.checkpointId,entry.transactionId,entry.committable))

end writer

section reader
variable (lib : Library)

/-- `repr` of a sorted list of names -/
def namesRepr (names : List String) : String :=
  "[" ++ ", ".intercalate ((names.insertionSort (fun first second => first ≤ second)).map (fun name => lib.repr (.text name))) ++ "]"

/-- The key that `reject_duplicate_keys` finds first. -/
def repeatedKey : List String → List String → Option String
  | [],_ => none
  | key::rest,seen => if key ∈ seen then some key else repeatedKey rest (seen ++ [key])

/-- `reject_constant` and `reject_duplicate_keys` -/
def rejectHook (context : String) : HookCall → Except String Unit
  | .constant literal => .error (context ++ " contains invalid JSON constant " ++ literal)
  | .pairs names =>
    match repeatedKey names [] with
    | some key => .error (context ++ " contains duplicate key " ++ lib.repr (.text key))
    | none => .ok ()

def requireJsonMapping (value : Json) (context : String) : Except String (Dict String Json) :=
  match value with
  | .object entries => .ok (Dict.ofList entries)
  | _ => .error (context ++ " must contain a JSON object")

def requireJsonArray (value : Json) (context : String) : Except String (List Json) :=
  match value with
  | .list items => .ok items
  | _ => .error (context ++ " must contain a JSON array")

/-- `_decode_json_mapping` -/
def decodeJsonMapping (payload : Bytes) (context : String) : Except String (Dict String Json) :=
  match lib.parse payload with
  | .error (calls,text) => do
    forM calls (rejectHook lib context)
    throw text
  | .ok decoded => do
    forM (hookCalls decoded) (rejectHook lib context)
    requireJsonMapping decoded context

/-- `_require_fields` -/
def requireFields (mapping : Dict String Json) (fields : List String) (context : String) : Except String Unit :=
  let missing := fields.filter (fun name => !mapping.contains name)
  let unexpected := mapping.keys.filter (fun name => name ∉ fields)
  if missing ≠ [] then .error (context ++ " is missing fields: " ++ namesRepr lib missing)
  else if unexpected ≠ [] then .error (context ++ " contains unexpected fields: " ++ namesRepr lib unexpected)
  else .ok ()

def field (mapping : Dict String Json) (name : String) : Json := (mapping.get? name).getD .null

def requireText (value : Json) (context : String) : Except String String :=
  match value with
  | .text value => requireNonEmptyString value context
  | _ => .error (context ++ " must be a non-empty string")

def requireBase64 (value : Json) (error : String) : Except String String :=
  match value with
  | .text value => .ok value
  | _ => .error error

/-- `base64.b64decode(encoded, validate=True)` -/
def decodeBase64 (encoded error : String) : Except String Bytes :=
  match lib.b64decode encoded with
  | some payload => .ok payload
  | none => .error error

def requireChecksum (value : Json) (context : String) : Except String String :=
  match value with
  | .text value => requireSha256 value context
  | _ => .error (context ++ " must be a lowercase sha256 checksum")

def requireSize (value : Json) (context : String) : Except String Nat :=
  match value with
  | .int value => validateSize value context
  | _ => .error (context ++ " must be a non-negative integer")

def requireCheckpointId (name : String) (value : Json) : Except String Nat :=
  match value with
  | .int value => validateCheckpointId name value
  | _ => .error ("checkpoint " ++ name ++ " must be a non-negative integer")

/-- `_require_format_version` -/
def requireFormatVersion (value : Json) (context : String) : Except String Unit :=
  let unsupported := "unsupported " ++ context ++ " format version: " ++ lib.repr value
  match value with
  | .int version => ensure (version = checkpointFormatVersion) unsupported
  | _ => .error unsupported

/-- `_decode_application_envelope` -/
def decodePayload (mapping : Dict String Json) (context : String) : Except String Bytes := do
  let encoded ← requireBase64 (field mapping "payload_b64") (context ++ ".payload_b64 must be a base64 string")
  let size ← requireSize (field mapping "size_bytes") (context ++ ".size_bytes")
  let expected ← requireChecksum (field mapping "checksum") (context ++ ".checksum")
  ensure (encoded.length = base64Size size) (context ++ " base64 size mismatch: expected " ++ toString (base64Size size) ++
    ", got " ++ toString encoded.length)
  let payload ← decodeBase64 lib encoded (context ++ ".payload_b64 is not valid base64")
  ensure (payload.length = size) (context ++ " payload size mismatch: expected " ++ toString size ++ ", got " ++
    toString payload.length)
  ensure (checksum lib.sha payload = expected) (context ++ " payload checksum mismatch: expected " ++ expected ++ ", got " ++
    checksum lib.sha payload)
  return payload

def decodeArray {κ β : Type} (decode : Nat → List κ → Json → Except String (κ × β)) : Nat → List κ → List Json → Except String (List β)
  | _,_,[] => .ok []
  | index,seen,record::rest => do
    let (key,first) ← decode index seen record
    let others ← decodeArray decode (index + 1) (seen ++ [key]) rest
    return first::others

def decodeSourceRecord (index : Nat) (seen : List String) (record : Json) : Except String (String × String × Nat × Bytes) := do
  let context := "checkpoint source_states[" ++ toString index ++ "]"
  let mapping ← requireJsonMapping record context
  requireFields lib mapping sourceFields context
  let taskKey ← requireText (field mapping "task_key") (context ++ ".task_key")
  ensure (taskKey ∉ seen) "checkpoint source_states must contain at most one entry per task_key"
  let checkpointId ← requireCheckpointId ("source_states[" ++ toString index ++ "].checkpoint_id") (field mapping "checkpoint_id")
  let payload ← decodePayload lib mapping context
  return (taskKey,taskKey,checkpointId,payload)

def decodeOperatorRecord (index : Nat) (seen : List String) (record : Json) : Except String (String × OperatorStateRecord) := do
  let context := "checkpoint operator_states[" ++ toString index ++ "]"
  let mapping ← requireJsonMapping record context
  requireFields lib mapping operatorFields context
  let taskKey ← requireText (field mapping "task_key") (context ++ ".task_key")
  ensure (taskKey ∉ seen) "checkpoint operator_states must contain at most one entry per task_key"
  let uri ← requireText (field mapping "uri") (context ++ ".uri")
  let expected ← requireChecksum (field mapping "checksum") (context ++ ".checksum")
  let size ← requireSize (field mapping "size_bytes") (context ++ ".size_bytes")
  return (taskKey,⟨taskKey,uri,expected,size⟩)

def decodeSinkRecord (index : Nat) (seen : List (String × Nat)) (record : Json) :
    Except String ((String × Nat) × String × Nat × String × Bytes) := do
  let context := "checkpoint sink_committables[" ++ toString index ++ "]"
  let mapping ← requireJsonMapping record context
  requireFields lib mapping sinkFields context
  let taskKey ← requireText (field mapping "task_key") (context ++ ".task_key")
  let checkpointId ← requireCheckpointId ("sink_committables[" ++ toString index ++ "].checkpoint_id") (field mapping "checkpoint_id")
  let transactionId ← requireText (field mapping "transaction_id") (context ++ ".transaction_id")
  ensure ((taskKey,checkpointId) ∉ seen)
    "checkpoint sink_committables must contain at most one transaction per task and checkpoint"
  let payload ← decodePayload lib mapping context
  return ((taskKey,checkpointId),taskKey,checkpointId,transactionId,payload)

/-- `_decode_checkpoint_envelope` -/
def decodeMetadata (payload : Bytes) : Except String MetadataEnvelope := do
  ensure (checkpointMetadataMagic.isPrefixOf payload)
    "checkpoint metadata is missing the safe v4 prefix; legacy pickle metadata is not loaded automatically"
  let encoded ← decodeJsonMapping lib (payload.drop checkpointMetadataMagic.length) "checkpoint metadata"
  requireFields lib encoded envelopeFields "checkpoint metadata"
  requireFormatVersion lib (field encoded "version") "checkpoint"
  let metadataRevision ← requireCheckpointId "metadata_revision" (field encoded "metadata_revision")
  let barrierHighWater ← requireCheckpointId "barrier_high_water" (field encoded "barrier_high_water")
  let sources ← requireJsonArray (field encoded "source_states") "checkpoint source_states"
  let sourcePayloads ← decodeArray (decodeSourceRecord lib) 0 [] sources
  let operators ← requireJsonArray (field encoded "operator_states") "checkpoint operator_states"
  let operatorStates ← decodeArray (decodeOperatorRecord lib) 0 [] operators
  let sinks ← requireJsonArray (field encoded "sink_committables") "checkpoint sink_committables"
  let sinkPayloads ← decodeArray (decodeSinkRecord lib) 0 [] sinks
  return ⟨metadataRevision,barrierHighWater,sourcePayloads,operatorStates,sinkPayloads⟩

end reader

section applications
variable (lib : Library) {ν : Type} (loads : Bytes → Except String ν) (transactionId : ν → Option String)

/-- `_loads_trusted_application_payload`, with what has been unpickled so far. -/
def loadsTrusted (payload : Bytes) (context : String) : EStateM String (List Bytes) ν := fun unpickled =>
  match loads payload with
  | .ok value => .ok value (unpickled ++ [payload])
  | .error _ => .error ("unable to deserialize trusted " ++ context ++ " payload") (unpickled ++ [payload])

def checking {α : Type} (checked : Except String α) : EStateM String (List Bytes) α := fun unpickled =>
  match checked with
  | .ok value => .ok value unpickled
  | .error text => .error text unpickled

/-- `_load_source_states` -/
def loadSourceStates : List (String × Nat × Bytes) → EStateM String (List Bytes) (List (String × Nat × ν))
  | [] => pure []
  | (taskKey,checkpointId,payload)::rest => do
    let state ← loadsTrusted loads payload ("source state " ++ lib.repr (.text taskKey))
    let others ← loadSourceStates rest
    return (taskKey,checkpointId,state)::others

/-- `_validate_source_states` -/
def validateLoadedStates (states : List (String × Nat × ν)) : Except String Unit := do
  ensure (∀ entry ∈ states, blank entry.1 = false) "checkpoint source_states task keys must be non-empty strings"
  ensure (states.map Prod.fst).Nodup "checkpoint source_states must contain at most one entry per task_key"

/-- `_decode_checkpoint` -/
def decodeCheckpoint (payload : Bytes) :
    EStateM String (List Bytes) (Nat × List (String × Nat × ν) × Nat × List OperatorStateRecord) := do
  let envelope ← checking (decodeMetadata lib payload)
  let states ← loadSourceStates lib loads envelope.sourcePayloads
  checking (validateLoadedStates states)
  return (envelope.metadataRevision,states,envelope.barrierHighWater,envelope.operatorStates)

/-- `SinkCommittableCheckpointEntry` of a loaded committable, with the `transaction_id` that was recorded for it. -/
def sinkCommittableEntry (taskKey : String) (checkpointId : Nat) (recorded : String) (committable : ν) :
    Except String (String × Nat × ν) := do
  ensure (blank taskKey = false) "sink committable task_key must be a non-empty string"
  let found ← match transactionId committable with
    | some found => .ok found
    | none => .error "committable must be a SinkCommittable"
  ensure (blank found = false) "sink committable transaction_id must be a non-empty string"
  ensure (found = recorded) ("sink committable transaction_id mismatch for " ++ lib.repr (.text taskKey) ++ ": expected " ++
    lib.repr (.text recorded) ++ ", got " ++ lib.repr (.text found))
  return (taskKey,checkpointId,committable)

/-- `_load_sink_committables` -/
def loadSinkCommittables : List (String × Nat × String × Bytes) → EStateM String (List Bytes) (List (String × Nat × ν))
  | [] => pure []
  | (taskKey,checkpointId,recorded,payload)::rest => do
    let committable ← loadsTrusted loads payload ("sink committable " ++ lib.repr (.text taskKey))
    let entry ← checking (sinkCommittableEntry lib transactionId taskKey checkpointId recorded committable)
    let others ← loadSinkCommittables rest
    return entry::others

/-- `restore_sink_committable_entries`, of the bytes of `_metadata` -/
def restoreSinkCommittables (payload : Bytes) : EStateM String (List Bytes) (List (String × Nat × ν)) := do
  let envelope ← checking (decodeMetadata lib payload)
  let entries ← loadSinkCommittables lib loads transactionId envelope.sinkPayloads
  checking (ensure (entries.map (fun entry => (entry.1,entry.2.1))).Nodup
    "checkpoint sink_committables must contain at most one transaction per task and checkpoint")
  return entries

end applications

section formats
variable (lib : Library)

def HasFields (value : Json) (fields : List String) (mapping : Dict String Json) : Prop :=
  ∃ entries, value = .object entries ∧ mapping = Dict.ofList entries ∧ ∀ name, mapping.contains name = true ↔ name ∈ fields

/-- Every object lists each of its names once, at any level, and no constant stands for a number. -/
def Plain (value : Json) : Prop :=
  ∀ call ∈ hookCalls value, ∃ names, call = .pairs names ∧ names.Nodup

structure PayloadFormed (mapping : Dict String Json) (payload : Bytes) : Prop where
  encoded : ∃ encoded, field mapping "payload_b64" = .text encoded ∧ encoded.length = base64Size payload.length ∧
    lib.b64decode encoded = some payload
  size : field mapping "size_bytes" = .int payload.length
  checksum : field mapping "checksum" = .text (checksum lib.sha payload)

structure SourceFormed (record : Json) (entry : String × Nat × Bytes) : Prop where
  formed : ∃ mapping, HasFields record sourceFields mapping ∧ field mapping "task_key" = .text entry.1 ∧
    field mapping "checkpoint_id" = .int entry.2.1 ∧ PayloadFormed lib mapping entry.2.2
  named : blank entry.1 = false

structure OperatorFormed (record : Json) (entry : OperatorStateRecord) : Prop where
  formed : ∃ mapping, HasFields record operatorFields mapping ∧ field mapping "task_key" = .text entry.taskKey ∧
    field mapping "uri" = .text entry.uri ∧ field mapping "checksum" = .text entry.checksum ∧
      field mapping "size_bytes" = .int entry.sizeBytes
  named : blank entry.taskKey = false ∧ blank entry.uri = false ∧ isSha256 entry.checksum = true

structure SinkFormed (record : Json) (entry : String × Nat × String × Bytes) : Prop where
  formed : ∃ mapping, HasFields record sinkFields mapping ∧ field mapping "task_key" = .text entry.1 ∧
    field mapping "checkpoint_id" = .int entry.2.1 ∧ field mapping "transaction_id" = .text entry.2.2.1 ∧
      PayloadFormed lib mapping entry.2.2.2
  named : blank entry.1 = false ∧ blank entry.2.2.1 = false

structure Keyed (envelope : MetadataEnvelope) : Prop where
  sources : (envelope.sourcePayloads.map Prod.fst).Nodup
  operators : (envelope.operatorStates.map OperatorStateRecord.taskKey).Nodup
  sinks : (envelope.sinkPayloads.map (fun entry => (entry.1,entry.2.1))).Nodup

structure Formed (payload : Bytes) (envelope : MetadataEnvelope) : Prop where
  written : ∃ body value mapping sources operators sinks, payload = checkpointMetadataMagic ++ body ∧ lib.parse body = .ok value ∧
    Plain value ∧ HasFields value envelopeFields mapping ∧ field mapping "version" = .int checkpointFormatVersion ∧
    field mapping "metadata_revision" = .int envelope.metadataRevision ∧
    field mapping "barrier_high_water" = .int envelope.barrierHighWater ∧
    field mapping "source_states" = .list sources ∧ List.Forall₂ (SourceFormed lib) sources envelope.sourcePayloads ∧
    field mapping "operator_states" = .list operators ∧ List.Forall₂ OperatorFormed operators envelope.operatorStates ∧
    field mapping "sink_committables" = .list sinks ∧ List.Forall₂ (SinkFormed lib) sinks envelope.sinkPayloads
  keyed : Keyed envelope

end formats

section checks
variable {lib : Library}

theorem checked_text (found text error : String) (good : Bool) (test : String → Bool) (same : good = test found) :
    (if good then Except.ok found else .error error) = .ok text ↔ Json.text found = .text text ∧ test text = true := by
  rw [Json.text.injEq]
  split
  next passes =>
    constructor
    · intro done
      cases done
      exact ⟨rfl,same ▸ passes⟩
    · rintro ⟨rfl,_⟩
      rfl
  next fails =>
    constructor
    · intro done
      cases done
    · rintro ⟨rfl,passes⟩
      exact absurd (same.trans passes) fails

theorem requireText_ok (value : Json) (context text : String) :
    requireText value context = .ok text ↔ value = .text text ∧ blank text = false := by
  cases value with
  | text found =>
    have checked := checked_text found text (context ++ " must be a non-empty string") (!blank found) (fun text => !blank text) rfl
    have filled : (!blank text) = true ↔ blank text = false := by simp
    have flipped : requireText (.text found) context =
        if (!blank found) = true then .ok found else .error (context ++ " must be a non-empty string") := by
      unfold requireText requireNonEmptyString
      by_cases isBlank : blank found = true <;> simp [isBlank]
    rw [filled] at checked
    rw [flipped]
    exact checked
  | _ => simp [requireText]

theorem requireChecksum_ok (value : Json) (context text : String) :
    requireChecksum value context = .ok text ↔ value = .text text ∧ isSha256 text = true := by
  cases value with
  | text found => exact checked_text found text _ _ isSha256 rfl
  | _ => simp [requireChecksum]

theorem requireBase64_ok (value : Json) (error text : String) : requireBase64 value error = .ok text ↔ value = .text text := by
  cases value <;> simp [requireBase64]

theorem decodeBase64_ok (encoded error : String) (payload : Bytes) :
    decodeBase64 lib encoded error = .ok payload ↔ lib.b64decode encoded = some payload := by
  unfold decodeBase64
  cases lib.b64decode encoded <;> simp

theorem checked_number (value : Int) (error : String) (number : Nat) :
    (if value < 0 then Except.error error else Except.ok value.toNat) = .ok number ↔ Json.int value = .int number := by
  rw [Json.int.injEq]
  split
  next less =>
    constructor
    · intro done
      cases done
    · intro same
      omega
  next more =>
    rw [Except.ok.injEq]
    omega

theorem requireSize_ok (value : Json) (context : String) (size : Nat) :
    requireSize value context = .ok size ↔ value = .int size := by
  cases value with
  | int found => exact checked_number found _ size
  | _ => simp [requireSize]

theorem requireCheckpointId_ok (name : String) (value : Json) (checkpointId : Nat) :
    requireCheckpointId name value = .ok checkpointId ↔ value = .int checkpointId := by
  cases value with
  | int found => exact checked_number found _ checkpointId
  | _ => simp [requireCheckpointId]

theorem requireFormatVersion_ok (value : Json) (context : String) (result : Unit) :
    requireFormatVersion lib value context = .ok result ↔ value = .int checkpointFormatVersion := by
  cases value with
  | int found => rw [requireFormatVersion,ensure_ok,Json.int.injEq]
  | _ => simp [requireFormatVersion]

theorem requireJsonArray_ok (value : Json) (context : String) (items : List Json) :
    requireJsonArray value context = .ok items ↔ value = .list items := by
  cases value <;> simp [requireJsonArray]

theorem requireJsonMapping_ok (value : Json) (context : String) (mapping : Dict String Json) :
    requireJsonMapping value context = .ok mapping ↔ ∃ entries, value = .object entries ∧ mapping = Dict.ofList entries := by
  cases value <;> simp [requireJsonMapping,eq_comm]

theorem requireFields_ok (mapping : Dict String Json) (fields : List String) (context : String) (result : Unit) :
    requireFields lib mapping fields context = .ok result ↔ ∀ name, mapping.contains name = true ↔ name ∈ fields := by
  have keys : ∀ name, name ∈ mapping.keys ↔ mapping.contains name = true := by
    intro name
    rw [Dict.mem_keys,Dict.contains_eq_isSome,Option.isSome_iff_exists]
  unfold requireFields
  dsimp only
  split
  next missing =>
    constructor
    · intro done
      cases done
    · intro same
      obtain ⟨name,inside⟩ := exists_mem_of_ne_nil _ missing
      obtain ⟨listed,absent⟩ := mem_filter.mp inside
      rw [(same name).mpr listed] at absent
      cases absent
  next complete =>
    split
    next extra =>
      constructor
      · intro done
        cases done
      · intro same
        obtain ⟨name,inside⟩ := exists_mem_of_ne_nil _ extra
        obtain ⟨listed,unlisted⟩ := mem_filter.mp inside
        exact absurd ((same name).mp ((keys name).mp listed)) (of_decide_eq_true unlisted)
    next exact' =>
      constructor
      · intro _ name
        constructor
        · intro contained
          by_contra unlisted
          have inside : name ∈ mapping.keys.filter (fun name => name ∉ fields) :=
            mem_filter.mpr ⟨(keys name).mpr contained,decide_eq_true unlisted⟩
          rw [not_not.mp exact'] at inside
          cases inside
        · intro listed
          by_contra absent
          have inside : name ∈ fields.filter (fun name => !mapping.contains name) := mem_filter.mpr ⟨listed,by simpa using absent⟩
          rw [not_not.mp complete] at inside
          cases inside
      · exact fun _ => rfl

theorem repeatedKey_none (names seen : List String) :
    repeatedKey names seen = none ↔ names.Nodup ∧ ∀ name ∈ names, name ∉ seen := by
  induction names generalizing seen with
  | nil => simp [repeatedKey]
  | cons name rest ih =>
    rw [repeatedKey]
    split
    next again => simp [again]
    next fresh =>
      rw [ih,nodup_cons,forall_mem_cons]
      constructor
      · rintro ⟨once,apart⟩
        refine ⟨⟨fun inside => apart name inside (by simp),once⟩,fresh,fun other inside before => apart other inside ?_⟩
        exact mem_append_left _ before
      · rintro ⟨⟨new,once⟩,_,apart⟩
        refine ⟨once,fun other inside before => ?_⟩
        rcases mem_append.mp before with early | same
        · exact apart other inside early
        · rw [mem_singleton.mp same] at inside
          exact new inside

theorem rejectHook_ok (context : String) (call : HookCall) (result : Unit) :
    rejectHook lib context call = .ok result ↔ ∃ names, call = .pairs names ∧ names.Nodup := by
  cases call with
  | constant literal =>
    constructor
    · intro done
      cases done
    · rintro ⟨_,same,_⟩
      cases same
  | pairs names =>
    unfold rejectHook
    dsimp only
    have none := repeatedKey_none names []
    split
    next key again =>
      rw [again] at none
      constructor
      · intro done
        cases done
      · rintro ⟨_,same,once⟩
        cases same
        cases none.mpr ⟨once,by simp⟩
    next once => exact ⟨fun _ => ⟨names,rfl,(none.mp once).1⟩,fun _ => rfl⟩

theorem forM_ok {ε α : Type} (items : List α) (check : α → Except ε Unit) (result : PUnit) :
    forM items check = .ok result ↔ ∀ item ∈ items, check item = .ok () := by
  induction items with
  | nil => exact ⟨fun _ _ inside => (by cases inside),fun _ => rfl⟩
  | cons item rest ih =>
    rw [forM_cons,bind_ok_iff,forall_mem_cons,← ih]
    constructor
    · rintro ⟨_,here,later⟩
      exact ⟨here,later⟩
    · rintro ⟨here,later⟩
      exact ⟨(),here,later⟩

theorem decodeJsonMapping_ok (payload : Bytes) (context : String) (mapping : Dict String Json) :
    decodeJsonMapping lib payload context = .ok mapping ↔ ∃ value entries, lib.parse payload = .ok value ∧ Plain value ∧
      value = .object entries ∧ mapping = Dict.ofList entries := by
  unfold decodeJsonMapping
  cases lib.parse payload with
  | error failed =>
    constructor
    · intro done
      obtain ⟨_,_,raised⟩ := bind_ok done
      cases raised
    · rintro ⟨_,_,parsed,_⟩
      cases parsed
  | ok decoded =>
    dsimp only
    simp only [bind_ok_iff,forM_ok,rejectHook_ok,requireJsonMapping_ok,Except.ok.injEq]
    constructor
    · rintro ⟨_,plain,entries,same,read⟩
      exact ⟨decoded,entries,rfl,plain,same,read⟩
    · rintro ⟨value,entries,rfl,plain,same,read⟩
      exact ⟨(),plain,entries,same,read⟩

theorem decodePayload_ok (mapping : Dict String Json) (context : String) (payload : Bytes) :
    decodePayload lib mapping context = .ok payload ↔ PayloadFormed lib mapping payload := by
  unfold decodePayload
  simp only [bind_ok_iff,requireBase64_ok,requireSize_ok,requireChecksum_ok,ensure_ok,decodeBase64_ok]
  constructor
  · rintro ⟨encoded,text,size,sized,expected,⟨summed,_⟩,_,length,found,decoded,_,same,_,equal,done⟩
    cases done
    rw [← same] at length sized
    rw [← equal] at summed
    exact ⟨⟨encoded,text,length,decoded⟩,sized,summed⟩
  · rintro ⟨⟨encoded,text,length,decoded⟩,sized,summed⟩
    exact ⟨encoded,text,payload.length,sized,_,⟨summed,isSha256_checksum lib.sha payload⟩,(),length,payload,decoded,(),rfl,(),rfl,rfl⟩

theorem decodeArray_ok {κ β : Type} (decode : Nat → List κ → Json → Except String (κ × β)) (formed : Json → β → Prop) (keyOf : β → κ)
    (each : ∀ index seen record key value, decode index seen record = .ok (key,value) ↔
      formed record value ∧ key = keyOf value ∧ key ∉ seen) (records : List Json) (index : Nat) (seen : List κ) (values : List β) :
    decodeArray decode index seen records = .ok values ↔
      List.Forall₂ formed records values ∧ (values.map keyOf).Nodup ∧ ∀ value ∈ values, keyOf value ∉ seen := by
  induction records generalizing index seen values with
  | nil =>
    constructor
    · intro done
      cases done
      exact ⟨.nil,nodup_nil,by simp⟩
    · rintro ⟨all,_⟩
      cases all
      rfl
  | cons record rest ih =>
    rw [decodeArray,bind_ok_iff]
    simp only [bind_ok_iff]
    constructor
    · rintro ⟨⟨key,first⟩,here,others,later,done⟩
      cases done
      obtain ⟨good,rfl,new⟩ := (each index seen record key first).mp here
      obtain ⟨all,once,apart⟩ := (ih _ _ _).mp later
      refine ⟨.cons good all,nodup_cons.mpr ⟨?_,once⟩,forall_mem_cons.mpr ⟨new,?_⟩⟩
      · intro inside
        obtain ⟨other,listed,same⟩ := List.mem_map.mp inside
        exact apart other listed (mem_append_right _ (mem_singleton.mpr same))
      · exact fun other listed before => apart other listed (mem_append_left _ before)
    · rintro ⟨all,once,apart⟩
      cases all with
      | cons good all =>
        rename_i first others
        obtain ⟨new,once⟩ := nodup_cons.mp once
        obtain ⟨fresh,apart⟩ := forall_mem_cons.mp apart
        refine ⟨(keyOf first,first),(each _ _ _ _ _).mpr ⟨good,rfl,fresh⟩,others,(ih _ _ _).mpr ⟨all,once,?_⟩,rfl⟩
        intro other listed before
        rcases mem_append.mp before with early | same
        · exact apart other listed early
        · exact new (List.mem_map.mpr ⟨other,listed,mem_singleton.mp same⟩)

theorem decodeSourceRecord_ok (index : Nat) (seen : List String) (record : Json) (key : String) (value : String × Nat × Bytes) :
    decodeSourceRecord lib index seen record = .ok (key,value) ↔ SourceFormed lib record value ∧ key = value.1 ∧ key ∉ seen := by
  unfold decodeSourceRecord
  simp only [bind_ok_iff,requireJsonMapping_ok,requireFields_ok,requireText_ok,ensure_ok,requireCheckpointId_ok,decodePayload_ok]
  constructor
  · rintro ⟨mapping,⟨entries,listed,read⟩,_,fields,taskKey,⟨text,named⟩,_,new,checkpointId,number,payload,formed,done⟩
    cases done
    exact ⟨⟨⟨mapping,⟨entries,listed,read,fields⟩,text,number,formed⟩,named⟩,rfl,new⟩
  · rintro ⟨⟨⟨mapping,⟨entries,listed,read,fields⟩,text,number,formed⟩,named⟩,rfl,new⟩
    exact ⟨mapping,⟨entries,listed,read⟩,(),fields,_,⟨text,named⟩,(),new,_,number,_,formed,rfl⟩

theorem decodeOperatorRecord_ok (index : Nat) (seen : List String) (record : Json) (key : String) (value : OperatorStateRecord) :
    decodeOperatorRecord lib index seen record = .ok (key,value) ↔ OperatorFormed record value ∧ key = value.taskKey ∧ key ∉ seen := by
  unfold decodeOperatorRecord
  simp only [bind_ok_iff,requireJsonMapping_ok,requireFields_ok,requireText_ok,ensure_ok,requireChecksum_ok,requireSize_ok]
  constructor
  · rintro ⟨mapping,⟨entries,listed,read⟩,_,fields,taskKey,⟨text,named⟩,_,new,uri,⟨place,filled⟩,expected,⟨summed,sound⟩,size,sized,done⟩
    cases done
    exact ⟨⟨⟨mapping,⟨entries,listed,read,fields⟩,text,place,summed,sized⟩,named,filled,sound⟩,rfl,new⟩
  · rintro ⟨⟨⟨mapping,⟨entries,listed,read,fields⟩,text,place,summed,sized⟩,named,filled,sound⟩,rfl,new⟩
    exact ⟨mapping,⟨entries,listed,read⟩,(),fields,_,⟨text,named⟩,(),new,_,⟨place,filled⟩,_,⟨summed,sound⟩,_,sized,rfl⟩

theorem decodeSinkRecord_ok (index : Nat) (seen : List (String × Nat)) (record : Json) (key : String × Nat)
    (value : String × Nat × String × Bytes) : decodeSinkRecord lib index seen record = .ok (key,value) ↔
      SinkFormed lib record value ∧ key = (value.1,value.2.1) ∧ key ∉ seen := by
  unfold decodeSinkRecord
  simp only [bind_ok_iff,requireJsonMapping_ok,requireFields_ok,requireText_ok,ensure_ok,requireCheckpointId_ok,decodePayload_ok]
  constructor
  · rintro ⟨mapping,⟨entries,listed,read⟩,_,fields,taskKey,⟨text,named⟩,checkpointId,number,transactionId,⟨other,filled⟩,_,new,
      payload,formed,done⟩
    cases done
    exact ⟨⟨⟨mapping,⟨entries,listed,read,fields⟩,text,number,other,formed⟩,named,filled⟩,rfl,new⟩
  · rintro ⟨⟨⟨mapping,⟨entries,listed,read,fields⟩,text,number,other,formed⟩,named,filled⟩,rfl,new⟩
    exact ⟨mapping,⟨entries,listed,read⟩,(),fields,_,⟨text,named⟩,_,number,_,⟨other,filled⟩,(),new,_,formed,rfl⟩

theorem decodeMetadata_ok (payload : Bytes) (envelope : MetadataEnvelope) :
    decodeMetadata lib payload = .ok envelope ↔ Formed lib payload envelope := by
  have sourceRecords := decodeArray_ok (decodeSourceRecord lib) (SourceFormed lib) Prod.fst decodeSourceRecord_ok
  have operatorRecords := decodeArray_ok (decodeOperatorRecord lib) OperatorFormed OperatorStateRecord.taskKey decodeOperatorRecord_ok
  have sinkRecords := decodeArray_ok (decodeSinkRecord lib) (SinkFormed lib) (fun value => (value.1,value.2.1)) decodeSinkRecord_ok
  unfold decodeMetadata
  simp only [bind_ok_iff,ensure_ok,decodeJsonMapping_ok,requireFields_ok,requireFormatVersion_ok,requireCheckpointId_ok,
    requireJsonArray_ok,sourceRecords,operatorRecords,sinkRecords]
  constructor
  · rintro ⟨_,magic,mapping,⟨value,entries,parsed,plain,listed,read⟩,_,fields,_,version,revision,revised,highWater,marked,
      sources,sourceField,sourcePayloads,⟨sourceAll,sourceOnce,_⟩,operators,operatorField,operatorStates,⟨operatorAll,operatorOnce,_⟩,
      sinks,sinkField,sinkPayloads,⟨sinkAll,sinkOnce,_⟩,done⟩
    cases done
    obtain ⟨body,rfl⟩ := isPrefixOf_iff_prefix.mp magic
    rw [drop_left] at parsed
    exact ⟨⟨body,value,mapping,sources,operators,sinks,rfl,parsed,plain,⟨entries,listed,read,fields⟩,version,revised,marked,sourceField,
      sourceAll,operatorField,operatorAll,sinkField,sinkAll⟩,⟨sourceOnce,operatorOnce,sinkOnce⟩⟩
  · rintro ⟨⟨body,value,mapping,sources,operators,sinks,rfl,parsed,plain,⟨entries,listed,read,fields⟩,version,revised,marked,sourceField,
      sourceAll,operatorField,operatorAll,sinkField,sinkAll⟩,⟨sourceOnce,operatorOnce,sinkOnce⟩⟩
    refine ⟨(), isPrefixOf_iff_prefix.mpr ⟨body,rfl⟩,mapping,⟨value,entries,?_,plain,listed,read⟩,(),fields,(),version,_,revised,_,
      marked,sources,sourceField,_,⟨sourceAll,sourceOnce,by simp⟩,operators,operatorField,_,⟨operatorAll,operatorOnce,by simp⟩,
      sinks,sinkField,_,⟨sinkAll,sinkOnce,by simp⟩,rfl⟩
    rw [drop_left]
    exact parsed

end checks

end Klein.CheckpointIO
