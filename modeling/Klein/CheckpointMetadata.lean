import Klein.Dict

/-! Checkpoint metadata (`_encode_checkpoint_mapping` and `_decode_checkpoint_envelope` of
`runtime/coordinator/checkpoint_io.py`). A mapping stands for the JSON text that is
written for it, base64 text for the bytes it encodes, and an application value for its
pickled bytes. -/
namespace Klein.CheckpointIO
open List

abbrev Bytes := List UInt8

/-- `hashlib.sha256(payload).hexdigest()` -/
structure Sha256 where
  hexdigest : Bytes → String
  digits : ∀ payload, (hexdigest payload).toList.length = 64 ∧
    ∀ digit ∈ (hexdigest payload).toList, (digit.isDigit || (decide ('a' ≤ digit) && decide (digit ≤ 'f'))) = true

structure StatePath where
  revision : Nat
  taskKey : String
  digest : String
deriving DecidableEq, Repr

/-- `CheckpointLayout.operator_state_path`: the name of the file has 16 digits of the digest. -/
def operatorStatePath (revision : Nat) (taskKey checksum : String) : StatePath :=
  ⟨revision,taskKey,String.ofList ((checksum.toList.drop 7).take 16)⟩

/-- `str.isspace` of one character -/
def isSpace (character : Char) : Bool :=
  let code := character.toNat
  (9 ≤ code && code ≤ 13) || (28 ≤ code && code ≤ 32) || code = 0x85 || code = 0xa0 || code = 0x1680 ||
    (0x2000 ≤ code && code ≤ 0x200a) || code = 0x2028 || code = 0x2029 || code = 0x202f || code = 0x205f || code = 0x3000

/-- `not text.strip()` -/
def blank (text : String) : Bool := text.toList.all isSpace

structure SourceCheckpointEntry where
  taskKey : String
  checkpointId : Nat
  state : Bytes
  nonEmpty : taskKey ≠ ""

structure SinkCommittableCheckpointEntry where
  taskKey : String
  checkpointId : Nat
  transactionId : String
  committable : Bytes
  taskKeyNonBlank : blank taskKey = false
  transactionIdNonBlank : blank transactionId = false

structure OperatorStateCheckpointEntry where
  taskKey : String
  uri : StatePath
  checksum : String
  sizeBytes : Int
deriving DecidableEq, Repr

/-- `payload_b64`, `size_bytes` and `checksum` -/
structure ApplicationEnvelope where
  payload : Bytes
  sizeBytes : Int
  checksum : String
deriving DecidableEq, Repr

structure EncodedSource where
  taskKey : String
  checkpointId : Int
  envelope : ApplicationEnvelope
deriving DecidableEq, Repr

structure EncodedSink where
  taskKey : String
  checkpointId : Int
  transactionId : String
  envelope : ApplicationEnvelope
deriving DecidableEq, Repr

structure CheckpointMapping where
  version : Int
  metadataRevision : Int
  sourceStates : List EncodedSource
  barrierHighWater : Int
  operatorStates : List OperatorStateCheckpointEntry
  sinkCommittables : List EncodedSink
deriving DecidableEq, Repr

structure CheckpointEnvelope where
  metadataRevision : Nat
  barrierHighWater : Nat
  sourcePayloads : List (String × Nat × Bytes)
  operatorStates : List OperatorStateCheckpointEntry
  sinkPayloads : List (String × Nat × String × Bytes)

def checkpointFormatVersion : Int := 4

variable (sha : Sha256)

def checksum (payload : Bytes) : String := "sha256:" ++ sha.hexdigest payload

/-- `_encode_application_payload`, of a pickled value -/
def encodeApplicationPayload (payload : Bytes) : ApplicationEnvelope := ⟨payload,payload.length,checksum sha payload⟩

/-- `_encode_checkpoint_mapping` -/
def encodeCheckpointMapping (metadataRevision : Int) (sourceStates : List SourceCheckpointEntry) (barrierHighWater : Int)
    (operatorStates : List OperatorStateCheckpointEntry) (sinkCommittables : List SinkCommittableCheckpointEntry) :
    CheckpointMapping where
  version := checkpointFormatVersion
  metadataRevision
  sourceStates := sourceStates.map (fun entry =>
    ⟨entry.taskKey,entry.checkpointId,encodeApplicationPayload sha entry.state⟩)
  barrierHighWater
  operatorStates
  sinkCommittables := sinkCommittables.map (fun entry =>
    ⟨entry.taskKey,entry.checkpointId,entry.transactionId,encodeApplicationPayload sha entry.committable⟩)

/-- `_require_non_empty_string` -/
def requireNonEmptyString (value context : String) : Except String String :=
  if blank value then .error (context ++ " must be a non-empty string") else .ok value

/-- `^sha256:[0-9a-f]{64}$` -/
def isSha256 (value : String) : Bool :=
  let digits := value.toList.drop 7
  value.toList.take 7 = "sha256:".toList && digits.length = 64 &&
    digits.all (fun digit => digit.isDigit || (decide ('a' ≤ digit) && decide (digit ≤ 'f')))

def requireSha256 (value context : String) : Except String String :=
  if isSha256 value then .ok value else .error (context ++ " must be a lowercase sha256 checksum")

def validateSize (value : Int) (context : String) : Except String Nat :=
  if value < 0 then .error (context ++ " must be a non-negative integer") else .ok value.toNat

def validateCheckpointId (name : String) (value : Int) : Except String Nat :=
  if value < 0 then .error ("checkpoint " ++ name ++ " must be a non-negative integer") else .ok value.toNat

def base64Size (size : Nat) : Nat := 4 * ((size + 2) / 3)

/-- `_decode_application_envelope` -/
def decodeApplicationEnvelope (envelope : ApplicationEnvelope) (context : String) : Except String Bytes := do
  let size ← validateSize envelope.sizeBytes (context ++ ".size_bytes")
  let expected ← requireSha256 envelope.checksum (context ++ ".checksum")
  if base64Size envelope.payload.length ≠ base64Size size then
    throw (context ++ " base64 size mismatch: expected " ++ toString (base64Size size) ++ ", got " ++
      toString (base64Size envelope.payload.length))
  if envelope.payload.length ≠ size then
    throw (context ++ " payload size mismatch: expected " ++ toString size ++ ", got " ++
      toString envelope.payload.length)
  if checksum sha envelope.payload ≠ expected then
    throw (context ++ " payload checksum mismatch: expected " ++ expected ++ ", got " ++ checksum sha envelope.payload)
  return envelope.payload

def decodeRecords {α β κ : Type} (decode : Nat → List κ → α → Except String β) (key : α → κ) :
    Nat → List κ → List α → Except String (List β)
  | _,_,[] => .ok []
  | index,seen,record::rest => do
    let first ← decode index seen record
    let others ← decodeRecords decode key (index + 1) (seen ++ [key record]) rest
    return first::others

/-- `_decode_source_envelopes` -/
def decodeSourceEnvelopes (records : List EncodedSource) : Except String (List (String × Nat × Bytes)) :=
  decodeRecords (fun index seen record => do
    let context := "checkpoint source_states[" ++ toString index ++ "]"
    let taskKey ← requireNonEmptyString record.taskKey (context ++ ".task_key")
    if taskKey ∈ seen then throw "checkpoint source_states must contain at most one entry per task_key"
    let checkpointId ← validateCheckpointId ("source_states[" ++ toString index ++ "].checkpoint_id") record.checkpointId
    let payload ← decodeApplicationEnvelope sha record.envelope context
    return (taskKey,checkpointId,payload)) EncodedSource.taskKey 0 [] records

/-- `_decode_operator_envelopes` -/
def decodeOperatorEnvelopes (records : List OperatorStateCheckpointEntry) :
    Except String (List OperatorStateCheckpointEntry) :=
  decodeRecords (fun index seen record => do
    let context := "checkpoint operator_states[" ++ toString index ++ "]"
    let taskKey ← requireNonEmptyString record.taskKey (context ++ ".task_key")
    if taskKey ∈ seen then throw "checkpoint operator_states must contain at most one entry per task_key"
    let expected ← requireSha256 record.checksum (context ++ ".checksum")
    let size ← validateSize record.sizeBytes (context ++ ".size_bytes")
    return ⟨taskKey,record.uri,expected,size⟩) OperatorStateCheckpointEntry.taskKey 0 [] records

/-- `_decode_sink_envelopes` -/
def decodeSinkEnvelopes (records : List EncodedSink) : Except String (List (String × Nat × String × Bytes)) :=
  decodeRecords (fun index seen record => do
    let context := "checkpoint sink_committables[" ++ toString index ++ "]"
    let taskKey ← requireNonEmptyString record.taskKey (context ++ ".task_key")
    let checkpointId ←
      validateCheckpointId ("sink_committables[" ++ toString index ++ "].checkpoint_id") record.checkpointId
    let transactionId ← requireNonEmptyString record.transactionId (context ++ ".transaction_id")
    if (taskKey,record.checkpointId) ∈ seen then
      throw "checkpoint sink_committables must contain at most one transaction per task and checkpoint"
    let payload ← decodeApplicationEnvelope sha record.envelope context
    return (taskKey,checkpointId,transactionId,payload)) (fun record => (record.taskKey,record.checkpointId)) 0 [] records

/-- `_decode_checkpoint_envelope`, of a mapping that has its fields -/
def decodeCheckpointEnvelope (mapping : CheckpointMapping) : Except String CheckpointEnvelope := do
  if mapping.version ≠ checkpointFormatVersion then
    throw ("unsupported checkpoint format version: " ++ toString mapping.version)
  let metadataRevision ← validateCheckpointId "metadata_revision" mapping.metadataRevision
  let barrierHighWater ← validateCheckpointId "barrier_high_water" mapping.barrierHighWater
  let sourcePayloads ← decodeSourceEnvelopes sha mapping.sourceStates
  let operatorStates ← decodeOperatorEnvelopes mapping.operatorStates
  let sinkPayloads ← decodeSinkEnvelopes sha mapping.sinkCommittables
  return ⟨metadataRevision,barrierHighWater,sourcePayloads,operatorStates,sinkPayloads⟩

theorem isSha256_checksum (payload : Bytes) : isSha256 (checksum sha payload) = true := by
  obtain ⟨length,hex⟩ := sha.digits payload
  have text : (checksum sha payload).toList = "sha256:".toList ++ (sha.hexdigest payload).toList := by
    rw [checksum,String.toList_append]
  have head : (checksum sha payload).toList.take 7 = "sha256:".toList := by
    rw [text]
    exact take_left' rfl
  have rest : (checksum sha payload).toList.drop 7 = (sha.hexdigest payload).toList := by
    rw [text]
    exact drop_left' rfl
  simp only [isSha256,head,rest,length,decide_true,Bool.true_and,List.all_eq_true]
  exact hex

theorem decode_encodeApplicationPayload (payload : Bytes) (context : String) :
    decodeApplicationEnvelope sha (encodeApplicationPayload sha payload) context = .ok payload := by
  have size : ¬ (payload.length : Int) < 0 := by omega
  simp [decodeApplicationEnvelope,encodeApplicationPayload,validateSize,size,requireSha256,isSha256_checksum,pure,
    Except.pure,bind,Except.bind]

theorem decodeRecords_ok {α β κ : Type} (decode : Nat → List κ → α → Except String β) (key : α → κ) (value : α → β)
    (records : List α) (index : Nat) (seen : List κ) (distinct : (seen ++ records.map key).Nodup)
    (each : ∀ record ∈ records, ∀ index seen, key record ∉ seen → decode index seen record = .ok (value record)) :
    decodeRecords decode key index seen records = .ok (records.map value) := by
  induction records generalizing index seen with
  | nil => rfl
  | cons record rest ih =>
    have fresh : key record ∉ seen := by
      intro before
      exact (nodup_append.mp distinct).2.2 _ before _ (List.mem_map.mpr ⟨record,mem_cons_self,rfl⟩) rfl
    have later := ih (index + 1) (seen ++ [key record]) (by simpa using distinct)
      (fun other inside => each other (mem_cons_of_mem _ inside))
    simp [decodeRecords,each record mem_cons_self index seen fresh,later,bind,Except.bind,pure,Except.pure]

theorem validateCheckpointId_nat (name : String) (value : Nat) : validateCheckpointId name value = .ok value := by
  have natural : ¬ (value : Int) < 0 := by omega
  simp [validateCheckpointId,natural]

section written
variable (metadataRevision barrierHighWater : Nat) (sourceStates : List SourceCheckpointEntry)
variable (operatorStates : List OperatorStateCheckpointEntry) (sinkCommittables : List SinkCommittableCheckpointEntry)

theorem decodeSourceEnvelopes_encode (keys : ∀ entry ∈ sourceStates, blank entry.taskKey = false)
    (distinct : (sourceStates.map SourceCheckpointEntry.taskKey).Nodup) :
    decodeSourceEnvelopes sha (sourceStates.map (fun entry =>
      ⟨entry.taskKey,entry.checkpointId,encodeApplicationPayload sha entry.state⟩)) =
      .ok (sourceStates.map (fun entry => (entry.taskKey,entry.checkpointId,entry.state))) := by
  unfold decodeSourceEnvelopes
  rw [decodeRecords_ok _ EncodedSource.taskKey
    (fun record => (record.taskKey,record.checkpointId.toNat,record.envelope.payload)) _ 0 []
    (by simpa [Function.comp_def] using distinct) ?_,List.map_map]
  · rfl
  · intro record inside index seen fresh
    obtain ⟨entry,listed,rfl⟩ := List.mem_map.mp inside
    have fresh : entry.taskKey ∉ seen := fresh
    simp [requireNonEmptyString,keys entry listed,fresh,validateCheckpointId_nat,decode_encodeApplicationPayload,
      bind,Except.bind,pure,Except.pure]
    rfl

theorem decodeOperatorEnvelopes_self (keys : ∀ entry ∈ operatorStates, blank entry.taskKey = false)
    (distinct : (operatorStates.map OperatorStateCheckpointEntry.taskKey).Nodup)
    (sound : ∀ entry ∈ operatorStates, isSha256 entry.checksum = true ∧ 0 ≤ entry.sizeBytes) :
    decodeOperatorEnvelopes operatorStates = .ok operatorStates := by
  unfold decodeOperatorEnvelopes
  rw [decodeRecords_ok _ OperatorStateCheckpointEntry.taskKey id operatorStates 0 [] (by simpa using distinct) ?_,
    List.map_id]
  intro record inside index seen fresh
  obtain ⟨checksums,size⟩ := sound record inside
  have natural : ¬ record.sizeBytes < 0 := by omega
  simp [requireNonEmptyString,keys record inside,fresh,requireSha256,checksums,validateSize,natural,
    Int.max_eq_left size,bind,Except.bind,pure,Except.pure]

theorem decodeSinkEnvelopes_encode
    (distinct : (sinkCommittables.map (fun entry => (entry.taskKey,entry.checkpointId))).Nodup) :
    decodeSinkEnvelopes sha (sinkCommittables.map (fun entry =>
      ⟨entry.taskKey,entry.checkpointId,entry.transactionId,encodeApplicationPayload sha entry.committable⟩)) =
      .ok (sinkCommittables.map
        (fun entry => (entry.taskKey,entry.checkpointId,entry.transactionId,entry.committable))) := by
  unfold decodeSinkEnvelopes
  rw [decodeRecords_ok _ (fun record : EncodedSink => (record.taskKey,record.checkpointId))
    (fun record => (record.taskKey,record.checkpointId.toNat,record.transactionId,record.envelope.payload)) _ 0 [] ?_ ?_,
    List.map_map]
  · rfl
  · have injective : Function.Injective (fun key : String × Nat => (key.1,(key.2 : Int))) := by
      rintro ⟨first,number⟩ ⟨second,other⟩ same
      obtain ⟨names,numbers⟩ := Prod.mk.injEq _ _ _ _ ▸ same
      rw [Prod.mk.injEq]
      exact ⟨names,Int.ofNat_inj.mp numbers⟩
    have mapped := distinct.map injective
    simpa [Function.comp_def] using mapped
  · intro record inside index seen fresh
    obtain ⟨entry,listed,rfl⟩ := List.mem_map.mp inside
    have fresh : (entry.taskKey,(entry.checkpointId : Int)) ∉ seen := fresh
    simp [requireNonEmptyString,entry.taskKeyNonBlank,entry.transactionIdNonBlank,fresh,validateCheckpointId_nat,
      decode_encodeApplicationPayload,bind,Except.bind,pure,Except.pure]
    rfl

theorem decode_encodeCheckpointMapping
    (sourceKeys : ∀ entry ∈ sourceStates, blank entry.taskKey = false)
    (sourceDistinct : (sourceStates.map SourceCheckpointEntry.taskKey).Nodup)
    (operatorKeys : ∀ entry ∈ operatorStates, blank entry.taskKey = false)
    (operatorDistinct : (operatorStates.map OperatorStateCheckpointEntry.taskKey).Nodup)
    (operatorSound : ∀ entry ∈ operatorStates, isSha256 entry.checksum = true ∧ 0 ≤ entry.sizeBytes)
    (sinkDistinct : (sinkCommittables.map (fun entry => (entry.taskKey,entry.checkpointId))).Nodup) :
    decodeCheckpointEnvelope sha (encodeCheckpointMapping sha metadataRevision sourceStates barrierHighWater operatorStates
      sinkCommittables) = .ok ⟨metadataRevision,barrierHighWater,
        sourceStates.map (fun entry => (entry.taskKey,entry.checkpointId,entry.state)),operatorStates,
        sinkCommittables.map (fun entry => (entry.taskKey,entry.checkpointId,entry.transactionId,entry.committable))⟩ := by
  simp [decodeCheckpointEnvelope,encodeCheckpointMapping,validateCheckpointId_nat,
    decodeSourceEnvelopes_encode sha sourceStates sourceKeys sourceDistinct,
    decodeOperatorEnvelopes_self operatorStates operatorKeys operatorDistinct operatorSound,
    decodeSinkEnvelopes_encode sha sinkCommittables sinkDistinct,bind,Except.bind,pure,Except.pure]

end written

end Klein.CheckpointIO
