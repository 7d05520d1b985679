import Klein.CheckpointMetadata
import Mathlib.Data.List.Sort
import Mathlib.Data.String.Basic

/-! The files of one job's checkpoints (`write_checkpoint`, `latest_checkpoint`,
`read_operator_state` and `cleanup_checkpoints` of `runtime/coordinator/checkpoint_io.py`).
Managed-state files are written in place and skipped where a file of that name exists;
`_metadata` and `_latest` are written to a temporary file that then replaces the old one.
A crash ends the process within one of these writes. -/
namespace Klein.CheckpointIO

structure Files where
  states : Dict StatePath Bytes
  metadata : Dict Nat CheckpointMapping
  latest : Option Int

def Files.empty : Files := ⟨∅,∅,none⟩

/-- The process dies within the file write number `position`. A write in place leaves no
file or the first `kept` bytes, an atomic one the old file or the new one. -/
structure Crash where
  position : Nat
  kept : Option Nat
deriving DecidableEq, Repr

inductive Progress where
  | running (files : Files) (written : Nat)
  | crashed (files : Files)

/-- One file write, with what it leaves when it is finished and when the process dies within it. -/
def Progress.write (crash : Option Crash) (finished : Files → Files) (partly : Nat → Files → Files) : Progress → Progress
  | .crashed files => .crashed files
  | .running files written =>
    match crash with
    | none => .running (finished files) (written + 1)
    | some crash =>
      if crash.position = written then
        match crash.kept with
        | none => .crashed files
        | some kept => .crashed (partly kept files)
      else .running (finished files) (written + 1)

def Progress.writeMetadata (crash : Option Crash) (revision : Nat) (mapping : CheckpointMapping) (progress : Progress) :
    Progress :=
  progress.write crash (fun files => {files with metadata := files.metadata.set revision mapping})
    (fun _ files => {files with metadata := files.metadata.set revision mapping})

def Progress.writeLatest (crash : Option Crash) (revision : Nat) (progress : Progress) : Progress :=
  progress.write crash (fun files => {files with latest := some revision}) (fun _ files => {files with latest := some revision})

structure WriteCall where
  sourceStates : List SourceCheckpointEntry
  metadataRevision : Int
  barrierHighWater : Int
  operatorStates : Dict String Bytes
  sinkCommittables : List SinkCommittableCheckpointEntry

inductive Outcome where
  | returned (revision : Nat)
  | raised (text : String)
  | crashed
deriving DecidableEq, Repr

def validateSourceStates (sourceStates : List SourceCheckpointEntry) : Except String Unit :=
  if sourceStates.any (fun entry => blank entry.taskKey) then
    .error "checkpoint source_states task keys must be non-empty strings"
  else if (sourceStates.map SourceCheckpointEntry.taskKey).Nodup then .ok ()
  else .error "checkpoint source_states must contain at most one entry per task_key"

def validateSinkCommittables (sinkCommittables : List SinkCommittableCheckpointEntry) : Except String Unit :=
  if (sinkCommittables.map (fun entry => (entry.taskKey,entry.checkpointId))).Nodup then .ok ()
  else .error "checkpoint sink_committables must contain at most one transaction per task and checkpoint"

/-- The checks that `write_checkpoint` makes before it writes a file. -/
def WriteCall.validate (call : WriteCall) : Except String Nat := do
  let revision ← validateCheckpointId "metadata_revision" call.metadataRevision
  let _ ← validateCheckpointId "barrier_high_water" call.barrierHighWater
  validateSourceStates call.sourceStates
  validateSinkCommittables call.sinkCommittables
  if call.operatorStates.keys.any blank then throw "operator state task keys must be non-empty strings"
  return revision

/-- `sorted(operator_state_items)` -/
def WriteCall.items (call : WriteCall) : List (String × Bytes) :=
  call.operatorStates.entries.insertionSort (fun first second => first.1 ≤ second.1)

variable (sha : Sha256)

def statePath (revision : Nat) (item : String × Bytes) : StatePath :=
  operatorStatePath revision item.1 (checksum sha item.2)

def stateEntry (revision : Nat) (item : String × Bytes) : OperatorStateCheckpointEntry :=
  ⟨item.1,statePath sha revision item,checksum sha item.2,item.2.length⟩

def Progress.storeState (crash : Option Crash) (revision : Nat) (item : String × Bytes) : Progress → Progress
  | .crashed files => .crashed files
  | .running files written =>
    if files.states.contains (statePath sha revision item) then .running files written
    else (Progress.running files written).write crash
      (fun files => {files with states := files.states.set (statePath sha revision item) item.2})
      (fun kept files => {files with states := files.states.set (statePath sha revision item) (item.2.take kept)})

def Progress.storeStates (crash : Option Crash) (revision : Nat) (items : List (String × Bytes)) (progress : Progress) :
    Progress :=
  items.foldl (fun progress item => progress.storeState sha crash revision item) progress

def WriteCall.mapping (call : WriteCall) (revision : Nat) : CheckpointMapping :=
  encodeCheckpointMapping sha call.metadataRevision call.sourceStates call.barrierHighWater
    (call.items.map (stateEntry sha revision)) call.sinkCommittables

def Progress.finish (revision : Nat) : Progress → Files × Outcome
  | .running files _ => (files,.returned revision)
  | .crashed files => (files,.crashed)

/-- `write_checkpoint`, from its managed-state files on. -/
def publish (call : WriteCall) (crash : Option Crash) (revision : Nat) : Progress → Files × Outcome
  | .crashed files => (files,.crashed)
  | .running files written =>
    match files.metadata.get? revision with
    | some stored =>
      if stored ≠ call.mapping sha revision then
        (files,.raised ("checkpoint revision " ++ toString revision ++ " already has different metadata"))
      else ((Progress.running files written).writeLatest crash revision).finish revision
    | none =>
      (((Progress.running files written).writeMetadata crash revision (call.mapping sha revision)).writeLatest crash
        revision).finish revision

def writeCheckpoint (call : WriteCall) (crash : Option Crash) (files : Files) : Files × Outcome :=
  match call.validate with
  | .error text => (files,.raised text)
  | .ok revision => publish sha call crash revision ((Progress.running files 0).storeStates sha crash revision call.items)

/-- `list_completed_checkpoints` -/
def listCompletedCheckpoints (files : Files) : List Nat := files.metadata.keys.insertionSort (· ≤ ·)

/-- The checkpoint ids that `latest_checkpoint` tries, newest first. -/
def latestCandidates (files : Files) : List Nat :=
  let pointer := match files.latest with
    | none => []
    | some stored => match validateCheckpointId "latest pointer checkpoint_id" stored with
      | .error _ => []
      | .ok checkpointId => [checkpointId]
  (pointer ++ (listCompletedCheckpoints files).reverse).insertionSort (· ≥ ·)

inductive Discovery where
  | found (checkpointId : Nat)
  | exhausted (failures : List String) (metadataCandidates : Nat)
deriving DecidableEq, Repr

/-- The loop of `latest_checkpoint` over its candidates. -/
def discover (files : Files) : List Nat → List Nat → List String → Nat → Discovery
  | [],_,failures,count => .exhausted failures count
  | checkpointId::rest,seen,failures,count =>
    if checkpointId ∈ seen then discover files rest seen failures count
    else match files.metadata.get? checkpointId with
      | none => discover files rest (checkpointId::seen) failures count
      | some mapping => match decodeCheckpointEnvelope sha mapping with
        | .error text =>
          discover files rest (checkpointId::seen) (failures ++ ["chk-" ++ toString checkpointId ++ ": " ++ text]) (count + 1)
        | .ok envelope =>
          if envelope.metadataRevision = checkpointId then .found checkpointId
          else discover files rest (checkpointId::seen) (failures ++ ["chk-" ++ toString checkpointId ++
            ": metadata revision " ++ toString envelope.metadataRevision ++ " does not match its checkpoint directory"])
            (count + 1)

/-- `latest_checkpoint`, with the id of the checkpoint whose directory it returns. -/
def latestCheckpoint (files : Files) : Except String (Option Nat) :=
  match discover sha files (latestCandidates files) [] [] 0 with
  | .found checkpointId => .ok (some checkpointId)
  | .exhausted failures count =>
    if (listCompletedCheckpoints files).isEmpty ∧ count = 0 then .ok none
    else .error ("completed checkpoints exist but none has readable v4 metadata: " ++
      (if failures.isEmpty then "checkpoint metadata disappeared during discovery" else "; ".intercalate failures))

/-- `quote(text, safe="")` -/
def component (text : String) : String :=
  String.join (text.toUTF8.toList.map (fun byte =>
    let character := Char.ofNat byte.toNat
    if byte < 128 && (character.isAlphanum || character ∈ ['_','.','-','~']) then character.toString
    else "%" ++ String.ofList ([Nat.digitChar (byte.toNat / 16),Nat.digitChar (byte.toNat % 16)].map Char.toUpper)))

def StatePath.uri (root : String) (path : StatePath) : String :=
  root ++ "/chk-" ++ toString path.revision ++ "/op-" ++ component path.taskKey ++ "/managed-state-" ++ path.digest ++ ".bin"

/-- `read_operator_state`, at the directory of one checkpoint -/
def readOperatorState (root : String) (files : Files) (checkpointId : Nat) (entry : OperatorStateCheckpointEntry) :
    Except String Bytes :=
  let uri := entry.uri.uri root
  if entry.uri.revision ≠ checkpointId then
    .error ("checkpoint URI '" ++ uri ++ "' is outside root '" ++ root ++ "/chk-" ++ toString checkpointId ++ "'")
  else match files.states.get? entry.uri with
    | none => .error uri
    | some payload =>
      if payload.length ≠ entry.sizeBytes then
        .error ("operator state size mismatch for " ++ uri ++ ": expected " ++ toString entry.sizeBytes ++ ", got " ++
          toString payload.length)
      else if checksum sha payload ≠ entry.checksum then
        .error ("operator state checksum mismatch for " ++ uri ++ ": expected " ++ entry.checksum ++ ", got " ++
          checksum sha payload)
      else .ok payload

/-- `delete_dir` of `chk-N` -/
def Files.deleteDir (checkpointId : Nat) (files : Files) : Files where
  states := files.states.filter (fun path _ => path.revision ≠ checkpointId)
  metadata := files.metadata.erase checkpointId
  latest := files.latest

def cleanupCheckpoints (retainedCount : Int) (files : Files) : Except String Files :=
  if retainedCount < 1 then .error "retained_count must be at least 1"
  else
    let checkpoints := listCompletedCheckpoints files
    .ok ((checkpoints.take (checkpoints.length - retainedCount.toNat)).foldl (fun files checkpointId =>
      files.deleteDir checkpointId) files)

end Klein.CheckpointIO
