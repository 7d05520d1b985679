import Mathlib
import Klein.Dict
import Klein.Fallible

/-! The checkpoint state of the Kafka source (`integrations/kafka/source.py`): positions
and cursors by topic and partition, and the decoder that refuses cursors that do not
stand at the position of their partition. -/
namespace Klein.Kafka
open Fallible List Option

abbrev PartitionKey := String × Int

instance partitionKey_lawful : LawfulBEq PartitionKey := inferInstance

abbrev Positions := Dict PartitionKey Int

abbrev Inflight := Dict PartitionKey (Int × Int)

inductive ValueFormat where
  | raw
  | canalJson
  deriving DecidableEq

def ValueFormat.name : ValueFormat → String
  | .raw => "raw"
  | .canalJson => "canal-json"

inductive PartitionId where
  | number (value : Int)
  | text (value : String)
  deriving DecidableEq

structure Cursor where
  offset : Int
  nextIndex : Int

structure SourceState where
  version : Int
  positions : Dict String (Dict PartitionId Int)
  valueFormat : Option ValueFormat
  formatInflight : Option (Dict String (Dict PartitionId Cursor))

section state
variable {α β : Type}

/-- `_encode_positions` and `_encode_inflight` -/
def encodeEntries (encode : α → β) (dict : Dict PartitionKey α) : Dict String (Dict PartitionId β) :=
  dict.entries.foldl (fun encoded entry => encoded.setInner entry.1.1 (.number entry.1.2) (encode entry.2)) ∅

def encodePositions (positions : Positions) : Dict String (Dict PartitionId Int) := encodeEntries id positions

def encodeInflight (inflight : Inflight) : Dict String (Dict PartitionId Cursor) :=
  encodeEntries (fun cursor => ⟨cursor.1,cursor.2⟩) inflight

def decodePartition (raised : String) : PartitionId → Except String Int
  | .number value => .ok value
  | .text value =>
    if value ≠ "" ∧ value.toList.all Char.isDigit = true then .ok (value.toList.foldl (fun number digit => 10 * number + (digit.toNat - 48 : Int)) 0)
    else .error raised

/-- The loops of `_decode_state` and `_decode_inflight`. -/
def decodeEntries (raised : String) (check : PartitionKey → α → Except String β) (raw : Dict String (Dict PartitionId α)) :
    Except String (Dict PartitionKey β) :=
  raw.entries.foldlM (fun result topic => topic.2.entries.foldlM (fun result entry => do
    let partition ← decodePartition raised entry.1
    let value ← check (topic.1,partition) entry.2
    return result.set (topic.1,partition) value) result) ∅

/-- `_decode_state` -/
def decodeState : Option SourceState → Except String Positions
  | none => .ok ∅
  | some state =>
    if state.version ≠ 1 then .error "Unsupported Kafka source checkpoint state"
    else decodeEntries "Invalid Kafka source checkpoint offset"
      (fun _ offset => if offset < 0 then .error "Invalid Kafka source checkpoint offset" else .ok offset) state.positions

/-- `_decode_inflight` -/
def decodeInflight (positions : Positions) : Option SourceState → Except String Inflight
  | none => .ok ∅
  | some state =>
    decodeEntries "Invalid Kafka source checkpoint format in-flight cursor"
      (fun key (cursor : Cursor) =>
        if cursor.offset < 0 ∨ cursor.nextIndex < 0 then .error "Invalid Kafka source checkpoint format in-flight cursor"
        else if positions.get? key ≠ some cursor.offset ∨ cursor.nextIndex = 0 then
          .error "Kafka source checkpoint format cursor does not match its partition position"
        else .ok (cursor.offset,cursor.nextIndex))
      (state.formatInflight.getD ∅)

/-- What `snapshot_state` returns. -/
def snapshotState (format : ValueFormat) (positions : Positions) (inflight : Inflight) : SourceState where
  version := 1
  positions := encodePositions positions
  valueFormat := if format = .raw then none else some format
  formatInflight := if format = .raw then none else some (encodeInflight inflight)

/-- The checks of `restore_state`. -/
def restoredState (format : ValueFormat) (state : Option SourceState) : Except String (Positions × Inflight) := do
  let positions ← decodeState state
  let checkpointFormat := match state with
    | none => format
    | some state => state.valueFormat.getD .raw
  if checkpointFormat ≠ format then
    throw ("Kafka checkpoint value format '" ++ checkpointFormat.name ++ "' does not match source format '" ++ format.name ++ "'")
  else
    let inflight ← if checkpointFormat ≠ .raw then decodeInflight positions state else pure ∅
    return (positions,inflight)

end state

def Matched (positions : Positions) (inflight : Inflight) : Prop :=
  ∀ key cursor, inflight.get? key = some cursor → positions.get? key = some cursor.1 ∧ 0 ≤ cursor.1 ∧ 0 < cursor.2

section lemmas
variable {α β γ ε κ : Type}

theorem foldlM_flatMap {σ : Type} (outer : List α) (inner : α → List β) (step : σ → β → Except ε σ) (start : σ) :
    outer.foldlM (fun state item => (inner item).foldlM step state) start = (outer.flatMap inner).foldlM step start := by
  induction outer generalizing start with
  | nil => rfl
  | cons item rest ih =>
    rw [foldlM_cons,flatMap_cons,foldlM_append]
    exact congrArg _ (funext fun state => ih state)

variable [DecidableEq κ]

def fileAll (check : α → Except ε (κ × β)) (items : List α) (start : Dict κ β) : Except ε (Dict κ β) :=
  items.foldlM (fun result item => do
    let entry ← check item
    return result.set entry.1 entry.2) start

theorem fileAll_ok (check : α → Except ε (κ × β)) (items : List α) (start : Dict κ β) (target : κ → Option β)
    (checked : ∀ item ∈ items, ∃ entry, check item = .ok entry ∧ target entry.1 = some entry.2)
    (begun : ∀ key value, start.get? key = some value → target key = some value)
    (filed : ∀ key value, target key = some value → start.get? key = some value ∨ ∃ item ∈ items, check item = .ok (key,value)) :
    ∃ result, fileAll check items start = .ok result ∧ ∀ key, result.get? key = target key := by
  induction items generalizing start with
  | nil =>
    refine ⟨start,rfl,fun key => ?_⟩
    cases found : target key with
    | some value => exact (filed key value found).resolve_right (by simp)
    | none =>
      cases held : start.get? key with
      | none => rfl
      | some value => rw [begun key value held] at found; cases found
  | cons item rest ih =>
    obtain ⟨⟨entry,own,named⟩,others⟩ := forall_mem_cons.mp checked
    obtain ⟨result,done,same⟩ := ih (start.set entry.1 entry.2) others (fun key value held => by
      rw [Dict.get?_set] at held
      split at held
      next here => rw [here,named,held]
      next => exact begun key value held) (fun key value found => by
      rw [Dict.get?_set]
      by_cases here : key = entry.1
      · rw [if_pos here]
        rw [here,named] at found
        exact .inl found
      · rw [if_neg here]
        rcases filed key value found with held | ⟨other,inside,checks⟩
        · exact .inl held
        · rcases mem_cons.mp inside with rfl | later
          · exact absurd (congrArg Prod.fst (Except.ok.inj (own.symm.trans checks))).symm here
          · exact .inr ⟨other,later,checks⟩)
    refine ⟨result,?_,same⟩
    unfold fileAll
    rw [foldlM_cons,own]
    exact done

end lemmas

section roundtrip
variable {α β : Type}

def entryAt (encoded : Dict String (Dict PartitionId β)) (topic : String) (partition : PartitionId) : Option β :=
  ((encoded.get? topic).getD ∅).get? partition

theorem entryAt_setInner (encoded : Dict String (Dict PartitionId β)) (topic other : String) (partition id : PartitionId) (value : β) :
    entryAt (encoded.setInner topic partition value) other id =
      if other = topic ∧ id = partition then some value else entryAt encoded other id := by
  unfold entryAt
  rw [Dict.setInner,Dict.get?_set]
  by_cases outer : other = topic
  · subst outer
    simp
  · simp [outer]

theorem entryAt_encodeEntries (encode : α → β) (dict : Dict PartitionKey α) (topic : String) (id : PartitionId) :
    entryAt (encodeEntries encode dict) topic id = match id with
      | .number partition => (dict.get? (topic,partition)).map encode
      | .text _ => none := by
  have general (entries : List (PartitionKey × α)) (encoded : Dict String (Dict PartitionId β)) (filed : Dict PartitionKey α)
      (same : ∀ topic id, entryAt encoded topic id = match id with
        | .number partition => (filed.get? (topic,partition)).map encode
        | .text _ => none) :
      entryAt (entries.foldl (fun encoded entry => encoded.setInner entry.1.1 (.number entry.1.2) (encode entry.2)) encoded) topic id =
        match id with
        | .number partition => ((filed.update entries).get? (topic,partition)).map encode
        | .text _ => none := by
    induction entries generalizing encoded filed with
    | nil => exact same topic id
    | cons entry rest ih =>
      refine ih _ (filed.set entry.1 entry.2) (fun topic id => ?_)
      rw [entryAt_setInner,same]
      cases id with
      | text text => simp
      | number partition =>
        dsimp only
        rw [Dict.get?_set]
        by_cases here : (topic,partition) = entry.1
        · rw [← here]
          simp
        · have apart : ¬ (topic = entry.1.1 ∧ PartitionId.number partition = .number entry.1.2) := fun both =>
            here (Prod.ext both.1 (PartitionId.number.inj both.2))
          rw [if_neg apart,if_neg here]
  have whole := general dict.entries ∅ ∅ (fun topic id => by cases id <;> rfl)
  rw [encodeEntries,whole]
  cases id with
  | text text => rfl
  | number partition =>
    dsimp only
    rw [Dict.get?_update]
    cases dict.get? (topic,partition) <;> rfl

def readings (raw : Dict String (Dict PartitionId α)) : List (String × PartitionId × α) :=
  raw.entries.flatMap (fun topic => topic.2.entries.map (fun entry => (topic.1,entry.1,entry.2)))

theorem mem_readings (raw : Dict String (Dict PartitionId α)) (topic : String) (id : PartitionId) (value : α) :
    (topic,id,value) ∈ readings raw ↔ entryAt raw topic id = some value := by
  unfold readings entryAt
  simp only [mem_flatMap,List.mem_map,Prod.mk.injEq]
  constructor
  · intro read
    obtain ⟨inner,inside,entry,within,outer,own,same⟩ := read
    rw [← outer,← own,← same,(Dict.get?_eq_some raw inner.1 inner.2).mpr inside]
    exact (Dict.get?_eq_some inner.2 entry.1 entry.2).mpr within
  · intro found
    cases held : raw.get? topic with
    | none => rw [held] at found; cases found
    | some inner =>
      rw [held] at found
      exact ⟨(topic,inner),(Dict.get?_eq_some raw topic inner).mp held,(id,value),
        (Dict.get?_eq_some inner id value).mp found,rfl,rfl,rfl⟩

def decodeItem (raised : String) (check : PartitionKey → α → Except String β) (item : String × PartitionId × α) :
    Except String (PartitionKey × β) := do
  let partition ← decodePartition raised item.2.1
  let value ← check (item.1,partition) item.2.2
  return ((item.1,partition),value)

theorem decodeEntries_eq (raised : String) (check : PartitionKey → α → Except String β) (raw : Dict String (Dict PartitionId α)) :
    decodeEntries raised check raw = fileAll (decodeItem raised check) (readings raw) ∅ := by
  unfold fileAll readings
  rw [← foldlM_flatMap]
  unfold decodeEntries
  congr 1
  funext result topic
  rw [foldlM_map]
  congr 1
  funext result entry
  unfold decodeItem
  cases decodePartition raised entry.1 with
  | error raised => rfl
  | ok partition =>
    dsimp only [bind,Except.bind]
    cases check (topic.1,partition) entry.2 <;> rfl

theorem mem_readings_encode (encode : α → β) (dict : Dict PartitionKey α) (item : String × PartitionId × β) :
    item ∈ readings (encodeEntries encode dict) ↔
      ∃ key value, dict.get? key = some value ∧ item = (key.1,.number key.2,encode value) := by
  obtain ⟨topic,id,written⟩ := item
  rw [mem_readings,entryAt_encodeEntries]
  cases id with
  | text text => simp
  | number partition =>
    dsimp only
    rw [map_eq_some_iff]
    constructor
    · intro written
      obtain ⟨value,found,same⟩ := written
      exact ⟨(topic,partition),value,found,by rw [same]⟩
    · intro stored
      obtain ⟨key,value,found,same⟩ := stored
      cases same
      exact ⟨value,found,rfl⟩

theorem decodeItem_number (raised : String) (check : PartitionKey → β → Except String α) (key : PartitionKey) (written : β) :
    decodeItem raised check (key.1,.number key.2,written) = (check key written).map (fun value => (key,value)) := by
  change (check key written).bind (fun value => .ok (key,value)) = _
  cases check key written <;> rfl

theorem decodeEntries_ok (encode : α → β) (raised : String) (check : PartitionKey → β → Except String α) (dict : Dict PartitionKey α)
    (accepted : ∀ key value, dict.get? key = some value → check key (encode value) = .ok value) :
    ∃ result, decodeEntries raised check (encodeEntries encode dict) = .ok result ∧ ∀ key, result.get? key = dict.get? key := by
  rw [decodeEntries_eq]
  refine fileAll_ok _ _ ∅ dict.get? (fun item inside => ?_) (fun key value held => by cases held) (fun key value found => .inr ?_)
  · obtain ⟨key,value,found,rfl⟩ := (mem_readings_encode encode dict item).mp inside
    refine ⟨(key,value),?_,found⟩
    rw [decodeItem_number,accepted key value found]
    rfl
  · refine ⟨_,(mem_readings_encode encode dict _).mpr ⟨key,value,found,rfl⟩,?_⟩
    rw [decodeItem_number,accepted key value found]
    rfl

end roundtrip

section snapshots
variable {positions : Positions} {inflight : Inflight}

theorem decodeState_snapshot (format : ValueFormat) (inflight : Inflight)
    (offsets : ∀ key position, positions.get? key = some position → 0 ≤ position) :
    ∃ decoded, decodeState (some (snapshotState format positions inflight)) = .ok decoded ∧
      ∀ key, decoded.get? key = positions.get? key := by
  unfold decodeState
  dsimp only
  rw [if_neg (by simp [snapshotState])]
  refine decodeEntries_ok id _ _ positions (fun key position found => ?_)
  exact if_neg (by have := offsets key position found; change ¬ position < 0; omega)

theorem snapshot_restores (format : ValueFormat) (formatted : format ≠ .raw)
    (offsets : ∀ key position, positions.get? key = some position → 0 ≤ position) (matched : Matched positions inflight) :
    ∃ decoded, restoredState format (some (snapshotState format positions inflight)) = .ok decoded ∧
      (∀ key, decoded.1.get? key = positions.get? key) ∧ ∀ key, decoded.2.get? key = inflight.get? key := by
  obtain ⟨decoded,done,same⟩ := decodeState_snapshot format inflight offsets
  have cursors : ∃ cursors, decodeInflight decoded (some (snapshotState format positions inflight)) = .ok cursors ∧
      ∀ key, cursors.get? key = inflight.get? key := by
    unfold decodeInflight snapshotState
    dsimp only
    rw [if_neg formatted,getD_some]
    refine decodeEntries_ok _ _ _ inflight (fun key cursor found => ?_)
    obtain ⟨position,offset,index⟩ := matched key cursor found
    dsimp only
    rw [if_neg (by omega),same key,if_neg (by simp [position]; omega)]
  obtain ⟨cursors,read,same'⟩ := cursors
  refine ⟨(decoded,cursors),?_,same,same'⟩
  unfold restoredState
  rw [ok_bind done]
  have written : (snapshotState format positions inflight).valueFormat.getD .raw = format := by simp [snapshotState,formatted]
  dsimp only
  rw [written,if_neg (by simp),if_pos formatted,ok_bind read]
  rfl

end snapshots

end Klein.Kafka
