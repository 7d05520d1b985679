import Klein.CheckpointCodec
import Klein.CheckpointRestorable
import Klein.Effects

/-! Checkpoint metadata is read back as it was written, with its application values. -/
namespace Klein.CheckpointIO
open Fallible List Option

section writing
variable {lib : Library}

structure Named (envelope : MetadataEnvelope) : Prop where
  sources : ∀ entry ∈ envelope.sourcePayloads, blank entry.1 = false
  operators : ∀ entry ∈ envelope.operatorStates, blank entry.taskKey = false ∧ blank entry.uri = false ∧ isSha256 entry.checksum = true
  sinks : ∀ entry ∈ envelope.sinkPayloads, blank entry.1 = false ∧ blank entry.2.2.1 = false

theorem forall₂_right {α β : Type} (related : α → β → Prop) (holds : β → Prop) (each : ∀ first second, related first second → holds second)
    (records : List α) (entries : List β) (all : List.Forall₂ related records entries) : ∀ entry ∈ entries, holds entry := by
  induction all with
  | nil => simp
  | cons here _ ih => exact forall_mem_cons.mpr ⟨each _ _ here,ih⟩

theorem Formed.named {payload : Bytes} {envelope : MetadataEnvelope} (formed : Formed lib payload envelope) : Named envelope := by
  obtain ⟨_,_,_,_,_,_,_,_,_,_,_,_,_,_,sources,_,operators,_,sinks⟩ := formed.written
  exact ⟨forall₂_right _ _ (fun _ _ here => here.named) _ _ sources,forall₂_right _ _ (fun _ _ here => here.named) _ _ operators,
    forall₂_right _ _ (fun _ _ here => here.named) _ _ sinks⟩

def payloads (envelope : MetadataEnvelope) : List Bytes :=
  envelope.sourcePayloads.map (fun entry => entry.2.2) ++ envelope.sinkPayloads.map (fun entry => entry.2.2.2)

/-- `json` and `base64` read back what they have written of an envelope. -/
structure ReadsBack (lib : Library) (envelope : MetadataEnvelope) : Prop where
  json : lib.parse (lib.dumps (encodedMapping lib envelope)) = .ok (encodedMapping lib envelope)
  base64 : ∀ payload ∈ payloads envelope, lib.b64decode (lib.b64encode payload) = some payload ∧
    (lib.b64encode payload).length = base64Size payload.length

theorem hasFields_object (entries : List (String × Json)) (fields : List String) (distinct : (entries.map Prod.fst).Nodup)
    (same : (entries.map Prod.fst).Perm fields) : HasFields (.object entries) fields ⟨entries,distinct⟩ := by
  refine ⟨entries,rfl,(Dict.ofList_entries ⟨entries,distinct⟩).symm,fun name => ?_⟩
  rw [← same.mem_iff]
  unfold Dict.contains
  simp

theorem hookCallsItems_eq (items : List Json) : hookCallsItems items = items.flatMap hookCalls := by
  induction items with
  | nil => rfl
  | cons item rest ih => rw [hookCallsItems,ih,flatMap_cons]

theorem plain_encodedMapping (envelope : MetadataEnvelope) : Plain (encodedMapping lib envelope) := by
  have records : ∀ {α : Type} (entries : List α) (record : α → Json) (names : List String) (_ : names.Nodup)
      (_ : ∀ entry, hookCalls (record entry) = [.pairs names]), ∀ call ∈ hookCalls (.list (entries.map record)),
      ∃ names, call = .pairs names ∧ names.Nodup := by
    intro α entries record names distinct single call inside
    rw [hookCalls,hookCallsItems_eq,flatMap_map] at inside
    obtain ⟨entry,_,here⟩ := mem_flatMap.mp inside
    rw [single,mem_singleton] at here
    exact ⟨names,here,distinct⟩
  have operators := records envelope.operatorStates operatorRecord ["checksum","size_bytes","task_key","uri"] (by decide) (fun _ => rfl)
  have sinks := records envelope.sinkPayloads (sinkRecord lib)
    ["checkpoint_id","checksum","payload_b64","size_bytes","task_key","transaction_id"] (by decide) (fun _ => rfl)
  have sources := records envelope.sourcePayloads (sourceRecord lib)
    ["checkpoint_id","checksum","payload_b64","size_bytes","task_key"] (by decide) (fun _ => rfl)
  intro call inside
  have calls : hookCalls (encodedMapping lib envelope) = hookCalls (.list (envelope.operatorStates.map operatorRecord)) ++
      (hookCalls (.list (envelope.sinkPayloads.map (sinkRecord lib))) ++
        (hookCalls (.list (envelope.sourcePayloads.map (sourceRecord lib))) ++ [.pairs ["barrier_high_water","metadata_revision",
          "operator_states","sink_committables","source_states","version"]])) := by
    simp only [encodedMapping,hookCalls,hookCallsEntries,map_cons,map_nil,nil_append,append_nil,append_assoc]
  rw [calls] at inside
  simp only [mem_append,mem_singleton] at inside
  rcases inside with operator | sink | source | top
  · exact operators call operator
  · exact sinks call sink
  · exact sources call source
  · exact ⟨_,top,by decide⟩

theorem payloadFormed_items (mapping : Dict String Json) (payload : Bytes)
    (text : field mapping "payload_b64" = .text (lib.b64encode payload)) (size : field mapping "size_bytes" = .int payload.length)
    (sum : field mapping "checksum" = .text (checksum lib.sha payload))
    (back : lib.b64decode (lib.b64encode payload) = some payload ∧ (lib.b64encode payload).length = base64Size payload.length) :
    PayloadFormed lib mapping payload := ⟨⟨_,text,back.2,back.1⟩,size,sum⟩

theorem forall₂_records {α : Type} (record : α → Json) (formed : Json → α → Prop) (entries : List α)
    (each : ∀ entry ∈ entries, formed (record entry) entry) : List.Forall₂ formed (entries.map record) entries := by
  induction entries with
  | nil => exact .nil
  | cons entry rest ih =>
    obtain ⟨here,later⟩ := forall_mem_cons.mp each
    exact .cons here (ih later)

theorem encodeMetadata_formed (envelope : MetadataEnvelope) (named : Named envelope) (keyed : Keyed envelope)
    (back : ReadsBack lib envelope) : Formed lib (encodeMetadata lib envelope) envelope := by
  refine ⟨⟨_,_,_,_,_,_,rfl,back.json,plain_encodedMapping envelope,hasFields_object _ envelopeFields ?_ ?_,rfl,rfl,rfl,rfl,?_,
    rfl,?_,rfl,?_⟩,keyed⟩
  · show List.Nodup ["barrier_high_water","metadata_revision","operator_states","sink_committables","source_states","version"]
    decide
  · show List.Perm ["barrier_high_water","metadata_revision","operator_states","sink_committables","source_states","version"] _
    decide
  · apply forall₂_records
    intro entry inside
    have good := back.base64 entry.2.2 (mem_append_left _ (List.mem_map.mpr ⟨entry,inside,rfl⟩))
    refine ⟨⟨_,hasFields_object _ sourceFields ?_ ?_,rfl,rfl,payloadFormed_items _ _ rfl rfl rfl good⟩,named.sources entry inside⟩
    · show List.Nodup ["checkpoint_id","checksum","payload_b64","size_bytes","task_key"]
      decide
    · show List.Perm ["checkpoint_id","checksum","payload_b64","size_bytes","task_key"] _
      decide
  · apply forall₂_records
    intro entry inside
    refine ⟨⟨_,hasFields_object _ operatorFields ?_ ?_,rfl,rfl,rfl,rfl⟩,named.operators entry inside⟩
    · show List.Nodup ["checksum","size_bytes","task_key","uri"]
      decide
    · show List.Perm ["checksum","size_bytes","task_key","uri"] _
      decide
  · apply forall₂_records
    intro entry inside
    have good := back.base64 entry.2.2.2 (mem_append_right _ (List.mem_map.mpr ⟨entry,inside,rfl⟩))
    refine ⟨⟨_,hasFields_object _ sinkFields ?_ ?_,rfl,rfl,rfl,payloadFormed_items _ _ rfl rfl rfl good⟩,named.sinks entry inside⟩
    · show List.Nodup ["checkpoint_id","checksum","payload_b64","size_bytes","task_key","transaction_id"]
      decide
    · show List.Perm ["checkpoint_id","checksum","payload_b64","size_bytes","task_key","transaction_id"] _
      decide

end writing

section loading
variable {lib : Library} {ν : Type} (loads : Bytes → Except String ν) (transactionId : ν → Option String)

structure SourceLoaded (entry : String × Nat × Bytes) (loaded : String × Nat × ν) : Prop where
  taskKey : loaded.1 = entry.1
  checkpointId : loaded.2.1 = entry.2.1
  value : loads entry.2.2 = .ok loaded.2.2

structure SinkLoaded (entry : String × Nat × String × Bytes) (loaded : String × Nat × ν) : Prop where
  taskKey : loaded.1 = entry.1
  checkpointId : loaded.2.1 = entry.2.1
  value : loads entry.2.2.2 = .ok loaded.2.2
  transaction : transactionId loaded.2.2 = some entry.2.2.1

variable {loads transactionId}

theorem loadsTrusted_ok (payload : Bytes) (context : String) (before after : List Bytes) (value : ν) :
    loadsTrusted loads payload context before = .ok value after ↔ loads payload = .ok value ∧ after = before ++ [payload] := by
  unfold loadsTrusted
  cases loads payload with
  | error text => simp
  | ok found => simp [eq_comm]

theorem checking_ok {α : Type} (checked : Except String α) (before after : List Bytes) (value : α) :
    checking checked before = .ok value after ↔ checked = .ok value ∧ after = before := by
  unfold checking
  cases checked with
  | error text => simp
  | ok found => simp [eq_comm]

theorem loadSourceStates_ok (entries : List (String × Nat × Bytes)) (before after : List Bytes) (loaded : List (String × Nat × ν)) :
    loadSourceStates lib loads entries before = .ok loaded after ↔
      List.Forall₂ (SourceLoaded loads) entries loaded ∧ after = before ++ entries.map (fun entry => entry.2.2) := by
  induction entries generalizing before after loaded with
  | nil =>
    rw [loadSourceStates,Effects.pure_ok_iff,forall₂_nil_left_iff,map_nil,append_nil]
  | cons entry rest ih =>
    rw [loadSourceStates]
    simp only [Effects.bind_ok_iff,loadsTrusted_ok,ih,Effects.pure_ok_iff,map_cons]
    constructor
    · rintro ⟨state,_,⟨read,rfl⟩,others,_,⟨later,rfl⟩,rfl,rfl⟩
      exact ⟨.cons ⟨rfl,rfl,read⟩ later,by rw [append_assoc,singleton_append]⟩
    · rintro ⟨all,rfl⟩
      cases all with
      | cons here later =>
        rename_i first others
        refine ⟨first.2.2,_,⟨here.value,rfl⟩,others,_,⟨later,rfl⟩,?_,by rw [append_assoc,singleton_append]⟩
        rw [← here.taskKey,← here.checkpointId]

theorem sinkCommittableEntry_ok (taskKey : String) (checkpointId : Nat) (recorded : String) (committable : ν)
    (result : String × Nat × ν) (named : blank taskKey = false) (filled : blank recorded = false) :
    sinkCommittableEntry lib transactionId taskKey checkpointId recorded committable = .ok result ↔
      transactionId committable = some recorded ∧ result = (taskKey,checkpointId,committable) := by
  unfold sinkCommittableEntry
  cases transactionId committable with
  | none => simp [bind_ok_iff]
  | some found =>
    simp only [bind_ok_iff,ensure_ok,named,exists_const,true_and,Except.ok.injEq,Option.some.injEq]
    constructor
    · rintro ⟨_,rfl,_,same,done⟩
      cases done
      exact ⟨same,rfl⟩
    · rintro ⟨rfl,rfl⟩
      exact ⟨found,rfl,filled,rfl,rfl⟩

theorem loadSinkCommittables_ok (entries : List (String × Nat × String × Bytes)) (before after : List Bytes)
    (loaded : List (String × Nat × ν)) (named : ∀ entry ∈ entries, blank entry.1 = false ∧ blank entry.2.2.1 = false) :
    loadSinkCommittables lib loads transactionId entries before = .ok loaded after ↔
      List.Forall₂ (SinkLoaded loads transactionId) entries loaded ∧ after = before ++ entries.map (fun entry => entry.2.2.2) := by
  induction entries generalizing before after loaded with
  | nil =>
    rw [loadSinkCommittables,Effects.pure_ok_iff,forall₂_nil_left_iff,map_nil,append_nil]
  | cons entry rest ih =>
    obtain ⟨⟨key,transaction⟩,named⟩ := forall_mem_cons.mp named
    rw [loadSinkCommittables]
    simp only [Effects.bind_ok_iff,loadsTrusted_ok,checking_ok,sinkCommittableEntry_ok _ _ _ _ _ key transaction,ih _ _ _ named,
      Effects.pure_ok_iff,map_cons]
    constructor
    · rintro ⟨committable,_,⟨read,rfl⟩,_,_,⟨⟨same,rfl⟩,rfl⟩,others,_,⟨later,rfl⟩,rfl,rfl⟩
      exact ⟨.cons ⟨rfl,rfl,read,same⟩ later,by rw [append_assoc,singleton_append]⟩
    · rintro ⟨all,rfl⟩
      cases all with
      | cons here later =>
        rename_i first others
        refine ⟨first.2.2,_,⟨here.value,rfl⟩,first,_,⟨⟨here.transaction,?_⟩,rfl⟩,others,_,⟨later,rfl⟩,rfl,?_⟩
        · rw [← here.taskKey,← here.checkpointId]
        · rw [append_assoc,singleton_append]

theorem forall₂_map {α β κ : Type} (related : α → β → Prop) (left : α → κ) (right : β → κ) (same : ∀ first second, related first second →
    right second = left first) (entries : List α) (loaded : List β) (all : List.Forall₂ related entries loaded) :
    loaded.map right = entries.map left := by
  induction all with
  | nil => rfl
  | cons here _ ih => rw [map_cons,map_cons,same _ _ here,ih]

theorem decodeCheckpoint_ok (payload : Bytes) (before after : List Bytes) (revision highWater : Nat)
    (states : List (String × Nat × ν)) (operators : List OperatorStateRecord) :
    decodeCheckpoint lib loads payload before = .ok (revision,states,highWater,operators) after ↔
      ∃ envelope, Formed lib payload envelope ∧ List.Forall₂ (SourceLoaded loads) envelope.sourcePayloads states ∧
        revision = envelope.metadataRevision ∧ highWater = envelope.barrierHighWater ∧ operators = envelope.operatorStates ∧
        after = before ++ envelope.sourcePayloads.map (fun entry => entry.2.2) := by
  unfold decodeCheckpoint
  simp only [Effects.bind_ok_iff,checking_ok,decodeMetadata_ok,loadSourceStates_ok,Effects.pure_ok_iff,validateLoadedStates,bind_ok_iff,
    ensure_ok,Prod.mk.injEq]
  constructor
  · rintro ⟨envelope,_,⟨formed,rfl⟩,_,_,⟨loaded,rfl⟩,_,_,⟨_,rfl⟩,⟨rfl,rfl,rfl,rfl⟩,rfl⟩
    exact ⟨envelope,formed,loaded,rfl,rfl,rfl,rfl⟩
  · rintro ⟨envelope,formed,loaded,rfl,rfl,rfl,rfl⟩
    have keys := forall₂_map _ Prod.fst Prod.fst (fun _ _ here => here.taskKey) _ _ loaded
    refine ⟨envelope,_,⟨formed,rfl⟩,states,_,⟨loaded,rfl⟩,(),_,⟨⟨(),?_,?_⟩,rfl⟩,⟨rfl,rfl,rfl,rfl⟩,rfl⟩
    · intro entry inside
      have listed : entry.1 ∈ envelope.sourcePayloads.map Prod.fst := keys ▸ List.mem_map.mpr ⟨entry,inside,rfl⟩
      obtain ⟨source,there,same⟩ := List.mem_map.mp listed
      rw [← same]
      exact formed.named.sources source there
    · rw [keys]
      exact formed.keyed.sources

theorem restoreSinkCommittables_ok (payload : Bytes) (before after : List Bytes) (entries : List (String × Nat × ν)) :
    restoreSinkCommittables lib loads transactionId payload before = .ok entries after ↔
      ∃ envelope, Formed lib payload envelope ∧ List.Forall₂ (SinkLoaded loads transactionId) envelope.sinkPayloads entries ∧
        after = before ++ envelope.sinkPayloads.map (fun entry => entry.2.2.2) := by
  unfold restoreSinkCommittables
  simp only [Effects.bind_ok_iff,checking_ok,decodeMetadata_ok,Effects.pure_ok_iff,ensure_ok]
  constructor
  · rintro ⟨envelope,_,⟨formed,rfl⟩,_,_,ran,_,_,⟨_,rfl⟩,rfl,rfl⟩
    exact ⟨envelope,formed,(loadSinkCommittables_ok _ _ _ _ formed.named.sinks).mp ran⟩
  · rintro ⟨envelope,formed,loaded⟩
    refine ⟨envelope,_,⟨formed,rfl⟩,entries,_,(loadSinkCommittables_ok _ _ _ _ formed.named.sinks).mpr loaded,(),_,⟨?_,rfl⟩,rfl,rfl⟩
    rw [forall₂_map _ (fun entry => (entry.1,entry.2.1)) (fun entry => (entry.1,entry.2.1))
      (fun _ _ here => by rw [here.taskKey,here.checkpointId]) _ _ loaded.1]
    exact formed.keyed.sinks

end loading

section published
variable {lib : Library} {ν : Type} {loads : Bytes → Except String ν} {transactionId : ν → Option String}

theorem uri_filled (root : String) (path : StatePath) : blank (path.uri root) = false := by
  unfold blank StatePath.uri
  rw [List.all_eq_false]
  exact ⟨'/',by simp [String.toList_append],by decide⟩

section
variable (root : String) (call : WriteCall) (revision highWater : Nat) (valid : call.validate = .ok revision)
include root highWater valid

theorem envelope_named :
    Named (call.envelope lib root revision highWater) := by
  obtain ⟨_,_,sources,_,_,operators⟩ := validate_ok call revision valid
  refine ⟨?_,?_,?_⟩
  · intro entry inside
    obtain ⟨source,listed,rfl⟩ := List.mem_map.mp inside
    exact sources source listed
  · intro entry inside
    obtain ⟨item,listed,rfl⟩ := List.mem_map.mp inside
    have key := operators item.1 (List.mem_map.mpr ⟨item,(items_perm call).mem_iff.mp listed,rfl⟩)
    exact ⟨key,uri_filled root _,isSha256_checksum lib.sha item.2⟩
  · intro entry inside
    obtain ⟨sink,_,rfl⟩ := List.mem_map.mp inside
    exact ⟨sink.taskKeyNonBlank,sink.transactionIdNonBlank⟩

theorem envelope_keyed :
    Keyed (call.envelope lib root revision highWater) := by
  obtain ⟨_,_,_,sources,sinks,_⟩ := validate_ok call revision valid
  refine ⟨?_,?_,?_⟩
  · rw [WriteCall.envelope,List.map_map]
    exact sources
  · rw [WriteCall.envelope,List.map_map]
    exact items_keys call
  · rw [WriteCall.envelope,List.map_map]
    exact sinks

end

theorem reads_written (envelope : MetadataEnvelope) (named : Named envelope) (keyed : Keyed envelope) (back : ReadsBack lib envelope) :
    decodeMetadata lib (encodeMetadata lib envelope) = .ok envelope :=
  (decodeMetadata_ok _ _).mpr (encodeMetadata_formed envelope named keyed back)

theorem forall₂_loaded {α β γ : Type} (related : β → γ → Prop) (entry : α → β) (value : α → γ) (items : List α)
    (each : ∀ item ∈ items, related (entry item) (value item)) : List.Forall₂ related (items.map entry) (items.map value) := by
  induction items with
  | nil => exact .nil
  | cons item rest ih =>
    obtain ⟨here,later⟩ := forall_mem_cons.mp each
    exact .cons here (ih later)

theorem loads_written (root : String) (call : WriteCall) (revision highWater : Nat) (valid : call.validate = .ok revision)
    (back : ReadsBack lib (call.envelope lib root revision highWater)) (value : Bytes → ν)
    (unpickled : ∀ payload ∈ payloads (call.envelope lib root revision highWater), loads payload = .ok (value payload))
    (transactions : ∀ entry ∈ call.sinkCommittables, transactionId (value entry.committable) = some entry.transactionId)
    (before : List Bytes) :
    decodeCheckpoint lib loads (encodeMetadata lib (call.envelope lib root revision highWater)) before = .ok
      (revision,call.sourceStates.map (fun entry => (entry.taskKey,entry.checkpointId,value entry.state)),highWater,
        (call.envelope lib root revision highWater).operatorStates) (before ++ call.sourceStates.map SourceCheckpointEntry.state) ∧
    restoreSinkCommittables lib loads transactionId (encodeMetadata lib (call.envelope lib root revision highWater)) before = .ok
      (call.sinkCommittables.map (fun entry => (entry.taskKey,entry.checkpointId,value entry.committable)))
      (before ++ call.sinkCommittables.map SinkCommittableCheckpointEntry.committable) := by
  have formed := encodeMetadata_formed _ (envelope_named root call revision highWater valid)
    (envelope_keyed root call revision highWater valid) back
  constructor
  · refine (decodeCheckpoint_ok _ _ _ _ _ _ _).mpr ⟨_,formed,?_,rfl,rfl,rfl,?_⟩
    · apply forall₂_loaded
      intro entry inside
      refine ⟨rfl,rfl,unpickled _ (mem_append_left _ ?_)⟩
      exact List.mem_map.mpr ⟨_,List.mem_map.mpr ⟨entry,inside,rfl⟩,rfl⟩
    · rw [WriteCall.envelope,List.map_map]
      rfl
  · refine (restoreSinkCommittables_ok _ _ _ _).mpr ⟨_,formed,?_,?_⟩
    · apply forall₂_loaded
      intro entry inside
      refine ⟨rfl,rfl,unpickled _ (mem_append_right _ ?_),transactions entry inside⟩
      exact List.mem_map.mpr ⟨_,List.mem_map.mpr ⟨entry,inside,rfl⟩,rfl⟩
    · rw [WriteCall.envelope,List.map_map]
      rfl

theorem refused (payload : Bytes) (text : String) (raised : decodeMetadata lib payload = .error text) (before : List Bytes) :
    decodeCheckpoint lib loads payload before = .error text before ∧
      restoreSinkCommittables lib loads transactionId payload before = .error text before := by
  have stopped : checking (decodeMetadata lib payload) before = .error text before := by
    unfold checking
    rw [raised]
  exact ⟨Effects.bind_of_error _ _ _ _ _ stopped,Effects.bind_of_error _ _ _ _ _ stopped⟩

def pickled (dumps : ν → Bytes) (transactionId : ν → Option String) (revision : Nat) (states : List (String × Nat × ν)) (highWater : Nat)
    (operators : List OperatorStateRecord) (entries : List (String × Nat × ν)) : MetadataEnvelope where
  metadataRevision := revision
  barrierHighWater := highWater
  sourcePayloads := states.map (fun entry => (entry.1,entry.2.1,dumps entry.2.2))
  operatorStates := operators
  sinkPayloads := entries.map (fun entry => (entry.1,entry.2.1,(transactionId entry.2.2).getD "",dumps entry.2.2))

theorem pickled_names (dumps : ν → Bytes) (payload : Bytes) (envelope : MetadataEnvelope) (formed : Formed lib payload envelope)
    (states entries : List (String × Nat × ν)) (sources : List.Forall₂ (SourceLoaded loads) envelope.sourcePayloads states)
    (sinks : List.Forall₂ (SinkLoaded loads transactionId) envelope.sinkPayloads entries) :
    let again := pickled dumps transactionId envelope.metadataRevision states envelope.barrierHighWater envelope.operatorStates entries
    Named again ∧ Keyed again := by
  have sourceKeys := forall₂_map _ Prod.fst Prod.fst (fun _ _ here => here.taskKey) _ _ sources
  have sinkKeys := forall₂_map _ (fun entry => (entry.1,entry.2.1,entry.2.2.1))
    (fun entry => (entry.1,entry.2.1,(transactionId entry.2.2).getD ""))
    (fun _ _ here => by rw [here.taskKey,here.checkpointId,here.transaction,getD_some]) _ _ sinks
  refine ⟨⟨?_,formed.named.operators,?_⟩,?_,formed.keyed.operators,?_⟩
  · intro entry inside
    obtain ⟨state,listed,rfl⟩ := List.mem_map.mp inside
    have key : state.1 ∈ envelope.sourcePayloads.map Prod.fst := sourceKeys ▸ List.mem_map.mpr ⟨state,listed,rfl⟩
    obtain ⟨source,there,same⟩ := List.mem_map.mp key
    exact same ▸ formed.named.sources source there
  · intro entry inside
    obtain ⟨sink,listed,rfl⟩ := List.mem_map.mp inside
    have key : (sink.1,sink.2.1,(transactionId sink.2.2).getD "") ∈ envelope.sinkPayloads.map
        (fun entry => (entry.1,entry.2.1,entry.2.2.1)) := sinkKeys ▸ List.mem_map.mpr ⟨sink,listed,rfl⟩
    obtain ⟨found,there,same⟩ := List.mem_map.mp key
    obtain ⟨names,_,transactions⟩ := (by simpa only [Prod.mk.injEq] using same : found.1 = sink.1 ∧ found.2.1 = sink.2.1 ∧
      found.2.2.1 = (transactionId sink.2.2).getD "")
    exact names ▸ transactions ▸ formed.named.sinks found there
  · rw [pickled,List.map_map]
    exact sourceKeys ▸ formed.keyed.sources
  · have pairs := congrArg (List.map (fun entry : String × Nat × String => (entry.1,entry.2.1))) sinkKeys
    rw [List.map_map,List.map_map] at pairs
    rw [pickled,List.map_map]
    exact pairs ▸ formed.keyed.sinks

theorem loads_pickled (dumps : ν → Bytes) (payload : Bytes) (before after later : List Bytes) (revision highWater : Nat)
    (states entries : List (String × Nat × ν)) (operators : List OperatorStateRecord)
    (decoded : decodeCheckpoint lib loads payload before = .ok (revision,states,highWater,operators) after)
    (restored : restoreSinkCommittables lib loads transactionId payload before = .ok entries later)
    (unpickled : ∀ entry ∈ states ++ entries, loads (dumps entry.2.2) = .ok entry.2.2)
    (back : ReadsBack lib (pickled dumps transactionId revision states highWater operators entries)) :
    let again := encodeMetadata lib (pickled dumps transactionId revision states highWater operators entries)
    (∃ last, decodeCheckpoint lib loads again before = .ok (revision,states,highWater,operators) last) ∧
      ∃ last, restoreSinkCommittables lib loads transactionId again before = .ok entries last := by
  obtain ⟨envelope,formed,sources,rfl,rfl,rfl,_⟩ := (decodeCheckpoint_ok _ _ _ _ _ _ _).mp decoded
  obtain ⟨other,alsoFormed,sinks,_⟩ := (restoreSinkCommittables_ok _ _ _ _).mp restored
  have same : other = envelope := by
    have first := (decodeMetadata_ok payload envelope).mpr formed
    rw [(decodeMetadata_ok payload other).mpr alsoFormed] at first
    exact Except.ok.inj first
  subst same
  obtain ⟨named,keyed⟩ := pickled_names dumps payload other formed states entries sources sinks
  have written := encodeMetadata_formed _ named keyed back
  have transactions : ∀ entry ∈ entries, transactionId entry.2.2 = some ((transactionId entry.2.2).getD "") :=
    forall₂_right _ _ (fun _ _ here => by rw [here.transaction,getD_some]) _ _ sinks
  refine ⟨⟨_,(decodeCheckpoint_ok _ _ _ _ _ _ _).mpr ⟨_,written,?_,rfl,rfl,rfl,rfl⟩⟩,_,(restoreSinkCommittables_ok _ _ _ _).mpr
    ⟨_,written,?_,rfl⟩⟩
  · have each : ∀ entry ∈ states, SourceLoaded loads (entry.1,entry.2.1,dumps entry.2.2) entry :=
      fun entry inside => ⟨rfl,rfl,unpickled entry (mem_append_left _ inside)⟩
    have loaded := forall₂_loaded (SourceLoaded loads) _ id states each
    rw [List.map_id] at loaded
    exact loaded
  · have each : ∀ entry ∈ entries, SinkLoaded loads transactionId
        (entry.1,entry.2.1,(transactionId entry.2.2).getD "",dumps entry.2.2) entry :=
      fun entry inside => ⟨rfl,rfl,unpickled entry (mem_append_right _ inside),transactions entry inside⟩
    have loaded := forall₂_loaded (SinkLoaded loads transactionId) _ id entries each
    rw [List.map_id] at loaded
    exact loaded

/-- What a valid call writes is read as it was written; whatever is read is well-formed, and otherwise nothing is
unpickled; and what was read can be written and read again. -/
theorem metadata_round_trips (lib : Library) {ν : Type} (loads : Bytes → Except String ν) (transactionId : ν → Option String) :
    (∀ root call revision, WriteCall.validate call = .ok revision →
      let envelope := call.envelope lib root revision call.barrierHighWater.toNat
      (revision : Int) = call.metadataRevision ∧ (envelope.barrierHighWater : Int) = call.barrierHighWater ∧
      (ReadsBack lib envelope → decodeMetadata lib (encodeMetadata lib envelope) = .ok envelope ∧
        ∀ value : Bytes → ν, (∀ payload ∈ payloads envelope, loads payload = .ok (value payload)) →
          (∀ entry ∈ call.sinkCommittables, transactionId (value entry.committable) = some entry.transactionId) → ∀ before,
          decodeCheckpoint lib loads (encodeMetadata lib envelope) before = .ok
            (revision,call.sourceStates.map (fun entry => (entry.taskKey,entry.checkpointId,value entry.state)),
              envelope.barrierHighWater,envelope.operatorStates) (before ++ call.sourceStates.map SourceCheckpointEntry.state) ∧
          restoreSinkCommittables lib loads transactionId (encodeMetadata lib envelope) before = .ok
            (call.sinkCommittables.map (fun entry => (entry.taskKey,entry.checkpointId,value entry.committable)))
            (before ++ call.sinkCommittables.map SinkCommittableCheckpointEntry.committable))) ∧
    (∀ payload, (∃ text, ∀ before, decodeCheckpoint lib loads payload before = .error text before ∧
        restoreSinkCommittables lib loads transactionId payload before = .error text before) ∨
      ∃ envelope, Formed lib payload envelope ∧ decodeMetadata lib payload = .ok envelope ∧
        (ReadsBack lib envelope → decodeMetadata lib (encodeMetadata lib envelope) = .ok envelope)) ∧
    ∀ (dumps : ν → Bytes) (payload : Bytes) before after later revision highWater states entries operators,
      decodeCheckpoint lib loads payload before = .ok (revision,states,highWater,operators) after →
      restoreSinkCommittables lib loads transactionId payload before = .ok entries later →
      (∀ entry ∈ states ++ entries, loads (dumps entry.2.2) = .ok entry.2.2) →
      ReadsBack lib (pickled dumps transactionId revision states highWater operators entries) →
      let again := encodeMetadata lib (pickled dumps transactionId revision states highWater operators entries)
      (∃ last, decodeCheckpoint lib loads again before = .ok (revision,states,highWater,operators) last) ∧
        ∃ last, restoreSinkCommittables lib loads transactionId again before = .ok entries last := by
  refine ⟨?_,?_,?_⟩
  · intro root call revision valid
    obtain ⟨number,⟨highWater,natural⟩,_⟩ := validate_ok call revision valid
    refine ⟨number.symm,by rw [natural]; rfl,fun back => ⟨?_,?_⟩⟩
    · exact reads_written _ (envelope_named root call revision _ valid) (envelope_keyed root call revision _ valid) back
    · exact loads_written root call revision _ valid back
  · intro payload
    cases decoded : decodeMetadata lib payload with
    | error text => exact .inl ⟨text,refused payload text decoded⟩
    | ok envelope =>
      have formed := (decodeMetadata_ok payload envelope).mp decoded
      exact .inr ⟨envelope,formed,rfl,reads_written envelope formed.named formed.keyed⟩
  · exact loads_pickled

/-- `pickle.dumps(None)` -/
def nonePayload : Bytes := [0x80,0x05,0x4e,0x2e]

/-- `pickle.dumps` of the sink committable of `test_checkpoint_io.py` -/
def sinkPayload : Bytes :=
  [0x80,0x05,0x95,67,0,0,0,0,0,0,0,0x8c,29] ++ "tests.unit.test_checkpoint_io".toUTF8.toList ++ [0x94,0x8c,26] ++
    "_SafeCheckpointCommittable".toUTF8.toList ++ [0x94,0x93,0x94,0x29,0x81,0x94,0x2e]

def savedCall : WriteCall where
  sourceStates := [⟨"10:0",3,nonePayload,by decide⟩,⟨"11:0",3,nonePayload,by decide⟩]
  metadataRevision := 7
  barrierHighWater := 9
  operatorStates := .ofList [("12:0","managed-state".toUTF8.toList)]
  sinkCommittables := [⟨"13:0",3,"safe-sink",sinkPayload,by decide,by decide⟩]

/-- SHA-256 of the payloads of `savedCall` -/
def savedSum (payload : Bytes) : String :=
  if payload = nonePayload then "6c09635decb8153d3c12e3782a69fd2eb097426f912547d351a8647b27d5580a"
  else if payload = sinkPayload then "89de07fee8a610f342c8f5333edd8fa85b50cc984be8da0446cac11a8e1b26ab"
  else "c3eec958d1098ef9d577c144dd5fa6d39003702f20f130b97da0cf7524490fff"

def savedText (payload : Bytes) : String :=
  if payload = nonePayload then "gAVOLg=="
  else "gAWVQwAAAAAAAACMHXRlc3RzLnVuaXQudGVzdF9jaGVja3BvaW50X2lvlIwaX1NhZmVDaGVja3BvaW50Q29tbWl0dGFibGWUk5QpgZQu"

def savedBody : Bytes :=
  ("\x7b\"barrier_high_water\":9,\"metadata_revision\":7,\"operator_states\":[\x7b\"checksum\":\"sha256:" ++ savedSum [] ++
    "\",\"size_bytes\":13,\"task_key\":\"12:0\",\"uri\":\"/checkpoints/chk-7/op-12%3A0/managed-state-c3eec958d1098ef9.bin\"\x7d]," ++
    "\"sink_committables\":[\x7b\"checkpoint_id\":3,\"checksum\":\"sha256:" ++ savedSum sinkPayload ++ "\",\"payload_b64\":\"" ++
    savedText sinkPayload ++ "\",\"size_bytes\":78,\"task_key\":\"13:0\",\"transaction_id\":\"safe-sink\"\x7d],\"source_states\":[" ++
    ",".intercalate (["10:0","11:0"].map (fun key => "\x7b\"checkpoint_id\":3,\"checksum\":\"sha256:" ++ savedSum nonePayload ++
      "\",\"payload_b64\":\"gAVOLg==\",\"size_bytes\":4,\"task_key\":\"" ++ key ++ "\"\x7d")) ++ "],\"version\":4\x7d").toUTF8.toList

/-- The standard library on `savedCall`. -/
def savedLibrary : Library :=
  let writer : Library :=
    {sha := ⟨savedSum,fun payload => by unfold savedSum; split_ifs <;> simp [Char.isDigit]⟩
     repr := fun value => match value with
      | .text text => "'" ++ text ++ "'"
      | _ => ""
     parse := fun _ => .error ([],"Expecting value: line 1 column 1 (char 0)")
     dumps := fun _ => savedBody
     b64encode := savedText
     b64decode := fun text =>
      if text = savedText nonePayload then some nonePayload
      else if text = savedText sinkPayload then some sinkPayload else none}
  {writer with parse := fun body => if body = savedBody then .ok (encodedMapping writer (savedCall.envelope writer "/checkpoints" 7 9))
    else writer.parse body}

def savedEnvelope : MetadataEnvelope := savedCall.envelope savedLibrary "/checkpoints" 7 9

/-- `None`, or the transaction id of a committable -/
def savedValue (payload : Bytes) : Option String := if payload = nonePayload then none else some "safe-sink"

/-- `pickle.loads` of the payloads of `savedCall` -/
def savedLoads (payload : Bytes) : Except String (Option String) :=
  if payload = nonePayload ∨ payload = sinkPayload then .ok (savedValue payload) else .error "pickle data was truncated"

theorem payloads_saved {payload : Bytes} (inside : payload ∈ payloads savedEnvelope) :
    payload = nonePayload ∨ payload = sinkPayload := by
  have listed : payload ∈ [nonePayload,nonePayload,sinkPayload] := inside
  simpa only [mem_cons,not_mem_nil,or_false,or_self_left] using listed

theorem savedEnvelope_reads_back : ReadsBack savedLibrary savedEnvelope := by
  refine ⟨if_pos rfl,fun payload inside => ?_⟩
  rcases payloads_saved inside with rfl | rfl <;> exact ⟨by decide +kernel,by decide +kernel⟩

theorem metadata_round_trips_saved :
    decodeMetadata savedLibrary (encodeMetadata savedLibrary savedEnvelope) = .ok savedEnvelope ∧
    (∃ last, decodeCheckpoint savedLibrary savedLoads (encodeMetadata savedLibrary savedEnvelope) [] =
      .ok (7,[("10:0",3,none),("11:0",3,none)],9,savedEnvelope.operatorStates) last) ∧
    ∃ last, restoreSinkCommittables savedLibrary savedLoads id (encodeMetadata savedLibrary savedEnvelope) [] =
      .ok [("13:0",3,some "safe-sink")] last := by
  obtain ⟨writes,-,again⟩ := metadata_round_trips savedLibrary savedLoads id
  obtain ⟨read,loaded⟩ := (writes "/checkpoints" savedCall 7 (by decide)).2.2 savedEnvelope_reads_back
  have each (payload : Bytes) (inside : payload ∈ payloads savedEnvelope) : savedLoads payload = .ok (savedValue payload) := by
    rcases payloads_saved inside with rfl | rfl <;> decide +kernel
  have named (entry : SinkCommittableCheckpointEntry) (inside : entry ∈ savedCall.sinkCommittables) :
      savedValue entry.committable = some entry.transactionId := by
    obtain rfl := mem_singleton.mp inside
    decide +kernel
  obtain ⟨states,entries⟩ := loaded savedValue each named []
  exact ⟨read,again (fun value => if value.isSome then sinkPayload else nonePayload) _ [] _ _ 7 9 _ _ _ states entries
    (by decide +kernel) savedEnvelope_reads_back⟩

end published

end Klein.CheckpointIO
