import Klein.State.BackendsAgree
import Klein.State.ManagedStateSnapshot

/-! Snapshots and restores of one subtask (`runtime/operator/managed_state_operator.py`,
`state/timer_service.py`). The backend is one of those that
`create_state_backend` makes. -/
namespace Klein.State
open Dict Fallible List

/-- The key-group operations of a backend, with what they promise: a snapshot of a
group carries its entries, and a restore that accepts all entries leaves what the
snapshots carry. -/
structure KeyGroupStore {Key : Type} (codec : KeyCodec Key) (Backend Blob : Type) where
  lookup : Backend → ColumnFamily → Bytes → Option Bytes
  snapshotKeyGroups : Backend → Nat → List Nat → Except String (Dict Nat Blob)
  restoreKeyGroups : Backend → Dict Nat Blob → Except String Unit × Backend
  Readable : Blob → Prop
  Carries : Blob → ColumnFamily → Bytes → Bytes → Prop
  Accepts : ColumnFamily → Bytes → Bytes → Prop
  snapshot_spec (b : Backend) (maxParallelism : Nat) (requested : List Nat) (group : ColumnFamily → Bytes × Bytes → Nat)
    (known : ∀ family key value, lookup b family key = some value →
      familyGroup codec maxParallelism family (key,value) = .ok (group family (key,value))) :
    ∃ snapshots, snapshotKeyGroups b maxParallelism requested = .ok snapshots ∧
      (∀ other snapshot, snapshots.get? other = some snapshot → other ∈ requested ∧ Readable snapshot ∧
        ∀ family key value, Carries snapshot family key value ↔
          lookup b family key = some value ∧ group family (key,value) = other) ∧
      ∀ other ∈ requested, ∀ family key value, lookup b family key = some value →
        group family (key,value) = other → ∃ snapshot, snapshots.get? other = some snapshot
  restore_spec (b : Backend) (snapshots : Dict Nat Blob) (whole : ColumnFamily → Bytes → Option Bytes)
    (readable : ∀ snapshot ∈ snapshots.values, Readable snapshot)
    (consistent : ∀ snapshot ∈ snapshots.values, ∀ family key value, Carries snapshot family key value →
      Written codec family key value ∧ whole family key = some value)
    (accepted : ∀ snapshot ∈ snapshots.values, ∀ family key value, Carries snapshot family key value →
      Accepts family key value) :
    ∃ next, restoreKeyGroups b snapshots = (.ok (),next) ∧ ∀ family key value,
      lookup next family key = some value ↔ ∃ snapshot ∈ snapshots.values, Carries snapshot family key value
  restore_accepts (b : Backend) (snapshots : Dict Nat Blob) (next : Backend)
    (done : restoreKeyGroups b snapshots = (.ok (),next)) : ∀ snapshot ∈ snapshots.values, ∀ family key value,
      Carries snapshot family key value → Accepts family key value

section stores
variable {Key Blob : Type} (codec : KeyCodec Key)

def memoryStore (pickle : Pickle (KeyGroupPayload (Dict Bytes Bytes)) Blob) :
    KeyGroupStore codec (MemoryStateBackend Key) Blob where
  lookup := fun b family key => (b.table family).get? key
  snapshotKeyGroups := fun b => b.snapshotKeyGroups codec pickle
  restoreKeyGroups := fun b => b.restoreKeyGroups pickle
  Readable := fun snapshot => ∃ contents, MemoryStateBackend.loadKeyGroup pickle snapshot = .ok contents
  Carries := MemoryStateBackend.Carries pickle
  Accepts := fun _ _ _ => True
  snapshot_spec := fun b maxParallelism requested group known =>
    b.snapshotKeyGroups_spec codec pickle maxParallelism requested group
      (fun family entry inside => known family entry.1 entry.2 ((Dict.get?_eq_some _ _ _).mpr inside))
  restore_spec := fun b snapshots whole readable consistent _ => by
    obtain ⟨next,done,-,spec⟩ := b.restoreKeyGroups_spec pickle snapshots readable whole
      (fun snapshot inside family key value carries => (consistent snapshot inside family key value carries).2)
    exact ⟨next,done,spec⟩
  restore_accepts := fun _ _ _ _ _ _ _ _ _ _ => trivial

def rocksDBStore (pickle : Pickle (KeyGroupPayload (List (Bytes × Bytes))) Blob) :
    KeyGroupStore codec (RocksDBStateBackend Key) Blob where
  lookup := fun b family key => (b.table family).get? key
  snapshotKeyGroups := fun b => b.snapshotKeyGroups codec pickle
  restoreKeyGroups := fun b => b.restoreKeyGroups codec pickle
  Readable := fun snapshot => ∃ contents, RocksDBStateBackend.loadKeyGroup pickle snapshot = .ok contents
  Carries := RocksDBStateBackend.Carries pickle
  Accepts := fun family key value => family = .timers → Reencodes codec key value
  snapshot_spec := fun b maxParallelism requested group known =>
    b.snapshotKeyGroups_spec codec pickle maxParallelism requested group
      (fun family entry inside => known family entry.1 entry.2 ((OrderedMap.get?_eq_some _ _ _).mpr inside))
  restore_spec := fun b snapshots whole readable consistent accepted => by
    obtain ⟨next,done,-,spec⟩ := b.restoreKeyGroups_spec codec pickle snapshots readable whole
      (fun snapshot inside family key value carries => by
        obtain ⟨written,same⟩ := consistent snapshot inside family key value carries
        exact ⟨written.valid (accepted snapshot inside family key value carries),same⟩)
    exact ⟨next,done,spec⟩
  restore_accepts := fun b snapshots next done snapshot inside family key value carries timers => by
    have valid := b.restoreKeyGroups_valid codec pickle snapshots next done snapshot inside family key value carries
    subst timers
    exact reencodes_of_valid valid

end stores

/-- The option `state.backend`. -/
inductive StateBackendKind where
  | memory | rocksDB
deriving DecidableEq

def StateBackendKind.Backend (Key : Type) : StateBackendKind → Type
  | .memory => MemoryStateBackend Key
  | .rocksDB => RocksDBStateBackend Key

structure KeyGroupPickles (Blob : Type) where
  memory : Pickle (KeyGroupPayload (Dict Bytes Bytes)) Blob
  rocksDB : Pickle (KeyGroupPayload (List (Bytes × Bytes))) Blob

def StateBackendKind.store {Key Blob : Type} (codec : KeyCodec Key) (pickles : KeyGroupPickles Blob) :
    (kind : StateBackendKind) → KeyGroupStore codec (kind.Backend Key) Blob
  | .memory => memoryStore codec pickles.memory
  | .rocksDB => rocksDBStore codec pickles.rocksDB

/-- The watermark of `TimerService` is -1 or a time. -/
@[ext] structure TimerService where
  watermark : Int
  started : -1 ≤ watermark
deriving DecidableEq

def TimerService.restoreWatermark (timestamp : Int) : Except String TimerService :=
  if started : -1 ≤ timestamp then .ok ⟨timestamp,started⟩ else .error "watermark must be -1 or non-negative"

structure ManagedStateOperator (Backend : Type) where
  maxParallelism : Nat
  keyGroupRange : KeyGroupRange
  backend : Backend
  timerService : TimerService

section select
variable {Blob : Type} [DecidableEq Blob]

/-- `_select_owned_key_groups` -/
def selectOwnedKeyGroups (keyGroupRange : KeyGroupRange) : Dict Nat Blob → List (Nat × Blob) → Except String (Dict Nat Blob)
  | selected,[] => .ok selected
  | selected,(keyGroup,groupSnapshot)::rest =>
    if keyGroup ∉ keyGroupRange then selectOwnedKeyGroups keyGroupRange selected rest
    else if (selected.get? keyGroup).any (fun previous => previous ≠ groupSnapshot) then
      .error (conflictingKeyGroup keyGroup)
    else selectOwnedKeyGroups keyGroupRange (selected.set keyGroup groupSnapshot) rest

/-- The loop of `_restore_key_group_payloads`, with `_validate_key_group_payload`. -/
def selectKeyGroupPayloads (maxParallelism : Nat) (keyGroupRange : KeyGroupRange) :
    Dict Nat Blob → List (ManagedStatePayload Blob) → Except String (Dict Nat Blob)
  | selected,[] => .ok selected
  | selected,payload::rest => do
    if payload.maxParallelism ≠ maxParallelism then
      throw "state.keyed.max-parallelism must match the value stored in the checkpoint"
    let selected ← selectOwnedKeyGroups keyGroupRange selected payload.keyGroups.entries
    selectKeyGroupPayloads maxParallelism keyGroupRange selected rest

end select

namespace ManagedStateOperator
variable {Key Backend Blob Snapshot : Type} {codec : KeyCodec Key} (store : KeyGroupStore codec Backend Blob)
variable (pickle : Pickle (ManagedStatePayload Blob) Snapshot) (op : ManagedStateOperator Backend)

def snapshotState : Except String Snapshot := do
  let keyGroups ← store.snapshotKeyGroups op.backend op.maxParallelism op.keyGroupRange.groups
  encodeManagedStateSnapshot pickle op.maxParallelism op.keyGroupRange keyGroups op.timerService.watermark

variable [DecidableEq Blob]

def restoreKeyGroupPayloads (payloads : List (ManagedStatePayload Blob)) :
    Except String Unit × ManagedStateOperator Backend :=
  match selectKeyGroupPayloads op.maxParallelism op.keyGroupRange ∅ payloads with
  | .error raised => (.error raised,op)
  | .ok selected =>
    match store.restoreKeyGroups op.backend selected with
    | (.error raised,backend) => (.error raised,{op with backend := backend})
    | (.ok (),backend) =>
      match TimerService.restoreWatermark ((payloads.map (fun payload => payload.watermark)).min?.getD (-1)) with
      | .error raised => (.error raised,{op with backend := backend})
      | .ok timerService => (.ok (),{op with
          backend := backend
          timerService := timerService})

def restoreStateFragments (snapshots : List Snapshot) : Except String Unit × ManagedStateOperator Backend :=
  match snapshots.mapM (decodeManagedStateSnapshot pickle) with
  | .error raised => (.error raised,op)
  | .ok [] => (.ok (),op)
  | .ok payloads => op.restoreKeyGroupPayloads store payloads

def restoreState (snapshot : Snapshot) : Except String Unit × ManagedStateOperator Backend :=
  op.restoreStateFragments store pickle [snapshot]

end ManagedStateOperator

section selected
variable {Blob : Type} [DecidableEq Blob] (keyGroupRange : KeyGroupRange) (holds : Nat → Blob → Prop)
variable (unique : ∀ group one other, holds group one → holds group other → one = other)
include unique

theorem selectOwnedKeyGroups_spec (entries : List (Nat × Blob)) (known : ∀ item ∈ entries, holds item.1 item.2)
    (selected : Dict Nat Blob) (held : ∀ group snapshot, selected.get? group = some snapshot → holds group snapshot) :
    ∃ result, selectOwnedKeyGroups keyGroupRange selected entries = .ok result ∧ ∀ group snapshot,
      result.get? group = some snapshot ↔
        selected.get? group = some snapshot ∨ group ∈ keyGroupRange ∧ (group,snapshot) ∈ entries := by
  induction entries generalizing selected with
  | nil => exact ⟨selected,rfl,fun group snapshot => by simp⟩
  | cons item rest ih =>
    obtain ⟨keyGroup,groupSnapshot⟩ := item
    obtain ⟨own,later⟩ := forall_mem_cons.mp known
    rw [selectOwnedKeyGroups]
    by_cases inside : keyGroup ∈ keyGroupRange
    · have noConflict : (selected.get? keyGroup).any (fun previous => previous ≠ groupSnapshot) = false := by
        refine Option.any_eq_false _ _ |>.mpr (fun previous found => ?_)
        have same := unique keyGroup previous groupSnapshot (held keyGroup previous found) own
        simp [same]
      have stored (group : Nat) (snapshot : Blob) : (selected.set keyGroup groupSnapshot).get? group = some snapshot ↔
          selected.get? group = some snapshot ∨ (group,snapshot) = (keyGroup,groupSnapshot) := by
        rw [Dict.get?_set,Prod.mk.injEq]
        by_cases same : group = keyGroup
        · subst same
          rw [if_pos rfl]
          constructor
          · exact fun new => .inr ⟨rfl,(Option.some.inj new).symm⟩
          · rintro (before | ⟨-,rfl⟩)
            · rw [unique group snapshot groupSnapshot (held group snapshot before) own]
            · rfl
        · simp [same]
      rw [if_neg (not_not_intro inside),noConflict,if_neg (by decide)]
      obtain ⟨result,done,spec⟩ := ih later (selected.set keyGroup groupSnapshot) (fun group snapshot found =>
        ((stored group snapshot).mp found).elim (held group snapshot) (fun new => by
          obtain ⟨rfl,rfl⟩ := Prod.mk.inj new
          exact own))
      refine ⟨result,done,fun group snapshot => ?_⟩
      rw [spec,stored,mem_cons,or_assoc]
      refine or_congr_right ⟨?_,?_⟩
      · rintro (new | ⟨here,listed⟩)
        · obtain ⟨rfl,rfl⟩ := Prod.mk.inj new
          exact ⟨inside,.inl rfl⟩
        · exact ⟨here,.inr listed⟩
      · rintro ⟨here,new | listed⟩
        · exact .inl new
        · exact .inr ⟨here,listed⟩
    · rw [if_pos inside]
      obtain ⟨result,done,spec⟩ := ih later selected held
      refine ⟨result,done,fun group snapshot => ?_⟩
      rw [spec,mem_cons]
      refine or_congr_right (and_congr_right (fun here => ?_))
      constructor
      · exact Or.inr
      · rintro (new | listed)
        · obtain ⟨rfl,rfl⟩ := Prod.mk.inj new
          exact absurd here inside
        · exact listed

theorem selectKeyGroupPayloads_spec (maxParallelism : Nat) (payloads : List (ManagedStatePayload Blob))
    (same : ∀ payload ∈ payloads, payload.maxParallelism = maxParallelism)
    (known : ∀ group snapshot, Holds payloads group snapshot → holds group snapshot)
    (selected : Dict Nat Blob) (held : ∀ group snapshot, selected.get? group = some snapshot → holds group snapshot) :
    ∃ result, selectKeyGroupPayloads maxParallelism keyGroupRange selected payloads = .ok result ∧ ∀ group snapshot,
      result.get? group = some snapshot ↔
        selected.get? group = some snapshot ∨ group ∈ keyGroupRange ∧ Holds payloads group snapshot := by
  induction payloads generalizing selected with
  | nil => exact ⟨selected,rfl,fun group snapshot => by simp [Holds]⟩
  | cons payload rest ih =>
    obtain ⟨here,later⟩ := forall_mem_cons.mp same
    have own (item : Nat × Blob) (listed : item ∈ payload.keyGroups.entries) : holds item.1 item.2 :=
      known item.1 item.2 ⟨payload,mem_cons_self,(Dict.get?_eq_some _ _ _).mpr listed⟩
    obtain ⟨next,done,spec⟩ := selectOwnedKeyGroups_spec keyGroupRange holds unique payload.keyGroups.entries own selected held
    have known' (group : Nat) (snapshot : Blob) (held : Holds rest group snapshot) : holds group snapshot := by
      obtain ⟨other,listed,found⟩ := held
      exact known group snapshot ⟨other,mem_cons_of_mem _ listed,found⟩
    obtain ⟨result,finished,spec'⟩ := ih later known' next
      (fun group snapshot found => ((spec group snapshot).mp found).elim (held group snapshot)
        (fun new => own (group,snapshot) new.2))
    refine ⟨result,?_,fun group snapshot => ?_⟩
    · rw [selectKeyGroupPayloads,if_neg (not_not_intro here)]
      exact (ok_bind done).trans finished
    · rw [spec',spec,or_assoc]
      refine or_congr_right ?_
      rw [← and_or_left,← Dict.get?_eq_some]
      simp only [Holds,mem_cons,exists_eq_or_imp]

end selected

namespace ManagedStateOperator
variable {Key Backend Blob Snapshot : Type} {codec : KeyCodec Key} (store : KeyGroupStore codec Backend Blob)
variable (pickle : Pickle (ManagedStatePayload Blob) Snapshot) (op : ManagedStateOperator Backend)
variable (group : ColumnFamily → Bytes × Bytes → Nat)

structure IsFragment (payload : ManagedStatePayload Blob) : Prop where
  valid : payload.Valid op.maxParallelism
  watermark : payload.watermark = op.timerService.watermark
  carries : ∀ other snapshot, payload.keyGroups.get? other = some snapshot → other ∈ op.keyGroupRange ∧
    store.Readable snapshot ∧ ∀ family key value, store.Carries snapshot family key value ↔
      store.lookup op.backend family key = some value ∧ group family (key,value) = other
  complete : ∀ family key value, store.lookup op.backend family key = some value →
    group family (key,value) ∈ op.keyGroupRange → ∃ snapshot, payload.keyGroups.get? (group family (key,value)) = some snapshot

theorem snapshotState_ok (below : op.keyGroupRange.stop < op.maxParallelism)
    (known : ∀ family key value, store.lookup op.backend family key = some value →
      familyGroup codec op.maxParallelism family (key,value) = .ok (group family (key,value))) :
    ∃ payload, op.snapshotState store pickle = .ok (pickle.dumps payload) ∧ op.IsFragment store group payload := by
  obtain ⟨keyGroups,done,each,all⟩ :=
    store.snapshot_spec op.backend op.maxParallelism op.keyGroupRange.groups group known
  have valid : ManagedStatePayload.Valid ⟨managedFormatVersion,keyEncodingVersion,op.maxParallelism,op.keyGroupRange,
      keyGroups,op.timerService.watermark⟩ op.maxParallelism := by
    refine ⟨rfl,rfl,rfl,below,fun other listed => ?_⟩
    obtain ⟨snapshot,found⟩ := (Dict.mem_keys _ _).mp listed
    exact (op.keyGroupRange.mem_groups other).mp (each other snapshot found).1
  refine ⟨_,?_,valid,rfl,fun other snapshot found => ?_,fun family key value inside owned => ?_⟩
  · unfold snapshotState encodeManagedStateSnapshot
    rw [ok_bind done]
    exact ok_bind (validateSnapshotPayload_ok _ op.maxParallelism valid)
  · obtain ⟨requested,carries⟩ := each other snapshot found
    exact ⟨(op.keyGroupRange.mem_groups other).mp requested,carries⟩
  · exact all _ ((op.keyGroupRange.mem_groups _).mpr owned) family key value inside rfl

variable [DecidableEq Blob]

section restores
variable (payloads : List (ManagedStatePayload Blob)) (consistent : Consistent op.maxParallelism payloads)
include consistent

theorem selected_ok : ∃ selected,
    selectKeyGroupPayloads op.maxParallelism op.keyGroupRange ∅ payloads = .ok selected ∧
      (∀ group snapshot, selected.get? group = some snapshot ↔ group ∈ op.keyGroupRange ∧ Holds payloads group snapshot) ∧
      op.restoreStateFragments store pickle (payloads.map pickle.dumps) = op.restoreKeyGroupPayloads store payloads := by
  obtain ⟨selected,done,spec⟩ := selectKeyGroupPayloads_spec op.keyGroupRange (Holds payloads)
    (consistent.unique op.maxParallelism payloads) op.maxParallelism payloads
    (fun payload listed => (consistent.valid payload listed).maximum) (fun _ _ held => held) ∅ (by simp)
  refine ⟨selected,done,fun group snapshot => (spec group snapshot).trans (by simp),?_⟩
  unfold restoreStateFragments
  rw [decode_all pickle op.maxParallelism payloads consistent.valid]
  obtain ⟨first,rest,rfl⟩ := exists_cons_of_ne_nil consistent.nonempty
  rfl

theorem restoreStateFragments_accepts (next : ManagedStateOperator Backend)
    (done : op.restoreStateFragments store pickle (payloads.map pickle.dumps) = (.ok (),next)) (group : Nat) (snapshot : Blob)
    (inside : group ∈ op.keyGroupRange) (held : Holds payloads group snapshot) (family : ColumnFamily) (key value : Bytes)
    (carries : store.Carries snapshot family key value) : store.Accepts family key value := by
  obtain ⟨selected,chosen,spec,same⟩ := op.selected_ok store pickle payloads consistent
  rw [same] at done
  unfold restoreKeyGroupPayloads at done
  rw [chosen] at done
  dsimp only at done
  have listed := (mem_values _ _).mpr ⟨group,(spec group snapshot).mpr ⟨inside,held⟩⟩
  cases restored : store.restoreKeyGroups op.backend selected with
  | mk result backend =>
    rw [restored] at done
    cases result with
    | error raised => cases done
    | ok value' =>
      cases value'
      exact store.restore_accepts op.backend selected backend restored snapshot listed family key value carries

theorem restoreStateFragments_ok (started : ∀ payload ∈ payloads, -1 ≤ payload.watermark)
    (readable : ∀ group snapshot, Holds payloads group snapshot → store.Readable snapshot)
    (whole : ColumnFamily → Bytes → Option Bytes)
    (sound : ∀ group snapshot, Holds payloads group snapshot → ∀ family key value,
      store.Carries snapshot family key value → Written codec family key value ∧ whole family key = some value)
    (accepted : ∀ group snapshot, group ∈ op.keyGroupRange → Holds payloads group snapshot → ∀ family key value,
      store.Carries snapshot family key value → store.Accepts family key value) :
    ∃ next, op.restoreStateFragments store pickle (payloads.map pickle.dumps) = (.ok (),next) ∧
      IsLeast {other | ∃ payload ∈ payloads, payload.watermark = other} next.timerService.watermark ∧
      ∀ family key value, store.lookup next.backend family key = some value ↔
        ∃ group snapshot, group ∈ op.keyGroupRange ∧ Holds payloads group snapshot ∧
          store.Carries snapshot family key value := by
  obtain ⟨selected,done,spec,same⟩ := op.selected_ok store pickle payloads consistent
  have held (snapshot : Blob) (listed : snapshot ∈ selected.values) :
      ∃ group, group ∈ op.keyGroupRange ∧ Holds payloads group snapshot := by
    obtain ⟨group,found⟩ := (mem_values _ _).mp listed
    exact ⟨group,(spec group snapshot).mp found⟩
  obtain ⟨backend,restored,contents⟩ := store.restore_spec op.backend selected whole
    (fun snapshot listed => (held snapshot listed).elim (fun group own => readable group snapshot own.2))
    (fun snapshot listed => (held snapshot listed).elim (fun group own => sound group snapshot own.2))
    (fun snapshot listed => (held snapshot listed).elim (fun group own => accepted group snapshot own.1 own.2))
  obtain ⟨least,minimum⟩ : ∃ least, (payloads.map (fun payload => payload.watermark)).min? = some least := by
    refine Option.ne_none_iff_exists'.mp (fun nothing => consistent.nonempty ?_)
    exact map_eq_nil_iff.mp (min?_eq_none_iff.mp nothing)
  obtain ⟨listed,lowest⟩ := min?_eq_some_iff.mp minimum
  obtain ⟨payload,own,rfl⟩ := mem_map.mp listed
  refine ⟨{op with
    backend := backend
    timerService := ⟨payload.watermark,started payload own⟩},?_,⟨⟨payload,own,rfl⟩,?_⟩,fun family key value => ?_⟩
  · rw [same]
    unfold restoreKeyGroupPayloads
    rw [done]
    dsimp only
    rw [restored,minimum]
    dsimp only [Option.getD_some]
    unfold TimerService.restoreWatermark
    rw [dif_pos (started payload own)]
  · rintro other ⟨payload',listed',rfl⟩
    exact lowest _ (mem_map.mpr ⟨payload',listed',rfl⟩)
  · change store.lookup backend family key = some value ↔ _
    rw [contents]
    constructor
    · rintro ⟨snapshot,stored,carries⟩
      obtain ⟨group,own⟩ := held snapshot stored
      exact ⟨group,snapshot,own.1,own.2,carries⟩
    · rintro ⟨group,snapshot,inside,holds,carries⟩
      exact ⟨snapshot,(mem_values _ _).mpr ⟨group,(spec group snapshot).mpr ⟨inside,holds⟩⟩,carries⟩

end restores
end ManagedStateOperator
end Klein.State
