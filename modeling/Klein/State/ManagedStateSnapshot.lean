import Klein.OrderedMap
import Klein.State.KeyGroupRange
import Klein.State.ManagedStateBackend

/-! `state/managed_state_snapshot.py`: the envelope around the key groups of one
subtask, and the redistribution of envelopes over another parallelism. A pickled
envelope of other types than the source writes is one that `loads` rejects. -/
namespace Klein.State
open Fallible List

structure ManagedStatePayload (Blob : Type) where
  formatVersion : Nat
  keyEncodingVersion : Nat
  maxParallelism : Nat
  keyGroupRange : KeyGroupRange
  keyGroups : Dict Nat Blob
  watermark : Int

/-- `_FORMAT_VERSION` of this file -/
def managedFormatVersion : Nat := 2

def conflictingKeyGroup (keyGroup : Nat) : String := "checkpoint contains conflicting key group " ++ toString keyGroup

section envelope
variable {Blob Snapshot : Type} (pickle : Pickle (ManagedStatePayload Blob) Snapshot)

def validateSnapshotPayload (payload : ManagedStatePayload Blob) : Except String Unit :=
  if payload.formatVersion ≠ managedFormatVersion then .error "unsupported managed operator state format"
  else if payload.keyEncodingVersion ≠ keyEncodingVersion then
    .error ("managed state snapshot uses unsupported key encoding version " ++ toString payload.keyEncodingVersion ++
      "; expected " ++ toString keyEncodingVersion)
  else if payload.maxParallelism < 1 then
    .error "managed state snapshot max_parallelism must be a positive integer"
  else if payload.maxParallelism ≤ payload.keyGroupRange.stop then
    .error "managed state snapshot has an invalid key_group_range"
  else
    match payload.keyGroups.keys.find? (fun group => payload.maxParallelism ≤ group ∨ group ∉ payload.keyGroupRange) with
    | some group => .error ("managed state snapshot contains out-of-range key group " ++ toString group)
    | none => .ok ()

def encodeManagedStateSnapshot (maxParallelism : Nat) (keyGroupRange : KeyGroupRange) (keyGroups : Dict Nat Blob)
    (watermark : Int) : Except String Snapshot := do
  let payload : ManagedStatePayload Blob :=
    ⟨managedFormatVersion,keyEncodingVersion,maxParallelism,keyGroupRange,keyGroups,watermark⟩
  validateSnapshotPayload payload
  return pickle.dumps payload

def decodeManagedStateSnapshot (snapshot : Snapshot) : Except String (ManagedStatePayload Blob) := do
  let payload ← pickle.loads snapshot
  validateSnapshotPayload payload
  return payload

end envelope

section redistribution
variable {Blob Snapshot : Type} [DecidableEq Blob] (pickle : Pickle (ManagedStatePayload Blob) Snapshot)
variable (maxParallelism targetParallelism : Nat)

/-- `_redistribute_key_groups` -/
def redistributeKeyGroups : List (Dict Nat Blob) → List (Nat × Blob) → Except String (List (Dict Nat Blob))
  | buckets,[] => .ok buckets
  | buckets,(keyGroup,groupSnapshot)::rest => do
    let owner ← keyGroupOwner keyGroup maxParallelism targetParallelism
    let ownerBucket := buckets[owner]?.getD ∅
    if (ownerBucket.get? keyGroup).any (fun previous => previous ≠ groupSnapshot) then
      throw (conflictingKeyGroup keyGroup)
    else redistributeKeyGroups (buckets.set owner (ownerBucket.set keyGroup groupSnapshot)) rest

def redistributeSnapshots :
    List (Dict Nat Blob) → Int → List Snapshot → Except String (List (Dict Nat Blob) × Int)
  | buckets,watermark,[] => .ok (buckets,watermark)
  | buckets,watermark,snapshot::rest => do
    let payload ← decodeManagedStateSnapshot pickle snapshot
    if payload.maxParallelism ≠ maxParallelism then
      throw "managed state snapshots have inconsistent max_parallelism values"
    let buckets ← redistributeKeyGroups maxParallelism targetParallelism buckets payload.keyGroups.entries
    redistributeSnapshots buckets (min watermark payload.watermark) rest

def repartitionManagedStateSnapshots (snapshots : List Snapshot) (targetParallelism : Nat) :
    Except String (List Snapshot) :=
  if targetParallelism < 1 then .error "target_parallelism must be at least 1"
  else match snapshots with
  | [] => .error "at least one managed state snapshot is required"
  | first::rest => do
    let payload ← decodeManagedStateSnapshot pickle first
    let maxParallelism := payload.maxParallelism
    -- a target above the maximum is rejected here
    let _ ← assignKeyGroupRange maxParallelism targetParallelism 0
    let buckets ← redistributeKeyGroups maxParallelism targetParallelism (List.replicate targetParallelism ∅)
      payload.keyGroups.entries
    let (buckets,watermark) ←
      redistributeSnapshots pickle maxParallelism targetParallelism buckets payload.watermark rest
    buckets.zipIdx.mapM (fun (bucket,index) => do
      let keyGroupRange ← assignKeyGroupRange maxParallelism targetParallelism index
      encodeManagedStateSnapshot pickle maxParallelism keyGroupRange bucket.sorted.toDict watermark)

end redistribution

section valid
variable {Blob Snapshot : Type} (pickle : Pickle (ManagedStatePayload Blob) Snapshot)

structure ManagedStatePayload.Valid (payload : ManagedStatePayload Blob) (maxParallelism : Nat) : Prop where
  format : payload.formatVersion = managedFormatVersion
  encoding : payload.keyEncodingVersion = State.keyEncodingVersion
  maximum : payload.maxParallelism = maxParallelism
  below : payload.keyGroupRange.stop < maxParallelism
  inRange : ∀ group ∈ payload.keyGroups.keys, group ∈ payload.keyGroupRange

variable (payload : ManagedStatePayload Blob) (maxParallelism : Nat) (valid : payload.Valid maxParallelism)
include valid

theorem validateSnapshotPayload_ok : validateSnapshotPayload payload = .ok () := by
  have below := valid.below
  have maximum := valid.maximum
  unfold validateSnapshotPayload
  rw [if_neg (not_not_intro valid.format),if_neg (not_not_intro valid.encoding),
    if_neg (by omega),if_neg (by omega)]
  have none : payload.keyGroups.keys.find?
      (fun group => payload.maxParallelism ≤ group ∨ group ∉ payload.keyGroupRange) = none := by
    refine find?_eq_none.mpr (fun group listed outside => ?_)
    have inside := valid.inRange group listed
    rcases of_decide_eq_true outside with above | outside
    · exact absurd inside.2 (by omega)
    · exact outside inside
  rw [none]

theorem decode_dumps : decodeManagedStateSnapshot pickle (pickle.dumps payload) = .ok payload := by
  unfold decodeManagedStateSnapshot
  rw [ok_bind (pickle.loads_dumps payload),
    ok_bind (validateSnapshotPayload_ok payload maxParallelism valid)]
  rfl

omit valid in
theorem decode_all (payloads : List (ManagedStatePayload Blob)) (valid : ∀ payload ∈ payloads, payload.Valid maxParallelism) :
    (payloads.map pickle.dumps).mapM (decodeManagedStateSnapshot pickle) = .ok payloads := by
  induction payloads with
  | nil => rfl
  | cons payload rest ih =>
    obtain ⟨here,later⟩ := forall_mem_cons.mp valid
    rw [map_cons,mapM_cons,ok_bind (decode_dumps pickle payload maxParallelism here),
      ok_bind (ih later)]
    rfl

end valid

section routes
variable {Blob Snapshot : Type} [DecidableEq Blob] (pickle : Pickle (ManagedStatePayload Blob) Snapshot)
variable (maxParallelism targetParallelism : Nat) (positive : 1 ≤ targetParallelism)
variable (within : targetParallelism ≤ maxParallelism)
variable (holds : Nat → Blob → Prop) (unique : ∀ group one other, holds group one → holds group other → one = other)

def inBucket (buckets : List (Dict Nat Blob)) (index group : Nat) (snapshot : Blob) : Prop :=
  (buckets[index]?.getD ∅).get? group = some snapshot

omit [DecidableEq Blob] in
theorem inBucket_set (buckets : List (Dict Nat Blob)) (owner index group : Nat) (bucket : Dict Nat Blob) (snapshot : Blob)
    (exists' : owner < buckets.length) : inBucket (buckets.set owner bucket) index group snapshot ↔
      if owner = index then bucket.get? group = some snapshot else inBucket buckets index group snapshot := by
  unfold inBucket
  rw [getElem?_set]
  by_cases own : owner = index
  · rw [if_pos own,if_pos own,if_pos exists',Option.getD_some]
  · rw [if_neg own,if_neg own]

include positive within unique

theorem redistributeKeyGroups_spec (entries : List (Nat × Blob))
    (known : ∀ item ∈ entries, item.1 < maxParallelism ∧ holds item.1 item.2) (buckets : List (Dict Nat Blob))
    (length : buckets.length = targetParallelism)
    (held : ∀ index group snapshot, inBucket buckets index group snapshot → holds group snapshot) :
    ∃ result, redistributeKeyGroups maxParallelism targetParallelism buckets entries = .ok result ∧
      result.length = targetParallelism ∧ ∀ index group snapshot, inBucket result index group snapshot ↔
        inBucket buckets index group snapshot ∨
          group * targetParallelism / maxParallelism = index ∧ (group,snapshot) ∈ entries := by
  induction entries generalizing buckets with
  | nil => exact ⟨buckets,rfl,length,fun index group snapshot => by simp⟩
  | cons item rest ih =>
    obtain ⟨keyGroup,groupSnapshot⟩ := item
    obtain ⟨⟨inside,own⟩,later⟩ := forall_mem_cons.mp known
    have exists' : keyGroup * targetParallelism / maxParallelism < buckets.length :=
      length ▸ keyGroupOwner_lt maxParallelism targetParallelism positive keyGroup inside
    have noConflict : ((buckets[keyGroup * targetParallelism / maxParallelism]?.getD ∅).get? keyGroup).any
        (fun previous => previous ≠ groupSnapshot) = false := by
      refine Option.any_eq_false _ _ |>.mpr (fun previous found => ?_)
      have same := unique keyGroup previous groupSnapshot (held _ keyGroup previous found) own
      simp [same]
    have routed (index group : Nat) (snapshot : Blob) :
        inBucket (buckets.set (keyGroup * targetParallelism / maxParallelism)
          ((buckets[keyGroup * targetParallelism / maxParallelism]?.getD ∅).set keyGroup groupSnapshot))
          index group snapshot ↔ inBucket buckets index group snapshot ∨
            keyGroup * targetParallelism / maxParallelism = index ∧ (group,snapshot) = (keyGroup,groupSnapshot) := by
      rw [inBucket_set buckets _ index group _ snapshot exists',Dict.get?_set,Prod.mk.injEq]
      by_cases here : keyGroup * targetParallelism / maxParallelism = index
      · subst here
        rw [if_pos rfl]
        by_cases same : group = keyGroup
        · subst same
          rw [if_pos rfl]
          constructor
          · exact fun stored => .inr ⟨rfl,rfl,(Option.some.inj stored).symm⟩
          · rintro (before | ⟨-,-,rfl⟩)
            · rw [unique group snapshot groupSnapshot (held _ group snapshot before) own]
            · rfl
        · rw [if_neg same]
          simp [same,inBucket]
      · simp [here]
    rw [redistributeKeyGroups,ok_bind
      (keyGroupOwner_ok maxParallelism targetParallelism positive within keyGroup inside)]
    dsimp only
    rw [noConflict,if_neg (by decide)]
    obtain ⟨result,done,length',spec⟩ := ih later _ ((List.length_set ..).trans length) (fun index group snapshot found =>
      ((routed index group snapshot).mp found).elim (held index group snapshot) (fun new => by
        obtain ⟨rfl,rfl⟩ := Prod.mk.inj new.2
        exact own))
    refine ⟨result,done,length',fun index group snapshot => ?_⟩
    rw [spec,routed,mem_cons,or_assoc]
    refine or_congr_right ⟨?_,?_⟩
    · rintro (⟨here,new⟩ | ⟨here,listed⟩)
      · obtain ⟨rfl,rfl⟩ := Prod.mk.inj new
        exact ⟨here,.inl rfl⟩
      · exact ⟨here,.inr listed⟩
    · rintro ⟨here,new | listed⟩
      · obtain ⟨rfl,rfl⟩ := Prod.mk.inj new
        exact .inl ⟨here,rfl⟩
      · exact .inr ⟨here,listed⟩

theorem redistributeSnapshots_spec (payloads : List (ManagedStatePayload Blob))
    (valid : ∀ payload ∈ payloads, payload.Valid maxParallelism)
    (known : ∀ payload ∈ payloads, ∀ group snapshot, payload.keyGroups.get? group = some snapshot → holds group snapshot)
    (buckets : List (Dict Nat Blob)) (length : buckets.length = targetParallelism)
    (held : ∀ index group snapshot, inBucket buckets index group snapshot → holds group snapshot) (watermark : Int) :
    ∃ result least, redistributeSnapshots pickle maxParallelism targetParallelism buckets watermark
        (payloads.map pickle.dumps) = .ok (result,least) ∧
      result.length = targetParallelism ∧
      IsLeast (insert watermark {other | ∃ payload ∈ payloads, payload.watermark = other}) least ∧
      ∀ index group snapshot, inBucket result index group snapshot ↔ inBucket buckets index group snapshot ∨
        group * targetParallelism / maxParallelism = index ∧
          ∃ payload ∈ payloads, payload.keyGroups.get? group = some snapshot := by
  induction payloads generalizing buckets watermark with
  | nil => exact ⟨buckets,watermark,rfl,length,by simp,fun index group snapshot => by simp⟩
  | cons payload rest ih =>
    obtain ⟨here,valid⟩ := forall_mem_cons.mp valid
    obtain ⟨own,known⟩ := forall_mem_cons.mp known
    obtain ⟨next,done,length',spec⟩ := redistributeKeyGroups_spec maxParallelism targetParallelism positive within holds
      unique payload.keyGroups.entries (fun item listed => by
        have found := (Dict.get?_eq_some _ _ _).mpr listed
        have inside := here.inRange item.1 ((Dict.mem_keys _ _).mpr ⟨_,found⟩)
        have below := here.below
        exact ⟨by have := inside.2; omega,own item.1 item.2 found⟩) buckets length held
    obtain ⟨result,least,finished,length'',lowest,spec'⟩ := ih valid known next length' (fun index group snapshot found =>
      ((spec index group snapshot).mp found).elim (held index group snapshot)
        (fun new => own group snapshot ((Dict.get?_eq_some _ _ _).mpr new.2))) (min watermark payload.watermark)
    refine ⟨result,least,?_,length'',?_,fun index group snapshot => ?_⟩
    · rw [map_cons,redistributeSnapshots,
        ok_bind (decode_dumps pickle payload maxParallelism here),if_neg (not_not_intro here.maximum)]
      exact (ok_bind done).trans finished
    · have both : insert watermark {other | ∃ listed ∈ payload::rest, listed.watermark = other} =
          insert watermark (insert payload.watermark {other | ∃ listed ∈ rest, listed.watermark = other}) := by
        ext other
        simp [eq_comm]
      rw [both]
      constructor
      · rcases lowest.1 with same | later
        · rcases min_choice watermark payload.watermark with chosen | chosen
          · exact .inl (same.trans chosen)
          · exact .inr (.inl (same.trans chosen))
        · exact .inr (.inr later)
      · rintro other (rfl | rfl | later)
        · exact (lowest.2 (.inl rfl)).trans (min_le_left _ _)
        · exact (lowest.2 (.inl rfl)).trans (min_le_right _ _)
        · exact lowest.2 (.inr later)
    · rw [spec',spec,or_assoc]
      refine or_congr_right ?_
      rw [← and_or_left,← Dict.get?_eq_some]
      simp only [mem_cons,exists_eq_or_imp]

end routes

section parts
variable {Blob Snapshot : Type}

structure Consistent (maxParallelism : Nat) (payloads : List (ManagedStatePayload Blob)) : Prop where
  nonempty : payloads ≠ []
  valid : ∀ payload ∈ payloads, payload.Valid maxParallelism
  agree : ∀ payload ∈ payloads, ∀ other ∈ payloads, ∀ group one two,
    payload.keyGroups.get? group = some one → other.keyGroups.get? group = some two → one = two

def Holds (payloads : List (ManagedStatePayload Blob)) (group : Nat) (snapshot : Blob) : Prop :=
  ∃ payload ∈ payloads, payload.keyGroups.get? group = some snapshot

section
variable (maxParallelism : Nat) (payloads : List (ManagedStatePayload Blob))
  (consistent : Consistent maxParallelism payloads) (group : Nat)
include consistent group

theorem Consistent.unique (one other : Blob) (first : Holds payloads group one)
    (second : Holds payloads group other) : one = other := by
  obtain ⟨payload,listed,found⟩ := first
  obtain ⟨payload',listed',found'⟩ := second
  exact consistent.agree payload listed payload' listed' group one other found found'

theorem Consistent.below (snapshot : Blob) (held : Holds payloads group snapshot) :
    group < maxParallelism := by
  obtain ⟨payload,listed,found⟩ := held
  have inside := (consistent.valid payload listed).inRange group ((Dict.mem_keys _ _).mpr ⟨snapshot,found⟩)
  exact Nat.lt_of_le_of_lt inside.2 (consistent.valid payload listed).below

end

structure IsPart (maxParallelism parallelism : Nat) (payloads : List (ManagedStatePayload Blob)) (index : Nat)
    (part : ManagedStatePayload Blob) : Prop where
  format : part.formatVersion = managedFormatVersion
  encoding : part.keyEncodingVersion = keyEncodingVersion
  maximum : part.maxParallelism = maxParallelism
  range : assignKeyGroupRange maxParallelism parallelism index = .ok part.keyGroupRange
  sorted : ∃ groups : OrderedMap Nat Blob, part.keyGroups = groups.toDict
  holds : ∀ group snapshot, part.keyGroups.get? group = some snapshot ↔
    Holds payloads group snapshot ∧ group * parallelism / maxParallelism = index
  watermark : IsLeast {other | ∃ payload ∈ payloads, payload.watermark = other} part.watermark

variable (maxParallelism parallelism : Nat) (payloads : List (ManagedStatePayload Blob))

theorem IsPart.unique (index : Nat) (one other : ManagedStatePayload Blob)
    (first : IsPart maxParallelism parallelism payloads index one)
    (second : IsPart maxParallelism parallelism payloads index other) : one = other := by
  have range := Except.ok.inj (first.range.symm.trans second.range)
  have watermark := first.watermark.unique second.watermark
  have groups : one.keyGroups = other.keyGroups := by
    obtain ⟨groups,same⟩ := first.sorted
    obtain ⟨groups',same'⟩ := second.sorted
    rw [same,same']
    refine congrArg OrderedMap.toDict (OrderedMap.ext groups groups' (fun group => Option.ext (fun snapshot => ?_)))
    change groups.toDict.get? group = some snapshot ↔ groups'.toDict.get? group = some snapshot
    rw [← same,← same',first.holds,second.holds]
  have versions := first.format.trans second.format.symm
  have encodings := first.encoding.trans second.encoding.symm
  have maxima := first.maximum.trans second.maximum.symm
  cases one
  cases other
  simp only [ManagedStatePayload.mk.injEq] at *
  exact ⟨versions,encodings,maxima,range,groups,watermark⟩

section assigned
variable (positive : 1 ≤ parallelism) (within : parallelism ≤ maxParallelism)
variable (consistent : Consistent maxParallelism payloads)
include positive within consistent

theorem IsPart.valid (index : Nat) (inside : index < parallelism) (part : ManagedStatePayload Blob)
    (isPart : IsPart maxParallelism parallelism payloads index part) : part.Valid maxParallelism := by
  obtain ⟨range,assigned,below,owned⟩ := assignKeyGroupRange_ok maxParallelism parallelism positive within index inside
  obtain rfl := Except.ok.inj (assigned.symm.trans isPart.range)
  refine ⟨isPart.format,isPart.encoding,isPart.maximum,below,fun group listed => ?_⟩
  obtain ⟨snapshot,found⟩ := (Dict.mem_keys _ _).mp listed
  obtain ⟨held,own⟩ := (isPart.holds group snapshot).mp found
  exact (owned group).mpr ⟨consistent.below maxParallelism payloads group snapshot held,own⟩

variable [DecidableEq Blob] (pickle : Pickle (ManagedStatePayload Blob) Snapshot)

theorem repartition_ok : ∃ parts : List (ManagedStatePayload Blob),
    repartitionManagedStateSnapshots pickle (payloads.map pickle.dumps) parallelism = .ok (parts.map pickle.dumps) ∧
      parts.length = parallelism ∧
      ∀ index part, parts[index]? = some part → IsPart maxParallelism parallelism payloads index part := by
  have unique := consistent.unique maxParallelism payloads
  obtain ⟨first,rest,rfl⟩ := exists_cons_of_ne_nil consistent.nonempty
  obtain ⟨here,valid⟩ := forall_mem_cons.mp consistent.valid
  obtain ⟨range,assigned,-,-⟩ := assignKeyGroupRange_ok maxParallelism parallelism positive within 0 (by omega)
  have empty (index group : Nat) (snapshot : Blob) : ¬ inBucket (List.replicate parallelism ∅) index group snapshot := by
    unfold inBucket
    rw [getElem?_replicate]
    split <;> simp
  obtain ⟨buckets,done,length,spec⟩ := redistributeKeyGroups_spec maxParallelism parallelism positive within
    (Holds (first::rest)) unique first.keyGroups.entries (fun item listed => by
      have held : Holds (first::rest) item.1 item.2 :=
        ⟨first,mem_cons_self,(Dict.get?_eq_some _ _ _).mpr listed⟩
      exact ⟨consistent.below maxParallelism _ item.1 item.2 held,held⟩) (List.replicate parallelism ∅)
    length_replicate (fun index group snapshot found => absurd found (empty index group snapshot))
  obtain ⟨buckets',least,finished,length',lowest,spec'⟩ := redistributeSnapshots_spec pickle maxParallelism parallelism
    positive within (Holds (first::rest)) unique rest valid
    (fun payload listed group snapshot found => ⟨payload,mem_cons_of_mem _ listed,found⟩) buckets length
    (fun index group snapshot found => ((spec index group snapshot).mp found).elim
      (fun before => absurd before (empty index group snapshot))
      (fun new => ⟨first,mem_cons_self,(Dict.get?_eq_some _ _ _).mpr new.2⟩)) first.watermark
  have routed (index group : Nat) (snapshot : Blob) : inBucket buckets' index group snapshot ↔
      Holds (first::rest) group snapshot ∧ group * parallelism / maxParallelism = index := by
    rw [spec',spec,← Dict.get?_eq_some]
    unfold Holds
    simp only [mem_cons,exists_eq_or_imp,empty,false_or]
    tauto
  have watermark : IsLeast {other | ∃ payload ∈ first::rest, payload.watermark = other} least := by
    have same : {other | ∃ payload ∈ first::rest, payload.watermark = other} =
        insert first.watermark {other | ∃ payload ∈ rest, payload.watermark = other} := by
      ext other
      simp [eq_comm]
    exact same ▸ lowest
  obtain ⟨parts,encoded,count,each⟩ := mapM_at buckets'.zipIdx (fun (bucket,index) => do
      let keyGroupRange ← assignKeyGroupRange maxParallelism parallelism index
      encodeManagedStateSnapshot pickle maxParallelism keyGroupRange bucket.sorted.toDict least) pickle.dumps
    (fun item part => IsPart maxParallelism parallelism (first::rest) item.2 part) (by
      rintro ⟨bucket,index⟩ listed
      have found := mem_zipIdx_iff_getElem?.mp listed
      have inside : index < parallelism := length' ▸ (List.getElem?_eq_some_iff.mp found).1
      obtain ⟨range,assigned,-,-⟩ := assignKeyGroupRange_ok maxParallelism parallelism positive within index inside
      have isPart : IsPart maxParallelism parallelism (first::rest) index
          ⟨managedFormatVersion,keyEncodingVersion,maxParallelism,range,bucket.sorted.toDict,least⟩ := by
        refine ⟨rfl,rfl,rfl,assigned,⟨_,rfl⟩,fun group snapshot => ?_,watermark⟩
        rw [← routed]
        change bucket.sorted.get? group = some snapshot ↔ (buckets'[index]?.getD ∅).get? group = some snapshot
        rw [Dict.get?_sorted,found,Option.getD_some]
      refine ⟨_,?_,isPart⟩
      dsimp only
      rw [ok_bind assigned]
      unfold encodeManagedStateSnapshot
      exact ok_bind (validateSnapshotPayload_ok _ maxParallelism
        (isPart.valid maxParallelism parallelism (first::rest) positive within consistent index inside)))
  rw [length_zipIdx,length'] at count
  refine ⟨parts,?_,count,fun index part found => ?_⟩
  · unfold repartitionManagedStateSnapshots
    rw [if_neg (by omega),map_cons]
    dsimp only
    rw [ok_bind (decode_dumps pickle first maxParallelism here),here.maximum,
      ok_bind assigned,ok_bind done,ok_bind finished]
    exact encoded
  · have inside : index < buckets'.length := by
      rw [length',← count]
      exact (List.getElem?_eq_some_iff.mp found).1
    exact each index (buckets'[index],index) part (by simp [inside]) found

omit within [DecidableEq Blob] in
theorem holds_parts (parts : List (ManagedStatePayload Blob)) (length : parts.length = parallelism)
    (each : ∀ index part, parts[index]? = some part → IsPart maxParallelism parallelism payloads index part)
    (group : Nat) (snapshot : Blob) : Holds parts group snapshot ↔ Holds payloads group snapshot := by
  constructor
  · rintro ⟨part,listed,found⟩
    obtain ⟨index,at'⟩ := getElem?_of_mem listed
    exact (((each index part at').holds group snapshot).mp found).1
  · intro held
    have below := consistent.below maxParallelism payloads group snapshot held
    have owner := keyGroupOwner_lt maxParallelism parallelism positive group below
    obtain ⟨part,at'⟩ : ∃ part, parts[group * parallelism / maxParallelism]? = some part :=
      ⟨_,getElem?_eq_getElem (by rw [length]; exact owner)⟩
    exact ⟨part,mem_of_getElem? at',((each _ _ at').holds group snapshot).mpr ⟨held,rfl⟩⟩

section
variable (parts : List (ManagedStatePayload Blob)) (length : parts.length = parallelism)
  (each : ∀ index part, parts[index]? = some part → IsPart maxParallelism parallelism payloads index part)
include length each

omit [DecidableEq Blob] in
theorem consistent_parts :
    Consistent maxParallelism parts := by
  have holds := holds_parts maxParallelism parallelism payloads positive consistent parts length each
  constructor
  case nonempty =>
    rintro rfl
    have : (0 : Nat) = parallelism := length
    omega
  case valid =>
    intro part listed
    obtain ⟨index,at'⟩ := getElem?_of_mem listed
    exact (each index part at').valid maxParallelism parallelism payloads positive within consistent index
      (length ▸ (List.getElem?_eq_some_iff.mp at').1)
  case agree =>
    intro part listed other listed' group one two found found'
    exact consistent.unique maxParallelism payloads group one two ((holds group one).mp ⟨part,listed,found⟩)
      ((holds group two).mp ⟨other,listed',found'⟩)

theorem repartition_again (next : Nat) (positive' : 1 ≤ next) (within' : next ≤ maxParallelism) :
    repartitionManagedStateSnapshots pickle (parts.map pickle.dumps) next =
      repartitionManagedStateSnapshots pickle (payloads.map pickle.dumps) next := by
  have holds := holds_parts maxParallelism parallelism payloads positive consistent parts length each
  obtain ⟨direct,done,count,isPart⟩ := repartition_ok maxParallelism next payloads positive' within' consistent pickle
  obtain ⟨again,done',count',isPart'⟩ := repartition_ok maxParallelism next parts positive' within'
    (consistent_parts maxParallelism parallelism payloads positive within consistent parts length each) pickle
  have same : again = direct := by
    refine ext_getElem (count'.trans count.symm) (fun index inside inside' => ?_)
    have one := isPart' index _ (getElem?_eq_getElem inside)
    refine IsPart.unique maxParallelism next payloads index _ _ ?_ (isPart index _ (getElem?_eq_getElem inside'))
    refine {one with holds := fun group snapshot => ?_,watermark := ?_}
    · rw [one.holds,holds]
    · obtain ⟨part,listed,same⟩ := one.watermark.1
      obtain ⟨source,at'⟩ := getElem?_of_mem listed
      rw [← same]
      exact (each source part at').watermark
  rw [done,done',same]

end

end assigned
end parts
end Klein.State
