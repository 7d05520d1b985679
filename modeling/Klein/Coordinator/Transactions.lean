import Mathlib
import Klein.Coordinator.Coalesce
import Klein.Coordinator.TimeoutSweep

/-! Sink transactions are neither lost nor duplicated. The ledger says where the
writers of every registered transaction are: in one of the maps of the coordinator,
each exactly once, or committed. -/
namespace Klein.Coordinator
open Dict Function List

variable {β : Type} (c : Config β)

def heldEntries (s : State β) : List SinkEntry :=
  s.inflightSinkCommittables.flat ++ s.carriedSinkCommittables.flat ++ s.pendingSinkCommittables.values

def Covered (identity : SinkIdentity) (entry : SinkEntry) (s : State β) : Prop :=
  identity = entry.identity ∧ (s.pendingSinkCommittables.get? identity = some entry ∨ entry ∈ s.log.committed)

structure Filed (s : State β) : Prop where
  inflight : ∀ barrierId inner vertex entry, s.inflightSinkCommittables.get? barrierId = some inner →
    inner.get? vertex = some entry → entry.taskKey = .subtask vertex ∧ entry.checkpointId = barrierId ∧ Single entry
  carried : ∀ domainId inner identity entry, s.carriedSinkCommittables.get? domainId = some inner →
    inner.get? identity = some entry → identity = entry.identity ∧ Single entry ∧ Gone entry.checkpointId s
  pending : ∀ identity entry, s.pendingSinkCommittables.get? identity = some entry →
    identity = entry.identity ∧ Formed c entry ∧ Gone entry.checkpointId s

/-- Where the registered writers are. `owner` is the task and checkpoint that a
transaction id of the run belongs to. -/
structure Ledger (owner : String → Option (Vertex × Int)) (s : State β) : Prop extends Filed c s where
  committed : ∀ entry ∈ s.log.committed, Formed c entry ∧ Gone entry.checkpointId s
  durable : ∀ identity entry, s.durableSinkCommittables.get? identity = some entry → Covered identity entry s
  once : (writersOf (heldEntries s)).Nodup
  apart : ∀ writer ∈ writersOf (heldEntries s), writer ∉ writersOf s.log.committed
  registered : ∀ writer, writer ∈ s.log.registered ↔
    writer ∈ writersOf (heldEntries s) ∨ writer ∈ writersOf s.log.committed
  owned : ∀ writer ∈ s.log.registered, owner writer.transactionId = some (writer.vertex,writer.checkpointId)
  slots : ∀ writer ∈ s.log.registered, ∀ other ∈ s.log.registered, writer.vertex = other.vertex →
    writer.checkpointId = other.checkpointId → writer = other
  clean : ∀ writer ∈ s.log.registered, '\x00' ∉ writer.transactionId.toList

/-- SHA-256 tells the joined ids of any two lists of transactions of the run apart. -/
def CollisionFree (owner : String → Option (Vertex × Int)) : Prop :=
  ∀ ids ids' : List String, ids.Nodup → ids'.Nodup → (∀ id ∈ ids ++ ids', (owner id).isSome) →
    c.sha256 (String.intercalate (String.singleton '\x00') ids) =
      c.sha256 (String.intercalate (String.singleton '\x00') ids') →
    String.intercalate (String.singleton '\x00') ids = String.intercalate (String.singleton '\x00') ids'

section ledger
variable {c} {owner : String → Option (Vertex × Int)} {s : State β} (ledger : Ledger c owner s)

theorem mem_writersOf (entries : List SinkEntry) (writer : Writer) :
    writer ∈ writersOf entries ↔ ∃ entry ∈ entries, writer ∈ entry.writers := mem_flatMap

include ledger in
theorem Ledger.writer_eq (writer other : Writer) (known : writer ∈ s.log.registered) (known' : other ∈ s.log.registered)
    (equal : writer.transactionId = other.transactionId) : writer = other := by
  have mine := ledger.owned writer known
  have theirs := ledger.owned other known'
  rw [equal,theirs,Option.some.injEq,Prod.mk.injEq] at mine
  exact ledger.slots writer known other known' mine.1.symm mine.2.symm

include ledger in
theorem Ledger.joined_ids (entry : SinkEntry) (formed : Formed c entry)
    (known : ∀ writer ∈ entry.writers, writer ∈ s.log.registered) :
    ((entry.writers.map Writer.transactionId).insertionSort (· ≤ ·)).Nodup ∧
      ∀ id ∈ (entry.writers.map Writer.transactionId).insertionSort (· ≤ ·), (owner id).isSome := by
  have sorted := perm_insertionSort (· ≤ ·) (entry.writers.map Writer.transactionId)
  refine ⟨sorted.nodup_iff.mpr ((formed.nodup c entry).map_on (fun writer mine other theirs equal => ?_)),
    fun id inside => ?_⟩
  · exact ledger.writer_eq writer other (known writer mine) (known other theirs) equal
  · obtain ⟨writer,mine,rfl⟩ := mem_map.mp (sorted.mem_iff.mp inside)
    simp [ledger.owned writer (known writer mine)]

include ledger in
theorem Ledger.shared_writer (collisionFree : CollisionFree c owner) (first second : SinkEntry)
    (formed : Formed c first) (formed' : Formed c second)
    (known : ∀ writer ∈ first.writers, writer ∈ s.log.registered)
    (known' : ∀ writer ∈ second.writers, writer ∈ s.log.registered) (same : first.identity = second.identity) :
    ∃ writer, writer ∈ first.writers ∧ writer ∈ second.writers := by
  obtain ⟨nodup,owned⟩ := ledger.joined_ids first formed known
  obtain ⟨nodup',owned'⟩ := ledger.joined_ids second formed' known'
  refine formed.shared_writer c first second formed'
    (collisionFree _ _ nodup nodup' (fun id inside => (mem_append.mp inside).elim (owned id) (owned' id)))
    (fun writer inside other belongs equal => ?_) (fun writer inside => ?_) same
  · exact ledger.writer_eq writer other (known writer inside) (known' other belongs) equal
  · rcases mem_append.mp inside with mine | theirs
    · exact ledger.clean writer (known writer mine)
    · exact ledger.clean writer (known' writer theirs)

include ledger in
theorem Ledger.identity_ne (collisionFree : CollisionFree c owner) (first second : SinkEntry)
    (formed : Formed c first) (formed' : Formed c second)
    (known : ∀ writer ∈ first.writers, writer ∈ s.log.registered)
    (known' : ∀ writer ∈ second.writers, writer ∈ s.log.registered)
    (apart : ∀ writer ∈ first.writers, writer ∉ second.writers) : first.identity ≠ second.identity := by
  intro same
  obtain ⟨writer,mine,theirs⟩ := ledger.shared_writer collisionFree first second formed formed' known known' same
  exact apart writer mine theirs

include ledger in
theorem Ledger.distinct (collisionFree : CollisionFree c owner) (entries : List SinkEntry)
    (singles : ∀ entry ∈ entries, Single entry) (once : (writersOf entries).Nodup)
    (known : ∀ writer ∈ writersOf entries, writer ∈ s.log.registered) :
    (entries.map (fun entry => (entry.checkpointId,entry.taskKey))).Nodup ∧
      (entries.map SinkEntry.identity).Nodup := by
  induction entries with
  | nil => simp
  | cons entry rest ih =>
    rw [writersOf_cons] at once known
    obtain ⟨_,later,disjoint⟩ := nodup_append'.mp once
    obtain ⟨slots,identities⟩ := ih (fun other inside => singles other (by simp [inside])) later
      (fun writer inside => known writer (mem_append_right _ inside))
    have elsewhere (other : SinkEntry) (inside : other ∈ rest) (writer : Writer) (mine : writer ∈ entry.writers)
        (theirs : writer ∈ other.writers) : False :=
      disjoint mine ((mem_writersOf _ _).mpr ⟨other,inside,theirs⟩)
    rw [map_cons,map_cons,nodup_cons,nodup_cons]
    refine ⟨⟨fun inside => ?_,slots⟩,fun inside => ?_,identities⟩
    · obtain ⟨other,member,same⟩ := mem_map.mp inside
      rw [Prod.mk.injEq] at same
      obtain ⟨vertex,key,writers⟩ := singles entry (by simp)
      obtain ⟨vertex',key',writers'⟩ := singles other (by simp [member])
      have equal : vertex' = vertex := by
        rw [key,key',TaskKey.subtask.injEq] at same
        exact same.2
      have shared := ledger.slots ⟨vertex',other.checkpointId,other.committable.transactionId⟩
        (known _ (mem_append_right _ ((mem_writersOf _ _).mpr ⟨other,member,by simp [writers']⟩)))
        ⟨vertex,entry.checkpointId,entry.committable.transactionId⟩
        (known _ (mem_append_left _ (by simp [writers]))) equal same.1
      exact elsewhere other member ⟨vertex,entry.checkpointId,entry.committable.transactionId⟩ (by simp [writers])
        (by rw [writers',← shared]; simp)
    · obtain ⟨other,member,same⟩ := mem_map.mp inside
      obtain ⟨writer,theirs,mine⟩ := ledger.shared_writer collisionFree other entry
        (.inl (singles other (by simp [member]))) (.inl (singles entry (by simp)))
        (fun writer theirs => known writer (mem_append_right _ ((mem_writersOf _ _).mpr ⟨other,member,theirs⟩)))
        (fun writer mine => known writer (mem_append_left _ mine)) same
      exact elsewhere other member writer mine theirs

structure Parts (s : State β) : Prop where
  inflight : (writersOf s.inflightSinkCommittables.flat).Nodup
  carried : (writersOf s.carriedSinkCommittables.flat).Nodup
  pending : (writersOf s.pendingSinkCommittables.values).Nodup
  inflightCarried : ∀ writer ∈ writersOf s.inflightSinkCommittables.flat, writer ∉ writersOf s.carriedSinkCommittables.flat
  inflightPending : ∀ writer ∈ writersOf s.inflightSinkCommittables.flat,
    writer ∉ writersOf s.pendingSinkCommittables.values
  carriedPending : ∀ writer ∈ writersOf s.carriedSinkCommittables.flat, writer ∉ writersOf s.pendingSinkCommittables.values

include ledger in
theorem Ledger.parts : Parts s := by
  have once := ledger.once
  rw [heldEntries,writersOf_append,writersOf_append,nodup_append',nodup_append'] at once
  obtain ⟨⟨inflight,carried,apart⟩,pending,apart'⟩ := once
  exact ⟨inflight,carried,pending,fun _ mine theirs => apart mine theirs,
    fun _ mine theirs => apart' (mem_append_left _ mine) theirs,
    fun _ mine theirs => apart' (mem_append_right _ mine) theirs⟩

include ledger in
theorem Ledger.known_inflight (writer : Writer) (inside : writer ∈ writersOf s.inflightSinkCommittables.flat) :
    writer ∈ s.log.registered :=
  (ledger.registered writer).mpr (.inl (by
    rw [heldEntries,writersOf_append,writersOf_append]
    exact mem_append_left _ (mem_append_left _ inside)))

include ledger in
theorem Ledger.known_carried (writer : Writer) (inside : writer ∈ writersOf s.carriedSinkCommittables.flat) :
    writer ∈ s.log.registered :=
  (ledger.registered writer).mpr (.inl (by
    rw [heldEntries,writersOf_append,writersOf_append]
    exact mem_append_left _ (mem_append_right _ inside)))

include ledger in
theorem Ledger.known_pending (writer : Writer) (inside : writer ∈ writersOf s.pendingSinkCommittables.values) :
    writer ∈ s.log.registered :=
  (ledger.registered writer).mpr (.inl (by
    rw [heldEntries,writersOf_append]
    exact mem_append_right _ inside))

end ledger

/-- The steps that publish nothing and commit nothing. -/
structure Unpublished (before after : State β) : Prop where
  committed : after.log.committed = before.log.committed
  durable : after.durableSinkCommittables = before.durableSinkCommittables
  gone : ∀ barrierId, Gone barrierId before → Gone barrierId after

section steps
variable {c} {owner : String → Option (Vertex × Int)} {before after : State β}

theorem Ledger.moved (ledger : Ledger c owner before) (still : Unpublished before after) (filed : Filed c after)
    (perm : (writersOf (heldEntries after)).Perm (writersOf (heldEntries before)))
    (registered : after.log.registered = before.log.registered)
    (pending : ∀ identity entry, before.pendingSinkCommittables.get? identity = some entry →
      after.pendingSinkCommittables.get? identity = some entry) : Ledger c owner after where
  toFiled := filed
  committed entry inside := by
    obtain ⟨formed,left⟩ := ledger.committed entry (still.committed ▸ inside)
    exact ⟨formed,still.gone _ left⟩
  durable identity entry found := by
    obtain ⟨same,held⟩ := ledger.durable identity entry (still.durable ▸ found)
    exact ⟨same,held.imp (pending identity entry) (fun inside => still.committed ▸ inside)⟩
  once := perm.nodup_iff.mpr ledger.once
  apart writer inside := by
    rw [still.committed]
    exact ledger.apart writer (perm.mem_iff.mp inside)
  registered writer := by
    rw [registered,still.committed,ledger.registered,perm.mem_iff]
  owned := by
    rw [registered]
    exact ledger.owned
  slots := by
    rw [registered]
    exact ledger.slots
  clean := by
    rw [registered]
    exact ledger.clean

theorem Filed.grown (filed : Filed c before) (gone : ∀ barrierId, Gone barrierId before → Gone barrierId after) :
    (∀ domainId inner identity entry, before.carriedSinkCommittables.get? domainId = some inner →
      inner.get? identity = some entry → identity = entry.identity ∧ Single entry ∧ Gone entry.checkpointId after) ∧
    ∀ identity entry, before.pendingSinkCommittables.get? identity = some entry →
      identity = entry.identity ∧ Formed c entry ∧ Gone entry.checkpointId after := by
  refine ⟨fun domainId inner identity entry found stored => ?_,fun identity entry found => ?_⟩
  · obtain ⟨same,single,left⟩ := filed.carried domainId inner identity entry found stored
    exact ⟨same,single,gone _ left⟩
  · obtain ⟨same,formed,left⟩ := filed.pending identity entry found
    exact ⟨same,formed,gone _ left⟩

theorem Filed.of_sinks (filed : Filed c before) (sinks : after.sinks = before.sinks)
    (gone : ∀ barrierId, Gone barrierId before → Gone barrierId after) : Filed c after := by
  obtain ⟨inflight,carried,pending⟩ := sinks_fields before after sinks
  have grown := filed.grown gone
  exact ⟨by rw [inflight]; exact filed.inflight,by rw [carried]; exact grown.1,by rw [pending]; exact grown.2⟩

theorem Ledger.of_sinks (ledger : Ledger c owner before) (sinks : after.sinks = before.sinks) (still : Unpublished before after) :
    Ledger c owner after := by
  obtain ⟨inflight,carried,pending⟩ := sinks_fields before after sinks
  refine ledger.moved still (ledger.toFiled.of_sinks sinks still.gone) ?_
    (congrArg Sinks.registered sinks) (fun identity entry found => by rw [pending]; exact found)
  rw [heldEntries,heldEntries,inflight,carried,pending]

theorem carryInflightSinkCommittables_cases (s : State β) (checkpoint : Checkpoint) :
    ((s.inflightSinkCommittables.get? checkpoint.barrierId).getD ∅).values = [] ∧
      (carryInflightSinkCommittables s checkpoint).sinks = {s.sinks with
        inflightSinkCommittables := s.inflightSinkCommittables.erase checkpoint.barrierId} ∨
      (carryInflightSinkCommittables s checkpoint).sinks = {s.sinks with
        inflightSinkCommittables := s.inflightSinkCommittables.erase checkpoint.barrierId
        carriedSinkCommittables := s.carriedSinkCommittables.set checkpoint.domainId
          (((s.carriedSinkCommittables.get? checkpoint.domainId).getD ∅).update
            (((s.inflightSinkCommittables.get? checkpoint.barrierId).getD ∅).values.map
              (fun entry => (entry.identity,entry))))} := by
  unfold carryInflightSinkCommittables
  dsimp only
  split
  next empty =>
    left
    refine ⟨?_,rfl⟩
    rw [Dict.values,List.isEmpty_iff.mp empty,map_nil]
  next => exact .inr rfl

theorem Filed.own (s : State β) (filed : Filed c s) (barrierId : Int) (entry : SinkEntry)
    (inside : entry ∈ ((s.inflightSinkCommittables.get? barrierId).getD ∅).values) :
    entry.checkpointId = barrierId ∧ Single entry := by
  obtain ⟨vertex,stored⟩ := (mem_values _ entry).mp inside
  cases found : s.inflightSinkCommittables.get? barrierId with
  | none => simp [found] at stored
  | some inner =>
    rw [found,Option.getD_some] at stored
    exact (filed.inflight barrierId inner vertex entry found stored).2

theorem Filed.erase_inflight (s : State β) (filed : Filed c s) (barrierId other : Int) (inner : Dict Vertex SinkEntry)
    (vertex : Vertex) (entry : SinkEntry)
    (found : (s.inflightSinkCommittables.erase barrierId).get? other = some inner)
    (stored : inner.get? vertex = some entry) :
    entry.taskKey = .subtask vertex ∧ entry.checkpointId = other ∧ Single entry := by
  rw [Dict.get?_erase] at found
  split at found
  next => contradiction
  next => exact filed.inflight other inner vertex entry found stored

theorem Ledger.own_once (ledger : Ledger c owner before) (barrierId : Int) :
    (writersOf ((before.inflightSinkCommittables.get? barrierId).getD ∅).values).Nodup ∧
      ∀ writer ∈ writersOf ((before.inflightSinkCommittables.get? barrierId).getD ∅).values,
        writer ∈ writersOf before.inflightSinkCommittables.flat := by
  have whole := writersOf_perm _ _ (flat_erase before.inflightSinkCommittables barrierId)
  rw [writersOf_append] at whole
  have once := whole.nodup_iff.mp ledger.parts.inflight
  exact ⟨(nodup_append'.mp once).1,fun writer inside => whole.mem_iff.mpr (mem_append_left _ inside)⟩

theorem Ledger.carried_fresh (collisionFree : CollisionFree c owner) (ledger : Ledger c owner before)
    (barrierId : Int) (domainId : Option String) (identity : SinkIdentity)
    (inside : identity ∈ ((before.inflightSinkCommittables.get? barrierId).getD ∅).values.map SinkEntry.identity) :
    ((before.carriedSinkCommittables.get? domainId).getD ∅).get? identity = none := by
  obtain ⟨entry,member,rfl⟩ := mem_map.mp inside
  cases stored : ((before.carriedSinkCommittables.get? domainId).getD ∅).get? entry.identity with
  | none => rfl
  | some other =>
    cases found : before.carriedSinkCommittables.get? domainId with
    | none => simp [found] at stored
    | some inner =>
      rw [found,Option.getD_some] at stored
      obtain ⟨same,single,-⟩ := ledger.carried domainId inner _ other found stored
      have flat : other ∈ before.carriedSinkCommittables.flat :=
        (mem_flat _ other).mpr ⟨domainId,inner,_,found,stored⟩
      have mine (writer : Writer) (belongs : writer ∈ entry.writers) :
          writer ∈ writersOf before.inflightSinkCommittables.flat :=
        (ledger.own_once barrierId).2 writer ((mem_writersOf _ _).mpr ⟨entry,member,belongs⟩)
      have theirs (writer : Writer) (belongs : writer ∈ other.writers) :
          writer ∈ writersOf before.carriedSinkCommittables.flat := (mem_writersOf _ _).mpr ⟨other,flat,belongs⟩
      obtain ⟨writer,first,second⟩ := ledger.shared_writer collisionFree entry other
        (.inl (ledger.toFiled.own before barrierId entry member).2) (.inl single)
        (fun writer belongs => ledger.known_inflight writer (mine writer belongs))
        (fun writer belongs => ledger.known_carried writer (theirs writer belongs)) same
      exact absurd (theirs writer second) (ledger.parts.inflightCarried writer (mine writer first))

theorem held_perm (counts : ∀ writer, (writersOf after.inflightSinkCommittables.flat).count writer +
      (writersOf after.carriedSinkCommittables.flat).count writer +
      (writersOf after.pendingSinkCommittables.values).count writer =
    (writersOf before.inflightSinkCommittables.flat).count writer +
      (writersOf before.carriedSinkCommittables.flat).count writer +
      (writersOf before.pendingSinkCommittables.values).count writer) :
    (writersOf (heldEntries after)).Perm (writersOf (heldEntries before)) := by
  rw [perm_iff_count]
  intro writer
  simp only [heldEntries,writersOf_append,count_append]
  exact counts writer

theorem count_writersOf (entries first second : List SinkEntry) (same : entries.Perm (first ++ second)) (writer : Writer) :
    (writersOf entries).count writer = (writersOf first).count writer + (writersOf second).count writer := by
  rw [← count_append,← writersOf_append]
  exact (writersOf_perm _ _ same).count_eq writer

section
variable (collisionFree : CollisionFree c owner) (ledger : Ledger c owner before)
include collisionFree ledger

theorem Ledger.carried_perm (barrierId : Int) (domainId : Option String) :
    (((before.carriedSinkCommittables.get? domainId).getD ∅).update
      (((before.inflightSinkCommittables.get? barrierId).getD ∅).values.map
        (fun entry => (entry.identity,entry)))).entries.Perm
    (((before.carriedSinkCommittables.get? domainId).getD ∅).entries ++
      ((before.inflightSinkCommittables.get? barrierId).getD ∅).values.map (fun entry => (entry.identity,entry))) := by
  have keys : (((before.inflightSinkCommittables.get? barrierId).getD ∅).values.map
      (fun entry => (entry.identity,entry))).map Prod.fst =
      ((before.inflightSinkCommittables.get? barrierId).getD ∅).values.map SinkEntry.identity := by
    simp [comp_def]
  obtain ⟨once,flying⟩ := ledger.own_once barrierId
  have distinct := (ledger.distinct collisionFree _
    (fun entry inside => (ledger.toFiled.own before barrierId entry inside).2) once
    (fun writer inside => ledger.known_inflight writer (flying writer inside))).2
  exact update_perm _ _ (keys ▸ distinct)
    (fun identity inside => ledger.carried_fresh collisionFree barrierId domainId identity (keys ▸ inside))

theorem Ledger.carry (checkpoint : Checkpoint) (left : Gone checkpoint.barrierId before)
    (sinks : after.sinks = (carryInflightSinkCommittables before checkpoint).sinks) (still : Unpublished before after) :
    Ledger c owner after := by
  have whole := flat_erase before.inflightSinkCommittables checkpoint.barrierId
  have filed := ledger.toFiled.grown still.gone
  rcases carryInflightSinkCommittables_cases before checkpoint with ⟨nothing,changed⟩ | changed
  · have inflight : after.inflightSinkCommittables = before.inflightSinkCommittables.erase checkpoint.barrierId :=
      congrArg Sinks.inflightSinkCommittables (sinks.trans changed)
    have carried : after.carriedSinkCommittables = before.carriedSinkCommittables :=
      congrArg Sinks.carriedSinkCommittables (sinks.trans changed)
    have pending : after.pendingSinkCommittables = before.pendingSinkCommittables :=
      congrArg Sinks.pendingSinkCommittables (sinks.trans changed)
    refine ledger.moved still ⟨?_,by rw [carried]; exact filed.1,by rw [pending]; exact filed.2⟩
      (held_perm (fun writer => ?_)) (congrArg Sinks.registered (sinks.trans changed))
      (fun identity entry found => by rw [pending]; exact found)
    · rw [inflight]
      exact ledger.toFiled.erase_inflight before checkpoint.barrierId
    · rw [inflight,carried,pending,count_writersOf _ _ _ whole,nothing]
      simp [writersOf]
  · have inflight : after.inflightSinkCommittables = before.inflightSinkCommittables.erase checkpoint.barrierId :=
      congrArg Sinks.inflightSinkCommittables (sinks.trans changed)
    have carried : after.carriedSinkCommittables = before.carriedSinkCommittables.set checkpoint.domainId
        (((before.carriedSinkCommittables.get? checkpoint.domainId).getD ∅).update
          (((before.inflightSinkCommittables.get? checkpoint.barrierId).getD ∅).values.map
            (fun entry => (entry.identity,entry)))) := congrArg Sinks.carriedSinkCommittables (sinks.trans changed)
    have pending : after.pendingSinkCommittables = before.pendingSinkCommittables :=
      congrArg Sinks.pendingSinkCommittables (sinks.trans changed)
    have bucket := ledger.carried_perm collisionFree checkpoint.barrierId checkpoint.domainId
    refine ledger.moved still ⟨?_,?_,by rw [pending]; exact filed.2⟩
      (held_perm (fun writer => ?_)) (congrArg Sinks.registered (sinks.trans changed))
      (fun identity entry found => by rw [pending]; exact found)
    · rw [inflight]
      exact ledger.toFiled.erase_inflight before checkpoint.barrierId
    · rw [carried]
      intro domainId inner identity entry found stored
      rw [Dict.get?_set] at found
      split at found
      next =>
        cases found
        rw [Dict.get?_eq_some,bucket.mem_iff,mem_append] at stored
        rcases stored with old | new
        · rw [← Dict.get?_eq_some] at old
          cases known : before.carriedSinkCommittables.get? checkpoint.domainId with
          | none => simp [known] at old
          | some previous =>
            rw [known,Option.getD_some] at old
            exact filed.1 checkpoint.domainId previous identity entry known old
        · obtain ⟨value,inside,same⟩ := mem_map.mp new
          cases same
          obtain ⟨own,single⟩ := ledger.toFiled.own before checkpoint.barrierId entry inside
          exact ⟨rfl,single,own ▸ still.gone _ left⟩
      next => exact filed.1 domainId inner identity entry found stored
    · have values := bucket.map Prod.snd
      rw [map_append,map_map] at values
      have moved := count_writersOf _ _ _ values writer
      have placed := count_writersOf _ _ _ (flat_set before.carriedSinkCommittables checkpoint.domainId
        (((before.carriedSinkCommittables.get? checkpoint.domainId).getD ∅).update
          (((before.inflightSinkCommittables.get? checkpoint.barrierId).getD ∅).values.map
            (fun entry => (entry.identity,entry))))) writer
      have taken := count_writersOf _ _ _ (flat_erase before.carriedSinkCommittables checkpoint.domainId) writer
      have own := count_writersOf _ _ _ whole writer
      simp only [comp_def,map_id'] at moved
      rw [inflight,carried,pending,own,placed,taken]
      simp only [Dict.values] at moved ⊢
      omega

end

theorem ownSinkCommittables_keyed (s : State β) (filed : Filed c s) (barrierId : Int) :
    Keyed barrierId (ownSinkCommittables s barrierId) ∧
      (ownSinkCommittables s barrierId).values.Perm ((s.inflightSinkCommittables.get? barrierId).getD ∅).values := by
  have keys : ((((s.inflightSinkCommittables.get? barrierId).getD ∅).entries.map
      (fun item => (TaskKey.subtask item.1,item.2))).map Prod.fst) =
      ((s.inflightSinkCommittables.get? barrierId).getD ∅).keys.map TaskKey.subtask := by
    rw [Dict.keys,map_map,map_map]
    rfl
  have items : (ownSinkCommittables s barrierId).entries.Perm (((s.inflightSinkCommittables.get? barrierId).getD ∅).entries.map
      (fun item => (TaskKey.subtask item.1,item.2))) := by
    refine update_perm ∅ _ ?_ (fun _ _ => rfl)
    rw [keys]
    exact ((s.inflightSinkCommittables.get? barrierId).getD ∅).distinct.map (fun _ _ same => by simpa using same)
  constructor
  · intro key entry found
    rw [Dict.get?_eq_some,items.mem_iff] at found
    obtain ⟨item,inside,same⟩ := mem_map.mp found
    cases same
    cases flying : s.inflightSinkCommittables.get? barrierId with
    | none =>
      rw [flying] at inside
      contradiction
    | some inner =>
      rw [flying,Option.getD_some] at inside
      exact filed.inflight barrierId inner item.1 item.2 flying ((Dict.get?_eq_some _ _ _).mpr inside)
  · have values := items.map Prod.snd
    rwa [map_map] at values

theorem carriedDomainsForCheckpoint_nodup (s : State β) (checkpoint : Checkpoint) :
    (carriedDomainsForCheckpoint s checkpoint).Nodup := by
  unfold carriedDomainsForCheckpoint
  split
  next => simp
  split
  next => split <;> simp
  next =>
    dsimp only
    rw [nodup_cons]
    refine ⟨by simp,List.Nodup.map (fun _ _ same => by simpa using same) ?_⟩
    exact (mergeSort_perm _ _).nodup_iff.mpr (nodup_dedup _)

structure CoveredCut (checkpoint : Checkpoint) (s : State β) : Prop where
  taken : s.carriedSinkCommittables.flat.Perm (coveredSinkCommittables s checkpoint ++
    (s.carriedSinkCommittables.filter (fun domainId _ => domainId ∉ carriedDomainsForCheckpoint s checkpoint)).flat)
  single : ∀ entry ∈ coveredSinkCommittables s checkpoint, Single entry ∧ Gone entry.checkpointId s
  once : (writersOf (coveredSinkCommittables s checkpoint)).Nodup
  carried : ∀ writer ∈ writersOf (coveredSinkCommittables s checkpoint), writer ∈ writersOf s.carriedSinkCommittables.flat

theorem Ledger.coveredCut (ledger : Ledger c owner before) (checkpoint : Checkpoint) : CoveredCut checkpoint before := by
  have taken : before.carriedSinkCommittables.flat.Perm (coveredSinkCommittables before checkpoint ++
      (before.carriedSinkCommittables.filter
        (fun domainId _ => domainId ∉ carriedDomainsForCheckpoint before checkpoint)).flat) := by
    convert flat_filter before.carriedSinkCommittables (carriedDomainsForCheckpoint before checkpoint)
      (carriedDomainsForCheckpoint_nodup before checkpoint)
    rfl
  have writers := writersOf_perm _ _ taken
  rw [writersOf_append] at writers
  refine ⟨taken,fun entry inside => ?_,?_,fun writer inside => writers.mem_iff.mpr (mem_append_left _ inside)⟩
  · have flat := taken.mem_iff.mpr (mem_append_left _ inside)
    obtain ⟨domainId,inner,identity,found,stored⟩ := (mem_flat _ entry).mp flat
    exact (ledger.carried domainId inner identity entry found stored).2
  · exact (nodup_append'.mp (writers.nodup_iff.mp ledger.parts.carried)).1

variable (c) in
structure MergedItems (checkpoint : Checkpoint) (s : State β) (completed : Dict TaskKey SinkEntry)
    (carried : Dict SinkIdentity SinkEntry) : Prop where
  own : (writersOf completed.values).Perm
    (writersOf ((s.inflightSinkCommittables.get? checkpoint.barrierId).getD ∅).values)
  ownFormed : ∀ entry ∈ completed.values, Formed c entry ∧ entry.checkpointId = checkpoint.barrierId
  identities : (completed.values.map SinkEntry.identity).Nodup
  covered : (writersOf carried.values).Perm (writersOf (coveredSinkCommittables s checkpoint))
  carriedFormed : ∀ identity entry, carried.get? identity = some entry →
    identity = entry.identity ∧ Formed c entry ∧ Gone entry.checkpointId s
  flying : ∀ entry ∈ completed.values, ∀ writer ∈ entry.writers, writer ∈ writersOf s.inflightSinkCommittables.flat
  waiting : ∀ entry ∈ carried.values, ∀ writer ∈ entry.writers, writer ∈ writersOf s.carriedSinkCommittables.flat

section
variable (collisionFree : CollisionFree c owner)
include collisionFree

theorem Ledger.mergedItems (names : CombinerNames c)
    (ledger : Ledger c owner before) (checkpoint : Checkpoint) (completed : Dict TaskKey SinkEntry)
    (carried : Dict SinkIdentity SinkEntry) (merged : Merged c checkpoint before after completed carried) :
    MergedItems c checkpoint before completed carried := by
  obtain ⟨keyed,values⟩ := ownSinkCommittables_keyed before ledger.toFiled checkpoint.barrierId
  obtain ⟨completedWriters,completedItems⟩ := coalesceSinkCommittables_spec c names checkpoint.barrierId _ completed keyed
    merged.completing
  have own := completedWriters.trans (writersOf_perm _ _ values)
  have cut := ledger.coveredCut checkpoint
  have slots := (ledger.distinct collisionFree _ (fun entry inside => (cut.single entry inside).1) cut.once
    (fun writer inside => ledger.known_carried writer (cut.carried writer inside))).1
  obtain ⟨covered,carriedItems⟩ := coalesceCarriedSinkCommittables_spec c names _ carried
    (fun entry inside => (cut.single entry inside).1) slots merged.carrying
  have waiting (entry : SinkEntry) (inside : entry ∈ carried.values) (writer : Writer) (belongs : writer ∈ entry.writers) :
      writer ∈ writersOf (coveredSinkCommittables before checkpoint) :=
    covered.mem_iff.mp ((mem_writersOf _ _).mpr ⟨entry,inside,belongs⟩)
  refine ⟨own,fun entry inside => ?_,identities_nodup c checkpoint.barrierId completed completedItems,covered,
    fun identity entry found => ?_,fun entry inside writer belongs => ?_,
    fun entry inside writer belongs => cut.carried writer (waiting entry inside writer belongs)⟩
  · obtain ⟨key,found⟩ := (mem_values completed entry).mp inside
    exact ⟨(completedItems key entry found).2.2,(completedItems key entry found).2.1⟩
  · obtain ⟨same,formed⟩ := carriedItems identity entry found
    refine ⟨same,formed,?_⟩
    obtain ⟨writer,belongs⟩ := exists_mem_of_ne_nil _ (formed.writers_ne_nil c entry)
    have inside := waiting entry ((mem_values carried entry).mpr ⟨identity,found⟩) writer belongs
    obtain ⟨origin,member,theirs⟩ := (mem_writersOf _ _).mp inside
    obtain ⟨single,left⟩ := cut.single origin member
    have checkpoints := (Formed.checkpointId c origin (.inl single) writer theirs).symm.trans
      (formed.checkpointId c entry writer belongs)
    exact checkpoints ▸ left
  · exact (ledger.own_once checkpoint.barrierId).2 writer
      (own.mem_iff.mp ((mem_writersOf _ _).mpr ⟨entry,inside,belongs⟩))

theorem Ledger.pending_fresh (ledger : Ledger c owner before)
    (entry : SinkEntry) (formed : Formed c entry) (known : ∀ writer ∈ entry.writers, writer ∈ before.log.registered)
    (apart : ∀ writer ∈ entry.writers, writer ∉ writersOf before.pendingSinkCommittables.values) :
    before.pendingSinkCommittables.get? entry.identity = none := by
  cases found : before.pendingSinkCommittables.get? entry.identity with
  | none => rfl
  | some other =>
    obtain ⟨same,formed',-⟩ := ledger.pending _ other found
    have inside (writer : Writer) (belongs : writer ∈ other.writers) :
        writer ∈ writersOf before.pendingSinkCommittables.values :=
      (mem_writersOf _ _).mpr ⟨other,(mem_values _ other).mpr ⟨_,found⟩,belongs⟩
    exact absurd same (ledger.identity_ne collisionFree entry other formed formed' known
      (fun writer belongs => ledger.known_pending writer (inside writer belongs))
      (fun writer mine theirs => apart writer mine (inside writer theirs)))

theorem Ledger.pending_perm (ledger : Ledger c owner before)
    (checkpoint : Checkpoint) (completed : Dict TaskKey SinkEntry) (carried : Dict SinkIdentity SinkEntry)
    (items : MergedItems c checkpoint before completed carried) :
    ((before.pendingSinkCommittables.update carried.entries).update
      (completed.values.map (fun entry => (entry.identity,entry)))).entries.Perm
    (before.pendingSinkCommittables.entries ++ carried.entries ++
      completed.values.map (fun entry => (entry.identity,entry))) := by
  have parts := ledger.parts
  have first : (before.pendingSinkCommittables.update carried.entries).entries.Perm
      (before.pendingSinkCommittables.entries ++ carried.entries) := by
    refine update_perm _ _ carried.distinct (fun identity inside => ?_)
    obtain ⟨entry,found⟩ := (Dict.mem_keys carried identity).mp inside
    obtain ⟨rfl,formed,-⟩ := items.carriedFormed identity entry found
    have waiting := items.waiting entry ((mem_values carried entry).mpr ⟨_,found⟩)
    exact ledger.pending_fresh collisionFree entry formed
      (fun writer belongs => ledger.known_carried writer (waiting writer belongs))
      (fun writer belongs => parts.carriedPending writer (waiting writer belongs))
  have keys : (completed.values.map (fun entry => (entry.identity,entry))).map Prod.fst =
      completed.values.map SinkEntry.identity := by simp [comp_def]
  refine (update_perm _ _ (keys ▸ items.identities) (fun identity inside => ?_)).trans (first.append_right _)
  rw [keys] at inside
  obtain ⟨entry,member,rfl⟩ := mem_map.mp inside
  have formed := (items.ownFormed entry member).1
  have flying := items.flying entry member
  have known (writer : Writer) (belongs : writer ∈ entry.writers) :=
    ledger.known_inflight writer (flying writer belongs)
  have absent := ledger.pending_fresh collisionFree entry formed known
    (fun writer belongs => parts.inflightPending writer (flying writer belongs))
  cases found : (before.pendingSinkCommittables.update carried.entries).get? entry.identity with
  | none => rfl
  | some other =>
    rw [Dict.get?_eq_some,first.mem_iff,mem_append,← Dict.get?_eq_some,← Dict.get?_eq_some,absent] at found
    have held := found.resolve_left (by simp)
    obtain ⟨same,formed',-⟩ := items.carriedFormed _ other held
    have waiting := items.waiting other ((mem_values carried other).mpr ⟨_,held⟩)
    exact absurd same (ledger.identity_ne collisionFree entry other formed formed' known
      (fun writer belongs => ledger.known_carried writer (waiting writer belongs))
      (fun writer mine theirs => parts.inflightCarried writer (flying writer mine) (waiting writer theirs)))

section
variable (names : CombinerNames c) (ledger : Ledger c owner before) (checkpoint : Checkpoint)
include names ledger checkpoint

theorem Ledger.merge_pending (completed : Dict TaskKey SinkEntry)
    (carried : Dict SinkIdentity SinkEntry) (merged : Merged c checkpoint before after completed carried)
    (identity : SinkIdentity) (entry : SinkEntry) (found : before.pendingSinkCommittables.get? identity = some entry) :
    after.pendingSinkCommittables.get? identity = some entry := by
  have items := ledger.mergedItems collisionFree names checkpoint completed carried merged
  have placed := ledger.pending_perm collisionFree checkpoint completed carried items
  have pending : after.pendingSinkCommittables = (before.pendingSinkCommittables.update carried.entries).update
      (completed.values.map (fun entry => (entry.identity,entry))) :=
    congrArg Sinks.pendingSinkCommittables merged.sinks
  rw [pending,Dict.get?_eq_some,placed.mem_iff,mem_append,mem_append,← Dict.get?_eq_some]
  exact .inl (.inl found)

theorem Ledger.merge (left : Gone checkpoint.barrierId before)
    (completed : Dict TaskKey SinkEntry) (carried : Dict SinkIdentity SinkEntry)
    (merged : Merged c checkpoint before after completed carried)
    (gone : ∀ barrierId, Gone barrierId before → Gone barrierId after) : Ledger c owner after := by
  have items := ledger.mergedItems collisionFree names checkpoint completed carried merged
  have placed := ledger.pending_perm collisionFree checkpoint completed carried items
  have cut := ledger.coveredCut checkpoint
  have filed := ledger.toFiled.grown gone
  have inflight : after.inflightSinkCommittables = before.inflightSinkCommittables.erase checkpoint.barrierId :=
    congrArg Sinks.inflightSinkCommittables merged.sinks
  have rest : after.carriedSinkCommittables = before.carriedSinkCommittables.filter
      (fun domainId _ => domainId ∉ carriedDomainsForCheckpoint before checkpoint) :=
    congrArg Sinks.carriedSinkCommittables merged.sinks
  have pending : after.pendingSinkCommittables = (before.pendingSinkCommittables.update carried.entries).update
      (completed.values.map (fun entry => (entry.identity,entry))) :=
    congrArg Sinks.pendingSinkCommittables merged.sinks
  rw [← pending] at placed
  refine ledger.moved ⟨congrArg Durability.committed merged.durability,
    congrArg Durability.durableSinkCommittables merged.durability,gone⟩ ⟨?_,?_,?_⟩ (held_perm (fun writer => ?_))
    (congrArg Sinks.registered merged.sinks) (fun identity entry found => ?_)
  · rw [inflight]
    exact ledger.toFiled.erase_inflight before checkpoint.barrierId
  · rw [rest]
    intro domainId inner identity entry found stored
    rw [Dict.get?_filter,Option.filter_eq_some_iff] at found
    exact filed.1 domainId inner identity entry found.1 stored
  · intro identity entry found
    rw [Dict.get?_eq_some,placed.mem_iff,mem_append,mem_append,← Dict.get?_eq_some,
      ← Dict.get?_eq_some] at found
    rcases found with (old | waiting) | own
    · exact filed.2 identity entry old
    · obtain ⟨same,formed,was⟩ := items.carriedFormed identity entry waiting
      exact ⟨same,formed,gone _ was⟩
    · obtain ⟨value,inside,same⟩ := mem_map.mp own
      cases same
      obtain ⟨formed,same⟩ := items.ownFormed entry inside
      exact ⟨rfl,formed,same ▸ gone _ left⟩
  · have values := placed.map Prod.snd
    rw [map_append,map_map] at values
    have settled := count_writersOf _ _ _ values writer
    rw [map_append,writersOf_append,count_append] at settled
    have own := count_writersOf _ _ _ (flat_erase before.inflightSinkCommittables checkpoint.barrierId) writer
    have taken := count_writersOf _ _ _ cut.taken writer
    have completing := items.own.count_eq writer
    have carrying := items.covered.count_eq writer
    simp only [comp_def,map_id'] at settled
    rw [inflight,rest,own,taken]
    simp only [Dict.values] at settled completing carrying ⊢
    omega
  · exact ledger.merge_pending collisionFree names checkpoint completed carried merged identity entry
      found

end

end

/-- The checkpoint domain of a carried entry in the graph that it moves to. -/
private def domainIn (graph : ExecutionGraph) (previous : Option String) (entry : SinkEntry) : Option String :=
  match entry.taskKey with
  | .subtask vertex => (graph.findCheckpointDomain vertex).map CheckpointDomain.id
  | .global _ => previous

theorem Ledger.remap (collisionFree : CollisionFree c owner) (ledger : Ledger c owner before)
    (graph : ExecutionGraph) (sinks : after.sinks = (remapCarriedSinkDomains before graph).sinks) (still : Unpublished before after) :
    Ledger c owner after := by
  let items := before.carriedSinkCommittables.entries.flatMap (fun bucket =>
    bucket.2.entries.map (fun item => (domainIn graph bucket.1 item.2,item.1,item.2)))
  have stored (domainId : Option String) (identity : SinkIdentity) (entry : SinkEntry)
      (inside : (domainId,identity,entry) ∈ items) : ∃ previous inner,
      before.carriedSinkCommittables.get? previous = some inner ∧ inner.get? identity = some entry := by
    obtain ⟨bucket,member,later⟩ := mem_flatMap.mp inside
    obtain ⟨item,own,same⟩ := mem_map.mp later
    cases same
    exact ⟨bucket.1,bucket.2,(Dict.get?_eq_some _ _ _).mpr member,(Dict.get?_eq_some _ _ _).mpr own⟩
  have values : items.map (fun item => item.2.2) = before.carriedSinkCommittables.flat := by
    simp only [items,map_flatMap,map_map,comp_def,Dict.flat,Dict.values,flatMap_map]
  have identities : items.map (fun item => item.2.1) = before.carriedSinkCommittables.flat.map SinkEntry.identity := by
    rw [← values,map_map]
    refine map_congr_left (fun item inside => ?_)
    obtain ⟨previous,inner,found,held⟩ := stored item.1 item.2.1 item.2.2 inside
    exact (ledger.carried previous inner _ _ found held).1
  have single (entry : SinkEntry) (inside : entry ∈ before.carriedSinkCommittables.flat) : Single entry := by
    obtain ⟨domainId,inner,identity,found,held⟩ := (mem_flat _ entry).mp inside
    exact (ledger.carried domainId inner identity entry found held).2.1
  have distinct := (ledger.distinct collisionFree _ single ledger.parts.carried
    (fun writer inside => ledger.known_carried writer inside)).2
  obtain ⟨perm,filing⟩ := foldl_setInner_perm items ∅ (identities ▸ distinct) (fun _ _ _ => rfl)
  have refiled : after.carriedSinkCommittables =
      items.foldl (fun acc item => acc.setInner item.1 item.2.1 item.2.2) ∅ := by
    refine (congrArg Sinks.carriedSinkCommittables sinks).trans ?_
    simp only [items,foldl_flatMap,foldl_map]
    rfl
  have inflight : after.inflightSinkCommittables = before.inflightSinkCommittables :=
    congrArg Sinks.inflightSinkCommittables sinks
  have pending : after.pendingSinkCommittables = before.pendingSinkCommittables :=
    congrArg Sinks.pendingSinkCommittables sinks
  have filed := ledger.toFiled.grown still.gone
  rw [values] at perm
  refine ledger.moved still ⟨by rw [inflight]; exact ledger.inflight,?_,by rw [pending]; exact filed.2⟩
    (held_perm (fun writer => ?_)) (congrArg Sinks.registered sinks)
    (fun identity entry found => by rw [pending]; exact found)
  · rw [refiled]
    intro domainId inner identity entry found held
    obtain ⟨previous,bucket,was,kept⟩ := stored domainId identity entry
      ((filing domainId inner identity entry found held).resolve_left (by simp))
    exact filed.1 previous bucket identity entry was kept
  · have kept := (writersOf_perm _ _ perm).count_eq writer
    rw [inflight,pending,refiled,kept]
    rfl

theorem Ledger.underway (ledger : Ledger c owner before) (writer : Writer) (known : writer ∈ before.log.registered)
    (alive : ¬ Gone writer.checkpointId before) : ∃ entry,
      ((before.inflightSinkCommittables.get? writer.checkpointId).getD ∅).get? writer.vertex = some entry ∧
      entry.writers = [writer] := by
  rcases (ledger.registered writer).mp known with held | committed
  · obtain ⟨entry,inside,belongs⟩ := (mem_writersOf _ _).mp held
    rw [heldEntries,mem_append,mem_append,mem_flat,mem_flat,mem_values] at inside
    rcases inside with (⟨barrierId,inner,vertex,found,stored⟩ | ⟨domainId,inner,identity,found,stored⟩) | ⟨identity,found⟩
    · obtain ⟨key,same,vertex',key',writers⟩ := ledger.inflight barrierId inner vertex entry found stored
      rw [writers,mem_singleton] at belongs
      subst belongs
      rw [key,TaskKey.subtask.injEq] at key'
      refine ⟨entry,?_,writers⟩
      rw [same,found,← key']
      exact stored
    · obtain ⟨-,single,left⟩ := ledger.carried domainId inner identity entry found stored
      exact absurd (Formed.checkpointId c entry (.inl single) writer belongs ▸ left) alive
    · obtain ⟨-,formed,left⟩ := ledger.pending identity entry found
      exact absurd (formed.checkpointId c entry writer belongs ▸ left) alive
  · obtain ⟨entry,inside,belongs⟩ := (mem_writersOf _ _).mp committed
    obtain ⟨formed,left⟩ := ledger.committed entry inside
    exact absurd (formed.checkpointId c entry writer belongs ▸ left) alive

theorem putSinkCommittable_fields (before after : State β) (barrierId : Int) (vertex : Vertex) (committable : SinkCommittable)
    (sinks : after.sinks = (putSinkCommittable barrierId vertex committable before).sinks) :
    after.inflightSinkCommittables = before.inflightSinkCommittables.setInner barrierId vertex
        ⟨.subtask vertex,barrierId,committable,[⟨vertex,barrierId,committable.transactionId⟩]⟩ ∧
      after.carriedSinkCommittables = before.carriedSinkCommittables ∧
      after.pendingSinkCommittables = before.pendingSinkCommittables :=
  sinks_fields _ _ sinks

theorem Filed.register (filed : Filed c before) (barrierId : Int) (vertex : Vertex) (committable : SinkCommittable)
    (gone : ∀ barrierId, Gone barrierId before → Gone barrierId after)
    (sinks : after.sinks = (putSinkCommittable barrierId vertex committable before).sinks) : Filed c after := by
  obtain ⟨inflight,carried,pending⟩ := putSinkCommittable_fields before after barrierId vertex committable sinks
  have grown := filed.grown gone
  refine ⟨?_,by rw [carried]; exact grown.1,by rw [pending]; exact grown.2⟩
  rw [inflight,Dict.setInner]
  intro other inner index entry found stored
  rw [Dict.get?_set] at found
  split at found
  next same =>
    subst same
    cases found
    rw [Dict.get?_set] at stored
    split at stored
    next equal =>
      subst equal
      cases stored
      exact ⟨rfl,rfl,index,rfl,rfl⟩
    next =>
      cases known : before.inflightSinkCommittables.get? other with
      | none => simp [known] at stored
      | some previous =>
        rw [known,Option.getD_some] at stored
        exact filed.inflight other previous index entry known stored
  next => exact filed.inflight other inner index entry found stored

section
variable (ledger : Ledger c owner before) (barrierId : Int) (vertex : Vertex) (committable : SinkCommittable)
include ledger barrierId vertex committable

theorem Ledger.again (existing : SinkEntry)
    (stored : ((before.inflightSinkCommittables.get? barrierId).getD ∅).get? vertex = some existing)
    (agrees : existing.committable.transactionId = committable.transactionId)
    (sinks : after.sinks = (putSinkCommittable barrierId vertex committable before).sinks) (still : Unpublished before after) :
    Ledger c owner after := by
  have writers : existing.writers = [⟨vertex,barrierId,committable.transactionId⟩] := by
    cases found : before.inflightSinkCommittables.get? barrierId with
    | none => simp [found] at stored
    | some inner =>
      rw [found,Option.getD_some] at stored
      obtain ⟨key,same,vertex',key',writers⟩ := ledger.inflight barrierId inner vertex existing found stored
      rw [key,TaskKey.subtask.injEq] at key'
      rw [writers,same,agrees,← key']
  obtain ⟨rest,was,now⟩ := flat_setInner_of_some before.inflightSinkCommittables barrierId vertex existing
    ⟨.subtask vertex,barrierId,committable,[⟨vertex,barrierId,committable.transactionId⟩]⟩ stored
  obtain ⟨inflight,carried,pending⟩ := putSinkCommittable_fields before after barrierId vertex committable sinks
  have known : (⟨vertex,barrierId,committable.transactionId⟩ : Writer) ∈ before.log.registered := by
    refine ledger.known_inflight _ ((mem_writersOf _ _).mpr ⟨existing,?_,by simp [writers]⟩)
    exact was.mem_iff.mpr (by simp)
  refine ledger.moved still (ledger.toFiled.register barrierId vertex committable still.gone sinks)
    (held_perm (fun writer => ?_))
    ((congrArg Sinks.registered sinks).trans (insert_of_mem known))
    (fun identity entry found => by rw [pending]; exact found)
  have first := (writersOf_perm _ _ was).count_eq writer
  have second := (writersOf_perm _ _ now).count_eq writer
  rw [writersOf_cons,count_append] at first second
  rw [inflight,carried,pending,first,second,writers]

theorem Ledger.enroll (missing : ((before.inflightSinkCommittables.get? barrierId).getD ∅).get? vertex = none)
    (alive : ¬ Gone barrierId before) (own : owner committable.transactionId = some (vertex,barrierId))
    (clean : '\x00' ∉ committable.transactionId.toList)
    (sinks : after.sinks = (putSinkCommittable barrierId vertex committable before).sinks) (still : Unpublished before after) :
    Ledger c owner after := by
  have vacant (writer : Writer) (known : writer ∈ before.log.registered) (same : writer.vertex = vertex)
      (epoch : writer.checkpointId = barrierId) : False := by
    obtain ⟨entry,found,-⟩ := ledger.underway writer known (epoch ▸ alive)
    rw [same,epoch,missing] at found
    contradiction
  have unknown : (⟨vertex,barrierId,committable.transactionId⟩ : Writer) ∉ before.log.registered :=
    fun known => vacant _ known rfl rfl
  obtain ⟨inflight,carried,pending⟩ := putSinkCommittable_fields before after barrierId vertex committable sinks
  have registered : after.log.registered = ⟨vertex,barrierId,committable.transactionId⟩ :: before.log.registered :=
    (congrArg Sinks.registered sinks).trans (insert_of_not_mem unknown)
  have perm : (writersOf (heldEntries after)).Perm
      (⟨vertex,barrierId,committable.transactionId⟩::writersOf (heldEntries before)) := by
    rw [heldEntries,heldEntries,inflight,carried,pending]
    have placed := flat_setInner before.inflightSinkCommittables barrierId vertex
      ⟨.subtask vertex,barrierId,committable,[⟨vertex,barrierId,committable.transactionId⟩]⟩ missing
    exact writersOf_perm _ _ ((placed.append_right _).append_right _)
  have known (writer : Writer) (inside : writer ∈ writersOf (heldEntries before) ∨
      writer ∈ writersOf before.log.committed) : writer ∈ before.log.registered := (ledger.registered writer).mpr inside
  constructor
  case toFiled => exact ledger.toFiled.register barrierId vertex committable still.gone sinks
  case committed =>
    rw [still.committed]
    intro entry inside
    obtain ⟨formed,left⟩ := ledger.committed entry inside
    exact ⟨formed,still.gone _ left⟩
  case durable =>
    rw [still.durable]
    intro identity entry found
    obtain ⟨same,held⟩ := ledger.durable identity entry found
    exact ⟨same,held.imp (fun waiting => by rw [pending]; exact waiting) (fun inside => still.committed ▸ inside)⟩
  case once => exact perm.nodup_iff.mpr (nodup_cons.mpr ⟨fun inside => unknown (known _ (.inl inside)),ledger.once⟩)
  case apart =>
    intro writer inside
    rw [still.committed]
    rcases mem_cons.mp (perm.mem_iff.mp inside) with rfl | held
    · exact fun other => unknown (known _ (.inr other))
    · exact ledger.apart writer held
  case registered =>
    intro writer
    rw [registered,still.committed,perm.mem_iff,mem_cons,mem_cons,ledger.registered,or_assoc]
  case owned =>
    rw [registered]
    intro writer inside
    rcases mem_cons.mp inside with rfl | old
    · exact own
    · exact ledger.owned writer old
  case slots =>
    rw [registered]
    intro writer inside other inside' same epoch
    rcases mem_cons.mp inside with rfl | old
    · rcases mem_cons.mp inside' with rfl | old'
      · rfl
      · exact (vacant other old' same.symm epoch.symm).elim
    · rcases mem_cons.mp inside' with rfl | old'
      · exact (vacant writer old same epoch).elim
      · exact ledger.slots writer old other old' same epoch
  case clean =>
    rw [registered]
    intro writer inside
    rcases mem_cons.mp inside with rfl | old
    · exact clean
    · exact ledger.clean writer old

end

theorem Ledger.commit_pending (ledger : Ledger c owner before) (identity : SinkIdentity) (entry : SinkEntry)
    (found : before.pendingSinkCommittables.get? identity = some entry) :
    Ledger c owner (sinkCommitted identity entry before) := by
  obtain ⟨same,formed,left⟩ := ledger.pending identity entry found
  have values := (erase_perm before.pendingSinkCommittables identity entry found).map Prod.snd
  have held : (writersOf (heldEntries before)).Perm
      (entry.writers ++ writersOf (heldEntries (sinkCommitted identity entry before))) := by
    rw [perm_iff_count]
    intro writer
    have split := (writersOf_perm _ _ values).count_eq writer
    simp only [map_cons,writersOf_cons,count_append] at split
    simp only [heldEntries,writersOf_append,count_append]
    simp only [sinkCommitted,commitSucceeded,Dict.values] at split ⊢
    omega
  have once := held.nodup_iff.mp ledger.once
  obtain ⟨-,rest,apart⟩ := nodup_append'.mp once
  have committed : writersOf (before.log.committed ++ [entry]) = writersOf before.log.committed ++ entry.writers := by
    simp [writersOf]
  constructor
  case toFiled =>
    refine ⟨ledger.inflight,ledger.carried,fun other value stored => ?_⟩
    simp only [sinkCommitted,commitSucceeded,Dict.get?_erase] at stored
    split at stored
    next => contradiction
    next => exact ledger.pending other value stored
  case committed =>
    intro value inside
    rcases mem_append.mp inside with old | new
    · exact ledger.committed value old
    · obtain rfl := mem_singleton.mp new
      exact ⟨formed,left⟩
  case durable =>
    intro other value stored
    simp only [sinkCommitted,commitSucceeded,Dict.get?_erase] at stored
    split at stored
    next => contradiction
    next different =>
      obtain ⟨own,held⟩ := ledger.durable other value stored
      refine ⟨own,held.imp (fun waiting => ?_) (fun inside => mem_append_left _ inside)⟩
      simp [sinkCommitted,commitSucceeded,different,waiting]
  case once => exact rest
  case apart =>
    intro writer inside other
    rcases mem_append.mp (committed ▸ other) with old | new
    · exact ledger.apart writer (held.mem_iff.mpr (mem_append_right _ inside)) old
    · exact apart new inside
  case registered =>
    intro writer
    refine (ledger.registered writer).trans ?_
    change _ ↔ _ ∨ writer ∈ writersOf (before.log.committed ++ [entry])
    rw [committed,held.mem_iff,mem_append,mem_append]
    tauto
  case owned => exact ledger.owned
  case slots => exact ledger.slots
  case clean => exact ledger.clean

section
variable (collisionFree : CollisionFree c owner) (ledger : Ledger c owner before)
include collisionFree ledger

theorem Ledger.settled (entry : SinkEntry) (inside : entry ∈ before.log.committed) :
    before.pendingSinkCommittables.get? entry.identity = none := by
  refine ledger.pending_fresh collisionFree entry (ledger.committed entry inside).1 (fun writer belongs => ?_)
    (fun writer belongs waiting => ?_)
  · exact (ledger.registered writer).mpr (.inr ((mem_writersOf _ _).mpr ⟨entry,inside,belongs⟩))
  · refine ledger.apart writer ?_ ((mem_writersOf _ _).mpr ⟨entry,inside,belongs⟩)
    rw [heldEntries,writersOf_append]
    exact mem_append_right _ waiting

theorem Ledger.commit_again (entry : SinkEntry) (inside : entry ∈ before.log.committed) :
    Ledger c owner (sinkCommitted entry.identity entry before) := by
  have absent := ledger.settled collisionFree entry inside
  have pending : (sinkCommitted entry.identity entry before).pendingSinkCommittables = before.pendingSinkCommittables :=
    erase_of_get?_none _ _ absent
  have held : heldEntries (sinkCommitted entry.identity entry before) = heldEntries before := by
    rw [heldEntries,pending]
    rfl
  have committed (writer : Writer) : writer ∈ writersOf (before.log.committed ++ [entry]) ↔
      writer ∈ writersOf before.log.committed := by
    simp only [mem_writersOf,mem_append,mem_singleton]
    constructor
    · rintro ⟨value,old | rfl,belongs⟩
      · exact ⟨value,old,belongs⟩
      · exact ⟨value,inside,belongs⟩
    · rintro ⟨value,old,belongs⟩
      exact ⟨value,.inl old,belongs⟩
  constructor
  case toFiled => exact ⟨ledger.inflight,ledger.carried,by rw [pending]; exact ledger.pending⟩
  case committed =>
    intro value listed
    rcases mem_append.mp listed with old | new
    · exact ledger.committed value old
    · obtain rfl := mem_singleton.mp new
      exact ledger.committed value inside
  case durable =>
    intro other value stored
    simp only [sinkCommitted,commitSucceeded,Dict.get?_erase] at stored
    split at stored
    next => contradiction
    next =>
      obtain ⟨own,held⟩ := ledger.durable other value stored
      exact ⟨own,held.imp (fun waiting => by rw [pending]; exact waiting) (fun old => mem_append_left _ old)⟩
  case once => exact held ▸ ledger.once
  case apart =>
    intro writer waiting other
    exact ledger.apart writer (held ▸ waiting) ((committed writer).mp other)
  case registered =>
    intro writer
    rw [held]
    exact (ledger.registered writer).trans (or_congr_right (committed writer).symm)
  case owned => exact ledger.owned
  case slots => exact ledger.slots
  case clean => exact ledger.clean

theorem Ledger.commit (identity : SinkIdentity) (entry : SinkEntry) (covered : Covered identity entry before) :
    Ledger c owner (sinkCommitted identity entry before) ∧
      ∀ other value, Covered other value before → Covered other value (sinkCommitted identity entry before) := by
  obtain ⟨rfl,waiting | inside⟩ := covered
  · refine ⟨ledger.commit_pending entry.identity entry waiting,fun other value held => ⟨held.1,?_⟩⟩
    rcases held.2 with stored | old
    · by_cases same : other = entry.identity
      · rw [same,waiting,Option.some_inj] at stored
        exact .inr (mem_append_right _ (by simp [stored]))
      · exact .inl (by simp [sinkCommitted,commitSucceeded,same,stored])
    · exact .inr (mem_append_left _ old)
  · refine ⟨ledger.commit_again collisionFree entry inside,fun other value held => ⟨held.1,?_⟩⟩
    rcases held.2 with stored | old
    · by_cases same : other = entry.identity
      · have absent := ledger.settled collisionFree entry inside
        rw [same,absent] at stored
        contradiction
      · exact .inl (by simp [sinkCommitted,commitSucceeded,same,stored])
    · exact .inr (mem_append_left _ old)

end

theorem Ledger.republish (ledger : Ledger c owner before) (sinks : after.sinks = before.sinks)
    (committed : after.log.committed = before.log.committed)
    (gone : ∀ barrierId, Gone barrierId before → Gone barrierId after)
    (durable : ∀ identity entry, after.durableSinkCommittables.get? identity = some entry → Covered identity entry before) :
    Ledger c owner after := by
  let restored := {after with durableSinkCommittables := before.durableSinkCommittables}
  have same : Ledger c owner restored :=
    ledger.of_sinks sinks ⟨committed,rfl,gone⟩
  refine {same with durable := fun identity entry found => ?_}
  have pending : after.pendingSinkCommittables = before.pendingSinkCommittables :=
    congrArg Sinks.pendingSinkCommittables sinks
  rw [Covered,pending,committed]
  exact durable identity entry found

end steps

section discipline
variable (owner : String → Option (Vertex × Int))

def KeepsCovered (before after : State β) : Prop :=
  ∀ identity entry, Covered identity entry before → Covered identity entry after

/-- The transaction id of a registration belongs to the task and checkpoint that
register it. -/
def Owned : Call β → Prop
  | .registerSinkCommittable barrierId vertex committable =>
    owner committable.transactionId = some (vertex,barrierId) ∧ '\x00' ∉ committable.transactionId.toList
  | _ => True

def transactionDiscipline : Discipline β where
  invariant := Ledger c owner
  admits := Owned owner
  rely _ _ := KeepsCovered
  respects _ _ := KeepsCovered
  mayCommit _ _ := True
  mayNotify _ _ _ := True
  swept _ _ := True
  raises := True
  covered := Covered
  clear _ := True
  pinned metadata _ s := ∀ entry ∈ metadata.sinkCommittables, Covered entry.identity entry s

theorem KeepsCovered.of_pending (before after : State β)
    (pending : ∀ identity entry, before.pendingSinkCommittables.get? identity = some entry →
      after.pendingSinkCommittables.get? identity = some entry)
    (committed : after.log.committed = before.log.committed) : KeepsCovered before after :=
  fun identity entry covered => ⟨covered.1,covered.2.imp (pending identity entry) (fun inside => committed ▸ inside)⟩

theorem KeepsCovered.of_sinks (before after : State β) (sinks : after.sinks = before.sinks)
    (committed : after.log.committed = before.log.committed) : KeepsCovered before after := by
  have pending : after.pendingSinkCommittables = before.pendingSinkCommittables :=
    congrArg Sinks.pendingSinkCommittables sinks
  exact .of_pending before after (fun identity entry found => by rw [pending]; exact found) committed

theorem transactionDiscipline_still (me : Nat) (segment : Start β) (before after : State β)
    (kept : Ledger c owner before) (sinks : after.sinks = before.sinks) (still : Unpublished before after) :
    (transactionDiscipline c owner).Allowed me segment before after :=
  ⟨kept.of_sinks sinks still,
    fun _ _ => .of_sinks before after sinks still.committed⟩

theorem Effect.ledger (collisionFree : CollisionFree c owner) (names : CombinerNames c) (segment : Start β)
    (before after : State β) (owned : ∀ entry, segment.origin = .call entry → Owned owner entry) (tracked : Tracked before)
    (ledger : Ledger c owner before) (effect : Effect c segment before after) :
    Ledger c owner after ∧ KeepsCovered before after := by
  have gone := (effect.flight before after c segment tracked).gone
  have durability := effect.durability before after c segment
  have committed : after.log.committed = before.log.committed := congrArg Durability.committed durability
  have still : Unpublished before after := ⟨committed,congrArg Durability.durableSinkCommittables durability,gone⟩
  have same (sinks : after.sinks = before.sinks) : Ledger c owner after ∧ KeepsCovered before after :=
    ⟨ledger.of_sinks sinks still,.of_sinks before after sinks committed⟩
  have waiting (pending : after.pendingSinkCommittables = before.pendingSinkCommittables) : KeepsCovered before after :=
    .of_pending before after (fun identity entry found => by rw [pending]; exact found) committed
  cases effect with
  | quiet changed | complete _ _ changed | touch _ _ _ _ _ changed | beginCompletion _ _ _ _ _ _ changed
  | track _ _ changed | detach _ _ _ changed => exact same (congrArg View.sinks changed)
  | carry checkpoint left changed =>
    have sinks := congrArg View.sinks changed
    exact ⟨ledger.carry collisionFree checkpoint left sinks still,
      waiting ((congrArg Sinks.pendingSinkCommittables sinks).trans
        (carryInflightSinkCommittables_pending before checkpoint))⟩
  | remap graph changed =>
    have sinks := congrArg View.sinks changed
    exact ⟨ledger.remap collisionFree graph sinks still,
      waiting (congrArg Sinks.pendingSinkCommittables sinks)⟩
  | merge checkpoint sourceStates hasCommittables stabilizationReady left done =>
    obtain ⟨completed,carried,merged⟩ := mergeAlignedCheckpointProgress_merged c before after checkpoint sourceStates _ _ done
    refine ⟨ledger.merge collisionFree names checkpoint left completed carried merged gone,
      .of_pending before after (fun identity entry found => ?_) committed⟩
    exact ledger.merge_pending collisionFree names checkpoint completed carried merged identity entry
      found
  | sink barrierId vertex committable checkpoint called found agrees changed =>
    have sinks := congrArg View.sinks changed
    refine ⟨?_,waiting (congrArg Sinks.pendingSinkCommittables sinks)⟩
    cases stored : ((before.inflightSinkCommittables.get? barrierId).getD ∅).get? vertex with
    | some existing =>
      exact ledger.again barrierId vertex committable existing stored (agrees existing stored) sinks
        still
    | none =>
      have mine := owned _ called
      have alive : ¬ Gone barrierId before := fun left => by
        rw [left.2] at found
        contradiction
      exact ledger.enroll barrierId vertex committable stored alive mine.1 mine.2 sinks still

theorem Ledger.expire (collisionFree : CollisionFree c owner) (s : State β) (tracked : Tracked s)
    (ledger : Ledger c owner s) (barrierId : Int) (checkpoint : Checkpoint)
    (found : s.inflightCheckpoints.get? barrierId = some checkpoint) :
    Ledger c owner (expireCheckpoint barrierId checkpoint s) ∧ KeepsCovered s (expireCheckpoint barrierId checkpoint s) := by
  have view := expireCheckpoint_view s barrierId checkpoint
  have sinks := congrArg View.sinks view
  have gone := (expireCheckpoint_flight s barrierId checkpoint tracked).gone
  have committed := congrArg (fun view => view.durability.committed) view
  have durable := congrArg (fun view => view.durability.durableSinkCommittables) view
  obtain ⟨own,issued⟩ := tracked barrierId checkpoint found
  let erased := {s with inflightCheckpoints := s.inflightCheckpoints.erase barrierId}
  have left : Gone checkpoint.barrierId erased := ⟨by rw [own]; exact issued,by simp [erased,own]⟩
  have went (other : Int) (was : Gone other erased) : Gone other (expireCheckpoint barrierId checkpoint s) := by
    have flight := congrArg View.flight view
    have inflight : (expireCheckpoint barrierId checkpoint s).inflightCheckpoints = erased.inflightCheckpoints :=
      congrArg Flight.inflightCheckpoints flight
    have current : (expireCheckpoint barrierId checkpoint s).barrierIdCurrent = erased.barrierIdCurrent :=
      congrArg Flight.barrierIdCurrent flight
    exact ⟨by rw [current]; exact was.1,by rw [inflight]; exact was.2⟩
  have apart : Ledger c owner erased := by
    refine ledger.of_sinks rfl ⟨rfl,rfl,fun other was => ⟨was.1,?_⟩⟩
    simp [erased,was.2]
  refine ⟨apart.carry collisionFree checkpoint left ?_ ⟨committed,durable,went⟩,
    .of_pending s _ (fun identity entry stored => ?_) committed⟩
  · exact sinks.trans (carryInflightSinkCommittables_congr s erased checkpoint rfl)
  · have pending := (congrArg Sinks.pendingSinkCommittables sinks).trans
      (carryInflightSinkCommittables_pending s checkpoint)
    exact (congrArg (fun dict => dict.get? identity) pending).trans stored

theorem transactionDiscipline_lawful [DecidableEq β] (collisionFree : CollisionFree c owner)
    (names : CombinerNames c) : (transactionDiscipline c owner).Lawful c where
  respectsRefl _ _ _ _ _ covered := covered
  respectsTrans _ _ _ _ _ left _ right identity entry covered := right identity entry (left identity entry covered)
  effect me segment before after owned tracked kept effect := by
    obtain ⟨ledger,covered⟩ := effect.ledger c owner collisionFree names segment before after owned tracked kept
    exact ⟨ledger,fun _ _ => covered⟩
  work me segment s worker kept _ _ := transactionDiscipline_still c owner me segment s _ kept rfl ⟨rfl,rfl,fun _ gone => gone⟩
  stale _ _ := trivial
  missing _ _ _ _ _ := trivial
  expire me segment barrierId rest checkpoint s tracked kept _ _ found := by
    obtain ⟨ledger,covered⟩ := Ledger.expire c owner collisionFree s tracked kept barrierId checkpoint found
    exact ⟨⟨ledger,fun _ _ => covered⟩,trivial⟩
  sweptQuiet _ _ _ _ _ := trivial
  sweptRely _ _ _ _ _ _ _ _ _ := trivial
  durable s identity entry kept found := kept.durable identity entry found
  commit _ _ _ _ _ := trivial
  coveredRely me request before after identity entry _ allowed covered := allowed identity entry covered
  committed me segment identity entry s _ kept covered := by
    obtain ⟨ledger,others⟩ := Ledger.commit collisionFree kept identity entry covered
    exact ⟨⟨ledger,fun _ _ => others⟩,others⟩
  empty _ _ _ := trivial
  notify _ _ _ _ _ _ := trivial
  clearQuiet _ _ _ _ := trivial
  clearRely _ _ _ _ _ _ _ := trivial
  lock me segment s kept _ := transactionDiscipline_still c owner me segment s _ kept rfl ⟨rfl,rfl,fun _ gone => gone⟩
  unlock me segment s kept _ := transactionDiscipline_still c owner me segment s _ kept rfl ⟨rfl,rfl,fun _ gone => gone⟩
  snapshot me s kept _ _ entry inside := by
    obtain ⟨identity,found⟩ := (mem_values s.pendingSinkCommittables entry).mp inside
    obtain ⟨same,-⟩ := kept.pending identity entry found
    exact ⟨rfl,.inl (same ▸ found)⟩
  pinnedRely me request before after metadata revision _ allowed _ pinned entry inside :=
    allowed entry.identity entry (pinned entry inside)
  write me segment metadata revision reply s after kept _ pinned answer := by
    obtain ⟨stores,-⟩ := respond_write_stores c metadata reply s after answer
    have committed := congrArg (fun view => view.durability.committed) stores.view
    have sinks := congrArg View.sinks stores.view
    refine ⟨transactionDiscipline_still c owner me segment s after kept sinks ⟨committed,
      congrArg (fun view => view.durability.durableSinkCommittables) stores.view,(stores.grows me s after).gone⟩,fun _ entry inside => ?_⟩
    exact KeepsCovered.of_sinks s after sinks committed entry.identity entry (pinned entry inside)
  publish me segment metadata revision s _ kept _ pinned _ := by
    refine ⟨kept.republish rfl rfl (fun _ gone => gone)
      (fun identity entry found => ?_),fun _ _ => .of_sinks s (publish metadata revision s) rfl rfl⟩
    obtain ⟨value,inside,same⟩ := mem_map.mp (get?_ofList _ identity entry found)
    cases same
    exact pinned entry inside
  cleanup me segment s kept _ := transactionDiscipline_still c owner me segment s _ kept rfl ⟨rfl,rfl,fun _ gone => gone⟩

def Registers (_ : Configuration β) : Label β → Prop
  | .spawn entry => Owned owner entry
  | .restart _ => False
  | _ => True

theorem transactionDiscipline_sound [DecidableEq β] (collisionFree : CollisionFree c owner) (names : CombinerNames c) :
    (transactionDiscipline c owner).contract.Sound (system c) (Registers owner) := by
  refine Discipline.sound _ c (transactionDiscipline_lawful c owner collisionFree names) (Registers owner) ?_ ?_ ?_ ?_ ?_ ?_
  · exact fun config entry met => met
  · exact fun _ _ _ _ _ covered => covered
  · exact fun _ _ _ _ _ _ left right identity entry covered => right identity entry (left identity entry covered)
  · exact fun _ _ _ _ _ _ _ _ _ _ _ _ _ respects => respects
  · intro action s after kept acted
    obtain ⟨stores,-⟩ := act_stores action s after acted
    have committed := congrArg (fun view => view.durability.committed) stores.view
    have sinks := congrArg View.sinks stores.view
    exact ⟨kept.of_sinks sinks ⟨committed,
      congrArg (fun view => view.durability.durableSinkCommittables) stores.view,(stores.grows 0 s after).gone⟩,
      fun _ _ => .of_sinks s after sinks committed⟩
  · exact fun config graph impossible => impossible.elim

theorem ledger_opened (graph : ExecutionGraph) : Ledger c owner (openCoordinator c graph unopened) where
  inflight _ _ _ _ found := by contradiction
  carried _ _ _ _ found := by contradiction
  pending _ _ found := by contradiction
  committed _ inside := by contradiction
  durable _ _ found := by contradiction
  once := nodup_nil
  apart _ inside := by contradiction
  registered _ := ⟨fun inside => by contradiction,fun inside => by rcases inside with held | held <;> contradiction⟩
  owned _ inside := by contradiction
  slots _ inside := by contradiction
  clean _ inside := by contradiction

/-- Where a registered transaction is: in exactly one place of the three maps and
not committed, or committed and in none of them. -/
def AccountedOnce (s : State β) (writer : Writer) : Prop :=
  (writersOf (heldEntries s)).count writer = 1 ∧ writer ∉ writersOf s.log.committed ∨
    (writersOf (heldEntries s)).count writer = 0 ∧ writer ∈ writersOf s.log.committed

theorem Ledger.accounted (s : State β) (ledger : Ledger c owner s) (writer : Writer) (known : writer ∈ s.log.registered) :
    AccountedOnce s writer := by
  rcases (ledger.registered writer).mp known with held | committed
  · exact .inl ⟨count_eq_one_of_mem ledger.once held,ledger.apart writer held⟩
  · refine .inr ⟨count_eq_zero.mpr (fun held => ledger.apart writer held committed),committed⟩

/-- Every registered transaction is accounted for exactly once in every reachable
state, and leaves the pending map only by a successful commit. -/
theorem transactions_conserved [DecidableEq β] (collisionFree : CollisionFree c owner) (names : CombinerNames c)
    (graph : ExecutionGraph) (labels later : List (Label β)) (middle final : Configuration β)
    (registers : Runs.Along (system c).step (Registers owner) (initial c graph) labels)
    (continues : Runs.Along (system c).step (Registers owner) middle later)
    (run : Runs.exec (system c).step (initial c graph) labels = some middle)
    (rest : Runs.exec (system c).step middle later = some final) :
    (∀ writer ∈ middle.shared.log.registered, AccountedOnce middle.shared writer) ∧
      ∀ identity entry, middle.shared.pendingSinkCommittables.get? identity = some entry →
        final.shared.pendingSinkCommittables.get? identity = some entry ∨ entry ∈ final.shared.log.committed := by
  have sound := transactionDiscipline_sound c owner collisionFree names
  have secure := Contract.exec_secure _ (system c) (Registers owner) sound labels _ middle
    (Discipline.secure_initial _ c graph (ledger_opened c owner graph)) registers run
  refine ⟨fun writer known => Ledger.accounted c owner _ secure.invariant.2 writer known,fun identity entry found => ?_⟩
  obtain ⟨same,-⟩ := secure.invariant.2.pending identity entry found
  have kept := Runs.exec_invariant (system c).step (Registers owner)
    (fun config => (transactionDiscipline c owner).contract.Secure (system c) config ∧ Covered identity entry config.shared)
    (fun config label next holds met taken => ?_) later middle final ⟨secure,same,.inl found⟩ continues rest
  · exact kept.2.2
  · obtain ⟨further,guaranteed⟩ := holds.1.step _ (system c) (Registers owner) sound config next label met taken
    refine ⟨further,?_⟩
    have ran (index : Nat) (origin) (started : Contract.Starts config label index origin) :
        Covered identity entry next.shared :=
      ((guaranteed index origin started).1 (index + 1) (by omega)).2 identity entry holds.2
    cases label with
    | spawn entry => exact ran _ _ ⟨rfl,rfl⟩
    | resume thread reply =>
      cases waiting : config.threads[thread]? with
      | none => simp [System.step,waiting] at taken
      | some pause =>
        cases pause with
        | done result => simp [System.step,waiting] at taken
        | waiting request next => exact ran thread _ ⟨rfl,request,next,waiting,rfl⟩
    | environment action =>
      simp only [System.step] at taken
      split at taken
      next after acted =>
        cases taken
        exact (sound.environment config action after met holds.1.invariant acted).2 0 .sleep |>.2 identity entry holds.2
      next => contradiction
    | restart graph => exact met.elim

end discipline

def coalescingConfig : Config Nat := {pipelineConfig with
  sha256 := fun text =>
    if text = "" then "e3b0c44298fc1c149afbf4c8996fb92427ae41e4649b934ca495991b7852b855"
    else if text = "t" then "e3b98a4da31a127d4bde6e43033f66ba274cab0eb7eb1c70ec41402bf6273dd8"
    else if text = "u" then "0bfe935e70c321c7ca3afc75ce0d0ca2f98b5422e008bb31c00c6d7f1f1c0ad6"
    else if text = "t\x00u" then "65660eec8677b1d18d647eb2ecf9951f6a9cfd1a27a46a95c76b1486d679730f"
    else "f6b213d0b73316b268b530748df8dc5bda9295c2928a7b6628cebfd1c284e03d"}

def coalescingGraph : ExecutionGraph := {pipelineGraph with
  domains := [⟨"a",[⟨1,0⟩,⟨2,0⟩,⟨2,1⟩],[⟨1,0⟩],[⟨2,0⟩,⟨2,1⟩]⟩]
  sources := [⟨1,0⟩]
  sinks := [⟨2,0⟩,⟨2,1⟩]
  vertices := [⟨1,0⟩,⟨2,0⟩,⟨2,1⟩]
  edges := [(⟨1,0⟩,⟨2,0⟩),(⟨1,0⟩,⟨2,1⟩)]
  tasks := [⟨1,0⟩,⟨2,0⟩,⟨2,1⟩]}

def cutRun : List (Label Nat) :=
  [.spawn (.registerCheckpoint ⟨1,0⟩ false),.spawn (.registerSinkCommittable 1 ⟨2,1⟩ ⟨"u",some "lake"⟩),
    .spawn (.registerSinkCommittable 1 ⟨2,0⟩ ⟨"t",some "lake"⟩),.spawn (.notifyCheckpointAligned 1 ⟨2,0⟩),
    .spawn (.notifyCheckpointAligned 1 ⟨2,1⟩),.resume 4 (.states (Dict.ofList [(⟨1,0⟩,7)]))]

def publishRun : List (Label Nat) :=
  [.resume 4 .done,.resume 4 .done,.resume 4 .done,.resume 4 .done,.resume 4 .done]

def coalescingOwner (transactionId : String) : Option (Vertex × Int) :=
  if transactionId = "t" then some (⟨2,0⟩,1) else if transactionId = "u" then some (⟨2,1⟩,1) else none

theorem coalescing_lists (ids : List String) (nodup : ids.Nodup) (owned : ∀ id ∈ ids, (coalescingOwner id).isSome) :
    ids ∈ [[],["t"],["u"],["t","u"],["u","t"]] := by
  have known (id : String) (inside : id ∈ ids) : id = "t" ∨ id = "u" := by
    have some := owned id inside
    unfold coalescingOwner at some
    grind
  have short : ids.length ≤ 2 := (nodup.subperm (fun id inside => by simpa using known id inside) :
    ids.Subperm ["t","u"]).length_le
  rcases ids with _ | ⟨first,_ | ⟨second,_ | ⟨third,rest⟩⟩⟩
  · simp
  · have one := known first (by simp)
    grind
  · have one := known first (by simp)
    have two := known second (by simp)
    grind
  · simp at short

theorem coalescing_collisionFree : CollisionFree coalescingConfig coalescingOwner := by
  intro ids ids' nodup nodup' owned
  have first := coalescing_lists ids nodup (fun id inside => owned id (mem_append_left _ inside))
  have second := coalescing_lists ids' nodup' (fun id inside => owned id (mem_append_right _ inside))
  have apart : ∀ left ∈ [[],["t"],["u"],["t","u"],["u","t"]], ∀ right ∈ [[],["t"],["u"],["t","u"],["u","t"]],
      coalescingConfig.sha256 (String.intercalate (String.singleton '\x00') left) =
        coalescingConfig.sha256 (String.intercalate (String.singleton '\x00') right) →
      String.intercalate (String.singleton '\x00') left = String.intercalate (String.singleton '\x00') right := by
    decide +kernel
  exact apart ids first ids' second

theorem transactions_conserved_publishRun : ∃ middle final : Configuration Nat,
    Runs.exec (system coalescingConfig).step (initial coalescingConfig coalescingGraph) cutRun = some middle ∧
      Runs.exec (system coalescingConfig).step middle publishRun = some final ∧
      middle.shared.log.registered = [⟨⟨2,0⟩,1,"t"⟩,⟨⟨2,1⟩,1,"u"⟩] ∧
      middle.shared.pendingSinkCommittables.values.map SinkEntry.writers = [[⟨⟨2,1⟩,1,"u"⟩,⟨⟨2,0⟩,1,"t"⟩]] ∧
      (∀ writer ∈ middle.shared.log.registered, AccountedOnce middle.shared writer) ∧
      ∀ identity entry, middle.shared.pendingSinkCommittables.get? identity = some entry →
        final.shared.pendingSinkCommittables.get? identity = some entry ∨ entry ∈ final.shared.log.committed := by
  have enabled : (Runs.exec (system coalescingConfig).step (initial coalescingConfig coalescingGraph) cutRun).map
      (fun config => (config.shared.log.registered,config.shared.pendingSinkCommittables.values.map SinkEntry.writers,
        (Runs.exec (system coalescingConfig).step config publishRun).isSome)) =
      some ([⟨⟨2,0⟩,1,"t"⟩,⟨⟨2,1⟩,1,"u"⟩],[[⟨⟨2,1⟩,1,"u"⟩,⟨⟨2,0⟩,1,"t"⟩]],true) := by decide +kernel
  obtain ⟨middle,run,observed⟩ := Option.map_eq_some_iff.mp enabled
  obtain ⟨registered,further⟩ := Prod.mk.inj observed
  obtain ⟨pending,further⟩ := Prod.mk.inj further
  obtain ⟨final,rest⟩ := Option.isSome_iff_exists.mp further
  have named (state : Configuration Nat) (label : Label Nat) (inside : label ∈ cutRun ++ publishRun) :
      Registers coalescingOwner state label := by
    simp only [cutRun,publishRun,cons_append,nil_append,mem_cons,not_mem_nil,or_false] at inside
    rcases inside with rfl | rfl | rfl | rfl | rfl | rfl | rfl | rfl | rfl | rfl | rfl
    all_goals simp [Registers,Owned,coalescingOwner]
  have combines : CombinerNames coalescingConfig := by
    intro group transactionId committable named
    obtain rfl : (⟨transactionId,none⟩ : SinkCommittable) = committable := by
      simpa [coalescingConfig,pipelineConfig] using named
    rfl
  have conserved := transactions_conserved coalescingConfig coalescingOwner coalescing_collisionFree combines coalescingGraph
    cutRun publishRun middle final
    (Runs.Along.of_forall _ _ cutRun (fun state label inside => named state label (by simp [inside])) _)
    (Runs.Along.of_forall _ _ publishRun (fun state label inside => named state label (by simp [inside])) _) run rest
  exact ⟨middle,final,run,rest,registered,pending,conserved⟩

end Klein.Coordinator
