import Klein.State.ManagedStateOperator

/-! Rescaling keeps the keyed state: the new subtasks hold what the old ones held,
each entry at the owner of its key group. The group of an entry is that of the key it
was written for; a snapshot takes the group of the key that is read back, and the
state is kept exactly where the two are one. -/
namespace Klein.State
open List

section subtasks
variable {Key Backend Blob : Type} {codec : KeyCodec Key} (store : KeyGroupStore codec Backend Blob)
variable (maxParallelism : Nat) (keyOf : ColumnFamily → Bytes → Key)

structure Opened (parallelism index : Nat) (op : ManagedStateOperator Backend) : Prop where
  maximum : op.maxParallelism = maxParallelism
  range : assignKeyGroupRange maxParallelism parallelism index = .ok op.keyGroupRange

def KeyOfState (codec : KeyCodec Key) (key : Key) (stateKey : Bytes) : Prop :=
  ∃ name encodedKey encodedSpace, readStateKey stateKey = .ok (name,encodedKey,encodedSpace) ∧
    codec.encodeKey key = .ok encodedKey

/-- The entry was written while `key` was the current key. -/
def WrittenFor (codec : KeyCodec Key) (key : Key) : ColumnFamily → Bytes → Bytes → Prop
  | .state,stateKey,_ => KeyOfState codec key stateKey
  | .expiry,entry,_ => ∃ stateKey expiresAt, expiryKey stateKey expiresAt = .ok (some entry) ∧ KeyOfState codec key stateKey
  | .timers,encodedKey,encodedValue => ∃ (timestamp : Int) (space : Key) (domain : TimerDomain),
    encodeTimerKey codec timestamp key space domain = .ok encodedKey ∧ encodeTimerValue codec key space = .ok encodedValue

/-- The contents are entries of keys that are routed to the subtask. -/
def HasOwnKeys (op : ManagedStateOperator Backend) : Prop := ∀ family key value,
  store.lookup op.backend family key = some value → Written codec family key value ∧
    WrittenFor codec (keyOf family key) family key value ∧
    ∃ group ∈ op.keyGroupRange, keyGroupForKey codec (keyOf family key) maxParallelism = .ok group

/-- Every key is read back into its own group, and the backend takes every entry back. -/
def Returns (op : ManagedStateOperator Backend) : Prop := ∀ family key value,
  store.lookup op.backend family key = some value →
    familyGroup codec maxParallelism family (key,value) = keyGroupForKey codec (keyOf family key) maxParallelism ∧
      store.Accepts family key value

variable {Snapshot : Type} (pickle : Pickle (ManagedStatePayload Blob) Snapshot)

/-- Snapshots, redistribution and restores keep the keyed state at every parallelism, and
two redistributions in a row are one. -/
def Rescales [DecidableEq Blob] {count : Nat} (old : Fin count → ManagedStateOperator Backend) : Prop :=
  ∀ q r, 1 ≤ q → q ≤ maxParallelism → 1 ≤ r → r ≤ maxParallelism → ∀ new : Fin q → ManagedStateOperator Backend,
    (∀ j : Fin q, Opened maxParallelism q j (new j)) →
    ∃ (fragments : Fin count → Snapshot) (parts : Fin q → Snapshot) (restored raw : Fin q → ManagedStateOperator Backend),
      (∀ i, (old i).snapshotState store pickle = .ok (fragments i)) ∧
      repartitionManagedStateSnapshots pickle (List.ofFn fragments) q = .ok (List.ofFn parts) ∧
      (∀ j, (new j).restoreState store pickle (parts j) = (.ok (),restored j)) ∧
      (∀ j family key value, store.lookup (restored j).backend family key = some value ↔
        (∃ i, store.lookup (old i).backend family key = some value) ∧
          ∃ group ∈ (new j).keyGroupRange, keyGroupForKey codec (keyOf family key) maxParallelism = .ok group) ∧
      (∀ i family key value, store.lookup (old i).backend family key = some value →
        ∃! j, ∃ value, store.lookup (restored j).backend family key = some value) ∧
      (∀ j, (new j).restoreStateFragments store pickle (List.ofFn fragments) = (.ok (),raw j)) ∧
      (∀ j, store.lookup (raw j).backend = store.lookup (restored j).backend ∧
        (raw j).timerService = (restored j).timerService) ∧
      ∃ next, repartitionManagedStateSnapshots pickle (List.ofFn fragments) r = .ok next ∧
        repartitionManagedStateSnapshots pickle (List.ofFn parts) r = .ok next

variable {count : Nat} (positive : 1 ≤ count) (within : count ≤ maxParallelism)
include positive within

omit store keyOf in
theorem Opened.owner (index : Fin count) (op : ManagedStateOperator Backend) (opened : Opened maxParallelism count index op)
    (group : Nat) : op.keyGroupRange.stop < maxParallelism ∧ (group ∈ op.keyGroupRange ↔
      group < maxParallelism ∧ group * count / maxParallelism = index) := by
  obtain ⟨range,assigned,below,owned⟩ := assignKeyGroupRange_ok maxParallelism count positive within index index.isLt
  obtain rfl := Except.ok.inj (assigned.symm.trans opened.range)
  exact ⟨below,owned group⟩

variable (ops : Fin count → ManagedStateOperator Backend)
variable (opened : ∀ index : Fin count, Opened maxParallelism count index (ops index))
variable (own : ∀ index, HasOwnKeys store maxParallelism keyOf (ops index))
include opened own

theorem held_once (one other : Fin count) (family : ColumnFamily) (key value value' : Bytes)
    (first : store.lookup (ops one).backend family key = some value)
    (second : store.lookup (ops other).backend family key = some value') : one = other := by
  obtain ⟨-,-,group,inside,grouped⟩ := own one family key value first
  obtain ⟨-,-,group',inside',grouped'⟩ := own other family key value' second
  obtain rfl := Except.ok.inj (grouped.symm.trans grouped')
  have owns := ((opened one).owner maxParallelism positive within one (ops one) group).2.mp inside
  have owns' := ((opened other).owner maxParallelism positive within other (ops other) group).2.mp inside'
  exact Fin.ext (owns.2.symm.trans owns'.2)

omit positive within opened own in
/-- The snapshots of all subtasks. -/
structure Fragments (payloads : Fin count → ManagedStatePayload Blob) : Prop where
  taken : ∀ index, (ops index).snapshotState store pickle = .ok (pickle.dumps (payloads index))
  consistent : Consistent maxParallelism (List.ofFn payloads)
  started : ∀ payload ∈ List.ofFn payloads, -1 ≤ payload.watermark
  readable : ∀ group snapshot, Holds (List.ofFn payloads) group snapshot → store.Readable snapshot
  carried : ∀ group family key value,
    (∃ snapshot, Holds (List.ofFn payloads) group snapshot ∧ store.Carries snapshot family key value) ↔
      ∃ index, store.lookup (ops index).backend family key = some value ∧ group ∈ (ops index).keyGroupRange ∧
        familyGroup codec maxParallelism family (key,value) = .ok group

theorem fragments_ok (readable : codec.Readable) : ∃ payloads, Fragments store maxParallelism pickle ops payloads := by
  let groupOf (family : ColumnFamily) (entry : Bytes × Bytes) : Nat :=
    (familyGroup codec maxParallelism family entry).toOption.getD 0
  have grouped (index : Fin count) (family : ColumnFamily) (key value : Bytes)
      (inside : store.lookup (ops index).backend family key = some value) :
      familyGroup codec maxParallelism family (key,value) = .ok (groupOf family (key,value)) := by
    obtain ⟨group,ok⟩ := (own index family key value inside).1.group (show 0 < maxParallelism by omega) readable
    change _ = Except.ok ((familyGroup codec maxParallelism family (key,value)).toOption.getD 0)
    rw [ok]
    rfl
  have owner (index : Fin count) := (opened index).owner maxParallelism positive within index (ops index)
  have each (index : Fin count) : ∃ payload, (ops index).snapshotState store pickle = .ok (pickle.dumps payload) ∧
      (ops index).IsFragment store groupOf payload :=
    (ops index).snapshotState_ok store pickle groupOf ((opened index).maximum ▸ (owner index 0).1)
      ((opened index).maximum.symm ▸ grouped index)
  choose payloads taken fragment using each
  have holds (group : Nat) (snapshot : Blob) : Holds (List.ofFn payloads) group snapshot ↔
      ∃ index, (payloads index).keyGroups.get? group = some snapshot := by
    simp [Holds,mem_ofFn]
  refine ⟨payloads,taken,?_,fun payload listed => ?_,fun group snapshot held => ?_,fun group family key value => ?_⟩
  · constructor
    case nonempty => exact fun nothing => absurd (congrArg List.length nothing) (by simp; omega)
    case valid =>
      intro payload listed
      obtain ⟨index,rfl⟩ := mem_ofFn.mp listed
      exact (opened index).maximum ▸ (fragment index).valid
    case agree =>
      intro payload listed payload' listed' group one two found found'
      obtain ⟨index,rfl⟩ := mem_ofFn.mp listed
      obtain ⟨index',rfl⟩ := mem_ofFn.mp listed'
      have inside := ((owner index group).2.mp ((fragment index).carries group one found).1).2
      have inside' := ((owner index' group).2.mp ((fragment index').carries group two found').1).2
      obtain rfl : index = index' := Fin.ext (inside.symm.trans inside')
      exact Option.some.inj (found.symm.trans found')
  · obtain ⟨index,rfl⟩ := mem_ofFn.mp listed
    exact (fragment index).watermark ▸ (ops index).timerService.started
  · obtain ⟨index,found⟩ := (holds group snapshot).mp held
    exact ((fragment index).carries group snapshot found).2.1
  · constructor
    · rintro ⟨snapshot,held,carries⟩
      obtain ⟨index,found⟩ := (holds group snapshot).mp held
      obtain ⟨owned,-,spec⟩ := (fragment index).carries group snapshot found
      obtain ⟨inside,same⟩ := (spec family key value).mp carries
      exact ⟨index,inside,owned,same ▸ grouped index family key value inside⟩
    · rintro ⟨index,inside,owned,ok⟩
      obtain rfl := Except.ok.inj ((grouped index family key value inside).symm.trans ok)
      obtain ⟨snapshot,found⟩ := (fragment index).complete family key value inside owned
      exact ⟨snapshot,(holds _ snapshot).mpr ⟨index,found⟩,
        (((fragment index).carries _ snapshot found).2.2 family key value).mpr ⟨inside,rfl⟩⟩

variable [DecidableEq Blob] (payloads : Fin count → ManagedStatePayload Blob)
variable (fragments : Fragments store maxParallelism pickle ops payloads)
include fragments

theorem restored_from (given : List (ManagedStatePayload Blob)) (consistent : Consistent maxParallelism given)
    (included : ∀ group snapshot, Holds given group snapshot → Holds (List.ofFn payloads) group snapshot)
    (started : ∀ payload ∈ given, -1 ≤ payload.watermark) (target : ManagedStateOperator Backend)
    (maximum : target.maxParallelism = maxParallelism)
    (complete : ∀ group ∈ target.keyGroupRange, ∀ snapshot, Holds (List.ofFn payloads) group snapshot → Holds given group snapshot)
    (accepted : ∀ group snapshot, group ∈ target.keyGroupRange → Holds given group snapshot → ∀ family key value,
      store.Carries snapshot family key value → store.Accepts family key value) :
    ∃ next, target.restoreStateFragments store pickle (given.map pickle.dumps) = (.ok (),next) ∧
      IsLeast {other | ∃ payload ∈ given, payload.watermark = other} next.timerService.watermark ∧
      ∀ family key value, store.lookup next.backend family key = some value ↔
        ∃ index, store.lookup (ops index).backend family key = some value ∧ ∃ group ∈ target.keyGroupRange,
          group ∈ (ops index).keyGroupRange ∧ familyGroup codec maxParallelism family (key,value) = .ok group := by
  classical
  -- a key has one value among the subtasks
  let whole (family : ColumnFamily) (key : Bytes) : Option Bytes :=
    if held : ∃ value index, store.lookup (ops index).backend family key = some value then some held.choose else none
  have known (family : ColumnFamily) (key value : Bytes) (index : Fin count)
      (inside : store.lookup (ops index).backend family key = some value) : whole family key = some value := by
    have held : ∃ value index, store.lookup (ops index).backend family key = some value := ⟨value,index,inside⟩
    obtain ⟨index',inside'⟩ := held.choose_spec
    obtain rfl := held_once store maxParallelism keyOf positive within ops opened own index index' family key
      value _ inside inside'
    exact (dif_pos held).trans (inside'.symm.trans inside)
  obtain ⟨next,done,lowest,contents⟩ := target.restoreStateFragments_ok store pickle given (maximum.symm ▸ consistent) started
    (fun group snapshot held => fragments.readable group snapshot (included group snapshot held))
    whole (fun group snapshot held family key value carries => by
      obtain ⟨index,inside,-⟩ :=
        (fragments.carried group family key value).mp ⟨snapshot,included group snapshot held,carries⟩
      exact ⟨(own index family key value inside).1,known family key value index inside⟩) accepted
  refine ⟨next,done,lowest,fun family key value => ?_⟩
  rw [contents]
  constructor
  · rintro ⟨group,snapshot,inside,held,carries⟩
    obtain ⟨index,stored,owned,ok⟩ :=
      (fragments.carried group family key value).mp ⟨snapshot,included group snapshot held,carries⟩
    exact ⟨index,stored,group,inside,owned,ok⟩
  · rintro ⟨index,stored,group,inside,owned,ok⟩
    obtain ⟨snapshot,held,carries⟩ := (fragments.carried group family key value).mpr ⟨index,stored,owned,ok⟩
    exact ⟨group,snapshot,inside,complete group inside snapshot held,carries⟩

omit positive within opened own fragments in
/-- The snapshots for the new subtasks. -/
structure Parts (q : Nat) (part : Fin q → ManagedStatePayload Blob) : Prop where
  redistributed : repartitionManagedStateSnapshots pickle (List.ofFn (fun i => pickle.dumps (payloads i))) q =
    .ok (List.ofFn (fun j => pickle.dumps (part j)))
  isPart : ∀ j : Fin q, IsPart maxParallelism q (List.ofFn payloads) j (part j)
  alone : ∀ j, Consistent maxParallelism [part j]
  single : ∀ j group snapshot, Holds [part j] group snapshot ↔
    Holds (List.ofFn payloads) group snapshot ∧ group * q / maxParallelism = j
  again : ∀ r, 1 ≤ r → r ≤ maxParallelism → ∃ next,
    repartitionManagedStateSnapshots pickle (List.ofFn (fun i => pickle.dumps (payloads i))) r = .ok next ∧
      repartitionManagedStateSnapshots pickle (List.ofFn (fun j => pickle.dumps (part j))) r = .ok next

variable (q : Nat) (positive' : 1 ≤ q) (within' : q ≤ maxParallelism)
include positive' within'

omit positive within opened own in
theorem parts_ok : ∃ part, Parts maxParallelism pickle payloads q part := by
  obtain ⟨parts,redistributed,length,areParts⟩ :=
    repartition_ok maxParallelism q (List.ofFn payloads) positive' within' fragments.consistent pickle
  have each (j : Fin q) : ∃ part, parts[j.val]? = some part :=
    ⟨_,getElem?_eq_getElem (by rw [length]; exact j.isLt)⟩
  choose part at' using each
  have listed : List.ofFn part = parts := by
    refine ext_getElem? (fun index => ?_)
    by_cases inside : index < q
    · rw [List.getElem?_ofFn,dif_pos inside]
      exact (at' ⟨index,inside⟩).symm
    · rw [getElem?_eq_none (by simp; omega),getElem?_eq_none (by omega)]
  have isPart (j : Fin q) := areParts j (part j) (at' j)
  have single (j : Fin q) (group : Nat) (snapshot : Blob) : Holds [part j] group snapshot ↔
      Holds (List.ofFn payloads) group snapshot ∧ group * q / maxParallelism = j := by
    rw [← (isPart j).holds]
    simp [Holds]
  refine ⟨part,?_,isPart,fun j => ?_,single,fun r positive'' within'' => ?_⟩
  · rw [← listed,map_ofFn,map_ofFn] at redistributed
    exact redistributed
  · constructor
    case nonempty => simp
    case valid =>
      intro payload member
      obtain rfl := mem_singleton.mp member
      exact (isPart j).valid maxParallelism q (List.ofFn payloads) positive' within' fragments.consistent j j.isLt
    case agree =>
      intro payload member payload' member' group one two found found'
      exact fragments.consistent.unique maxParallelism (List.ofFn payloads) group one two
        ((single j group one).mp ⟨payload,member,found⟩).1 ((single j group two).mp ⟨payload',member',found'⟩).1
  · obtain ⟨next,repeated,-,-⟩ :=
      repartition_ok maxParallelism r (List.ofFn payloads) positive'' within'' fragments.consistent pickle
    have again := repartition_again maxParallelism q (List.ofFn payloads) positive' within' fragments.consistent pickle parts
      length areParts r positive'' within''
    refine ⟨next.map pickle.dumps,?_,?_⟩
    · rw [map_ofFn] at repeated
      exact repeated
    · rw [← listed,map_ofFn,map_ofFn] at again
      rw [map_ofFn] at repeated
      exact again.trans repeated

variable (new : Fin q → ManagedStateOperator Backend) (opened' : ∀ j : Fin q, Opened maxParallelism q j (new j))
variable (part : Fin q → ManagedStatePayload Blob) (parts : Parts maxParallelism pickle payloads q part)
include opened' parts

theorem restored_part (j : Fin q)
    (accepted : ∀ group snapshot, group ∈ (new j).keyGroupRange → Holds [part j] group snapshot → ∀ family key value,
      store.Carries snapshot family key value → store.Accepts family key value) :
    ∃ next, (new j).restoreState store pickle (pickle.dumps (part j)) = (.ok (),next) ∧
      next.timerService.watermark = (part j).watermark ∧
      ∀ family key value, store.lookup next.backend family key = some value ↔
        ∃ index, store.lookup (ops index).backend family key = some value ∧ ∃ group ∈ (new j).keyGroupRange,
          group ∈ (ops index).keyGroupRange ∧ familyGroup codec maxParallelism family (key,value) = .ok group := by
  obtain ⟨next,done,least,contents⟩ := restored_from store maxParallelism keyOf pickle positive within ops opened own payloads
    fragments [part j] (parts.alone j) (fun group snapshot held => ((parts.single j group snapshot).mp held).1)
    (fun payload member => by
      obtain rfl := mem_singleton.mp member
      obtain ⟨source,inside,same⟩ := (parts.isPart j).watermark.1
      exact same ▸ fragments.started source inside) (new j) (opened' j).maximum
    (fun group inside snapshot held => (parts.single j group snapshot).mpr
      ⟨held,(((opened' j).owner maxParallelism positive' within' j (new j) group).2.mp inside).2⟩) accepted
  obtain ⟨payload,member,same⟩ := least.1
  obtain rfl := mem_singleton.mp member
  exact ⟨next,done,same.symm,contents⟩

end subtasks

section rescaling
variable {Key Backend Blob Snapshot : Type} [DecidableEq Blob] {codec : KeyCodec Key} (store : KeyGroupStore codec Backend Blob)
variable (pickle : Pickle (ManagedStatePayload Blob) Snapshot) (readable : codec.Readable)
variable (maxParallelism p : Nat) (positive : 1 ≤ p) (within : p ≤ maxParallelism) (old : Fin p → ManagedStateOperator Backend)
variable (opened : ∀ i : Fin p, Opened maxParallelism p i (old i)) (keyOf : ColumnFamily → Bytes → Key)
variable (own : ∀ i, HasOwnKeys store maxParallelism keyOf (old i))
include readable positive within opened own

theorem rescales_of_returns (returns : ∀ i, Returns store maxParallelism keyOf (old i)) :
    Rescales store maxParallelism keyOf pickle old := by
  intro q r positive' within' positive'' within'' new opened'
  obtain ⟨payloads,fragments⟩ := fragments_ok store maxParallelism keyOf pickle positive within old opened own readable
  obtain ⟨part,parts⟩ := parts_ok store maxParallelism pickle old payloads fragments q positive' within'
  have owner (j : Fin q) := (opened' j).owner maxParallelism positive' within' j (new j)
  have accepted (group : Nat) (snapshot : Blob) (held : Holds (List.ofFn payloads) group snapshot) (family : ColumnFamily)
      (key value : Bytes) (carries : store.Carries snapshot family key value) : store.Accepts family key value := by
    obtain ⟨i,inside,-⟩ := (fragments.carried group family key value).mp ⟨snapshot,held,carries⟩
    exact (returns i family key value inside).2
  have fromPart (j : Fin q) := restored_part store maxParallelism keyOf pickle positive within old opened own payloads fragments
    q positive' within' new opened' part parts j
    (fun group snapshot _ held => accepted group snapshot ((parts.single j group snapshot).mp held).1)
  have fromAll (j : Fin q) := restored_from store maxParallelism keyOf pickle positive within old opened own payloads fragments
    (List.ofFn payloads) fragments.consistent (fun _ _ held => held) fragments.started (new j) (opened' j).maximum
    (fun _ _ _ held => held) (fun group snapshot _ => accepted group snapshot)
  choose restored done least contents using fromPart
  choose raw done' least' contents' using fromAll
  have placed (j : Fin q) (family : ColumnFamily) (key value : Bytes) :
      store.lookup (restored j).backend family key = some value ↔
        (∃ i, store.lookup (old i).backend family key = some value) ∧
          ∃ group ∈ (new j).keyGroupRange, keyGroupForKey codec (keyOf family key) maxParallelism = .ok group := by
    rw [contents]
    constructor
    · rintro ⟨i,inside,group,owned,-,ok⟩
      exact ⟨⟨i,inside⟩,group,owned,(returns i family key value inside).1.symm.trans ok⟩
    · rintro ⟨⟨i,inside⟩,group,owned,ok⟩
      obtain ⟨-,-,group',owned',ok'⟩ := own i family key value inside
      obtain rfl := Except.ok.inj (ok.symm.trans ok')
      exact ⟨i,inside,group,owned,owned',(returns i family key value inside).1.trans ok⟩
  refine ⟨fun i => pickle.dumps (payloads i),fun j => pickle.dumps (part j),restored,raw,fragments.taken,parts.redistributed,done,
    placed,fun i family key value inside => ?_,fun j => ?_,fun j => ⟨?_,?_⟩,parts.again r positive'' within''⟩
  · obtain ⟨-,-,group,owned,ok⟩ := own i family key value inside
    have below := (((opened i).owner maxParallelism positive within i (old i) group).2.mp owned).1
    refine ⟨⟨_,keyGroupOwner_lt maxParallelism q positive' group below⟩,⟨value,?_⟩,?_⟩
    · exact (placed _ family key value).mpr ⟨⟨i,inside⟩,group,(owner _ group).2.mpr ⟨below,rfl⟩,ok⟩
    · rintro j ⟨value',found⟩
      obtain ⟨-,group',owned',ok'⟩ := (placed j family key value').mp found
      obtain rfl := Except.ok.inj (ok.symm.trans ok')
      exact Fin.ext ((owner j group).2.mp owned').2.symm
  · have whole := done' j
    rw [map_ofFn] at whole
    exact whole
  · funext family key
    exact Option.ext (fun value => (contents' j family key value).trans (contents j family key value).symm)
  · exact TimerService.ext ((least' j).unique (least j ▸ (parts.isPart j).watermark))

/-- At the highest parallelism every group has a subtask of its own. -/
theorem returns_of_rescales (rescales : Rescales store maxParallelism keyOf pickle old) (i : Fin p) :
    Returns store maxParallelism keyOf (old i) := by
  intro family key value inside
  have top : 1 ≤ maxParallelism := positive.trans within
  have ranges (j : Fin maxParallelism) := assignKeyGroupRange_ok maxParallelism maxParallelism top le_rfl j j.isLt
  choose range assigned _ _ using ranges
  let new (j : Fin maxParallelism) : ManagedStateOperator Backend := ⟨maxParallelism,range j,(old i).backend,⟨-1,le_rfl⟩⟩
  have opened' (j : Fin maxParallelism) : Opened maxParallelism maxParallelism j (new j) := ⟨rfl,assigned j⟩
  obtain ⟨payloads,fragments⟩ := fragments_ok store maxParallelism keyOf pickle positive within old opened own readable
  obtain ⟨part,parts⟩ := parts_ok store maxParallelism pickle old payloads fragments maxParallelism top le_rfl
  obtain ⟨taken,given,restored,-,same,redistributed,done,placed,-⟩ := rescales maxParallelism maxParallelism top le_rfl top
    le_rfl new opened'
  have snapshots : taken = fun i => pickle.dumps (payloads i) :=
    funext (fun i => Except.ok.inj ((same i).symm.trans (fragments.taken i)))
  subst snapshots
  have divided : given = fun j => pickle.dumps (part j) :=
    ofFn_injective (Except.ok.inj (redistributed.symm.trans parts.redistributed))
  subst divided
  obtain ⟨-,-,group,owned,ok⟩ := own i family key value inside
  have below := (((opened i).owner maxParallelism positive within i (old i) group).2.mp owned).1
  let j : Fin maxParallelism := ⟨group,below⟩
  have alone (other : Nat) (wanted : other ∈ (new j).keyGroupRange) : other = group := by
    have owns := (((opened' j).owner maxParallelism top le_rfl j (new j) other).2.mp wanted).2
    rwa [Nat.mul_div_cancel _ (by omega)] at owns
  have mine : group ∈ (new j).keyGroupRange :=
    ((opened' j).owner maxParallelism top le_rfl j (new j) group).2.mpr ⟨below,Nat.mul_div_cancel _ (by omega)⟩
  have accepted := (new j).restoreStateFragments_accepts store pickle [part j] (parts.alone j) (restored j) (done j)
  obtain ⟨next,again,-,contents⟩ := restored_part store maxParallelism keyOf pickle positive within old opened own payloads
    fragments maxParallelism top le_rfl new opened' part parts j accepted
  obtain rfl := (Prod.mk.inj ((done j).symm.trans again)).2
  obtain ⟨index,stored,other,wanted,covered,found⟩ := (contents family key value).mp
    ((placed j family key value).mpr ⟨⟨i,inside⟩,group,mine,ok⟩)
  obtain rfl := alone other wanted
  obtain ⟨snapshot,held,carries⟩ := (fragments.carried other family key value).mpr ⟨index,stored,covered,found⟩
  refine ⟨found.trans ok.symm,accepted other snapshot wanted ((parts.single j other snapshot).mpr ⟨held,?_⟩) family key value carries⟩
  exact Nat.mul_div_cancel _ (by omega)

end rescaling

/-- Rescaling keeps the keyed state exactly where every key is read back into its own
group and the backend takes every entry back. -/
theorem keyed_state_rescales {Key Blob Snapshot : Type} [DecidableEq Blob] (codec : KeyCodec Key)
    (pickles : KeyGroupPickles Blob) (pickle : Pickle (ManagedStatePayload Blob) Snapshot) (kind : StateBackendKind)
    (readable : codec.Readable) (maxParallelism p : Nat) (positive : 1 ≤ p) (within : p ≤ maxParallelism)
    (old : Fin p → ManagedStateOperator (kind.Backend Key)) (opened : ∀ i : Fin p, Opened maxParallelism p i (old i))
    (keyOf : ColumnFamily → Bytes → Key) (own : ∀ i, HasOwnKeys (kind.store codec pickles) maxParallelism keyOf (old i)) :
    Rescales (kind.store codec pickles) maxParallelism keyOf pickle old ↔
      ∀ i, Returns (kind.store codec pickles) maxParallelism keyOf (old i) :=
  ⟨returns_of_rescales _ pickle readable maxParallelism p positive within old opened keyOf own,
    rescales_of_returns _ pickle readable maxParallelism p positive within old opened keyOf own⟩

section examples

def sessionKeys : KeyCodec (Option (Fin 256)) :=
  {smallKeys with keyHash := fun key => if key = some 1 then 9845089016890440209 else 0}

theorem sessionKeys_readable : sessionKeys.Readable :=
  ⟨smallKeys_lawful.readable.decode_encode,smallKeys_lawful.readable.loads_dumps⟩

def bothPickles : KeyGroupPickles (KeyGroupPayload (Dict Bytes Bytes) ⊕ KeyGroupPayload (List (Bytes × Bytes))) where
  memory := ⟨Sum.inl,fun | .inl payload => .ok payload | .inr _ => .error "UnpicklingError",fun _ => rfl⟩
  rocksDB := ⟨Sum.inr,fun | .inr payload => .ok payload | .inl _ => .error "UnpicklingError",fun _ => rfl⟩

def sessionBackend : MemoryStateBackend (Option (Fin 256)) :=
  (MemoryStateBackend.put sessionKeys ⟨some (some 1),∅,∅,∅⟩ session (some 3) none 0).2

def sessionKey : Bytes := [0,0,0,1,115,0,0,0,5,128,5,75,1,46,0,0,0,4,128,5,78,46]
def sessionValue : Bytes := [0,0,0,0,0,0,0,5,128,5,75,3,46]

def sessionOperator : ManagedStateOperator (StateBackendKind.memory.Backend (Option (Fin 256))) :=
  ⟨2,⟨0,1,by decide⟩,sessionBackend,⟨-1,by decide⟩⟩

def emptyOperator (index : Fin 2) : ManagedStateOperator (StateBackendKind.memory.Backend (Option (Fin 256))) :=
  ⟨2,⟨index,index,Nat.le_refl _⟩,MemoryStateBackend.init,⟨-1,by decide⟩⟩

theorem sessionBackend_entries : sessionBackend.state.entries = [(sessionKey,sessionValue)] ∧
    sessionBackend.expiry.entries = [([0,0,0,0,0,0,0,5] ++ sessionKey,[])] ∧ sessionBackend.timers.entries = [] := by
  decide +kernel

theorem memoryStore_lookup {Key : Type} (codec : KeyCodec Key) (b : MemoryStateBackend Key) (family : ColumnFamily) (key : Bytes) :
    (memoryStore codec bothPickles.memory).lookup b family key = (b.table family).get? key := rfl

theorem sessionKey_written : KeyOfState sessionKeys (some 1) sessionKey :=
  ⟨[115],[128,5,75,1,46],[128,5,78,46],by decide +kernel,by decide +kernel⟩

theorem sessionOperator_entries (family : ColumnFamily) (key value : Bytes)
    (inside : (memoryStore sessionKeys bothPickles.memory).lookup sessionOperator.backend family key = some value) :
    (family = .state ∧ key = sessionKey ∧ value = sessionValue) ∨
      (family = .expiry ∧ key = [0,0,0,0,0,0,0,5] ++ sessionKey ∧ value = []) := by
  have listed := (Dict.get?_eq_some _ _ _).mp inside
  cases family with
  | state =>
    change (key,value) ∈ sessionBackend.state.entries at listed
    rw [sessionBackend_entries.1,mem_singleton] at listed
    exact .inl ⟨rfl,Prod.mk.inj listed⟩
  | expiry =>
    change (key,value) ∈ sessionBackend.expiry.entries at listed
    rw [sessionBackend_entries.2.1,mem_singleton] at listed
    exact .inr ⟨rfl,Prod.mk.inj listed⟩
  | timers =>
    change (key,value) ∈ sessionBackend.timers.entries at listed
    rw [sessionBackend_entries.2.2] at listed
    contradiction

theorem sessionOperator_ownKeys :
    HasOwnKeys (memoryStore sessionKeys bothPickles.memory) 2 (fun _ _ => some 1) sessionOperator := by
  have read : decodeStateKey sessionKeys sessionKey = .ok ([115],some 1,none) := by decide +kernel
  have expires : expiryKey sessionKey (some 5) = .ok (some ([0,0,0,0,0,0,0,5] ++ sessionKey)) := by decide +kernel
  have grouped : ∃ group ∈ sessionOperator.keyGroupRange, keyGroupForKey sessionKeys (some 1) 2 = .ok group :=
    ⟨1,by decide,by decide +kernel⟩
  intro family key value inside
  rcases sessionOperator_entries family key value inside with ⟨rfl,rfl,rfl⟩ | ⟨rfl,rfl,rfl⟩
  · have indexed : indexKey sessionKey (some sessionValue) = .ok (some ([0,0,0,0,0,0,0,5] ++ sessionKey)) := by
      decide +kernel
    exact ⟨⟨⟨_,_,_,read⟩,⟨_,indexed⟩⟩,sessionKey_written,grouped⟩
  · exact ⟨⟨rfl,sessionKey,some 5,expires,_,_,_,read⟩,⟨sessionKey,some 5,expires,sessionKey_written⟩,grouped⟩

theorem sessionOperator_returns :
    Returns (memoryStore sessionKeys bothPickles.memory) 2 (fun _ _ => some 1) sessionOperator := by
  intro family key value inside
  rcases sessionOperator_entries family key value inside with ⟨rfl,rfl,rfl⟩ | ⟨rfl,rfl,rfl⟩
  · have read : stateGroup sessionKeys 2 (sessionKey,sessionValue) = keyGroupForKey sessionKeys (some 1) 2 := by decide +kernel
    exact ⟨read,trivial⟩
  · have read : expiryGroup sessionKeys 2 ([0,0,0,0,0,0,0,5] ++ sessionKey,[]) = keyGroupForKey sessionKeys (some 1) 2 := by
      decide +kernel
    exact ⟨read,trivial⟩

/-- The value moves to the second of two subtasks. -/
theorem session_moves : ∃ (fragments : Fin 1 → ManagedStatePayload _) (parts : Fin 2 → ManagedStatePayload _)
    (restored : Fin 2 → ManagedStateOperator (StateBackendKind.memory.Backend (Option (Fin 256)))),
    repartitionManagedStateSnapshots samePickle (List.ofFn fragments) 2 = .ok (List.ofFn parts) ∧
      (∀ j, (emptyOperator j).restoreState (memoryStore sessionKeys bothPickles.memory) samePickle (parts j) =
        (.ok (),restored j)) ∧
      (memoryStore sessionKeys bothPickles.memory).lookup (restored 1).backend .state sessionKey = some sessionValue := by
  have rescales := (keyed_state_rescales sessionKeys bothPickles samePickle .memory sessionKeys_readable 2 1 (by decide)
    (by decide) (fun _ => sessionOperator) (fun i => by rw [Fin.fin_one_eq_zero i]; exact ⟨rfl,rfl⟩) (fun _ _ => some 1)
    (fun _ => sessionOperator_ownKeys)).mpr (fun _ => sessionOperator_returns)
  obtain ⟨fragments,parts,restored,_,-,redistributed,done,contents,-⟩ := rescales 2 1 (by decide) (by decide) (by decide)
    (by decide) emptyOperator (fun j => by
      constructor
      · rfl
      · revert j
        decide +kernel)
  refine ⟨fragments,parts,restored,redistributed,done,(contents 1 .state sessionKey sessionValue).mpr ⟨⟨0,?_⟩,1,?_,?_⟩⟩
  · refine (memoryStore_lookup sessionKeys sessionBackend .state sessionKey).trans ((Dict.get?_eq_some _ _ _).mpr ?_)
    change (sessionKey,sessionValue) ∈ sessionBackend.state.entries
    rw [sessionBackend_entries.1]
    exact mem_singleton_self _
  · decide
  · decide +kernel

/-- `None`, the key `("fractions", Fraction(1, 3))` and its copy that is read back, whose
text is not the one that names the class. -/
inductive FractionKey where
  | none | interned | copied
deriving DecidableEq

def FractionKey.item : FractionKey → Bytes
  | .none => [78]
  | .interned => [140,9,102,114,97,99,116,105,111,110,115,148,104,0] ++ third
  | .copied => [140,9,102,114,97,99,116,105,111,110,115,148,140,9,102,114,97,99,116,105,111,110,115,148] ++ third
where third : Bytes := [140,8,70,114,97,99,116,105,111,110,148,147,148,75,1,75,3,134,148,82,148,134,148]

def FractionKey.framed (items : Bytes) : Bytes :=
  [128,5,149,⟨items.length % 256,Nat.mod_lt _ (by decide)⟩,0,0,0,0,0,0,0] ++ items

def FractionKey.pair (key space : FractionKey) : Bytes := framed (key.item ++ space.item ++ [134,148,46])

def FractionKey.copy : FractionKey → FractionKey
  | .none => .none
  | .interned | .copied => .copied

def FractionKey.pickled (key : FractionKey) : Bytes :=
  if key = .none then [128,5,78,46] else framed (key.item ++ [46])

/-- Pickle of such keys, and of pairs of them where one is `None`. -/
def fractionKeys : KeyCodec FractionKey where
  encodeKey := fun key => .ok key.pickled
  decodeKey := fun encoded => match [FractionKey.none,.interned,.copied].find? (fun key => key.pickled = encoded) with
    | some key => .ok key.copy
    | none => .error "UnpicklingError"
  encodePair := fun key space => .ok (key.pair space)
  dumpsPair := fun key space => .ok (key.pair space)
  loadsPair := fun encoded =>
    match ([FractionKey.none,.interned,.copied].product [FractionKey.none,.interned,.copied]).find?
      (fun pair => pair.1.pair pair.2 = encoded) with
    | some pair => .ok (pair.1.copy,pair.2.copy)
    | none => .error "UnpicklingError"
  sha256 := id
  keyHash := fun key => match key with
    | .none => 12769218685072163629
    | .interned => 4372622691921881641
    | .copied => 18348679381530440593

theorem fractionKeys_readable : fractionKeys.Readable where
  decode_encode := by
    rintro (_ | _ | _) encoded ok <;> cases ok <;> exact ⟨_,rfl⟩
  loads_dumps := by
    rintro (_ | _ | _) (_ | _ | _) encoded ok <;> cases ok <;> exact ⟨_,rfl⟩

def counted : StateDescriptor Bytes := ⟨[99],.ok,.ok,none⟩

def fractionBackend : MemoryStateBackend FractionKey :=
  (MemoryStateBackend.put fractionKeys ⟨some .interned,∅,∅,∅⟩ counted [7] .none 0).2

def fractionOperator (index : Fin 4) : ManagedStateOperator (StateBackendKind.memory.Backend FractionKey) :=
  ⟨128,⟨32 * index,32 * index + 31,by omega⟩,if index = 1 then fractionBackend else MemoryStateBackend.init,⟨-1,by decide⟩⟩

/-- A value of the key is at the second of four subtasks, which owns the key's group 41; the
snapshot looks for group 17, that of the copy, and drops the value. -/
theorem reread_key_dropped : ¬ ∀ (old : Fin 4 → ManagedStateOperator (StateBackendKind.memory.Backend FractionKey))
    (keyOf : ColumnFamily → Bytes → FractionKey), (∀ i : Fin 4, Opened 128 4 i (old i)) →
    (∀ i, HasOwnKeys (memoryStore fractionKeys bothPickles.memory) 128 keyOf (old i)) →
    Rescales (memoryStore fractionKeys bothPickles.memory) 128 keyOf samePickle old := by
  intro rescales
  let stateKey : Bytes := [0,0,0,1,99] ++ ([0,0,0,49] ++ FractionKey.interned.pickled) ++ ([0,0,0,4] ++ FractionKey.none.pickled)
  let encoded : Bytes := [255,255,255,255,255,255,255,255,7]
  have entries : fractionBackend.state.entries = [(stateKey,encoded)] ∧ fractionBackend.expiry.entries = [] ∧
      fractionBackend.timers.entries = [] := by decide +kernel
  have opened (i : Fin 4) : Opened 128 4 i (fractionOperator i) := by
    constructor
    · rfl
    · revert i
      decide +kernel
  have own (i : Fin 4) : HasOwnKeys (memoryStore fractionKeys bothPickles.memory) 128 (fun _ _ => .interned)
      (fractionOperator i) := by
    intro family key value inside
    change ((if i = 1 then fractionBackend else MemoryStateBackend.init).table family).get? key = some value at inside
    by_cases second : i = 1
    · subst second
      have listed := (Dict.get?_eq_some _ _ _).mp inside
      rw [if_pos rfl] at listed
      cases family with
      | state =>
        change (key,value) ∈ fractionBackend.state.entries at listed
        rw [entries.1,mem_singleton] at listed
        cases listed
        have read : decodeStateKey fractionKeys stateKey = .ok ([99],.copied,.none) := by decide +kernel
        have unindexed : indexKey stateKey (some encoded) = .ok none := by decide +kernel
        have components : readStateKey stateKey = .ok ([99],FractionKey.interned.pickled,FractionKey.none.pickled) := by
          decide +kernel
        exact ⟨⟨⟨_,_,_,read⟩,⟨_,unindexed⟩⟩,⟨_,_,_,components,rfl⟩,41,by decide,by decide +kernel⟩
      | expiry =>
        change (key,value) ∈ fractionBackend.expiry.entries at listed
        rw [entries.2.1] at listed
        contradiction
      | timers =>
        change (key,value) ∈ fractionBackend.timers.entries at listed
        rw [entries.2.2] at listed
        contradiction
    · rw [if_neg second] at inside
      cases family <;> cases inside
  have stored : (memoryStore fractionKeys bothPickles.memory).lookup (fractionOperator 1).backend .state stateKey =
      some encoded := by
    have second : (fractionOperator 1).backend = fractionBackend := rfl
    refine (memoryStore_lookup fractionKeys (fractionOperator 1).backend .state stateKey).trans ?_
    rw [second,MemoryStateBackend.table,Dict.get?_eq_some,entries.1]
    exact mem_singleton_self _
  have returns := returns_of_rescales (memoryStore fractionKeys bothPickles.memory) samePickle fractionKeys_readable 128 4
    (by decide) (by decide) fractionOperator opened (fun _ _ => .interned) own (rescales _ _ opened own) 1 .state stateKey encoded
    stored
  exact absurd returns.1 (by decide +kernel)

end examples
end Klein.State
