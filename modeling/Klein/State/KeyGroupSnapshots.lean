import Klein.State.MemoryStateBackend
import Klein.State.RocksDBStateBackend

/-! What the key-group snapshots of a backend hold, and what a backend holds after
restoring some of them. -/
namespace Klein.State
open Dict Fallible List Option

section bucketed
variable {γ : Type} (empty : γ) (groupOf : Bytes × Bytes → Except String Nat) (add : γ → Bytes × Bytes → γ)
variable (requested : List Nat) (group : Bytes × Bytes → Nat)

section
variable (entries : List (Bytes × Bytes)) (known : ∀ entry ∈ entries, groupOf entry = .ok (group entry))
  (buckets : Dict Nat γ)
include known buckets

theorem bucketed_spec : ∃ result, bucketed empty groupOf add requested buckets entries = .ok result ∧
      ∀ other, result.get? other = if other ∈ requested ∧ ∃ entry ∈ entries, group entry = other then
        some ((entries.filter (fun entry => group entry = other)).foldl add ((buckets.get? other).getD empty))
      else buckets.get? other := by
  induction entries generalizing buckets with
  | nil => exact ⟨buckets,rfl,fun other => by simp⟩
  | cons entry rest ih =>
    obtain ⟨here,known⟩ := forall_mem_cons.mp known
    have others (other : Nat) (different : group entry ≠ other) :
        (∃ item ∈ rest, group item = other) ↔ ∃ item ∈ entry::rest, group item = other := by
      simp [different]
    rw [bucketed,ok_bind here]
    by_cases wanted : group entry ∈ requested
    · rw [if_pos wanted]
      obtain ⟨result,done,spec⟩ := ih known
        (buckets.set (group entry) (add ((buckets.get? (group entry)).getD empty) entry))
      refine ⟨result,done,fun other => ?_⟩
      rw [spec]
      by_cases own : group entry = other
      · subst own
        by_cases later : ∃ item ∈ rest, group item = group entry
        · simp [wanted,later]
        · have none : rest.filter (fun item => group item = group entry) = [] :=
            filter_eq_nil_iff.mpr (fun item inside found => later ⟨item,inside,by simpa using found⟩)
          simp [wanted,later,none]
      · rw [Dict.get?_set,if_neg (Ne.symm own),filter_cons_of_neg (by simpa using own)]
        exact if_congr (and_congr_right (fun _ => others other own)) rfl rfl
    · rw [if_neg wanted]
      obtain ⟨result,done,spec⟩ := ih known buckets
      refine ⟨result,done,fun other => ?_⟩
      rw [spec]
      by_cases own : group entry = other
      · subst own
        simp [wanted]
      · rw [filter_cons_of_neg (by simpa using own)]
        exact if_congr (and_congr_right (fun _ => others other own)) rfl rfl

theorem bucketed_bucket : ∃ result, bucketed empty groupOf add requested buckets entries = .ok result ∧ ∀ other,
      ((result.get? other).getD empty = if other ∈ requested then
        (entries.filter (fun entry => group entry = other)).foldl add ((buckets.get? other).getD empty)
      else (buckets.get? other).getD empty) ∧
      ((result.get? other).isSome = true ↔ (buckets.get? other).isSome = true ∨
        other ∈ requested ∧ ∃ entry ∈ entries, group entry = other) := by
  obtain ⟨result,done,spec⟩ := bucketed_spec empty groupOf add requested group entries known buckets
  refine ⟨result,done,fun other => ?_⟩
  rw [spec]
  by_cases wanted : other ∈ requested
  · by_cases some' : ∃ entry ∈ entries, group entry = other
    · simp [wanted,some']
    · have none : entries.filter (fun entry => group entry = other) = [] :=
        filter_eq_nil_iff.mpr (fun item inside found => some' ⟨item,inside,by simpa using found⟩)
      simp [wanted,some',none]
  · simp [wanted]

end

end bucketed

section exported
variable {Key : Type} (codec : KeyCodec Key) (maxParallelism : Nat)

def familyGroup : ColumnFamily → Bytes × Bytes → Except String Nat
  | .state => stateGroup codec maxParallelism
  | .expiry => expiryGroup codec maxParallelism
  | .timers => timerGroup codec maxParallelism

variable {γ : Type} (empty : γ) (add : γ → Bytes × Bytes → γ) (requested : List Nat)
variable (tables : ColumnFamily → List (Bytes × Bytes)) (group : ColumnFamily → Bytes × Bytes → Nat)

def groupEntries (family : ColumnFamily) (other : Nat) : List (Bytes × Bytes) :=
  (tables family).filter (fun entry => group family entry = other)

theorem foldl_field (contents : KeyGroupContents γ) (entries : List (Bytes × Bytes)) :
    entries.foldl (fun (contents : KeyGroupContents γ) entry => {contents with state := add contents.state entry}) contents =
        {contents with state := entries.foldl add contents.state} ∧
      entries.foldl (fun (contents : KeyGroupContents γ) entry => {contents with expiry := add contents.expiry entry})
        contents = {contents with expiry := entries.foldl add contents.expiry} ∧
      entries.foldl (fun (contents : KeyGroupContents γ) entry => {contents with timers := add contents.timers entry})
        contents = {contents with timers := entries.foldl add contents.timers} := by
  induction entries generalizing contents with
  | nil => exact ⟨rfl,rfl,rfl⟩
  | cons entry rest ih =>
    exact ⟨(ih {contents with state := add contents.state entry}).1,
      (ih {contents with expiry := add contents.expiry entry}).2.1,
      (ih {contents with timers := add contents.timers entry}).2.2⟩

theorem exportKeyGroups_spec
    (known : ∀ family, ∀ entry ∈ tables family, familyGroup codec maxParallelism family entry = .ok (group family entry)) :
    ∃ result, exportKeyGroups codec maxParallelism empty add requested (tables .state) (tables .expiry) (tables .timers) =
        .ok result ∧
      (∀ other contents, result.get? other = some contents → other ∈ requested ∧
        ∀ family, contents.of family = (groupEntries tables group family other).foldl add empty) ∧
      ∀ other ∈ requested, ∀ family, ∀ entry ∈ tables family, group family entry = other →
        ∃ contents, result.get? other = some contents := by
  obtain ⟨first,done,state⟩ := bucketed_bucket (⟨empty,empty,empty⟩ : KeyGroupContents γ)
    (stateGroup codec maxParallelism) (fun contents entry => {contents with state := add contents.state entry})
    requested (group .state) (tables .state) (known .state) ∅
  obtain ⟨second,done',expiry⟩ := bucketed_bucket (⟨empty,empty,empty⟩ : KeyGroupContents γ)
    (expiryGroup codec maxParallelism) (fun contents entry => {contents with expiry := add contents.expiry entry})
    requested (group .expiry) (tables .expiry) (known .expiry) first
  obtain ⟨third,done'',timers⟩ := bucketed_bucket (⟨empty,empty,empty⟩ : KeyGroupContents γ)
    (timerGroup codec maxParallelism) (fun contents entry => {contents with timers := add contents.timers entry})
    requested (group .timers) (tables .timers) (known .timers) second
  refine ⟨third,?_,fun other contents found => ?_,fun other wanted family entry inside own => ?_⟩
  · unfold exportKeyGroups
    rw [ok_bind done,ok_bind done']
    exact done''
  · have present : (third.get? other).isSome = true := by simp [found]
    have wanted : other ∈ requested := by
      rcases (timers other).2.mp present with present | ⟨wanted,-⟩
      · rcases (expiry other).2.mp present with present | ⟨wanted,-⟩
        · rcases (state other).2.mp present with impossible | ⟨wanted,-⟩
          · contradiction
          · exact wanted
        · exact wanted
      · exact wanted
    have whole := (timers other).1
    rw [found,if_pos wanted,(expiry other).1,if_pos wanted,(state other).1,if_pos wanted,(foldl_field add _ _).1,
      (foldl_field add _ _).2.1,(foldl_field add _ _).2.2] at whole
    refine ⟨wanted,fun family => ?_⟩
    obtain rfl := whole
    cases family <;> rfl
  · have present : (third.get? other).isSome = true := by
      refine (timers other).2.mpr ?_
      cases family with
      | timers => exact .inr ⟨wanted,entry,inside,own⟩
      | expiry => exact .inl ((expiry other).2.mpr (.inr ⟨wanted,entry,inside,own⟩))
      | state => exact .inl ((expiry other).2.mpr (.inl ((state other).2.mpr (.inr ⟨wanted,entry,inside,own⟩))))
    exact isSome_iff_exists.mp present

end exported

section snapshotted
variable {Blob : Type} (table : ColumnFamily → Bytes → Option Bytes) (group : ColumnFamily → Bytes × Bytes → Nat)
variable (requested : List Nat) (Readable : Blob → Prop) (Carries : Blob → ColumnFamily → Bytes → Bytes → Prop)
variable (snapshots : Dict Nat Blob)

def Snapshotted : Prop :=
  (∀ other snapshot, snapshots.get? other = some snapshot → other ∈ requested ∧ Readable snapshot ∧
    ∀ family key value, Carries snapshot family key value ↔ table family key = some value ∧ group family (key,value) = other) ∧
  ∀ other ∈ requested, ∀ family key value, table family key = some value →
    group family (key,value) = other → ∃ snapshot, snapshots.get? other = some snapshot

variable {table group requested Readable Carries snapshots}

section
variable (held : Snapshotted table group requested Readable Carries snapshots)
include held

theorem Snapshotted.each (snapshot : Blob)
    (inside : snapshot ∈ snapshots.values) : Readable snapshot ∧ ∃ other ∈ requested, ∀ family key value,
      Carries snapshot family key value ↔ table family key = some value ∧ group family (key,value) = other := by
  obtain ⟨other,found⟩ := (mem_values _ _).mp inside
  obtain ⟨wanted,readable,carries⟩ := held.1 other snapshot found
  exact ⟨readable,other,wanted,carries⟩

theorem Snapshotted.stored (snapshot : Blob)
    (inside : snapshot ∈ snapshots.values) (family : ColumnFamily) (key value : Bytes) (carried : Carries snapshot family key value) :
    table family key = some value := by
  obtain ⟨-,other,-,carries⟩ := held.each snapshot inside
  exact ((carries family key value).mp carried).1

theorem Snapshotted.carried (family : ColumnFamily)
    (key value : Bytes) : (∃ snapshot ∈ snapshots.values, Carries snapshot family key value) ↔
      table family key = some value ∧ group family (key,value) ∈ requested := by
  constructor
  · rintro ⟨snapshot,inside,carried⟩
    obtain ⟨-,other,wanted,carries⟩ := held.each snapshot inside
    obtain ⟨stored,rfl⟩ := (carries family key value).mp carried
    exact ⟨stored,wanted⟩
  · rintro ⟨stored,wanted⟩
    obtain ⟨snapshot,found⟩ := held.2 _ wanted family key value stored rfl
    exact ⟨snapshot,(mem_values _ _).mpr ⟨_,found⟩,((held.1 _ snapshot found).2.2 family key value).mpr ⟨stored,rfl⟩⟩

end

end snapshotted

section memory
variable {Key Blob : Type} (codec : KeyCodec Key) (pickle : Pickle (KeyGroupPayload (Dict Bytes Bytes)) Blob)
variable (b : MemoryStateBackend Key)

namespace MemoryStateBackend

def Carries (snapshot : Blob) (family : ColumnFamily) (key value : Bytes) : Prop :=
  ∃ contents, loadKeyGroup pickle snapshot = .ok contents ∧ (contents.of family).get? key = some value

theorem loadKeyGroup_dumps (contents : KeyGroupContents (Dict Bytes Bytes)) :
    loadKeyGroup pickle (pickle.dumps ⟨formatVersion,keyEncodingVersion,contents⟩) = .ok contents := by
  unfold loadKeyGroup
  rw [pickle.loads_dumps]
  rfl

theorem snapshotKeyGroups_spec (maxParallelism : Nat) (requested : List Nat) (group : ColumnFamily → Bytes × Bytes → Nat)
    (known : ∀ family, ∀ entry ∈ (b.table family).entries,
      familyGroup codec maxParallelism family entry = .ok (group family entry)) :
    ∃ snapshots, b.snapshotKeyGroups codec pickle maxParallelism requested = .ok snapshots ∧
      Snapshotted (fun family => (b.table family).get?) group requested
        (fun snapshot => ∃ contents, loadKeyGroup pickle snapshot = .ok contents) (Carries pickle) snapshots := by
  obtain ⟨buckets,done,each,all⟩ := exportKeyGroups_spec codec maxParallelism (∅ : Dict Bytes Bytes)
    (fun dict entry => dict.set entry.1 entry.2) requested (fun family => (b.table family).entries) group known
  refine ⟨buckets.mapValues (fun _ contents => pickle.dumps ⟨formatVersion,keyEncodingVersion,contents⟩),?_,?_,?_⟩
  · unfold snapshotKeyGroups
    exact ok_bind done
  · intro other snapshot found
    rw [get?_mapValues] at found
    obtain ⟨contents,held,rfl⟩ := map_eq_some_iff.mp found
    obtain ⟨wanted,fields⟩ := each other contents held
    have loaded := loadKeyGroup_dumps pickle contents
    refine ⟨wanted,⟨contents,loaded⟩,fun family key value => ?_⟩
    have lookup : (contents.of family).get? key = (((b.table family).filter
        (fun key value => group family (key,value) = other)).get? key) := by
      rw [fields family]
      refine (get?_update ∅ ((b.table family).filter (fun key value => group family (key,value) = other)) key).trans ?_
      simp
    constructor
    · rintro ⟨contents',loaded',inside⟩
      obtain rfl := Except.ok.inj (loaded.symm.trans loaded')
      rw [lookup,Dict.get?_filter,filter_eq_some_iff] at inside
      exact ⟨inside.1,by simpa using inside.2⟩
    · rintro ⟨inside,own⟩
      refine ⟨contents,loaded,?_⟩
      rw [lookup,Dict.get?_filter,filter_eq_some_iff]
      exact ⟨inside,by simpa using own⟩
  · intro other wanted family key value inside own
    obtain ⟨contents,held⟩ := all other wanted family (key,value) ((Dict.get?_eq_some _ _ _).mp inside) own
    exact ⟨_,by rw [get?_mapValues,held]; rfl⟩

theorem merged_get? (dicts : List (Dict Bytes Bytes)) (whole : Bytes → Option Bytes)
    (consistent : ∀ dict ∈ dicts, ∀ key value, dict.get? key = some value → whole key = some value) (key value : Bytes) :
    (dicts.foldl (fun merged dict => Dict.update merged dict.entries) ∅).get? key = some value ↔
      ∃ dict ∈ dicts, dict.get? key = some value := by
  have general (merged : Dict Bytes Bytes) (within : ∀ key value, merged.get? key = some value → whole key = some value) :
      (dicts.foldl (fun merged dict => merged.update dict.entries) merged).get? key = some value ↔
        merged.get? key = some value ∨ ∃ dict ∈ dicts, dict.get? key = some value := by
    induction dicts generalizing merged with
    | nil => simp
    | cons dict rest ih =>
      obtain ⟨here,later⟩ := forall_mem_cons.mp consistent
      have either (key value : Bytes) : (merged.update dict.entries).get? key = some value ↔
          dict.get? key = some value ∨ merged.get? key = some value := by
        rw [get?_update,or_eq_some_iff]
        constructor
        · exact Or.imp_right And.right
        · rintro (own | old)
          · exact .inl own
          · cases found : dict.get? key with
            | none => exact .inr ⟨rfl,old⟩
            | some other =>
              have same := (here key other found).symm.trans (within key value old)
              exact .inl same
      rw [foldl_cons,ih later (merged.update dict.entries)
        (fun key value found => ((either key value).mp found).elim (here key value) (within key value)),either]
      simp only [mem_cons,exists_eq_or_imp]
      tauto
  rw [general ∅ (by simp)]
  simp

theorem restoreKeyGroups_spec (snapshots : Dict Nat Blob)
    (readable : ∀ snapshot ∈ snapshots.values, ∃ contents, loadKeyGroup pickle snapshot = .ok contents)
    (whole : ColumnFamily → Bytes → Option Bytes) (consistent : ∀ snapshot ∈ snapshots.values, ∀ family key value,
      Carries pickle snapshot family key value → whole family key = some value) :
    ∃ next, b.restoreKeyGroups pickle snapshots = (.ok (),next) ∧ next.currentKey = b.currentKey ∧
      ∀ family key value, (next.table family).get? key = some value ↔
        ∃ snapshot ∈ snapshots.values, Carries pickle snapshot family key value := by
  obtain ⟨payloads,done,spec⟩ := mapM_ok snapshots.values (loadKeyGroup pickle) readable
  unfold restoreKeyGroups
  rw [done]
  refine ⟨_,rfl,rfl,fun family key value => ?_⟩
  have table : (({b with
      state := payloads.foldl (fun state payload => state.update payload.state.entries) ∅
      expiry := payloads.foldl (fun expiry payload => expiry.update payload.expiry.entries) ∅
      timers := payloads.foldl (fun timers payload => timers.update payload.timers.entries) ∅} :
        MemoryStateBackend Key).table family) =
      (payloads.map (fun payload => payload.of family)).foldl (fun merged dict => merged.update dict.entries) ∅ := by
    rw [foldl_map]
    cases family <;> rfl
  rw [table,merged_get? _ (whole family)]
  · constructor
    · rintro ⟨dict,member,inside⟩
      obtain ⟨contents,listed,rfl⟩ := List.mem_map.mp member
      obtain ⟨snapshot,held,loaded⟩ := (spec contents).mp listed
      exact ⟨snapshot,held,contents,loaded,inside⟩
    · rintro ⟨snapshot,held,contents,loaded,inside⟩
      exact ⟨_,List.mem_map.mpr ⟨contents,(spec contents).mpr ⟨snapshot,held,loaded⟩,rfl⟩,inside⟩
  · intro dict member key value inside
    obtain ⟨contents,listed,rfl⟩ := List.mem_map.mp member
    obtain ⟨snapshot,held,loaded⟩ := (spec contents).mp listed
    exact consistent snapshot held family key value ⟨contents,loaded,inside⟩

theorem snapshot_restore (maxParallelism : Nat) (requested : List Nat) (group : ColumnFamily → Bytes × Bytes → Nat)
    (known : ∀ family, ∀ entry ∈ (b.table family).entries,
      familyGroup codec maxParallelism family entry = .ok (group family entry)) :
    ∃ snapshots next, b.snapshotKeyGroups codec pickle maxParallelism requested = .ok snapshots ∧
      b.restoreKeyGroups pickle snapshots = (.ok (),next) ∧ next.currentKey = b.currentKey ∧
      ∀ family key value, (next.table family).get? key = some value ↔
        (b.table family).get? key = some value ∧ group family (key,value) ∈ requested := by
  obtain ⟨snapshots,done,held⟩ := b.snapshotKeyGroups_spec codec pickle maxParallelism requested group known
  obtain ⟨next,restored,currentKey,spec⟩ := b.restoreKeyGroups_spec pickle snapshots
    (fun snapshot inside => (held.each snapshot inside).1) (fun family => (b.table family).get?) held.stored
  exact ⟨snapshots,next,done,restored,currentKey,fun family key value => (spec family key value).trans (held.carried family key value)⟩

end MemoryStateBackend
end memory

section rocksDB
variable {Key Blob : Type} (codec : KeyCodec Key) (pickle : Pickle (KeyGroupPayload (List (Bytes × Bytes))) Blob)
variable (b : RocksDBStateBackend Key)

namespace RocksDBStateBackend

def Carries (snapshot : Blob) (family : ColumnFamily) (key value : Bytes) : Prop :=
  ∃ contents, loadKeyGroup pickle snapshot = .ok contents ∧ (key,value) ∈ contents.of family

theorem loadKeyGroup_dumps (contents : KeyGroupContents (List (Bytes × Bytes))) :
    loadKeyGroup pickle (pickle.dumps ⟨formatVersion,keyEncodingVersion,contents⟩) = .ok contents := by
  unfold loadKeyGroup
  rw [pickle.loads_dumps]
  rfl

theorem collected (entries before : List (Bytes × Bytes)) :
    entries.foldl (fun entries entry => entries ++ [entry]) before = before ++ entries := by
  induction entries generalizing before with
  | nil => simp
  | cons entry rest ih => rw [foldl_cons,ih,append_assoc,singleton_append]

theorem snapshotKeyGroups_spec (maxParallelism : Nat) (requested : List Nat) (group : ColumnFamily → Bytes × Bytes → Nat)
    (known : ∀ family, ∀ entry ∈ (b.table family).entries,
      familyGroup codec maxParallelism family entry = .ok (group family entry)) :
    ∃ snapshots, b.snapshotKeyGroups codec pickle maxParallelism requested = .ok snapshots ∧
      Snapshotted (fun family => (b.table family).get?) group requested
        (fun snapshot => ∃ contents, loadKeyGroup pickle snapshot = .ok contents) (Carries pickle) snapshots := by
  obtain ⟨buckets,done,each,all⟩ := exportKeyGroups_spec codec maxParallelism ([] : List (Bytes × Bytes))
    (fun entries entry => entries ++ [entry]) requested (fun family => (b.table family).entries) group known
  refine ⟨buckets.mapValues (fun _ contents => pickle.dumps ⟨formatVersion,keyEncodingVersion,contents⟩),?_,?_,?_⟩
  · unfold snapshotKeyGroups
    exact ok_bind done
  · intro other snapshot found
    rw [get?_mapValues] at found
    obtain ⟨contents,held,rfl⟩ := map_eq_some_iff.mp found
    obtain ⟨wanted,fields⟩ := each other contents held
    have loaded := loadKeyGroup_dumps pickle contents
    refine ⟨wanted,⟨contents,loaded⟩,fun family key value => ?_⟩
    have member : (key,value) ∈ contents.of family ↔
        (b.table family).get? key = some value ∧ group family (key,value) = other := by
      rw [fields family,collected,nil_append,OrderedMap.get?_eq_some]
      simp [groupEntries]
    rw [← member]
    constructor
    · rintro ⟨contents',loaded',inside⟩
      obtain rfl := Except.ok.inj (loaded.symm.trans loaded')
      exact inside
    · exact fun inside => ⟨contents,loaded,inside⟩
  · intro other wanted family key value inside own
    obtain ⟨contents,held⟩ := all other wanted family (key,value) ((OrderedMap.get?_eq_some _ _ _).mp inside) own
    exact ⟨_,by rw [get?_mapValues,held]; rfl⟩

theorem validated (items : List (ColumnFamily × Bytes × Bytes)) (whole : ColumnFamily → Bytes → Option Bytes)
    (valid : ∀ item ∈ items, validateKeyGroupEntry codec item.1 item.2 = .ok () ∧ whole item.1 item.2.1 = some item.2.2)
    (seen : Dict (ColumnFamily × Bytes) Bytes)
    (within : ∀ family key value, seen.get? (family,key) = some value → whole family key = some value) :
    ∃ result, validatedKeyGroupEntries codec seen items = .ok result ∧ ∀ family key value,
      result.get? (family,key) = some value ↔ seen.get? (family,key) = some value ∨ (family,key,value) ∈ items := by
  induction items generalizing seen with
  | nil => exact ⟨seen,rfl,by simp⟩
  | cons item rest ih =>
    obtain ⟨family,key,value⟩ := item
    obtain ⟨⟨checked,known⟩,later⟩ := forall_mem_cons.mp valid
    rw [validatedKeyGroupEntries,ok_bind checked]
    cases found : seen.get? (family,key) with
    | some previous =>
      have same : previous = value := some.inj ((within family key previous found).symm.trans known)
      subst same
      obtain ⟨result,done,spec⟩ := ih later seen within
      dsimp only
      rw [if_pos rfl]
      refine ⟨result,done,fun other key' value' => ?_⟩
      rw [spec,mem_cons]
      constructor
      · exact Or.imp_right Or.inr
      · rintro (old | own | new)
        · exact .inl old
        · obtain ⟨rfl,rfl,rfl⟩ : other = family ∧ key' = key ∧ value' = previous := by simpa using own
          exact .inl found
        · exact .inr new
    | none =>
      have within' (other : ColumnFamily) (key' value' : Bytes)
          (held : (seen.set (family,key) value).get? (other,key') = some value') : whole other key' = some value' := by
        rw [Dict.get?_set] at held
        split at held
        next own =>
          obtain ⟨rfl,rfl⟩ := Prod.mk.inj own
          exact known.trans held
        next => exact within other key' value' held
      obtain ⟨result,done,spec⟩ := ih later (seen.set (family,key) value) within'
      refine ⟨result,done,fun other key' value' => ?_⟩
      rw [spec,Dict.get?_set,mem_cons]
      by_cases own : (other,key') = (family,key)
      · obtain ⟨rfl,rfl⟩ := Prod.mk.inj own
        simp [found,eq_comm]
      · rw [if_neg own]
        have different : ¬ (other,key',value') = (family,key,value) := fun same => own (by
          obtain ⟨rfl,rest'⟩ := Prod.mk.inj same
          rw [(Prod.mk.inj rest').1])
        simp [different]

theorem staged_get? (seen : Dict (ColumnFamily × Bytes) Bytes) (family : ColumnFamily) (key : Bytes) :
    (staged seen family).get? key = seen.get? (family,key) := by
  have general (items : List ((ColumnFamily × Bytes) × Bytes)) (distinct : (items.map Prod.fst).Nodup)
      (own : ∀ item ∈ items, item.1.1 = family) (map : OrderedMap Bytes Bytes) :
      (items.foldl (fun map item => map.set item.1.2 item.2) map).get? key =
        ((items.find? (fun item => item.1 = (family,key))).map Prod.snd).or (map.get? key) := by
    induction items generalizing map with
    | nil => rfl
    | cons item rest ih =>
      obtain ⟨absent,distinct⟩ := nodup_cons.mp distinct
      obtain ⟨here,later⟩ := forall_mem_cons.mp own
      rw [foldl_cons,ih distinct later,OrderedMap.get?_set]
      by_cases same : item.1 = (family,key)
      · have missing : rest.find? (fun item => item.1 = (family,key)) = none := by
          refine find?_eq_none.mpr (fun other inside found => absent ?_)
          have equal : other.1 = (family,key) := by simpa using found
          exact List.mem_map.mpr ⟨other,inside,equal.trans same.symm⟩
        simp [same,missing]
      · have different : ¬ key = item.1.2 := fun equal => same (Prod.ext here equal.symm)
        simp [same,different]
  have filtered : seen.get? (family,key) = (seen.filter (fun entry _ => entry.1 = family)).get? (family,key) := by
    rw [Dict.get?_filter]
    cases seen.get? (family,key) <;> simp [Option.filter]
  rw [filtered]
  refine (general _ (seen.filter (fun entry _ => entry.1 = family)).distinct ?_ ∅).trans ?_
  · intro item inside
    simpa using (mem_filter.mp inside).2
  · exact or_none

theorem mem_payloadEntries (contents : KeyGroupContents (List (Bytes × Bytes))) (family : ColumnFamily) (key value : Bytes) :
    (family,key,value) ∈ payloadEntries contents ↔ (key,value) ∈ contents.of family := by
  cases family <;> simp [payloadEntries,KeyGroupContents.of]

theorem of_validated (items : List (ColumnFamily × Bytes × Bytes)) (seen result : Dict (ColumnFamily × Bytes) Bytes)
    (done : validatedKeyGroupEntries codec seen items = .ok result) :
    ∀ item ∈ items, validateKeyGroupEntry codec item.1 item.2 = .ok () := by
  induction items generalizing seen with
  | nil => simp
  | cons item rest ih =>
    obtain ⟨family,key,value⟩ := item
    obtain ⟨⟨⟩,checked,done⟩ := bind_ok done
    refine forall_mem_cons.mpr ⟨checked,?_⟩
    split at done
    next =>
      split at done
      next => exact ih seen done
      next => cases done
    next => exact ih _ done

theorem restoreKeyGroups_valid (snapshots : Dict Nat Blob) (next : RocksDBStateBackend Key)
    (done : b.restoreKeyGroups codec pickle snapshots = (.ok (),next)) :
    ∀ snapshot ∈ snapshots.values, ∀ family key value, Carries pickle snapshot family key value →
      validateKeyGroupEntry codec family (key,value) = .ok () := by
  unfold restoreKeyGroups at done
  split at done
  next => cases done
  next seen taken =>
    obtain ⟨payloads,loaded,valid⟩ := bind_ok taken
    rintro snapshot inside family key value ⟨contents,own,carried⟩
    obtain ⟨payloads',again,spec⟩ := mapM_ok _ _ (of_mapM_ok _ _ _ loaded)
    obtain rfl := Except.ok.inj (loaded.symm.trans again)
    have listed := (spec contents).mpr ⟨snapshot,inside,own⟩
    have item := (mem_payloadEntries contents family key value).mpr carried
    exact of_validated codec _ _ _ valid (family,key,value) (mem_flatMap.mpr ⟨contents,listed,item⟩)

theorem restoreKeyGroups_spec (snapshots : Dict Nat Blob)
    (readable : ∀ snapshot ∈ snapshots.values, ∃ contents, loadKeyGroup pickle snapshot = .ok contents)
    (whole : ColumnFamily → Bytes → Option Bytes) (consistent : ∀ snapshot ∈ snapshots.values, ∀ family key value,
      Carries pickle snapshot family key value →
        validateKeyGroupEntry codec family (key,value) = .ok () ∧ whole family key = some value) :
    ∃ next, b.restoreKeyGroups codec pickle snapshots = (.ok (),next) ∧ next.currentKey = b.currentKey ∧
      ∀ family key value, (next.table family).get? key = some value ↔
        ∃ snapshot ∈ snapshots.values, Carries pickle snapshot family key value := by
  obtain ⟨payloads,done,spec⟩ := mapM_ok snapshots.values (loadKeyGroup pickle) readable
  have carried (family : ColumnFamily) (key value : Bytes) : (family,key,value) ∈ payloads.flatMap payloadEntries ↔
      ∃ snapshot ∈ snapshots.values, Carries pickle snapshot family key value := by
    simp only [mem_flatMap,mem_payloadEntries,spec]
    constructor
    · rintro ⟨contents,⟨snapshot,held,loaded⟩,inside⟩
      exact ⟨snapshot,held,contents,loaded,inside⟩
    · rintro ⟨snapshot,held,contents,loaded,inside⟩
      exact ⟨contents,⟨snapshot,held,loaded⟩,inside⟩
  obtain ⟨seen,taken,all⟩ := validated codec (payloads.flatMap payloadEntries) whole (fun item inside => by
    obtain ⟨snapshot,held,carries⟩ := (carried item.1 item.2.1 item.2.2).mp inside
    exact consistent snapshot held _ _ _ carries) ∅ (by simp)
  have whole' : (snapshots.values.mapM (loadKeyGroup pickle) >>= fun payloads =>
      validatedKeyGroupEntries codec ∅ (payloads.flatMap payloadEntries)) = .ok seen := by
    rw [ok_bind done]
    exact taken
  unfold restoreKeyGroups
  rw [whole']
  refine ⟨_,rfl,rfl,fun family key value => ?_⟩
  have table : (({b with
      state := staged seen .state
      expiry := staged seen .expiry
      timers := staged seen .timers} : RocksDBStateBackend Key).table family) = staged seen family := by
    cases family <;> rfl
  rw [table,staged_get?,all,carried]
  simp

theorem snapshot_restore (maxParallelism : Nat) (requested : List Nat) (group : ColumnFamily → Bytes × Bytes → Nat)
    (known : ∀ family, ∀ entry ∈ (b.table family).entries,
      familyGroup codec maxParallelism family entry = .ok (group family entry))
    (valid : ∀ family key value, (b.table family).get? key = some value → group family (key,value) ∈ requested →
      validateKeyGroupEntry codec family (key,value) = .ok ()) :
    ∃ snapshots next, b.snapshotKeyGroups codec pickle maxParallelism requested = .ok snapshots ∧
      b.restoreKeyGroups codec pickle snapshots = (.ok (),next) ∧ next.currentKey = b.currentKey ∧
      ∀ family key value, (next.table family).get? key = some value ↔
        (b.table family).get? key = some value ∧ group family (key,value) ∈ requested := by
  obtain ⟨snapshots,done,held⟩ := b.snapshotKeyGroups_spec codec pickle maxParallelism requested group known
  obtain ⟨next,restored,currentKey,spec⟩ := b.restoreKeyGroups_spec codec pickle snapshots
    (fun snapshot inside => (held.each snapshot inside).1) (fun family => (b.table family).get?)
    (fun snapshot inside family key value carries => by
      obtain ⟨stored,wanted⟩ := (held.carried family key value).mp ⟨snapshot,inside,carries⟩
      exact ⟨valid family key value stored wanted,stored⟩)
  exact ⟨snapshots,next,done,restored,currentKey,fun family key value => (spec family key value).trans (held.carried family key value)⟩

end RocksDBStateBackend
end rocksDB
end Klein.State
