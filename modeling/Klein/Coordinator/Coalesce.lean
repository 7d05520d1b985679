import Mathlib.Data.List.Dedup
import Klein.DictBag
import Klein.Fallible
import Klein.Coordinator.Progress

/-! What coalescing does to the writers of the transactions: it regroups them and
loses none, and the identity of a coalesced transaction determines its writers
(`runtime/coordinator/sink_committable_coalescer.py`). -/
namespace Klein.Coordinator
open Dict Fallible List Option

variable {β : Type} (c : Config β)

def writersOf (entries : List SinkEntry) : List Writer := entries.flatMap SinkEntry.writers

def Single (entry : SinkEntry) : Prop :=
  ∃ vertex, entry.taskKey = .subtask vertex ∧
    entry.writers = [⟨vertex,entry.checkpointId,entry.committable.transactionId⟩]

def Grouped (entry : SinkEntry) : Prop :=
  ∃ logicalSinkId space, entry.taskKey = .global logicalSinkId ∧ ':' ∉ space.toList ∧ entry.writers ≠ [] ∧
    entry.writers.Nodup ∧ (∀ writer ∈ entry.writers, writer.checkpointId = entry.checkpointId) ∧
    entry.committable.transactionId = globalTransactionId c space logicalSinkId entry.checkpointId
      ((entry.writers.map Writer.transactionId).insertionSort (· ≤ ·))

def Formed (entry : SinkEntry) : Prop := Single entry ∨ Grouped c entry

def CombinerNames : Prop :=
  ∀ group transactionId committable, c.combine group transactionId = some committable →
    committable.transactionId = transactionId

theorem Formed.writers_ne_nil (entry : SinkEntry) (formed : Formed c entry) : entry.writers ≠ [] := by
  rcases formed with ⟨vertex,-,writers⟩ | ⟨_,_,-,-,nonempty,-⟩
  · simp [writers]
  · exact nonempty

theorem Formed.checkpointId (entry : SinkEntry) (formed : Formed c entry) (writer : Writer)
    (inside : writer ∈ entry.writers) : writer.checkpointId = entry.checkpointId := by
  rcases formed with ⟨vertex,-,writers⟩ | ⟨_,_,-,-,-,-,same,-⟩
  · rw [writers,mem_singleton] at inside
    rw [inside]
  · exact same writer inside

theorem Formed.nodup (entry : SinkEntry) (formed : Formed c entry) : entry.writers.Nodup := by
  rcases formed with ⟨vertex,-,writers⟩ | ⟨_,_,-,-,-,nodup,-⟩
  · simp [writers]
  · exact nodup

theorem writersOf_cons (entry : SinkEntry) (rest : List SinkEntry) :
    writersOf (entry::rest) = entry.writers ++ writersOf rest := flatMap_cons

theorem writersOf_append (first second : List SinkEntry) :
    writersOf (first ++ second) = writersOf first ++ writersOf second := flatMap_append

theorem writersOf_perm (first second : List SinkEntry) (same : first.Perm second) :
    (writersOf first).Perm (writersOf second) := same.flatMap_right _

theorem writersOf_singles (group : List SinkEntry) (checkpointId : Int)
    (singles : ∀ member ∈ group, Single member ∧ member.checkpointId = checkpointId) :
    (writersOf group).map Writer.transactionId = group.map (fun entry => entry.committable.transactionId) ∧
      (writersOf group).map (fun writer => TaskKey.subtask writer.vertex) = group.map SinkEntry.taskKey ∧
      ∀ writer ∈ writersOf group, writer.checkpointId = checkpointId := by
  induction group with
  | nil => simp [writersOf]
  | cons entry rest ih =>
    obtain ⟨ids,keys,checkpoints⟩ := ih (fun member inside => singles member (by simp [inside]))
    obtain ⟨⟨vertex,key,writers⟩,same⟩ := singles entry (by simp)
    rw [writersOf_cons,writers]
    refine ⟨by simp [ids],by simp [keys,key],fun writer inside => ?_⟩
    rcases mem_cons.mp inside with rfl | later
    · exact same
    · exact checkpoints writer later

theorem combineGroup_grouped (names : CombinerNames c) (checkpointId : Int) (logicalSinkId : Nat) (group : List SinkEntry)
    (entry : SinkEntry) (singles : ∀ member ∈ group, Single member ∧ member.checkpointId = checkpointId)
    (apart : (group.map SinkEntry.taskKey).Nodup) (done : combineGroup c checkpointId logicalSinkId group = .ok entry) :
    entry.taskKey = .global logicalSinkId ∧ entry.checkpointId = checkpointId ∧ entry.writers = writersOf group ∧
      Grouped c entry := by
  obtain ⟨ids,keys,checkpoints⟩ := writersOf_singles group checkpointId singles
  unfold combineGroup at done
  split at done
  next space unique =>
    split at done
    next => contradiction
    next plain =>
      dsimp only at done
      split at done
      next committable combined =>
        split at done
        next =>
          cases done
          refine ⟨rfl,rfl,rfl,logicalSinkId,space,rfl,fun colon => plain (.inr colon),?_,.of_map _ (keys ▸ apart),checkpoints,?_⟩
          · intro nothing
            have empty : group = [] := by
              have none := congrArg (List.map Writer.transactionId) nothing
              rw [map_nil] at none
              exact map_eq_nil_iff.mp (ids.symm.trans none)
            simp [empty,dedup_nil] at unique
          · refine (names _ _ _ combined).trans ?_
            exact congrArg (fun list : List String => globalTransactionId c space logicalSinkId checkpointId
              (list.insertionSort (· ≤ ·))) ids.symm
        next => contradiction
      next => contradiction
  next => contradiction

theorem coalesceGroup_spec (names : CombinerNames c) (checkpointId : Int) (result next : Dict TaskKey SinkEntry)
    (group : Nat × List SinkEntry)
    (singles : ∀ member ∈ group.2, Single member ∧ member.checkpointId = checkpointId)
    (apart : (group.2.map SinkEntry.taskKey).Nodup) (done : coalesceGroup c checkpointId result group = .ok next) :
    ∃ entry, next = result.set entry.taskKey entry ∧ entry.checkpointId = checkpointId ∧ Formed c entry ∧
      entry.writers = writersOf group.2 ∧
      (entry.taskKey = .global group.1 ∨ ∃ member ∈ group.2, entry.taskKey = member.taskKey) := by
  unfold coalesceGroup at done
  split at done
  next logicalSinkId entry =>
    cases done
    obtain ⟨single,same⟩ := singles entry (by simp)
    exact ⟨entry,rfl,same,.inl single,by simp [writersOf],.inr ⟨entry,by simp,rfl⟩⟩
  next logicalSinkId members _ =>
    split at done
    next entry combined =>
      cases done
      obtain ⟨key,same,writers,grouped⟩ := combineGroup_grouped c names checkpointId logicalSinkId members entry singles
        apart combined
      exact ⟨entry,by rw [key],same,.inr grouped,writers,.inl key⟩
    next => contradiction

theorem coalesceGroups_spec (names : CombinerNames c) (checkpointId : Int) (groups : List (Nat × List SinkEntry))
    (result final : Dict TaskKey SinkEntry) (distinct : (groups.map Prod.fst).Nodup)
    (apart : ((groups.flatMap Prod.snd).map SinkEntry.taskKey).Nodup)
    (singles : ∀ member ∈ groups.flatMap Prod.snd, Single member ∧ member.checkpointId = checkpointId)
    (fresh : ∀ group ∈ groups, result.get? (.global group.1) = none ∧
      ∀ member ∈ group.2, result.get? member.taskKey = none)
    (done : groups.foldlM (coalesceGroup c checkpointId) result = .ok final) :
    (writersOf final.values).Perm (writersOf result.values ++ writersOf (groups.flatMap Prod.snd)) ∧
      ∀ key entry, final.get? key = some entry → result.get? key = some entry ∨
        entry.taskKey = key ∧ entry.checkpointId = checkpointId ∧ Formed c entry := by
  induction groups generalizing result with
  | nil =>
    cases done
    exact ⟨by simp [writersOf],fun key entry found => .inl found⟩
  | cons group rest ih =>
    obtain ⟨absent,remaining⟩ := nodup_cons.mp distinct
    rw [flatMap_cons,map_append,nodup_append'] at apart
    obtain ⟨apartHere,apartRest,disjoint⟩ := apart
    have singlesHere (member : SinkEntry) (inside : member ∈ group.2) :=
      singles member (mem_flatMap.mpr ⟨group,by simp,inside⟩)
    have singlesRest (member : SinkEntry) (inside : member ∈ rest.flatMap Prod.snd) :=
      singles member (by rw [flatMap_cons]; exact mem_append_right _ inside)
    rw [foldlM_cons] at done
    obtain ⟨next,grouped,later⟩ := bind_ok done
    obtain ⟨entry,rfl,same,formed,writers,named⟩ := coalesceGroup_spec c names checkpointId result next group singlesHere
      apartHere grouped
    have unused : result.get? entry.taskKey = none := by
      rcases named with key | ⟨member,inside,key⟩
      · rw [key]
        exact (fresh group (by simp)).1
      · rw [key]
        exact (fresh group (by simp)).2 member inside
    have freshRest : ∀ other ∈ rest, (result.set entry.taskKey entry).get? (.global other.1) = none ∧
        ∀ member ∈ other.2, (result.set entry.taskKey entry).get? member.taskKey = none := by
      intro other inside
      obtain ⟨noGlobal,noMember⟩ := fresh other (by simp [inside])
      have differs (key : TaskKey) (nothing : result.get? key = none) (different : key ≠ entry.taskKey) :
          (result.set entry.taskKey entry).get? key = none := by simp [different,nothing]
      refine ⟨differs _ noGlobal (fun equal => ?_),fun member belongs => differs _ (noMember member belongs) (fun equal => ?_)⟩
      · rcases named with key | ⟨lone,inGroup,key⟩
        · rw [key,TaskKey.global.injEq] at equal
          exact absent (List.mem_map.mpr ⟨other,inside,equal⟩)
        · obtain ⟨⟨vertex,subtask,-⟩,-⟩ := singlesHere lone inGroup
          rw [key,subtask] at equal
          contradiction
      · rcases named with key | ⟨lone,inGroup,key⟩
        · obtain ⟨⟨vertex,subtask,-⟩,-⟩ := singlesRest member (mem_flatMap.mpr ⟨other,inside,belongs⟩)
          rw [key,subtask] at equal
          contradiction
        · refine disjoint (List.mem_map.mpr ⟨lone,inGroup,rfl⟩) ?_
          exact List.mem_map.mpr ⟨member,mem_flatMap.mpr ⟨other,inside,belongs⟩,equal.trans key⟩
    obtain ⟨perm,items⟩ := ih _ remaining apartRest singlesRest freshRest later
    constructor
    · have added : (writersOf (result.set entry.taskKey entry).values).Perm (entry.writers ++ writersOf result.values) := by
        have own := (set_perm result entry.taskKey entry).map Prod.snd
        rw [erase_of_get?_none result _ unused] at own
        exact writersOf_perm _ _ own
      refine perm.trans ((added.append_right _).trans ?_)
      rw [writers,flatMap_cons,writersOf_append,← append_assoc]
      exact perm_append_comm.append_right _
    · intro key value found
      rcases items key value found with stored | new
      · rw [Dict.get?_set] at stored
        split at stored
        next equal =>
          cases stored
          exact .inr ⟨equal.symm,same,formed⟩
        next => exact .inl stored
      · exact .inr new

theorem combinableGroups_perm (entries : List SinkEntry) :
    ((combinableGroups entries).entries.flatMap Prod.snd).Perm
      (entries.filter (fun entry => entry.committable.globalCommitNamespace.isSome)) := by
  have grouped := foldl_push_perm (fun entry : SinkEntry => entry.taskKey.logicalId)
    (entries.filter (fun entry => entry.committable.globalCommitNamespace.isSome)) ∅
  rw [flatMap_def]
  exact grouped

def Keyed (checkpointId : Int) (entries : Dict TaskKey SinkEntry) : Prop :=
  ∀ key entry, entries.get? key = some entry → entry.taskKey = key ∧ entry.checkpointId = checkpointId ∧ Single entry

section
variable (checkpointId : Int) (entries : Dict TaskKey SinkEntry) (keyed : Keyed checkpointId entries)
include keyed

theorem Keyed.taskKeys :
    entries.values.map SinkEntry.taskKey = entries.keys := by
  rw [Dict.values,Dict.keys,List.map_map]
  refine map_congr_left (fun item inside => ?_)
  exact (keyed item.1 item.2 ((Dict.get?_eq_some _ _ _).mpr inside)).1

theorem Keyed.get? (entry : SinkEntry) (inside : entry ∈ entries.values) : entries.get? entry.taskKey = some entry := by
  obtain ⟨key,found⟩ := (mem_values entries entry).mp inside
  rw [(keyed key entry found).1]
  exact found

end

theorem coalesceSinkCommittables_spec (names : CombinerNames c) (checkpointId : Int) (entries final : Dict TaskKey SinkEntry)
    (keyed : Keyed checkpointId entries) (done : coalesceSinkCommittables c entries checkpointId = .ok final) :
    (writersOf final.values).Perm (writersOf entries.values) ∧
      ∀ key entry, final.get? key = some entry → entry.taskKey = key ∧ entry.checkpointId = checkpointId ∧
        Formed c entry := by
  unfold coalesceSinkCommittables at done
  split at done
  next =>
    cases done
    exact ⟨List.Perm.refl _,fun key entry found =>
      ⟨(keyed key entry found).1,(keyed key entry found).2.1,.inl (keyed key entry found).2.2⟩⟩
  next =>
    have grouped := combinableGroups_perm entries.values
    have member (entry : SinkEntry) (inside : entry ∈ (combinableGroups entries.values).entries.flatMap Prod.snd) :
        entries.get? entry.taskKey = some entry ∧ entry.committable.globalCommitNamespace.isSome = true := by
      obtain ⟨stored,combinable⟩ := mem_filter.mp (grouped.mem_iff.mp inside)
      exact ⟨keyed.get? checkpointId entries entry stored,combinable⟩
    have taskKeys : (entries.values.map SinkEntry.taskKey).Nodup := keyed.taskKeys checkpointId entries ▸ entries.distinct
    have apart : (((combinableGroups entries.values).entries.flatMap Prod.snd).map SinkEntry.taskKey).Nodup :=
      ((grouped.map SinkEntry.taskKey).nodup_iff).mpr (taskKeys.sublist (filter_sublist.map _))
    have singles (entry : SinkEntry) (inside : entry ∈ (combinableGroups entries.values).entries.flatMap Prod.snd) :
        Single entry ∧ entry.checkpointId = checkpointId := by
      obtain ⟨-,same,single⟩ := keyed _ entry (member entry inside).1
      exact ⟨single,same⟩
    have fresh : ∀ group ∈ (combinableGroups entries.values).entries,
        (entries.filter (fun _ entry => entry.committable.globalCommitNamespace.isNone)).get? (.global group.1) = none ∧
        ∀ entry ∈ group.2, (entries.filter
          (fun _ entry => entry.committable.globalCommitNamespace.isNone)).get? entry.taskKey = none := by
      intro group inside
      refine ⟨?_,fun entry belongs => ?_⟩
      · cases stored : entries.get? (.global group.1) with
        | none => simp [stored]
        | some entry =>
          obtain ⟨own,-,vertex,subtask,-⟩ := keyed _ entry stored
          rw [own] at subtask
          contradiction
      · obtain ⟨stored,combinable⟩ := member entry (mem_flatMap.mpr ⟨group,inside,belongs⟩)
        obtain ⟨space,some⟩ := isSome_iff_exists.mp combinable
        simp [stored,some]
    obtain ⟨perm,items⟩ := coalesceGroups_spec c names checkpointId _ _ final (combinableGroups entries.values).distinct
      apart singles fresh done
    constructor
    · have plain : (entries.filter (fun _ entry => entry.committable.globalCommitNamespace.isNone)).values =
          entries.values.filter (fun entry => entry.committable.globalCommitNamespace.isNone) := by
        rw [Dict.values,Dict.values,Dict.filter,List.filter_map]
        rfl
      have whole := filter_append_perm
        (fun entry : SinkEntry => entry.committable.globalCommitNamespace.isNone) entries.values
      simp only [not_isNone] at whole
      refine perm.trans ?_
      rw [plain]
      refine ((writersOf_perm _ _ grouped).append_left _).trans ?_
      rw [← writersOf_append]
      exact writersOf_perm _ _ whole
    · intro key entry found
      rcases items key entry found with stored | new
      · rw [Dict.get?_filter,filter_eq_some_iff] at stored
        obtain ⟨own,same,single⟩ := keyed key entry stored.1
        exact ⟨own,same,.inl single⟩
      · exact new

theorem identities_nodup (checkpointId : Int) (entries : Dict TaskKey SinkEntry)
    (keyed : ∀ key entry, entries.get? key = some entry → entry.taskKey = key ∧ entry.checkpointId = checkpointId ∧
      Formed c entry) : (entries.values.map SinkEntry.identity).Nodup := by
  have taskKeys : (entries.values.map SinkEntry.identity).map Prod.fst = entries.keys := by
    rw [Dict.values,Dict.keys,List.map_map,List.map_map]
    refine map_congr_left (fun item inside => ?_)
    exact (keyed item.1 item.2 ((Dict.get?_eq_some _ _ _).mpr inside)).1
  exact List.Nodup.of_map Prod.fst (taskKeys ▸ entries.distinct)

theorem fileEach_spec (entries : List SinkEntry) (groups final : Dict Int (Dict TaskKey SinkEntry))
    (singles : ∀ entry ∈ entries, Single entry)
    (distinct : (entries.map (fun entry => (entry.checkpointId,entry.taskKey))).Nodup)
    (fresh : ∀ entry ∈ entries, ((groups.get? entry.checkpointId).getD ∅).get? entry.taskKey = none)
    (keyed : ∀ checkpointId inner, groups.get? checkpointId = some inner → Keyed checkpointId inner)
    (done : entries.foldlM fileCarried groups = .ok final) :
    final.flat.Perm (groups.flat ++ entries) ∧
      ∀ checkpointId inner, final.get? checkpointId = some inner → Keyed checkpointId inner := by
  induction entries generalizing groups with
  | nil =>
    cases done
    exact ⟨by simp,keyed⟩
  | cons entry rest ih =>
    obtain ⟨absent,remaining⟩ := nodup_cons.mp distinct
    have unused := fresh entry (by simp)
    rw [foldlM_cons] at done
    obtain ⟨next,filed,later⟩ := bind_ok done
    simp only [fileCarried,unused,Except.ok.injEq] at filed
    subst filed
    have freshRest : ∀ other ∈ rest, (((groups.setInner entry.checkpointId entry.taskKey entry).get?
        other.checkpointId).getD ∅).get? other.taskKey = none := by
      intro other inside
      have different : (other.checkpointId,other.taskKey) ≠ (entry.checkpointId,entry.taskKey) := fun same =>
        absent (List.mem_map.mpr ⟨other,inside,same⟩)
      have nothing := fresh other (by simp [inside])
      rw [Dict.setInner,Dict.get?_set]
      split
      next equal =>
        have elsewhere : other.taskKey ≠ entry.taskKey := fun same => different (by rw [equal,same])
        rw [equal] at nothing
        simp [elsewhere,nothing]
      next => exact nothing
    have keyedNext : ∀ checkpointId inner, (groups.setInner entry.checkpointId entry.taskKey entry).get? checkpointId =
        some inner → Keyed checkpointId inner := by
      intro checkpointId inner found
      rw [Dict.setInner,Dict.get?_set] at found
      split at found
      next equal =>
        cases found
        intro key value stored
        rw [Dict.get?_set] at stored
        split at stored
        next same =>
          cases stored
          exact ⟨same.symm,equal.symm,singles entry (by simp)⟩
        next =>
          cases old : groups.get? entry.checkpointId with
          | none => simp [old] at stored
          | some inner =>
            simp only [old,getD_some] at stored
            rw [equal]
            exact keyed _ inner old key value stored
      next => exact keyed checkpointId inner found
    obtain ⟨perm,items⟩ := ih (groups.setInner entry.checkpointId entry.taskKey entry)
      (fun other inside => singles other (by simp [inside])) remaining freshRest keyedNext later
    refine ⟨perm.trans (((flat_setInner groups _ _ entry unused).append_right rest).trans ?_),items⟩
    exact perm_middle.symm

theorem coalesceEach_spec (names : CombinerNames c) (epochs : List (Int × Dict TaskKey SinkEntry))
    (coalesced final : Dict SinkIdentity SinkEntry) (distinct : (epochs.map Prod.fst).Nodup)
    (keyed : ∀ epoch ∈ epochs, Keyed epoch.1 epoch.2)
    (fresh : ∀ identity entry, coalesced.get? identity = some entry → identity.2.1 ∉ epochs.map Prod.fst)
    (done : epochs.foldlM (coalesceEpoch c) coalesced = .ok final) :
    (writersOf final.values).Perm (writersOf coalesced.values ++ writersOf (epochs.flatMap (fun epoch => epoch.2.values))) ∧
      ∀ identity entry, final.get? identity = some entry →
        coalesced.get? identity = some entry ∨ identity = entry.identity ∧ Formed c entry := by
  induction epochs generalizing coalesced with
  | nil =>
    cases done
    exact ⟨by simp [writersOf],fun identity entry found => .inl found⟩
  | cons epoch rest ih =>
    obtain ⟨absent,remaining⟩ := nodup_cons.mp distinct
    rw [foldlM_cons] at done
    obtain ⟨next,filed,later⟩ := bind_ok done
    obtain ⟨committables,coalescing,updated⟩ := bind_ok filed
    cases updated
    obtain ⟨writers,items⟩ := coalesceSinkCommittables_spec c names epoch.1 epoch.2 committables (keyed epoch (by simp))
      coalescing
    have keys : (committables.values.map (fun entry => (entry.identity,entry))).map Prod.fst =
        committables.values.map SinkEntry.identity := by simp [Function.comp_def]
    have identities := identities_nodup c epoch.1 committables items
    have ofEpoch (identity : SinkIdentity) (inside : identity ∈ committables.values.map SinkEntry.identity) :
        identity.2.1 = epoch.1 := by
      obtain ⟨entry,stored,rfl⟩ := List.mem_map.mp inside
      obtain ⟨key,found⟩ := (mem_values committables entry).mp stored
      exact (items key entry found).2.1
    have unused (identity : SinkIdentity) (inside : identity ∈ committables.values.map SinkEntry.identity) :
        coalesced.get? identity = none := by
      cases found : coalesced.get? identity with
      | none => rfl
      | some entry =>
        refine absurd ?_ (fresh identity entry found)
        rw [ofEpoch identity inside]
        simp
    have added := update_perm coalesced (committables.values.map (fun entry => (entry.identity,entry)))
      (keys ▸ identities) (keys ▸ unused)
    have stored (identity : SinkIdentity) (entry : SinkEntry)
        (found : (coalesced.update (committables.values.map (fun entry => (entry.identity,entry)))).get? identity =
          some entry) :
        coalesced.get? identity = some entry ∨ identity = entry.identity ∧ Formed c entry ∧ identity.2.1 = epoch.1 := by
      rw [Dict.get?_eq_some] at found
      rcases mem_append.mp (added.mem_iff.mp found) with old | new
      · exact .inl ((Dict.get?_eq_some _ _ _).mpr old)
      · obtain ⟨value,inside,same⟩ := List.mem_map.mp new
        cases same
        obtain ⟨key,held⟩ := (mem_values committables entry).mp inside
        exact .inr ⟨rfl,(items key entry held).2.2,ofEpoch _ (List.mem_map.mpr ⟨entry,inside,rfl⟩)⟩
    have freshRest : ∀ identity entry,
        (coalesced.update (committables.values.map (fun entry => (entry.identity,entry)))).get? identity = some entry →
        identity.2.1 ∉ rest.map Prod.fst := by
      intro identity entry found
      rcases stored identity entry found with old | new
      · exact fun inside => fresh identity entry old (mem_cons_of_mem _ inside)
      · rw [new.2.2]
        exact absent
    obtain ⟨perm,final⟩ := ih _ remaining (fun other inside => keyed other (by simp [inside])) freshRest later
    constructor
    · have values := writersOf_perm _ _ (added.map Prod.snd)
      rw [map_append,writersOf_append] at values
      have same : (committables.values.map (fun entry => (entry.identity,entry))).map Prod.snd = committables.values := by
        simp [Function.comp_def]
      rw [same] at values
      refine perm.trans ((values.append_right _).trans ?_)
      rw [flatMap_cons,writersOf_append,append_assoc]
      exact (writers.append_right _).append_left _
    · intro identity entry found
      rcases final identity entry found with before | new
      · rcases stored identity entry before with old | new
        · exact .inl old
        · exact .inr ⟨new.1,new.2.1⟩
      · exact .inr new

theorem coalesceCarriedSinkCommittables_spec (names : CombinerNames c) (entries : List SinkEntry)
    (carried : Dict SinkIdentity SinkEntry) (singles : ∀ entry ∈ entries, Single entry)
    (distinct : (entries.map (fun entry => (entry.checkpointId,entry.taskKey))).Nodup)
    (done : coalesceCarriedSinkCommittables c entries = .ok carried) :
    (writersOf carried.values).Perm (writersOf entries) ∧
      ∀ identity entry, carried.get? identity = some entry → identity = entry.identity ∧ Formed c entry := by
  obtain ⟨groups,filed,later⟩ := bind_ok done
  obtain ⟨perm,keyed⟩ := fileEach_spec entries ∅ groups singles distinct (fun _ _ => rfl)
    (fun _ _ found => by contradiction) filed
  have sorted := mergeSort_perm groups.entries (fun left right => decide (left.1 ≤ right.1))
  have distinctEpochs := ((sorted.map Prod.fst).nodup_iff).mpr groups.distinct
  have keyedEpochs : ∀ epoch ∈ groups.entries.mergeSort (fun left right => decide (left.1 ≤ right.1)),
      Keyed epoch.1 epoch.2 := fun epoch inside =>
    keyed epoch.1 epoch.2 ((Dict.get?_eq_some _ _ _).mpr (sorted.mem_iff.mp inside))
  obtain ⟨writers,items⟩ := coalesceEach_spec c names _ ∅ carried distinctEpochs keyedEpochs
    (fun _ _ found => by contradiction) later
  refine ⟨writers.trans ?_,fun identity entry found => (items identity entry found).resolve_left (by simp)⟩
  have flat : (groups.entries.flatMap (fun epoch => epoch.2.values)) = groups.flat := by
    rw [Dict.flat,Dict.values,flatMap_map]
  exact writersOf_perm _ _ ((sorted.flatMap_right _).trans (flat ▸ perm))

private theorem colonFree_cancel (first second left right : List Char) (plain : ':' ∉ first) (plain' : ':' ∉ second)
    (same : first ++ ':'::left = second ++ ':'::right) : left = right := by
  have split := congrArg (List.splitOn ':') same
  rw [splitOn_append_cons_self_of_not_mem plain,splitOn_append_cons_self_of_not_mem plain',
    List.cons.injEq] at split
  have joined := congrArg (List.intercalate [':']) split.2
  rwa [intercalate_splitOn,intercalate_splitOn] at joined

theorem globalTransactionId_sha256 (space other : String) (logicalSinkId : Nat) (checkpointId : Int) (ids ids' : List String)
    (plain : ':' ∉ space.toList) (plain' : ':' ∉ other.toList)
    (same : globalTransactionId c space logicalSinkId checkpointId ids =
      globalTransactionId c other logicalSinkId checkpointId ids') :
    c.sha256 (String.intercalate (String.singleton '\x00') ids) =
      c.sha256 (String.intercalate (String.singleton '\x00') ids') := by
  have chars := congrArg String.toList same
  simp only [globalTransactionId,String.toList_append,append_assoc] at chars
  let tail (ids : List String) : List Char := c.jobId.toList ++ (":".toList ++ ((toString logicalSinkId).toList ++
    (":".toList ++ ((toString checkpointId).toList ++
      (":".toList ++ (c.sha256 (String.intercalate (String.singleton '\x00') ids)).toList)))))
  have rest : tail ids = tail ids' := colonFree_cancel _ _ _ _ plain plain' (append_cancel_left chars)
  simp only [tail,append_cancel_left_eq] at rest
  exact String.toList_inj.mp rest

private theorem intercalate_inj (ids ids' : List String) (nonempty : ids ≠ []) (nonempty' : ids' ≠ [])
    (clean : ∀ id ∈ ids, '\x00' ∉ id.toList) (clean' : ∀ id ∈ ids', '\x00' ∉ id.toList)
    (same : String.intercalate (String.singleton '\x00') ids = String.intercalate (String.singleton '\x00') ids') :
    ids = ids' := by
  have first := String.toList_split_intercalate clean
  have second := String.toList_split_intercalate clean'
  rw [if_neg nonempty] at first
  rw [if_neg nonempty',← same,first] at second
  exact second

/-- `sorted(…)` of the transactions that an entry was made of, joined -/
def SinkEntry.joined (entry : SinkEntry) : String :=
  String.intercalate (String.singleton '\x00') ((entry.writers.map Writer.transactionId).insertionSort (· ≤ ·))

theorem Formed.shared_writer (first second : SinkEntry) (formed : Formed c first) (formed' : Formed c second)
    (collisionFree : c.sha256 first.joined = c.sha256 second.joined → first.joined = second.joined)
    (unique : ∀ writer ∈ first.writers, ∀ other ∈ second.writers, writer.transactionId = other.transactionId →
      writer = other)
    (clean : ∀ writer ∈ first.writers ++ second.writers, '\x00' ∉ writer.transactionId.toList)
    (same : first.identity = second.identity) : ∃ writer, writer ∈ first.writers ∧ writer ∈ second.writers := by
  simp only [SinkEntry.identity,Prod.mk.injEq] at same
  obtain ⟨taskKey,checkpointId,transactionId⟩ := same
  rcases formed with ⟨vertex,key,writers⟩ | grouped
  · rcases formed' with ⟨vertex',key',writers'⟩ | ⟨logicalSinkId,space,key',-⟩
    · have equal : vertex = vertex' := by
        rw [taskKey,key',TaskKey.subtask.injEq] at key
        exact key.symm
      refine ⟨⟨vertex,first.checkpointId,first.committable.transactionId⟩,by simp [writers],?_⟩
      simp [writers',equal,checkpointId,transactionId]
    · rw [taskKey,key'] at key
      contradiction
  · obtain ⟨logicalSinkId,space,key,plain,nonempty,-,-,named⟩ := grouped
    rcases formed' with ⟨vertex',key',writers'⟩ | ⟨logicalSinkId',space',key',plain',nonempty',-,-,named'⟩
    · rw [taskKey,key'] at key
      contradiction
    · have equal : logicalSinkId = logicalSinkId' := by
        rw [taskKey,key',TaskKey.global.injEq] at key
        exact key.symm
      rw [transactionId,named',← equal,← checkpointId] at named
      have joined := collisionFree (globalTransactionId_sha256 c _ _ _ _ _ _ plain' plain named).symm
      have permuted (writers : List Writer) := perm_insertionSort (· ≤ ·) (writers.map Writer.transactionId)
      have listed (writers : List Writer) (id : String)
          (inside : id ∈ (writers.map Writer.transactionId).insertionSort (· ≤ ·)) :
          ∃ writer ∈ writers, writer.transactionId = id := List.mem_map.mp ((permuted writers).mem_iff.mp inside)
      have some (writers : List Writer) (nonempty : writers ≠ []) :
          (writers.map Writer.transactionId).insertionSort (· ≤ ·) ≠ [] := by
        intro nothing
        have none := (permuted writers).length_eq
        rw [nothing,length_map,length_nil] at none
        exact nonempty (length_eq_zero_iff.mp none.symm)
      have ids := intercalate_inj _ _ (some _ nonempty) (some _ nonempty')
        (fun id inside => by
          obtain ⟨writer,member,rfl⟩ := listed _ id inside
          exact clean writer (mem_append_left _ member))
        (fun id inside => by
          obtain ⟨writer,member,rfl⟩ := listed _ id inside
          exact clean writer (mem_append_right _ member)) joined
      obtain ⟨writer,member⟩ := exists_mem_of_ne_nil _ nonempty
      have inside : writer.transactionId ∈ (first.writers.map Writer.transactionId).insertionSort (· ≤ ·) :=
        (permuted _).mem_iff.mpr (List.mem_map.mpr ⟨writer,member,rfl⟩)
      rw [ids] at inside
      obtain ⟨other,belongs,equal⟩ := listed _ _ inside
      exact ⟨writer,member,unique writer member other belongs equal.symm ▸ belongs⟩

end Klein.Coordinator
