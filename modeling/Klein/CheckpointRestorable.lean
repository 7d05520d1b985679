import Klein.CheckpointStorage
import Klein.Fallible
import Klein.Runs

/-! What a published checkpoint needs to be restorable. A managed-state file that a crash
cut short stays under its name, and a write that finds it there publishes a checkpoint
that refers to it. -/
namespace Klein.CheckpointIO
open Dict Fallible List Option

structure Store where
  files : Files
  completed : List Nat

inductive Action where
  | write (call : WriteCall) (crash : Option Crash)
  | cleanup (retainedCount : Int)

variable (sha : Sha256)

def step (store : Store) : Action → Option Store
  | .write call crash =>
    let after := (writeCheckpoint sha call crash store.files).1
    some ⟨after,store.completed ++ after.metadata.keys.filter (fun revision => !store.files.metadata.contains revision)⟩
  | .cleanup retainedCount => match cleanupCheckpoints retainedCount store.files with
    | .error _ => some store
    | .ok after => some {store with files := after}

/-- The checkpoints that `cleanup_checkpoints` keeps. -/
def retained (retainedCount : Int) (files : Files) : List Nat :=
  (listCompletedCheckpoints files).drop ((listCompletedCheckpoints files).length - retainedCount.toNat)

/-- What `latest_checkpoint` returns can be restored, and no cleanup takes a file from a checkpoint that it keeps. -/
structure Restorable (root : String) (store : Store) : Prop where
  newest : ∀ checkpointId, latestCheckpoint sha store.files = .ok (some checkpointId) →
    checkpointId ∈ store.completed ∧ ∀ other ∈ store.completed, other ≤ checkpointId
  readable : ∀ checkpointId, latestCheckpoint sha store.files = .ok (some checkpointId) →
    ∃ mapping envelope, store.files.metadata.get? checkpointId = some mapping ∧
      decodeCheckpointEnvelope sha mapping = .ok envelope ∧
      ∀ entry ∈ envelope.operatorStates, ∃ payload,
        readOperatorState sha root store.files checkpointId entry = .ok payload ∧
        payload.length = entry.sizeBytes ∧ checksum sha payload = entry.checksum
  kept : ∀ retainedCount after, cleanupCheckpoints retainedCount store.files = .ok after →
    ∀ checkpointId ∈ retained retainedCount store.files,
      after.metadata.get? checkpointId = store.files.metadata.get? checkpointId ∧
      ∀ mapping, store.files.metadata.get? checkpointId = some mapping → ∀ entry ∈ mapping.operatorStates,
        after.states.get? entry.uri = store.files.states.get? entry.uri

def missing (files : Files) (revision : Nat) (items : List (String × Bytes)) : Nat :=
  items.countP (fun item => !files.states.contains (statePath sha revision item))

/-- The process lives until the metadata, written after `before` other files, is in place. -/
def Survives (before : Nat) : Option Crash → Prop
  | none => True
  | some crash => before < crash.position ∨ (crash.position = before ∧ crash.kept.isSome = true)

instance (before : Nat) : (crash : Option Crash) → Decidable (Survives before crash)
  | none => .isTrue trivial
  | some crash => inferInstanceAs (Decidable (before < crash.position ∨ (crash.position = before ∧ crash.kept.isSome = true)))

structure Publishes (store : Store) (call : WriteCall) (crash : Option Crash) (revision : Nat) : Prop where
  valid : call.validate = .ok revision
  fresh : store.files.metadata.get? revision = none
  newest : ∀ other ∈ store.completed, other ≤ revision
  survives : Survives (missing sha store.files revision call.items) crash

def Faithful (store : Store) : Action → Prop
  | .cleanup _ => True
  | .write call crash => ∀ revision, Publishes sha store call crash revision →
    ∀ item ∈ call.items, ∀ payload, store.files.states.get? (statePath sha revision item) = some payload →
      payload.length = item.2.length ∧ checksum sha payload = checksum sha item.2

section stored

def Progress.files : Progress → Files
  | .running files _ => files
  | .crashed files => files

structure Extends (before after : Files) : Prop where
  states : ∀ path payload, before.states.get? path = some payload → after.states.get? path = some payload
  metadata : after.metadata = before.metadata

theorem Extends.refl (files : Files) : Extends files files := ⟨fun _ _ found => found,rfl⟩

theorem Extends.trans (first second third : Files) (left : Extends first second) (right : Extends second third) :
    Extends first third :=
  ⟨fun path payload found => right.states path payload (left.states path payload found),right.metadata.trans left.metadata⟩

theorem write_files (crash : Option Crash) (finished : Files → Files) (partly : Nat → Files → Files) (progress : Progress) :
    (progress.write crash finished partly).files = progress.files ∨
    (progress.write crash finished partly).files = finished progress.files ∨
    ∃ kept, (progress.write crash finished partly).files = partly kept progress.files := by
  unfold Progress.write
  split
  next => exact .inl rfl
  next files written =>
    split
    next => exact .inr (.inl rfl)
    next point =>
      split
      next =>
        split
        next => exact .inl rfl
        next kept _ => exact .inr (.inr ⟨kept,rfl⟩)
      next => exact .inr (.inl rfl)

theorem extends_set (files : Files) (path : StatePath) (payload : Bytes) (absent : files.states.contains path = false) :
    Extends files {files with states := files.states.set path payload} := by
  refine ⟨fun other stored found => ?_,rfl⟩
  have different : other ≠ path := by
    rintro rfl
    rw [contains_eq_isSome,found] at absent
    cases absent
  simpa [different] using found

section
variable (crash : Option Crash) (revision : Nat)
include crash revision

theorem storeState_extends (item : String × Bytes) (progress : Progress) :
    Extends progress.files (progress.storeState sha crash revision item).files := by
  unfold Progress.storeState
  split
  next files => exact Extends.refl files
  next files written =>
    split
    next => exact Extends.refl files
    next absent =>
      have absent := Bool.eq_false_iff.mpr absent
      rcases write_files crash _ _ (Progress.running files written) with same | finished | ⟨kept,partly⟩
      · rw [same]
        exact Extends.refl files
      · rw [finished]
        exact extends_set files _ _ absent
      · rw [partly]
        exact extends_set files _ _ absent

theorem storeStates_extends (items : List (String × Bytes)) (progress : Progress) :
    Extends progress.files (progress.storeStates sha crash revision items).files := by
  induction items generalizing progress with
  | nil => exact Extends.refl _
  | cons item rest ih => exact (storeState_extends sha crash revision item progress).trans _ _ _ (ih _)

theorem storeStates_crashed (items : List (String × Bytes)) (files : Files) :
    (Progress.crashed files).storeStates sha crash revision items = .crashed files := by
  induction items with
  | nil => rfl
  | cons item rest ih => exact ih

end

theorem write_running (crash : Option Crash) (finished : Files → Files) (partly : Nat → Files → Files) (files after : Files)
    (written total : Nat) (alive : (Progress.running files written).write crash finished partly = .running after total) :
    after = finished files ∧ total = written + 1 ∧ ∀ point ∈ crash, point.position ≠ written := by
  unfold Progress.write at alive
  dsimp only at alive
  split at alive
  next =>
    cases alive
    exact ⟨rfl,rfl,by simp⟩
  next point =>
    split at alive
    next => split at alive <;> cases alive
    next different =>
      cases alive
      exact ⟨rfl,rfl,by simpa using different⟩

theorem missing_set (files : Files) (revision : Nat) (path : StatePath) (payload : Bytes) (items : List (String × Bytes))
    (elsewhere : path ∉ items.map (statePath sha revision)) :
    missing sha {files with states := files.states.set path payload} revision items = missing sha files revision items := by
  refine countP_congr (fun item inside => ?_)
  have different : statePath sha revision item ≠ path := by
    intro same
    exact elsewhere (List.mem_map.mpr ⟨item,inside,same⟩)
  simp [contains_eq_isSome,different]

theorem storeState_running (crash : Option Crash) (revision : Nat) (item : String × Bytes) (files after : Files)
    (written total : Nat) (alive : (Progress.running files written).storeState sha crash revision item = .running after total) :
    (files.states.contains (statePath sha revision item) = true ∧ after = files ∧ total = written) ∨
    (files.states.contains (statePath sha revision item) = false ∧
      after = {files with states := files.states.set (statePath sha revision item) item.2} ∧ total = written + 1 ∧
      ∀ point ∈ crash, point.position ≠ written) := by
  unfold Progress.storeState at alive
  dsimp only at alive
  split at alive
  next present =>
    cases alive
    exact .inl ⟨present,rfl,rfl⟩
  next absent =>
    obtain ⟨same,one,point⟩ := write_running _ _ _ _ _ _ _ alive
    exact .inr ⟨Bool.eq_false_iff.mpr absent,same,one,point⟩

theorem storeStates_running (crash : Option Crash) (revision : Nat) (items : List (String × Bytes)) (files after : Files)
    (written total : Nat) (distinct : (items.map (statePath sha revision)).Nodup)
    (alive : (Progress.running files written).storeStates sha crash revision items = .running after total) :
    total = written + missing sha files revision items ∧
    (∀ point ∈ crash, point.position < written ∨ total ≤ point.position) ∧
    ∀ item ∈ items, after.states.get? (statePath sha revision item) =
      some ((files.states.get? (statePath sha revision item)).getD item.2) := by
  induction items generalizing files written with
  | nil =>
    cases alive
    refine ⟨rfl,fun point _ => ?_,by simp⟩
    omega
  | cons item rest ih =>
    obtain ⟨elsewhere,others⟩ := nodup_cons.mp distinct
    have first : (Progress.running files written).storeStates sha crash revision (item::rest) =
        ((Progress.running files written).storeState sha crash revision item).storeStates sha crash revision rest := rfl
    rw [first] at alive
    cases stored : (Progress.running files written).storeState sha crash revision item with
    | crashed middle =>
      rw [stored,storeStates_crashed] at alive
      cases alive
    | running middle count =>
      rw [stored] at alive
      obtain ⟨totals,points,contents⟩ := ih middle count others alive
      have grown : Extends middle after := by
        have extended := storeStates_extends sha crash revision rest (.running middle count)
        rwa [alive] at extended
      rcases storeState_running sha crash revision item files middle written count stored with
        ⟨present,rfl,rfl⟩ | ⟨absent,rfl,rfl,point⟩
      · refine ⟨by simpa [missing,countP_cons,present] using totals,points,?_⟩
        intro other inside
        rcases mem_cons.mp inside with rfl | later
        · obtain ⟨payload,found⟩ := isSome_iff_exists.mp ((contains_eq_isSome _ _).symm.trans present)
          rw [grown.states _ payload found,found]
          rfl
        · exact contents other later
      · rw [missing_set sha files revision _ _ rest elsewhere] at totals
        refine ⟨?_,?_,?_⟩
        · simp only [missing,countP_cons,absent,Bool.not_false,if_true] at totals ⊢
          omega
        · intro crashed given
          have := point crashed given
          have := points crashed given
          omega
        · intro other inside
          rcases mem_cons.mp inside with rfl | later
          · rw [contains_eq_isSome,isSome_eq_false_iff,isNone_iff_eq_none] at absent
            rw [grown.states _ other.2 (by simp),absent]
            rfl
          · have different : statePath sha revision other ≠ statePath sha revision item := by
              intro same
              exact elsewhere (List.mem_map.mpr ⟨other,later,same⟩)
            rw [contents other later]
            simp [different]

end stored

section written

theorem items_perm (call : WriteCall) : call.items.Perm call.operatorStates.entries :=
  perm_insertionSort _ _

theorem items_keys (call : WriteCall) : (call.items.map Prod.fst).Nodup :=
  ((items_perm call).map Prod.fst).nodup_iff.mpr call.operatorStates.distinct

theorem items_paths (call : WriteCall) (revision : Nat) : (call.items.map (statePath sha revision)).Nodup := by
  have keys : ((call.items.map (statePath sha revision)).map StatePath.taskKey).Nodup := by
    rw [List.map_map]
    exact items_keys call
  exact List.Nodup.of_map _ keys

theorem writeLatest_files (crash : Option Crash) (revision : Nat) (progress : Progress) :
    (progress.writeLatest crash revision).files.states = progress.files.states ∧
    (progress.writeLatest crash revision).files.metadata = progress.files.metadata := by
  rcases write_files crash (fun files => {files with latest := some (revision : Int)})
    (fun _ files => {files with latest := some (revision : Int)}) progress with same | finished | ⟨kept,partly⟩
  · rw [Progress.writeLatest,same]
    exact ⟨rfl,rfl⟩
  · rw [Progress.writeLatest,finished]
    exact ⟨rfl,rfl⟩
  · rw [Progress.writeLatest,partly]
    exact ⟨rfl,rfl⟩

theorem finish_files (revision : Nat) (progress : Progress) : (progress.finish revision).1 = progress.files := by
  cases progress <;> rfl

theorem writeMetadata_files (crash : Option Crash) (revision : Nat) (mapping : CheckpointMapping) (files : Files)
    (written : Nat) (later : ∀ point ∈ crash, written ≤ point.position) :
    ((Progress.running files written).writeMetadata crash revision mapping).files = files ∨
    (Survives written crash ∧ ((Progress.running files written).writeMetadata crash revision mapping).files =
      {files with metadata := files.metadata.set revision mapping}) := by
  unfold Progress.writeMetadata Progress.write
  dsimp only
  split
  next => exact .inr ⟨trivial,rfl⟩
  next point =>
    split
    next same =>
      split
      next => exact .inl rfl
      next kept some => exact .inr ⟨.inr ⟨same,by rw [some]; rfl⟩,rfl⟩
    next different =>
      have := later point rfl
      exact .inr ⟨.inl (by omega),rfl⟩

theorem writeCheckpoint_cases (call : WriteCall) (crash : Option Crash) (files after : Files)
    (wrote : (writeCheckpoint sha call crash files).1 = after) :
    Extends files after ∨
    ∃ revision, call.validate = .ok revision ∧ files.metadata.get? revision = none ∧
      Survives (missing sha files revision call.items) crash ∧
      after.metadata = files.metadata.set revision (call.mapping sha revision) ∧
      (∀ path payload, files.states.get? path = some payload → after.states.get? path = some payload) ∧
      ∀ item ∈ call.items, after.states.get? (statePath sha revision item) =
        some ((files.states.get? (statePath sha revision item)).getD item.2) := by
  subst wrote
  unfold writeCheckpoint
  cases valid : call.validate with
  | error text => exact .inl (Extends.refl files)
  | ok revision =>
    dsimp only
    have grown := storeStates_extends sha crash revision call.items (.running files 0)
    cases stored : (Progress.running files 0).storeStates sha crash revision call.items with
    | crashed middle =>
      rw [stored] at grown
      exact .inl grown
    | running middle written =>
      rw [stored] at grown
      have grown : Extends files middle := grown
      obtain ⟨total,points,contents⟩ :=
        storeStates_running sha crash revision call.items files middle 0 written (items_paths sha call revision) stored
      have later : ∀ point ∈ crash, written ≤ point.position := by
        intro point given
        have := points point given
        omega
      dsimp only [publish]
      split
      next =>
        split
        next => exact .inl grown
        next =>
          obtain ⟨states,metadata⟩ := writeLatest_files crash revision (.running middle written)
          rw [finish_files]
          exact .inl ⟨fun path payload found => states ▸ grown.states path payload found,metadata.trans grown.metadata⟩
      next absent =>
        rw [finish_files]
        obtain ⟨states,metadata⟩ := writeLatest_files crash revision
          ((Progress.running middle written).writeMetadata crash revision (call.mapping sha revision))
        rcases writeMetadata_files crash revision (call.mapping sha revision) middle written later with same | ⟨survives,placed⟩
        · rw [same] at states metadata
          exact .inl ⟨fun path payload found => states ▸ grown.states path payload found,metadata.trans grown.metadata⟩
        · rw [placed] at states metadata
          refine .inr ⟨revision,rfl,?_,?_,?_,?_,?_⟩
          · rw [← grown.metadata]
            exact absent
          · rw [total,Nat.zero_add] at survives
            exact survives
          · rw [metadata,grown.metadata]
          · exact fun path payload found => states ▸ grown.states path payload found
          · exact fun item inside => states ▸ contents item inside

theorem validateCheckpointId_ok (name : String) (value : Int) (id : Nat) (valid : validateCheckpointId name value = .ok id) :
    value = id := by
  unfold validateCheckpointId at valid
  split at valid
  next => cases valid
  next natural =>
    cases valid
    omega

theorem validateSourceStates_ok (sourceStates : List SourceCheckpointEntry) (valid : validateSourceStates sourceStates = .ok ()) :
    (∀ entry ∈ sourceStates, blank entry.taskKey = false) ∧ (sourceStates.map SourceCheckpointEntry.taskKey).Nodup := by
  unfold validateSourceStates at valid
  split at valid
  next => cases valid
  next nonBlank =>
    split at valid
    next distinct => exact ⟨by simpa using nonBlank,distinct⟩
    next => cases valid

theorem validateSinkCommittables_ok (sinkCommittables : List SinkCommittableCheckpointEntry)
    (valid : validateSinkCommittables sinkCommittables = .ok ()) :
    (sinkCommittables.map (fun entry => (entry.taskKey,entry.checkpointId))).Nodup := by
  unfold validateSinkCommittables at valid
  split at valid
  next distinct => exact distinct
  next => cases valid

theorem validate_ok (call : WriteCall) (revision : Nat) (valid : call.validate = .ok revision) :
    call.metadataRevision = revision ∧ (∃ highWater : Nat, call.barrierHighWater = highWater) ∧
    (∀ entry ∈ call.sourceStates, blank entry.taskKey = false) ∧
    (call.sourceStates.map SourceCheckpointEntry.taskKey).Nodup ∧
    (call.sinkCommittables.map (fun entry => (entry.taskKey,entry.checkpointId))).Nodup ∧
    ∀ key ∈ call.operatorStates.keys, blank key = false := by
  obtain ⟨checked,first,valid⟩ := bind_ok valid
  obtain ⟨highWater,second,valid⟩ := bind_ok valid
  obtain ⟨_,sources,valid⟩ := bind_ok valid
  obtain ⟨_,sinks,valid⟩ := bind_ok valid
  obtain ⟨sourceKeys,sourceDistinct⟩ := validateSourceStates_ok _ sources
  split at valid
  next => cases valid
  next keys =>
    cases valid
    exact ⟨validateCheckpointId_ok _ _ _ first,⟨highWater,validateCheckpointId_ok _ _ _ second⟩,sourceKeys,sourceDistinct,
      validateSinkCommittables_ok _ sinks,by simpa using keys⟩

theorem decode_mapping (call : WriteCall) (revision : Nat) (valid : call.validate = .ok revision) :
    ∃ envelope, decodeCheckpointEnvelope sha (call.mapping sha revision) = .ok envelope ∧
      envelope.metadataRevision = revision ∧ envelope.operatorStates = (call.mapping sha revision).operatorStates := by
  obtain ⟨number,⟨highWater,natural⟩,sourceKeys,sourceDistinct,sinkDistinct,keys⟩ := validate_ok call revision valid
  have entries : (call.items.map (stateEntry sha revision)).map OperatorStateCheckpointEntry.taskKey =
      call.items.map Prod.fst := by
    rw [List.map_map]
    rfl
  have operatorKeys : ∀ entry ∈ call.items.map (stateEntry sha revision), blank entry.taskKey = false := by
    intro entry inside
    obtain ⟨item,listed,rfl⟩ := List.mem_map.mp inside
    exact keys item.1 (List.mem_map.mpr ⟨item,(items_perm call).mem_iff.mp listed,rfl⟩)
  have operatorDistinct := items_keys call
  rw [← entries] at operatorDistinct
  have operatorSound : ∀ entry ∈ call.items.map (stateEntry sha revision),
      isSha256 entry.checksum = true ∧ 0 ≤ entry.sizeBytes := by
    intro entry inside
    obtain ⟨item,listed,rfl⟩ := List.mem_map.mp inside
    exact ⟨isSha256_checksum sha item.2,Int.natCast_nonneg _⟩
  have decoded := decode_encodeCheckpointMapping sha revision highWater call.sourceStates
    (call.items.map (stateEntry sha revision)) call.sinkCommittables sourceKeys sourceDistinct operatorKeys operatorDistinct
    operatorSound sinkDistinct
  rw [← number,← natural] at decoded
  exact ⟨_,decoded,rfl,rfl⟩

end written

section discovery

section
variable (files : Files)
include files

theorem mem_listCompletedCheckpoints (revision : Nat) :
    revision ∈ listCompletedCheckpoints files ↔ revision ∈ files.metadata.keys :=
  (perm_insertionSort _ _).mem_iff

theorem listCompletedCheckpoints_nodup : (listCompletedCheckpoints files).Nodup :=
  (perm_insertionSort _ _).nodup_iff.mpr files.metadata.distinct

theorem listCompletedCheckpoints_sorted : (listCompletedCheckpoints files).Pairwise (· ≤ ·) :=
  List.pairwise_insertionSort (· ≤ ·) _

theorem latestCandidates_sorted : (latestCandidates files).Pairwise (· ≥ ·) :=
  List.pairwise_insertionSort (· ≥ ·) _

theorem mem_latestCandidates (revision : Nat) (present : revision ∈ files.metadata.keys) :
    revision ∈ latestCandidates files := by
  refine (perm_insertionSort _ _).mem_iff.mpr (mem_append_right _ (mem_reverse.mpr ?_))
  exact (mem_listCompletedCheckpoints files revision).mpr present

theorem discover_first (candidates seen : List Nat)
    (sound : ∀ revision mapping, files.metadata.get? revision = some mapping →
      ∃ envelope, decodeCheckpointEnvelope sha mapping = .ok envelope ∧ envelope.metadataRevision = revision)
    (absent : ∀ revision ∈ seen, files.metadata.get? revision = none) (found : Nat)
    (stopped : discover sha files candidates seen [] 0 = .found found) :
    ∃ before after, candidates = before ++ found::after ∧ (∃ mapping, files.metadata.get? found = some mapping) ∧
      ∀ revision ∈ before, files.metadata.get? revision = none := by
  induction candidates generalizing seen with
  | nil => cases stopped
  | cons candidate rest ih =>
    unfold discover at stopped
    split at stopped
    next known =>
      obtain ⟨before,after,rfl,present,earlier⟩ := ih seen absent stopped
      refine ⟨candidate::before,after,rfl,present,fun revision inside => ?_⟩
      rcases mem_cons.mp inside with rfl | later
      · exact absent revision known
      · exact earlier revision later
    next =>
      split at stopped
      next missing =>
        have absent : ∀ revision ∈ candidate::seen, files.metadata.get? revision = none := by
          intro revision inside
          rcases mem_cons.mp inside with rfl | later
          · exact missing
          · exact absent revision later
        obtain ⟨before,after,rfl,present,earlier⟩ := ih (candidate::seen) absent stopped
        refine ⟨candidate::before,after,rfl,present,fun revision inside => ?_⟩
        rcases mem_cons.mp inside with rfl | later
        · exact missing
        · exact earlier revision later
      next mapping present =>
        obtain ⟨envelope,decoded,number⟩ := sound candidate mapping present
        simp only [decoded,number,if_true] at stopped
        cases stopped
        exact ⟨[],rest,rfl,⟨mapping,present⟩,by simp⟩

theorem latestCheckpoint_newest (sound : ∀ revision mapping, files.metadata.get? revision = some mapping →
      ∃ envelope, decodeCheckpointEnvelope sha mapping = .ok envelope ∧ envelope.metadataRevision = revision)
    (found : Nat) (latest : latestCheckpoint sha files = .ok (some found)) :
    (∃ mapping, files.metadata.get? found = some mapping) ∧ ∀ revision ∈ files.metadata.keys, revision ≤ found := by
  unfold latestCheckpoint at latest
  split at latest
  next checkpointId stopped =>
    cases latest
    obtain ⟨before,after,split,present,earlier⟩ :=
      discover_first sha files (latestCandidates files) [] sound (by simp) found stopped
    refine ⟨present,fun revision stored => ?_⟩
    have candidate := mem_latestCandidates files revision stored
    have sorted := latestCandidates_sorted files
    rw [split] at candidate sorted
    rcases mem_append.mp candidate with ahead | behind
    · exact absurd stored ((get?_eq_none _ _).mp (earlier revision ahead))
    · rcases mem_cons.mp behind with rfl | later
      · exact Nat.le_refl _
      · exact (pairwise_cons.mp (pairwise_append.mp sorted).2.1).1 revision later
  next =>
    split at latest
    next => cases latest
    next => cases latest

end

end discovery

section cleaned

theorem deleteDirs_metadata (removed : List Nat) (files : Files) (revision : Nat) :
    (removed.foldl (fun files checkpointId => files.deleteDir checkpointId) files).metadata.get? revision =
      if revision ∈ removed then none else files.metadata.get? revision := by
  induction removed generalizing files with
  | nil => simp
  | cons first rest ih =>
    rw [foldl_cons,ih]
    by_cases later : revision ∈ rest
    · simp [later]
    · simp [later,Files.deleteDir]

theorem deleteDirs_states (removed : List Nat) (files : Files) (path : StatePath) :
    (removed.foldl (fun files checkpointId => files.deleteDir checkpointId) files).states.get? path =
      if path.revision ∈ removed then none else files.states.get? path := by
  induction removed generalizing files with
  | nil => simp
  | cons first rest ih =>
    rw [foldl_cons,ih]
    by_cases later : path.revision ∈ rest
    · simp [later]
    · by_cases same : path.revision = first
      · cases found : files.states.get? path <;> simp [Files.deleteDir,same,found]
      · cases found : files.states.get? path <;> simp [Files.deleteDir,same,later,found]

theorem cleanupCheckpoints_cases (retainedCount : Int) (files after : Files)
    (cleaned : cleanupCheckpoints retainedCount files = .ok after) :
    ∃ removed : List Nat, removed ++ retained retainedCount files = listCompletedCheckpoints files ∧
      (listCompletedCheckpoints files ≠ [] → retained retainedCount files ≠ []) ∧
      (∀ revision, after.metadata.get? revision = if revision ∈ removed then none else files.metadata.get? revision) ∧
      ∀ path, after.states.get? path = if path.revision ∈ removed then none else files.states.get? path := by
  unfold cleanupCheckpoints at cleaned
  split at cleaned
  next => cases cleaned
  next positive =>
    cases cleaned
    refine ⟨_,take_append_drop _ _,?_,deleteDirs_metadata _ files,deleteDirs_states _ files⟩
    intro some
    have counted := length_pos_iff.mpr some
    refine ne_nil_of_length_pos ?_
    rw [retained,length_drop]
    omega

theorem removed_older (retainedCount : Int) (files : Files) (removed : List Nat)
    (split : removed ++ retained retainedCount files = listCompletedCheckpoints files) (revision : Nat)
    (kept : revision ∈ retained retainedCount files) : revision ∉ removed ∧ ∀ other ∈ removed, other ≤ revision := by
  have distinct := listCompletedCheckpoints_nodup files
  have sorted := listCompletedCheckpoints_sorted files
  rw [← split] at distinct sorted
  exact ⟨fun inside => (nodup_append.mp distinct).2.2 revision inside revision kept rfl,
    fun other inside => (pairwise_append.mp sorted).2.2 other inside revision kept⟩

end cleaned

section consistent

structure Consistent (store : Store) : Prop where
  written : ∀ revision mapping, store.files.metadata.get? revision = some mapping →
    ∃ call, WriteCall.validate call = .ok revision ∧ mapping = call.mapping sha revision
  recorded : ∀ revision mapping, store.files.metadata.get? revision = some mapping → revision ∈ store.completed
  newest : ∀ revision ∈ store.completed, ∃ other ∈ store.files.metadata.keys, revision ≤ other
  readable : ∀ revision mapping, store.files.metadata.get? revision = some mapping →
    (∀ other ∈ store.completed, other ≤ revision) → ∀ entry ∈ mapping.operatorStates, ∃ payload,
      store.files.states.get? entry.uri = some payload ∧ payload.length = entry.sizeBytes ∧
      checksum sha payload = entry.checksum

namespace Consistent
variable (store : Store)

theorem empty : Consistent sha ⟨Files.empty,[]⟩ :=
  ⟨by simp [Files.empty],by simp [Files.empty],by simp,by simp [Files.empty]⟩

section
variable (consistent : Consistent sha store) (revision : Nat) (mapping : CheckpointMapping)
  (stored : store.files.metadata.get? revision = some mapping)
include consistent stored

include sha in
theorem decodes :
    ∃ envelope, decodeCheckpointEnvelope sha mapping = .ok envelope ∧ envelope.metadataRevision = revision ∧
      envelope.operatorStates = mapping.operatorStates := by
  obtain ⟨call,valid,rfl⟩ := consistent.written revision mapping stored
  exact decode_mapping sha call revision valid

theorem directory (entry : OperatorStateCheckpointEntry)
    (listed : entry ∈ mapping.operatorStates) : entry.uri.revision = revision := by
  obtain ⟨call,valid,rfl⟩ := consistent.written revision mapping stored
  obtain ⟨item,inside,rfl⟩ := List.mem_map.mp listed
  rfl

end

theorem restorable (root : String) (consistent : Consistent sha store) : Restorable sha root store := by
  have sound : ∀ revision mapping, store.files.metadata.get? revision = some mapping →
      ∃ envelope, decodeCheckpointEnvelope sha mapping = .ok envelope ∧ envelope.metadataRevision = revision := by
    intro revision mapping stored
    obtain ⟨envelope,decoded,number,_⟩ := consistent.decodes sha store revision mapping stored
    exact ⟨envelope,decoded,number⟩
  have top : ∀ checkpointId, latestCheckpoint sha store.files = .ok (some checkpointId) →
      (∃ mapping, store.files.metadata.get? checkpointId = some mapping) ∧ ∀ other ∈ store.completed, other ≤ checkpointId := by
    intro checkpointId latest
    obtain ⟨present,above⟩ := latestCheckpoint_newest sha store.files sound checkpointId latest
    refine ⟨present,fun other done => ?_⟩
    obtain ⟨newer,stored,older⟩ := consistent.newest other done
    exact Nat.le_trans older (above newer stored)
  refine ⟨?_,?_,?_⟩
  · intro checkpointId latest
    obtain ⟨⟨mapping,stored⟩,above⟩ := top checkpointId latest
    exact ⟨consistent.recorded checkpointId mapping stored,above⟩
  · intro checkpointId latest
    obtain ⟨⟨mapping,stored⟩,above⟩ := top checkpointId latest
    obtain ⟨envelope,decoded,_,entries⟩ := consistent.decodes sha store checkpointId mapping stored
    refine ⟨mapping,envelope,stored,decoded,fun entry listed => ?_⟩
    rw [entries] at listed
    obtain ⟨payload,found,size,sum⟩ := consistent.readable checkpointId mapping stored above entry listed
    have inside := consistent.directory sha store checkpointId mapping stored entry listed
    exact ⟨payload,by simp [readOperatorState,inside,found,size,sum],size,sum⟩
  · intro retainedCount after cleaned checkpointId kept
    obtain ⟨removed,split,_,metadata,states⟩ := cleanupCheckpoints_cases retainedCount store.files after cleaned
    have outside := (removed_older retainedCount store.files removed split checkpointId kept).1
    refine ⟨by rw [metadata,if_neg outside],fun mapping stored entry listed => ?_⟩
    have inside := consistent.directory sha store checkpointId mapping stored entry listed
    rw [states,inside,if_neg outside]

section
variable (consistent : Consistent sha store)
include consistent

theorem cleanup (retainedCount : Int) (after : Files)
    (cleaned : cleanupCheckpoints retainedCount store.files = .ok after) : Consistent sha {store with files := after} := by
  obtain ⟨removed,split,nonempty,metadata,states⟩ := cleanupCheckpoints_cases retainedCount store.files after cleaned
  have older := removed_older retainedCount store.files removed split
  have before : ∀ revision mapping, after.metadata.get? revision = some mapping →
      store.files.metadata.get? revision = some mapping ∧ revision ∉ removed := by
    intro revision mapping stored
    rw [metadata] at stored
    split at stored
    next => cases stored
    next outside => exact ⟨stored,outside⟩
  refine ⟨?_,?_,?_,?_⟩
  · exact fun revision mapping stored => consistent.written revision mapping (before revision mapping stored).1
  · exact fun revision mapping stored => consistent.recorded revision mapping (before revision mapping stored).1
  · intro revision done
    obtain ⟨other,stored,newer⟩ := consistent.newest revision done
    have listed := (mem_listCompletedCheckpoints store.files other).mpr stored
    have keeps : ∀ kept ∈ retained retainedCount store.files, kept ∈ after.metadata.keys := by
      intro kept inside
      have present : kept ∈ listCompletedCheckpoints store.files := split ▸ mem_append_right _ inside
      obtain ⟨mapping,found⟩ := (Dict.mem_keys _ _).mp ((mem_listCompletedCheckpoints _ _).mp present)
      refine (Dict.mem_keys _ _).mpr ⟨mapping,?_⟩
      rw [metadata,if_neg (older kept inside).1,found]
    by_cases gone : other ∈ removed
    · obtain ⟨kept,inside⟩ := exists_mem_of_ne_nil _ (nonempty (ne_nil_of_mem listed))
      exact ⟨kept,keeps kept inside,Nat.le_trans newer ((older kept inside).2 other gone)⟩
    · rw [← split] at listed
      exact ⟨other,keeps other ((mem_append.mp listed).resolve_left gone),newer⟩
  · intro revision mapping stored above entry listed
    obtain ⟨stored,outside⟩ := before revision mapping stored
    obtain ⟨payload,found,size,sum⟩ := consistent.readable revision mapping stored above entry listed
    have inside := consistent.directory sha store revision mapping stored entry listed
    refine ⟨payload,?_,size,sum⟩
    change after.states.get? entry.uri = some payload
    rw [states,inside,if_neg outside]
    exact found

theorem extended (after : Files) (grown : Extends store.files after) :
    Consistent sha {store with files := after} := by
  have same := grown.metadata
  refine ⟨?_,?_,?_,?_⟩
  · exact fun revision mapping stored => consistent.written revision mapping (same ▸ stored)
  · exact fun revision mapping stored => consistent.recorded revision mapping (same ▸ stored)
  · exact fun revision done => same ▸ consistent.newest revision done
  · intro revision mapping stored above entry listed
    obtain ⟨payload,found,size,sum⟩ := consistent.readable revision mapping (same ▸ stored) above entry listed
    exact ⟨payload,grown.states _ payload found,size,sum⟩

theorem published (call : WriteCall) (crash : Option Crash) (revision : Nat) (after : Files)
    (faithful : Faithful sha store (.write call crash)) (valid : call.validate = .ok revision)
    (fresh : store.files.metadata.get? revision = none)
    (survives : Survives (missing sha store.files revision call.items) crash)
    (metadata : after.metadata = store.files.metadata.set revision (call.mapping sha revision))
    (states : ∀ path payload, store.files.states.get? path = some payload → after.states.get? path = some payload)
    (contents : ∀ item ∈ call.items, after.states.get? (statePath sha revision item) =
      some ((store.files.states.get? (statePath sha revision item)).getD item.2)) (completed : List Nat)
    (done : ∀ other, other ∈ completed ↔ other ∈ store.completed ∨ other = revision) :
    Consistent sha ⟨after,completed⟩ := by
  have stored : ∀ other mapping, after.metadata.get? other = some mapping →
      (other = revision ∧ mapping = call.mapping sha revision) ∨ store.files.metadata.get? other = some mapping := by
    intro other mapping found
    rw [metadata,Dict.get?_set] at found
    split at found
    next same => exact .inl ⟨same,(some.inj found).symm⟩
    next => exact .inr found
  refine ⟨?_,?_,?_,?_⟩
  · intro other mapping found
    rcases stored other mapping found with ⟨rfl,rfl⟩ | old
    · exact ⟨call,valid,rfl⟩
    · exact consistent.written other mapping old
  · intro other mapping found
    rcases stored other mapping found with ⟨same,_⟩ | old
    · exact (done other).mpr (.inr same)
    · exact (done other).mpr (.inl (consistent.recorded other mapping old))
  · intro other inside
    rcases (done other).mp inside with old | rfl
    · obtain ⟨newer,present,above⟩ := consistent.newest other old
      obtain ⟨mapping,found⟩ := (Dict.mem_keys _ _).mp present
      refine ⟨newer,(Dict.mem_keys _ _).mpr ⟨if newer = revision then call.mapping sha revision else mapping,?_⟩,above⟩
      rw [metadata,Dict.get?_set]
      split
      next => rfl
      next => exact found
    · exact ⟨other,(Dict.mem_keys _ _).mpr ⟨_,by rw [metadata,Dict.get?_set,if_pos rfl]⟩,Nat.le_refl _⟩
  · intro other mapping found above entry listed
    have newest : ∀ earlier ∈ store.completed, earlier ≤ other :=
      fun earlier inside => above earlier ((done earlier).mpr (.inl inside))
    rcases stored other mapping found with ⟨rfl,rfl⟩ | old
    · obtain ⟨item,inside,rfl⟩ := List.mem_map.mp listed
      have content := contents item inside
      refine ⟨_,content,?_⟩
      cases present : store.files.states.get? (statePath sha other item) with
      | none => exact ⟨rfl,rfl⟩
      | some payload =>
        obtain ⟨size,sum⟩ := faithful other ⟨valid,fresh,newest,survives⟩ item inside payload present
        exact ⟨congrArg Int.ofNat size,sum⟩
    · obtain ⟨payload,present,size,sum⟩ := consistent.readable other mapping old newest entry listed
      exact ⟨payload,states _ payload present,size,sum⟩

end

theorem step (consistent : Consistent sha store) (action : Action) (next : Store) (faithful : Faithful sha store action)
    (taken : step sha store action = some next) : Consistent sha next := by
  cases action with
  | cleanup retainedCount =>
    unfold CheckpointIO.step at taken
    dsimp only at taken
    split at taken
    next =>
      cases taken
      exact consistent
    next after cleaned =>
      cases taken
      exact consistent.cleanup sha store retainedCount after cleaned
  | write call crash =>
    cases taken
    generalize wrote : (writeCheckpoint sha call crash store.files).1 = after
    rcases writeCheckpoint_cases sha call crash store.files after wrote with
      grown | ⟨revision,valid,fresh,survives,metadata,states,contents⟩
    · have none : after.metadata.keys.filter (fun revision => !store.files.metadata.contains revision) = [] := by
        rw [grown.metadata]
        refine filter_eq_nil_iff.mpr (fun revision stored => ?_)
        obtain ⟨mapping,found⟩ := (Dict.mem_keys _ _).mp stored
        simp [contains_eq_isSome,found]
      rw [none,append_nil]
      exact consistent.extended sha store after grown
    · refine consistent.published sha store call crash revision after faithful valid fresh survives metadata states contents _
        (fun other => ?_)
      rw [mem_append,mem_filter,Dict.mem_keys,metadata]
      by_cases same : other = revision
      · simp [same,contains_eq_isSome,fresh]
      · cases found : store.files.metadata.get? other <;> simp [same,contains_eq_isSome,found]

end Consistent

end consistent

/-- A job whose writes find no other bytes where their managed states belong, each time that they publish the newest
revision, can always restore what it published. -/
theorem published_checkpoints_restorable (root : String) (actions : List Action) (store : Store)
    (faithful : Runs.Along (step sha) (Faithful sha) ⟨Files.empty,[]⟩ actions)
    (run : Runs.exec (step sha) ⟨Files.empty,[]⟩ actions = some store) : Restorable sha root store := by
  have consistent := Runs.exec_invariant (step sha) (Faithful sha) (Consistent sha)
    (fun state action next consistent faithful taken => consistent.step sha state action next faithful taken)
    actions ⟨Files.empty,[]⟩ store (Consistent.empty sha) faithful run
  exact consistent.restorable sha store root

section truncated

/-- The digests of `b"k"` and of no bytes. -/
def shortDigests : Sha256 where
  hexdigest payload :=
    if payload = [107] then "8254c329a92850f6d539dd376f4816ee2764517da5e0235514af433164480d7a"
    else "e3b0c44298fc1c149afbf4c8996fb92427ae41e4649b934ca495991b7852b855"
  digits payload := by split <;> simp [Char.isDigit]

/-- One task `map-0` with the one byte `k` as its managed state. -/
def oneState : WriteCall := ⟨[],1,0,Dict.ofList [("map-0",[107])],[]⟩

/-- The process dies when it has opened the state file, and the next one writes the same checkpoint again. -/
def diesInStateFile : List Action := [.write oneState (some ⟨0,some 0⟩),.write oneState none]

/-- The process dies when the state file is complete, the next one publishes, and a cleanup follows. -/
def diesAfterStateFile : List Action := [.write oneState (some ⟨1,none⟩),.write oneState none,.cleanup 1]

def Agrees (store : Store) : Action → Prop
  | .cleanup _ => True
  | .write call _ => ∀ stored ∈ store.files.states.entries, ∀ item ∈ call.items, stored.2 = item.2

instance (store : Store) : (action : Action) → Decidable (Agrees store action)
  | .cleanup _ => .isTrue trivial
  | .write call _ => inferInstanceAs (Decidable (∀ stored ∈ store.files.states.entries, ∀ item ∈ call.items, stored.2 = item.2))

theorem faithful_of_agrees (store : Store) (action : Action) (agrees : Agrees store action) : Faithful sha store action := by
  cases action with
  | cleanup retainedCount => trivial
  | write call crash =>
    intro revision _ item inside payload found
    have same : payload = item.2 := agrees (_,payload) ((Dict.get?_eq_some _ _ _).mp found) item inside
    rw [same]
    exact ⟨rfl,rfl⟩

theorem published_checkpoints_restorable_afterStateFile :
    ∃ store, Runs.exec (step shortDigests) ⟨Files.empty,[]⟩ diesAfterStateFile = some store ∧
      store.completed = [1] ∧ Restorable shortDigests "file:///checkpoints/job" store := by
  have faithful : Runs.Along (step shortDigests) (Faithful shortDigests) ⟨Files.empty,[]⟩ diesAfterStateFile :=
    Runs.Along.imp _ _ Agrees diesAfterStateFile _ (faithful_of_agrees shortDigests) (by decide +kernel)
  obtain ⟨store,run,completed⟩ := Runs.exec_check (step shortDigests) ⟨Files.empty,[]⟩ diesAfterStateFile
    (fun store => store.completed = [1]) (by decide +kernel)
  exact ⟨store,run,completed,published_checkpoints_restorable shortDigests _ diesAfterStateFile store faithful run⟩

def unreadable (root : String) (store : Store) : Bool :=
  match latestCheckpoint sha store.files with
  | .ok (some checkpointId) =>
    ((store.files.metadata.get? checkpointId).bind (fun mapping => (decodeCheckpointEnvelope sha mapping).toOption)).any
      (fun envelope => envelope.operatorStates.any (fun entry =>
        (readOperatorState sha root store.files checkpointId entry).toOption.isNone))
  | _ => false

theorem not_restorable (root : String) (store : Store) (broken : unreadable sha root store = true) :
    ¬ Restorable sha root store := by
  intro restorable
  unfold unreadable at broken
  split at broken
  next checkpointId latest =>
    obtain ⟨mapping,envelope,stored,decoded,entries⟩ := restorable.readable checkpointId latest
    rw [stored,bind_some,decoded] at broken
    obtain ⟨entry,listed,nothing⟩ := List.any_eq_true.mp broken
    obtain ⟨payload,found,_⟩ := entries entry listed
    rw [found] at nothing
    cases nothing
  next => cases broken

/-- A state file that a crash left empty is what the published checkpoint refers to. -/
theorem truncated_state_is_published :
    ∃ store, Runs.exec (step shortDigests) ⟨Files.empty,[]⟩ diesInStateFile = some store ∧
      ¬ Restorable shortDigests "file:///checkpoints/job" store := by
  obtain ⟨store,run,broken⟩ := Runs.exec_check (step shortDigests) ⟨Files.empty,[]⟩ diesInStateFile
    (fun store => unreadable shortDigests "file:///checkpoints/job" store = true) (by decide +kernel)
  exact ⟨store,run,not_restorable shortDigests _ store broken⟩

end truncated

end Klein.CheckpointIO
