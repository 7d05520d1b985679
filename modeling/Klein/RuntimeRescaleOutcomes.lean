import Mathlib.Data.List.Perm.Subperm
import Mathlib.Data.List.Range
import Klein.RuntimeRescale
import Klein.Runs

/-! The outcome of a retained actor's rescale is one, in every run over few enough
operations in which no operation is prepared after a rollback of it was acknowledged
with nothing prepared; and in every other run it is not. -/
namespace Klein.RuntimeRescale
open List Option Runs

namespace StreamTask
variable (task : StreamTask)

def Returned (call : Call) (operationId : String) : Prop :=
  ∃ answer ∈ task.answers, answer.call = call ∧ answer.operationId = operationId ∧ answer.result = .ok true

def elsewhere : List Nat :=
  (task.runtimeRescaleTransaction.toList.map (fun transaction => transaction.pending.number)) ++
    (match task.runtimeRescaleLock with
      | some (.discarding _ pending) => [pending.number]
      | _ => []) ++
    task.retiredRuntimes.map TaskRuntime.number ++ task.closed.map TaskRuntime.number

structure OneOutcome : Prop where
  exclusive : ∀ operationId, ¬ (task.Returned .commit operationId ∧ task.Returned .rollback operationId)
  rolledBack : ∀ operationId, task.Returned .rollback operationId →
    (∀ transaction ∈ task.runtimeRescaleTransaction, transaction.operationId ≠ operationId) ∧
      ∀ runtime ∈ task.installed, runtime.operation ≠ some operationId
  resumed : ∀ answer ∈ task.answers, answer.call = .resume → answer.result = .ok true →
    answer.left ≠ some answer.operationId
  active : ∃ runtime, task.activeRuntime = some runtime ∧
    ∀ number < task.built.length, number ∉ task.elsewhere ↔ number = runtime.number

def InProgress (operationId : String) : Prop :=
  (∃ transaction ∈ task.runtimeRescaleTransaction, transaction.operationId = operationId) ∨
    ∃ descriptor previous, task.runtimeRescaleLock = some (.building operationId descriptor previous)

structure Engaged (ids : List String) : Prop where
  open' : ∀ operationId, task.InProgress operationId → operationId ∈ ids ∧
    task.runtimeRescaleOutcomes.get? operationId = none ∧ task.rescaleOperationId = some operationId ∧
    task.retiredRuntimes.length < retiredRuntimeLimit
  replaces : ∀ transaction ∈ task.runtimeRescaleTransaction, task.activeRuntime = some transaction.previous ∧
    transaction.pending.operation = some transaction.operationId
  building : ∀ operationId descriptor previous,
    task.runtimeRescaleLock = some (.building operationId descriptor previous) →
      task.runtimeRescaleTransaction = none ∧ task.activeRuntime = some previous ∧
        task.runtimeRescalePreparing = some operationId
  discarding : ∀ operationId pending, task.runtimeRescaleLock ≠ some (.discarding operationId pending)
  closing : ∀ operationId, task.runtimeRescaleLock = some (.closing operationId) →
    ∃ transaction, task.runtimeRescaleTransaction = some transaction ∧ transaction.operationId = operationId
  current : ∀ operationId, task.rescaleOperationId = some operationId →
    operationId ∈ task.entered ∧ operationId ∉ task.rescaleTombstones
  past : ∀ operationId ∈ task.rescaleTombstones, operationId ∈ task.entered

structure Remembered (ids : List String) : Prop where
  known : ∀ operationId ∈ task.runtimeRescaleOutcomes.keys, operationId ∈ ids
  installed : ∀ runtime ∈ task.installed, ∀ operationId, runtime.operation = some operationId →
    task.runtimeRescaleOutcomes.get? operationId = some .committed
  committed : ∀ operationId, task.Returned .commit operationId →
    task.runtimeRescaleOutcomes.get? operationId = some .committed
  rolledBack : ∀ operationId, task.Returned .rollback operationId →
    task.runtimeRescaleOutcomes.get? operationId = some .rolledBack ∨ operationId ∈ task.untouched
  noted : ∀ operationId ∈ task.untouched, task.Returned .rollback operationId
  resumed : ∀ answer ∈ task.answers, answer.call = .resume → answer.result = .ok true →
    answer.left ≠ some answer.operationId

structure Placed : Prop where
  active : task.activeRuntime.isSome
  places : (task.activeRuntime.toList.map TaskRuntime.number ++ task.elsewhere).Perm (List.range task.built.length)

structure Consistent (ids : List String) : Prop extends task.Engaged ids,task.Remembered ids,task.Placed

def Apart : Prop := ∀ operationId ∈ task.untouched,
  task.runtimeRescaleOutcomes.get? operationId ≠ some .committed ∧
    ∀ transaction ∈ task.runtimeRescaleTransaction, transaction.operationId ≠ operationId

end StreamTask

/-- A preparation that succeeds is not one of an operation whose rollback had been
acknowledged with nothing prepared. -/
def Fresh (task : StreamTask) : Action → Prop
  | .built true => ∀ operationId descriptor previous,
      task.runtimeRescaleLock = some (.building operationId descriptor previous) → operationId ∉ task.untouched
  | _ => True

namespace StreamTask
variable (ids : List String) (task : StreamTask)

theorem Returned.answer (call made : Call) (operationId other : String) (result : Except TaskError Bool) :
    (task.answer made other result).Returned call operationId ↔ task.Returned call operationId ∨
      made = call ∧ other = operationId ∧ result = .ok true := by
  constructor
  · rintro ⟨answer,inside,rest⟩
    rcases mem_append.mp inside with old | new
    · exact .inl ⟨answer,old,rest⟩
    · obtain rfl := mem_singleton.mp new
      exact .inr rest
  · rintro (⟨answer,inside,rest⟩ | rest)
    · exact ⟨answer,mem_append_left _ inside,rest⟩
    · exact ⟨_,mem_append_right _ (mem_singleton.mpr rfl),rest⟩

theorem Consistent.answer (consistent : task.Consistent ids) (call : Call) (operationId : String)
    (result : Except TaskError Bool)
    (commits : call = .commit → result = .ok true → task.runtimeRescaleOutcomes.get? operationId = some .committed)
    (rolls : call = .rollback → result = .ok true →
      task.runtimeRescaleOutcomes.get? operationId = some .rolledBack ∨ operationId ∈ task.untouched)
    (resumes : call = .resume → result = .ok true →
      ∀ transaction ∈ task.runtimeRescaleTransaction, transaction.operationId ≠ operationId) :
    (task.answer call operationId result).Consistent ids :=
  { consistent with
    committed := fun other returned => by
      rcases (Returned.answer task .commit call other operationId result).mp returned with old | ⟨same,rfl,ok⟩
      · exact consistent.committed other old
      · exact commits same ok
    rolledBack := fun other returned => by
      rcases (Returned.answer task .rollback call other operationId result).mp returned with old | ⟨same,rfl,ok⟩
      · exact consistent.rolledBack other old
      · exact rolls same ok
    noted := fun other inside =>
      (Returned.answer task .rollback call other operationId result).mpr (.inl (consistent.noted other inside))
    resumed := fun answer inside resume ok => by
      rcases mem_append.mp inside with old | new
      · exact consistent.resumed answer old resume ok
      · obtain rfl := mem_singleton.mp new
        intro left
        obtain ⟨transaction,held,same⟩ := map_eq_some_iff.mp left
        exact resumes resume ok transaction held same }

section remember
variable (few : ids.length ≤ outcomeLimit) (known : ∀ operationId ∈ task.runtimeRescaleOutcomes.keys, operationId ∈ ids)
variable (operationId : String) (named : operationId ∈ ids) (outcome : RuntimeRescaleOutcome)

include few known named in
theorem remember_outcomes : (task.rememberRuntimeRescaleOutcome operationId outcome).runtimeRescaleOutcomes =
    task.runtimeRescaleOutcomes.set operationId outcome := by
  have inside : (task.runtimeRescaleOutcomes.set operationId outcome).keys ⊆ ids := by
    intro other member
    obtain ⟨value,found⟩ := (Dict.mem_keys _ other).mp member
    rw [Dict.get?_set] at found
    split at found
    next same => exact same ▸ named
    next => exact known other ((Dict.mem_keys _ other).mpr ⟨value,found⟩)
  have bound := (subperm_of_subset (task.runtimeRescaleOutcomes.set operationId outcome).distinct inside).length_le
  have short : (task.runtimeRescaleOutcomes.set operationId outcome).entries.length - outcomeLimit = 0 := by
    simp only [length_map] at bound
    omega
  unfold rememberRuntimeRescaleOutcome
  dsimp only
  rw [short]
  rfl

include few named in
theorem Consistent.remember (consistent : task.Consistent ids)
    (unknown : task.runtimeRescaleOutcomes.get? operationId = none) (ended : ¬ task.InProgress operationId) :
    (task.rememberRuntimeRescaleOutcome operationId outcome).Consistent ids := by
  have outcomes := remember_outcomes ids task few consistent.known operationId named outcome
  have others (other : String) (result : RuntimeRescaleOutcome)
      (found : task.runtimeRescaleOutcomes.get? other = some result) :
      (task.rememberRuntimeRescaleOutcome operationId outcome).runtimeRescaleOutcomes.get? other = some result := by
    have different : other ≠ operationId := by
      rintro rfl
      rw [unknown] at found
      contradiction
    rw [outcomes,Dict.get?_set,if_neg different]
    exact found
  exact { consistent with
    open' := fun other busy => by
      obtain ⟨listed,none',rest⟩ := consistent.open' other busy
      have different : other ≠ operationId := by
        rintro rfl
        exact ended busy
      refine ⟨listed,?_,rest⟩
      rw [outcomes,Dict.get?_set,if_neg different]
      exact none'
    known := fun other inside => by
      rw [outcomes] at inside
      obtain ⟨value,found⟩ := (Dict.mem_keys _ other).mp inside
      rw [Dict.get?_set] at found
      split at found
      next same => exact same ▸ named
      next => exact consistent.known other ((Dict.mem_keys _ other).mpr ⟨value,found⟩)
    installed := fun runtime inside other own => others other _ (consistent.installed runtime inside other own)
    committed := fun other returned => others other _ (consistent.committed other returned)
    rolledBack := fun other returned => (consistent.rolledBack other returned).imp_left (others other _) }

end remember

theorem InProgress.none (operationId : String) (unprepared : task.runtimeRescaleTransaction = none)
    (free : ∀ descriptor previous, task.runtimeRescaleLock ≠ some (.building operationId descriptor previous)) :
    ¬ task.InProgress operationId := by
  rintro (⟨transaction,held,-⟩ | ⟨descriptor,previous,held⟩)
  · rw [unprepared] at held
    contradiction
  · exact free descriptor previous held

section prepare
variable (few : ids.length ≤ outcomeLimit) (operationId : String) (named : operationId ∈ ids)

theorem checkPreparation_ok (descriptor : TaskDeploymentDescriptor) (previous : TaskRuntime)
    (checked : task.checkPreparation operationId descriptor = .ok previous) :
    task.rescaleOperationId = some operationId ∧ task.activeRuntime = some previous := by
  unfold checkPreparation at checked
  split at checked
  next => contradiction
  next entered =>
    split at checked
    next => contradiction
    next =>
      split at checked
      next runtime _ active =>
        refine ⟨not_not.mp (fun other => entered (.inl other)),?_⟩
        cases valid : task.validateRuntimeRescaleDescriptor descriptor operationId with
        | error error => simp [valid,Except.map] at checked
        | ok =>
          simp only [valid,Except.map,Except.ok.injEq] at checked
          rw [active,checked]
      next => contradiction

include few named in
theorem Consistent.prepare (consistent : task.Consistent ids) (free : task.runtimeRescaleLock = none)
    (descriptor : TaskDeploymentDescriptor) : (task.prepareRuntimeRescale operationId descriptor).Consistent ids := by
  unfold prepareRuntimeRescale
  split
  next => exact consistent.answer ids task .prepare operationId _ (by simp) (by simp) (by simp)
  next unknown =>
    split
    next => exact consistent.answer ids task .prepare operationId _ (by simp) (by simp) (by simp)
    next unprepared =>
      split
      next => exact consistent.answer ids task .prepare operationId _ (by simp) (by simp) (by simp)
      next =>
        split
        next => exact consistent.answer ids task .prepare operationId _ (by simp) (by simp) (by simp)
        next room =>
          split
          next =>
            have ended := InProgress.none task operationId unprepared (by simp [free])
            exact (consistent.remember ids task few operationId named .rolledBack unknown ended).answer ids _ .prepare
              operationId _ (by simp) (by simp) (by simp)
          next previous checked =>
            obtain ⟨entered,active⟩ := checkPreparation_ok task operationId descriptor previous checked
            refine { consistent with
              open' := ?_
              building := ?_
              discarding := by simp
              closing := by simp
              places := ?_ }
            · rintro other (⟨transaction,held,-⟩ | ⟨_,_,held⟩)
              · have held : task.runtimeRescaleTransaction = some transaction := held
                rw [unprepared] at held
                contradiction
              · cases held
                exact ⟨named,unknown,entered,not_le.mp room⟩
            · rintro other _ _ ⟨⟩
              exact ⟨unprepared,active,rfl⟩
            · have places := consistent.places
              simpa [elsewhere,free] using places

end prepare

section awaits
variable (few : ids.length ≤ outcomeLimit)

include few in
theorem Consistent.built (consistent : task.Consistent ids) (succeeds : Bool) (next : StreamTask)
    (taken : task.runtimeBuilt succeeds = some next) : next.Consistent ids := by
  unfold runtimeBuilt at taken
  split at taken
  next operationId descriptor previous held =>
    obtain ⟨unprepared,active,-⟩ := consistent.building operationId descriptor previous held
    obtain ⟨named,unknown,entered,room⟩ := consistent.open' operationId (.inr ⟨descriptor,previous,held⟩)
    split at taken
    next =>
      have same : ¬ task.activeRuntime.map TaskRuntime.number ≠ some previous.number := by simp [active]
      dsimp only at taken
      rw [if_neg same] at taken
      cases taken
      refine Consistent.answer ids _ ?_ .prepare operationId _ (by simp) (by simp) (by simp)
      refine { consistent with
        open' := ?_
        replaces := ?_
        building := by simp
        discarding := by simp
        closing := by simp
        places := ?_ }
      · rintro other (⟨transaction,made,same⟩ | ⟨_,_,impossible⟩)
        · cases made
          cases same
          exact ⟨named,unknown,entered,room⟩
        · contradiction
      · rintro transaction ⟨⟩
        exact ⟨active,rfl⟩
      · have places := consistent.places
        simp only [elsewhere,active,unprepared,held,toList_some,toList_none,map_nil,nil_append,
          map_cons,length_append,length_singleton,range_succ,append_nil] at places ⊢
        refine List.Perm.trans ?_ (places.append_right [task.built.length])
        have front : ([task.built.length] ++ (task.retiredRuntimes.map TaskRuntime.number ++
            task.closed.map TaskRuntime.number)).Perm ((task.retiredRuntimes.map TaskRuntime.number ++
              task.closed.map TaskRuntime.number) ++ [task.built.length]) := perm_append_comm
        simpa using front.append_left [previous.number]
    next =>
      cases taken
      refine Consistent.answer ids _ ?_ .prepare operationId _ (by simp) (by simp) (by simp)
      refine Consistent.remember ids _ few operationId named .rolledBack ?_ unknown ?_
      · refine { consistent with
          open' := ?_
          building := by simp
          discarding := by simp
          closing := by simp
          places := ?_ }
        · rintro other (⟨transaction,made,-⟩ | ⟨_,_,impossible⟩)
          · have made : task.runtimeRescaleTransaction = some transaction := made
            rw [unprepared] at made
            contradiction
          · contradiction
        · have places := consistent.places
          simpa [elsewhere,held] using places
      · exact InProgress.none _ operationId unprepared (by simp)
  next => contradiction

theorem Consistent.discarded (consistent : task.Consistent ids) : task.pendingDiscarded = none := by
  unfold pendingDiscarded
  split
  next operationId pending held => exact absurd held (consistent.discarding operationId pending)
  next => rfl

include few in
theorem Consistent.closed' (consistent : task.Consistent ids) (next : StreamTask)
    (taken : task.pendingClosed = some next) : next.Consistent ids := by
  unfold pendingClosed at taken
  split at taken
  next operationId transaction held prepared =>
    cases taken
    obtain ⟨owner,same,mine⟩ := consistent.closing operationId held
    rw [prepared] at same
    cases same
    obtain ⟨named,unknown,-⟩ := consistent.open' operationId (.inl ⟨transaction,prepared,mine⟩)
    have outcomes := remember_outcomes ids {task with
      closed := task.closed ++ [transaction.pending]
      runtimeRescaleTransaction := none
      runtimeRescaleLock := none} few consistent.known operationId named .rolledBack
    refine Consistent.answer ids _ ?_ .rollback operationId _ (by simp) (fun _ _ => .inl ?_) (by simp)
    · refine Consistent.remember ids _ few operationId named .rolledBack ?_ unknown (InProgress.none _ _ rfl (by simp))
      refine { consistent with
        open' := ?_
        replaces := by simp
        building := by simp
        discarding := by simp
        closing := by simp
        places := ?_ }
      · rintro other (⟨_,impossible,-⟩ | ⟨_,_,impossible⟩) <;> contradiction
      · have places := consistent.places
        simp only [elsewhere,prepared,held,toList_some,toList_none,map_cons,map_nil,
          nil_append,append_nil,map_append] at places ⊢
        refine List.Perm.trans ?_ places
        refine List.Perm.append_left _ ?_
        have moved : ((task.retiredRuntimes.map TaskRuntime.number ++ task.closed.map TaskRuntime.number) ++
            [transaction.pending.number]).Perm ([transaction.pending.number] ++
              (task.retiredRuntimes.map TaskRuntime.number ++ task.closed.map TaskRuntime.number)) := perm_append_comm
        simpa using moved
    · rw [outcomes]
      simp
  next => contradiction

end awaits

section calls
variable (few : ids.length ≤ outcomeLimit) (operationId : String)

theorem commit_places (previous pending : Nat) (retired closed places : List Nat)
    (before : (previous::pending::(retired ++ closed)).Perm places) :
    (pending::(retired ++ [previous] ++ closed)).Perm places := by
  refine List.Perm.trans ?_ before
  refine List.Perm.trans (List.Perm.cons pending ?_) (List.Perm.swap previous pending _)
  rw [append_assoc]
  exact perm_middle

section
variable (consistent : task.Consistent ids)
include consistent

include few in
theorem Consistent.commit (free : task.runtimeRescaleLock = none) :
    (task.commitRuntimeRescale operationId).Consistent ids := by
  unfold commitRuntimeRescale
  split
  next outcome found =>
    refine consistent.answer ids task .commit operationId _ (fun _ ok => ?_) (by simp) (by simp)
    have same : outcome = .committed := by simpa using ok
    exact same ▸ found
  next => exact consistent.answer ids task .commit operationId _ (by simp) (by simp) (by simp)
  next transaction unknown prepared =>
    split
    next => exact consistent.answer ids task .commit operationId _ (by simp) (by simp) (by simp)
    next mine =>
      have mine := not_not.mp mine
      obtain ⟨active,own⟩ := consistent.replaces transaction prepared
      obtain ⟨named,-,-,room⟩ := consistent.open' operationId (.inl ⟨transaction,prepared,mine⟩)
      rw [if_neg (by simp [active])]
      have places := consistent.places
      simp only [elsewhere,active,prepared,free,toList_some,map_cons,map_nil,append_nil,
        cons_append,nil_append] at places
      have outcomes : (task.publishTransaction transaction operationId).runtimeRescaleOutcomes =
          task.runtimeRescaleOutcomes.set operationId .committed :=
        remember_outcomes ids _ few consistent.known operationId named .committed
      have unretired : transaction.previous.number ∉ task.retiredRuntimes.map TaskRuntime.number := by
        have distinct := places.nodup_iff.mpr nodup_range
        intro inside
        exact (nodup_cons.mp distinct).1 (mem_cons_of_mem _ (mem_append_left _ inside))
      have retired : (task.publishTransaction transaction operationId).retireRuntime transaction.previous =
          .ok {task.publishTransaction transaction operationId with
            retiredRuntimes := task.retiredRuntimes ++ [transaction.previous]} := by
        unfold retireRuntime
        exact (if_neg unretired).trans (if_neg (not_le.mpr room))
      dsimp only
      rw [retired]
      refine Consistent.answer ids _ ?_ .commit operationId _ (fun _ _ => ?_) (by simp) (by simp)
      · have others (other : String) (result : RuntimeRescaleOutcome)
            (found : task.runtimeRescaleOutcomes.get? other = some result) :
            (task.publishTransaction transaction operationId).runtimeRescaleOutcomes.get? other = some result := by
          have different : other ≠ operationId := by
            rintro rfl
            rw [unknown] at found
            contradiction
          rw [outcomes,Dict.get?_set,if_neg different]
          exact found
        have unlocked : (task.publishTransaction transaction operationId).runtimeRescaleLock = none := free
        refine { consistent with
          open' := ?_
          replaces := by simp [publishTransaction,rememberRuntimeRescaleOutcome]
          building := by simp [unlocked]
          discarding := by simp [unlocked]
          closing := by simp [unlocked]
          known := ?_
          installed := ?_
          committed := fun other before => others other _ (consistent.committed other before)
          rolledBack := fun other before => (consistent.rolledBack other before).imp_left (others other _)
          active := rfl
          places := ?_ }
        · rintro other (⟨_,impossible,-⟩ | ⟨_,_,impossible⟩)
          · contradiction
          · rw [unlocked] at impossible
            contradiction
        · intro other inside
          change other ∈ (task.publishTransaction transaction operationId).runtimeRescaleOutcomes.keys at inside
          rw [outcomes] at inside
          obtain ⟨value,found⟩ := (Dict.mem_keys _ other).mp inside
          rw [Dict.get?_set] at found
          split at found
          next same => exact same ▸ named
          next => exact consistent.known other ((Dict.mem_keys _ other).mpr ⟨value,found⟩)
        · intro runtime inside other mine'
          rcases mem_append.mp inside with old | new
          · exact others other _ (consistent.installed runtime old other mine')
          · obtain rfl := mem_singleton.mp new
            rw [own,mine] at mine'
            cases mine'
            change (task.publishTransaction transaction operationId).runtimeRescaleOutcomes.get? operationId = _
            rw [outcomes]
            simp
        · have moved := commit_places _ _ _ _ _ places
          simpa [elsewhere,publishTransaction,rememberRuntimeRescaleOutcome,installRuntime,free] using moved
      · change (task.publishTransaction transaction operationId).runtimeRescaleOutcomes.get? operationId = _
        rw [outcomes]
        simp

theorem Consistent.rollback (free : task.runtimeRescaleLock = none) :
    (task.rollbackRuntimeRescale operationId).Consistent ids := by
  unfold rollbackRuntimeRescale
  split
  next outcome found =>
    refine consistent.answer ids task .rollback operationId _ (by simp) (fun _ ok => .inl ?_) (by simp)
    have same : outcome = .rolledBack := by simpa using ok
    exact same ▸ found
  next =>
    have returned (call : Call) (other : String) := Returned.answer {task with untouched := task.untouched ++ [operationId]}
      call .rollback other operationId (.ok true)
    refine { consistent with
      committed := fun other before => ?_
      rolledBack := fun other before => ?_
      noted := fun other inside => ?_
      resumed := fun answer inside resume ok => ?_ }
    · rcases (returned .commit other).mp before with old | ⟨impossible,-⟩
      · exact consistent.committed other old
      · contradiction
    · rcases (returned .rollback other).mp before with old | ⟨-,rfl,-⟩
      · exact (consistent.rolledBack other old).imp_right (mem_append_left _)
      · exact .inr (mem_append_right _ (mem_singleton.mpr rfl))
    · refine (returned .rollback other).mpr ?_
      rcases mem_append.mp inside with old | new
      · exact .inl (consistent.noted other old)
      · exact .inr ⟨rfl,(mem_singleton.mp new).symm,rfl⟩
    · rcases mem_append.mp inside with old | new
      · exact consistent.resumed answer old resume ok
      · obtain rfl := mem_singleton.mp new
        contradiction
  next transaction unknown prepared =>
    split
    next => exact consistent.answer ids task .rollback operationId _ (by simp) (by simp) (by simp)
    next mine =>
      refine { consistent with
        open' := ?_
        building := by simp
        discarding := by simp
        closing := ?_
        places := ?_ }
      · rintro other (busy | ⟨_,_,impossible⟩)
        · exact consistent.open' other (.inl busy)
        · cases impossible
      · rintro other ⟨⟩
        exact ⟨transaction,prepared,not_not.mp mine⟩
      · have places := consistent.places
        simpa [elsewhere,free] using places

theorem Consistent.resume : (task.resumeRescale operationId).Consistent ids := by
  unfold resumeRescale
  split
  next ended =>
    refine consistent.answer ids task .resume operationId _ (by simp) (by simp) (fun _ _ transaction held same => ?_)
    obtain ⟨-,-,entered,-⟩ := consistent.open' operationId (.inl ⟨transaction,held,same⟩)
    rcases ended with tombstone | none'
    · exact (consistent.current operationId entered).2 tombstone
    · rw [none'] at entered
      contradiction
  next =>
    split
    next => exact consistent.answer ids task .resume operationId _ (by simp) (by simp) (by simp)
    next mine =>
      split
      next => exact consistent.answer ids task .resume operationId _ (by simp) (by simp) (by simp)
      next unprepared =>
        split
        next => exact consistent.answer ids task .resume operationId _ (by simp) (by simp) (by simp)
        next unheld =>
          have idle (other : String) : ¬ task.InProgress other := by
            intro busy
            obtain ⟨-,-,entered,-⟩ := consistent.open' other busy
            rw [not_not.mp mine] at entered
            cases entered
            rcases busy with held | ⟨descriptor,previous,held⟩
            · exact unheld held
            · exact unprepared (consistent.building operationId descriptor previous held).2.2
          refine Consistent.answer ids _ ?_ .resume operationId _ (by simp) (by simp)
            (fun _ _ transaction held same => unheld ⟨transaction,held,same⟩)
          refine { consistent with
            open' := fun other busy => absurd busy (idle other)
            current := by simp [clearRescale]
            past := ?_ }
          intro other inside
          rcases mem_append.mp (mem_of_mem_drop inside) with old | new
          · exact consistent.past other old
          · exact (consistent.current other (mem_toList.mp new)).1

theorem Consistent.enter (role : Role) (next : StreamTask)
    (taken : step task (.enter operationId role) = some next) : next.Consistent ids := by
  simp only [step] at taken
  split at taken
  next => contradiction
  next fresh =>
    unfold beginRescale at taken
    cases current : task.rescaleOperationId with
    | some other =>
      have known := (consistent.current other current).1
      have different : other ≠ operationId := by
        rintro rfl
        exact fresh known
      simp [current,different] at taken
    | none =>
      simp only [current] at taken
      cases taken
      have idle (other : String) : ¬ task.InProgress other := by
        intro busy
        obtain ⟨-,-,entered,-⟩ := consistent.open' other busy
        rw [current] at entered
        contradiction
      refine { consistent with
        open' := fun other busy => absurd busy (idle other)
        current := ?_
        past := fun other inside => mem_append_left _ (consistent.past other inside) }
      rintro other ⟨⟩
      exact ⟨mem_append_right _ (mem_singleton.mpr rfl),fun tombstone => fresh (consistent.past _ tombstone)⟩

theorem Consistent.cleaned (position : Nat) (next : StreamTask)
    (taken : step task (.cleaned position) = some next) : next.Consistent ids := by
  simp only [step] at taken
  split at taken
  next => contradiction
  next runtime found =>
    cases taken
    refine { consistent with
      open' := fun other busy => ?_
      places := ?_ }
    · obtain ⟨named,unknown,entered,room⟩ := consistent.open' other busy
      exact ⟨named,unknown,entered,(length_eraseIdx_le _ _).trans_lt room⟩
    · have places := consistent.places
      refine List.Perm.trans ?_ places
      obtain ⟨inside,same⟩ := List.getElem?_eq_some_iff.mp found
      have split : (task.retiredRuntimes.eraseIdx position ++ [runtime]).Perm task.retiredRuntimes := by
        rw [← same]
        exact (perm_append_singleton _ _).trans (getElem_cons_eraseIdx_perm inside)
      have moved := (split.map TaskRuntime.number).append_right (task.closed.map TaskRuntime.number)
      rw [map_append,append_assoc] at moved
      simp only [elsewhere,map_append,append_assoc]
      refine .append_left _ (.append_left _ (.append_left _ ?_))
      exact (List.Perm.append_left _ perm_append_comm).trans moved

end

end calls

theorem step_consistent (few : ids.length ≤ outcomeLimit) (task : StreamTask) (action : Action) (next : StreamTask)
    (consistent : task.Consistent ids) (named : ∀ operationId ∈ action.operationId, operationId ∈ ids)
    (taken : step task action = some next) : next.Consistent ids := by
  cases action with
  | prepare operationId descriptor =>
    obtain ⟨free,done⟩ := ite_none_right_eq_some.mp taken
    cases done
    exact consistent.prepare ids task few operationId (named _ rfl) (isNone_iff_eq_none.mp free) descriptor
  | built succeeds => exact consistent.built ids task few succeeds next taken
  | discarded =>
    rw [step,consistent.discarded ids task] at taken
    contradiction
  | commit operationId =>
    obtain ⟨free,done⟩ := ite_none_right_eq_some.mp taken
    cases done
    exact consistent.commit ids task few operationId (isNone_iff_eq_none.mp free)
  | rollback operationId =>
    obtain ⟨free,done⟩ := ite_none_right_eq_some.mp taken
    cases done
    exact consistent.rollback ids task operationId (isNone_iff_eq_none.mp free)
  | closed => exact consistent.closed' ids task few next taken
  | resume operationId =>
    cases taken
    exact consistent.resume ids task operationId
  | enter operationId role => exact consistent.enter ids task operationId role next taken
  | fenced =>
    cases taken
    exact { consistent with }
  | cleaned position => exact consistent.cleaned ids task position next taken

theorem initial_consistent (descriptor : TaskDeploymentDescriptor) : (initial descriptor).Consistent ids where
  open' := by
    rintro _ (⟨_,impossible,-⟩ | ⟨_,_,impossible⟩) <;> contradiction
  replaces := fun _ impossible => by contradiction
  building := fun _ _ _ impossible => by contradiction
  discarding := fun _ _ impossible => by contradiction
  closing := fun _ impossible => by contradiction
  current := fun _ impossible => by contradiction
  past := fun _ impossible => by contradiction
  known := fun _ impossible => by contradiction
  installed := by
    intro runtime inside operationId own
    obtain rfl := mem_singleton.mp inside
    contradiction
  committed := by
    rintro _ ⟨_,impossible,-⟩
    contradiction
  rolledBack := by
    rintro _ ⟨_,impossible,-⟩
    contradiction
  noted := fun _ impossible => by contradiction
  resumed := fun _ impossible => by contradiction
  active := rfl
  places := List.Perm.refl _

section apart
variable (few : ids.length ≤ outcomeLimit) (consistent : task.Consistent ids) (apart : task.Apart)

theorem Apart.frame (next : StreamTask) (same : next.untouched = task.untouched)
    (outcomes : ∀ operationId ∈ task.untouched, next.runtimeRescaleOutcomes.get? operationId = some .committed →
      task.runtimeRescaleOutcomes.get? operationId = some .committed)
    (transaction : ∀ held ∈ next.runtimeRescaleTransaction, held ∈ task.runtimeRescaleTransaction ∨
      held.operationId ∉ task.untouched) (apart : task.Apart) : next.Apart := by
  intro operationId inside
  rw [same] at inside
  refine ⟨fun committed => (apart operationId inside).1 (outcomes operationId inside committed),fun held member equal => ?_⟩
  rcases transaction held member with old | new
  · exact (apart operationId inside).2 held old equal
  · exact new (equal ▸ inside)

include few consistent apart in
theorem Apart.remember (operationId : String) (named : operationId ∈ ids) (outcome : RuntimeRescaleOutcome)
    (other : outcome = .committed → operationId ∉ task.untouched) :
    (task.rememberRuntimeRescaleOutcome operationId outcome).Apart := by
  refine Apart.frame task _ rfl (fun found inside committed => ?_) (fun _ held => .inl held) apart
  rw [remember_outcomes ids task few consistent.known operationId named outcome,Dict.get?_set] at committed
  split at committed
  next same =>
    cases committed
    exact absurd (same ▸ inside) (other rfl)
  next => exact committed

include few consistent apart in
theorem Apart.prepare (operationId : String) (named : operationId ∈ ids) (descriptor : TaskDeploymentDescriptor) :
    (task.prepareRuntimeRescale operationId descriptor).Apart := by
  unfold prepareRuntimeRescale
  split
  next => exact apart
  next =>
    split
    next => exact apart
    next =>
      split
      next => exact apart
      next =>
        split
        next => exact apart
        next =>
          split
          next => exact Apart.remember ids task few consistent apart operationId named .rolledBack (by simp)
          next => exact apart

include few consistent apart in
theorem Apart.built (succeeds : Bool) (fresh : Fresh task (.built succeeds)) (next : StreamTask)
    (taken : task.runtimeBuilt succeeds = some next) : next.Apart := by
  unfold runtimeBuilt at taken
  split at taken
  next operationId descriptor previous held =>
    obtain ⟨named,-⟩ := consistent.open' operationId (.inr ⟨descriptor,previous,held⟩)
    obtain ⟨-,active,-⟩ := consistent.building operationId descriptor previous held
    split at taken
    next success =>
      subst success
      have same : ¬ task.activeRuntime.map TaskRuntime.number ≠ some previous.number := by simp [active]
      dsimp only at taken
      rw [if_neg same] at taken
      cases taken
      refine Apart.frame task _ rfl (fun _ _ committed => committed) ?_ apart
      rintro _ ⟨⟩
      exact .inr (fresh operationId descriptor previous held)
    next =>
      cases taken
      refine Apart.frame task _ rfl (fun other inside committed => ?_) (fun _ held => .inl held) apart
      have outcomes := remember_outcomes ids {task with runtimeRescalePreparing := none,runtimeRescaleLock := none} few
        consistent.known operationId named .rolledBack
      change (rememberRuntimeRescaleOutcome _ operationId .rolledBack).runtimeRescaleOutcomes.get? other = _ at committed
      rw [outcomes,Dict.get?_set] at committed
      split at committed
      next => contradiction
      next => exact committed
  next => contradiction

include few consistent apart in
theorem Apart.commit (operationId : String) : (task.commitRuntimeRescale operationId).Apart := by
  unfold commitRuntimeRescale
  split
  next => exact apart
  next => exact apart
  next transaction unknown prepared =>
    split
    next => exact apart
    next mine =>
      split
      next => exact apart
      next =>
        have mine := not_not.mp mine
        obtain ⟨named,-⟩ := consistent.open' operationId (.inl ⟨transaction,prepared,mine⟩)
        have touched : operationId ∉ task.untouched := fun inside => (apart operationId inside).2 transaction prepared mine
        have published : (task.publishTransaction transaction operationId).Apart := by
          refine Apart.frame task _ rfl (fun other inside committed => ?_) (fun _ impossible => by contradiction) apart
          have outcomes : (task.publishTransaction transaction operationId).runtimeRescaleOutcomes =
              task.runtimeRescaleOutcomes.set operationId .committed :=
            remember_outcomes ids _ few consistent.known operationId named .committed
          rw [outcomes,Dict.get?_set] at committed
          split at committed
          next same => exact absurd (same ▸ inside) touched
          next => exact committed
        dsimp only
        split
        next => exact published
        next retired done =>
          unfold retireRuntime at done
          split at done
          next =>
            cases done
            exact published
          next =>
            split at done
            next => contradiction
            next =>
              cases done
              exact published

include apart in
theorem Apart.rollback (operationId : String) : (task.rollbackRuntimeRescale operationId).Apart := by
  unfold rollbackRuntimeRescale
  split
  next => exact apart
  next unknown unprepared =>
    intro other inside
    rcases mem_append.mp inside with old | new
    · exact apart other old
    · obtain rfl := mem_singleton.mp new
      refine ⟨fun committed => ?_,fun _ held => ?_⟩
      · have committed : task.runtimeRescaleOutcomes.get? other = some .committed := committed
        rw [unknown] at committed
        contradiction
      · have held : task.runtimeRescaleTransaction = some _ := held
        rw [unprepared] at held
        contradiction
  next =>
    split
    · exact apart
    · exact apart

include few consistent apart in
theorem Apart.closed (next : StreamTask) (taken : task.pendingClosed = some next) : next.Apart := by
  unfold pendingClosed at taken
  split at taken
  next operationId transaction held prepared =>
    cases taken
    obtain ⟨owner,same,mine⟩ := consistent.closing operationId held
    rw [prepared] at same
    cases same
    obtain ⟨named,-⟩ := consistent.open' operationId (.inl ⟨transaction,prepared,mine⟩)
    refine Apart.frame task _ rfl (fun other inside committed => ?_) (fun _ impossible => by contradiction) apart
    have outcomes := remember_outcomes ids {task with
      closed := task.closed ++ [transaction.pending]
      runtimeRescaleTransaction := none
      runtimeRescaleLock := none} few consistent.known operationId named .rolledBack
    change (rememberRuntimeRescaleOutcome _ operationId .rolledBack).runtimeRescaleOutcomes.get? other = _ at committed
    rw [outcomes,Dict.get?_set] at committed
    split at committed
    next => contradiction
    next => exact committed
  next => contradiction

include apart in
theorem Apart.resume (operationId : String) : (task.resumeRescale operationId).Apart := by
  unfold resumeRescale
  split
  · exact apart
  · split
    · exact apart
    · split
      · exact apart
      · split <;> exact apart

include few consistent apart in
theorem step_apart (action : Action) (next : StreamTask) (named : ∀ operationId ∈ action.operationId, operationId ∈ ids)
    (fresh : Fresh task action) (taken : step task action = some next) : next.Apart := by
  cases action with
  | prepare operationId descriptor =>
    cases (ite_none_right_eq_some.mp taken).2
    exact Apart.prepare ids task few consistent apart operationId (named _ rfl) descriptor
  | built succeeds => exact Apart.built ids task few consistent apart succeeds fresh next taken
  | discarded =>
    rw [step,consistent.discarded ids task] at taken
    contradiction
  | commit operationId =>
    cases (ite_none_right_eq_some.mp taken).2
    exact Apart.commit ids task few consistent apart operationId
  | rollback operationId =>
    cases (ite_none_right_eq_some.mp taken).2
    exact Apart.rollback task apart operationId
  | closed => exact Apart.closed ids task few consistent apart next taken
  | resume operationId =>
    cases taken
    exact Apart.resume task apart operationId
  | enter operationId role =>
    simp only [step] at taken
    split at taken
    next => contradiction
    next =>
      split at taken
      next => contradiction
      next entered began =>
        cases taken
        unfold beginRescale at began
        split at began
        next =>
          split at began
          next =>
            split at began
            next => contradiction
            next =>
              cases began
              exact apart
          next => contradiction
        next =>
          cases began
          exact apart
  | fenced =>
    cases taken
    exact apart
  | cleaned position =>
    simp only [step] at taken
    split at taken
    next => contradiction
    next =>
      cases taken
      exact apart

include consistent apart in
theorem oneOutcome : task.OneOutcome where
  exclusive := by
    rintro operationId ⟨commits,rolls⟩
    have committed := consistent.committed operationId commits
    rcases consistent.rolledBack operationId rolls with rolled | untouched
    · rw [committed] at rolled
      contradiction
    · exact (apart operationId untouched).1 committed
  rolledBack := by
    intro operationId rolls
    rcases consistent.rolledBack operationId rolls with rolled | untouched
    · refine ⟨fun transaction held same => ?_,fun runtime inside own => ?_⟩
      · obtain ⟨-,unknown,-⟩ := consistent.open' operationId (.inl ⟨transaction,held,same⟩)
        rw [rolled] at unknown
        contradiction
      · have committed := consistent.installed runtime inside operationId own
        rw [rolled] at committed
        contradiction
    · exact ⟨(apart operationId untouched).2,fun runtime inside own =>
        (apart operationId untouched).1 (consistent.installed runtime inside operationId own)⟩
  resumed := consistent.resumed
  active := by
    obtain ⟨runtime,active⟩ := isSome_iff_exists.mp consistent.active
    have places := consistent.places
    rw [active] at places
    have distinct := places.nodup_iff.mpr nodup_range
    refine ⟨runtime,active,fun number below => ⟨fun absent => ?_,?_⟩⟩
    · have inside := places.mem_iff.mpr (mem_range.mpr below)
      rcases mem_append.mp inside with here | there
      · exact mem_singleton.mp here
      · exact absurd there absent
    · rintro rfl there
      exact (nodup_cons.mp distinct).1 there

end apart

theorem not_oneOutcome (consistent : task.Consistent ids) (action : Action) (next : StreamTask)
    (taken : step task action = some next) (holds : next.OneOutcome) : Fresh task action := by
  cases action with
  | built succeeds =>
    cases succeeds with
    | false => trivial
    | true =>
      intro operationId descriptor previous held untouched
      obtain ⟨-,active,-⟩ := consistent.building operationId descriptor previous held
      have same : ¬ task.activeRuntime.map TaskRuntime.number ≠ some previous.number := by simp [active]
      simp only [step,runtimeBuilt,held,if_true,if_neg same] at taken
      cases taken
      have returned := consistent.noted operationId untouched
      refine (holds.rolledBack operationId ?_).1 _ rfl rfl
      exact (Returned.answer _ .rollback .prepare operationId operationId (.ok true)).mpr (.inl returned)
  | _ => trivial

theorem fresh_of_disabled (action : Action) (disabled : step task action = none) :
    Fresh task action := by
  cases action with
  | built succeeds =>
    cases succeeds with
    | false => trivial
    | true =>
      intro operationId descriptor previous held
      simp only [step,runtimeBuilt,held,if_true] at disabled
      split at disabled <;> contradiction
  | _ => trivial

theorem along_of_outcomes (few : ids.length ≤ outcomeLimit) (labels : List Action)
    (named : ∀ action ∈ labels, ∀ operationId ∈ action.operationId, operationId ∈ ids) (task : StreamTask)
    (consistent : task.Consistent ids) (outcomes : ∀ before after, labels = before ++ after →
      ∀ next, exec step task before = some next → next.OneOutcome) : Along step Fresh task labels := by
  induction labels generalizing task with
  | nil => trivial
  | cons action rest ih =>
    refine ⟨?_,fun next taken => ?_⟩
    · cases taken : step task action with
      | none => exact fresh_of_disabled task action taken
      | some next =>
        exact not_oneOutcome ids task consistent action next taken (outcomes [action] rest rfl next (by simp [taken]))
    · have kept := step_consistent ids few task action next consistent (named action mem_cons_self) taken
      refine ih (fun other inside => named other (mem_cons_of_mem _ inside)) next kept ?_
      intro before after split last run
      refine outcomes (action::before) after (by rw [split,cons_append]) last ?_
      rw [exec_cons,taken]
      exact run

end StreamTask

/-- The rescale of a retained actor has one outcome at every moment of a run exactly
when no operation is prepared after a rollback that found nothing of it. -/
theorem rescale_has_one_outcome (descriptor : TaskDeploymentDescriptor) (ids : List String) (few : ids.length ≤ 16)
    (labels : List Action) (named : ∀ action ∈ labels, ∀ operationId ∈ action.operationId, operationId ∈ ids) :
    (∀ before after, labels = before ++ after → ∀ task, exec step (initial descriptor) before = some task →
      task.OneOutcome) ↔ Along step Fresh (initial descriptor) labels := by
  constructor
  · exact StreamTask.along_of_outcomes ids few labels named _ (StreamTask.initial_consistent ids descriptor)
  · rintro meets before after rfl task run
    let condition : StreamTask → Action → Prop := fun state action =>
      Fresh state action ∧ ∀ operationId ∈ action.operationId, operationId ∈ ids
    have both : Along step condition (initial descriptor) before := by
      refine Along.and step Fresh _ before _ (meets.earlier step Fresh before after) ?_
      exact Along.of_forall step _ before (fun _ action inside => named action (mem_append_left _ inside)) _
    obtain ⟨consistent,apart⟩ := exec_invariant step condition (fun state => state.Consistent ids ∧ state.Apart)
      (fun state action next kept met taken =>
        ⟨StreamTask.step_consistent ids few state action next kept.1 met.2 taken,
          StreamTask.step_apart ids state few kept.1 kept.2 action next met.2 met.1 taken⟩)
      before _ task ⟨StreamTask.initial_consistent ids descriptor,fun _ impossible => by contradiction⟩ both run
    exact StreamTask.oneOutcome ids task consistent apart

section decidable

instance (task : StreamTask) (call : Call) (operationId : String) : Decidable (task.Returned call operationId) :=
  inferInstanceAs (Decidable (∃ answer ∈ task.answers, _))

instance (task : StreamTask) (action : Action) : Decidable (Fresh task action) := by
  unfold Fresh
  split
  · cases held : task.runtimeRescaleLock with
    | none => exact .isTrue (by simp)
    | some awaiting =>
      cases awaiting with
      | building operationId descriptor previous =>
        exact decidable_of_iff (operationId ∉ task.untouched) (by simp)
      | _ => exact .isTrue (by simp)
  · exact .isTrue trivial

end decidable

def mapper : TaskDeploymentDescriptor where
  operator := .mk 3 "map" .oneInput "operators" "Map" false []
  vertexId := ⟨3,0⟩
  taskName := "map-0"
  taskGeneration := "g1"
  taskIndex := 0
  parallelism := 2
  jobNamespace := "job"
  outEdges := []
  inputVertexIds := [⟨1,0⟩]
  inputChannels := none
  restoreOperationId := none

def lateRollback : List Action := [.enter "resize" .target,.fenced,.prepare "resize" mapper,.built true,.commit "resize",
  .resume "resize",.rollback "resize"]

theorem rescale_has_one_outcome_committed : ∃ task, exec step (initial mapper) lateRollback = some task ∧
    task.OneOutcome := by
  obtain ⟨task,run,-⟩ := exec_check step (initial mapper) lateRollback (fun _ => True) (by decide +kernel)
  exact ⟨task,run,(rescale_has_one_outcome mapper ["resize"] (by decide) lateRollback (by decide)).mpr (by decide +kernel)
    lateRollback [] (by simp) task run⟩

/-- A rollback that arrives first is acknowledged and forgotten, and the operation is
prepared and committed after it. -/
theorem forgotten_rollback_commits : ∃ task, exec step (initial mapper) [.rollback "resize",.enter "resize" .target,
    .fenced,.prepare "resize" mapper,.built true,.commit "resize"] = some task ∧ ¬ task.OneOutcome := by
  obtain ⟨task,run,commits,rolls⟩ := exec_check step (initial mapper) [.rollback "resize",.enter "resize" .target,
    .fenced,.prepare "resize" mapper,.built true,.commit "resize"]
    (fun task => task.Returned .commit "resize" ∧ task.Returned .rollback "resize") (by decide +kernel)
  exact ⟨task,run,fun holds => holds.exclusive "resize" ⟨commits,rolls⟩⟩

end Klein.RuntimeRescale
