import Mathlib
import Klein.JobManager.RescaleRequests
import Klein.Graph.Parallelism

/-! What is true of the rescale requests of a job manager at every await: the history is
bounded, the records follow their paths, the task of the active operation agrees with its
record, the waiting calls have records and the graphs have the same parallelisms. -/
namespace Klein.JobManager
open Dict Fallible Function Klein.Graph List LogicalGraph Option

variable {ω τ : Type} [OperatorRecipe ω]

section history

theorem get?_dropFirst (operations : Dict Nat RescaleOperation) (oldest : Nat) (record : RescaleOperation)
    (rest : List (Nat × RescaleOperation)) (entries : operations.entries = (oldest,record)::rest) (key : Nat) :
    (operations.dropFirst 1).get? key = if key = oldest then none else operations.get? key := by
  have distinct := operations.distinct
  rw [entries,map_cons] at distinct
  have absent := (nodup_cons.mp distinct).1
  unfold Dict.get? Dict.dropFirst
  dsimp only
  rw [entries,drop_one,tail_cons,find?_cons]
  by_cases same : key = oldest
  · subst same
    rw [if_pos rfl,map_eq_none_iff,find?_eq_none]
    intro item inside equal
    exact absent (List.mem_map.mpr ⟨item,inside,of_decide_eq_true equal⟩)
  · rw [if_neg same,decide_eq_false (Ne.symm same)]

structure Remembered (before after : Dict Nat RescaleOperation) (key : Nat) (record : RescaleOperation) : Prop where
  bounded : after.entries.length ≤ historyLimit
  own : after.get? key = some record
  kept : ∀ other found, after.get? other = some found → other = key ∨ before.get? other = some found
  others : ∀ other found, before.get? other = some found → after.get? other = some found ∨
    ∃ oldest rest, before.entries = (other,oldest)::rest ∧ historyLimit ≤ before.entries.length

theorem remembered (operations : Dict Nat RescaleOperation) (key : Nat) (record : RescaleOperation)
    (bounded : operations.entries.length ≤ historyLimit) (absent : operations.get? key = none) :
    Remembered operations (evict none (operations.set key record).entries.length (operations.set key record)) key record := by
  have missing : operations.contains key = false := by
    rw [contains_eq_isSome,absent]
    rfl
  have entries : (operations.set key record).entries = operations.entries ++ [(key,record)] := by
    rw [entries_set,missing]
    rfl
  have size : (operations.set key record).entries.length = operations.entries.length + 1 := by
    rw [entries,length_append]
    rfl
  have apart (other : Nat) (found : RescaleOperation) (here : operations.get? other = some found) : other ≠ key := by
    intro same
    rw [same,absent] at here
    cases here
  by_cases short : operations.entries.length + 1 ≤ historyLimit
  · have same : evict none (operations.set key record).entries.length (operations.set key record) = operations.set key record := by
      rw [size]
      unfold evict
      rw [size,if_pos short]
    rw [same]
    refine ⟨by rw [size]; exact short,by rw [Dict.get?_set,if_pos rfl],fun other found here => ?_,fun other found here => .inl ?_⟩
    · rw [Dict.get?_set] at here
      split at here
      next equal => exact .inl equal
      next => exact .inr here
    · rw [Dict.get?_set,if_neg (apart other found here)]
      exact here
  · have full : operations.entries.length = historyLimit := by omega
    cases list : operations.entries with
    | nil =>
      rw [list] at full
      cases full
    | cons item rest =>
      obtain ⟨oldest,record'⟩ := item
      have first : (operations.set key record).entries = (oldest,record')::(rest ++ [(key,record)]) := by
        rw [entries,list]
        rfl
      have other : oldest ≠ key := apart oldest record' ((operations.get?_eq_some _ _).mpr (by rw [list]; exact mem_cons_self))
      have dropped : ((operations.set key record).dropFirst 1).entries.length = historyLimit := by
        unfold Dict.dropFirst
        dsimp only
        rw [length_drop,size,full]
        rfl
      have same : evict none (operations.set key record).entries.length (operations.set key record) =
          (operations.set key record).dropFirst 1 := by
        rw [size]
        unfold evict
        rw [size,if_neg short,first]
        dsimp only
        rw [if_neg (by simp),full]
        unfold evict
        exact if_pos (le_of_eq dropped)
      rw [same]
      refine ⟨le_of_eq dropped,?_,fun other' found here => ?_,fun other' found here => ?_⟩
      · rw [get?_dropFirst _ _ _ _ first,if_neg other.symm,Dict.get?_set,if_pos rfl]
      · rw [get?_dropFirst _ _ _ _ first,Dict.get?_set] at here
        split at here
        next => cases here
        next =>
          split at here
          next equal => exact .inl equal
          next => exact .inr here
      · rw [get?_dropFirst _ _ _ _ first,Dict.get?_set,if_neg (apart other' found here)]
        by_cases equal : other' = oldest
        · exact .inr ⟨record',rest,by rw [equal,list],le_of_eq full.symm⟩
        · rw [if_neg equal]
          exact .inl here

end history

section graphs
variable (fresh : ExecutionVertexId → τ) (physical : PhysicalGraph τ) (key parallelism : Nat)

theorem resizeOperator_concurrencyOf (after : PhysicalGraph τ) (done : physical.resizeOperator fresh key parallelism = .ok after)
    (other : Nat) : after.concurrencyOf other = if other = key then parallelism else physical.concurrencyOf other := by
  unfold PhysicalGraph.resizeOperator at done
  split at done
  next positive =>
    split at done
    next => cases done
    next old found =>
      unfold PhysicalGraph.rescaleOperatorSpec at done
      split at done
      next => cases done
      next old' found' =>
        cases found.symm.trans found'
        split at done
        next same =>
          obtain rfl := Except.ok.inj done
          split
          next equal =>
            subst equal
            unfold PhysicalGraph.concurrencyOf
            rw [found]
            exact same
          next => rfl
        next =>
          obtain ⟨retained,-,rest⟩ := bind_ok done
          obtain ⟨graph,made,last⟩ := bind_ok rest
          obtain rfl := Except.ok.inj last
          unfold PhysicalGraph.concurrencyOf
          rw [(ExecutionGraph.of_ofEdges _ _ _ graph made).1,Dict.get?_set]
          split
          next => rfl
          next => rfl
  next => cases done

end graphs

def Call.Awaits (waiting : Call) (id : Nat) : Prop :=
  waiting.position = .waitingTerminal id ∨ ∃ woken, waiting.position = .waitingDone id woken

namespace Manager
variable (manager : Manager ω τ)

structure Records : Prop where
  keys : ∀ id operation, manager.operations.get? id = some operation → operation.operationId = id ∧ id < manager.issued ∧
    (manager.paths id).getLast? = some operation.status
  moves : ∀ id, manager.paths id ∈ statusPaths
  unissued : ∀ id, manager.issued ≤ id → manager.paths id = []
  bounded : manager.operations.entries.length ≤ historyLimit
  valid : manager.invalid = false

def Current (id : Nat) (status : RescaleOperationStatus) : Prop :=
  ∃ operation, manager.operations.get? id = some operation ∧ operation.status = status ∧
    operation.phase = RescaleOperation.phaseOf status

/-- What a call may return: the last status of its operation, or COMPLETED at the topology commit. -/
def Outcome (path : List RescaleOperationStatus) (status : RescaleOperationStatus) : Prop :=
  (status.terminal = true ∧ status ∈ path) ∨ (status = .completed ∧ .stabilizing ∈ path)

def Fine (waiting : Call) : Prop :=
  match waiting.position with
  | .waitingTerminal id => ∃ operation, manager.operations.get? id = some operation
  | .waitingDone id woken => waiting.own = id ∧ (∃ operation, manager.operations.get? id = some operation) ∧
      (woken = false → manager.done = false ∧ manager.active = some id)
  | .returned operation => operation.operationId = waiting.own ∧ Outcome (manager.paths waiting.own) operation.status
  | .keyError _ | .hangs => False

def Attended (asking : Option Nat) : Prop :=
  ∀ call waiting, asking ≠ some call → manager.calls.get? call = some waiting → manager.Fine waiting

def Ended : Prop := ∀ id < manager.issued, manager.active ≠ some id →
  ∃ last, (manager.paths id).getLast? = some last ∧ last.terminal = true

structure Working (asking : Option Nat) (id : Nat) (status : RescaleOperationStatus) : Prop where
  records : manager.Records
  attended : manager.Attended asking
  ended : manager.Ended
  active : manager.active = some id
  current : manager.Current id status

variable {manager}

theorem Fine.of (manager manager' : Manager ω τ) (waiting : Call) (fine : manager.Fine waiting)
    (kept : ∀ id, waiting.Awaits id → ∀ operation, manager.operations.get? id = some operation →
      ∃ operation', manager'.operations.get? id = some operation')
    (paths : ∀ id, manager.paths id <+: manager'.paths id)
    (asleep : ∀ id, manager.done = false → manager.active = some id → manager'.done = false ∧ manager'.active = some id) :
    manager'.Fine waiting := by
  unfold Fine at fine ⊢
  cases position : waiting.position with
  | waitingTerminal id =>
    rw [position] at fine
    obtain ⟨operation,found⟩ := fine
    exact kept id (.inl position) operation found
  | waitingDone id woken =>
    rw [position] at fine
    obtain ⟨own,⟨operation,found⟩,unset⟩ := fine
    refine ⟨own,kept id (.inr ⟨woken,position⟩) operation found,fun quiet => ?_⟩
    exact asleep id (unset quiet).1 (unset quiet).2
  | returned operation =>
    rw [position] at fine
    refine ⟨fine.1,fine.2.imp (fun both => ⟨both.1,?_⟩) (fun both => ⟨both.1,?_⟩)⟩
    · exact (paths _).subset both.2
    · exact (paths _).subset both.2
  | keyError id =>
    rw [position] at fine
    exact fine
  | hangs =>
    rw [position] at fine
    exact fine

section records
variable (records : manager.Records)

theorem exists_set (operations : Dict Nat RescaleOperation) (id other : Nat) (operation found : RescaleOperation)
    (here : operations.get? other = some found) : ∃ operation', (operations.set id operation).get? other = some operation' := by
  rw [Dict.get?_set]
  split
  next => exact ⟨operation,rfl⟩
  next => exact ⟨found,here⟩

theorem length_set (operations : Dict Nat RescaleOperation) (id : Nat) (operation found : RescaleOperation)
    (here : operations.get? id = some found) : (operations.set id operation).entries.length = operations.entries.length := by
  rw [entries_set,contains_eq_isSome,here]
  exact length_map _

include records

theorem Records.update (id : Nat) (last status : RescaleOperationStatus) (error : Option (Option String))
    (current : manager.Current id last) (allowed : status ∈ allowedStatusTransitions last) (started : last ≠ .accepted ∨ status = .running) :
    ∃ operation, manager.update id status (RescaleOperation.phaseOf status) error = {
        manager with
        operations := manager.operations.set id operation
        paths := Function.update manager.paths id (manager.paths id ++ [status])} ∧
      (manager.update id status (RescaleOperation.phaseOf status) error).Records ∧
      (manager.update id status (RescaleOperation.phaseOf status) error).Current id status := by
  obtain ⟨operation,found,held,phased⟩ := current
  obtain ⟨own,issued,ends⟩ := records.keys id operation found
  have moved : manager.update id status (RescaleOperation.phaseOf status) error = {
      manager with
      operations := manager.operations.set id {
        operation with
        status := status
        phase := RescaleOperation.phaseOf status
        error := error.getD operation.error}
      paths := Function.update manager.paths id (manager.paths id ++ [status])} := by
    unfold Manager.update
    rw [found]
    dsimp only
    rw [operation.transition_ok status error (by rw [phased,held]) (by rw [held]; exact allowed)]
  rw [moved]
  refine ⟨_,rfl,⟨fun other record here => ?_,fun other => ?_,fun other late => ?_,?_,records.valid⟩,_,by rw [Dict.get?_set,if_pos rfl],rfl,rfl⟩
  · rw [Dict.get?_set] at here
    split at here
    next same =>
      subst same
      obtain rfl := some.inj here
      exact ⟨own,issued,by simp⟩
    next apart =>
      obtain ⟨own',issued',ends'⟩ := records.keys other record here
      refine ⟨own',issued',?_⟩
      dsimp only
      rw [update_of_ne apart]
      exact ends'
  · dsimp only
    by_cases same : other = id
    · subst same
      rw [update_self]
      exact statusPaths_snoc _ last status (records.moves other) (by rw [ends,held]) allowed started
    · rw [update_of_ne same]
      exact records.moves other
  · have apart : other ≠ id := by
      rintro rfl
      exact absurd issued (Nat.not_lt.mpr late)
    dsimp only
    rw [update_of_ne apart]
    exact records.unissued other late
  · rw [length_set _ _ _ _ found]
    exact records.bounded

theorem Records.merge (id : Nat) (status : RescaleOperationStatus) (result : RescaleResult) (current : manager.Current id status) :
    ∃ operation, manager.merge id result = {manager with operations := manager.operations.set id operation} ∧
      (manager.merge id result).Records ∧ (manager.merge id result).Current id status := by
  obtain ⟨operation,found,held,phased⟩ := current
  obtain ⟨own,issued,ends⟩ := records.keys id operation found
  have merged : manager.merge id result = {manager with operations := manager.operations.set id (operation.mergeResult result)} := by
    unfold Manager.merge
    rw [found]
  rw [merged]
  refine ⟨_,rfl,⟨fun other record here => ?_,records.moves,records.unissued,?_,records.valid⟩,
    operation.mergeResult result,by rw [Dict.get?_set,if_pos rfl],held,phased⟩
  · rw [Dict.get?_set] at here
    split at here
    next same =>
      subst same
      obtain rfl := some.inj here
      exact ⟨own,issued,ends⟩
    next => exact records.keys other record here
  · rw [length_set _ _ _ _ found]
    exact records.bounded

end records

section working
variable {asking : Option Nat} {id : Nat} {last : RescaleOperationStatus} (working : manager.Working asking id last)
include working

theorem Working.update (status : RescaleOperationStatus) (error : Option (Option String))
    (allowed : status ∈ allowedStatusTransitions last) (started : last ≠ .accepted ∨ status = .running) :
    (manager.update id status (RescaleOperation.phaseOf status) error).Working asking id status := by
  obtain ⟨operation,shape,records,current⟩ := working.records.update id last status error working.current allowed started
  have longer (other : Nat) : manager.paths other <+: (Function.update manager.paths id (manager.paths id ++ [status])) other := by
    by_cases same : other = id
    · subst same
      rw [update_self]
      exact prefix_append _ _
    · rw [update_of_ne same]
  refine ⟨records,fun call waiting other here => ?_,fun other issued apart => ?_,?_,current⟩
  · rw [shape] at here ⊢
    exact Fine.of manager _ waiting (working.attended call waiting other here) (fun _ _ _ found => exists_set _ _ _ _ _ found) longer
      (fun _ unset own => ⟨unset,own⟩)
  · rw [shape] at issued apart ⊢
    dsimp only at issued apart ⊢
    have different : other ≠ id := by
      rintro rfl
      exact apart working.active
    rw [update_of_ne different]
    exact working.ended other issued apart
  · rw [shape]
    exact working.active

theorem Working.merge (result : RescaleResult) : (manager.merge id result).Working asking id last := by
  obtain ⟨operation,shape,records,current⟩ := working.records.merge id last result working.current
  refine ⟨records,fun call waiting other here => ?_,fun other issued apart => ?_,?_,current⟩
  · rw [shape] at here ⊢
    exact Fine.of manager _ waiting (working.attended call waiting other here) (fun _ _ _ found => exists_set _ _ _ _ _ found)
      (fun _ => prefix_refl _) (fun _ unset own => ⟨unset,own⟩)
  · rw [shape] at issued apart ⊢
    exact working.ended other issued apart
  · rw [shape]
    exact working.active

end working

structure SameBook (manager manager' : Manager ω τ) : Prop where
  operations : manager'.operations = manager.operations
  paths : manager'.paths = manager.paths
  issued : manager'.issued = manager.issued
  invalid : manager'.invalid = manager.invalid
  active : manager'.active = manager.active
  done : manager'.done = manager.done

section frame
variable {asking : Option Nat} {id : Nat} {last : RescaleOperationStatus} (manager' : Manager ω τ)
  (same : SameBook manager manager')
include same

theorem SameBook.records (records : manager.Records) : manager'.Records := by
  refine ⟨?_,?_,?_,?_,?_⟩
  · rw [same.operations,same.paths,same.issued]
    exact records.keys
  · rw [same.paths]
    exact records.moves
  · rw [same.paths,same.issued]
    exact records.unissued
  · rw [same.operations]
    exact records.bounded
  · rw [same.invalid]
    exact records.valid

theorem SameBook.fine (waiting : Call) (fine : manager.Fine waiting) : manager'.Fine waiting := by
  apply Fine.of manager manager' waiting fine
  · intro id _ operation found
    exact ⟨operation,by rw [same.operations]; exact found⟩
  · intro id
    rw [same.paths]
  · intro id unset own
    exact ⟨same.done.trans unset,same.active.trans own⟩

theorem SameBook.attended (calls : manager'.calls = manager.calls) (attended : manager.Attended asking) : manager'.Attended asking := by
  intro call waiting other here
  rw [calls] at here
  exact same.fine _ waiting (attended call waiting other here)

theorem SameBook.ended (ended : manager.Ended) : manager'.Ended := by
  unfold Ended
  rw [same.issued,same.active,same.paths]
  exact ended

theorem SameBook.current (current : manager.Current id last) : manager'.Current id last := by
  unfold Current
  rw [same.operations]
  exact current

end frame

theorem Working.frame {asking : Option Nat} {id : Nat} {last : RescaleOperationStatus} (working : manager.Working asking id last)
    (manager' : Manager ω τ) (same : SameBook manager manager') (calls : manager'.calls = manager.calls) :
    manager'.Working asking id last :=
  ⟨same.records _ working.records,same.attended _ calls working.attended,same.ended _ working.ended,
    same.active.trans working.active,same.current _ working.current⟩

theorem signal_calls (call : Nat) (waiting : Call) (here : manager.signal.calls.get? call = some waiting) :
    ∃ before, manager.calls.get? call = some before ∧ (waiting = before ∨
      ∃ id woken, before.position = .waitingDone id woken ∧ waiting = {before with position := .waitingDone id true}) := by
  unfold signal at here
  dsimp only at here
  rw [get?_mapValues] at here
  obtain ⟨before,found,woken⟩ := map_eq_some_iff.mp here
  refine ⟨before,found,?_⟩
  cases position : before.position with
  | waitingDone id asleep =>
    rw [position] at woken
    exact .inr ⟨id,asleep,rfl,woken.symm⟩
  | waitingTerminal id =>
    rw [position] at woken
    exact .inl woken.symm
  | returned operation =>
    rw [position] at woken
    exact .inl woken.symm
  | keyError id =>
    rw [position] at woken
    exact .inl woken.symm
  | hangs =>
    rw [position] at woken
    exact .inl woken.symm

theorem signal_fine (asking : Option Nat) (attended : manager.Attended asking) (manager' : Manager ω τ)
    (operations : manager'.operations = manager.operations) (paths : manager'.paths = manager.paths)
    (calls : manager'.calls = manager.signal.calls) : manager'.Attended asking := by
  intro call waiting other here
  rw [calls] at here
  obtain ⟨before,found,change⟩ := signal_calls call waiting here
  have fine := attended call before other found
  unfold Fine at fine ⊢
  rcases change with rfl | ⟨id,woken,position,rfl⟩
  · cases position : waiting.position with
    | waitingTerminal id =>
      rw [position] at fine
      rw [operations]
      exact fine
    | waitingDone id woken =>
      cases woken with
      | true =>
        rw [position] at fine
        rw [operations]
        exact ⟨fine.1,fine.2.1,fun asleep => by cases asleep⟩
      | false =>
        exfalso
        unfold signal at here
        dsimp only at here
        rw [get?_mapValues,found,map_some,position] at here
        have position' := congrArg Call.position (some.inj here)
        rw [position] at position'
        cases position'
    | returned operation =>
      rw [position] at fine
      rw [paths]
      exact fine
    | keyError id =>
      rw [position] at fine
      exact fine
    | hangs =>
      rw [position] at fine
      exact fine
  · rw [position] at fine
    dsimp only
    rw [operations]
    exact ⟨fine.1,fine.2.1,fun asleep => by cases asleep⟩

theorem Working.signal {asking : Option Nat} {id : Nat} {last : RescaleOperationStatus} (working : manager.Working asking id last) :
    manager.signal.Working asking id last := by
  refine {working with records := {working.records with},attended := ?_}
  exact signal_fine asking working.attended _ rfl rfl rfl

end Manager

def Stage.status : Stage ω → RescaleOperationStatus
  | queued => .accepted
  | writing _ _ | written _ _ | reporting _ => .running
  | probing | sleeping | lastProbe => .stabilizing

def Stage.locked : Stage ω → Bool
  | writing _ _ | written _ _ | reporting _ => true
  | queued | probing | sleeping | lastProbe => false

namespace Manager
variable (manager : Manager ω τ)

def Agreed : Prop := ∀ key, manager.logicalGraph.concurrencyOf key = manager.executionGraph.concurrencyOf key ∧
  manager.executionGraph.concurrencyOf key = manager.masterGraph.concurrencyOf key

structure Resizes (task : Task ω) (resized : LogicalGraph ω) : Prop where
  positive : (task.parallelism.toNat : Int) = task.parallelism
  resized : ∀ other, resized.concurrencyOf other = if other = task.key then task.parallelism.toNat else manager.logicalGraph.concurrencyOf other
  different : manager.logicalGraph.concurrencyOf task.key ≠ task.parallelism.toNat

def Fits (task : Task ω) : Prop :=
  match task.stage with
  | .queued | .probing | .sleeping | .lastProbe => manager.Agreed
  | .writing resized result => manager.Agreed ∧ manager.Resizes task resized ∧ result.status = .completed
  | .written resized result => (∀ key, manager.logicalGraph.concurrencyOf key = manager.executionGraph.concurrencyOf key) ∧
      manager.Resizes task resized ∧
      ((∀ key, manager.masterGraph.concurrencyOf key = resized.concurrencyOf key) ∧ (result.status = .completed ∨ result.status = .failed) ∨
        manager.Agreed ∧ result.status = .failed)
  | .reporting result => manager.Agreed ∧ (result.status = .completed ∨ result.status = .failed)

structure Idle (asking : Option Nat) : Prop where
  records : manager.Records
  attended : manager.Attended asking
  ended : manager.Ended
  active : manager.active = none
  progress : manager.inProgress = false
  lock : manager.lock ≠ .rescale
  agreed : manager.Agreed

structure Busy (asking : Option Nat) (task : Task ω) : Prop where
  working : manager.Working asking task.operationId task.stage.status
  done : manager.done = true ↔ task.stage.status = .stabilizing
  lock : manager.lock = .rescale ↔ task.stage.locked = true
  fits : manager.Fits task

def Coherent (asking : Option Nat) : Prop :=
  match manager.task with
  | none => manager.Idle asking
  | some task => manager.Busy asking task

variable {manager}

section
variable (asking : Option Nat)
include asking

section
variable (coherent : manager.Coherent asking)
include coherent

theorem Coherent.records : manager.Records := by
  unfold Coherent at coherent
  split at coherent
  next => exact coherent.records
  next => exact coherent.working.records

theorem Coherent.ended : manager.Ended := by
  unfold Coherent at coherent
  split at coherent
  next => exact coherent.ended
  next => exact coherent.working.ended

theorem Coherent.attended : manager.Attended asking := by
  unfold Coherent at coherent
  split at coherent
  next => exact coherent.attended
  next => exact coherent.working.attended

end

theorem Coherent.of_task (task : Task ω) (here : manager.task = some task) (coherent : manager.Coherent asking) :
    manager.Busy asking task := by
  unfold Coherent at coherent
  rw [here] at coherent
  exact coherent

theorem Coherent.of_idle (here : manager.task = none) (coherent : manager.Coherent asking) :
    manager.Idle asking := by
  unfold Coherent at coherent
  rw [here] at coherent
  exact coherent

theorem Coherent.active_of (coherent : manager.Coherent asking) (id : Nat) (operation : RescaleOperation)
    (found : manager.operations.get? id = some operation) (open' : operation.status.terminal = false) :
    manager.active = some id ∧ (operation.status ≠ .stabilizing → manager.done = false) := by
  obtain ⟨-,issued,ends⟩ := coherent.records.keys id operation found
  have active : manager.active = some id := by
    by_contra other
    obtain ⟨last,same,terminal⟩ := coherent.ended asking id issued other
    rw [ends] at same
    cases same
    rw [open'] at terminal
    cases terminal
  refine ⟨active,fun before => ?_⟩
  cases here : manager.task with
  | none =>
    rw [(coherent.of_idle asking here).active] at active
    cases active
  | some task =>
    have busy := coherent.of_task asking task here
    have own : task.operationId = id := by
      have one := busy.working.active
      rw [active] at one
      exact (some.inj one).symm
    obtain ⟨record,found',held,-⟩ := busy.working.current
    rw [own,found] at found'
    cases found'
    rw [Bool.eq_false_iff]
    intro set
    exact before (held.trans (busy.done.mp set))

theorem Coherent.active_terminal (coherent : manager.Coherent asking) (id : Nat) (active : manager.active = some id) :
    ∃ operation, manager.operations.get? id = some operation ∧ operation.status.terminal = false := by
  cases here : manager.task with
  | none =>
    rw [(coherent.of_idle asking here).active] at active
    cases active
  | some task =>
    have busy := coherent.of_task asking task here
    have own : task.operationId = id := by
      have one := busy.working.active
      rw [active] at one
      exact (some.inj one).symm
    obtain ⟨record,found,held,-⟩ := busy.working.current
    refine ⟨record,own ▸ found,?_⟩
    rw [held]
    cases task.stage <;> rfl

end

theorem Working.finish {asking : Option Nat} {id : Nat} {last : RescaleOperationStatus} (working : manager.Working asking id last)
    (terminal : last.terminal = true) (lock : manager.lock ≠ .rescale) (agreed : manager.Agreed) :
    (manager.finish id).Idle asking ∧ (manager.finish id).task = none := by
  refine ⟨⟨{working.records with},?_,fun other issued _ => ?_,if_pos working.active,rfl,lock,agreed⟩,rfl⟩
  · exact signal_fine asking working.attended _ rfl rfl rfl
  · by_cases same : manager.active = some other
    · have own := working.active
      rw [same] at own
      cases own
      obtain ⟨operation,found,held,-⟩ := working.current
      exact ⟨last,by rw [← held]; exact (working.records.keys _ _ found).2.2,terminal⟩
    · exact working.ended other issued same

theorem Idle.coherent (asking : Option Nat) (idle : manager.Idle asking) (task : manager.task = none) : manager.Coherent asking := by
  unfold Coherent
  rw [task]
  exact idle

structure Keeps (manager manager' : Manager ω τ) : Prop where
  jobStatus : manager'.jobStatus = manager.jobStatus
  logicalGraph : manager'.logicalGraph = manager.logicalGraph
  executionGraph : manager'.executionGraph = manager.executionGraph
  masterGraph : manager'.masterGraph = manager.masterGraph
  lock : manager'.lock = manager.lock
  done : manager'.done = manager.done
  task : manager'.task = manager.task

theorem update_keeps (id : Nat) (status : RescaleOperationStatus) (phase : RescaleOperationPhase) (error : Option (Option String)) :
    Keeps manager (manager.update id status phase error) := by
  unfold update
  split
  next => exact ⟨rfl,rfl,rfl,rfl,rfl,rfl,rfl⟩
  next =>
    split
    next => exact ⟨rfl,rfl,rfl,rfl,rfl,rfl,rfl⟩
    next => exact ⟨rfl,rfl,rfl,rfl,rfl,rfl,rfl⟩

theorem merge_keeps (id : Nat) (result : RescaleResult) : Keeps manager (manager.merge id result) := by
  unfold merge
  split
  next => exact ⟨rfl,rfl,rfl,rfl,rfl,rfl,rfl⟩
  next => exact ⟨rfl,rfl,rfl,rfl,rfl,rfl,rfl⟩

theorem Fits.frame (task : Task ω) (manager manager' : Manager ω τ) (logical : manager'.logicalGraph = manager.logicalGraph)
    (execution : manager'.executionGraph = manager.executionGraph) (master : manager'.masterGraph = manager.masterGraph)
    (fits : manager.Fits task) : manager'.Fits task := by
  have agreed (old : manager.Agreed) : manager'.Agreed := by
    unfold Agreed
    rw [logical,execution,master]
    exact old
  have resizes (resized : LogicalGraph ω) (old : manager.Resizes task resized) : manager'.Resizes task resized := by
    refine ⟨old.positive,?_,?_⟩
    · rw [logical]
      exact old.resized
    · rw [logical]
      exact old.different
  unfold Fits at fits ⊢
  split at fits
  next => exact agreed fits
  next => exact agreed fits
  next => exact agreed fits
  next => exact agreed fits
  next => exact ⟨agreed fits.1,resizes _ fits.2.1,fits.2.2⟩
  next =>
    rw [logical,execution,master]
    exact ⟨fits.1,resizes _ fits.2.1,fits.2.2.imp_right (And.imp_left agreed)⟩
  next => exact ⟨agreed fits.1,fits.2⟩

theorem Keeps.agreed (manager' : Manager ω τ) (keeps : Keeps manager manager') (agreed : manager.Agreed) : manager'.Agreed := by
  unfold Agreed
  rw [keeps.logicalGraph,keeps.executionGraph,keeps.masterGraph]
  exact agreed

section ends
variable {asking : Option Nat} {id : Nat} (lock : manager.lock ≠ .rescale) (agreed : manager.Agreed)
include lock agreed

theorem Working.updateFinish {last : RescaleOperationStatus} (working : manager.Working asking id last) (status : RescaleOperationStatus)
    (error : Option (Option String)) (allowed : status ∈ allowedStatusTransitions last) (started : last ≠ .accepted)
    (terminal : status.terminal = true) : ((manager.update id status .completed error).finish id).Coherent asking := by
  have phase : RescaleOperation.phaseOf status = .completed := by
    cases status <;> first | rfl | cases terminal
  have updated := working.update status error allowed (.inl started)
  have keeps := manager.update_keeps id status (RescaleOperation.phaseOf status) error
  rw [phase] at updated keeps
  obtain ⟨idle,over'⟩ := updated.finish terminal (by rw [keeps.lock]; exact lock) (keeps.agreed _ agreed)
  exact idle.coherent asking over'

theorem Working.settle (working : manager.Working asking id .running) (result : RescaleResult)
    (refused : result.status = .noop ∨ result.status = .rejected ∨ result.status = .failed) : (manager.settle id result).Coherent asking := by
  have merged := working.merge result
  have keeps := manager.merge_keeps id result
  have lock' : (manager.merge id result).lock ≠ .rescale := by
    rw [keeps.lock]
    exact lock
  unfold Manager.settle
  rcases refused with same | same | same
  · rw [same]
    exact merged.updateFinish lock' (keeps.agreed _ agreed) _ _ (by decide) (by decide) rfl
  · rw [same]
    exact merged.updateFinish lock' (keeps.agreed _ agreed) _ _ (by decide) (by decide) rfl
  · rw [same]
    exact merged.updateFinish lock' (keeps.agreed _ agreed) _ _ (by decide) (by decide) rfl

theorem Working.stabilized {last : RescaleOperationStatus} (working : manager.Working asking id last) (error : Option String)
    (live : last = .stabilizing ∨ (last = .running ∧ error ≠ none)) : (manager.stabilized id error).Coherent asking := by
  unfold Manager.stabilized
  cases error with
  | none =>
    rcases live with rfl | ⟨rfl,given⟩
    · exact working.updateFinish lock agreed _ _ (by decide) (by decide) rfl
    · exact absurd rfl given
  | some text =>
    rcases live with rfl | ⟨rfl,-⟩
    · exact working.updateFinish lock agreed _ _ (by decide) (by decide) rfl
    · exact working.updateFinish lock agreed _ _ (by decide) (by decide) rfl

end ends

theorem Busy.coherent (asking : Option Nat) (task : Task ω) (busy : manager.Busy asking task) (here : manager.task = some task) :
    manager.Coherent asking := by
  unfold Coherent
  rw [here]
  exact busy

private theorem write_failed (error : Option String) (result : RescaleResult) (given : error ≠ none) :
    (match error with
      | none => result
      | some _ => {
          result with
          status := .failed
          error := error}).status = .failed := by
  cases error with
  | none => exact absurd rfl given
  | some text => rfl

private theorem write_ends (error : Option String) (result : RescaleResult) (completed : result.status = .completed) :
    (match error with
      | none => result
      | some _ => {
          result with
          status := .failed
          error := error}).status = .completed ∨ error ≠ none := by
  cases error with
  | none => exact .inl completed
  | some text => exact .inr (by simp)

section task
variable (settings : Settings ω) (fresh : ExecutionVertexId → τ)

theorem resolveRescaleRequest_ok (unavailable : Nat → List String) (operatorId : OperatorId) (parallelism : Int) (key : Nat)
    (vertex : VertexSpec ω) (done : manager.resolveRescaleRequest settings unavailable operatorId parallelism = .ok (key,vertex)) :
    0 < parallelism ∧ manager.logicalGraph.resolveOperator operatorId = .ok key ∧
      manager.logicalGraph.vertices.get? key = some vertex := by
  unfold resolveRescaleRequest at done
  split at done
  next => cases done
  next =>
    split at done
    next => cases done
    next positive =>
      split at done
      next => cases done
      next found resolved =>
        split at done
        next => cases done
        next =>
          split at done
          next => cases done
          next vertex' here =>
            split at done
            next =>
              cases done
              exact ⟨by omega,resolved,here⟩
            next =>
              split at done
              next => cases done
              next =>
                cases done
                exact ⟨by omega,resolved,here⟩

theorem resolveOperator_number (graph : LogicalGraph ω) (index key : Nat) (resolved : graph.resolveOperator (.number index) = .ok key) :
    key = index := by
  obtain ⟨vertex,-,names⟩ := (graph.mem_matchesOf (.number index) key).mp
    (((graph.resolveOperator_iff (.number index) key).mp resolved key).mpr rfl)
  exact of_decide_eq_true names

variable {asking : Option Nat} {task : Task ω} (busy : manager.Busy asking task)
include busy

theorem Busy.begin (unavailable : Nat → List String) (queued : task.stage = .queued) (free : manager.lock = .free) :
    (manager.begin settings unavailable task).Coherent asking := by
  have working : manager.Working asking task.operationId .accepted := by
    have working := busy.working
    rw [queued] at working
    exact working
  have started := working.update .running none (by decide) (.inr rfl)
  have keeps := manager.update_keeps task.operationId .running .coordinating none
  have agreed : manager.Agreed := by
    have fits := busy.fits
    unfold Fits at fits
    rw [queued] at fits
    exact fits
  have agreed' := keeps.agreed _ agreed
  have lock : (manager.update task.operationId .running .coordinating none).lock ≠ .rescale := by
    rw [keeps.lock,free]
    decide
  unfold Manager.begin
  dsimp only
  split
  next => exact started.settle lock agreed' _ (.inr (.inl rfl))
  next key vertex resolved =>
    obtain ⟨positive,named,found⟩ := resolveRescaleRequest_ok settings unavailable _ _ key vertex resolved
    have own := resolveOperator_number _ _ _ named
    subst own
    split
    next => exact started.settle lock agreed' _ (.inl rfl)
    next different =>
      split
      next => exact started.settle lock agreed' _ (.inr (.inl rfl))
      next resized planned =>
        have natural : (task.parallelism.toNat : Int) = task.parallelism := Int.toNat_of_nonneg (by omega)
        have here : (manager.update task.operationId .running .coordinating none).logicalGraph.concurrencyOf task.key = vertex.concurrency := by
          unfold LogicalGraph.concurrencyOf
          rw [found]
          rfl
        have unequal : (manager.update task.operationId .running .coordinating none).logicalGraph.concurrencyOf task.key ≠
            task.parallelism.toNat := by
          rw [here]
          omega
        obtain ⟨result,planned',rescaled⟩ := LogicalGraph.rescaleOperator_spec _ _ task.key task.parallelism.toNat (by omega) named unequal
        cases planned.symm.trans planned'
        have known : task.key ∈ (manager.update task.operationId .running .coordinating none).logicalGraph.vertices.keys :=
          (Dict.mem_keys _ _).mpr ⟨vertex,found⟩
        refine Busy.coherent asking _ ⟨?_,?_,?_,?_⟩ rfl
        · exact started.frame _ ⟨rfl,rfl,rfl,rfl,rfl,rfl⟩ rfl
        · have unset := busy.done
          rw [queued,← keeps.done] at unset
          constructor
          · intro set
            cases unset.mp set
          · intro same
            cases same
        · exact iff_of_true rfl rfl
        · exact ⟨agreed',⟨natural,rescaled.concurrencyOf _ _ _ _ _ known,unequal⟩,rfl⟩

theorem Busy.write (committed : Bool) (error : Option String) (next : Manager ω τ)
    (taken : manager.write fresh task committed error = some next) : next.Coherent asking := by
  unfold Manager.write at taken
  split at taken
  next resized result writing =>
    have fits := busy.fits
    unfold Fits at fits
    rw [writing] at fits
    obtain ⟨agreed,resizes,completed⟩ := fits
    have working : manager.Working asking task.operationId .running := by
      have working := busy.working
      rw [writing] at working
      exact working
    have done := busy.done
    have lock := busy.lock
    rw [writing] at done lock
    have ends := write_ends error result completed
    have failed := write_failed error result
    dsimp only at taken
    split at taken
    next =>
      split at taken
      next => cases taken
      next graph installed =>
        obtain rfl := some.inj taken
        refine Busy.coherent asking _ ⟨?_,done,lock,?_⟩ rfl
        · exact working.frame _ ⟨rfl,rfl,rfl,rfl,rfl,rfl⟩ rfl
        refine ⟨fun key => (agreed key).1,⟨resizes.positive,resizes.resized,resizes.different⟩,.inl ⟨fun other => ?_,?_⟩⟩
        · dsimp only
          rw [resizeOperator_concurrencyOf fresh _ _ _ graph installed,resizes.resized,← (agreed other).2,← (agreed other).1]
        · exact ends.imp_right failed
    next =>
      split at taken
      next => cases taken
      next given =>
        obtain rfl := some.inj taken
        refine Busy.coherent asking _ ⟨?_,done,lock,?_⟩ rfl
        · exact working.frame _ ⟨rfl,rfl,rfl,rfl,rfl,rfl⟩ rfl
        exact ⟨fun key => (agreed key).1,⟨resizes.positive,resizes.resized,resizes.different⟩,.inr ⟨agreed,failed given⟩⟩
  next => cases taken

theorem Busy.resume (next : Manager ω τ) (taken : manager.resume fresh task = some next) : next.Coherent asking := by
  unfold Manager.resume at taken
  split at taken
  next resized result written =>
    have fits := busy.fits
    unfold Fits at fits
    rw [written] at fits
    obtain ⟨mirrored,resizes,outcome⟩ := fits
    have working : manager.Working asking task.operationId .running := by
      have working := busy.working
      rw [written] at working
      exact working
    have done := busy.done
    have lock := busy.lock
    rw [written] at done lock
    have here : resized.concurrencyOf task.key = task.parallelism.toNat := by
      rw [resizes.resized,if_pos rfl]
    have installed (same : (manager.masterGraph.concurrencyOf task.key : Int) = task.parallelism) :
        (∀ key, manager.masterGraph.concurrencyOf key = resized.concurrencyOf key) ∧ (result.status = .completed ∨ result.status = .failed) := by
      rcases outcome with new | ⟨agreed,-⟩
      · exact new
      · exfalso
        apply resizes.different
        have old := agreed task.key
        rw [old.1,old.2]
        have natural := resizes.positive
        omega
    dsimp only at taken
    split at taken
    next same =>
      obtain rfl := some.inj taken
      obtain ⟨equal,status⟩ := installed same
      refine Busy.coherent asking _ ⟨?_,done,lock,?_⟩ rfl
      · exact working.frame _ ⟨rfl,rfl,rfl,rfl,rfl,rfl⟩ rfl
      exact ⟨fun key => ⟨(equal key).symm,rfl⟩,status⟩
    next apart =>
      have old : manager.Agreed ∧ result.status = .failed := by
        rcases outcome with ⟨equal,-⟩ | old
        · exfalso
          apply apart
          rw [equal,here]
          exact resizes.positive
        · exact old
      rw [old.2,if_neg (by decide)] at taken
      obtain rfl := some.inj taken
      have freed := working.frame {manager with lock := .free} ⟨rfl,rfl,rfl,rfl,rfl,rfl⟩ rfl
      have unlocked : ({manager with lock := .free} : Manager ω τ).lock ≠ .rescale := by simp
      exact freed.settle unlocked old.1 _ (.inr (.inr old.2))
  next => cases taken

theorem Busy.reported (raised : Option String) (coordinator : Bool) (next : Manager ω τ)
    (taken : manager.reported task raised coordinator = some next) : next.Coherent asking := by
  unfold Manager.reported at taken
  split at taken
  next result reporting =>
    have fits := busy.fits
    unfold Fits at fits
    rw [reporting] at fits
    obtain ⟨agreed,outcome⟩ := fits
    have working : manager.Working asking task.operationId .running := by
      have working := busy.working
      rw [reporting] at working
      exact working
    have freed := working.frame {manager with lock := .free} ⟨rfl,rfl,rfl,rfl,rfl,rfl⟩ rfl
    have unlocked : ({manager with lock := .free} : Manager ω τ).lock ≠ .rescale := by simp
    dsimp only at taken
    split at taken
    next error =>
      obtain rfl := some.inj taken
      exact freed.stabilized unlocked agreed _ (.inr ⟨rfl,by simp⟩)
    next =>
      split at taken
      next incomplete =>
        obtain rfl := some.inj taken
        exact freed.settle unlocked agreed _ (.inr (.inr (outcome.resolve_left incomplete)))
      next =>
        have merged := freed.merge result
        have one := ({manager with lock := .free} : Manager ω τ).merge_keeps task.operationId result
        have live := merged.update .stabilizing none (by decide) (.inl (by decide))
        have two := (({manager with lock := .free} : Manager ω τ).merge task.operationId result).update_keeps task.operationId
          .stabilizing .stabilizing none
        have set := live.signal
        have lock : ((({manager with lock := .free} : Manager ω τ).merge task.operationId result).update task.operationId
            .stabilizing .stabilizing none).signal.lock = .free := two.lock.trans one.lock
        have agreed' : ((({manager with lock := .free} : Manager ω τ).merge task.operationId result).update task.operationId
            .stabilizing .stabilizing none).signal.Agreed := two.agreed _ (one.agreed _ agreed)
        split at taken
        next =>
          obtain rfl := some.inj taken
          refine Busy.coherent asking _ ⟨?_,iff_of_true rfl rfl,?_,?_⟩ rfl
          · exact set.frame _ ⟨rfl,rfl,rfl,rfl,rfl,rfl⟩ rfl
          · apply iff_of_false
            · dsimp only
              rw [lock]
              decide
            · exact Bool.false_ne_true
          · exact agreed'
        next =>
          obtain rfl := some.inj taken
          exact set.stabilized (by rw [lock]; decide) agreed' _ (.inl rfl)
  next => cases taken

theorem Busy.watching (live : task.stage.status = .stabilizing) : manager.Working asking task.operationId .stabilizing ∧
    manager.Agreed ∧ manager.lock ≠ .rescale ∧ manager.done = true := by
  have working := busy.working
  rw [live] at working
  have fits := busy.fits
  unfold Fits at fits
  have lock := busy.lock
  refine ⟨working,?_,?_,busy.done.mpr live⟩
  · cases stage : task.stage <;> rw [stage] at live fits <;> first | exact fits | cases live
  · intro held
    have locked := lock.mp held
    revert live locked
    cases task.stage <;> simp [Stage.status,Stage.locked]

theorem Busy.move (stage : Stage ω) (live : task.stage.status = .stabilizing) (live' : stage.status = .stabilizing) :
    ({manager with task := some {task with stage := stage}} : Manager ω τ).Coherent asking := by
  obtain ⟨working,agreed,lock,done⟩ := busy.watching live
  have same : ({task with stage := stage} : Task ω).stage.status = .stabilizing := live'
  refine Busy.coherent asking _ ⟨?_,iff_of_true done same,?_,?_⟩ rfl
  · rw [same]
    exact working.frame _ ⟨rfl,rfl,rfl,rfl,rfl,rfl⟩ rfl
  · apply iff_of_false lock
    cases stage <;> first | exact Bool.false_ne_true | cases live'
  · cases stage <;> first | exact agreed | cases live'

theorem Busy.probed (fenced : Option Bool) (next : Manager ω τ) (taken : manager.probed task fenced = some next) :
    next.Coherent asking := by
  unfold Manager.probed at taken
  split at taken
  next stage =>
    have live : task.stage.status = .stabilizing := by rw [stage]; rfl
    obtain ⟨working,agreed,lock,-⟩ := busy.watching live
    split at taken
    next =>
      obtain rfl := some.inj taken
      exact working.stabilized lock agreed _ (.inl rfl)
    next =>
      split at taken
      next =>
        obtain rfl := some.inj taken
        exact busy.move .lastProbe live rfl
      next =>
        obtain rfl := some.inj taken
        exact busy.move .sleeping live rfl
  next stage =>
    obtain ⟨working,agreed,lock,-⟩ := busy.watching (by rw [stage]; rfl)
    split at taken
    next =>
      obtain rfl := some.inj taken
      exact working.stabilized lock agreed _ (.inl rfl)
    next =>
      obtain rfl := some.inj taken
      exact working.stabilized lock agreed _ (.inl rfl)
  next => cases taken

theorem Busy.polled (next : Manager ω τ) (taken : manager.polled task = some next) : next.Coherent asking := by
  unfold Manager.polled at taken
  split at taken
  next stage =>
    have live : task.stage.status = .stabilizing := by rw [stage]; rfl
    rw [if_pos busy.working.active] at taken
    obtain rfl := some.inj taken
    exact busy.move .probing live rfl
  next => cases taken

end task

end Manager
end Klein.JobManager
