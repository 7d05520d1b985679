import Klein.JobManager.RescaleCoherence

/-! Every rescale request gets its own answer: the admitted operation moves along one path
of statuses, frees the slot with its last one and leaves the graphs equal, and each call
returns the outcome of its own operation. A call loses its record when later requests push
it out of the history before the call looks again. -/
namespace Klein.JobManager
open Function Klein.Graph List LogicalGraph Option

variable {ω τ : Type} [OperatorRecipe ω]

namespace Manager
variable {manager : Manager ω τ}

section submit
variable (settings : Settings ω)

theorem Records.paths_issue (records : manager.Records) (status : RescaleOperationStatus) (id : Nat) :
    manager.paths id <+: (manager.issue status).paths id := by
  unfold issue
  dsimp only
  by_cases same : id = manager.issued
  · subst same
    rw [records.unissued _ (Nat.le_refl _)]
    exact nil_prefix
  · rw [update_of_ne same]

section
variable (status : RescaleOperationStatus)
include status

theorem issue_self : (manager.issue status).paths manager.issued = [status] :=
  update_self _ _ _

theorem issue_outcome (terminal : status.terminal = true) :
    Outcome ((manager.issue status).paths manager.issued) status := by
  rw [issue_self]
  exact .inl ⟨terminal,mem_singleton.mpr rfl⟩

theorem issue_other (id : Nat) (other : id ≠ manager.issued) :
    (manager.issue status).paths id = manager.paths id := update_of_ne other _ _

end

theorem Records.issue (records : manager.Records) (status : RescaleOperationStatus) (first : [status] ∈ statusPaths) :
    (manager.issue status).Records := by
  refine ⟨fun id operation found => ?_,fun id => ?_,fun id late => ?_,records.bounded,records.valid⟩
  · obtain ⟨own,issued,ends⟩ := records.keys id operation found
    refine ⟨own,Nat.lt_succ_of_lt issued,?_⟩
    rw [issue_other status id (Nat.ne_of_lt issued)]
    exact ends
  · by_cases same : id = manager.issued
    · rw [same,issue_self]
      exact first
    · rw [issue_other status id same]
      exact records.moves id
  · have later : manager.issued < id := late
    rw [issue_other status id (Nat.ne_of_gt later)]
    exact records.unissued id (Nat.le_of_lt later)

theorem Ended.issue (ended : manager.Ended) (status : RescaleOperationStatus) (terminal : status.terminal = true) :
    (manager.issue status).Ended := by
  intro id issued other
  by_cases same : id = manager.issued
  · rw [same,issue_self]
    exact ⟨status,rfl,terminal⟩
  · have earlier : id < manager.issued + 1 := issued
    rw [issue_other status id same]
    exact ended id (by omega) other

def SparesFor (manager : Manager ω τ) (asking : Option Nat) : Prop :=
  manager.active = none → historyLimit ≤ manager.operations.entries.length →
    ∀ oldest record rest, manager.operations.entries = (oldest,record)::rest →
      ∀ call waiting, manager.calls.get? call = some waiting → waiting.Awaits oldest → asking = some call

section idle
variable {asking : Option Nat} (idle : manager.Idle none) (spares : manager.SparesFor asking)
include idle

theorem Idle.remembered (status : RescaleOperationStatus) (first : [status] ∈ statusPaths) (operation : RescaleOperation)
    (own : operation.operationId = manager.issued) (held : operation.status = status) :
    ((manager.issue status).remember operation).Records ∧
      Remembered manager.operations ((manager.issue status).remember operation).operations manager.issued operation := by
  have absent : manager.operations.get? manager.issued = none := by
    cases found : manager.operations.get? manager.issued with
    | none => rfl
    | some record => exact absurd (idle.records.keys _ record found).2.1 (Nat.lt_irrefl _)
  have kept := Klein.JobManager.remembered manager.operations manager.issued operation idle.records.bounded absent
  have same : ((manager.issue status).remember operation).operations =
      evict none (manager.operations.set manager.issued operation).entries.length (manager.operations.set manager.issued operation) := by
    unfold Manager.remember
    dsimp only
    rw [own]
    change evict manager.active _ _ = _
    rw [idle.active]
    rfl
  have records := idle.records.issue status first
  refine ⟨⟨fun id record found => ?_,records.moves,records.unissued,by rw [same]; exact kept.bounded,records.valid⟩,by rw [same]; exact kept⟩
  rw [same] at found
  rcases kept.kept id record found with new | old
  · subst new
    rw [kept.own] at found
    obtain rfl := some.inj found
    refine ⟨own,Nat.lt_succ_self _,?_⟩
    change ((manager.issue status).paths manager.issued).getLast? = _
    rw [issue_self,held]
    rfl
  · exact records.keys id record old

include spares in
theorem Idle.attends (status : RescaleOperationStatus) (first : [status] ∈ statusPaths) (operation : RescaleOperation)
    (own : operation.operationId = manager.issued) (held : operation.status = status) (manager' : Manager ω τ)
    (operations : manager'.operations = ((manager.issue status).remember operation).operations)
    (paths : manager'.paths = (manager.issue status).paths) (calls : manager'.calls = manager.calls) : manager'.Attended asking := by
  intro call waiting other here
  rw [calls] at here
  have fine := idle.attended call waiting (by simp) here
  obtain ⟨-,kept⟩ := idle.remembered status first operation own held
  apply Fine.of manager manager' waiting fine
  · intro id awaits record found
    rw [operations]
    rcases kept.others id record found with still | ⟨oldest,rest,entries,full⟩
    · exact ⟨record,still⟩
    · exact absurd (spares idle.active full id oldest rest entries call waiting here awaits) other
  · intro id
    rw [paths]
    exact idle.records.paths_issue status id
  · intro id unset own
    rw [idle.active] at own
    cases own

include spares in
theorem Idle.refuse (status : RescaleOperationStatus) (first : [status] ∈ statusPaths) (terminal : status.terminal = true)
    (operation : RescaleOperation) (own : operation.operationId = manager.issued) (held : operation.status = status)
    (task : manager.task = none) : ((manager.issue status).remember operation).Coherent asking := by
  obtain ⟨records,-⟩ := idle.remembered status first operation own held
  apply Idle.coherent asking
  · exact {idle with
      records,attended := idle.attends spares status first operation own held _ rfl rfl rfl,ended := idle.ended.issue status terminal}
  · exact task

end idle

inductive Answer (manager : Manager ω τ) : RescaleOperation × Option Nat → Prop where
  | busy (operation : RescaleOperation) (active : Nat) (own : manager.active = some active) : Answer manager (operation,some active)
  | refused (operation : RescaleOperation) (ended : operation.status ≠ .accepted)
      (outcome : Outcome (manager.paths operation.operationId) operation.status) : Answer manager (operation,none)
  | admitted (operation : RescaleOperation) (accepted : operation.status = .accepted)
      (found : manager.operations.get? operation.operationId = some operation) (unset : manager.done = false)
      (own : manager.active = some operation.operationId) : Answer manager (operation,none)

theorem Coherent.submit (coherent : manager.Coherent none) (asking : Option Nat) (spares : manager.SparesFor asking)
    (unavailable : Nat → List String) (request : Request) :
    (manager.submitOperatorRescale settings unavailable request).2.Coherent asking ∧
      (manager.submitOperatorRescale settings unavailable request).2.calls = manager.calls ∧
      (manager.submitOperatorRescale settings unavailable request).2.Answer
        (manager.submitOperatorRescale settings unavailable request).1 := by
  cases here : manager.task with
  | some task =>
    have busy := coherent.of_task none task here
    have active := busy.working.active
    unfold submitOperatorRescale
    rw [if_pos (.inl (by rw [active]; rfl))]
    refine ⟨?_,rfl,?_⟩
    · refine Busy.coherent asking task ⟨⟨busy.working.records.issue .rejected (by decide),?_,busy.working.ended.issue .rejected rfl,active,
        busy.working.current⟩,busy.done,busy.lock,Fits.frame task manager _ rfl rfl rfl busy.fits⟩ here
      intro call waiting _ found
      apply Fine.of manager _ waiting (busy.working.attended call waiting (by simp) found)
      · intro id _ operation found'
        exact ⟨operation,found'⟩
      · exact busy.working.records.paths_issue .rejected
      · intro id unset own
        exact ⟨unset,own⟩
    · rw [active]
      exact .busy _ _ active
  | none =>
    have idle := coherent.of_idle none here
    unfold submitOperatorRescale
    rw [if_neg (by simp [idle.active,idle.progress])]
    split
    next text refused =>
      refine ⟨?_,rfl,?_⟩
      · exact idle.refuse spares .rejected (by decide) rfl _ rfl rfl here
      · exact .refused _ (fun same => by cases same) (issue_outcome .rejected rfl)
    next key vertex resolved =>
      split
      next =>
        refine ⟨?_,rfl,?_⟩
        · exact idle.refuse spares .noop (by decide) rfl _ rfl rfl here
        · exact .refused _ (fun same => by cases same) (issue_outcome .noop rfl)
      next =>
        obtain ⟨records,kept⟩ := idle.remembered .accepted (by decide)
          (RescaleOperation.admitted manager.issued (.number key) vertex.name vertex.concurrency request.parallelism) rfl rfl
        refine ⟨?_,rfl,?_⟩
        · refine Busy.coherent asking _ ⟨⟨?_,?_,?_,rfl,?_⟩,?_,?_,?_⟩ rfl
          · exact {records with}
          · exact idle.attends spares .accepted (by decide) _ rfl rfl _ rfl rfl rfl
          · intro id issued other
            have earlier : id < manager.issued + 1 := issued
            have apart : id ≠ manager.issued := fun same => other (congrArg some same.symm)
            change ∃ last, ((manager.issue .accepted).paths id).getLast? = some last ∧ last.terminal = true
            rw [issue_other .accepted id apart]
            exact idle.ended id (by omega) (by rw [idle.active]; simp)
          · exact ⟨_,kept.own,rfl,rfl⟩
          · apply iff_of_false
            · exact Bool.false_ne_true
            · intro same
              cases same
          · exact iff_of_false idle.lock Bool.false_ne_true
          · exact idle.agreed
        · exact .admitted _ rfl kept.own rfl rfl

theorem Coherent.place (call : Nat) (waiting : Call) (asking : Option Nat) (coherent : manager.Coherent asking)
    (asks : asking = none ∨ asking = some call) (fine : manager.Fine waiting) :
    ({manager with calls := manager.calls.set call waiting} : Manager ω τ).Coherent none := by
  have same : SameBook manager {manager with calls := manager.calls.set call waiting} := ⟨rfl,rfl,rfl,rfl,rfl,rfl⟩
  have attended : ({manager with calls := manager.calls.set call waiting} : Manager ω τ).Attended none := by
    intro other found _ here
    dsimp only at here
    rw [Dict.get?_set] at here
    split at here
    next => exact same.fine _ found (some.inj here ▸ fine)
    next apart =>
      apply same.fine
      apply coherent.attended asking other found _ here
      rcases asks with none | own
      · rw [none]
        simp
      · rw [own]
        exact fun equal => apart (some.inj equal).symm
  rcases eq_none_or_eq_some manager.task with here | ⟨task,here⟩
  · have idle := coherent.of_idle asking here
    apply Idle.coherent none
    · exact {idle with records := same.records _ idle.records,attended,ended := same.ended _ idle.ended}
    · exact here
  · have busy := coherent.of_task asking task here
    apply Busy.coherent none task
    · exact ⟨⟨same.records _ busy.working.records,attended,same.ended _ busy.working.ended,busy.working.active,
        same.current _ busy.working.current⟩,busy.done,busy.lock,Fits.frame task manager _ rfl rfl rfl busy.fits⟩
    · exact here

theorem Coherent.awaitOperation (asking : Option Nat) (coherent : manager.Coherent asking) (waiting : Call)
    (there : ∃ operation, manager.operations.get? waiting.own = some operation) :
    manager.Fine {waiting with position := manager.awaitOperation waiting.own} := by
  obtain ⟨operation,found⟩ := there
  obtain ⟨own,-,ends⟩ := coherent.records.keys _ operation found
  have last : operation.status ∈ manager.paths waiting.own := mem_of_getLast? ends
  unfold Fine Manager.awaitOperation
  dsimp only
  rw [found]
  dsimp only
  by_cases live : operation.status = .stabilizing
  · rw [if_pos live]
    exact ⟨own,.inr ⟨rfl,live ▸ last⟩⟩
  · rw [if_neg live]
    cases terminal : operation.status.terminal with
    | true =>
      rw [if_pos rfl]
      exact ⟨own,.inl ⟨terminal,last⟩⟩
    | false =>
      obtain ⟨active,unset⟩ := coherent.active_of asking _ operation found terminal
      rw [if_neg Bool.false_ne_true,unset live,if_neg Bool.false_ne_true]
      exact ⟨rfl,⟨operation,found⟩,fun _ => ⟨rfl,active⟩⟩

theorem Coherent.rescaleOperator (coherent : manager.Coherent none) (call : Nat) (spares : manager.SparesFor (some call))
    (unavailable : Nat → List String) (request : Request) :
    (manager.rescaleOperator settings unavailable call request).Coherent none := by
  obtain ⟨coherent',-,answer⟩ := coherent.submit settings (some call) spares unavailable request
  unfold Manager.rescaleOperator
  generalize manager.submitOperatorRescale settings unavailable request = result at coherent' answer ⊢
  obtain ⟨⟨operation,active⟩,after⟩ := result
  dsimp only at coherent' answer ⊢
  apply coherent'.place call _ (some call) (.inr rfl)
  cases answer with
  | busy _ active own =>
    obtain ⟨record,found,open'⟩ := coherent'.active_terminal (some call) active own
    unfold Fine awaitTerminal
    dsimp only
    rw [found]
    dsimp only
    rw [open',if_neg Bool.false_ne_true]
    exact ⟨record,found⟩
  | refused _ ended outcome =>
    unfold Fine
    dsimp only
    rw [if_pos ended]
    exact ⟨rfl,outcome⟩
  | admitted _ accepted found unset own =>
    dsimp only
    rw [if_neg (not_not_intro accepted)]
    exact coherent'.awaitOperation (some call) ⟨request,operation.operationId,.hangs⟩ ⟨operation,found⟩

end submit

section paths
variable (settings : Settings ω) (fresh : ExecutionVertexId → τ)

def Grows (before after : Manager ω τ) : Prop := ∀ id, before.paths id <+: after.paths id

theorem Grows.of_eq (after : Manager ω τ) (same : after.paths = manager.paths) : Grows manager after := by
  intro id
  rw [same]

theorem Grows.trans (first second third : Manager ω τ) (one : Grows first second) (two : Grows second third) : Grows first third :=
  fun id => (one id).trans (two id)

theorem update_grows (id : Nat) (status : RescaleOperationStatus) (phase : RescaleOperationPhase) (error : Option (Option String)) :
    Grows manager (manager.update id status phase error) := by
  unfold update
  split
  next => exact Grows.of_eq _ rfl
  next =>
    split
    next => exact Grows.of_eq _ rfl
    next =>
      intro other
      dsimp only
      by_cases same : other = id
      · subst same
        rw [update_self]
        exact prefix_append _ _
      · rw [update_of_ne same]

theorem merge_grows (id : Nat) (result : RescaleResult) : Grows manager (manager.merge id result) := by
  unfold merge
  split
  next => exact Grows.of_eq _ rfl
  next => exact Grows.of_eq _ rfl

theorem settle_grows (id : Nat) (result : RescaleResult) : Grows manager (manager.settle id result) := by
  apply Grows.trans _ _ _ (manager.merge_grows id result)
  exact Grows.trans _ _ _ (update_grows id result.status .completed (some result.error)) (Grows.of_eq _ rfl)

theorem stabilized_grows (id : Nat) (error : Option String) : Grows manager (manager.stabilized id error) := by
  unfold stabilized
  split
  next => exact Grows.trans _ _ _ (update_grows id .completed .completed none) (Grows.of_eq _ rfl)
  next error => exact Grows.trans _ _ _ (update_grows id .failed .completed (some (some error))) (Grows.of_eq _ rfl)

theorem begin_grows (unavailable : Nat → List String) (task : Task ω) : Grows manager (manager.begin settings unavailable task) := by
  unfold Manager.begin
  apply Grows.trans _ _ _ (manager.update_grows task.operationId .running .coordinating none)
  dsimp only
  split
  next => exact settle_grows _ _
  next =>
    split
    next => exact settle_grows _ _
    next =>
      split
      next => exact settle_grows _ _
      next => exact Grows.of_eq _ rfl

section
variable (task : Task ω)
include task

theorem resume_grows (next : Manager ω τ) (taken : manager.resume fresh task = some next) : Grows manager next := by
  unfold Manager.resume at taken
  split at taken
  next =>
    dsimp only at taken
    split at taken
    next =>
      obtain rfl := some.inj taken
      exact Grows.of_eq _ rfl
    next =>
      split at taken
      next =>
        split at taken
        next =>
          obtain rfl := some.inj taken
          exact Grows.of_eq _ rfl
        next =>
          obtain rfl := some.inj taken
          exact Grows.trans _ {manager with lock := .free} _ (Grows.of_eq _ rfl) (stabilized_grows _ _)
      next =>
        obtain rfl := some.inj taken
        exact Grows.trans _ {manager with lock := .free} _ (Grows.of_eq _ rfl) (settle_grows _ _)
  next => cases taken

theorem write_grows (committed : Bool) (error : Option String) (next : Manager ω τ)
    (taken : manager.write fresh task committed error = some next) : Grows manager next := by
  unfold Manager.write at taken
  split at taken
  next =>
    dsimp only at taken
    split at taken
    all_goals
      split at taken
      next => cases taken
      next =>
        obtain rfl := some.inj taken
        exact Grows.of_eq _ rfl
  next => cases taken

theorem reported_grows (raised : Option String) (coordinator : Bool) (next : Manager ω τ)
    (taken : manager.reported task raised coordinator = some next) : Grows manager next := by
  unfold Manager.reported at taken
  split at taken
  next result _ =>
    apply Grows.trans _ {manager with lock := .free} _ (Grows.of_eq _ rfl)
    dsimp only at taken
    split at taken
    next =>
      obtain rfl := some.inj taken
      exact stabilized_grows _ _
    next =>
      split at taken
      next =>
        obtain rfl := some.inj taken
        exact settle_grows _ _
      next =>
        apply Grows.trans _ _ _ (merge_grows task.operationId result)
        apply Grows.trans _ _ _ (update_grows task.operationId .stabilizing .stabilizing none)
        split at taken
        next =>
          obtain rfl := some.inj taken
          exact Grows.of_eq _ rfl
        next =>
          obtain rfl := some.inj taken
          exact Grows.trans _ (signal _) _ (Grows.of_eq _ rfl) (stabilized_grows _ _)
  next => cases taken

theorem probed_grows (fenced : Option Bool) (next : Manager ω τ) (taken : manager.probed task fenced = some next) :
    Grows manager next := by
  unfold Manager.probed at taken
  split at taken
  next =>
    split at taken
    next =>
      obtain rfl := some.inj taken
      exact stabilized_grows _ _
    next =>
      split at taken
      next =>
        obtain rfl := some.inj taken
        exact Grows.of_eq _ rfl
      next =>
        obtain rfl := some.inj taken
        exact Grows.of_eq _ rfl
  next =>
    split at taken
    next =>
      obtain rfl := some.inj taken
      exact stabilized_grows _ _
    next =>
      obtain rfl := some.inj taken
      exact stabilized_grows _ _
  next => cases taken

theorem polled_grows (next : Manager ω τ) (taken : manager.polled task = some next) : Grows manager next := by
  unfold Manager.polled at taken
  split at taken
  next =>
    split at taken
    next =>
      obtain rfl := some.inj taken
      exact Grows.of_eq _ rfl
    next =>
      obtain rfl := some.inj taken
      exact stabilized_grows _ _
  next => cases taken

end

theorem submit_grows (records : manager.Records) (unavailable : Nat → List String) (request : Request) :
    Grows manager (manager.submitOperatorRescale settings unavailable request).2 := by
  unfold submitOperatorRescale
  split
  next => exact records.paths_issue .rejected
  next =>
    split
    next => exact records.paths_issue .rejected
    next =>
      split
      next => exact records.paths_issue .noop
      next => exact records.paths_issue .accepted

end paths

section runs
variable (settings : Settings ω) (fresh : ExecutionVertexId → τ)

/-- A request that is admitted or remembered does not push out of a full history the record
that another call of `rescale_operator` waits for. -/
def Spares (manager : Manager ω τ) : Step → Prop
  | .submitOperatorRescale _ _ => manager.SparesFor none
  | .rescaleOperator _ call _ | .poll _ call => manager.SparesFor (some call)
  | _ => True

theorem Coherent.surroundings (coherent : manager.Coherent none) (status : JobStatus) (lock : Holder)
    (apart : manager.lock ≠ .rescale ∧ lock ≠ .rescale ∨ lock = manager.lock) :
    ({
      manager with
      jobStatus := status
      lock := lock} : Manager ω τ).Coherent none := by
  have same : SameBook manager {
      manager with
      jobStatus := status
      lock := lock} := ⟨rfl,rfl,rfl,rfl,rfl,rfl⟩
  have held : lock = .rescale ↔ manager.lock = .rescale := by
    rcases apart with ⟨one,two⟩ | equal
    · exact iff_of_false two one
    · rw [equal]
  rcases eq_none_or_eq_some manager.task with here | ⟨task,here⟩
  · have idle := coherent.of_idle none here
    apply Idle.coherent none
    · exact ⟨same.records _ idle.records,same.attended _ rfl idle.attended,same.ended _ idle.ended,idle.active,idle.progress,
        fun taken => idle.lock (held.mp taken),idle.agreed⟩
    · exact here
  · have busy := coherent.of_task none task here
    apply Busy.coherent none task
    · exact ⟨busy.working.frame _ same rfl,busy.done,held.trans busy.lock,Fits.frame task manager _ rfl rfl rfl busy.fits⟩
    · exact here

section
variable (next : Manager ω τ) (label : Step) (coherent : manager.Coherent none) (spares : manager.Spares label)
  (taken : manager.step settings fresh label = some next)
include coherent spares taken

theorem Coherent.stepped : next.Coherent none ∧ Grows manager next := by
  cases label with
  | submitOperatorRescale unavailable request =>
    obtain rfl := some.inj taken
    exact ⟨(coherent.submit settings none spares unavailable request).1,submit_grows settings coherent.records unavailable request⟩
  | rescaleOperator unavailable call request =>
    unfold Manager.step at taken
    dsimp only at taken
    split at taken
    next => cases taken
    next =>
      obtain rfl := some.inj taken
      exact ⟨coherent.rescaleOperator settings call spares unavailable request,
        submit_grows settings coherent.records unavailable request⟩
  | poll unavailable call =>
    unfold Manager.step at taken
    dsimp only at taken
    split at taken
    next => cases taken
    next waiting here =>
      split at taken
      next id position =>
        have fine := coherent.attended none call waiting (by simp) here
        unfold Fine at fine
        rw [position] at fine
        obtain ⟨record,found⟩ := fine
        rw [found] at taken
        dsimp only at taken
        split at taken
        next =>
          obtain rfl := some.inj taken
          exact ⟨coherent.rescaleOperator settings call spares unavailable waiting.request,
            submit_grows settings coherent.records unavailable waiting.request⟩
        next =>
          obtain rfl := some.inj taken
          exact ⟨coherent,Grows.of_eq _ rfl⟩
      next => cases taken
  | wake call =>
    unfold Manager.step at taken
    dsimp only at taken
    split at taken
    next => cases taken
    next waiting here =>
      split at taken
      next id position =>
        obtain rfl := some.inj taken
        have fine := coherent.attended none call waiting (by simp) here
        unfold Fine at fine
        rw [position] at fine
        obtain ⟨own,found,-⟩ := fine
        subst own
        exact ⟨coherent.place call _ none (.inl rfl) (coherent.awaitOperation none waiting found),Grows.of_eq _ rfl⟩
      next => cases taken
  | begin unavailable =>
    unfold Manager.step at taken
    dsimp only at taken
    split at taken
    next => cases taken
    next task here =>
      split at taken
      next queued =>
        split at taken
        next free =>
          obtain rfl := some.inj taken
          exact ⟨(coherent.of_task none task here).begin settings unavailable queued free,begin_grows settings unavailable task⟩
        next => cases taken
      next => cases taken
  | write committed error =>
    obtain ⟨task,here,taken⟩ := bind_eq_some_iff.mp taken
    exact ⟨(coherent.of_task none task here).write fresh committed error next taken,write_grows fresh task committed error next taken⟩
  | resume =>
    obtain ⟨task,here,taken⟩ := bind_eq_some_iff.mp taken
    exact ⟨(coherent.of_task none task here).resume fresh next taken,resume_grows fresh task next taken⟩
  | reported raised coordinator =>
    obtain ⟨task,here,taken⟩ := bind_eq_some_iff.mp taken
    exact ⟨(coherent.of_task none task here).reported raised coordinator next taken,reported_grows task raised coordinator next taken⟩
  | probed fenced =>
    obtain ⟨task,here,taken⟩ := bind_eq_some_iff.mp taken
    exact ⟨(coherent.of_task none task here).probed fenced next taken,probed_grows task fenced next taken⟩
  | polled =>
    obtain ⟨task,here,taken⟩ := bind_eq_some_iff.mp taken
    exact ⟨(coherent.of_task none task here).polled next taken,polled_grows task next taken⟩
  | acquire =>
    unfold Manager.step at taken
    dsimp only at taken
    split at taken
    next free =>
      obtain rfl := some.inj taken
      exact ⟨coherent.surroundings manager.jobStatus .other (.inl ⟨by rw [free]; decide,by decide⟩),Grows.of_eq _ rfl⟩
    next => cases taken
  | release =>
    unfold Manager.step at taken
    dsimp only at taken
    split at taken
    next held =>
      obtain rfl := some.inj taken
      exact ⟨coherent.surroundings manager.jobStatus .free (.inl ⟨by rw [held]; decide,by decide⟩),Grows.of_eq _ rfl⟩
    next => cases taken
  | jobStatus status =>
    obtain rfl := some.inj taken
    exact ⟨coherent.surroundings status manager.lock (.inr rfl),Grows.of_eq _ rfl⟩

theorem Coherent.step : next.Coherent none :=
  (coherent.stepped settings fresh next label spares taken).1

end

theorem submitted_coherent (logical : LogicalGraph ω) (physical : PhysicalGraph τ) (deployed : deploy fresh logical = .ok physical) :
    (submitted logical physical).Coherent none := by
  apply Idle.coherent none
  · refine ⟨⟨fun id operation found => ?_,fun id => ?_,fun id _ => rfl,Nat.zero_le _,rfl⟩,fun call waiting _ found => ?_,fun id issued => ?_,rfl,rfl,
      fun held => (by cases held),fun key => ⟨?_,rfl⟩⟩
    · cases found
    · exact mem_cons_self
    · cases found
    · exact absurd issued (Nat.not_lt_zero id)
    · obtain ⟨graph,expanded,made⟩ := Fallible.bind_ok deployed
      obtain rfl := Except.ok.inj made
      change logical.concurrencyOf key = ((graph.jobVertices.get? key).map ExecutionJobVertex.concurrency).getD 0
      rw [(ExecutionGraph.of_ofEdges _ _ logical.keyed graph expanded).1,jobVertices_get?,Option.map_map]
      rfl
  · rfl

end runs

section ending
variable (settings : Settings ω) (fresh : ExecutionVertexId → τ)

def Ends (manager : Manager ω τ) : Prop := ∃ rest final, Runs.exec (Manager.step settings fresh) manager rest = some final ∧
  final.Coherent none ∧ final.task = none ∧ Grows manager final

variable {settings fresh}

theorem Ends.now (coherent : manager.Coherent none) (task : manager.task = none) : Ends settings fresh manager :=
  ⟨[],manager,rfl,coherent,task,Grows.of_eq _ rfl⟩

theorem Ends.later (coherent : manager.Coherent none) (next : Manager ω τ) (label : Step) (spares : manager.Spares label)
    (taken : manager.step settings fresh label = some next) (ends : next.Coherent none → Ends settings fresh next) :
    Ends settings fresh manager := by
  obtain ⟨rest,final,ran,coherent',task,grows⟩ := ends (coherent.step settings fresh next label spares taken)
  refine ⟨label::rest,final,?_,coherent',task,Grows.trans _ _ _ (coherent.stepped settings fresh next label spares taken).2 grows⟩
  rw [Runs.exec_cons,taken]
  exact ran

variable {task : Task ω} (coherent : manager.Coherent none) (here : manager.task = some task)

section labels
include here

theorem step_write (committed : Bool) (error : Option String) :
    manager.step settings fresh (.write committed error) = manager.write fresh task committed error := by
  unfold Manager.step
  dsimp only
  rw [here,bind_some]

theorem step_resume : manager.step settings fresh .resume = manager.resume fresh task := by
  unfold Manager.step
  dsimp only
  rw [here,bind_some]

theorem step_reported (raised : Option String) (coordinator : Bool) :
    manager.step settings fresh (.reported raised coordinator) = manager.reported task raised coordinator := by
  unfold Manager.step
  dsimp only
  rw [here,bind_some]

theorem step_probed (fenced : Option Bool) : manager.step settings fresh (.probed fenced) = manager.probed task fenced := by
  unfold Manager.step
  dsimp only
  rw [here,bind_some]

theorem step_polled : manager.step settings fresh .polled = manager.polled task := by
  unfold Manager.step
  dsimp only
  rw [here,bind_some]

end labels

include coherent here

theorem Ends.lastProbe (stage : task.stage = .probing ∨ task.stage = .lastProbe) : Ends settings fresh manager := by
  apply Ends.later coherent (manager.stabilized task.operationId none) (.probed (some false)) trivial
  · rw [step_probed here]
    unfold Manager.probed
    rcases stage with stage | stage
    · rw [stage]
      rfl
    · rw [stage]
      rfl
  · exact fun coherent' => Ends.now coherent' rfl

theorem Ends.reporting (result : RescaleResult) (stage : task.stage = .reporting result) : Ends settings fresh manager := by
  apply Ends.later coherent (({manager with lock := .free} : Manager ω τ).stabilized task.operationId (some "")) (.reported (some "") false) trivial
  · rw [step_reported here]
    unfold Manager.reported
    rw [stage]
  · exact fun coherent' => Ends.now coherent' rfl

theorem Ends.written (resized : LogicalGraph ω) (result : RescaleResult) (stage : task.stage = .written resized result) :
    Ends settings fresh manager := by
  cases resumed : manager.resume fresh task with
  | none =>
    exfalso
    unfold Manager.resume at resumed
    rw [stage] at resumed
    dsimp only at resumed
    split at resumed
    next => cases resumed
    next =>
      split at resumed
      next => split at resumed <;> cases resumed
      next => cases resumed
  | some next =>
    apply Ends.later coherent next .resume trivial ((step_resume here).trans resumed)
    intro coherent'
    unfold Manager.resume at resumed
    rw [stage] at resumed
    dsimp only at resumed
    split at resumed
    next =>
      obtain rfl := some.inj resumed
      exact Ends.reporting coherent' rfl result rfl
    next =>
      split at resumed
      next =>
        split at resumed
        next =>
          obtain rfl := some.inj resumed
          exact Ends.reporting coherent' rfl result rfl
        next =>
          obtain rfl := some.inj resumed
          exact Ends.now coherent' rfl
      next =>
        obtain rfl := some.inj resumed
        exact Ends.now coherent' rfl

theorem Ends.free (stage : task.stage = .queued) (free : manager.lock = .free) : Ends settings fresh manager := by
  apply Ends.later coherent {manager with jobStatus := .failed} (.jobStatus .failed) trivial rfl
  intro coherent'
  apply Ends.later coherent' (({manager with jobStatus := .failed} : Manager ω τ).begin settings (fun _ => []) task) (.begin (fun _ => [])) trivial
  · unfold Manager.step
    dsimp only
    rw [here]
    dsimp only
    rw [stage]
    exact if_pos free
  · intro coherent''
    apply Ends.now coherent''
    have keeps := ({manager with jobStatus := .failed} : Manager ω τ).update_keeps task.operationId .running .coordinating none
    have refused : (({manager with jobStatus := .failed} : Manager ω τ).update task.operationId .running .coordinating none).resolveRescaleRequest
        settings (fun _ => []) (.number task.key) task.parallelism = .error "operator rescale requires a RUNNING job" := by
      unfold resolveRescaleRequest
      rw [keeps.jobStatus]
      rfl
    unfold Manager.begin
    dsimp only at refused ⊢
    rw [refused]
    rfl

variable (settings fresh)

theorem Coherent.ends : Ends settings fresh manager := by
  cases stage : task.stage with
  | queued =>
    cases lock : manager.lock with
    | free => exact Ends.free coherent here stage lock
    | rescale =>
      have held := (coherent.of_task none task here).lock.mp lock
      rw [stage] at held
      cases held
    | other =>
      apply Ends.later coherent {manager with lock := .free} .release trivial
      · exact if_pos lock
      · exact fun coherent' => Ends.free coherent' here stage rfl
  | writing resized result =>
    apply Ends.later coherent {
      manager with
      task := some {task with stage := .written resized {
        result with
        status := .failed
        error := some ""}}} (.write false (some "")) trivial
    · rw [step_write here]
      unfold Manager.write
      rw [stage]
      rfl
    · exact fun coherent' => Ends.written coherent' rfl resized _ rfl
  | written resized result => exact Ends.written coherent here resized result stage
  | reporting result => exact Ends.reporting coherent here result stage
  | probing => exact Ends.lastProbe coherent here (.inl stage)
  | lastProbe => exact Ends.lastProbe coherent here (.inr stage)
  | sleeping =>
    apply Ends.later coherent {manager with task := some {task with stage := .probing}} .polled trivial
    · rw [step_polled here]
      unfold Manager.polled
      rw [stage]
      exact if_pos (coherent.of_task none task here).working.active
    · exact fun coherent' => Ends.lastProbe coherent' rfl (.inl rfl)

end ending

section answered
variable (manager)

structure Answered : Prop where
  single : ∀ id last, (manager.paths id).getLast? = some last → last.terminal = false → manager.active = some id
  freed : ∀ id last, (manager.paths id).getLast? = some last → last.terminal = true → manager.active ≠ some id
  kept : ∀ id, manager.active = some id → ∃ operation, manager.operations.get? id = some operation
  waited : ∀ call waiting id, manager.calls.get? call = some waiting → waiting.Awaits id →
    ∃ operation, manager.operations.get? id = some operation
  bounded : manager.operations.entries.length ≤ historyLimit
  recorded : ∀ id operation, manager.operations.get? id = some operation → (manager.paths id).getLast? = some operation.status
  moves : ∀ id, manager.paths id ∈ statusPaths
  valid : manager.invalid = false
  found : ∀ call waiting id, manager.calls.get? call = some waiting → waiting.position ≠ .keyError id
  awake : ∀ call waiting, manager.calls.get? call = some waiting → waiting.position ≠ .hangs
  returned : ∀ call waiting operation, manager.calls.get? call = some waiting → waiting.position = .returned operation →
    operation.operationId = waiting.own ∧ Outcome (manager.paths waiting.own) operation.status
  agreed : manager.active = none → manager.Agreed

variable {manager}

theorem Coherent.active_iff (coherent : manager.Coherent none) : manager.active = none ↔ manager.task = none := by
  cases here : manager.task with
  | none => exact iff_of_true (coherent.of_idle none here).active rfl
  | some task =>
    rw [(coherent.of_task none task here).working.active]
    simp

theorem Coherent.answered (coherent : manager.Coherent none) : manager.Answered := by
  have records := coherent.records
  have last_active (id : Nat) (last : RescaleOperationStatus) (ends : (manager.paths id).getLast? = some last)
      (own : manager.active = some id) : last.terminal = false := by
    obtain ⟨operation,found,open'⟩ := coherent.active_terminal none id own
    obtain ⟨-,-,same⟩ := records.keys id operation found
    rw [ends] at same
    obtain rfl := some.inj same
    exact open'
  refine ⟨fun id last ends open' => ?_,fun id last ends terminal own => ?_,fun id own => ?_,fun call waiting id here awaits => ?_,records.bounded,
    fun id operation found => (records.keys id operation found).2.2,records.moves,records.valid,fun call waiting id here position => ?_,
    fun call waiting here position => ?_,fun call waiting operation here position => ?_,fun none => ?_⟩
  · by_contra other
    have issued : id < manager.issued := by
      by_contra late
      rw [records.unissued id (by omega)] at ends
      cases ends
    obtain ⟨last',ends',terminal⟩ := coherent.ended none id issued other
    rw [ends] at ends'
    cases ends'
    rw [open'] at terminal
    cases terminal
  · rw [last_active id last ends own] at terminal
    cases terminal
  · obtain ⟨operation,found,-⟩ := coherent.active_terminal none id own
    exact ⟨operation,found⟩
  · have fine := coherent.attended none call waiting (by simp) here
    unfold Fine at fine
    rcases awaits with position | ⟨woken,position⟩
    · rw [position] at fine
      exact fine
    · rw [position] at fine
      exact fine.2.1
  iterate 3
    have fine := coherent.attended none call waiting (by simp) here
    unfold Fine at fine
    rw [position] at fine
    exact fine
  · exact (coherent.of_idle Option.none (coherent.active_iff.mp none)).agreed

end answered
end Manager

section run
variable (settings : Settings ω) (fresh : ExecutionVertexId → τ) (logical : LogicalGraph ω) (physical : PhysicalGraph τ)

open Manager in
/-- Every request gets its own answer in every run in which no request pushes out a record
that another call waits for, and the active operation can always end. -/
theorem rescale_requests_answered (deployed : deploy fresh logical = .ok physical) (labels : List Step) (final : Manager ω τ)
    (spares : Runs.Along (Manager.step settings fresh) Manager.Spares (submitted logical physical) labels)
    (ran : Runs.exec (Manager.step settings fresh) (submitted logical physical) labels = some final) :
    final.Answered ∧ ∀ id, final.active = some id → ∃ rest after last,
      Runs.exec (Manager.step settings fresh) final rest = some after ∧ after.Answered ∧ after.active = none ∧
      final.paths id <+: after.paths id ∧ (after.paths id).getLast? = some last ∧ last.terminal = true := by
  have coherent : final.Coherent none := by
    apply Runs.exec_invariant (Manager.step settings fresh) Manager.Spares (fun manager => manager.Coherent none) _ labels
      (submitted logical physical) final (submitted_coherent fresh logical physical deployed) spares ran
    exact fun manager label next held spares taken => held.step settings fresh next label spares taken
  refine ⟨coherent.answered,fun id own => ?_⟩
  cases here : final.task with
  | none =>
    rw [coherent.active_iff.mpr here] at own
    cases own
  | some task =>
    obtain ⟨rest,after,ran',coherent',over',grows⟩ := coherent.ends settings fresh here
    have free := coherent'.active_iff.mpr over'
    obtain ⟨operation,found⟩ := coherent.answered.kept id own
    have current := coherent.answered.recorded id operation found
    have nonempty : after.paths id ≠ [] := by
      intro empty
      have short := grows id
      rw [empty,prefix_nil] at short
      rw [short] at current
      cases current
    obtain ⟨last,ends⟩ : ∃ last, (after.paths id).getLast? = some last := ⟨_,getLast?_eq_some_getLast nonempty⟩
    refine ⟨rest,after,last,ran',coherent'.answered,free,grows id,ends,?_⟩
    cases terminal : last.terminal with
    | true => rfl
    | false =>
      have busy := coherent'.answered.single id last ends terminal
      rw [free] at busy
      cases busy

open Manager in
/-- The statuses an operation has gone through are only ever added to, and none follows a
terminal one. -/
theorem rescale_history_settles (deployed : deploy fresh logical = .ok physical) (labels later : List Step)
    (middle final : Manager ω τ)
    (spares : Runs.Along (Manager.step settings fresh) Manager.Spares (submitted logical physical) labels)
    (continues : Runs.Along (Manager.step settings fresh) Manager.Spares middle later)
    (ran : Runs.exec (Manager.step settings fresh) (submitted logical physical) labels = some middle)
    (rest : Runs.exec (Manager.step settings fresh) middle later = some final) (id : Nat) :
    middle.paths id <+: final.paths id ∧
      ∀ last, (middle.paths id).getLast? = some last → last.terminal = true → final.paths id = middle.paths id := by
  have coherent : middle.Coherent none := by
    apply Runs.exec_invariant (Manager.step settings fresh) Manager.Spares (fun manager => manager.Coherent none) _ labels
      (submitted logical physical) middle (submitted_coherent fresh logical physical deployed) spares ran
    exact fun manager label next held spares taken => held.step settings fresh next label spares taken
  obtain ⟨coherent',grows⟩ : final.Coherent none ∧ Grows middle final := by
    apply Runs.exec_invariant (Manager.step settings fresh) Manager.Spares
      (fun manager => manager.Coherent none ∧ Grows middle manager) _ later middle final
      ⟨coherent,fun id => prefix_rfl⟩ continues rest
    intro manager label next held spares taken
    obtain ⟨further,grows⟩ := held.1.stepped settings fresh next label spares taken
    exact ⟨further,held.2.trans middle manager next grows⟩
  refine ⟨grows id,fun last ends terminal => ?_⟩
  apply statusPaths_settled _ (coherent.records.moves id) _ (coherent'.records.moves id) (grows id)
  simpa [ends] using terminal

end run

section examples

def plainSettings : Settings PlainOperator := ⟨128,fun _ => ⟨false,false,false,true⟩⟩

def admittedRequest : List Step := [.rescaleOperator (fun _ => []) 0 ⟨.number 1,2⟩]

/-- While a call waits for the operation of another one, that operation is rejected because a
task instance is not running. -/
def waitingRequests : List Step :=
  admittedRequest ++ [.rescaleOperator (fun _ => []) 1 ⟨.number 1,3⟩,.begin (fun _ => ["write[1]"]),.wake 0]

/-- Twenty requests with nothing to do follow before it looks. -/
def evictingRequests : List Step :=
  waitingRequests ++ List.replicate 20 (.submitOperatorRescale (fun _ => []) ⟨.number 1,1⟩) ++ [.poll (fun _ => []) 1]

def deployedPipeline : Option (Manager PlainOperator ExecutionVertexId) :=
  ((deploy (fun id => id) forwardPipeline).toOption).map (submitted forwardPipeline)

theorem deployedPipeline_eq (manager : Manager PlainOperator ExecutionVertexId) (built : deployedPipeline = some manager) :
    ∃ physical, deploy (fun id => id) forwardPipeline = .ok physical ∧ manager = submitted forwardPipeline physical := by
  obtain ⟨physical,found,same⟩ := map_eq_some_iff.mp built
  cases deployed : deploy (fun id : ExecutionVertexId => id) forwardPipeline with
  | error text =>
    rw [deployed] at found
    cases found
  | ok other =>
    rw [deployed] at found
    exact ⟨physical,congrArg Except.ok (some.inj found),same.symm⟩

/-- The call that waits looks, and its own request is admitted. -/
def polledRequests : List Step := waitingRequests ++ [.poll (fun _ => []) 1]

theorem spares_of_room (manager : Manager PlainOperator ExecutionVertexId) (label : Step)
    (room : manager.operations.entries.length < historyLimit) : manager.Spares label := by
  have spares (asking : Option Nat) : manager.SparesFor asking := fun _ full => absurd full (Nat.not_le.mpr room)
  cases label <;> first | exact spares _ | trivial

theorem polled_requests_answered : ∃ physical final, deploy (fun id => id) forwardPipeline = .ok physical ∧
    Runs.exec (Manager.step plainSettings (fun id => id)) (submitted forwardPipeline physical) polledRequests = some final ∧
    (final.paths 0 = [.accepted,.running,.rejected] ∧ (final.calls.get? 1).map Call.own = some 2) ∧
    final.Answered ∧ ∃ rest after, Runs.exec (Manager.step plainSettings (fun id => id)) final rest = some after ∧
      after.Answered ∧ after.active = none := by
  obtain ⟨initial,final,built,ran,seen,active,room⟩ := Runs.exec_check_built (Manager.step plainSettings (fun id => id))
    deployedPipeline polledRequests (fun initial final =>
      (final.paths 0 = [.accepted,.running,.rejected] ∧ (final.calls.get? 1).map Call.own = some 2) ∧
      final.active = some 2 ∧ Runs.Along (Manager.step plainSettings (fun id => id))
        (fun manager _ => manager.operations.entries.length < historyLimit) initial polledRequests) (by decide +kernel)
  obtain ⟨physical,deployed,rfl⟩ := deployedPipeline_eq initial built
  obtain ⟨answered,ends⟩ := rescale_requests_answered plainSettings (fun id => id) forwardPipeline physical deployed
    polledRequests final (Runs.Along.imp _ _ _ _ _ spares_of_room room) ran
  obtain ⟨rest,after,-,ended,still,free,-⟩ := ends 2 active
  exact ⟨physical,final,deployed,ran,seen,answered,rest,after,ended,still,free⟩

/-- The call that polls finds no record of the operation it waits for. -/
theorem evicted_operation_raises : ∃ physical final, deploy (fun id => id) forwardPipeline = .ok physical ∧
    Runs.exec (Manager.step plainSettings (fun id => id)) (submitted forwardPipeline physical) evictingRequests = some final ∧
    (∃ call, final.calls.get? 1 = some call ∧ call.position = .keyError 0) ∧ ¬ final.Answered := by
  obtain ⟨initial,final,built,ran,raised⟩ := Runs.exec_check_built (Manager.step plainSettings (fun id => id)) deployedPipeline evictingRequests
    (fun _ final => (final.calls.get? 1).map Call.position = some (.keyError 0)) (by decide +kernel)
  obtain ⟨physical,deployed,rfl⟩ := deployedPipeline_eq initial built
  obtain ⟨call,here,position⟩ := map_eq_some_iff.mp raised
  exact ⟨physical,final,deployed,ran,⟨call,here,position⟩,fun answered => answered.found 1 call 0 here position⟩

def rejectingBegin : List Step := [.begin (fun _ => ["write[1]"])]

theorem rejected_operation_settles : ∃ physical middle final, deploy (fun id => id) forwardPipeline = .ok physical ∧
    Runs.exec (Manager.step plainSettings (fun id => id)) (submitted forwardPipeline physical) admittedRequest = some middle ∧
    Runs.exec (Manager.step plainSettings (fun id => id)) middle rejectingBegin = some final ∧
    final.paths 0 = [.accepted,.running,.rejected] ∧ middle.paths 0 <+: final.paths 0 := by
  obtain ⟨initial,middle,built,ran,path⟩ := Runs.exec_check_built (Manager.step plainSettings (fun id => id)) deployedPipeline
    admittedRequest (fun _ middle => (Runs.exec (Manager.step plainSettings (fun id => id)) middle rejectingBegin).map
      (fun final => final.paths 0) = some [.accepted,.running,.rejected]) (by decide +kernel)
  obtain ⟨physical,deployed,rfl⟩ := deployedPipeline_eq initial built
  obtain ⟨final,rest,path⟩ := map_eq_some_iff.mp path
  refine ⟨physical,middle,final,deployed,ran,rest,path,(rescale_history_settles plainSettings (fun id => id) forwardPipeline
    physical deployed admittedRequest rejectingBegin middle final ⟨?_,fun _ _ => trivial⟩ ⟨trivial,fun _ _ => trivial⟩
    ran rest 0).1⟩
  intro _ full
  have empty : historyLimit ≤ 0 := full
  exact absurd empty (by decide)

end examples

end Klein.JobManager
