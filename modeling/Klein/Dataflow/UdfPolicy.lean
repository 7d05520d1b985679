import Klein.Dataflow.EdgeOutput

/-! What `udf.ignore-exception` swallows. A task processes records under the policy
while its edges fail as they like: for a full buffer, a route that is refused or an
inline send. A ghost notes what the functions return and where each record goes. -/
namespace Klein.Dataflow
open Effects List Option

inductive Noted (ι β : Type) where
  | arrived (operator : ι) (record : Record β)
  | emitted (source : ι) (record : Record β)
  | invoked (operator : ι) (record : Record β)
  | returned (operator : ι) (records : List (Record β))
  | collected (by' : Chain ι) (record : Record β)
  | accepted (edge : Nat) (record : Record β)
  | failed (edge : Nat) (record : Record β)

/-- `script` is what the user functions return and raise in the calls of `process_element`
to come, in turn. -/
structure EmittingTask (π ι β γ : Type) where
  edges : Nat → EdgeOutput π β γ
  script : List (Processed β)
  log : List (Noted ι β)

namespace EmittingTask
variable {π ι β γ : Type}

def start (edges : Nat → EdgeOutput π β γ) (script : List (Processed β)) : EmittingTask π ι β γ := ⟨edges,script,[]⟩

def note (events : List (Noted ι β)) (task : EmittingTask π ι β γ) : EmittingTask π ι β γ :=
  {task with log := task.log ++ events}

/-- A call of `process_element` does what the script says next. -/
def invoke (operator : ι) (record : Record β) : EStateM Failure (EmittingTask π ι β γ) (Processed β) := fun task =>
  match task.script with
  | [] => .ok ⟨[],none⟩ (task.note [.invoked operator record,.returned operator []])
  | processed::rest => .ok processed ({task with script := rest}.note [.invoked operator record,.returned operator processed.records])

theorem invoke_eq (operator : ι) (record : Record β) (task : EmittingTask π ι β γ) : ∃ processed script,
    invoke operator record task =
      .ok processed ({task with script}.note [.invoked operator record,.returned operator processed.records]) := by
  obtain ⟨edges,script,log⟩ := task
  cases script with
  | nil => exact ⟨⟨[],none⟩,[],rfl⟩
  | cons processed rest => exact ⟨processed,rest,rfl⟩

def noteCollected (chain : Chain ι) (record : Record β) : EStateM Failure (EmittingTask π ι β γ) (Record β) :=
  fun task => .ok record (task.note [.collected chain record])

variable (ops : RouteOps β) (settings : List (EdgeSettings π β))

/-- `edge.accept(record)`; an exception of the edge is one of the emission. -/
def acceptOn (index : Nat) (edgeSettings : EdgeSettings π β) (record : Record β) :
    EStateM Failure (EmittingTask π ι β γ) PUnit := fun task =>
  match EdgeOutput.accept ops edgeSettings (.record record) (task.edges index) with
  | .ok _ edge => .ok ⟨⟩ ({task with edges := Function.update task.edges index edge}.note [.accepted index record])
  | .error text edge =>
    .error (.emission text) ({task with edges := Function.update task.edges index edge}.note [.failed index record])

/-- The loop of `TaskOutput.collect` over the edges. -/
def collectFrom (record : Record β) : Nat → List (EdgeSettings π β) → EStateM Failure (EmittingTask π ι β γ) PUnit
  | _,[] => pure ⟨⟩
  | index,edgeSettings::rest => do
    acceptOn ops index edgeSettings record
    collectFrom record (index + 1) rest

def collect (record : Record β) : EStateM Failure (EmittingTask π ι β γ) PUnit := collectFrom ops record 0 settings

variable (batchEnabled : ι → Bool) (columnarPassthrough : Bool)

def operators : Operators (EmittingTask π ι β γ) ι β where
  ops := ops.toColumnOps
  invoke := invoke
  batchEnabled := batchEnabled
  columnarPassthrough := columnarPassthrough
  ignoreExceptions := true
  noted := noteCollected

/-- A record to process, one that a source emits, or a change of an edge by anyone
else: a drain, a flush, an acknowledgement. -/
inductive Event (π β γ : Type) where
  | process (record : Record β)
  | emit (record : Record β)
  | edge (index : Nat) (edge : EdgeOutput π β γ)

def step (chain : Chain ι) : Event π β γ → EStateM Failure (EmittingTask π ι β γ) PUnit
  | .process record => do
    modify (note [.arrived chain.root record])
    (operators ops batchEnabled columnarPassthrough).runnerProcess (some (collect ops settings)) chain record
  | .emit record => do
    modify (note [.emitted chain.root record])
    (operators ops batchEnabled columnarPassthrough).sourceCollect (some (collect ops settings)) chain record
  | .edge index edge => fun task => .ok ⟨⟩ {task with edges := Function.update task.edges index edge}

def run (chain : Chain ι) (events : List (Event π β γ)) : EStateM Failure (EmittingTask π ι β γ) PUnit :=
  forM events (step ops settings batchEnabled columnarPassthrough chain)

/-- Who is to be given a record. -/
inductive Duty (ι β : Type) where
  | invoke (operator : ι) (record : Record β)
  | collect (operator : ι) (record : Record β)
  | accept (edge : Nat) (record : Record β)

section duties
variable (plane : Operators (EmittingTask π ι β γ) ι β) (edgeCount : Nat)

def done : Noted ι β → List (Duty ι β)
  | .invoked operator record => [.invoke operator record]
  | .collected chain record => [.collect chain.root record]
  | .accepted edge record => [.accept edge record]
  | _ => []

/-- What `collect` makes of a record that a call returned; `none`: it refuses the record. -/
def passed (operator : ι) (record : Record β) : Option (List (Record β)) :=
  match plane.ops.validateRecord record with
  | some _ => none
  | none => (plane.emissions operator record).toOption

def share (operator : ι) (record : Record β) : List (Duty ι β) :=
  ((passed plane operator record).getD []).map (Duty.collect operator)

/-- A record that was collected is for each edge of the task or each chained successor. -/
def handing (record : Record β) : Chain ι → List (Duty ι β)
  | .operator _ => (List.range' 0 edgeCount).map (fun edge => .accept edge record)
  | .chained _ succeeding => succeeding.map (fun next => .invoke next.root record)

/-- What an event leaves to be done. All that a call returned is to be collected, up to
the values that `collect` refuses. -/
def due : Noted ι β → List (Duty ι β)
  | .arrived operator record => [.invoke operator record]
  | .emitted source record => [.collect source record]
  | .returned operator records => records.flatMap (share plane operator)
  | .collected chain record => handing edgeCount record chain
  | _ => []

def tally (duties : Noted ι β → List (Duty ι β)) (log : List (Noted ι β)) : Multiset (Duty ι β) := log.flatMap duties

/-- Each record that a user function returned or a source emitted is collected, and each
record that was collected is given to everyone: none is left out and none comes twice. -/
def AllHandedOn (log : List (Noted ι β)) : Prop := tally done log = tally (due plane edgeCount) log

/-- No record follows in a call's return on one that `collect` refuses. -/
def Whole : Noted ι β → Prop
  | .returned operator records =>
    records.Pairwise (fun earlier later => passed plane operator earlier = none → share plane operator later = [])
  | _ => True

/-- The part of a return that is collected while nothing else fails. -/
def kept (operator : ι) (records : List (Record β)) : List (Duty ι β) :=
  (records.takeWhile (fun record => (passed plane operator record).isSome)).flatMap (share plane operator)

/-- The part of `due` that is done while nothing else fails. -/
def prompt : Noted ι β → List (Duty ι β)
  | .returned operator records => kept plane operator records
  | event => due plane edgeCount event

theorem tally_cons (duties : Noted ι β → List (Duty ι β)) (event : Noted ι β) (log : List (Noted ι β)) :
    tally duties (event::log) = duties event + tally duties log := rfl

theorem tally_append (duties : Noted ι β → List (Duty ι β)) (first second : List (Noted ι β)) :
    tally duties (first ++ second) = tally duties first + tally duties second :=
  congrArg _ flatMap_append

theorem share_refused (operator : ι) (record : Record β) (refused : passed plane operator record = none) :
    share plane operator record = [] := by
  rw [share,refused]
  rfl

theorem kept_cons_refused (operator : ι) (record : Record β) (rest : List (Record β))
    (refused : passed plane operator record = none) : kept plane operator (record::rest) = [] := by
  rw [kept,takeWhile_cons,refused]
  rfl

theorem kept_cons (operator : ι) (record : Record β) (rest : List (Record β)) (passes : passed plane operator record ≠ none) :
    kept plane operator (record::rest) = share plane operator record ++ kept plane operator rest := by
  rw [kept,takeWhile_cons,if_pos (isSome_iff_ne_none.mpr passes),flatMap_cons]
  rfl

theorem kept_eq_iff (operator : ι) (records : List (Record β)) :
    kept plane operator records = records.flatMap (share plane operator) ↔ Whole plane (.returned operator records) := by
  induction records with
  | nil => exact iff_of_true rfl List.Pairwise.nil
  | cons record rest ih =>
    rw [Whole] at ih ⊢
    rw [flatMap_cons,pairwise_cons]
    by_cases refused : passed plane operator record = none
    · rw [kept_cons_refused plane operator record rest refused,share_refused plane operator record refused,
        nil_append,eq_comm,flatMap_eq_nil_iff]
      refine ⟨fun none => ⟨fun later inside _ => none later inside,?_⟩,fun whole later inside => whole.1 later inside refused⟩
      exact pairwise_of_forall_mem_list (fun _ _ later inside _ => none later inside)
    · rw [kept_cons plane operator record rest refused,append_cancel_left_eq,ih]
      exact ⟨fun whole => ⟨fun _ _ impossible => absurd impossible refused,whole⟩,And.right⟩

theorem prompt_due (event : Noted ι β) : ((prompt plane edgeCount event : Multiset (Duty ι β)) ≤ due plane edgeCount event) ∧
    ((prompt plane edgeCount event : Multiset (Duty ι β)) = due plane edgeCount event ↔ Whole plane event) := by
  cases event with
  | returned operator records =>
    have part : (kept plane operator records).Sublist (records.flatMap (share plane operator)) :=
      (takeWhile_sublist _).flatMap _
    refine ⟨part.subperm,?_⟩
    rw [← kept_eq_iff,Multiset.coe_eq_coe]
    exact ⟨fun same => part.eq_of_length same.length_eq,fun same => List.Perm.of_eq same⟩
  | _ => exact ⟨le_rfl,iff_of_true rfl trivial⟩

theorem tally_prompt (log : List (Noted ι β)) : tally (prompt plane edgeCount) log ≤ tally (due plane edgeCount) log ∧
    (tally (prompt plane edgeCount) log = tally (due plane edgeCount) log ↔ ∀ event ∈ log, Whole plane event) := by
  induction log with
  | nil => exact ⟨le_rfl,iff_of_true rfl (fun _ impossible => absurd impossible not_mem_nil)⟩
  | cons event rest ih =>
    obtain ⟨less,same⟩ := prompt_due plane edgeCount event
    rw [tally_cons,tally_cons,forall_mem_cons,← same,← ih.2]
    exact ⟨add_le_add less ih.1,add_eq_add_iff_eq_and_eq less ih.1⟩

end duties

section settling
variable (plane : Operators (EmittingTask π ι β γ) ι β) (edgeCount : Nat)

def Failing (events : List (Noted ι β)) : Prop := ∃ index record, .failed index record ∈ events

theorem failing_append (first second : List (Noted ι β)) : Failing (first ++ second) ↔ Failing first ∨ Failing second := by
  simp only [Failing,mem_append,exists_or]

/-- What a part of a run that was to do `owed` leaves behind: it does that and whatever is
due of it meanwhile if and only if nothing fails. -/
structure Settled (owed : List (Duty ι β)) (events : List (Noted ι β)) : Prop where
  le : tally done events ≤ owed + tally (prompt plane edgeCount) events
  eq_iff : tally done events = owed + tally (prompt plane edgeCount) events ↔ ¬ Failing events

theorem Settled.nil : Settled plane edgeCount [] [] := ⟨le_rfl,iff_of_true rfl (fun ⟨_,_,inside⟩ => not_mem_nil inside)⟩

theorem Settled.append (owed owed' : List (Duty ι β)) (first second : List (Noted ι β))
    (one : Settled plane edgeCount owed first) (two : Settled plane edgeCount owed' second) :
    Settled plane edgeCount (owed ++ owed') (first ++ second) := by
  have sum : ((owed ++ owed' : List (Duty ι β)) : Multiset (Duty ι β)) + tally (prompt plane edgeCount) (first ++ second) =
      (owed + tally (prompt plane edgeCount) first) + (owed' + tally (prompt plane edgeCount) second) := by
    rw [tally_append,← Multiset.coe_add]
    abel
  refine ⟨?_,?_⟩ <;> rw [sum,tally_append]
  · exact add_le_add one.le two.le
  · rw [add_eq_add_iff_eq_and_eq one.le two.le,one.eq_iff,two.eq_iff,failing_append,not_or]

/-- An event that does not fail does its own and leaves what is due of it to the rest. -/
theorem Settled.cons (event : Noted ι β) (owed : List (Duty ι β)) (events : List (Noted ι β))
    (sound : ∀ index record, event ≠ .failed index record)
    (settled : Settled plane edgeCount (prompt plane edgeCount event ++ owed) events) :
    Settled plane edgeCount (done event ++ owed) (event::events) := by
  have sum : ((done event ++ owed : List (Duty ι β)) : Multiset (Duty ι β)) + tally (prompt plane edgeCount) (event::events) =
      done event + ((prompt plane edgeCount event ++ owed : List (Duty ι β)) + tally (prompt plane edgeCount) events) := by
    rw [tally_cons,← Multiset.coe_add,← Multiset.coe_add]
    abel
  have failing : Failing (event::events) ↔ Failing events := by
    refine (failing_append [event] events).trans (or_iff_right ?_)
    rintro ⟨index,record,inside⟩
    exact sound index record (mem_singleton.mp inside).symm
  refine ⟨?_,?_⟩ <;> rw [sum,tally_cons]
  · exact add_le_add le_rfl settled.le
  · rw [add_right_inj,settled.eq_iff,failing]

/-- A part that fails may owe more. -/
theorem Settled.more (owed others : List (Duty ι β)) (events : List (Noted ι β)) (settled : Settled plane edgeCount owed events)
    (failing : Failing events) : Settled plane edgeCount (owed ++ others) events := by
  have less : tally done events < owed + tally (prompt plane edgeCount) events :=
    lt_of_le_of_ne settled.le (fun same => settled.eq_iff.mp same failing)
  have within : (owed + tally (prompt plane edgeCount) events : Multiset (Duty ι β)) ≤
      (owed ++ others : List (Duty ι β)) + tally (prompt plane edgeCount) events :=
    add_le_add (sublist_append_left owed others).subperm le_rfl
  exact ⟨less.le.trans within,iff_of_false (less.trans_le within).ne (not_not_intro failing)⟩

def Adds {α : Type} (body : EStateM Failure (EmittingTask π ι β γ) α) (returned : α → List (Noted ι β) → Prop)
    (raised : List (Noted ι β) → Prop) : Prop :=
  ∀ log, Ensures body (fun task => task.log = log)
    (fun value task => ∃ events, task.log = log ++ events ∧ returned value events)
    (fun _ task => ∃ events, task.log = log ++ events ∧ raised events)

theorem Adds.weaken {α : Type} (body : EStateM Failure (EmittingTask π ι β γ) α) (returned returned' : α → List (Noted ι β) → Prop)
    (raised raised' : List (Noted ι β) → Prop) (adds : Adds body returned raised)
    (good : ∀ value events, returned value events → returned' value events)
    (bad : ∀ events, raised events → raised' events) : Adds body returned' raised' := fun log =>
  Ensures.weaken (adds log) (fun _ here => here)
    (fun value _ ⟨events,added,holds⟩ => ⟨events,added,good value events holds⟩)
    (fun _ _ ⟨events,added,holds⟩ => ⟨events,added,bad events holds⟩)

theorem Adds.bind {α α' : Type} (first : EStateM Failure (EmittingTask π ι β γ) α)
    (rest : α → EStateM Failure (EmittingTask π ι β γ) α') (middle : α → List (Noted ι β) → Prop)
    (returned : α' → List (Noted ι β) → Prop) (raised : List (Noted ι β) → Prop) (begins : Adds first middle raised)
    (goesOn : ∀ value events, middle value events →
      Adds (rest value) (fun last more => returned last (events ++ more)) (fun more => raised (events ++ more))) :
    Adds (first >>= rest) returned raised := by
  intro log
  refine Ensures.bind _ (begins log) (fun value task here => ?_)
  obtain ⟨events,added,holds⟩ := here
  refine Ensures.weaken (goesOn value events holds (log ++ events)) (fun _ same => same) ?_ ?_ task added
  · rintro last task ⟨more,same,holds'⟩
    exact ⟨events ++ more,by rw [same,append_assoc],holds'⟩
  · rintro error task ⟨more,same,holds'⟩
    exact ⟨events ++ more,by rw [same,append_assoc],holds'⟩

theorem Adds.nothing {α : Type} (value : α) (returned : α → List (Noted ι β) → Prop) (raised : List (Noted ι β) → Prop)
    (holds : returned value []) : Adds (pure value : EStateM Failure (EmittingTask π ι β γ) α) returned raised :=
  fun log task same => ⟨[],by rw [append_nil,same],holds⟩

theorem Adds.raise {α : Type} (error : Failure) (returned : α → List (Noted ι β) → Prop) (raised : List (Noted ι β) → Prop)
    (holds : raised []) : Adds (throw error : EStateM Failure (EmittingTask π ι β γ) α) returned raised :=
  fun log task same => ⟨[],by rw [append_nil,same],holds⟩

/-- A body that does `owed` or fails. -/
def Pays {α : Type} (body : EStateM Failure (EmittingTask π ι β γ) α) (owed : List (Duty ι β)) : Prop :=
  Adds body (fun _ => Settled plane edgeCount owed) (fun events => Settled plane edgeCount owed events ∧ Failing events)

theorem Pays.bind (first : EStateM Failure (EmittingTask π ι β γ) PUnit) (rest : PUnit → EStateM Failure (EmittingTask π ι β γ) PUnit)
    (owed owed' : List (Duty ι β)) (one : Pays plane edgeCount first owed) (two : Pays plane edgeCount (rest ⟨⟩) owed') :
    Pays plane edgeCount (first >>= rest) (owed ++ owed') := by
  have begins := Adds.weaken _ _ _ _ _ one (fun _ _ settled => settled)
    (fun events raised => And.intro (raised.1.more plane edgeCount owed owed' events raised.2) raised.2)
  refine Adds.bind _ _ _ _ _ begins (fun _ events settled => ?_)
  refine Adds.weaken _ _ _ _ _ two (fun _ more settled' => settled.append plane edgeCount owed owed' events more settled') ?_
  rintro more ⟨settled',failing⟩
  exact ⟨settled.append plane edgeCount owed owed' events more settled',(failing_append events more).mpr (.inr failing)⟩

theorem Pays.forM {α : Type} (body : α → EStateM Failure (EmittingTask π ι β γ) PUnit) (items : List α)
    (owed : α → List (Duty ι β)) (pays : ∀ item ∈ items, Pays plane edgeCount (body item) (owed item)) :
    Pays plane edgeCount (forM items body) (items.flatMap owed) := by
  induction items with
  | nil => exact Adds.nothing _ _ _ (Settled.nil plane edgeCount)
  | cons item rest ih =>
    obtain ⟨here,later⟩ := forall_mem_cons.mp pays
    rw [forM_cons,flatMap_cons]
    exact Pays.bind plane edgeCount _ _ _ _ here (ih later)

/-- A note before a body that pays what is due of it. -/
theorem Pays.noted {α : Type} (event : Noted ι β) (sound : ∀ index record, event ≠ .failed index record)
    (first : EStateM Failure (EmittingTask π ι β γ) α) (value : α) (rest : α → EStateM Failure (EmittingTask π ι β γ) PUnit)
    (notes : ∀ task, first task = .ok value (task.note [event])) (pays : Pays plane edgeCount (rest value) (prompt plane edgeCount event)) :
    Pays plane edgeCount (first >>= rest) (done event) := by
  have settles (more : List (Noted ι β)) (settled : Settled plane edgeCount (prompt plane edgeCount event) more) :
      Settled plane edgeCount (done event) ([event] ++ more) := by
    rw [← append_nil (done event)]
    exact Settled.cons plane edgeCount event [] more sound (by rw [append_nil]; exact settled)
  refine Adds.bind _ _ (fun result events => result = value ∧ events = [event]) _ _ (fun log task same => ?_) ?_
  · rw [notes]
    exact ⟨[event],congrArg (· ++ [event]) same,rfl,rfl⟩
  · rintro _ _ ⟨rfl,rfl⟩
    refine Adds.weaken _ _ _ _ _ pays (fun _ => settles) (fun more raised => ⟨settles more raised.1,?_⟩)
    exact (failing_append [event] more).mpr (.inr raised.2)

end settling

section served
variable (plane : Operators (EmittingTask π ι β γ) ι β) (edgeCount : Nat)

theorem collectFrom_pays (record : Record β) (index : Nat) (rest : List (EdgeSettings π β)) :
    Pays plane edgeCount (collectFrom (ι := ι) (γ := γ) ops record index rest)
      ((List.range' index rest.length).map (fun edge => .accept edge record)) := by
  induction rest generalizing index with
  | nil => exact Adds.nothing _ _ _ (Settled.nil plane edgeCount)
  | cons edgeSettings rest ih =>
    refine Pays.bind plane edgeCount _ _ [.accept index record] _ (fun log task same => ?_) (ih (index + 1))
    unfold acceptOn
    cases EdgeOutput.accept ops edgeSettings (.record record) (task.edges index) with
    | ok _ edge =>
      refine ⟨[.accepted index record],congrArg (· ++ [_]) same,?_⟩
      exact Settled.cons plane edgeCount (.accepted index record) [] [] nofun (Settled.nil plane edgeCount)
    | error text edge =>
      have failing : Failing [Noted.failed (ι := ι) index record] := ⟨index,record,mem_singleton_self _⟩
      refine ⟨[.failed index record],congrArg (· ++ [_]) same,⟨Multiset.zero_le _,?_⟩,failing⟩
      exact iff_of_false (by simp [tally,done,prompt,due]) (not_not_intro failing)

/-- The operators of a task under the policy, as the ghost sees them. -/
structure Watched : Prop where
  invokes : ∀ operator record task, ∃ processed script, plane.invoke operator record task =
    .ok processed ({task with script}.note [.invoked operator record,.returned operator processed.records])
  notes : plane.noted = noteCollected
  ignores : plane.ignoreExceptions = true

theorem operators_watched : Watched (operators ops batchEnabled columnarPassthrough : Operators (EmittingTask π ι β γ) ι β) where
  invokes := invoke_eq
  notes := rfl
  ignores := rfl

variable (watched : Watched plane)
include watched

section
variable (collector : Record β → EStateM Failure (EmittingTask π ι β γ) PUnit) (chain : Chain ι)
  (serves : ∀ record, Pays plane edgeCount (collector record) (handing edgeCount record chain))
include serves

theorem noted_pays (record : Record β) :
    Pays plane edgeCount (plane.noted chain record >>= collector) [.collect chain.root record] := by
  rw [watched.notes]
  exact Pays.noted plane edgeCount (.collected chain record) nofun _ record _ (fun _ => rfl) (serves record)

theorem collect_adds (out : Record β) : Adds (plane.collect chain (some collector) out)
    (fun _ events => passed plane chain.root out ≠ none ∧ Settled plane edgeCount (share plane chain.root out) events)
    (fun events => passed plane chain.root out ≠ none ∧ Settled plane edgeCount (share plane chain.root out) events ∧ Failing events ∨
      passed plane chain.root out = none ∧ events = []) := by
  unfold Operators.collect share passed
  cases plane.ops.validateRecord out with
  | some text => exact Adds.raise _ _ _ (.inr ⟨rfl,rfl⟩)
  | none =>
    dsimp only
    cases plane.emissions chain.root out with
    | error text => exact Adds.raise _ _ _ (.inr ⟨rfl,rfl⟩)
    | ok emitted =>
      have pays := Pays.forM plane edgeCount _ emitted _ (fun record _ =>
        noted_pays plane edgeCount watched collector chain serves record)
      rw [← map_eq_flatMap] at pays
      exact Adds.weaken _ _ _ _ _ pays (fun _ events settled => ⟨some_ne_none _,settled⟩)
        (fun events raised => .inl ⟨some_ne_none _,raised⟩)

theorem records_adds (records : List (Record β)) : Adds (forM records (plane.collect chain (some collector)))
    (fun _ => Settled plane edgeCount (kept plane chain.root records))
    (Settled plane edgeCount (kept plane chain.root records)) := by
  induction records with
  | nil => exact Adds.nothing _ _ _ (Settled.nil plane edgeCount)
  | cons record rest ih =>
    rw [forM_cons]
    have first := collect_adds plane edgeCount watched collector chain serves record
    refine Adds.bind _ _ _ _ _ (Adds.weaken _ _ _ _ _ first (fun _ _ here => here) ?_) (fun _ events here => ?_)
    · rintro events (⟨passes,settled,failing⟩ | ⟨refused,rfl⟩)
      · rw [kept_cons plane chain.root record rest passes]
        exact settled.more plane edgeCount _ _ events failing
      · rw [kept_cons_refused plane chain.root record rest refused]
        exact Settled.nil plane edgeCount
    · rw [kept_cons plane chain.root record rest here.1]
      exact Adds.weaken _ _ _ _ _ ih (fun _ more settled => here.2.append plane edgeCount _ _ events more settled)
        (fun more settled => here.2.append plane edgeCount _ _ events more settled)

theorem process_adds (record : Record β) : Adds (plane.process chain (some collector) record)
    (fun _ => Settled plane edgeCount [.invoke chain.root record]) (Settled plane edgeCount [.invoke chain.root record]) := by
  unfold Operators.process
  refine Adds.bind _ _ (fun processed events => events =
    [.invoked chain.root record,.returned chain.root processed.records]) _ _ ?_ ?_
  · intro log task same
    obtain ⟨processed,script,called⟩ := watched.invokes chain.root record task
    rw [called]
    exact ⟨_,congrArg (· ++ _) same,rfl⟩
  rintro processed _ rfl
  have settles (more : List (Noted ι β)) (settled : Settled plane edgeCount (kept plane chain.root processed.records) more) :
      Settled plane edgeCount [.invoke chain.root record]
        ([.invoked chain.root record,.returned chain.root processed.records] ++ more) := by
    refine Settled.cons plane edgeCount (.invoked chain.root record) [] _ nofun ?_
    refine Settled.cons plane edgeCount (.returned chain.root processed.records) [] more nofun ?_
    rw [append_nil]
    exact settled
  have all := records_adds plane edgeCount watched collector chain serves processed.records
  refine Adds.bind _ _ _ _ _ (Adds.weaken _ _ _ _ _ all (fun _ _ here => here) settles) (fun _ events settled => ?_)
  cases processed.raised with
  | some text => exact Adds.raise _ _ _ (by rw [append_nil]; exact settles events settled)
  | none => exact Adds.nothing _ _ _ (by rw [append_nil]; exact settles events settled)

end

theorem Adds.handled (body : EStateM Failure (EmittingTask π ι β γ) PUnit) (either : List (Noted ι β) → Prop)
    (adds : Adds body (fun _ => either) either) : Adds (tryCatch body plane.handle) (fun _ => either) (fun _ => False) := by
  intro log
  refine Ensures.tryCatch (adds log) (fun error => ?_)
  rw [Operators.handle,if_pos watched.ignores]
  exact Ensures.pure (fun _ here => here)

mutual
theorem invokeProcess_adds : ∀ (chain : Chain ι) (record : Record β),
    Adds (plane.invokeProcess (some (collect ops settings)) chain record)
      (fun _ => Settled plane settings.length [.invoke chain.root record])
      (Settled plane settings.length [.invoke chain.root record])
  | .operator operator,record => by
    rw [Operators.invokeProcess]
    exact process_adds plane settings.length watched _ (.operator operator)
      (fun out => collectFrom_pays ops plane settings.length out 0 settings) record
  | .chained root succeeding,record => by
    rw [Operators.invokeProcess]
    exact process_adds plane settings.length watched _ (.chained root succeeding) (fun out => forward_pays succeeding out) record

theorem forward_pays : ∀ (succeeding : List (Chain ι)) (record : Record β),
    Pays plane settings.length (plane.forward (some (collect ops settings)) succeeding record)
      (succeeding.map (fun next => .invoke next.root record))
  | [],record => by
    rw [Operators.forward]
    exact Adds.nothing _ _ _ (Settled.nil plane _)
  | next::others,record => by
    rw [Operators.forward]
    refine Pays.bind plane settings.length _ _ [_] _ ?_ (forward_pays others record)
    exact Adds.weaken _ _ _ _ _ (Adds.handled plane watched _ _ (invokeProcess_adds next record)) (fun _ _ here => here)
      (fun _ impossible => impossible.elim)
end

theorem sourceCollect_pays (chain : Chain ι) (record : Record β) :
    Pays plane settings.length (plane.sourceCollect (some (collect ops settings)) chain record) [.collect chain.root record] := by
  cases chain with
  | operator single =>
    exact noted_pays plane settings.length watched _ (.operator single)
      (fun out => collectFrom_pays ops plane settings.length out 0 settings) record
  | chained root succeeding =>
    exact noted_pays plane settings.length watched _ (.chained root succeeding)
      (fun out => forward_pays ops settings plane watched succeeding out) record

end served

theorem step_pays (chain : Chain ι) (event : Event π β γ) :
    Pays (operators ops batchEnabled columnarPassthrough) settings.length
      (step ops settings batchEnabled columnarPassthrough chain event) [] := by
  have watched := operators_watched (π := π) (γ := γ) ops batchEnabled columnarPassthrough
  cases event with
  | process record =>
    refine Pays.noted _ settings.length (.arrived chain.root record) nofun _ ⟨⟩ _ (fun _ => rfl) ?_
    have handled := Adds.handled _ watched _ _ (invokeProcess_adds ops settings _ watched chain record)
    exact Adds.weaken _ _ _ _ _ handled (fun _ _ here => here) (fun _ impossible => impossible.elim)
  | emit record =>
    exact Pays.noted _ settings.length (.emitted chain.root record) nofun _ ⟨⟩ _ (fun _ => rfl)
      (sourceCollect_pays ops settings _ watched chain record)
  | edge index edge => exact fun log task same => ⟨[],by rw [append_nil]; exact same,Settled.nil _ _⟩

def plainOps : RouteOps Unit where
  retainedSize := fun _ => 1
  sliceRows := fun block _ _ => block
  rowBlock := fun block _ _ => block
  merge := fun _ => .ok (Record.fresh () none)
  numRows := fun _ => 1
  validateRecord := fun _ => none
  validateColumns := fun _ => none
  selectRows := fun block _ => block

def narrowEdge : EdgeSettings Unit Unit where
  taskName := "map"
  router := ⟨⟨"FORWARD",fun cursor _ => .ok ([0],cursor),fun cursor _ _ => .ok ([(0,none)],cursor),fun target => .ok [target]⟩,
    1,[0]⟩
  bufferLimit := 1
  bufferByteLimit := 1
  batchSize := 10
  batchMaxRows := none
  batchMaxBytes := none
  deliveryMode := .pipelined

def secondEdgeFull : Nat → EdgeOutput Unit Unit Unit
  | 1 => {EdgeOutput.init () [] with
    bufferedRows := 1
    bufferedBytes := 1}
  | _ => EdgeOutput.init () []

end EmittingTask
end Klein.Dataflow
