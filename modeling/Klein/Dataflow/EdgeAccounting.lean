import Klein.Dataflow.EdgeOutput

/-! What an output edge counts as buffered beside what its batcher and its pending
commands hold, over every run of calls. -/
namespace Klein.Dataflow
open Effects Function List
namespace EdgeOutput
variable {π β γ : Type} (ops : RouteOps β) (settings : EdgeSettings π β)

section calls

/-- `batcher.drain(force=True)` in `close`: each batch becomes a command and is released. -/
def drainReleased : List Nat → EStateM String (EdgeOutput π β γ) (List (EdgeCommand β γ))
  | [] => pure []
  | target::rest => do
    let edge ← get
    let batch := edge.batches target
    if batch = [] then drainReleased rest
    else
      set {edge with batches := Function.update edge.batches target []}
      match settings.router.retryRing target with
      | .error text => throw text
      | .ok ring =>
        release ops batch
        let drained ← drainReleased rest
        return .data target ring batch::drained

/-- What `close` still has to send. -/
def finalCommands : EStateM String (EdgeOutput π β γ) (List (EdgeCommand β γ)) := do
  let pending ← takePendingCommands ops
  let drained ← drainReleased ops settings (List.range settings.router.targetCount)
  return pending ++ drained

end calls

structure OpenEdge (π β γ : Type) where
  edge : EdgeOutput π β γ
  isOpen : Bool

inductive EdgeCall (β γ : Type) where
  | accept (input : EdgeInput β γ)
  | flush (force : Bool) (idle : Nat → Bool)
  | takePendingCommands
  | close

section runs

def ran {α : Type} (isOpen : Bool) : EStateM.Result String (EdgeOutput π β γ) α → Option String × OpenEdge π β γ
  | .ok _ edge => (none,⟨edge,isOpen⟩)
  | .error text edge => (some text,⟨edge,isOpen⟩)

def perform (state : OpenEdge π β γ) : EdgeCall β γ → Option String × OpenEdge π β γ
  | .accept input =>
    if state.isOpen then ran true (accept ops settings input state.edge) else (some "EdgeOutput is not open",state)
  | .flush force idle =>
    if state.isOpen then ran true (flush ops settings force idle state.edge) else (some "EdgeOutput is not open",state)
  | .takePendingCommands => ran state.isOpen (takePendingCommands ops state.edge)
  | .close =>
    if state.isOpen then
      match finalCommands ops settings state.edge with
      | .error text edge => (some text,⟨edge,true⟩)
      | .ok commands edge => ran false (forM commands sendSync edge)
    else (none,state)

def performAll (calls : List (EdgeCall β γ)) (state : OpenEdge π β γ) : OpenEdge π β γ :=
  calls.foldl (fun state call => (perform ops settings state call).2) state

def opened (cursor : π) (outcomes : List (Option String)) : OpenEdge π β γ := ⟨init cursor outcomes,true⟩

end runs

section accounts

def heldRecords (edge : EdgeOutput π β γ) : List (Record β) :=
  (List.range settings.router.targetCount).flatMap edge.batches ++ edge.pending.flatMap commandRecords

/-- The counters are sums over what is held, and only one record alone may exceed a limit. -/
structure Accounted (edge : EdgeOutput π β γ) : Prop where
  rows : edge.bufferedRows = rowsOf (heldRecords settings edge)
  bytes : edge.bufferedBytes = bytesOf ops.toBlockOps (heldRecords settings edge)
  lone : settings.bufferLimit < edge.bufferedRows ∨ settings.bufferByteLimit < edge.bufferedBytes →
    (heldRecords settings edge).length = 1

def Unchanged (before after : EdgeOutput π β γ) : Prop :=
  after.batches = before.batches ∧ after.pending = before.pending ∧ after.bufferedRows = before.bufferedRows ∧
    after.bufferedBytes = before.bufferedBytes

/-- An accept that is refused changes nothing, what is taken is released, and a barrier
or a closing raises what a send raised. -/
def Answers (before after : OpenEdge π β γ) (raised : Option String) : EdgeCall β γ → Prop
  | .accept (.record _) => raised.isSome → Unchanged before.edge after.edge
  | .takePendingCommands => raised = none
  | .flush _ _ => before.isOpen = true → raised = none
  | _ => before.isOpen = true → ∀ text, raised = some text → some text ∈ before.edge.outcomes

end accounts

section conditions

def Fits (rows bytes : Nat) (record : Record β) : Prop :=
  0 < rows ∨ 0 < bytes → rows + record.rows ≤ settings.bufferLimit ∧ bytes + ops.retainedSize record ≤ settings.bufferByteLimit

def FitsAll : Nat → Nat → List (Nat × List Nat × Record β) → Prop
  | _,_,[] => True
  | rows,bytes,(_,_,record)::rest =>
    Fits ops settings rows bytes record ∧ FitsAll (rows + record.rows) (bytes + ops.retainedSize record) rest

def fullBatches (batches : Nat → List (Record β)) : List (Nat × List Nat × Record β) → Nat
  | [] => 0
  | (target,_,record)::rest =>
    if batchFull ops settings (batches target ++ [record]) then fullBatches (Function.update batches target []) rest + 1
    else fullBatches (Function.update batches target (batches target ++ [record])) rest

def dueBatches (due : Nat → Bool) (batches : Nat → List (Record β)) : Nat :=
  ((List.range settings.router.targetCount).filter (fun target => !(batches target).isEmpty && due target)).length

def Sends (count : Nat) (outcomes : List (Option String)) : Prop :=
  settings.deliveryMode = .inline → ∀ outcome ∈ outcomes.take count, outcome = none

/-- A record is taken in for all its targets or refused for the first, and no inline send
of a batch fails. -/
def Whole (state : OpenEdge π β γ) (call : EdgeCall β γ) : Prop := state.isOpen = true →
  match call with
  | .accept (.record record) =>
    match settings.router.route ops state.edge.cursor record with
    | .error _ => True
    | .ok (routes,_) => ∀ first rest, routes.items = first::rest →
        Fits ops settings state.edge.bufferedRows state.edge.bufferedBytes first.2.2 →
          FitsAll ops settings state.edge.bufferedRows state.edge.bufferedBytes routes.items ∧ routes.raised = none ∧
            Sends settings (fullBatches ops settings state.edge.batches routes.items) state.edge.outcomes
  | .accept _ => Sends settings (dueBatches settings (fun _ => true) state.edge.batches) state.edge.outcomes
  | .flush force idle => Sends settings (dueBatches settings (fun target => force || idle target) state.edge.batches) state.edge.outcomes
  | _ => True

def WholeRun : OpenEdge π β γ → List (EdgeCall β γ) → Prop
  | _,[] => True
  | state,call::rest => Whole ops settings state call ∧ WholeRun (perform ops settings state call).2 rest

end conditions

section books
variable {ops settings}

theorem batches_around (batches : Nat → List (Record β)) (targetCount target : Nat) (inside : target < targetCount) :
    ∃ others : List (Record β), ∀ batch, ((List.range targetCount).flatMap (Function.update batches target batch)).Perm (batch ++ others) := by
  induction targetCount with
  | zero => cases inside
  | succ targetCount ih =>
    rcases Nat.lt_succ_iff_lt_or_eq.mp inside with earlier | last
    · obtain ⟨others,around⟩ := ih earlier
      use others ++ batches targetCount
      intro batch
      rw [range_succ,flatMap_append,flatMap_singleton,update_of_ne (Nat.ne_of_gt earlier),
        ← append_assoc]
      exact (around batch).append_right _
    · use (List.range targetCount).flatMap batches
      intro batch
      have before : (List.range targetCount).flatMap (Function.update batches target batch) = (List.range targetCount).flatMap batches := by
        apply flatMap_congr
        intro other less
        have less := mem_range.mp less
        rw [update_of_ne (by omega)]
      rw [range_succ,flatMap_append,flatMap_singleton,before,last,update_self]
      exact perm_append_comm

theorem rowsOf_append (left right : List (Record β)) : rowsOf (left ++ right) = rowsOf left + rowsOf right := by
  unfold rowsOf
  rw [map_append,sum_append]

theorem bytesOf_append (blockOps : BlockOps β) (left right : List (Record β)) :
    bytesOf blockOps (left ++ right) = bytesOf blockOps left + bytesOf blockOps right := by
  unfold bytesOf
  rw [map_append,sum_append]

theorem rowsOf_perm (left right : List (Record β)) (same : left.Perm right) : rowsOf left = rowsOf right :=
  (same.map _).sum_nat

theorem bytesOf_perm (blockOps : BlockOps β) (left right : List (Record β)) (same : left.Perm right) :
    bytesOf blockOps left = bytesOf blockOps right := (same.map _).sum_nat

structure Books (ops : RouteOps β) (settings : EdgeSettings π β) (edge : EdgeOutput π β γ) (hand : List (Record β)) : Prop where
  rows : edge.bufferedRows = rowsOf (heldRecords settings edge ++ hand)
  bytes : edge.bufferedBytes = bytesOf ops.toBlockOps (heldRecords settings edge ++ hand)
  lone : settings.bufferLimit < edge.bufferedRows ∨ settings.bufferByteLimit < edge.bufferedBytes →
    (heldRecords settings edge ++ hand).length = 1
  known : ∀ target, edge.batches target ≠ [] →
    target < settings.router.targetCount ∧ ∃ ring, settings.router.retryRing target = .ok ring

theorem Books.accounted (edge : EdgeOutput π β γ) (books : Books ops settings edge []) : Accounted ops settings edge := by
  obtain ⟨rows,bytes,lone,_⟩ := books
  rw [append_nil] at rows bytes lone
  exact ⟨rows,bytes,lone⟩

theorem Books.moved (edge after : EdgeOutput π β γ) (hand hand' : List (Record β)) (books : Books ops settings edge hand)
    (rows : after.bufferedRows = edge.bufferedRows) (bytes : after.bufferedBytes = edge.bufferedBytes)
    (same : (heldRecords settings after ++ hand').Perm (heldRecords settings edge ++ hand))
    (known : ∀ target, after.batches target ≠ [] →
      target < settings.router.targetCount ∧ ∃ ring, settings.router.retryRing target = .ok ring) :
    Books ops settings after hand' := by
  constructor
  · rw [rows,books.rows,rowsOf_perm _ _ same]
  · rw [bytes,books.bytes,bytesOf_perm _ _ _ same]
  · rw [rows,bytes,same.length_eq]
    exact books.lone
  · exact known

section
variable (sized : ∀ record, 0 < ops.retainedSize record) (edge : EdgeOutput π β γ) (hand : List (Record β))
include sized edge hand

theorem Books.nothing
    (books : Books ops settings edge hand) (zero : ¬ (0 < edge.bufferedRows ∨ 0 < edge.bufferedBytes)) :
    heldRecords settings edge ++ hand = [] := by
  have bytes := books.bytes
  cases held : heldRecords settings edge ++ hand with
  | nil => rfl
  | cons record rest =>
    rw [held] at bytes
    unfold bytesOf at bytes
    rw [map_cons,sum_cons] at bytes
    have := sized record
    omega

theorem Books.reserved (record : Record β) (books : Books ops settings edge hand)
    (fits : Fits ops settings edge.bufferedRows edge.bufferedBytes record) :
    ∃ after, reserve ops settings record edge = .ok ⟨⟩ after ∧ Books ops settings after (hand ++ [record]) ∧
      after = {edge with
        bufferedRows := edge.bufferedRows + record.rows
        bufferedBytes := edge.bufferedBytes + ops.retainedSize record} := by
  refine ⟨_,?_,?_,rfl⟩
  · unfold reserve
    dsimp only
    unfold Fits at fits
    rw [if_neg,if_neg]
    · rintro ⟨some,above⟩
      have := (fits some).2
      omega
    · rintro ⟨some,above⟩
      have := (fits some).1
      omega
  · constructor
    · change edge.bufferedRows + record.rows = rowsOf (heldRecords settings edge ++ (hand ++ [record]))
      rw [← append_assoc,rowsOf_append,← books.rows]
      simp [rowsOf]
    · change edge.bufferedBytes + ops.retainedSize record = bytesOf _ (heldRecords settings edge ++ (hand ++ [record]))
      rw [← append_assoc,bytesOf_append,← books.bytes]
      simp [bytesOf]
    · intro exceeds
      dsimp only at exceeds
      change (heldRecords settings edge ++ (hand ++ [record])).length = 1
      rw [← append_assoc,books.nothing sized]
      · rfl
      · intro some
        have := fits some
        omega
    · exact books.known

end

section
variable (edge : EdgeOutput π β γ)
include edge

theorem reserve_refused (record : Record β)
    (refused : ¬ Fits ops settings edge.bufferedRows edge.bufferedBytes record) :
    ∃ text, reserve ops settings record edge = .error text edge := by
  unfold Fits at refused
  push Not at refused
  obtain ⟨some,above⟩ := refused
  unfold reserve
  dsimp only
  split_ifs
  · exact ⟨_,rfl⟩
  · exact ⟨_,rfl⟩
  next few less => omega

theorem Books.released (hand records : List (Record β))
    (books : Books ops settings edge (hand ++ records)) :
    ∃ after, release ops records edge = .ok ⟨⟩ after ∧ Books ops settings after hand ∧ after = {edge with
      bufferedRows := edge.bufferedRows - rowsOf records
      bufferedBytes := edge.bufferedBytes - bytesOf ops.toBlockOps records} := by
  have same : (heldRecords settings edge ++ (hand ++ records)).Perm (records ++ (heldRecords settings edge ++ hand)) := by
    rw [← append_assoc]
    exact perm_append_comm
  have rows := books.rows
  have bytes := books.bytes
  have lone := books.lone
  rw [rowsOf_perm _ _ same,rowsOf_append] at rows
  rw [bytesOf_perm _ _ _ same,bytesOf_append] at bytes
  rw [same.length_eq,length_append] at lone
  refine ⟨_,?_,?_,rfl⟩
  · unfold release
    dsimp only
    rw [if_neg (by omega),if_neg (by omega)]
  · constructor
    · change edge.bufferedRows - rowsOf records = rowsOf (heldRecords settings edge ++ hand)
      omega
    · change edge.bufferedBytes - bytesOf ops.toBlockOps records = bytesOf ops.toBlockOps (heldRecords settings edge ++ hand)
      omega
    · intro exceeds
      dsimp only at exceeds
      change (heldRecords settings edge ++ hand).length = 1
      have one := lone (by omega)
      by_contra other
      have none : heldRecords settings edge ++ hand = [] := eq_nil_of_length_eq_zero (by omega)
      rw [none] at rows bytes
      change edge.bufferedRows = rowsOf records + 0 at rows
      change edge.bufferedBytes = bytesOf ops.toBlockOps records + 0 at bytes
      omega
    · exact books.known

theorem heldRecords_around (target : Nat) (inside : target < settings.router.targetCount) :
    ∃ others, (heldRecords settings edge).Perm (edge.batches target ++ others) ∧
      ∀ batch, (heldRecords settings {edge with batches := Function.update edge.batches target batch}).Perm (batch ++ others) := by
  obtain ⟨others,around⟩ := batches_around edge.batches settings.router.targetCount target inside
  have changed : ∀ batch, (heldRecords settings {edge with batches := Function.update edge.batches target batch}).Perm
      (batch ++ (others ++ edge.pending.flatMap commandRecords)) := by
    intro batch
    rw [← append_assoc]
    exact (around batch).append_right _
  have same := changed (edge.batches target)
  rw [update_eq_self] at same
  exact ⟨_,same,changed⟩

theorem Books.appended (hand : List (Record β)) (target : Nat) (record : Record β)
    (books : Books ops settings edge (hand ++ [record])) (inside : target < settings.router.targetCount)
    (ring : List Nat) (known : settings.router.retryRing target = .ok ring) :
    Books ops settings {edge with batches := Function.update edge.batches target (edge.batches target ++ [record])} hand := by
  obtain ⟨others,before,changed⟩ := heldRecords_around edge target inside
  apply books.moved
  · rfl
  · rfl
  · apply ((changed _).append_right hand).trans
    apply List.Perm.trans _ (before.symm.append_right _)
    rw [append_assoc,append_assoc,append_assoc,← append_assoc others hand]
    exact perm_append_comm.append_left _
  · intro other
    by_cases same : other = target
    · rw [same]
      exact fun _ => ⟨inside,ring,known⟩
    · dsimp only
      rw [update_of_ne same]
      exact books.known other

theorem Books.emptied (hand : List (Record β)) (target : Nat)
    (books : Books ops settings edge hand) (inside : target < settings.router.targetCount) :
    Books ops settings {edge with batches := Function.update edge.batches target []} (hand ++ edge.batches target) := by
  obtain ⟨others,before,changed⟩ := heldRecords_around edge target inside
  apply books.moved
  · rfl
  · rfl
  · apply ((changed []).append_right _).trans
    apply List.Perm.trans _ (before.symm.append_right _)
    rw [nil_append,← append_assoc,append_assoc (edge.batches target)]
    exact perm_append_comm
  · intro other
    by_cases same : other = target
    · rw [same]
      dsimp only
      rw [update_self]
      exact fun some => absurd rfl some
    · dsimp only
      rw [update_of_ne same]
      exact books.known other

theorem Books.shuffled (hand hand' : List (Record β)) (books : Books ops settings edge hand)
    (same : hand'.Perm hand) : Books ops settings edge hand' :=
  books.moved edge edge hand hand' rfl rfl (same.append_left _) books.known

end

end books

section calls
variable {ops settings}

theorem takeIn_books (sized : ∀ record, 0 < ops.retainedSize record) (items : List (Nat × List Nat × Record β))
    (edge : EdgeOutput π β γ) (hand : List (Record β)) (books : Books ops settings edge hand)
    (fits : FitsAll ops settings edge.bufferedRows edge.bufferedBytes items)
    (known : ∀ item ∈ items, settings.router.Known item) :
    ∃ ready after, takeIn ops settings items edge = .ok ready after ∧
      Books ops settings after (hand ++ ready.flatMap commandRecords) ∧ after.outcomes = edge.outcomes ∧
        ready.length = fullBatches ops settings edge.batches items := by
  induction items generalizing edge hand with
  | nil => exact ⟨[],edge,rfl,by simpa using books,rfl,rfl⟩
  | cons item rest ih =>
    obtain ⟨target,ring,record⟩ := item
    obtain ⟨here,later⟩ := forall_mem_cons.mp known
    obtain ⟨first,fits⟩ := fits
    obtain ⟨reserved,done,books,same⟩ := books.reserved sized edge hand record first
    have books := books.appended reserved hand target record here.1 ring here.2
    have batches : reserved.batches = edge.batches := by rw [same]
    have outcomes : reserved.outcomes = edge.outcomes := by rw [same]
    have rows : reserved.bufferedRows = edge.bufferedRows + record.rows := by rw [same]
    have bytes : reserved.bufferedBytes = edge.bufferedBytes + ops.retainedSize record := by rw [same]
    rw [takeIn,fullBatches]
    by_cases full : batchFull ops settings (edge.batches target ++ [record])
    · have books := books.emptied _ hand target here.1
      dsimp only at books
      rw [update_self,update_idem,batches] at books
      obtain ⟨ready,after,ran,books,unsent,count⟩ := ih _ _ books (by dsimp only; rw [rows,bytes]; exact fits) later
      have took : takeFull ops settings target {reserved with
          batches := Function.update reserved.batches target (reserved.batches target ++ [record])} =
          .ok (edge.batches target ++ [record]) {reserved with
            batches := Function.update edge.batches target []} := by
        unfold takeFull
        dsimp only
        rw [update_self,update_idem,batches,if_pos full]
      refine ⟨.data target ring (edge.batches target ++ [record])::ready,after,?_,?_,?_,?_⟩
      · apply (bind_of_ok _ _ edge reserved ⟨⟩ done).trans
        apply (bind_of_ok (append target record) _ reserved _ ⟨⟩ rfl).trans
        apply (bind_of_ok _ _ _ _ _ took).trans
        apply (bind_of_ok _ _ _ after ready ran).trans
        rw [if_neg (by simp)]
        rfl
      · rw [flatMap_cons,← append_assoc]
        exact books
      · exact unsent.trans outcomes
      · rw [if_pos full,length_cons,count]
    · rw [batches] at books
      obtain ⟨ready,after,ran,books,unsent,count⟩ := ih _ _ books (by dsimp only; rw [rows,bytes]; exact fits) later
      have took : takeFull ops settings target {reserved with
          batches := Function.update reserved.batches target (reserved.batches target ++ [record])} =
          .ok [] {reserved with
            batches := Function.update edge.batches target (edge.batches target ++ [record])} := by
        unfold takeFull
        dsimp only
        rw [update_self,batches,if_neg full]
      refine ⟨ready,after,?_,books,unsent.trans outcomes,?_⟩
      · apply (bind_of_ok _ _ edge reserved ⟨⟩ done).trans
        apply (bind_of_ok (append target record) _ reserved _ ⟨⟩ rfl).trans
        apply (bind_of_ok _ _ _ _ _ took).trans
        exact (bind_of_ok _ _ _ after ready ran).trans rfl
      · rw [if_neg full,count]

theorem dispatchOrBuffer_books (command : EdgeCommand β γ) (edge : EdgeOutput π β γ) (hand : List (Record β)) (count : Nat)
    (books : Books ops settings edge (hand ++ commandRecords command)) (sends : Sends settings (count + 1) edge.outcomes) :
    ∃ after, dispatchOrBuffer ops settings command edge = .ok ⟨⟩ after ∧ Books ops settings after hand ∧
      (∀ outcome ∈ after.outcomes, outcome ∈ edge.outcomes) ∧ Sends settings count after.outcomes := by
  unfold dispatchOrBuffer
  cases mode : settings.deliveryMode with
  | pipelined =>
    refine ⟨_,rfl,?_,fun _ inside => inside,fun inline => by rw [mode] at inline; cases inline⟩
    apply books.moved
    · rfl
    · rfl
    · change ((_ ++ (edge.pending ++ [command]).flatMap commandRecords) ++ hand).Perm ((_ ++ edge.pending.flatMap commandRecords) ++ _)
      rw [flatMap_append,flatMap_singleton,append_assoc,append_assoc,append_assoc]
      exact (perm_append_comm.append_left _).append_left _
    · exact books.known
  | inline =>
    have good := sends mode
    have sent : sendSync command edge = .ok ⟨⟩ {edge with
        outcomes := edge.outcomes.tail
        sent := edge.sent ++ [command]} := by
      unfold sendSync
      split
      next text rest failing =>
        rw [failing,take_succ_cons] at good
        cases good _ (mem_cons_self ..)
      · rfl
    have later : Sends settings count edge.outcomes.tail := by
      intro _ outcome inside
      apply good
      cases outcomes : edge.outcomes with
      | nil => simp [outcomes] at inside
      | cons first rest =>
        rw [outcomes] at inside
        rw [take_succ_cons]
        exact mem_cons_of_mem _ inside
    have books : Books ops settings {edge with
        outcomes := edge.outcomes.tail
        sent := edge.sent ++ [command]} (hand ++ commandRecords command) := {books with}
    cases command with
    | data target ring records =>
      obtain ⟨after,done,books,same⟩ := books.released _ hand records
      refine ⟨after,(bind_of_ok _ _ _ _ _ sent).trans done,books,?_,?_⟩
      · rw [same]
        exact fun _ inside => mem_of_mem_tail inside
      · rw [same]
        exact later
    | barrier _ | control _ =>
      refine ⟨_,(bind_of_ok _ _ _ _ _ sent).trans rfl,?_,fun _ inside => mem_of_mem_tail inside,later⟩
      exact append_nil hand ▸ books

theorem dispatchDataCommands_books (commands : List (EdgeCommand β γ)) (edge : EdgeOutput π β γ) (hand : List (Record β))
    (books : Books ops settings edge (hand ++ commands.flatMap commandRecords))
    (sends : Sends settings commands.length edge.outcomes) :
    ∃ after, dispatchDataCommands ops settings commands edge = .ok ⟨⟩ after ∧ Books ops settings after hand ∧
      ∀ outcome ∈ after.outcomes, outcome ∈ edge.outcomes := by
  induction commands generalizing edge with
  | nil =>
    rw [flatMap_nil,append_nil] at books
    exact ⟨edge,rfl,books,fun _ inside => inside⟩
  | cons command rest ih =>
    rw [flatMap_cons] at books
    have books := books.shuffled _ _ (hand ++ rest.flatMap commandRecords ++ commandRecords command) (by
      rw [append_assoc]
      exact perm_append_comm.append_left hand)
    obtain ⟨middle,done,books,fewer,sends⟩ := dispatchOrBuffer_books command edge _ rest.length books sends
    obtain ⟨after,ran,books,last⟩ := ih middle books sends
    refine ⟨after,?_,books,fun outcome inside => fewer outcome (last outcome inside)⟩
    unfold dispatchDataCommands
    rw [forM_cons]
    exact (bind_of_ok _ _ _ _ _ done).trans ran

theorem due_later (batches : Nat → List (Record β)) (due : Nat → Bool) (target : Nat) (rest : List Nat) (new : target ∉ rest) :
    rest.filter (fun other => !(Function.update batches target [] other).isEmpty && due other) =
      rest.filter (fun other => !(batches other).isEmpty && due other) := by
  apply List.filter_congr
  intro other inside
  have apart : other ≠ target := by
    rintro rfl
    exact new inside
  rw [update_of_ne apart]

theorem drainTargets_books (due : Nat → Bool) (targets : List Nat) (once : targets.Nodup) (edge : EdgeOutput π β γ)
    (hand : List (Record β)) (books : Books ops settings edge hand) :
    ∃ ready after, drainTargets settings due targets edge = .ok ready after ∧
      Books ops settings after (hand ++ ready.flatMap commandRecords) ∧ after.outcomes = edge.outcomes ∧
        ready.length = (targets.filter (fun target => !(edge.batches target).isEmpty && due target)).length := by
  induction targets generalizing edge hand with
  | nil => exact ⟨[],edge,rfl,by simpa using books,rfl,rfl⟩
  | cons target rest ih =>
    obtain ⟨new,once⟩ := nodup_cons.mp once
    rw [drainTargets]
    by_cases skipped : edge.batches target = [] ∨ ¬ due target
    · obtain ⟨ready,after,ran,books,same,count⟩ := ih once edge hand books
      refine ⟨ready,after,?_,books,same,?_⟩
      · apply (bind_of_ok _ _ edge edge edge rfl).trans
        rw [if_pos skipped]
        exact ran
      · rw [count,filter_cons_of_neg]
        rcases skipped with empty | idle
        · simp [empty]
        · simp [idle]
    · obtain ⟨some,isDue⟩ := not_or.mp skipped
      obtain ⟨inside,ring,known⟩ := books.known target some
      obtain ⟨ready,after,ran,books,same,count⟩ := ih once _ _ (books.emptied edge hand target inside)
      refine ⟨.data target ring (edge.batches target)::ready,after,?_,?_,same,?_⟩
      · apply (bind_of_ok _ _ edge edge edge rfl).trans
        rw [if_neg skipped]
        apply (bind_of_ok (set _) _ edge _ ⟨⟩ rfl).trans
        rw [known]
        exact (bind_of_ok _ _ _ _ _ ran).trans rfl
      · rw [flatMap_cons,← append_assoc]
        exact books
      · rw [length_cons,count,due_later _ _ _ _ new,filter_cons_of_pos,length_cons]
        simp only [not_not] at isDue
        simp [some,isDue]

theorem drainBatcher_books (due : Nat → Bool) (edge : EdgeOutput π β γ) (books : Books ops settings edge [])
    (sends : Sends settings (dueBatches settings due edge.batches) edge.outcomes) :
    ∃ after, drainBatcher ops settings due edge = .ok ⟨⟩ after ∧ Books ops settings after [] ∧
      ∀ outcome ∈ after.outcomes, outcome ∈ edge.outcomes := by
  obtain ⟨ready,middle,ran,books,same,count⟩ := drainTargets_books due _ nodup_range edge [] books
  rw [← same] at sends
  unfold dueBatches at sends
  rw [← count] at sends
  obtain ⟨after,done,books,fewer⟩ := dispatchDataCommands_books ready middle [] books sends
  rw [same] at fewer
  exact ⟨after,(bind_of_ok _ _ _ _ _ ran).trans done,books,fewer⟩

theorem sendSync_books (command : EdgeCommand β γ) (given : List (Option String)) :
    Ensures (sendSync command) (fun edge : EdgeOutput π β γ => Books ops settings edge [] ∧ ∀ outcome ∈ edge.outcomes, outcome ∈ given)
      (fun _ edge => Books ops settings edge [] ∧ ∀ outcome ∈ edge.outcomes, outcome ∈ given)
      (fun text edge => Books ops settings edge [] ∧ some text ∈ given) := by
  rintro ⟨cursor,batches,pending,rows,bytes,outcomes,sent⟩ ⟨⟨counted,sized,lone,known⟩,fewer⟩
  rcases outcomes with _ | ⟨_ | text,rest⟩
  · exact ⟨⟨counted,sized,lone,known⟩,fewer⟩
  · exact ⟨⟨counted,sized,lone,known⟩,fun outcome inside => fewer outcome (mem_cons_of_mem _ inside)⟩
  · exact ⟨⟨counted,sized,lone,known⟩,fewer _ (mem_cons_self ..)⟩

theorem dispatchOrBuffer_empty (command : EdgeCommand β γ) (empty : commandRecords command = []) (given : List (Option String)) :
    Ensures (dispatchOrBuffer ops settings command)
      (fun edge : EdgeOutput π β γ => Books ops settings edge [] ∧ ∀ outcome ∈ edge.outcomes, outcome ∈ given)
      (fun _ edge => Books ops settings edge []) (fun text edge => Books ops settings edge [] ∧ some text ∈ given) := by
  unfold dispatchOrBuffer
  split
  · rintro edge ⟨books,_⟩
    apply books.moved
    · rfl
    · rfl
    · change ((_ ++ (edge.pending ++ [command]).flatMap commandRecords) ++ []).Perm ((_ ++ edge.pending.flatMap commandRecords) ++ [])
      rw [flatMap_append,flatMap_singleton,empty,append_nil,append_nil,append_nil]
    · exact books.known
  · refine Ensures.bind _ (sendSync_books command given) (fun _ => ?_)
    split
    next target ring records =>
      rintro edge ⟨books,_⟩
      obtain ⟨after,done,books,-⟩ := Books.released edge [] records (by
        change records = [] at empty
        rw [empty]
        exact books)
      rw [done]
      exact books
    · exact Ensures.pure (fun _ here => here.1)

theorem releasing_books (commands : List (EdgeCommand β γ)) (edge : EdgeOutput π β γ)
    (books : Books ops settings edge (commands.flatMap commandRecords)) :
    ∃ after, (forM commands (fun command => match command with
      | .data _ _ records => release ops records
      | _ => pure ⟨⟩) : EStateM String (EdgeOutput π β γ) PUnit) edge = .ok ⟨⟩ after ∧
      Books ops settings after [] ∧ after.outcomes = edge.outcomes := by
  induction commands generalizing edge with
  | nil => exact ⟨edge,rfl,books,rfl⟩
  | cons command rest ih =>
    rw [flatMap_cons] at books
    have books := books.shuffled _ _ _ perm_append_comm
    rw [forM_cons]
    cases command with
    | data target ring records =>
      obtain ⟨middle,done,books,same⟩ := books.released edge _ records
      obtain ⟨after,ran,books,last⟩ := ih middle books
      refine ⟨after,(bind_of_ok _ _ _ _ _ done).trans ran,books,?_⟩
      rw [last,same]
    | barrier _ | control _ =>
      have books := books.shuffled _ _ (rest.flatMap commandRecords) (by
        change List.Perm _ (rest.flatMap commandRecords ++ [])
        rw [append_nil])
      obtain ⟨after,ran,books,last⟩ := ih edge books
      exact ⟨after,(bind_of_ok (pure PUnit.unit) _ edge edge PUnit.unit rfl).trans ran,books,last⟩

theorem takePendingCommands_books (edge : EdgeOutput π β γ) (books : Books ops settings edge []) :
    ∃ after, takePendingCommands ops edge = .ok edge.pending after ∧ Books ops settings after [] ∧ after.outcomes = edge.outcomes := by
  have taken : Books ops settings {edge with pending := []} (edge.pending.flatMap commandRecords) := by
    apply books.moved
    · rfl
    · rfl
    · change ((_ ++ []) ++ _).Perm ((_ ++ edge.pending.flatMap commandRecords) ++ [])
      rw [append_nil,append_nil]
    · exact books.known
  obtain ⟨after,ran,books,same⟩ := releasing_books edge.pending _ taken
  refine ⟨after,?_,books,same⟩
  apply (bind_of_ok _ _ edge edge edge rfl).trans
  apply (bind_of_ok (set _) _ edge _ ⟨⟩ rfl).trans
  exact (bind_of_ok _ _ _ _ _ ran).trans rfl

theorem drainReleased_books (targets : List Nat) (edge : EdgeOutput π β γ) (books : Books ops settings edge []) :
    ∃ drained after, drainReleased ops settings targets edge = .ok drained after ∧ Books ops settings after [] ∧
      after.outcomes = edge.outcomes := by
  induction targets generalizing edge with
  | nil => exact ⟨[],edge,rfl,books,rfl⟩
  | cons target rest ih =>
    rw [drainReleased]
    by_cases empty : edge.batches target = []
    · obtain ⟨drained,after,ran,last⟩ := ih edge books
      refine ⟨drained,after,?_,last⟩
      apply (bind_of_ok _ _ edge edge edge rfl).trans
      rw [if_pos empty]
      exact ran
    · obtain ⟨inside,ring,known⟩ := books.known target empty
      obtain ⟨middle,done,books,same⟩ := (books.emptied edge [] target inside).released _ [] _
      obtain ⟨drained,after,ran,books,last⟩ := ih middle books
      refine ⟨.data target ring (edge.batches target)::drained,after,?_,books,?_⟩
      · apply (bind_of_ok _ _ edge edge edge rfl).trans
        rw [if_neg empty]
        apply (bind_of_ok (set _) _ edge _ ⟨⟩ rfl).trans
        rw [known]
        apply (bind_of_ok _ _ _ _ _ done).trans
        exact (bind_of_ok _ _ _ _ _ ran).trans rfl
      · rw [last,same]

theorem acceptRecord_books (sized : ∀ record, 0 < ops.retainedSize record) (edge : EdgeOutput π β γ) (record : Record β)
    (books : Books ops settings edge []) (whole : Whole ops settings ⟨edge,true⟩ (.accept (.record record))) :
    match acceptRecord ops settings record edge with
    | .ok _ after => Books ops settings after []
    | .error _ after => Books ops settings after [] ∧ Unchanged edge after := by
  unfold acceptRecord
  rw [bind_of_ok MonadState.get _ edge edge edge rfl]
  have whole := whole rfl
  dsimp only at whole
  cases routed : settings.router.route ops edge.cursor record with
  | error text => exact ⟨books,rfl,rfl,rfl,rfl⟩
  | ok given =>
    obtain ⟨routes,cursor⟩ := given
    have known := settings.router.route_known ops edge.cursor cursor record routes routed
    rw [routed] at whole
    dsimp only at whole
    have turned : Books ops settings {edge with cursor := cursor} [] := {books with}
    dsimp only
    rw [bind_of_ok (set _) _ edge _ ⟨⟩ rfl]
    cases items : routes.items with
    | nil =>
      rw [bind_of_ok (takeIn ops settings []) _ _ _ [] rfl]
      cases routes.raised with
      | some text => exact ⟨turned,rfl,rfl,rfl,rfl⟩
      | none => exact turned
    | cons first rest =>
      rw [items] at known
      by_cases fits : Fits ops settings edge.bufferedRows edge.bufferedBytes first.2.2
      · obtain ⟨all,quiet,sends⟩ := whole first rest items fits
        rw [items] at all sends
        obtain ⟨ready,middle,ran,books,same,count⟩ := takeIn_books sized (first::rest) {edge with cursor := cursor} [] turned all known
        rw [bind_of_ok _ _ _ _ _ ran,quiet]
        dsimp only at same count
        rw [← same,← count] at sends
        obtain ⟨after,done,books,-⟩ := dispatchDataCommands_books ready middle [] books sends
        dsimp only
        rw [done]
        exact books
      · obtain ⟨text,refused⟩ := @reserve_refused _ _ _ ops settings {edge with cursor := cursor} first.2.2 fits
        have failed : takeIn ops settings (first::rest) {edge with cursor := cursor} = .error text {edge with cursor := cursor} :=
          bind_of_error _ _ _ _ _ refused
        rw [bind_of_error _ _ _ _ _ failed]
        exact ⟨turned,rfl,rfl,rfl,rfl⟩

theorem drained_books (edge : EdgeOutput π β γ) (command : EdgeCommand β γ) (empty : commandRecords command = [])
    (body : EStateM String (EdgeOutput π β γ) PUnit)
    (does : body = (do
      drainBatcher ops settings (fun _ => true)
      dispatchOrBuffer ops settings command)) (books : Books ops settings edge [])
    (sends : Sends settings (dueBatches settings (fun _ => true) edge.batches) edge.outcomes) :
    Books ops settings (ran true (body edge)).2.edge [] ∧ (true = true → ∀ text, (ran true (body edge)).1 = some text → some text ∈ edge.outcomes) := by
  obtain ⟨middle,done,books,fewer⟩ := drainBatcher_books (fun _ => true) edge books sends
  have ends := dispatchOrBuffer_empty command empty edge.outcomes middle ⟨books,fewer⟩
  rw [does,bind_of_ok _ _ _ _ _ done]
  revert ends
  cases dispatchOrBuffer ops settings command middle with
  | ok _ after => exact fun ends => ⟨ends,fun _ text raised => by cases raised⟩
  | error text after =>
    intro ends
    refine ⟨ends.1,fun _ other raised => ?_⟩
    cases raised
    exact ends.2

theorem perform_books (sized : ∀ record, 0 < ops.retainedSize record) (state : OpenEdge π β γ) (call : EdgeCall β γ)
    (books : Books ops settings state.edge []) (whole : Whole ops settings state call) :
    Books ops settings (perform ops settings state call).2.edge [] ∧
      Answers state (perform ops settings state call).2 (perform ops settings state call).1 call := by
  obtain ⟨edge,isOpen⟩ := state
  dsimp only at books
  cases isOpen with
  | false =>
    cases call with
    | accept input =>
      refine ⟨books,?_⟩
      cases input with
      | record record => exact fun _ => ⟨rfl,rfl,rfl,rfl⟩
      | barrier barrier => exact fun isOpen => by cases isOpen
      | control control => exact fun isOpen => by cases isOpen
    | flush force idle => exact ⟨books,fun isOpen => by cases isOpen⟩
    | takePendingCommands =>
      obtain ⟨after,done,books,-⟩ := takePendingCommands_books edge books
      unfold perform
      dsimp only
      rw [done]
      exact ⟨books,rfl⟩
    | close => exact ⟨books,fun isOpen => by cases isOpen⟩
  | true =>
    cases call with
    | accept input =>
      cases input with
      | record record =>
        have ends := acceptRecord_books sized edge record books whole
        unfold perform
        dsimp only
        rw [if_pos rfl,accept]
        revert ends
        cases acceptRecord ops settings record edge with
        | ok _ after => exact fun ends => ⟨ends,fun raised => by cases raised⟩
        | error text after => exact fun ends => ⟨ends.1,fun _ => ends.2⟩
      | barrier barrier => exact drained_books edge (.barrier barrier) rfl _ rfl books (whole rfl)
      | control control => exact drained_books edge (.control control) rfl _ rfl books (whole rfl)
    | flush force idle =>
      obtain ⟨after,done,books,-⟩ := drainBatcher_books (fun target => force || idle target) edge books (whole rfl)
      unfold perform
      dsimp only
      rw [if_pos rfl,flush,done]
      exact ⟨books,fun _ => rfl⟩
    | takePendingCommands =>
      obtain ⟨after,done,books,-⟩ := takePendingCommands_books edge books
      unfold perform
      dsimp only
      rw [done]
      exact ⟨books,rfl⟩
    | close =>
      obtain ⟨middle,taken,books,same⟩ := takePendingCommands_books edge books
      obtain ⟨drained,after,ran',books,last⟩ := drainReleased_books (List.range settings.router.targetCount) middle books
      have final : finalCommands ops settings edge = .ok (edge.pending ++ drained) after :=
        (bind_of_ok _ _ _ _ _ taken).trans ((bind_of_ok _ _ _ _ _ ran').trans rfl)
      have sends := Ensures.forM (edge.pending ++ drained)
        (fun command _ => @sendSync_books _ _ _ ops settings command edge.outcomes)
      have ends := sends after ⟨books,by rw [last,same]; exact fun _ inside => inside⟩
      unfold perform
      dsimp only
      rw [if_pos rfl,final]
      dsimp only
      revert ends
      cases (forM (edge.pending ++ drained) sendSync : EStateM String (EdgeOutput π β γ) PUnit) after with
      | ok _ closed => exact fun ends => ⟨ends.1,fun _ text raised => by cases raised⟩
      | error text closed =>
        intro ends
        refine ⟨ends.1,fun _ other raised => ?_⟩
        cases raised
        exact ends.2

end calls
section outcomes
variable {ops settings}

theorem performAll_books (sized : ∀ record, 0 < ops.retainedSize record) (calls later : List (EdgeCall β γ))
    (state : OpenEdge π β γ) (books : Books ops settings state.edge [])
    (whole : WholeRun ops settings state (calls ++ later)) :
    Books ops settings (performAll ops settings calls state).edge [] ∧
      WholeRun ops settings (performAll ops settings calls state) later := by
  induction calls generalizing state with
  | nil => exact ⟨books,whole⟩
  | cons call rest ih => exact ih _ (perform_books sized state call books whole.1).1 whole.2

end outcomes

section fanout

def unitBlocks : RouteOps Unit where
  retainedSize := fun _ => 56
  sliceRows := fun block _ _ => block
  rowBlock := fun block _ _ => block
  merge := fun _ => .error "an edge merges nothing"
  numRows := fun _ => 1
  validateRecord := fun _ => none
  validateColumns := fun _ => none
  selectRows := fun block _ => block

def broadcast (targetCount bufferLimit : Nat) : EdgeSettings Unit Unit where
  taskName := "task"
  router := {
    partitioner := {
      name := "broadcast"
      partition := fun cursor _ => .ok ((List.range targetCount).map Int.ofNat,cursor)
      partitionColumnar := fun cursor _ _ => .ok ((List.range targetCount).map (fun (target : Nat) => ((target : Int),none)),cursor)
      retryTargets := fun target => .ok [target]}
    targetCount := targetCount
    controlTargetIndices := List.range targetCount}
  bufferLimit := bufferLimit
  bufferByteLimit := 1000
  batchSize := 1
  batchMaxRows := none
  batchMaxBytes := none
  deliveryMode := .pipelined

def unitRecord : Record Unit := ⟨(),none,none,none,none,none⟩

def sendUnit : EdgeCall Unit Unit := .accept (.record unitRecord)

theorem two_rows_fit : Whole unitBlocks (broadcast 2 2) (opened () []) sendUnit := by
  intro _
  have routed : (broadcast 2 2).router.route unitBlocks () unitRecord =
      .ok (⟨[(0,[0],unitRecord),(1,[1],unitRecord)],none⟩,()) := by rfl
  unfold sendUnit
  dsimp only
  change match (broadcast 2 2).router.route unitBlocks () unitRecord with
    | .error _ => True
    | .ok (routes,_) => _
  rw [routed]
  intro first rest items fits
  have all : FitsAll unitBlocks (broadcast 2 2) 0 0 [(0,[0],unitRecord),(1,[1],unitRecord)] :=
    ⟨fun some => absurd some (by decide),fun _ => by decide,trivial⟩
  exact ⟨all,rfl,fun inline => by cases inline⟩

end fanout
end EdgeOutput
end Klein.Dataflow
