import Klein.InputBatchAccumulator
import Klein.Runs

/-! Rows through `InputBatchAccumulator`: whatever a record is read as, row by row, comes
out in the order in which it went in, when slicing splits what is read and no batch that
is put together changes it. -/
namespace Klein.InputBatchAccumulator
open Fallible List Runs

variable {β ρ κ : Type}

structure Reading (ops : BlockOps β) (ρ : Type) where
  rowsOf : Record β → List ρ
  Fine : Record β → Prop
  Keeps : List (Record β) → Prop
  length : ∀ record, Fine record → (rowsOf record).length = record.rows
  stamped : ∀ record, Fine record → validateRowTimestamps record = .ok ()
  single : ∀ record, Fine record → record.isColumnar = false → record.rows = 1
  split : ∀ record count, Fine record → record.isColumnar = true → 0 < count → count < record.rows →
    Fine (firstRows ops record count) ∧ Fine (remainingRows ops record count) ∧
    rowsOf (firstRows ops record count) = (rowsOf record).take count ∧
    rowsOf (remainingRows ops record count) = (rowsOf record).drop count
  merge : ∀ group tag, group ≠ [] → (∀ record ∈ group, Fine record ∧ record.inputTag = tag) → Keeps group →
    ∃ merged, ops.merge group = .ok merged ∧ rowsOf merged = group.flatMap rowsOf
  unbatch : ∀ record, Fine record → ∃ rows, unbatched ops record = .ok rows ∧ rows.flatMap rowsOf = rowsOf record ∧
    ∀ row ∈ rows, (rowsOf row).length ≤ 1

variable (ops : BlockOps β)

def DrainKeeps (keeps : List (Record β) → Prop) (onlyFull : Bool) : Nat → InputBatchAccumulator β → Prop
  | 0,_ => True
  | rounds + 1,acc =>
    acc.bufferedRows = 0 ∨ onlyFull = true ∧ acc.bufferedRows < acc.batchSize ∨
      match takeRows ops acc.records acc.bufferedRows acc.bufferedBytes (min acc.batchSize acc.compatiblePrefixRows) with
      | .error _ => True
      | .ok (taken,records,rows,bytes) => keeps taken ∧ DrainKeeps keeps onlyFull rounds {acc with
          records := records
          bufferedRows := rows
          bufferedBytes := bytes}

section drains
variable {ops} (reading : Reading ops ρ) (acc : InputBatchAccumulator β)

def queued (records : List (Record β × Nat)) : List ρ := records.flatMap (fun entry => reading.rowsOf entry.1)

theorem takeRows_rows (tag : Option Int) (records : List (Record β × Nat)) (rows bytes remaining : Nat)
    (fine : ∀ entry ∈ records, reading.Fine entry.1)
    (within : remaining ≤ ((records.takeWhile (fun entry => entry.1.inputTag = tag)).map (fun entry => entry.1.rows)).sum) :
    ∃ taken left rows' bytes', takeRows ops records rows bytes remaining = .ok (taken,left,rows',bytes') ∧
      taken.flatMap reading.rowsOf ++ queued reading left = queued reading records ∧
      (taken.flatMap reading.rowsOf).length = remaining ∧
      (∀ record ∈ taken, reading.Fine record ∧ record.inputTag = tag) ∧ ∀ entry ∈ left, reading.Fine entry.1 := by
  induction records generalizing rows bytes remaining with
  | nil =>
    obtain rfl : remaining = 0 := Nat.le_zero.mp within
    exact ⟨[],[],rows,bytes,rfl,rfl,rfl,by simp,by simp⟩
  | cons entry rest ih =>
    obtain ⟨record,size⟩ := entry
    obtain ⟨here,later⟩ := forall_mem_cons.mp fine
    cases remaining with
    | zero => exact ⟨[],_,rows,bytes,rfl,rfl,rfl,by simp,fine⟩
    | succ remaining =>
      have side : record.inputTag = tag := by
        by_contra other
        rw [takeWhile_cons_of_neg (by simpa using other)] at within
        exact absurd within (by simp)
      rw [takeWhile_cons_of_pos (by simpa using side),map_cons,sum_cons] at within
      have length := reading.length record here
      dsimp only at within here
      rw [takeRows]
      by_cases whole : record.rows ≤ remaining + 1
      · obtain ⟨taken,left,rows',bytes',done,stream,counted,alike,fine'⟩ :=
          ih (rows - record.rows) (bytes - size) (remaining + 1 - record.rows) later (by omega)
        rw [if_pos whole,ok_bind done]
        refine ⟨record::taken,left,rows',bytes',rfl,?_,?_,forall_mem_cons.mpr ⟨⟨here,side⟩,alike⟩,fine'⟩
        · rw [flatMap_cons,append_assoc,stream]
          rfl
        · rw [flatMap_cons,length_append,length,counted]
          omega
      · have columnar : record.isColumnar = true := by
          by_contra shaped
          have single := reading.single record here (by simpa using shaped)
          omega
        obtain ⟨first,second,head,tail⟩ := reading.split record (remaining + 1) here columnar (Nat.succ_pos _) (by omega)
        rw [if_neg whole,if_neg (by simp [columnar]),ok_bind (reading.stamped record here)]
        refine ⟨_,_,_,_,rfl,?_,?_,?_,forall_mem_cons.mpr ⟨second,later⟩⟩
        · unfold queued
          rw [flatMap_cons,flatMap_cons,flatMap_cons,flatMap_nil,append_nil,head,tail,
            ← append_assoc,take_append_drop]
        · rw [flatMap_cons,flatMap_nil,append_nil,head,length_take,length]
          omega
        · intro other inside
          rw [mem_singleton.mp inside]
          exact ⟨first,side⟩

theorem drainLoop_rows (onlyFull : Bool) (rounds : Nat) (counted : acc.Counted) (fine : ∀ entry ∈ acc.records, reading.Fine entry.1)
    (keeps : DrainKeeps ops reading.Keeps onlyFull rounds acc) :
    ∃ emitted next, drainLoop ops onlyFull rounds acc = .ok (emitted,next) ∧
      emitted.flatMap reading.rowsOf ++ queued reading next.records = queued reading acc.records ∧
      (∀ batch ∈ emitted, (reading.rowsOf batch).length ≤ acc.batchSize) ∧ ∀ entry ∈ next.records, reading.Fine entry.1 := by
  induction rounds generalizing acc with
  | zero => exact ⟨[],acc,rfl,rfl,by simp,fine⟩
  | succ rounds ih =>
    rw [drainLoop]
    by_cases stop : acc.bufferedRows = 0 ∨ onlyFull = true ∧ acc.bufferedRows < acc.batchSize
    · rw [if_pos stop]
      exact ⟨[],acc,rfl,rfl,by simp,fine⟩
    · rw [if_neg stop]
      have some' : acc.bufferedRows ≠ 0 := fun none => stop (.inl none)
      have positive := acc.compatiblePrefixRows_positive counted some'
      have batch := acc.batchSize_positive
      have bound : min acc.batchSize acc.compatiblePrefixRows ≤ ((acc.records.takeWhile (fun entry =>
          entry.1.inputTag = (acc.records.head?.bind (fun entry => entry.1.inputTag)))).map (fun entry => entry.1.rows)).sum := by
        apply Nat.le_trans (Nat.min_le_right _ _)
        unfold compatiblePrefixRows
        cases acc.records with
        | nil => exact Nat.zero_le _
        | cons entry rest => exact Nat.le_refl _
      obtain ⟨taken,left,rows,bytes,done,stream,length,alike,fine'⟩ :=
        takeRows_rows reading _ acc.records acc.bufferedRows acc.bufferedBytes _ fine bound
      obtain ⟨counts,sizes,positive',total⟩ :=
        takeRows_spec ops _ _ _ _ counted.rows counted.bytes counted.positive _ done
      have keeps' := (keeps.resolve_left some').resolve_left (fun full => stop (.inr full))
      rw [done] at keeps'
      obtain ⟨kept,later⟩ := keeps'
      have nonempty : taken ≠ [] := by
        intro empty
        rw [empty] at length
        have zero : 0 = min acc.batchSize acc.compatiblePrefixRows := length
        omega
      obtain ⟨merged,merges,same⟩ := reading.merge taken _ nonempty alike kept
      obtain ⟨emitted,next,rest,stream',short,fine''⟩ := ih {acc with
        records := left
        bufferedRows := rows
        bufferedBytes := bytes} ⟨counts,sizes,positive'⟩ fine' later
      rw [ok_bind done]
      dsimp only
      rw [ok_bind merges,ok_bind rest]
      refine ⟨merged::emitted,next,rfl,?_,forall_mem_cons.mpr ⟨?_,short⟩,fine''⟩
      · rw [flatMap_cons,same,append_assoc,stream']
        exact stream
      · rw [same,length]
        exact Nat.min_le_left _ _

theorem drain_rows (onlyFull : Bool) (later : Int) (counted : acc.Counted) (fine : ∀ entry ∈ acc.records, reading.Fine entry.1)
    (keeps : DrainKeeps ops reading.Keeps onlyFull acc.bufferedRows acc) :
    ∃ emitted next, acc.drain ops onlyFull later = .ok (emitted,next) ∧
      emitted.flatMap reading.rowsOf ++ queued reading next.records = queued reading acc.records ∧
      (∀ batch ∈ emitted, (reading.rowsOf batch).length ≤ acc.batchSize) ∧ ∀ entry ∈ next.records, reading.Fine entry.1 := by
  obtain ⟨emitted,next,done,stream,short,fine'⟩ := drainLoop_rows reading acc onlyFull _ counted fine keeps
  refine ⟨emitted,_,ok_bind done,stream,short,fine'⟩

end drains

inductive Passed (α κ : Type) where
  | data (value : α)
  | control (mark : κ)
  deriving DecidableEq

inductive Call (β κ : Type) where
  | data (record : Record β) (now later : Int)
  | control (mark : κ) (now later : Int)
  | flush (force : Bool) (now later : Int)

/-- `accept` returns the control that it was given. -/
def passed (mark : Option κ) : TaskInput β → List (Passed (Record β) κ)
  | .data record => [.data record]
  | .control => mark.toList.map .control

def call (acc : InputBatchAccumulator β) : Call β κ → Except String (List (Passed (Record β) κ) × InputBatchAccumulator β)
  | .data record now later =>
    (acc.accept ops (.data record) now later).map (fun result => (result.1.flatMap (passed none),result.2))
  | .control mark now later =>
    (acc.accept ops .control now later).map (fun result => (result.1.flatMap (passed (some mark)),result.2))
  | .flush force now later => (acc.flush ops force now later).map (fun result => (result.1.map .data,result.2))

section conditions
variable (acc : InputBatchAccumulator β)

def emptied : InputBatchAccumulator β :=
  {acc with
    records := []
    bufferedRows := 0
    bufferedBytes := 0
    batchStartedAt := none}

def boundary (record : Record β) : Bool :=
  acc.records.getLast?.any (fun last => record.inputTag ≠ last.1.inputTag) ||
    !acc.records.isEmpty && acc.maxBytes.any (fun limit => limit < acc.bufferedBytes + ops.retainedSize record)

def admitted (record : Record β) (now : Int) : InputBatchAccumulator β :=
  (if acc.boundary ops record then acc.emptied else acc).append record (ops.retainedSize record) now

def DataKeeps (keeps : List (Record β) → Prop) (record : Record β) (now : Int) : Prop :=
  (acc.boundary ops record = true → DrainKeeps ops keeps false acc.bufferedRows acc) ∧
    let next := acc.admitted ops record now
    if next.maxBytes.any (fun limit => limit ≤ next.bufferedBytes) then DrainKeeps ops keeps false next.bufferedRows next
    else if next.batchSize ≤ next.bufferedRows then DrainKeeps ops keeps true next.bufferedRows next
    else next.timedOut now = true → DrainKeeps ops keeps false next.bufferedRows next

def SoundCall (reading : Reading ops ρ) : Call β κ → Prop
  | .data record now _ =>
    reading.Fine record ∧ (acc.batchEnabled = true → record.rows ≠ 0 → acc.DataKeeps ops reading.Keeps record now)
  | .control .. => acc.batchEnabled = true → DrainKeeps ops reading.Keeps false acc.bufferedRows acc
  | .flush force _ _ => acc.batchEnabled = true → force = true → DrainKeeps ops reading.Keeps false acc.bufferedRows acc

end conditions

section calls
variable {ops} (reading : Reading ops ρ) (acc : InputBatchAccumulator β)

structure Ready : Prop where
  steady : acc.Steady
  fine : ∀ entry ∈ acc.records, reading.Fine entry.1

theorem eq_emptied (next : InputBatchAccumulator β) (alike : acc.Alike next) (records : next.records = [])
    (rows : next.bufferedRows = 0) (bytes : next.bufferedBytes = 0) (started : next.batchStartedAt = none) :
    next = acc.emptied := by
  obtain ⟨runtimeInfo,maxBytes⟩ := alike
  cases next
  dsimp only at runtimeInfo maxBytes records rows bytes started
  subst runtimeInfo maxBytes records rows bytes started
  rfl

theorem drain_all (later : Int) (counted : acc.Counted) (fine : ∀ entry ∈ acc.records, reading.Fine entry.1)
    (keeps : DrainKeeps ops reading.Keeps false acc.bufferedRows acc) :
    ∃ emitted, acc.drain ops false later = .ok (emitted,acc.emptied) ∧
      emitted.flatMap reading.rowsOf = queued reading acc.records ∧
      ∀ batch ∈ emitted, (reading.rowsOf batch).length ≤ acc.batchSize := by
  obtain ⟨emitted,next,done,stream,short,-⟩ := drain_rows reading acc false later counted fine keeps
  obtain ⟨counted',alike,left⟩ := acc.drain_spec ops false later counted _ done
  have none' : next.bufferedRows = 0 := left.elim id (fun full => by cases full.1)
  obtain ⟨nothing,bytes⟩ := Counted.empty next counted' none'
  have started : next.batchStartedAt = none := by
    obtain ⟨⟨_,looped⟩,-,same⟩ := bind_ok done
    cases same
    exact if_pos none'
  rw [nothing] at stream
  rw [eq_emptied acc next alike nothing none' bytes started] at done
  exact ⟨emitted,done,by simpa [queued] using stream,short⟩

theorem Ready.emptied : Ready reading acc.emptied := by
  refine ⟨⟨⟨rfl,rfl,by simp [InputBatchAccumulator.emptied]⟩,?_⟩,by simp [InputBatchAccumulator.emptied]⟩
  exact batchSize_positive acc.emptied

theorem boundary_rows (record : Record β) (later : Int) (ready : Ready reading acc)
    (keeps : acc.boundary ops record = true → DrainKeeps ops reading.Keeps false acc.bufferedRows acc) :
    ∃ first second middle, acc.drainOtherSide ops record later = .ok (first,middle) ∧
      middle.drainOverBudget ops (ops.retainedSize record) later =
        .ok (second,if acc.boundary ops record then acc.emptied else acc) ∧
      (first ++ second).flatMap reading.rowsOf ++
        queued reading (if acc.boundary ops record then acc.emptied else acc).records = queued reading acc.records ∧
      ∀ batch ∈ first ++ second, (reading.rowsOf batch).length ≤ acc.batchSize := by
  have all (cut : acc.boundary ops record = true) := drain_all reading acc later ready.steady.counted ready.fine (keeps cut)
  by_cases side : acc.records.getLast?.any (fun last => record.inputTag ≠ last.1.inputTag) = true
  · have cut : acc.boundary ops record = true := by
      unfold boundary
      rw [side]
      rfl
    obtain ⟨emitted,done,stream,short⟩ := all cut
    rw [if_pos cut]
    refine ⟨emitted,[],acc.emptied,?_,if_neg (fun held => held.1 rfl),by simpa [InputBatchAccumulator.emptied,queued] using stream,
      by simpa using short⟩
    unfold drainOtherSide
    cases held : acc.records.getLast? with
    | none =>
      rw [held] at side
      cases side
    | some last =>
      rw [held] at side
      have differs : record.inputTag ≠ last.1.inputTag := by simpa using side
      exact (if_pos differs).trans done
  · have stays : acc.drainOtherSide ops record later = .ok ([],acc) := by
      unfold drainOtherSide
      cases held : acc.records.getLast? with
      | none => rfl
      | some last =>
        rw [held] at side
        exact if_neg (by simpa using side)
    have cut : acc.boundary ops record = true ↔
        acc.records ≠ [] ∧ acc.maxBytes.any (fun limit => limit < acc.bufferedBytes + ops.retainedSize record) = true := by
      unfold boundary
      rw [Bool.eq_false_iff.mpr side,Bool.false_or,Bool.and_eq_true,Bool.not_eq_true',isEmpty_eq_false_iff]
    by_cases budget : acc.records ≠ [] ∧ acc.maxBytes.any (fun limit => limit < acc.bufferedBytes + ops.retainedSize record) = true
    · obtain ⟨emitted,done,stream,short⟩ := all (cut.mpr budget)
      rw [if_pos (cut.mpr budget)]
      exact ⟨[],emitted,acc,stays,(if_pos budget).trans done,by simpa [InputBatchAccumulator.emptied,queued] using stream,
        by simpa using short⟩
    · rw [if_neg (fun cut' => budget (cut.mp cut'))]
      exact ⟨[],[],acc,stays,if_neg budget,rfl,by simp⟩

theorem Ready.admitted (record : Record β) (now : Int) (ready : Ready reading acc) (fine : reading.Fine record)
    (some' : record.rows ≠ 0) : (acc.admitted ops record now).Counted ∧
      (∀ entry ∈ (acc.admitted ops record now).records, reading.Fine entry.1) ∧
      queued reading (acc.admitted ops record now).records =
        queued reading (if acc.boundary ops record then acc.emptied else acc).records ++ reading.rowsOf record := by
  have before : Ready reading (if acc.boundary ops record then acc.emptied else acc) := by
    split
    · exact Ready.emptied reading acc
    · exact ready
  refine ⟨append_counted _ record _ now before.steady.counted some',fun entry inside => ?_,?_⟩
  · obtain inside | inside := mem_append.mp inside
    · exact before.fine entry inside
    · rw [mem_singleton.mp inside]
      exact fine
  · unfold InputBatchAccumulator.admitted append queued
    rw [flatMap_append,flatMap_cons,flatMap_nil,append_nil]

theorem admitted_batchSize (record : Record β) (now : Int) : (acc.admitted ops record now).batchSize = acc.batchSize := by
  unfold InputBatchAccumulator.admitted
  split
  · rfl
  · rfl

theorem drainReady_rows (now later : Int) (counted : acc.Counted) (fine : ∀ entry ∈ acc.records, reading.Fine entry.1)
    (keeps : if acc.maxBytes.any (fun limit => limit ≤ acc.bufferedBytes) then DrainKeeps ops reading.Keeps false acc.bufferedRows acc
      else if acc.batchSize ≤ acc.bufferedRows then DrainKeeps ops reading.Keeps true acc.bufferedRows acc
      else acc.timedOut now = true → DrainKeeps ops reading.Keeps false acc.bufferedRows acc) :
    ∃ emitted next, acc.drainReady ops now later = .ok (emitted,next) ∧
      emitted.flatMap reading.rowsOf ++ queued reading next.records = queued reading acc.records ∧
      (∀ batch ∈ emitted, (reading.rowsOf batch).length ≤ acc.batchSize) ∧ ∀ entry ∈ next.records, reading.Fine entry.1 := by
  unfold drainReady
  by_cases budget : acc.maxBytes.any (fun limit => limit ≤ acc.bufferedBytes) = true
  · rw [if_pos budget] at keeps ⊢
    exact drain_rows reading acc false later counted fine keeps
  · rw [if_neg budget] at keeps ⊢
    by_cases full : acc.batchSize ≤ acc.bufferedRows
    · rw [if_pos full] at keeps ⊢
      exact drain_rows reading acc true later counted fine keeps
    · rw [if_neg full] at keeps ⊢
      by_cases late : acc.timedOut now = true
      · rw [if_pos late]
        unfold flush
        by_cases nothing : ¬ acc.batchEnabled = true ∨ acc.bufferedRows = 0
        · rw [if_pos nothing]
          exact ⟨[],acc,rfl,rfl,by simp,fine⟩
        · rw [if_neg nothing,if_neg (by simp)]
          exact drain_rows reading acc false later counted fine (keeps late)
      · rw [if_neg late]
        exact ⟨[],acc,rfl,rfl,by simp,fine⟩

theorem flush_forced_rows (now later : Int) (ready : Ready reading acc) (enabled : acc.batchEnabled = true)
    (keeps : DrainKeeps ops reading.Keeps false acc.bufferedRows acc) :
    ∃ emitted next, acc.flush ops true now later = .ok (emitted,next) ∧ next.records = [] ∧
      emitted.flatMap reading.rowsOf = queued reading acc.records ∧
      ∀ batch ∈ emitted, (reading.rowsOf batch).length ≤ acc.batchSize := by
  unfold flush
  by_cases nothing : acc.bufferedRows = 0
  · obtain ⟨empty,-⟩ := Counted.empty acc ready.steady.counted nothing
    rw [if_pos (.inr nothing)]
    exact ⟨[],acc,rfl,empty,by rw [empty]; rfl,by simp⟩
  · rw [if_neg (by simp [enabled,nothing]),if_neg (by simp)]
    obtain ⟨emitted,done,stream,short⟩ := drain_all reading acc later ready.steady.counted ready.fine keeps
    exact ⟨emitted,acc.emptied,done,rfl,stream,short⟩

def stream (outputs : List (Passed (Record β) κ)) : List (Passed ρ κ) :=
  outputs.flatMap (fun output => match output with
    | .data record => (reading.rowsOf record).map .data
    | .control mark => [.control mark])

def arrivals : Call β κ → List (Passed ρ κ)
  | .data record _ _ => (reading.rowsOf record).map .data
  | .control mark _ _ => [.control mark]
  | .flush .. => []

structure Held : Prop extends Ready reading acc where
  unbatched : acc.batchEnabled = false → acc.records = []

theorem passed_data (mark : Option κ) (batches : List (Record β)) :
    (batches.map TaskInput.data).flatMap (passed mark) = batches.map Passed.data := by
  induction batches with
  | nil => rfl
  | cons batch rest ih =>
    rw [map_cons,flatMap_cons,ih]
    rfl

theorem stream_append (outputs others : List (Passed (Record β) κ)) :
    stream reading (outputs ++ others) = stream reading outputs ++ stream reading others := flatMap_append

theorem stream_data (batches : List (Record β)) :
    stream reading (batches.map Passed.data : List (Passed _ κ)) = (batches.flatMap reading.rowsOf).map Passed.data := by
  induction batches with
  | nil => rfl
  | cons batch rest ih =>
    rw [map_cons,flatMap_cons,map_append,← ih]
    rfl

theorem data_rows (record : Record β) (now later : Int) (held : Held reading acc)
    (sound : acc.SoundCall (κ := κ) ops reading (.data record now later)) :
    ∃ (batches : List (Record β)) (next : InputBatchAccumulator β), acc.accept ops (.data record) now later = .ok (batches.map .data,next) ∧
      batches.flatMap reading.rowsOf ++ queued reading next.records = queued reading acc.records ++ reading.rowsOf record ∧
      (∀ batch ∈ batches, (reading.rowsOf batch).length ≤ acc.batchSize) ∧
      (∀ entry ∈ next.records, reading.Fine entry.1) ∧ (acc.batchEnabled = false → next.records = []) := by
  obtain ⟨fine,keeps⟩ := sound
  rw [accept]
  cases enabled : acc.batchEnabled with
  | false =>
    obtain ⟨rows,done,same,short⟩ := reading.unbatch record fine
    rw [if_pos (by decide),done]
    have nothing := held.unbatched enabled
    refine ⟨rows,acc,rfl,?_,fun row inside => Nat.le_trans (short row inside) acc.batchSize_positive,held.fine,fun _ => nothing⟩
    rw [nothing,same]
    exact append_nil _
  | true =>
    rw [if_neg (by decide)]
    by_cases some' : record.rows = 0
    · rw [if_pos some']
      have empty : reading.rowsOf record = [] := length_eq_zero_iff.mp (by rw [reading.length record fine,some'])
      exact ⟨[],acc,rfl,by rw [empty]; simp,by simp,held.fine,by simp⟩
    · rw [if_neg some']
      obtain ⟨before,after⟩ := keeps enabled some'
      obtain ⟨first,second,middle,side,budget,stream,short⟩ := boundary_rows reading acc record later held.toReady before
      obtain ⟨counted,fine',rows⟩ := held.toReady.admitted reading acc record now fine some'
      obtain ⟨third,next,ready,stream',short',fine''⟩ :=
        drainReady_rows reading (acc.admitted ops record now) now later counted fine' after
      refine ⟨first ++ second ++ third,next,?_,?_,fun batch inside => ?_,fine'',by simp⟩
      · rw [ok_bind side]
        dsimp only
        rw [ok_bind budget]
        exact ok_bind ready
      · rw [flatMap_append,append_assoc,stream',rows,← append_assoc,stream]
      · obtain inside | inside := mem_append.mp inside
        · exact short batch inside
        · rw [← @admitted_batchSize _ ops acc record now]
          exact short' batch inside

theorem call_rows (input : Call β κ) (held : Held reading acc) (sound : acc.SoundCall ops reading input) :
    ∃ outputs next, acc.call ops input = .ok (outputs,next) ∧
      stream reading outputs ++ (queued reading next.records).map .data =
        (queued reading acc.records).map .data ++ arrivals reading input ∧
      (∀ batch, .data batch ∈ outputs → (reading.rowsOf batch).length ≤ acc.batchSize) ∧
      Held reading next ∧ acc.Alike next := by
  have listed (batches : List (Record β)) (bound : ∀ batch ∈ batches, (reading.rowsOf batch).length ≤ acc.batchSize)
      (marks : List κ) (batch : Record β) (inside : Passed.data batch ∈ batches.map Passed.data ++ marks.map Passed.control) :
      (reading.rowsOf batch).length ≤ acc.batchSize := by
    have member : batch ∈ batches := by simpa using inside
    exact bound batch member
  cases input with
  | data record now later =>
    obtain ⟨batches,next,done,rows,short,fine,empty⟩ := data_rows (κ := κ) reading acc record now later held sound
    obtain ⟨steady,alike⟩ := acc.accept_steady ops _ now later held.steady _ done
    refine ⟨batches.map .data,next,?_,?_,?_,⟨⟨steady,fine⟩,fun disabled => empty ?_⟩,alike⟩
    · unfold call
      dsimp only
      rw [done]
      exact congrArg (fun outputs => Except.ok (outputs,next)) (passed_data none batches)
    · rw [stream_data,← map_append,rows,map_append]
      rfl
    · intro batch inside
      exact listed batches short [] batch (by simpa using inside)
    · unfold batchEnabled at disabled ⊢
      rw [← alike.runtimeInfo]
      exact disabled
  | control mark now later =>
    cases enabled : acc.batchEnabled with
    | false =>
      have done : acc.accept ops .control now later = .ok ([.control],acc) := if_pos (by simp [enabled])
      refine ⟨[.control mark],acc,?_,?_,by simp,held,⟨rfl,rfl⟩⟩
      · unfold call
        dsimp only
        rw [done]
        rfl
      · rw [held.unbatched enabled]
        rfl
    | true =>
      obtain ⟨emitted,next,flushed,nothing,rows,short⟩ :=
        flush_forced_rows reading acc now later held.toReady enabled (sound enabled)
      obtain ⟨steady,alike⟩ := acc.flush_steady ops true now later held.steady _ flushed
      have done : acc.accept ops .control now later = .ok (emitted.map .data ++ [.control],next) :=
        (if_neg (by simp [enabled])).trans (ok_bind flushed)
      refine ⟨emitted.map .data ++ [.control mark],next,?_,?_,fun batch inside => listed emitted short [mark] batch inside,
        ⟨⟨steady,by simp [nothing]⟩,fun _ => nothing⟩,alike⟩
      · unfold call
        dsimp only
        rw [done]
        change Except.ok (List.flatMap _ (_ ++ _),next) = _
        rw [flatMap_append,passed_data]
        rfl
      · rw [stream_append,stream_data,rows,nothing]
        exact append_nil _
  | flush force now later =>
    cases enabled : acc.batchEnabled with
    | false =>
      have done : acc.flush ops force now later = .ok ([],acc) := if_pos (.inl (by simp [enabled]))
      refine ⟨[],acc,?_,?_,by simp,held,⟨rfl,rfl⟩⟩
      · unfold call
        dsimp only
        rw [done]
        rfl
      · exact (append_nil _).symm
    | true =>
      cases force with
      | true =>
        obtain ⟨emitted,next,flushed,nothing,rows,short⟩ :=
          flush_forced_rows reading acc now later held.toReady enabled (sound enabled rfl)
        obtain ⟨steady,alike⟩ := acc.flush_steady ops true now later held.steady _ flushed
        refine ⟨emitted.map .data,next,?_,?_,fun batch inside => listed emitted short [] batch (by simpa using inside),
          ⟨⟨steady,by simp [nothing]⟩,fun _ => nothing⟩,alike⟩
        · unfold call
          dsimp only
          rw [flushed]
          rfl
        · rw [stream_data,rows,nothing]
          rfl
      | false =>
        obtain ⟨next,flushed,records,-,-,alike⟩ := acc.flush_unforced ops now later held.steady
        obtain ⟨steady,-⟩ := acc.flush_steady ops false now later held.steady _ flushed
        refine ⟨[],next,?_,?_,by simp,⟨⟨steady,by rw [records]; exact held.fine⟩,fun disabled => ?_⟩,alike⟩
        · unfold call
          dsimp only
          rw [flushed]
          rfl
        · rw [records]
          exact (append_nil _).symm
        · rw [records]
          apply held.unbatched
          unfold batchEnabled at disabled ⊢
          rw [← alike.runtimeInfo]
          exact disabled

end calls

section sizes

def Sized (acc : InputBatchAccumulator β) : Prop := ∀ entry ∈ acc.records, entry.2 = ops.retainedSize entry.1

variable {ops} (acc : InputBatchAccumulator β)

theorem takeRows_sized (records : List (Record β × Nat)) (rows bytes remaining : Nat)
    (sized : ∀ entry ∈ records, entry.2 = ops.retainedSize entry.1) (result : List (Record β) × List (Record β × Nat) × Nat × Nat)
    (taken : takeRows ops records rows bytes remaining = .ok result) :
    ∀ entry ∈ result.2.1, entry.2 = ops.retainedSize entry.1 := by
  induction records generalizing rows bytes remaining result with
  | nil =>
    cases remaining with
    | zero =>
      cases taken
      exact sized
    | succ remaining => cases taken
  | cons entry rest ih =>
    obtain ⟨record,size⟩ := entry
    obtain ⟨here,later⟩ := forall_mem_cons.mp sized
    cases remaining with
    | zero =>
      cases taken
      exact sized
    | succ remaining =>
      rw [takeRows] at taken
      split at taken
      · obtain ⟨⟨batch,left,rows',bytes'⟩,done,same⟩ := bind_ok taken
        cases same
        exact ih _ _ _ later (batch,left,rows',bytes') done
      · split at taken
        · contradiction
        · obtain ⟨_,-,same⟩ := bind_ok taken
          cases same
          exact forall_mem_cons.mpr ⟨rfl,later⟩

theorem drainLoop_sized (onlyFull : Bool) (rounds : Nat) (sized : acc.Sized ops)
    (result : List (Record β) × InputBatchAccumulator β) (done : drainLoop ops onlyFull rounds acc = .ok result) :
    result.2.Sized ops := by
  induction rounds generalizing acc result with
  | zero =>
    cases done
    exact sized
  | succ rounds ih =>
    rw [drainLoop] at done
    split at done
    · cases done
      exact sized
    · obtain ⟨⟨taken,left,rows,bytes⟩,took,done⟩ := bind_ok done
      obtain ⟨batch,-,done⟩ := bind_ok done
      obtain ⟨⟨emitted,next⟩,looped,same⟩ := bind_ok done
      cases same
      have sized' := takeRows_sized _ _ _ _ sized _ took
      exact ih {acc with
        records := left
        bufferedRows := rows
        bufferedBytes := bytes} sized' (emitted,next) looped

theorem drain_sized (onlyFull : Bool) (later : Int) (sized : acc.Sized ops) (result : List (Record β) × InputBatchAccumulator β)
    (done : acc.drain ops onlyFull later = .ok result) : result.2.Sized ops := by
  obtain ⟨⟨emitted,next⟩,looped,same⟩ := bind_ok done
  cases same
  exact drainLoop_sized acc onlyFull _ sized (emitted,next) looped

theorem flush_sized (force : Bool) (now later : Int) (sized : acc.Sized ops) (result : List (Record β) × InputBatchAccumulator β)
    (done : acc.flush ops force now later = .ok result) : result.2.Sized ops := by
  unfold flush at done
  split at done
  · cases done
    exact sized
  · split at done
    · cases done
      exact sized
    · exact drain_sized acc _ later sized _ done

theorem append_sized (record : Record β) (now : Int) (sized : acc.Sized ops) :
    (acc.append record (ops.retainedSize record) now).Sized ops :=
  forall_mem_append.mpr ⟨sized,by simp⟩

theorem drainReady_sized (now later : Int) (sized : acc.Sized ops) (result : List (Record β) × InputBatchAccumulator β)
    (done : acc.drainReady ops now later = .ok result) : result.2.Sized ops := by
  unfold drainReady at done
  split at done
  · exact drain_sized acc _ later sized _ done
  · split at done
    · exact drain_sized acc _ later sized _ done
    · split at done
      · exact flush_sized acc _ now later sized _ done
      · cases done
        exact sized

theorem accept_sized (input : TaskInput β) (now later : Int) (sized : acc.Sized ops)
    (result : List (TaskInput β) × InputBatchAccumulator β) (done : acc.accept ops input now later = .ok result) :
    result.2.Sized ops := by
  cases input with
  | control =>
    rw [accept] at done
    split at done
    · cases done
      exact sized
    · obtain ⟨⟨emitted,next⟩,flushed,same⟩ := bind_ok done
      cases same
      exact flush_sized acc true now later sized _ flushed
  | data record =>
    rw [accept] at done
    split at done
    · obtain ⟨rows,-,same⟩ := map_ok done
      cases same
      exact sized
    · split at done
      · cases done
        exact sized
      · obtain ⟨⟨first,one⟩,side,done⟩ := bind_ok done
        obtain ⟨⟨second,two⟩,budget,done⟩ := bind_ok done
        obtain ⟨⟨third,next⟩,ready,same⟩ := bind_ok done
        cases same
        have sized₁ : one.Sized ops := by
          unfold drainOtherSide at side
          split at side
          · split at side
            · exact drain_sized acc false later sized _ side
            · cases side
              exact sized
          · cases side
            exact sized
        have sized₂ : two.Sized ops := by
          unfold drainOverBudget at budget
          split at budget
          · exact drain_sized one false later sized₁ _ budget
          · cases budget
            exact sized₁
        exact drainReady_sized _ now later (append_sized two record now sized₂) _ ready

theorem call_sized (input : Call β κ) (sized : acc.Sized ops) (outputs : List (Passed (Record β) κ))
    (next : InputBatchAccumulator β) (done : acc.call ops input = .ok (outputs,next)) : next.Sized ops := by
  cases input with
  | data record now later =>
    obtain ⟨⟨emitted,next'⟩,accepted,same⟩ := map_ok done
    cases same
    exact accept_sized acc _ now later sized _ accepted
  | control mark now later =>
    obtain ⟨⟨emitted,next'⟩,accepted,same⟩ := map_ok done
    cases same
    exact accept_sized acc _ now later sized _ accepted
  | flush force now later =>
    obtain ⟨⟨emitted,next'⟩,flushed,same⟩ := map_ok done
    cases same
    exact flush_sized acc force now later sized _ flushed

end sizes

section runs
variable {ops} (reading : Reading ops ρ)

structure BatchRun (β ρ κ : Type) where
  accumulator : InputBatchAccumulator β
  passedOn : List (Passed (Record β) κ)
  arrived : List (Passed ρ κ)

namespace BatchRun

def step (run : BatchRun β ρ κ) (input : Call β κ) : BatchRun β ρ κ :=
  match run.accumulator.call ops input with
  | .error _ => run
  | .ok (outputs,next) => ⟨next,run.passedOn ++ outputs,run.arrived ++ arrivals reading input⟩

structure Kept (batchSize : Nat) (run : BatchRun β ρ κ) : Prop where
  held : Held reading run.accumulator
  sized : run.accumulator.Sized ops
  size : run.accumulator.batchSize = batchSize
  rows : stream reading run.passedOn ++ (queued reading run.accumulator.records).map .data = run.arrived
  short : ∀ batch, .data batch ∈ run.passedOn → (reading.rowsOf batch).length ≤ batchSize

theorem Kept.step (batchSize : Nat) (run : BatchRun β ρ κ) (input : Call β κ) (kept : Kept reading batchSize run)
    (sound : run.accumulator.SoundCall ops reading input) : Kept reading batchSize (run.step reading input) := by
  obtain ⟨outputs,next,done,rows,short,held,alike⟩ := call_rows reading run.accumulator input kept.held sound
  unfold BatchRun.step
  rw [done]
  have sized := call_sized run.accumulator input kept.sized outputs next done
  refine ⟨held,sized,?_,?_,?_⟩
  · rw [alike.batchSize]
    exact kept.size
  · dsimp only
    rw [stream_append,append_assoc,rows,← append_assoc,kept.rows]
  · intro batch inside
    obtain inside | inside := mem_append.mp inside
    · exact kept.short batch inside
    · rw [← kept.size]
      exact short batch inside

def Sound : BatchRun β ρ κ → List (Call β κ) → Prop
  | _,[] => True
  | run,input::rest => run.accumulator.SoundCall ops reading input ∧ Sound (run.step reading input) rest

theorem Kept.run (batchSize : Nat) (run : BatchRun β ρ κ) (calls : List (Call β κ)) (kept : Kept reading batchSize run)
    (sound : run.Sound reading calls) : Kept reading batchSize (calls.foldl (BatchRun.step reading) run) := by
  induction calls generalizing run with
  | nil => exact kept
  | cons input rest ih => exact ih _ (kept.step reading batchSize run input sound.1) sound.2

theorem sound_append (run : BatchRun β ρ κ) (before after : List (Call β κ)) :
    run.Sound reading (before ++ after) ↔
      run.Sound reading before ∧ (before.foldl (BatchRun.step reading) run).Sound reading after := by
  induction before generalizing run with
  | nil => exact (true_and _).symm.to_iff
  | cons input rest ih =>
    rw [cons_append,Sound,Sound,ih,and_assoc]
    rfl

theorem arrived_eq (batchSize : Nat) (run : BatchRun β ρ κ) (calls : List (Call β κ)) (kept : Kept reading batchSize run)
    (sound : run.Sound reading calls) :
    (calls.foldl (BatchRun.step reading) run).arrived = run.arrived ++ calls.flatMap (arrivals reading) := by
  induction calls generalizing run with
  | nil => exact (append_nil _).symm
  | cons input rest ih =>
    obtain ⟨outputs,next,done,-⟩ := call_rows reading run.accumulator input kept.held sound.1
    rw [foldl_cons,ih _ (kept.step reading batchSize run input sound.1) sound.2,flatMap_cons,← append_assoc]
    congr 1
    unfold BatchRun.step
    rw [done]

theorem flush_empties (batchSize : Nat) (run : BatchRun β ρ κ) (now later : Int) (kept : Kept reading batchSize run)
    (sound : run.accumulator.SoundCall (κ := κ) ops reading (.flush true now later)) :
    (run.step reading (.flush true now later)).accumulator.records = [] := by
  unfold BatchRun.step call
  dsimp only
  cases enabled : run.accumulator.batchEnabled with
  | false =>
    have done : run.accumulator.flush ops true now later = .ok ([],run.accumulator) := if_pos (.inl (by simp [enabled]))
    rw [done]
    exact kept.held.unbatched enabled
  | true =>
    obtain ⟨emitted,next,flushed,nothing,-⟩ :=
      flush_forced_rows reading run.accumulator now later kept.held.toReady enabled (sound enabled rfl)
    rw [flushed]
    exact nothing

def start (acc : InputBatchAccumulator β) : BatchRun β ρ κ := ⟨acc,[],[]⟩

theorem Kept.start (runtimeInfo : RuntimeInfo) (maxBytes : Option Nat) (acc : InputBatchAccumulator β)
    (created : InputBatchAccumulator.create runtimeInfo maxBytes = .ok acc) :
    Kept reading acc.batchSize (BatchRun.start acc : BatchRun β ρ κ) := by
  have empty : acc.records = [] := by
    unfold InputBatchAccumulator.create at created
    split at created
    · cases created
    · cases created
      rfl
  have steady := acc.create_steady runtimeInfo maxBytes created
  exact ⟨⟨⟨steady,by simp [BatchRun.start,empty]⟩,fun _ => empty⟩,by simp [Sized,BatchRun.start,empty],rfl,
    by simp [stream,queued,BatchRun.start,empty],by simp [BatchRun.start]⟩

theorem flushed_rows (acc : InputBatchAccumulator β) (calls : List (Call β κ)) (now later : Int)
    (kept : Kept reading acc.batchSize (BatchRun.start acc : BatchRun β ρ κ))
    (sound : (BatchRun.start acc).Sound reading (calls ++ [Call.flush true now later])) :
    stream reading ((calls ++ [Call.flush true now later]).foldl (BatchRun.step reading) (BatchRun.start acc)).passedOn =
      calls.flatMap (arrivals reading) := by
  obtain ⟨before,last⟩ := (sound_append reading _ _ _).mp sound
  have held := kept.run reading acc.batchSize _ calls before
  have whole := kept.run reading acc.batchSize _ _ sound
  have arrived := arrived_eq reading acc.batchSize _ _ kept sound
  have empty := flush_empties reading acc.batchSize _ now later held last.1
  have rows := whole.rows
  rw [arrived,foldl_append,foldl_cons,foldl_nil,empty,flatMap_append] at rows
  rw [foldl_append,foldl_cons,foldl_nil]
  simpa [queued,arrivals,BatchRun.start] using rows

end BatchRun
end runs
end Klein.InputBatchAccumulator
