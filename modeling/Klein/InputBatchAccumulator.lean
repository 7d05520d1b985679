import Mathlib
import Klein.Fallible

/-! `runtime/worker/input_batch_accumulator.py`: one queue of records that are put
together into batches. Blocks, their sizes and their merging (numpy, pyarrow) are
parameters. A call reads the clock twice: `now` for the timeout, `later` for the
start of the next batch. -/
namespace Klein
open Fallible List

/-- The batching part of `api/runtime_info.py`, with what `__post_init__` checks. -/
structure RuntimeInfo where
  batchSize : Option Nat
  batchTimeout : Option Int
  sizePositive : ∀ size, batchSize = some size → 0 < size
  timeoutPositive : ∀ timeout, batchTimeout = some timeout → 0 < timeout
  timed : ∀ size, batchSize = some size → 1 < size → batchTimeout ≠ none

structure Record (β : Type) where
  block : β
  numRows : Option Nat
  inputTag : Option Int
  rowKinds : Option (List (Option String))
  rowTimestamps : Option (List (Option Int))
  timestamp : Option Int
deriving DecidableEq

namespace Record
variable {β : Type} (record : Record β)

def rows : Nat := record.numRows.getD 1
def isColumnar : Bool := record.numRows.isSome

end Record

inductive TaskInput (β : Type) where
  | data (record : Record β)
  | control
deriving DecidableEq

structure BlockOps (β : Type) where
  retainedSize : Record β → Nat
  sliceRows : β → Nat → Nat → β
  rowBlock : β → Nat → Option String → β
  merge : List (Record β) → Except String (Record β)

structure InputBatchAccumulator (β : Type) where
  runtimeInfo : RuntimeInfo
  maxBytes : Option Nat
  records : List (Record β × Nat)
  bufferedRows : Nat
  bufferedBytes : Nat
  batchStartedAt : Option Int

namespace InputBatchAccumulator
variable {β : Type} (ops : BlockOps β)

def create (runtimeInfo : RuntimeInfo) (maxBytes : Option Nat) : Except String (InputBatchAccumulator β) :=
  if maxBytes = some 0 then .error "input batch byte budget must be positive"
  else .ok ⟨runtimeInfo,maxBytes,[],0,0,none⟩

def validateRowTimestamps (record : Record β) : Except String Unit :=
  match record.rowTimestamps with
  | none => .ok ()
  | some timestamps =>
    if timestamps.length ≠ record.rows then
      .error ("record has " ++ toString timestamps.length ++ " row timestamps for " ++ toString record.rows ++
        " logical rows")
    else .ok ()

def firstRows (record : Record β) (count : Nat) : Record β :=
  {record with
    block := ops.sliceRows record.block 0 count
    numRows := some count
    rowKinds := record.rowKinds.map (List.take count)
    rowTimestamps := record.rowTimestamps.map (List.take count)}

def remainingRows (record : Record β) (count : Nat) : Record β :=
  {record with
    block := ops.sliceRows record.block count record.rows
    numRows := some (record.rows - count)
    rowKinds := record.rowKinds.map (List.drop count)
    rowTimestamps := record.rowTimestamps.map (List.drop count)}

/-- `_take` on the records and the counters. -/
def takeRows : List (Record β × Nat) → Nat → Nat → Nat →
    Except String (List (Record β) × List (Record β × Nat) × Nat × Nat)
  | records,rows,bytes,0 => .ok ([],records,rows,bytes)
  | [],_,_,_ + 1 => .error "IndexError: deque index out of range"
  | (record,size)::rest,rows,bytes,remaining + 1 =>
    if record.rows ≤ remaining + 1 then do
      let (taken,left,rows,bytes) ← takeRows rest (rows - record.rows) (bytes - size) (remaining + 1 - record.rows)
      return (record::taken,left,rows,bytes)
    else if ¬ record.isColumnar then .error "a row-shaped record cannot be split"
    else do
      validateRowTimestamps record
      let suffix := remainingRows ops record (remaining + 1)
      let suffixSize := ops.retainedSize suffix
      return ([firstRows ops record (remaining + 1)],(suffix,suffixSize)::rest,rows - (remaining + 1),
        bytes + suffixSize - size)

variable (acc : InputBatchAccumulator β)

def batchSize : Nat := acc.runtimeInfo.batchSize.getD 1
def batchEnabled : Bool := acc.runtimeInfo.batchSize.isSome

def timedOut (now : Int) : Bool :=
  match acc.runtimeInfo.batchTimeout,acc.batchStartedAt with
  | some timeout,some started => timeout ≤ now - started
  | _,_ => false

def compatiblePrefixRows : Nat :=
  match acc.records with
  | [] => 0
  | (first,_)::_ =>
    ((acc.records.takeWhile (fun entry => entry.1.inputTag = first.inputTag)).map (fun entry => entry.1.rows)).sum

/-- The loop of `_drain`; each round takes at least one row. -/
def drainLoop (onlyFull : Bool) : Nat → InputBatchAccumulator β →
    Except String (List (Record β) × InputBatchAccumulator β)
  | 0,acc => .ok ([],acc)
  | rounds + 1,acc =>
    if acc.bufferedRows = 0 ∨ onlyFull ∧ acc.bufferedRows < acc.batchSize then .ok ([],acc)
    else do
      let (taken,records,rows,bytes) ←
        takeRows ops acc.records acc.bufferedRows acc.bufferedBytes (min acc.batchSize acc.compatiblePrefixRows)
      let batch ← ops.merge taken
      let (emitted,acc) ← drainLoop onlyFull rounds {acc with
        records := records
        bufferedRows := rows
        bufferedBytes := bytes}
      return (batch::emitted,acc)

def drain (onlyFull : Bool) (later : Int) : Except String (List (Record β) × InputBatchAccumulator β) := do
  let (emitted,acc) ← drainLoop ops onlyFull acc.bufferedRows acc
  return (emitted,{acc with batchStartedAt := if acc.bufferedRows = 0 then none else some later})

/-- A flush without `force` drains full batches only, timed out or not. -/
def flush (force : Bool) (now later : Int) : Except String (List (Record β) × InputBatchAccumulator β) :=
  if ¬ acc.batchEnabled ∨ acc.bufferedRows = 0 then .ok ([],acc)
  else if ¬ force ∧ acc.bufferedRows < acc.batchSize ∧ ¬ acc.timedOut now then .ok ([],acc)
  else acc.drain ops (!force) later

/-- `_unbatched` on a data record -/
def unbatched (record : Record β) : Except String (List (Record β)) :=
  if ¬ record.isColumnar then .ok [record]
  else do
    match record.rowKinds with
    | some kinds =>
      if kinds.length ≠ record.rows ∧ 0 < record.rows then
        throw ("record has " ++ toString kinds.length ++ " row kinds for " ++ toString record.rows ++ " logical rows")
    | none => pure ()
    validateRowTimestamps record
    return (List.range record.rows).map (fun index =>
      {record with
        block := ops.rowBlock record.block index ((record.rowKinds.bind (fun kinds => kinds[index]?)).join)
        numRows := none
        rowKinds := none
        rowTimestamps := none
        timestamp := match record.rowTimestamps with
          | some timestamps => (timestamps[index]?).join
          | none => record.timestamp})

def drainOtherSide (record : Record β) (later : Int) : Except String (List (Record β) × InputBatchAccumulator β) :=
  match acc.records.getLast? with
  | some (last,_) => if record.inputTag ≠ last.inputTag then acc.drain ops false later else .ok ([],acc)
  | none => .ok ([],acc)

def drainOverBudget (size : Nat) (later : Int) : Except String (List (Record β) × InputBatchAccumulator β) :=
  if acc.records ≠ [] ∧ acc.maxBytes.any (fun limit => limit < acc.bufferedBytes + size) then acc.drain ops false later
  else .ok ([],acc)

def append (record : Record β) (size : Nat) (now : Int) : InputBatchAccumulator β :=
  {acc with
    records := acc.records ++ [(record,size)]
    bufferedRows := acc.bufferedRows + record.rows
    bufferedBytes := acc.bufferedBytes + size
    batchStartedAt := some (acc.batchStartedAt.getD now)}

def drainReady (now later : Int) : Except String (List (Record β) × InputBatchAccumulator β) :=
  if acc.maxBytes.any (fun limit => limit ≤ acc.bufferedBytes) then acc.drain ops false later
  else if acc.batchSize ≤ acc.bufferedRows then acc.drain ops true later
  else if acc.timedOut now then acc.flush ops true now later
  else .ok ([],acc)

def accept (input : TaskInput β) (now later : Int) : Except String (List (TaskInput β) × InputBatchAccumulator β) :=
  match input with
  | .control =>
    if ¬ acc.batchEnabled then .ok ([.control],acc)
    else do
      let (emitted,acc) ← acc.flush ops true now later
      return (emitted.map .data ++ [.control],acc)
  | .data record =>
    if ¬ acc.batchEnabled then (unbatched ops record).map (fun rows => (rows.map .data,acc))
    else if record.rows = 0 then .ok ([],acc)
    else do
      let size := ops.retainedSize record
      let (first,acc) ← acc.drainOtherSide ops record later
      let (second,acc) ← acc.drainOverBudget ops size later
      let (third,acc) ← (acc.append record size now).drainReady ops now later
      return ((first ++ second ++ third).map .data,acc)

section counters

structure Counted : Prop where
  rows : acc.bufferedRows = (acc.records.map (fun entry => entry.1.rows)).sum
  bytes : acc.bufferedBytes = (acc.records.map Prod.snd).sum
  positive : ∀ entry ∈ acc.records, 0 < entry.1.rows

theorem create_counted (runtimeInfo : RuntimeInfo) (maxBytes : Option Nat) (created : create runtimeInfo maxBytes = .ok acc) :
    acc.Counted := by
  unfold create at created
  split at created
  · contradiction
  · cases created
    exact ⟨rfl,rfl,by simp⟩

theorem takeRows_spec (records : List (Record β × Nat)) (rows bytes remaining : Nat)
    (counted : rows = (records.map (fun entry => entry.1.rows)).sum) (sized : bytes = (records.map Prod.snd).sum)
    (positive : ∀ entry ∈ records, 0 < entry.1.rows) (result : List (Record β) × List (Record β × Nat) × Nat × Nat)
    (taken : takeRows ops records rows bytes remaining = .ok result) :
    result.2.2.1 = (result.2.1.map (fun entry => entry.1.rows)).sum ∧ result.2.2.2 = (result.2.1.map Prod.snd).sum ∧
      (∀ entry ∈ result.2.1, 0 < entry.1.rows) ∧ result.2.2.1 + remaining = rows := by
  induction records generalizing rows bytes remaining result with
  | nil =>
    cases remaining with
    | zero => cases taken; exact ⟨counted,sized,positive,rfl⟩
    | succ remaining => cases taken
  | cons entry rest ih =>
    obtain ⟨record,size⟩ := entry
    obtain ⟨here,later⟩ := forall_mem_cons.mp positive
    rw [map_cons,sum_cons] at counted sized
    dsimp only at here counted sized
    cases remaining with
    | zero => cases taken; exact ⟨by simpa using counted,by simpa using sized,positive,rfl⟩
    | succ remaining =>
      rw [takeRows] at taken
      split at taken
      next whole =>
        obtain ⟨⟨batch,left,rows',bytes'⟩,done,same⟩ := bind_ok taken
        cases same
        obtain ⟨counts,sizes,positive',total⟩ := ih (rows - record.rows) (bytes - size) (remaining + 1 - record.rows)
          (by omega) (by omega) later _ done
        refine ⟨counts,sizes,positive',?_⟩
        dsimp only at total ⊢
        omega
      next partly =>
        split at taken
        · contradiction
        · obtain ⟨_,-,same⟩ := bind_ok taken
          cases same
          have left : (remainingRows ops record (remaining + 1)).rows = record.rows - (remaining + 1) := rfl
          refine ⟨?_,?_,?_,?_⟩
          · dsimp only at partly counted ⊢
            rw [map_cons,sum_cons,left]
            omega
          · dsimp only at sized ⊢
            rw [map_cons,sum_cons]
            omega
          · intro other inside
            rcases mem_cons.mp inside with rfl | inside
            · dsimp only at partly ⊢
              rw [left]
              omega
            · exact later other inside
          · dsimp only at partly counted ⊢
            omega

theorem batchSize_positive : 0 < acc.batchSize := by
  unfold batchSize
  cases size : acc.runtimeInfo.batchSize with
  | none => exact Nat.one_pos
  | some size => exact acc.runtimeInfo.sizePositive _ (by assumption)

theorem Counted.empty (counted : acc.Counted) (none : acc.bufferedRows = 0) : acc.records = [] ∧ acc.bufferedBytes = 0 := by
  have nothing : acc.records = [] := by
    cases held : acc.records with
    | nil => rfl
    | cons entry rest =>
      have counts := counted.rows
      have positive := counted.positive entry (by simp [held])
      rw [held,map_cons,sum_cons] at counts
      omega
  exact ⟨nothing,by rw [counted.bytes,nothing]; rfl⟩

theorem compatiblePrefixRows_positive (counted : acc.Counted) (some' : acc.bufferedRows ≠ 0) :
    0 < acc.compatiblePrefixRows := by
  unfold compatiblePrefixRows
  cases held : acc.records with
  | nil =>
    have counts := counted.rows
    rw [held] at counts
    exact absurd counts some'
  | cons entry rest =>
    have positive := counted.positive entry (by simp [held])
    dsimp only
    rw [takeWhile_cons_of_pos (by simp),map_cons,sum_cons]
    omega

structure Alike (acc other : InputBatchAccumulator β) : Prop where
  runtimeInfo : other.runtimeInfo = acc.runtimeInfo
  maxBytes : other.maxBytes = acc.maxBytes

theorem Alike.batchSize (other : InputBatchAccumulator β) (alike : acc.Alike other) : other.batchSize = acc.batchSize := by
  unfold InputBatchAccumulator.batchSize
  rw [alike.runtimeInfo]

theorem drainLoop_spec (onlyFull : Bool) (rounds : Nat) (counted : acc.Counted) (enough : acc.bufferedRows ≤ rounds)
    (result : List (Record β) × InputBatchAccumulator β) (done : drainLoop ops onlyFull rounds acc = .ok result) :
    result.2.Counted ∧ acc.Alike result.2 ∧
      (result.2.bufferedRows = 0 ∨ onlyFull = true ∧ result.2.bufferedRows < acc.batchSize) := by
  induction rounds generalizing acc result with
  | zero =>
    cases done
    exact ⟨counted,⟨rfl,rfl⟩,.inl (Nat.le_zero.mp enough)⟩
  | succ rounds ih =>
    rw [drainLoop] at done
    split at done
    next stop =>
      cases done
      exact ⟨counted,⟨rfl,rfl⟩,stop⟩
    next more =>
      have some' : acc.bufferedRows ≠ 0 := fun none => more (.inl none)
      have positive := acc.compatiblePrefixRows_positive counted some'
      have batch := acc.batchSize_positive
      obtain ⟨⟨taken,records,rows,bytes⟩,took,done⟩ := bind_ok done
      obtain ⟨merged,-,done⟩ := bind_ok done
      obtain ⟨⟨emitted,last⟩,rest,same⟩ := bind_ok done
      cases same
      obtain ⟨counts,sizes,positive',total⟩ :=
        takeRows_spec ops _ _ _ _ counted.rows counted.bytes counted.positive _ took
      dsimp only at counts sizes positive' total
      obtain ⟨counted',alike,left⟩ := ih {acc with
        records := records
        bufferedRows := rows
        bufferedBytes := bytes} ⟨counts,sizes,positive'⟩ (by dsimp only; omega) _ rest
      exact ⟨counted',⟨alike.runtimeInfo,alike.maxBytes⟩,left⟩

theorem drain_spec (onlyFull : Bool) (later : Int) (counted : acc.Counted)
    (result : List (Record β) × InputBatchAccumulator β) (done : acc.drain ops onlyFull later = .ok result) :
    result.2.Counted ∧ acc.Alike result.2 ∧
      (result.2.bufferedRows = 0 ∨ onlyFull = true ∧ result.2.bufferedRows < acc.batchSize) := by
  obtain ⟨⟨emitted,last⟩,looped,same⟩ := bind_ok done
  cases same
  obtain ⟨counted',alike,left⟩ := acc.drainLoop_spec ops onlyFull _ counted (Nat.le_refl _) _ looped
  exact ⟨{counted' with},{alike with},left⟩

structure Steady : Prop where
  counted : acc.Counted
  part : acc.bufferedRows < acc.batchSize

theorem create_steady (runtimeInfo : RuntimeInfo) (maxBytes : Option Nat) (created : create runtimeInfo maxBytes = .ok acc) :
    acc.Steady := by
  refine ⟨create_counted acc runtimeInfo maxBytes created,?_⟩
  unfold create at created
  split at created
  · contradiction
  · cases created
    exact batchSize_positive _

theorem flush_unforced (now later : Int) (steady : acc.Steady) : ∃ next, acc.flush ops false now later = .ok ([],next) ∧
    next.records = acc.records ∧ next.bufferedRows = acc.bufferedRows ∧ next.bufferedBytes = acc.bufferedBytes ∧
    acc.Alike next := by
  unfold flush
  split
  · exact ⟨acc,rfl,rfl,rfl,rfl,rfl,rfl⟩
  next kept =>
    split
    · exact ⟨acc,rfl,rfl,rfl,rfl,rfl,rfl⟩
    · have looped : drainLoop ops true acc.bufferedRows acc = .ok ([],acc) := by
        cases rows : acc.bufferedRows with
        | zero => rfl
        | succ rounds =>
          rw [drainLoop]
          exact if_pos (.inr ⟨rfl,steady.part⟩)
      unfold drain
      rw [Bool.not_false,ok_bind looped]
      exact ⟨_,rfl,rfl,rfl,rfl,rfl,rfl⟩

theorem flush_forced (now later : Int) (steady : acc.Steady) (result : List (Record β) × InputBatchAccumulator β)
    (done : acc.flush ops true now later = .ok result) : result.2.Steady ∧ acc.Alike result.2 ∧ result.2.bufferedRows = 0 := by
  have part := steady.part
  unfold flush at done
  split at done
  next nothing =>
    cases done
    refine ⟨steady,⟨rfl,rfl⟩,?_⟩
    rcases nothing with disabled | none
    · have single : acc.batchSize = 1 := by
        unfold batchEnabled at disabled
        unfold batchSize
        rw [Option.not_isSome_iff_eq_none.mp disabled]
        rfl
      change acc.bufferedRows = 0
      omega
    · exact none
  next held =>
    rw [if_neg (by simp)] at done
    obtain ⟨counted,alike,left⟩ := acc.drain_spec ops false later steady.counted result done
    have none : result.2.bufferedRows = 0 := left.elim id (fun full => by cases full.1)
    refine ⟨⟨counted,?_⟩,alike,none⟩
    rw [none]
    exact batchSize_positive _

theorem flush_steady (force : Bool) (now later : Int) (steady : acc.Steady)
    (result : List (Record β) × InputBatchAccumulator β) (done : acc.flush ops force now later = .ok result) :
    result.2.Steady ∧ acc.Alike result.2 := by
  cases force with
  | true =>
    obtain ⟨steady',alike,-⟩ := acc.flush_forced ops now later steady result done
    exact ⟨steady',alike⟩
  | false =>
    obtain ⟨next,same,records,rows,bytes,alike⟩ := acc.flush_unforced ops now later steady
    cases same.symm.trans done
    refine ⟨⟨⟨?_,?_,?_⟩,?_⟩,alike⟩
    · rw [rows,records,steady.counted.rows]
    · rw [bytes,records,steady.counted.bytes]
    · rw [records]
      exact steady.counted.positive
    · rw [rows,alike.batchSize]
      exact steady.part

theorem Alike.trans (other last : InputBatchAccumulator β) (first : acc.Alike other) (second : other.Alike last) :
    acc.Alike last := ⟨second.runtimeInfo.trans first.runtimeInfo,second.maxBytes.trans first.maxBytes⟩

theorem boundary_spec (record : Record β) (size : Nat) (later : Int) (counted : acc.Counted)
    (result : List (Record β) × InputBatchAccumulator β)
    (done : acc.drainOtherSide ops record later = .ok result ∨ acc.drainOverBudget ops size later = .ok result) :
    result.2.Counted ∧ acc.Alike result.2 := by
  have drained (result : List (Record β) × InputBatchAccumulator β) (done : acc.drain ops false later = .ok result) :
      result.2.Counted ∧ acc.Alike result.2 := by
    obtain ⟨counted',alike,-⟩ := acc.drain_spec ops false later counted result done
    exact ⟨counted',alike⟩
  rcases done with done | done
  · unfold drainOtherSide at done
    split at done
    · split at done
      · exact drained result done
      · cases done
        exact ⟨counted,rfl,rfl⟩
    · cases done
      exact ⟨counted,rfl,rfl⟩
  · unfold drainOverBudget at done
    split at done
    · exact drained result done
    · cases done
      exact ⟨counted,rfl,rfl⟩

theorem append_counted (record : Record β) (size : Nat) (now : Int) (counted : acc.Counted) (some' : record.rows ≠ 0) :
    (acc.append record size now).Counted := by
  have rows := counted.rows
  have bytes := counted.bytes
  constructor
  · simp [append,rows]
  · simp [append,bytes]
  · intro entry inside
    rcases mem_append.mp inside with inside | inside
    · exact counted.positive entry inside
    · rw [mem_singleton.mp inside]
      exact Nat.pos_of_ne_zero some'

theorem drainReady_steady (now later : Int) (counted : acc.Counted) (result : List (Record β) × InputBatchAccumulator β)
    (done : acc.drainReady ops now later = .ok result) : result.2.Steady ∧ acc.Alike result.2 := by
  have drained (onlyFull : Bool) (done : acc.drain ops onlyFull later = .ok result) : result.2.Steady ∧ acc.Alike result.2 := by
    obtain ⟨counted',alike,left⟩ := acc.drain_spec ops onlyFull later counted result done
    refine ⟨⟨counted',?_⟩,alike⟩
    rw [alike.batchSize]
    rcases left with none | ⟨-,less⟩
    · rw [none]
      exact acc.batchSize_positive
    · exact less
  unfold drainReady at done
  split at done
  · exact drained false done
  · split at done
    · exact drained true done
    next less =>
      have steady : acc.Steady := ⟨counted,by omega⟩
      split at done
      · obtain ⟨steady',alike⟩ := acc.flush_steady ops true now later steady result done
        exact ⟨steady',alike⟩
      · cases done
        exact ⟨steady,rfl,rfl⟩

theorem accept_steady (input : TaskInput β) (now later : Int) (steady : acc.Steady)
    (result : List (TaskInput β) × InputBatchAccumulator β) (done : acc.accept ops input now later = .ok result) :
    result.2.Steady ∧ acc.Alike result.2 := by
  cases input with
  | control =>
    rw [accept] at done
    split at done
    · cases done
      exact ⟨steady,rfl,rfl⟩
    · obtain ⟨flushed,ok,same⟩ := bind_ok done
      cases same
      obtain ⟨steady',alike⟩ := acc.flush_steady ops true now later steady flushed ok
      exact ⟨steady',alike⟩
  | data record =>
    rw [accept] at done
    split at done
    · obtain ⟨rows,-,rfl⟩ := map_ok done
      exact ⟨steady,rfl,rfl⟩
    · split at done
      · cases done
        exact ⟨steady,rfl,rfl⟩
      next some' =>
        obtain ⟨⟨first,one⟩,side,done⟩ := bind_ok done
        obtain ⟨⟨second,two⟩,budget,done⟩ := bind_ok done
        obtain ⟨⟨third,three⟩,ready,same⟩ := bind_ok done
        cases same
        obtain ⟨counted,alike⟩ := acc.boundary_spec ops record 0 later steady.counted _ (.inl side)
        obtain ⟨counted',alike'⟩ := one.boundary_spec ops record _ later counted _ (.inr budget)
        obtain ⟨steady',alike''⟩ := (two.append record (ops.retainedSize record) now).drainReady_steady ops now later
          (two.append_counted record _ now counted' some') _ ready
        exact ⟨steady',(alike.trans acc one two alike').trans acc two three ⟨alike''.runtimeInfo,alike''.maxBytes⟩⟩

end counters

end InputBatchAccumulator
end Klein
