import Mathlib
import Klein.Message

/-! The replay journal of one downstream edge (`runtime/collector/delivery_journal.py`).
Sequence numbers are assigned per target when a put lands, and an entry leaves
the per-target FIFO when an acknowledgement covers its sequence. Locking and the
size observers carry no state of the protocol and are left out. -/
namespace Klein
open List Option

/-- What the journal measures of a batch: `Record.num_rows` and `estimate_retained_size`. -/
structure RecordMeasure (ρ : Type) where
  numRows : ρ → Option Nat
  estimateRetainedSize : List ρ → Nat

structure ReplayEntry (ρ : Type) where
  sequence : Int
  records : List ρ
  rowCount : Nat
  sizeBytes : Nat

inductive JournalError where
  | valueError (message : String)
  | capacityError (message : String)
deriving DecidableEq, Repr

structure DeliveryJournal (ρ : Type) (targetCount : Nat) where
  enabled : Bool
  senderVertexId : Option ExecutionVertexId
  senderTaskName : Option String
  edgeIndex : Option Nat
  topologyEpoch : Option String
  sequence : Fin targetCount → Int
  buffer : Fin targetCount → List (ReplayEntry ρ)
  forwarded : Fin targetCount → Int
  bufferedBytes : Int
  bufferedRecords : Int
  maxBytes : Int

namespace DeliveryJournal
variable {ρ : Type} {n : Nat}

def init (ρ : Type) (targetCount : Nat) : DeliveryJournal ρ targetCount where
  enabled := false
  senderVertexId := none
  senderTaskName := none
  edgeIndex := none
  topologyEpoch := none
  sequence := fun _ => 0
  buffer := fun _ => []
  forwarded := fun _ => -1
  bufferedBytes := 0
  bufferedRecords := 0
  maxBytes := 0

def configure (journal : DeliveryJournal ρ n) (enabled : Bool) (senderVertexId : Option ExecutionVertexId)
    (maxBytes : Int) (senderTaskName : Option String) (edgeIndex : Option Nat) (topologyEpoch : Option String) :
    Except JournalError (DeliveryJournal ρ n) :=
  if enabled ∧ maxBytes ≤ 0 then
    .error (.valueError "replay buffer max bytes must be greater than zero when replay is enabled")
  else if maxBytes < 0 then .error (.valueError "replay buffer max bytes cannot be negative")
  else .ok {journal with enabled,senderVertexId,senderTaskName,edgeIndex,topologyEpoch,maxBytes}

def deliveryChannel (journal : DeliveryJournal ρ n) (targetIndex : Fin n) : Option DeliveryChannel := do
  let vertex ← journal.senderVertexId
  let name ← journal.senderTaskName
  let edge ← journal.edgeIndex
  return ⟨vertex,name,edge,targetIndex,journal.topologyEpoch⟩

theorem deliveryChannel_target (journal : DeliveryJournal ρ n) (target : Fin n) (channel : DeliveryChannel)
    (stamped : journal.deliveryChannel target = some channel) : channel.targetIndex = target := by
  obtain ⟨vertex,-,rest⟩ := bind_eq_some_iff.mp stamped
  obtain ⟨name,-,rest⟩ := bind_eq_some_iff.mp rest
  obtain ⟨edge,-,done⟩ := bind_eq_some_iff.mp rest
  cases done
  rfl

def nextSequence (journal : DeliveryJournal ρ n) (targetIndex : Fin n) : Int := journal.sequence targetIndex + 1

def rowCount (measure : RecordMeasure ρ) (records : List ρ) : Nat :=
  (records.map (fun record => (measure.numRows record).getD 1)).sum

def capacityMessage (nextSize maxBytes : Int) : String :=
  "replay buffer would retain " ++ toString nextSize ++ " bytes, above configured " ++
    "pipeline.replay-buffer.max-bytes=" ++ toString maxBytes

/-- Commit a landed batch's sequence and buffer it for possible replay. A
sequence that the forwarded watermark already covers is committed unbuffered. -/
def recordDelivery (measure : RecordMeasure ρ) (journal : DeliveryJournal ρ n) (targetIndex : Fin n)
    (records : List ρ) (sequence : Int) : Except JournalError (DeliveryJournal ρ n) :=
  let committed := Function.update journal.sequence targetIndex sequence
  if journal.enabled ∧ journal.forwarded targetIndex < sequence then
    let rows := rowCount measure records
    let size := measure.estimateRetainedSize records
    let nextSize := journal.bufferedBytes + size
    if 0 < journal.maxBytes ∧ journal.maxBytes < nextSize then
      .error (.capacityError (capacityMessage nextSize journal.maxBytes))
    else .ok {journal with
      sequence := committed
      buffer := Function.update journal.buffer targetIndex
        (journal.buffer targetIndex ++ [⟨sequence,records,rows,size⟩])
      bufferedRecords := journal.bufferedRecords + rows
      bufferedBytes := nextSize}
  else .ok {journal with sequence := committed}

/-- Drop the entries the downstream has confirmed forwarding. A watermark that
is not above the highest acknowledged one is ignored. -/
def acknowledge (journal : DeliveryJournal ρ n) (targetIndex : Fin n) (forwardedSequence : Int) :
    DeliveryJournal ρ n :=
  if ¬ journal.enabled ∨ forwardedSequence ≤ journal.forwarded targetIndex then journal
  else
    let covered := (journal.buffer targetIndex).takeWhile (fun entry => entry.sequence ≤ forwardedSequence)
    {journal with
      forwarded := Function.update journal.forwarded targetIndex forwardedSequence
      buffer := Function.update journal.buffer targetIndex
        ((journal.buffer targetIndex).dropWhile (fun entry => entry.sequence ≤ forwardedSequence))
      bufferedRecords := journal.bufferedRecords - (covered.map ReplayEntry.rowCount).sum
      bufferedBytes := journal.bufferedBytes - (covered.map ReplayEntry.sizeBytes).sum}

/-- The buffered `(sequence, records)` pairs in sequence order. -/
def pendingFor (journal : DeliveryJournal ρ n) (targetIndex : Fin n) : List (Int × List ρ) :=
  (journal.buffer targetIndex).map (fun entry => (entry.sequence,entry.records))

def pendingSequences (journal : DeliveryJournal ρ n) (targetIndex : Fin n) : List Int :=
  (journal.pendingFor targetIndex).map Prod.fst

theorem mem_pendingSequences (journal : DeliveryJournal ρ n) (target : Fin n) (sequence : Int) :
    sequence ∈ journal.pendingSequences target ↔ ∃ entry ∈ journal.buffer target, entry.sequence = sequence := by
  simp [pendingSequences,pendingFor]

private theorem mem_dropWhile_of_not {α : Type} (test : α → Bool) (items : List α) (item : α)
    (member : item ∈ items) (fails : ¬ test item = true) : item ∈ items.dropWhile test := by
  rw [← takeWhile_append_dropWhile (p := test) (l := items)] at member
  rcases mem_append.mp member with taken | kept
  · exact absurd (mem_takeWhile_imp taken) fails
  · exact kept

section
variable (journal : DeliveryJournal ρ n)
include journal

@[simp] theorem acknowledge_sequence (target other : Fin n) (watermark : Int) :
    (journal.acknowledge target watermark).sequence other = journal.sequence other := by
  unfold acknowledge
  split <;> rfl

@[simp] theorem acknowledge_enabled (target : Fin n) (watermark : Int) :
    (journal.acknowledge target watermark).enabled = journal.enabled := by
  unfold acknowledge
  split <;> rfl

theorem acknowledge_forwarded (target : Fin n) (watermark : Int)
    (on : journal.enabled = true) :
    (journal.acknowledge target watermark).forwarded target = max (journal.forwarded target) watermark := by
  unfold acknowledge
  split
  next stale =>
    have below : watermark ≤ journal.forwarded target := by simpa [on] using stale
    exact (max_eq_left below).symm
  next fresh =>
    have above : journal.forwarded target < watermark := by simpa [on] using fresh
    simp [max_eq_right above.le]

theorem acknowledge_keeps (target : Fin n) (watermark sequence : Int)
    (member : sequence ∈ journal.pendingSequences target) (above : watermark < sequence) :
    sequence ∈ (journal.acknowledge target watermark).pendingSequences target := by
  obtain ⟨entry,inside,rfl⟩ := (mem_pendingSequences _ _ _).mp member
  refine (mem_pendingSequences _ _ _).mpr ⟨entry,?_,rfl⟩
  unfold acknowledge
  split
  · exact inside
  · simpa using mem_dropWhile_of_not _ _ entry inside (by simpa using above)

theorem acknowledge_sublist (target : Fin n) (watermark : Int) :
    ((journal.acknowledge target watermark).pendingSequences target).Sublist (journal.pendingSequences target) := by
  unfold acknowledge
  split
  · exact List.Sublist.refl _
  · simp only [pendingSequences,pendingFor,Function.update_self]
    exact ((dropWhile_suffix _).sublist.map _).map _

end

theorem recordDelivery_ok (measure : RecordMeasure ρ) (journal next : DeliveryJournal ρ n) (target : Fin n)
    (records : List ρ) (sequence : Int) (on : journal.enabled = true)
    (landed : journal.recordDelivery measure target records sequence = .ok next) :
    next.enabled = true ∧ next.sequence target = sequence ∧ next.forwarded target = journal.forwarded target ∧
      next.pendingSequences target = journal.pendingSequences target ++
        (if journal.forwarded target < sequence then [sequence] else []) := by
  unfold recordDelivery at landed
  simp only [on,true_and] at landed
  split at landed
  next retained =>
    split at landed
    · contradiction
    · cases landed
      simp [pendingSequences,pendingFor,retained]
  next covered =>
    cases landed
    simp [pendingSequences,pendingFor,covered]

theorem configure_ok (journal next : DeliveryJournal ρ n) (enabled : Bool) (vertex : Option ExecutionVertexId)
    (maxBytes : Int) (name : Option String) (edge : Option Nat) (epoch : Option String)
    (configured : journal.configure enabled vertex maxBytes name edge epoch = .ok next) :
    next.sequence = journal.sequence ∧ next.buffer = journal.buffer ∧ next.forwarded = journal.forwarded := by
  unfold configure at configured
  split at configured
  · contradiction
  · split at configured
    · contradiction
    · cases configured
      exact ⟨rfl,rfl,rfl⟩

theorem acknowledge_other (journal : DeliveryJournal ρ n) (target other : Fin n) (watermark : Int)
    (different : other ≠ target) : (journal.acknowledge target watermark).forwarded other = journal.forwarded other ∧
      (journal.acknowledge target watermark).buffer other = journal.buffer other := by
  unfold acknowledge
  split
  · exact ⟨rfl,rfl⟩
  · exact ⟨Function.update_of_ne different _ _,Function.update_of_ne different _ _⟩

theorem recordDelivery_frame (measure : RecordMeasure ρ) (journal next : DeliveryJournal ρ n) (target : Fin n)
    (records : List ρ) (sequence : Int) (landed : journal.recordDelivery measure target records sequence = .ok next) :
    next.sequence = Function.update journal.sequence target sequence ∧ next.forwarded = journal.forwarded ∧
      next.enabled = journal.enabled ∧
      ∀ other entry, entry ∈ journal.buffer other → entry ∈ next.buffer other := by
  unfold recordDelivery at landed
  dsimp only at landed
  split at landed
  · split at landed
    · contradiction
    · cases landed
      refine ⟨rfl,rfl,rfl,fun other entry inside => ?_⟩
      by_cases same : other = target
      · subst same
        simp [inside]
      · simpa [Function.update_of_ne same] using inside
  · cases landed
    exact ⟨rfl,rfl,rfl,fun _ _ inside => inside⟩

end DeliveryJournal
end Klein
