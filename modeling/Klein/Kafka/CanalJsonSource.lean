import Klein.Kafka.SourceState
import Klein.Runs

/-! A subtask of the Kafka source that reads canal-json (`integrations/kafka/source.py`):
its assignment, the messages that it polls and the rows of them that it collects.
Beside it stand the rows of each partition that it has emitted since it took the
partition up. -/
namespace Klein.Kafka
open List Runs

structure Log (ρ : Type) where
  messages : PartitionKey → List (Int × List ρ)
  ordered : ∀ key, (messages key).Pairwise (fun one other => one.1 < other.1)
  counted : ∀ key, ∀ message ∈ messages key, 0 ≤ message.1

def rest {ρ : Type} (messages : List (Int × List ρ)) (point : Int × Nat) : List ρ :=
  (messages.filter (fun message => point.1 ≤ message.1)).flatMap
    (fun message => if message.1 = point.1 then message.2.drop point.2 else message.2)

inductive StartOffset where
  | earliest
  | latest
  | offset (value : Int)
  | datetime

structure SourceConfig where
  taskIndex : Nat
  parallelism : Nat
  startOffset : PartitionKey → StartOffset

/-- What the broker says of a partition at a refresh: its watermarks, the offset that the
group has committed and the one of the start time. -/
structure Answer where
  low : Int
  high : Int
  committed : Option Int
  forTime : Option Int
  bounds : 0 ≤ low ∧ low ≤ high

structure Emission (ρ : Type) where
  key : PartitionKey
  offset : Int
  rows : List ρ
  index : Nat

/-- The fields of the source, the offsets that its consumer reads next, and whether a forced
refresh is due, after the source is opened or restored. -/
structure KafkaSource (ρ : Type) where
  positions : Positions
  restoredPositions : Positions
  formatInflight : Inflight
  assigned : List PartitionKey
  fetch : Positions
  current : Option (Emission ρ)
  pending : Bool
  stopped : Bool

inductive Action where
  | refresh (force : Bool) (partitions : List PartitionKey) (answers : PartitionKey → Answer)
  | poll (key : PartitionKey)
  | collect
  | stop
  | snapshot
  | restart
  | restore (index : Nat)

def Action.Reads : Action → Prop
  | .restart => False
  | .restore _ => False
  | _ => True

def Action.Refreshes : Action → Prop
  | .refresh _ _ _ => True
  | _ => False

/-- `_clamp_offset` -/
def clampOffset (offset low high : Int) : Int := if offset < low then low else min offset high

namespace KafkaSource
variable {ρ : Type} (source : KafkaSource ρ)

def opened : KafkaSource ρ := ⟨∅,∅,∅,[],∅,none,true,false⟩

def select (config : SourceConfig) (partitions : List PartitionKey) : List PartitionKey :=
  (partitions.zipIdx.filter (fun entry => entry.2 % config.parallelism = config.taskIndex)).map Prod.fst

/-- `_resolve_assignment_offset` -/
def resolveAssignmentOffset (config : SourceConfig) (key : PartitionKey) (answer : Answer) : Int :=
  let clamp (offset : Int) : Int := clampOffset offset answer.low answer.high
  let configured := match config.startOffset key with
    | .earliest => answer.low
    | .latest => answer.high
    | .offset value => clamp value
    | .datetime => match answer.forTime with
      | some offset => clamp (if 0 ≤ offset then offset else answer.high)
      | none => clamp answer.high
  match source.restoredPositions.get? key with
  | some restored => clamp restored
  | none =>
    match source.positions.get? key with
    | some current => clamp current
    | none =>
      match answer.committed with
      | some committed => if 0 ≤ committed then clamp committed else configured
      | none => configured

/-- `_refresh_assignment` -/
def refreshAssignment (config : SourceConfig) (force : Bool) (partitions : List PartitionKey) (answers : PartitionKey → Answer) :
    KafkaSource ρ :=
  let selected := select config partitions
  if ¬ force ∧ selected = source.assigned then source
  else
    let nextPositions := Dict.ofList (selected.map (fun key => (key,source.resolveAssignmentOffset config key (answers key))))
    {
      source with
      assigned := selected
      positions := nextPositions
      fetch := nextPositions
      restoredPositions := source.restoredPositions.filter (fun key _ => key ∉ selected)
      pending := false}

/-- `_resume_format_index` -/
def resumeFormatIndex (key : PartitionKey) (offset : Int) (rowCount : Nat) : Except String Nat :=
  match source.formatInflight.get? key with
  | none => .ok 0
  | some (expected,next) =>
    if offset ≠ expected then .error "Formatted Kafka checkpoint expected another offset"
    else if next < 0 ∨ rowCount ≤ next then .error "Formatted Kafka checkpoint row cursor is outside the decoded message"
    else .ok next.toNat

/-- `_prepare_formatted_collect` -/
def prepareFormattedCollect (key : PartitionKey) (offset : Int) (index rowCount : Nat) : KafkaSource ρ :=
  if index + 1 = rowCount then
    {
      source with
      positions := source.positions.set key (offset + 1)
      formatInflight := source.formatInflight.erase key}
  else
    {
      source with
      positions := source.positions.set key offset
      formatInflight := source.formatInflight.set key (offset,index + 1)}

/-- `_finish_formatted_message` -/
def finishFormattedMessage (key : PartitionKey) (offset : Int) : KafkaSource ρ :=
  {
    source with
    positions := source.positions.set key (offset + 1)
    formatInflight := source.formatInflight.erase key}

def receive (key : PartitionKey) (offset : Int) (rows : List ρ) : Except String (KafkaSource ρ) := do
  let source := {source with fetch := source.fetch.set key (offset + 1)}
  let startIndex ← source.resumeFormatIndex key offset rows.length
  if rows = [] then return source.finishFormattedMessage key offset
  else return {source with current := some ⟨key,offset,rows,startIndex⟩}

def collect (emission : Emission ρ) : KafkaSource ρ :=
  let source := source.prepareFormattedCollect emission.key emission.offset emission.index emission.rows.length
  {
    source with
    current :=
      if emission.index + 1 < emission.rows.length then some ⟨emission.key,emission.offset,emission.rows,emission.index + 1⟩
      else none}

/-- `restore_state` up to its refresh. -/
def restore (positions : Positions) (inflight : Inflight) : KafkaSource ρ :=
  {
    source with
    restoredPositions := positions
    positions := source.positions.update positions.entries
    formatInflight := inflight
    pending := true}

def snapshot : SourceState := snapshotState .canalJson source.positions source.formatInflight

def point (key : PartitionKey) : Int × Nat :=
  ((source.positions.get? key).getD 0,((source.formatInflight.get? key).map (fun cursor => cursor.2.toNat)).getD 0)

end KafkaSource

/-- A partition since it was taken up: the row that it was taken up at, the rows emitted
since then and the row after them. -/
structure Reading (ρ : Type) where
  start : Int × Nat
  emitted : List ρ
  point : Int × Nat

structure SourceRun (ρ : Type) where
  source : KafkaSource ρ
  readings : Dict PartitionKey (Reading ρ)
  snapshots : List SourceState

namespace SourceRun
variable {ρ : Type} (config : SourceConfig) (log : Log ρ)

def initial : SourceRun ρ := ⟨.opened,∅,[]⟩

def begun (source : KafkaSource ρ) (positions : Positions) : Dict PartitionKey (Reading ρ) :=
  positions.mapValues (fun key _ => ⟨source.point key,[],source.point key⟩)

def advance (run : SourceRun ρ) (source : KafkaSource ρ) (key : PartitionKey) (rows : List ρ) : SourceRun ρ :=
  match run.readings.get? key with
  | none => {run with source := source}
  | some reading =>
    {run with source := source,readings := run.readings.set key ⟨reading.start,reading.emitted ++ rows,source.point key⟩}

def step (run : SourceRun ρ) : Action → Option (SourceRun ρ)
  | .refresh force partitions answers =>
    if run.source.stopped ∨ run.source.current.isSome ∨ (run.source.pending ∧ ¬ force) then none
    else
      let source := run.source.refreshAssignment config force partitions answers
      some {run with source := source,readings := (begun source source.positions).update run.readings.entries}
  | .poll key =>
    if run.source.stopped ∨ run.source.current.isSome ∨ run.source.pending then none
    else match run.source.fetch.get? key with
      | none => none
      | some position =>
        match (log.messages key).find? (fun message => position ≤ message.1) with
        | none => none
        | some (offset,rows) =>
          match run.source.receive key offset rows with
          | .error _ => none
          | .ok source => some (run.advance source key [])
  | .collect =>
    match run.source.current with
    | none => none
    | some emission =>
      match emission.rows[emission.index]? with
      | none => none
      | some row => some (run.advance (run.source.collect emission) emission.key [row])
  | .stop => some {run with source := {run.source with stopped := true}}
  | .snapshot => some {run with snapshots := run.snapshots ++ [run.source.snapshot]}
  | .restart => some {run with source := .opened,readings := ∅}
  | .restore index =>
    if run.source.current.isSome then none
    else match run.snapshots[index]? with
      | none => none
      | some state =>
        match restoredState .canalJson (some state) with
        | .error _ => none
        | .ok (positions,inflight) =>
          let source := run.source.restore positions inflight
          some {run with source := source,readings := run.readings.update (begun source positions).entries}

/-- What a step needs: a refresh leaves every partition with a cursor assigned, and goes
on with a partition that was read before where it was left; a restore meets no cursor. -/
def Sound (run : SourceRun ρ) : Action → Prop
  | .refresh force partitions answers =>
    let selected := KafkaSource.select config partitions
    ¬ force ∧ selected = run.source.assigned ∨
      (∀ key cursor, run.source.formatInflight.get? key = some cursor → key ∈ selected) ∧
        ∀ key ∈ selected, ∀ reading, run.readings.get? key = some reading →
          run.source.resolveAssignmentOffset config key (answers key) = reading.point.1
  | .restore _ => ∀ key, run.source.formatInflight.get? key = none
  | _ => True

section rest
variable {messages : List (Int × List ρ)}

theorem rest_split (before after : List (Int × List ρ)) (offset : Int) (rows : List ρ)
    (ordered : (before ++ (offset,rows)::after).Pairwise (fun one other => one.1 < other.1)) (position : Int) (index : Nat)
    (behind : ∀ message ∈ before, message.1 < position) (ahead : position ≤ offset) :
    rest (before ++ (offset,rows)::after) (position,index) =
      (if offset = position then rows.drop index else rows) ++ after.flatMap Prod.snd := by
  have later (message : Int × List ρ) (inside : message ∈ after) : offset < message.1 :=
    (pairwise_cons.mp (pairwise_append.mp ordered).2.1).1 message inside
  have none' : before.filter (fun message => decide (position ≤ message.1)) = [] := by
    refine filter_eq_nil_iff.mpr (fun message inside => ?_)
    have past := behind message inside
    simp only [decide_eq_true_eq]
    omega
  have all : after.filter (fun message => decide (position ≤ message.1)) = after := by
    refine List.filter_eq_self.mpr (fun message inside => ?_)
    have past := later message inside
    simp only [decide_eq_true_eq]
    omega
  unfold rest
  dsimp only
  rw [filter_append,none',nil_append,filter_cons_of_pos (by simpa using ahead),all,flatMap_cons]
  apply congrArg
  refine flatMap_congr (fun message inside => ?_)
  have past := later message inside
  rw [if_neg (by omega)]

section
variable (ordered : messages.Pairwise (fun one other => one.1 < other.1))
include ordered

theorem rest_message (offset : Int) (rows : List ρ)
    (inside : (offset,rows) ∈ messages) (index : Nat) :
    rest messages (offset,index) = rows.drop index ++ rest messages (offset + 1,0) := by
  obtain ⟨before,after,rfl⟩ := append_of_mem inside
  have earlier (message : Int × List ρ) (within : message ∈ before) : message.1 < offset :=
    (pairwise_append.mp ordered).2.2 message within _ mem_cons_self
  rw [rest_split before after offset rows ordered offset index earlier (by omega),if_pos rfl]
  apply congrArg
  unfold rest
  have past : before.filter (fun message => decide (offset + 1 ≤ message.1)) = [] := by
    refine filter_eq_nil_iff.mpr (fun message within => ?_)
    have behind := earlier message within
    simp only [decide_eq_true_eq]
    omega
  have later (message : Int × List ρ) (within : message ∈ after) : offset < message.1 :=
    (pairwise_cons.mp (pairwise_append.mp ordered).2.1).1 message within
  have all : after.filter (fun message => decide (offset + 1 ≤ message.1)) = after := by
    refine List.filter_eq_self.mpr (fun message within => ?_)
    have ahead := later message within
    simp only [decide_eq_true_eq]
    omega
  dsimp only
  rw [filter_append,past,nil_append,filter_cons_of_neg (by simp only [decide_eq_true_eq]; omega),all]
  exact (flatMap_congr (fun message _ => by simp)).symm

theorem rest_next (position offset : Int) (rows : List ρ)
    (found : messages.find? (fun message => position ≤ message.1) = some (offset,rows)) :
    rest messages (position,0) = rows ++ rest messages (offset + 1,0) := by
  have whole := rest_message ordered offset rows (mem_of_find?_eq_some found) 0
  obtain ⟨ahead,before,after,rfl,behind⟩ := find?_eq_some_iff_append.mp found
  have ahead : position ≤ offset := by simpa using ahead
  have split := rest_split before after offset rows ordered position 0 (fun message inside => by
    have past := behind message inside
    simpa using past) ahead
  have own := rest_split before after offset rows ordered offset 0
    (fun message inside => (pairwise_append.mp ordered).2.2 message inside _ mem_cons_self) (by omega)
  rw [drop_zero,ite_self] at split own
  rw [split,← own,whole]
  rfl

theorem find_message (offset : Int) (rows : List ρ)
    (inside : (offset,rows) ∈ messages) : messages.find? (fun message => offset ≤ message.1) = some (offset,rows) := by
  obtain ⟨before,after,rfl⟩ := append_of_mem inside
  refine find?_eq_some_iff_append.mpr ⟨by simp,before,after,rfl,fun message within => ?_⟩
  have past := (pairwise_append.mp ordered).2.2 message within _ mem_cons_self
  simpa using past

end

end rest

end SourceRun
end Klein.Kafka
