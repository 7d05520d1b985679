import Klein.Dict
import Klein.Runs
import Mathlib.Data.List.Sort
import Mathlib.Data.List.FinRange
import Mathlib.Logic.Function.Basic

/-! Rows that one input record spreads over, with their ranks, and the reducer that
gathers them again. Rows are emitted, processed in batches and delivered in any order and
any number of times, and a subtask may be rebuilt at any time. -/
namespace Klein.Dataflow.RankReduce
open List Option
variable {α κ : Type}

abbrev Block (α : Type) := Dict String α

/-- A row with its `__rank__` and `__id__`. The code has no `source`: it numbers the input record. -/
structure Row (α : Type) where
  block : Block α
  rank : Nat × Nat
  id : Nat × Nat
  source : Nat
deriving DecidableEq

abbrev Tag := Nat × (Nat × Nat) × (Nat × Nat)

def Row.tag (row : Row α) : Tag := (row.source,row.rank,row.id)

inductive MissingDataStrategy where
  | ignore
  | warning
  | error
deriving DecidableEq

structure FlatMapWithRankOperator where
  missingDataStrategy : MissingDataStrategy
  taskIndex : Nat
  innerId : Nat

namespace FlatMapWithRankOperator

/-- `open` of a subtask. -/
def opened (missingDataStrategy : MissingDataStrategy) (taskIndex : Nat) : FlatMapWithRankOperator := ⟨missingDataStrategy,taskIndex,0⟩

/-- `process_element` on what the function returned; nothing where it raises. -/
def processElement (o : FlatMapWithRankOperator) (source : Nat) (processed : List (Block α)) :
    Option (FlatMapWithRankOperator × List (Row α)) :=
  if processed = [] ∧ o.missingDataStrategy = .error then none
  else
    let innerId := (o.innerId + 1) % 2147483648
    some ({ o with innerId := innerId },
      processed.mapIdx (fun rank row => ⟨row,(rank + 1,processed.length),(o.taskIndex,innerId),source⟩))

end FlatMapWithRankOperator

/-- `BatchProcessOperator.process_element` on the rows of a batch; nothing where the columns differ in length. -/
def batchProcess (infer : List (Block α) → List (Block α)) (rows : List (Row α)) : Option (List (Row α)) :=
  let results := infer (rows.map Row.block)
  if results.length = rows.length then
    some (List.zipWith (fun row result => { row with block := result }) rows results)
  else none

structure ReduceCall (α : Type) where
  records : List (Row α)
  argument : Dict String (List α)
deriving DecidableEq

/-- The columns that the reduce function gets; nothing where a row lacks a column of the first. -/
def processData (records : List (Row α)) : Option (Dict String (List α)) := do
  let first ← records.head?
  let columns ← first.block.keys.mapM (fun column => do
    return (column,← records.mapM (fun item => item.block.get? column)))
  return Dict.ofList columns

structure ReduceOperator (α κ : Type) where
  keySelector : Row α → κ
  /-- A key in an f-string. -/
  format : κ → String

namespace ReduceOperator

def keyId (o : ReduceOperator α κ) (row : Row α) : String :=
  o.format (o.keySelector row) ++ "_" ++ toString row.id.1 ++ "_" ++ toString row.id.2

def group (o : ReduceOperator α κ) (keyRecords : Dict String (List (Row α))) (row : Row α) : List (Row α) :=
  (keyRecords.get? (o.keyId row)).getD []

def sortedRecords (records : List (Row α)) : List (Row α) := records.insertionSort (fun left right => left.rank.1 ≤ right.rank.1)

def processElement (o : ReduceOperator α κ) (keyRecords : Dict String (List (Row α))) (row : Row α) :
    Dict String (List (Row α)) × Option (ReduceCall α) :=
  let records := o.group keyRecords row ++ [row]
  if records.length = row.rank.2 then
    (keyRecords.erase (o.keyId row),(processData (sortedRecords records)).map (fun argument => ⟨sortedRecords records,argument⟩))
  else (keyRecords.set (o.keyId row) records,none)

end ReduceOperator

/-! ### Runs -/

structure Pipeline (α κ : Type) where
  missingDataStrategy : MissingDataStrategy
  infer : List (Block α) → List (Block α)
  reduce : ReduceOperator α κ

structure World (α : Type) where
  subtasks : Nat → FlatMapWithRankOperator
  /-- The rows of each input record. -/
  inputs : List (List (Row α))
  processed : List (Row α)
  keyRecords : Dict String (List (Row α))
  calls : List (ReduceCall α)

inductive Action (α : Type) where
  | process (taskIndex : Nat) (rows : List (Block α))
  | rebuild (taskIndex : Nat)
  | batch (rows : List Nat)
  | deliver (row : Nat)

namespace Pipeline
variable (p : Pipeline α κ)

def opened : World α where
  subtasks := FlatMapWithRankOperator.opened p.missingDataStrategy
  inputs := []
  processed := []
  keyRecords := ∅
  calls := []

def process (w : World α) (taskIndex : Nat) (rows : List (Block α)) : World α :=
  match (w.subtasks taskIndex).processElement w.inputs.length rows with
  | none => w
  | some (operator,emitted) =>
    { w with
      subtasks := Function.update w.subtasks taskIndex operator
      inputs := w.inputs ++ [emitted] }

def deliver (w : World α) (row : Row α) : World α :=
  let (keyRecords,call) := p.reduce.processElement w.keyRecords row
  { w with
    keyRecords := keyRecords
    calls := w.calls ++ call.toList }

def step (w : World α) : Action α → Option (World α)
  | .process taskIndex rows => some (process w taskIndex rows)
  | .rebuild taskIndex =>
    some { w with subtasks := Function.update w.subtasks taskIndex (.opened p.missingDataStrategy taskIndex) }
  | .batch indices =>
    (batchProcess p.infer (indices.filterMap (fun index => w.inputs.flatten[index]?))).map (fun results =>
      { w with processed := w.processed ++ results })
  | .deliver index => w.processed[index]?.map (deliver p w)

structure Rebuilds (w : World α) (call : ReduceCall α) : Prop where
  oneInput : ∃ rows ∈ w.inputs, call.records.map Row.tag = rows.map Row.tag
  ranks : call.records.map Row.rank = (List.range call.records.length).map (fun rank => (rank + 1,call.records.length))
  results : ∀ record ∈ call.records, record ∈ w.processed
  columns : processData call.records = some call.argument

/-- What waits under the key of a delivered row is of the same input record and of other ranks. -/
def Separate (w : World α) : Action α → Prop
  | .deliver index => ∀ row ∈ w.processed[index]?, ∀ pending ∈ p.reduce.group w.keyRecords row,
    pending.source = row.source ∧ pending.rank ≠ row.rank
  | _ => True

instance (w : World α) : DecidablePred (p.Separate w)
  | .deliver index => inferInstanceAs (Decidable (∀ row ∈ w.processed[index]?, ∀ pending ∈ p.reduce.group w.keyRecords row,
      pending.source = row.source ∧ pending.rank ≠ row.rank))
  | .process _ _ => .isTrue trivial
  | .rebuild _ => .isTrue trivial
  | .batch _ => .isTrue trivial

end Pipeline

/-! ### What the rows of one input look like -/

def tags (source count : Nat) (id : Nat × Nat) : List Tag := (List.range count).map (fun rank => (source,(rank + 1,count),id))

theorem mem_tags (source count : Nat) (id : Nat × Nat) (tag : Tag) :
    tag ∈ tags source count id ↔ ∃ rank < count, tag = (source,(rank + 1,count),id) := by
  simp only [tags,List.mem_map,mem_range,eq_comm (a := tag)]

theorem processElement_tags (o : FlatMapWithRankOperator) (source : Nat) (processed : List (Block α))
    (next : FlatMapWithRankOperator) (rows : List (Row α)) (done : o.processElement source processed = some (next,rows)) :
    ∃ count id, rows.map Row.tag = tags source count id := by
  unfold FlatMapWithRankOperator.processElement at done
  split at done
  next => cases done
  next =>
    cases done
    refine ⟨processed.length,(o.taskIndex,(o.innerId + 1) % 2147483648),?_⟩
    apply ext_getElem
    · simp [tags]
    · intro place left right
      simp [Row.tag,tags]

theorem batchProcess_tags (infer : List (Block α) → List (Block α)) (rows results : List (Row α))
    (done : batchProcess infer rows = some results) : results.map Row.tag = rows.map Row.tag := by
  unfold batchProcess at done
  dsimp only at done
  split at done
  next same =>
    cases done
    apply ext_getElem
    · simp [same]
    · intro place left right
      simp [Row.tag]
  next => cases done

theorem gathered (source count : Nat) (id : Nat × Nat) (records : List (Row α))
    (inside : ∀ record ∈ records, record.tag ∈ tags source count id) (distinct : (records.map Row.rank).Nodup)
    (full : records.length = count) : (ReduceOperator.sortedRecords records).map Row.tag = tags source count id := by
  have unlike : (records.map Row.tag).Nodup := by
    apply List.Nodup.of_map (fun tag : Tag => tag.2.1)
    rw [List.map_map]
    exact distinct
  have within : records.map Row.tag ⊆ tags source count id := by
    intro tag member
    obtain ⟨record,present,rfl⟩ := List.mem_map.mp member
    exact inside record present
  have whole : (records.map Row.tag).Perm (tags source count id) :=
    (subperm_of_subset unlike within).perm_of_length_le (by simp [tags,full])
  have sorted : ((ReduceOperator.sortedRecords records).map Row.tag).Perm (tags source count id) :=
    ((perm_insertionSort _ records).map Row.tag).trans whole
  have increasing : ((ReduceOperator.sortedRecords records).map Row.tag).Pairwise (fun left right => left.2.1.1 ≤ right.2.1.1) := by
    rw [pairwise_map]
    have total : Std.Total (fun (left right : Row α) => left.rank.1 ≤ right.rank.1) := ⟨fun left right => Nat.le_total _ _⟩
    have trans : IsTrans (Row α) (fun left right => left.rank.1 ≤ right.rank.1) := ⟨fun _ _ _ => Nat.le_trans⟩
    exact List.pairwise_insertionSort _ records
  have ordered : (tags source count id).Pairwise (fun left right => left.2.1.1 ≤ right.2.1.1) := by
    rw [tags,pairwise_map]
    exact pairwise_lt_range.imp (fun less => Nat.succ_le_succ (Nat.le_of_lt less))
  refine List.Perm.eq_of_pairwise (fun left right first second lower upper => ?_) increasing ordered sorted
  obtain ⟨rank,-,rfl⟩ := (mem_tags source count id left).mp (sorted.subset first)
  obtain ⟨other,-,rfl⟩ := (mem_tags source count id right).mp second
  have same : rank = other := by
    dsimp only at lower upper
    omega
  rw [same]

/-! ### The invariant -/

namespace Pipeline
variable (p : Pipeline α κ)

structure Inv (w : World α) : Prop where
  inputs : ∀ source rows, w.inputs[source]? = some rows → ∃ count id, rows.map Row.tag = tags source count id
  processed : ∀ row ∈ w.processed, row.tag ∈ w.inputs.flatten.map Row.tag
  groups : ∀ key group, w.keyRecords.get? key = some group →
    (∀ row ∈ group, row ∈ w.processed) ∧ (group.map Row.rank).Nodup ∧ ∃ source, ∀ row ∈ group, row.source = source
  calls : ∀ call ∈ w.calls, Rebuilds w call

theorem inv_opened : Inv p.opened := by
  refine ⟨?_,?_,?_,?_⟩
  · intro source rows found
    cases found
  · intro row member
    cases member
  · intro key group found
    cases found
  · intro call member
    cases member

theorem Inv.row {w : World α} (inv : Inv w) (row : Row α) (present : row ∈ w.processed) :
    ∃ rows count id, w.inputs[row.source]? = some rows ∧ rows.map Row.tag = tags row.source count id ∧
      row.tag ∈ tags row.source count id := by
  obtain ⟨original,member,same⟩ := List.mem_map.mp (inv.processed row present)
  obtain ⟨rows,inside,member⟩ := mem_flatten.mp member
  obtain ⟨source,found⟩ := mem_iff_getElem?.mp inside
  obtain ⟨count,id,shape⟩ := inv.inputs source rows found
  have tagged : row.tag ∈ tags source count id := by
    rw [← same,← shape]
    exact List.mem_map_of_mem member
  have numbered : row.source = source := by
    obtain ⟨rank,-,equal⟩ := (mem_tags source count id row.tag).mp tagged
    exact congrArg Prod.fst equal
  subst numbered
  exact ⟨rows,count,id,found,shape,tagged⟩

theorem Rebuilds.later {w later : World α} {call : ReduceCall α} (rebuilds : Rebuilds w call)
    (inputs : w.inputs ⊆ later.inputs) (processed : w.processed ⊆ later.processed) : Rebuilds later call := by
  obtain ⟨⟨rows,member,same⟩,ranks,results,columns⟩ := rebuilds
  exact ⟨⟨rows,inputs member,same⟩,ranks,fun record inside => processed (results record inside),columns⟩

theorem inv_deliver (w : World α) (index : Nat) (row : Row α) (inv : Inv w) (found : w.processed[index]? = some row)
    (separate : p.Separate w (.deliver index)) : Inv (deliver p w row) := by
  have present : row ∈ w.processed := mem_of_getElem? found
  have apart := separate row found
  have waiting : (∀ other ∈ p.reduce.group w.keyRecords row, other ∈ w.processed) ∧
      ((p.reduce.group w.keyRecords row).map Row.rank).Nodup := by
    unfold ReduceOperator.group
    cases known : w.keyRecords.get? (p.reduce.keyId row) with
    | none => simp
    | some group => exact ⟨(inv.groups _ group known).1,(inv.groups _ group known).2.1⟩
  have allProcessed : ∀ other ∈ p.reduce.group w.keyRecords row ++ [row], other ∈ w.processed := by
    intro other member
    obtain member | member := mem_append.mp member
    · exact waiting.1 other member
    · exact mem_singleton.mp member ▸ present
  have oneSource : ∀ other ∈ p.reduce.group w.keyRecords row ++ [row], other.source = row.source := by
    intro other member
    obtain member | member := mem_append.mp member
    · exact (apart other member).1
    · rw [mem_singleton.mp member]
  have distinct : ((p.reduce.group w.keyRecords row ++ [row]).map Row.rank).Nodup := by
    rw [map_append,map_singleton,nodup_append_comm,singleton_append,nodup_cons]
    refine ⟨?_,waiting.2⟩
    intro again
    obtain ⟨pending,member,same⟩ := List.mem_map.mp again
    exact (apart pending member).2 same
  unfold deliver ReduceOperator.processElement
  dsimp only
  split
  next full =>
    obtain ⟨rows,count,id,known,shape,tagged⟩ := inv.row row present
    have inside : ∀ other ∈ p.reduce.group w.keyRecords row ++ [row], other.tag ∈ tags row.source count id := by
      intro other member
      obtain ⟨rows',count',id',known',shape',tagged'⟩ := inv.row other (allProcessed other member)
      rw [oneSource other member] at known' shape' tagged'
      cases known.symm.trans known'
      rw [← shape,shape']
      exact tagged'
    have total : row.rank.2 = count := by
      obtain ⟨rank,-,same⟩ := (mem_tags row.source count id row.tag).mp tagged
      exact congrArg (fun tag : Tag => tag.2.1.2) same
    have rebuilt := gathered row.source count id _ inside distinct (full.trans total)
    have size : (ReduceOperator.sortedRecords (p.reduce.group w.keyRecords row ++ [row])).length = count := by
      rw [ReduceOperator.sortedRecords,length_insertionSort,full,total]
    refine ⟨inv.inputs,inv.processed,fun key group gathered => ?_,fun call member => ?_⟩
    · rw [Dict.get?_erase] at gathered
      split at gathered
      next => cases gathered
      next => exact inv.groups key group gathered
    · obtain member | member := mem_append.mp member
      · exact (inv.calls call member).later (List.Subset.refl _) (List.Subset.refl _)
      · obtain ⟨argument,columns,rfl⟩ := map_eq_some_iff.mp (mem_toList.mp member)
        refine ⟨⟨rows,mem_of_getElem? known,rebuilt.trans shape.symm⟩,?_,?_,columns⟩
        · have ranked := congrArg (List.map (fun tag : Tag => tag.2.1)) rebuilt
          rw [List.map_map,tags,List.map_map] at ranked
          rw [size]
          exact ranked
        · intro record inside
          exact allProcessed record ((mem_insertionSort _).mp inside)
  next short =>
    refine ⟨inv.inputs,inv.processed,fun key group gathered => ?_,fun call member => ?_⟩
    · rw [Dict.get?_set] at gathered
      split at gathered
      next =>
        cases gathered
        exact ⟨allProcessed,distinct,row.source,oneSource⟩
      next => exact inv.groups key group gathered
    · rw [toList_none,append_nil] at member
      exact (inv.calls call member).later (List.Subset.refl _) (List.Subset.refl _)

theorem inv_process (w : World α) (taskIndex : Nat) (rows : List (Block α)) (inv : Inv w) : Inv (process w taskIndex rows) := by
  unfold process
  split
  next => exact inv
  next operator emitted done =>
    have more : w.inputs ⊆ w.inputs ++ [emitted] := subset_append_left _ _
    refine ⟨fun source rows found => ?_,fun row member => ?_,inv.groups,fun call member => (inv.calls call member).later more (List.Subset.refl _)⟩
    · by_cases early : source < w.inputs.length
      · rw [getElem?_append_left early] at found
        exact inv.inputs source rows found
      · rw [getElem?_append_right (Nat.le_of_not_lt early)] at found
        rw [getElem?_singleton] at found
        split at found
        next zero =>
          cases found
          have last : source = w.inputs.length := by omega
          rw [last]
          exact processElement_tags _ _ _ _ _ done
        next => cases found
    · have known := inv.processed row member
      rw [flatten_append,map_append]
      exact mem_append_left _ known

theorem inv_step (w next : World α) (action : Action α) (inv : Inv w) (separate : p.Separate w action) (taken : p.step w action = some next) :
    Inv next := by
  cases action with
  | process taskIndex rows =>
    cases taken
    exact inv_process w taskIndex rows inv
  | rebuild taskIndex =>
    cases taken
    exact {inv with
      calls := fun call member => (inv.calls call member).later (List.Subset.refl _) (List.Subset.refl _)}
  | batch indices =>
    obtain ⟨results,done,rfl⟩ := map_eq_some_iff.mp taken
    have more : w.processed ⊆ w.processed ++ results := subset_append_left _ _
    refine ⟨inv.inputs,fun row member => ?_,fun key group found => ?_,fun call member => (inv.calls call member).later (List.Subset.refl _) more⟩
    · obtain member | member := mem_append.mp member
      · exact inv.processed row member
      · have same := batchProcess_tags p.infer _ results done
        have tagged : row.tag ∈ (indices.filterMap (fun index => w.inputs.flatten[index]?)).map Row.tag := same ▸ List.mem_map_of_mem member
        obtain ⟨original,chosen,tag⟩ := List.mem_map.mp tagged
        obtain ⟨index,-,found⟩ := mem_filterMap.mp chosen
        exact List.mem_map.mpr ⟨original,mem_of_getElem? found,tag⟩
    · obtain ⟨present,distinct,source⟩ := inv.groups key group found
      exact ⟨fun row inside => more (present row inside),distinct,source⟩
  | deliver index =>
    obtain ⟨row,found,rfl⟩ := map_eq_some_iff.mp taken
    exact inv_deliver p w index row inv found separate

/-- In every run whose deliveries find only other ranks of their own input waiting, each call of the reduce
function has the rows of one input record, each rank once and in order. -/
theorem reduce_calls_rebuild_inputs (actions : List (Action α)) (final : World α)
    (separate : Runs.Along p.step p.Separate p.opened actions) (run : Runs.exec p.step p.opened actions = some final) :
    ∀ call ∈ final.calls, Rebuilds final call := by
  have inv := Runs.exec_invariant p.step p.Separate Inv (fun w action next inv separate taken => inv_step p w next action inv separate taken)
    actions p.opened final (inv_opened p) separate run
  exact inv.calls

end Pipeline

/-! ### Replays and rebuilds -/

def cell (value : Nat) : Block Nat := Dict.ofList [("value",value)]

def oneKey : Pipeline Nat Nat where
  missingDataStrategy := .error
  infer rows := rows
  reduce := ⟨fun _ => 7,toString⟩

def swapped : List (Action Nat) := [.process 0 [cell 5,cell 6],.batch [0,1],.deliver 1,.deliver 0]

theorem swapped_rows_rebuild_the_input : ∃ final, Runs.exec oneKey.step oneKey.opened swapped = some final ∧
    final.calls.map (fun call => call.records.map Row.rank) = [[(1,2),(2,2)]] ∧ ∀ call ∈ final.calls, Pipeline.Rebuilds final call := by
  obtain ⟨final,run,calls⟩ := Runs.exec_check oneKey.step oneKey.opened swapped
    (fun final => final.calls.map (fun call => call.records.map Row.rank) = [[(1,2),(2,2)]]) (by decide +kernel)
  exact ⟨final,run,calls,Pipeline.reduce_calls_rebuild_inputs oneKey swapped final (by decide +kernel) run⟩

def replayed : List (Action Nat) := [.process 0 [cell 5,cell 6],.batch [0,1],.deliver 0,.deliver 0]

def rebuilt : List (Action Nat) :=
  [.process 0 [cell 5,cell 6],.batch [0],.deliver 0,.rebuild 0,.process 0 [cell 8,cell 9],.batch [3],.deliver 1]

theorem replay_and_rebuild_mix_rows :
    (∃ final, Runs.exec oneKey.step oneKey.opened replayed = some final ∧
      ∃ call ∈ final.calls, call.records.map Row.rank = [(1,2),(1,2)] ∧ ¬ Pipeline.Rebuilds final call) ∧
    ∃ final, Runs.exec oneKey.step oneKey.opened rebuilt = some final ∧
      ∃ call ∈ final.calls, call.records.map Row.source = [0,1] ∧ ¬ Pipeline.Rebuilds final call := by
  constructor
  · obtain ⟨final,run,call,member,ranks,foreign⟩ := Runs.exec_check oneKey.step oneKey.opened replayed
      (fun final => ∃ call ∈ final.calls, call.records.map Row.rank = [(1,2),(1,2)] ∧
        ∀ rows ∈ final.inputs, call.records.map Row.tag ≠ rows.map Row.tag) (by decide +kernel)
    refine ⟨final,run,call,member,ranks,fun rebuilds => ?_⟩
    obtain ⟨rows,inside,same⟩ := rebuilds.oneInput
    exact foreign rows inside same
  · obtain ⟨final,run,call,member,sources,foreign⟩ := Runs.exec_check oneKey.step oneKey.opened rebuilt
      (fun final => ∃ call ∈ final.calls, call.records.map Row.source = [0,1] ∧
        ∀ rows ∈ final.inputs, call.records.map Row.tag ≠ rows.map Row.tag) (by decide +kernel)
    refine ⟨final,run,call,member,sources,fun rebuilds => ?_⟩
    obtain ⟨rows,inside,same⟩ := rebuilds.oneInput
    exact foreign rows inside same

end Klein.Dataflow.RankReduce
