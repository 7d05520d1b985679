import Klein.Dataflow.EdgeOutput
import Klein.Dataflow.WirePacking

/-! Blocks as the rows they hold, in whatever columns. The rows of a record and their
event timestamps travel together through batches, slices and the wire. -/
namespace Klein.Dataflow
open Fallible List Option
variable {α : Type}

structure BlockTraits (α : Type) where
  retainedSize : Record (List α) → Nat
  validateRecord : Record (List α) → Option String
  validateColumns : List α → Option String
  rowKind : Record (List α) → Option String
  arrowPackable : Record (List α) → Bool
  wireCompatible : Record (List α) → Record (List α) → Bool
  convertible : List (Record (List α)) → Bool

/-- `InputBatchAccumulator._merge`; what a row holds in a column that it lacks is left out. -/
def mergeRecords (rowKind : Record (List α) → Option String) (records : List (Record (List α))) :
    Except String (Record (List α)) :=
  match records with
  | [] => .error "list index out of range"
  | first::_ => do
    let kinds ← combinedRowKinds rowKind records
    let timestamps ← combinedRowTimestamps records
    return stamp {
      block := records.flatMap Record.block
      numRows := if records.any Record.isColumnar then some (rowsOf records) else none
      inputTag := if records.all (fun record => record.inputTag = first.inputTag) then first.inputTag else none
      rowKinds := kinds
      rowTimestamps := none
      timestamp := none} timestamps

def rowOps (traits : BlockTraits α) : WireOps (List α) where
  retainedSize := traits.retainedSize
  sliceRows := fun block start stop => (block.drop start).take (stop - start)
  rowBlock := fun block index _ => (block[index]?).toList
  merge := mergeRecords traits.rowKind
  numRows := List.length
  validateRecord := traits.validateRecord
  validateColumns := traits.validateColumns
  selectRows := fun block indices => indices.filterMap (fun index => block[index]?)
  rowKind := traits.rowKind
  arrowPackable := traits.arrowPackable
  wireCompatible := traits.wireCompatible
  convertRun := fun records => if traits.convertible records then some (records.flatMap Record.block) else none

def stamps (record : Record (List α)) : List (Option Int) :=
  record.rowTimestamps.getD (List.replicate record.rows record.timestamp)

/-- Each row has a timestamp of its own that `fits` it. -/
structure Stamped (fits : α → Option Int → Prop) (record : Record (List α)) : Prop where
  rows : List.Forall₂ fits record.block (stamps record)
  counted : (stamps record).length = record.rows
  rowShaped : record.numRows = none → record.rowTimestamps = none

variable (fits : α → Option Int → Prop)

section
variable (record : Record (List α))
include record

theorem Stamped.length (stamped : Stamped fits record) : record.block.length = record.rows :=
  stamped.rows.length_eq.trans stamped.counted

theorem Stamped.single (none : record.rowTimestamps = none)
    (length : record.block.length = record.rows) (all : ∀ row ∈ record.block, fits row record.timestamp) :
    Stamped fits record := by
  have same : stamps record = List.replicate record.block.length record.timestamp := by
    unfold stamps
    rw [none,length]
    rfl
  refine ⟨?_,by rw [same,length_replicate,length],fun _ => none⟩
  rw [same]
  generalize record.block = block at all
  induction block with
  | nil => exact .nil
  | cons row rest ih =>
    obtain ⟨here,later⟩ := forall_mem_cons.mp all
    exact .cons here (ih later)

theorem Stamped.all (none : record.rowTimestamps = none) (stamped : Stamped fits record) :
    ∀ row ∈ record.block, fits row record.timestamp := by
  have rows := stamped.rows
  unfold stamps at rows
  rw [none] at rows
  intro row inside
  obtain ⟨index,less,rfl⟩ := getElem_of_mem inside
  have there := (forall₂_iff_get.mp rows).2 index less (by rw [← rows.length_eq]; exact less)
  simpa using there

theorem Stamped.at (stamped : Stamped fits record) (index : Nat) (less : index < record.rows) :
    ∃ row, record.block[index]? = some row ∧ fits row (((stamps record)[index]?).join) := by
  have length := stamped.length
  have counted := stamped.counted
  have there := (forall₂_iff_get.mp stamped.rows).2 index (by omega) (by omega)
  refine ⟨record.block[index],getElem?_eq_getElem (by omega),?_⟩
  rw [getElem?_eq_getElem (by omega)]
  exact there

end

theorem Stamped.slice (traits : BlockTraits α) (record : Record (List α)) (stamped : Stamped fits record)
    (indices : List Nat) (inside : ∀ index ∈ indices, index < record.rows) :
    Stamped fits (RecordRouter.slice (rowOps traits).toRouteOps record indices) := by
  have same : stamps (RecordRouter.slice (rowOps traits).toRouteOps record indices) =
      indices.map (fun index => ((stamps record)[index]?).join) := by
    unfold stamps RecordRouter.slice
    dsimp only
    cases record.rowTimestamps with
    | some timestamps => rfl
    | none =>
      refine ext_getElem (by simp [Record.rows]) (fun position short _ => ?_)
      have known : position < indices.length := by simpa [Record.rows] using short
      have less := inside indices[position] (getElem_mem known)
      simp [Record.rows] at less ⊢
      simp [less]
  refine ⟨?_,by rw [same]; simp [RecordRouter.slice,Record.rows],fun impossible => by cases impossible⟩
  rw [same]
  change List.Forall₂ fits (indices.filterMap (fun index => record.block[index]?)) _
  clear same
  induction indices with
  | nil => exact .nil
  | cons index rest ih =>
    obtain ⟨here,later⟩ := forall_mem_cons.mp inside
    obtain ⟨row,found,fit⟩ := stamped.at fits record index here
    rw [filterMap_cons_some found,map_cons]
    exact .cons fit (ih later)

theorem combinedRowTimestamps_eq (records : List (Record (List α)))
    (counted : ∀ record ∈ records, (stamps record).length = record.rows) :
    combinedRowTimestamps records = .ok (records.flatMap stamps) := by
  induction records with
  | nil => rfl
  | cons record rest ih =>
    obtain ⟨here,later⟩ := forall_mem_cons.mp counted
    rw [combinedRowTimestamps]
    unfold stamps at here
    cases held : record.rowTimestamps with
    | none =>
      rw [flatMap_cons,ih later]
      simp only [stamps,held]
      rfl
    | some timestamps =>
      rw [held] at here
      rw [flatMap_cons,ih later]
      simp only [stamps,held,ne_eq,getD_some] at here ⊢
      rw [if_neg (by simpa using here)]
      rfl

theorem Stamped.flatMap (records : List (Record (List α))) (stamped : ∀ record ∈ records, Stamped fits record) :
    List.Forall₂ fits (records.flatMap Record.block) (records.flatMap stamps) := by
  induction records with
  | nil => exact .nil
  | cons record rest ih =>
    obtain ⟨here,later⟩ := forall_mem_cons.mp stamped
    rw [flatMap_cons,flatMap_cons]
    exact rel_append here.rows (ih later)

theorem Stamped.stamp (record : Record (List α)) (none : record.rowTimestamps = none)
    (columnar : record.numRows = some record.block.length) (timestamps : List (Option Int))
    (rows : List.Forall₂ fits record.block timestamps) : Stamped fits (stamp record timestamps) := by
  have length : record.block.length = record.rows := by
    unfold Record.rows
    rw [columnar]
    rfl
  have taken : stamps (Dataflow.stamp record timestamps) = timestamps ∧
      (Dataflow.stamp record timestamps).numRows = record.numRows ∧
        (Dataflow.stamp record timestamps).block = record.block := by
    cases timestamps with
    | nil =>
      have empty : record.rows = 0 := by rw [← length,rows.length_eq]; rfl
      exact ⟨by simp [Dataflow.stamp,stamps,none,empty],rfl,rfl⟩
    | cons first rest =>
      by_cases same : rest.all (fun timestamp => timestamp = first) = true
      · simp only [Dataflow.stamp,if_pos same]
        have all : first::rest = List.replicate (rest.length + 1) first :=
          eq_replicate_iff.mpr ⟨rfl,forall_mem_cons.mpr ⟨rfl,by simpa using same⟩⟩
        have count := rows.length_eq
        rw [length_cons] at count
        refine ⟨?_,trivial,trivial⟩
        rw [all,← count,length]
        simp only [stamps,none,getD_none]
        rfl
      · simp only [Dataflow.stamp,if_neg same]
        exact ⟨rfl,trivial,trivial⟩
  obtain ⟨stampsAre,columns,block⟩ := taken
  refine ⟨?_,?_,?_⟩
  · rw [stampsAre,block]
    exact rows
  · unfold Record.rows
    rw [stampsAre,columns,columnar,← rows.length_eq]
    rfl
  · rw [columns,columnar]
    exact fun impossible => by cases impossible

section wire
variable (traits : BlockTraits α)

theorem Stamped.convert (records : List (Record (List α))) (stamped : ∀ record ∈ records, Stamped fits record)
    (merged : Record (List α)) (converted : (rowOps traits).convertWireRun records = .ok (some merged)) :
    Stamped fits merged := by
  unfold WireOps.convertWireRun at converted
  split at converted
  next first rest block held =>
    obtain ⟨kinds,-,converted⟩ := bind_ok converted
    obtain ⟨timestamps,combined,same⟩ := bind_ok converted
    have all := combinedRowTimestamps_eq (first::rest) (fun record inside => (stamped record inside).counted)
    cases combined.symm.trans all
    obtain rfl := some.inj (Except.ok.inj same)
    have block' : block = (first::rest).flatMap Record.block := by
      dsimp only [rowOps] at held
      split at held
      · exact (some.inj held).symm
      · contradiction
    apply Stamped.stamp fits _ rfl rfl
    dsimp only
    rw [block']
    exact Stamped.flatMap fits (first::rest) stamped
  · cases converted

theorem Stamped.flush (run : List (Record (List α))) (stamped : ∀ record ∈ run, Stamped fits record)
    (packed : List (Record (List α))) (flushed : (rowOps traits).flushWireRun run = .ok packed) :
    ∀ record ∈ packed, Stamped fits record := by
  obtain ⟨converted,did,flushed⟩ := bind_ok flushed
  cases converted with
  | some merged =>
    cases flushed
    simpa using Stamped.convert fits traits run stamped merged did
  | none =>
    intro record inside
    obtain ⟨source,within,one⟩ := mem_of_mapM_ok _ _ _ flushed record inside
    obtain ⟨converted,did',same⟩ := bind_ok one
    cases same
    cases converted with
    | some merged => exact Stamped.convert fits traits [source] (by simpa using stamped source within) merged did'
    | none => exact stamped source within

theorem Stamped.packFrom (run records : List (Record (List α))) (stamped : ∀ record ∈ run ++ records, Stamped fits record)
    (packed : List (Record (List α))) (done : (rowOps traits).packFrom run records = .ok packed) :
    ∀ record ∈ packed, Stamped fits record := by
  induction records generalizing run packed with
  | nil =>
    rw [append_nil] at stamped
    exact Stamped.flush fits traits run stamped packed done
  | cons record rest ih =>
    obtain ⟨before,after⟩ := forall_mem_append.mp stamped
    obtain ⟨here,later⟩ := forall_mem_cons.mp after
    rw [WireOps.packFrom] at done
    split at done
    · obtain ⟨first,flushed,done⟩ := bind_ok done
      obtain ⟨others,packs,same⟩ := bind_ok done
      cases same
      refine forall_mem_append.mpr ⟨Stamped.flush fits traits run before first flushed,forall_mem_cons.mpr ⟨here,?_⟩⟩
      exact ih [] later others packs
    · split at done
      · obtain ⟨first,flushed,done⟩ := bind_ok done
        obtain ⟨others,packs,same⟩ := bind_ok done
        cases same
        refine forall_mem_append.mpr ⟨Stamped.flush fits traits run before first flushed,?_⟩
        exact ih [record] (forall_mem_cons.mpr ⟨here,later⟩) others packs
      · refine ih (run ++ [record]) ?_ packed done
        rw [append_assoc]
        exact stamped

theorem Stamped.prepare (arrowTransportEnabled : Bool) (records : List (Record (List α)))
    (stamped : ∀ record ∈ records, Stamped fits record) (packed : List (Record (List α)))
    (done : (rowOps traits).prepareWireRecords arrowTransportEnabled records = .ok packed) :
    ∀ record ∈ packed, Stamped fits record := by
  unfold WireOps.prepareWireRecords at done
  split at done
  · exact Stamped.packFrom fits traits [] records stamped packed done
  · cases done
    exact stamped

private def ownRows (record : Record (List α)) : List (Record (List α)) :=
  (List.range record.rows).map (fun index => {record with
    block := (rowOps traits).rowBlock record.block index ((record.rowKinds.bind (fun kinds => kinds[index]?)).join)
    numRows := none
    rowKinds := none
    rowTimestamps := none
    timestamp := match record.rowTimestamps with
      | some timestamps => (timestamps[index]?).join
      | none => record.timestamp})

private theorem unbatched_columnar (record : Record (List α)) (rows : List (Record (List α))) (columnar : record.isColumnar)
    (done : InputBatchAccumulator.unbatched (rowOps traits).toBlockOps record = .ok rows) : rows = ownRows traits record := by
  unfold InputBatchAccumulator.unbatched at done
  rw [if_neg (not_not_intro columnar)] at done
  unfold ownRows
  generalize record.rowKinds = kinds at done ⊢
  cases kinds with
  | none =>
    obtain ⟨_,-,same⟩ := bind_ok done
    exact (Except.ok.inj same).symm
  | some kinds =>
    dsimp only at done
    by_cases unequal : kinds.length ≠ record.rows ∧ 0 < record.rows
    · rw [if_pos unequal] at done
      cases done
    · rw [if_neg unequal] at done
      obtain ⟨_,-,same⟩ := bind_ok done
      exact (Except.ok.inj same).symm

theorem Stamped.unbatched (record : Record (List α)) (stamped : Stamped fits record) (rows : List (Record (List α)))
    (done : InputBatchAccumulator.unbatched (rowOps traits).toBlockOps record = .ok rows) :
    ∀ row ∈ rows, Stamped fits row ∧ row.rowTimestamps = none := by
  by_cases columnar : record.isColumnar
  case neg =>
    unfold InputBatchAccumulator.unbatched at done
    rw [if_pos columnar] at done
    cases done
    have none : record.numRows = none := by simpa [Record.isColumnar] using columnar
    simpa using ⟨stamped,stamped.rowShaped none⟩
  case pos =>
    intro row inside
    rw [unbatched_columnar traits record rows columnar done,ownRows] at inside
    obtain ⟨index,known,rfl⟩ := List.mem_map.mp inside
    obtain ⟨value,found,fit⟩ := stamped.at fits record index (mem_range.mp known)
    refine ⟨Stamped.single fits _ rfl ?_ ?_,rfl⟩
    · dsimp only [rowOps,Record.rows]
      rw [found]
      rfl
    · dsimp only [rowOps]
      rw [found]
      intro other here
      obtain rfl := mem_singleton.mp here
      unfold stamps at fit
      cases held : record.rowTimestamps with
      | some timestamps =>
        rw [held] at fit
        exact fit
      | none =>
        rw [held,getD_none,getElem?_replicate,if_pos (mem_range.mp known)] at fit
        exact fit

end wire
end Klein.Dataflow
