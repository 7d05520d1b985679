import Klein.Dataflow.RecordRouter

/-! Wire batches (`_pack_wire_records` of `edge_output.py`): contiguous records that go
together become one Arrow batch, records that Arrow cannot hold stay as they are. -/
namespace Klein.Dataflow

/-- `convertRun` is the Arrow batch of a run of records, if there is one; `rowKind` the
kind of a changelog row. -/
structure WireOps (β : Type) extends RouteOps β where
  rowKind : Record β → Option String
  arrowPackable : Record β → Bool
  wireCompatible : Record β → Record β → Bool
  convertRun : List (Record β) → Option β

section combined
variable {β : Type}

/-- `_combined_row_timestamps` -/
def combinedRowTimestamps : List (Record β) → Except String (List (Option Int))
  | [] => .ok []
  | record::rest => do
    let timestamps ← match record.rowTimestamps with
      | some timestamps =>
        if timestamps.length ≠ record.rows then
          throw ("record has " ++ toString timestamps.length ++ " row timestamps for " ++ toString record.rows ++
            " logical rows")
        else pure timestamps
      | none => pure (List.replicate record.rows record.timestamp)
    return timestamps ++ (← combinedRowTimestamps rest)

variable (rowKind : Record β → Option String)

/-- The loop of `_combined_row_kinds`. -/
def rowKindsOf : List (Record β) → Except String (List (Option String))
  | [] => .ok []
  | record::rest => do
    let kinds ← match record.rowKinds with
      | some kinds =>
        if kinds.length ≠ record.rows then
          throw ("record has " ++ toString kinds.length ++ " row kinds for " ++ toString record.rows ++ " logical rows")
        else pure kinds
      | none => pure (List.replicate record.rows (if record.isColumnar then none else rowKind record))
    return kinds ++ (← rowKindsOf rest)

def combinedRowKinds (records : List (Record β)) : Except String (Option (List (Option String))) := do
  let kinds ← rowKindsOf rowKind records
  return if kinds.any Option.isSome then some kinds else none

def stamp (record : Record β) : List (Option Int) → Record β
  | [] => record
  | first::rest =>
    if rest.all (fun timestamp => timestamp = first) then {record with timestamp := first}
    else {record with rowTimestamps := some (first::rest)}

end combined

namespace WireOps
variable {β : Type} (ops : WireOps β)

/-- `_convert_wire_run` -/
def convertWireRun (records : List (Record β)) : Except String (Option (Record β)) :=
  match records,ops.convertRun records with
  | first::_,some block => do
    let kinds ← combinedRowKinds ops.rowKind records
    let timestamps ← combinedRowTimestamps records
    return some (stamp ⟨block,some (ops.numRows block),first.inputTag,kinds,none,none⟩ timestamps)
  | _,_ => .ok none

def convertOne (record : Record β) : Except String (Record β) := do
  return (← ops.convertWireRun [record]).getD record

/-- `_flush_wire_run` -/
def flushWireRun (run : List (Record β)) : Except String (List (Record β)) := do
  match ← ops.convertWireRun run with
  | some merged => return [merged]
  | none => run.mapM ops.convertOne

/-- The loop of `_pack_wire_records` with the run that it is collecting. -/
def packFrom (run : List (Record β)) : List (Record β) → Except String (List (Record β))
  | [] => ops.flushWireRun run
  | record::rest => do
    if ¬ ops.arrowPackable record then
      let packed ← ops.flushWireRun run
      return packed ++ record::(← packFrom [] rest)
    else if run.getLast?.any (fun last => ¬ ops.wireCompatible last record) then
      let packed ← ops.flushWireRun run
      return packed ++ (← packFrom [record] rest)
    else packFrom (run ++ [record]) rest

def packWireRecords (records : List (Record β)) : Except String (List (Record β)) := ops.packFrom [] records

/-- `_prepare_wire_records` -/
def prepareWireRecords (arrowTransportEnabled : Bool) (records : List (Record β)) : Except String (List (Record β)) :=
  if arrowTransportEnabled then ops.packWireRecords records else .ok records

end WireOps
end Klein.Dataflow
