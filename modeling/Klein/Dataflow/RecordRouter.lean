import Klein.Dataflow.Operators

/-! `runtime/collector/record_router.py` over a task-local partitioner. The router is a
generator: what it yields before it raises has already been taken in. -/
namespace Klein.Dataflow
open Fallible List

/-- A task-local partitioner with its cursor `π`; targets are unchecked integers. -/
structure Partitioner (π β : Type) where
  name : String
  partition : π → Record β → Except String (List Int × π)
  partitionColumnar : π → Record β → Nat → Except String (List (Int × Option (List Int)) × π)
  retryTargets : Int → Except String (List Int)

structure RouteOps (β : Type) extends ColumnOps β where
  selectRows : β → List Nat → β

structure RecordRouter (π β : Type) where
  partitioner : Partitioner π β
  targetCount : Nat
  controlTargetIndices : List Nat

structure Yielded (α : Type) where
  items : List α
  raised : Option String

def Yielded.cons {α : Type} (item : α) (later : Yielded α) : Yielded α := ⟨item::later.items,later.raised⟩

namespace RecordRouter
variable {π β : Type} (ops : RouteOps β) (router : RecordRouter π β)

/-- `_validate_target` -/
def validateTarget (context : String) (target : Int) : Except String Nat :=
  if target < 0 ∨ (router.targetCount : Int) ≤ target then
    .error (router.partitioner.name ++ " " ++ context ++ " target " ++ toString target ++ " is outside [0, " ++
      toString router.targetCount ++ ")")
  else if target.toNat ∉ router.controlTargetIndices then
    .error (router.partitioner.name ++ " routed data to target " ++ toString target ++
      ", which is outside its control topology " ++ toString router.controlTargetIndices)
  else .ok target.toNat

/-- `_validate_targets` -/
def validateTargets (context : String) : List Int → List Nat → Except String (List Nat)
  | [],seen => .ok seen
  | target::rest,seen => do
    let target ← router.validateTarget context target
    if target ∈ seen then
      throw (router.partitioner.name ++ " " ++ context ++ " contains duplicate target " ++ toString target)
    validateTargets context rest (seen ++ [target])

/-- `retry_ring`; the decision does not depend on the cursor, so the cache is left out. -/
def retryRing (initialTarget : Nat) : Except String (List Nat) := do
  let targets ← router.partitioner.retryTargets initialTarget
  let ring ← router.validateTargets ("retry ring for target " ++ toString initialTarget) targets []
  if ring.head? ≠ some initialTarget then
    throw (router.partitioner.name ++ " retry ring must start with initial target " ++ toString initialTarget ++
      ": " ++ toString ring)
  return ring

def yieldTo (target : Nat) (routed : Record β) (later : Yielded (Nat × List Nat × Record β)) :
    Yielded (Nat × List Nat × Record β) :=
  match router.retryRing target with
  | .error text => ⟨[],some text⟩
  | .ok ring => later.cons (target,ring,routed)

def yieldRows (record : Record β) : List Nat → Yielded (Nat × List Nat × Record β)
  | [] => ⟨[],none⟩
  | target::rest => router.yieldTo target record (yieldRows record rest)

/-- `_route_row` -/
def routeRow (cursor : π) (record : Record β) : Except String (Yielded (Nat × List Nat × Record β) × π) := do
  let (targets,cursor) ← router.partitioner.partition cursor record
  let targets ← router.validateTargets "row route" targets []
  if targets = [] then throw (router.partitioner.name ++ " produced an empty row route")
  return (router.yieldRows record targets,cursor)

/-- `_validate_row_indices` -/
def validateRowIndices (numRows : Nat) (target : Nat) : List Int → List Nat → Except String (List Nat)
  | [],seen =>
    if seen = [] then
      .error (router.partitioner.name ++ " returned an empty row slice for target " ++ toString target)
    else .ok seen
  | index::rest,seen =>
    if index < 0 ∨ (numRows : Int) ≤ index then
      .error (router.partitioner.name ++ " row index " ++ toString index ++ " is outside [0, " ++ toString numRows ++ ")")
    else if index.toNat ∈ seen then
      .error (router.partitioner.name ++ " returned row index " ++ toString index ++ " twice for target " ++
        toString target)
    else validateRowIndices numRows target rest (seen ++ [index.toNat])

/-- `_inherit_slice_metadata` on the selected rows -/
def slice (record : Record β) (indices : List Nat) : Record β where
  block := ops.selectRows record.block indices
  numRows := some indices.length
  inputTag := record.inputTag
  rowKinds := record.rowKinds.map (fun kinds => indices.map (fun index => (kinds[index]?).join))
  rowTimestamps := record.rowTimestamps.map (fun timestamps => indices.map (fun index => (timestamps[index]?).join))
  timestamp := record.timestamp

def missingRows (numRows : Nat) (covered : List Nat) : List Nat :=
  (List.range numRows).filter (fun index => index ∉ covered)

/-- The loop of `_route_columnar`. -/
def yieldColumnar (record : Record β) (numRows : Nat) : List (Int × Option (List Int)) → List Nat → List Nat → Bool →
    Yielded (Nat × List Nat × Record β)
  | [],_,covered,coversAll =>
    let missing := missingRows numRows covered
    if ¬ coversAll ∧ missing ≠ [] then
      ⟨[],some (router.partitioner.name ++ " did not route columnar rows " ++ toString (missing.take 10))⟩
    else ⟨[],none⟩
  | (target,rowIndices)::rest,seen,covered,coversAll =>
    match router.validateTarget "columnar route" target with
    | .error text => ⟨[],some text⟩
    | .ok target =>
      if target ∈ seen then
        ⟨[],some (router.partitioner.name ++ " returned target " ++ toString target ++ " more than once")⟩
      else
        match rowIndices with
        | none => router.yieldTo target record (yieldColumnar record numRows rest (seen ++ [target]) covered true)
        | some rowIndices =>
          match router.retryRing target,router.validateRowIndices numRows target rowIndices [] with
          | .ok _,.error text => ⟨[],some text⟩
          | .error text,_ => ⟨[],some text⟩
          | .ok _,.ok indices => router.yieldTo target (slice ops record indices)
              (yieldColumnar record numRows rest (seen ++ [target]) (covered ++ indices) coversAll)

/-- `_route_columnar` -/
def routeColumnar (cursor : π) (record : Record β) (numRows : Nat) :
    Except String (Yielded (Nat × List Nat × Record β) × π) := do
  let (routes,cursor) ← router.partitioner.partitionColumnar cursor record numRows
  if numRows ≠ 0 ∧ routes = [] then throw (router.partitioner.name ++ " produced an empty columnar route")
  return (router.yieldColumnar ops record numRows routes [] [] false,cursor)

/-- `route`, with the retry ring of each target. -/
def route (cursor : π) (record : Record β) : Except String (Yielded (Nat × List Nat × Record β) × π) :=
  match record.numRows with
  | none => router.routeRow cursor record
  | some numRows => router.routeColumnar ops cursor record numRows

theorem validateRowIndices_below (numRows target : Nat) (rowIndices : List Int) (seen indices : List Nat)
    (below : ∀ index ∈ seen, index < numRows)
    (valid : router.validateRowIndices numRows target rowIndices seen = .ok indices) : ∀ index ∈ indices, index < numRows := by
  induction rowIndices generalizing seen with
  | nil =>
    rw [validateRowIndices] at valid
    split at valid
    · cases valid
    · cases valid
      exact below
  | cons index rest ih =>
    rw [validateRowIndices] at valid
    split at valid
    · cases valid
    next inside =>
      split at valid
      · cases valid
      · refine ih _ ?_ valid
        intro other within
        rcases mem_append.mp within with before | new
        · exact below other before
        · rw [mem_singleton.mp new]
          omega

def Slice (record routed : Record β) : Prop :=
  routed = record ∨ ∃ indices, (∀ index ∈ indices, index < record.rows) ∧ routed = slice ops record indices

theorem yieldTo_items (target : Nat) (routed : Record β) (later : Yielded (Nat × List Nat × Record β))
    (holds : Record β → Prop) (here : holds routed) (after : ∀ item ∈ later.items, holds item.2.2) :
    ∀ item ∈ (router.yieldTo target routed later).items, holds item.2.2 := by
  unfold yieldTo
  split
  · simp
  · exact forall_mem_cons.mpr ⟨here,after⟩

theorem yieldRows_items (record : Record β) (targets : List Nat) :
    ∀ item ∈ (router.yieldRows record targets).items, Slice ops record item.2.2 := by
  induction targets with
  | nil => simp [yieldRows]
  | cons target rest ih => exact router.yieldTo_items target record _ (Slice ops record) (.inl rfl) ih

theorem yieldColumnar_items (record : Record β) (numRows : Nat) (counted : record.rows = numRows)
    (routes : List (Int × Option (List Int))) (seen covered : List Nat) (coversAll : Bool) :
    ∀ item ∈ (router.yieldColumnar ops record numRows routes seen covered coversAll).items, Slice ops record item.2.2 := by
  induction routes generalizing seen covered coversAll with
  | nil =>
    rw [yieldColumnar]
    split <;> simp
  | cons route rest ih =>
    obtain ⟨target,rowIndices⟩ := route
    rw [yieldColumnar]
    split
    · simp
    next target' _ =>
      split
      · simp
      · cases rowIndices with
        | none => exact router.yieldTo_items target' record _ _ (.inl rfl) (ih _ _ _)
        | some rowIndices =>
          dsimp only
          split
          · simp
          · simp
          next _ indices _ valid =>
            refine router.yieldTo_items target' _ _ _ (.inr ⟨indices,?_,rfl⟩) (ih _ _ _)
            rw [counted]
            exact router.validateRowIndices_below numRows target' rowIndices [] indices (by simp) valid

theorem route_items (cursor next : π) (record : Record β) (routes : Yielded (Nat × List Nat × Record β))
    (routed : router.route ops cursor record = .ok (routes,next)) : ∀ item ∈ routes.items, Slice ops record item.2.2 := by
  unfold route at routed
  split at routed
  · obtain ⟨⟨targets,cursor'⟩,-,routed⟩ := bind_ok routed
    obtain ⟨valid,-,routed⟩ := bind_ok routed
    split at routed
    · cases routed
    · cases routed
      exact router.yieldRows_items ops record valid
  next numRows columns =>
    obtain ⟨⟨given,cursor'⟩,-,routed⟩ := bind_ok routed
    dsimp only at routed
    split at routed
    · cases routed
    · cases routed
      exact router.yieldColumnar_items ops record numRows (by unfold Record.rows; rw [columns]; rfl) given [] [] false

def Known (item : Nat × List Nat × Record β) : Prop := item.1 < router.targetCount ∧ router.retryRing item.1 = .ok item.2.1

theorem validateTarget_below (context : String) (target : Int) (valid : Nat)
    (validated : router.validateTarget context target = .ok valid) : valid < router.targetCount := by
  unfold validateTarget at validated
  split at validated
  · cases validated
  next inside =>
    split at validated
    · cases validated
    · cases validated
      omega

theorem validateTargets_below (context : String) (targets : List Int) (seen valid : List Nat)
    (below : ∀ target ∈ seen, target < router.targetCount)
    (validated : router.validateTargets context targets seen = .ok valid) : ∀ target ∈ valid, target < router.targetCount := by
  induction targets generalizing seen with
  | nil =>
    cases validated
    exact below
  | cons target rest ih =>
    obtain ⟨first,here,validated⟩ := bind_ok validated
    dsimp only at validated
    split at validated
    · cases validated
    · refine ih _ ?_ validated
      exact forall_mem_append.mpr
        ⟨below,forall_mem_singleton.mpr (router.validateTarget_below context target first here)⟩

theorem yieldTo_known (target : Nat) (routed : Record β) (later : Yielded (Nat × List Nat × Record β))
    (below : target < router.targetCount) (after : ∀ item ∈ later.items, router.Known item) :
    ∀ item ∈ (router.yieldTo target routed later).items, router.Known item := by
  unfold yieldTo
  split
  · simp
  next ring known => exact forall_mem_cons.mpr ⟨⟨below,known⟩,after⟩

theorem yieldRows_known (record : Record β) (targets : List Nat) (below : ∀ target ∈ targets, target < router.targetCount) :
    ∀ item ∈ (router.yieldRows record targets).items, router.Known item := by
  induction targets with
  | nil => simp [yieldRows]
  | cons target rest ih =>
    obtain ⟨here,later⟩ := forall_mem_cons.mp below
    exact router.yieldTo_known target record _ here (ih later)

theorem yieldColumnar_known (record : Record β) (numRows : Nat) (routes : List (Int × Option (List Int)))
    (seen covered : List Nat) (coversAll : Bool) :
    ∀ item ∈ (router.yieldColumnar ops record numRows routes seen covered coversAll).items, router.Known item := by
  induction routes generalizing seen covered coversAll with
  | nil =>
    rw [yieldColumnar]
    split <;> simp
  | cons route rest ih =>
    obtain ⟨target,rowIndices⟩ := route
    rw [yieldColumnar]
    split
    · simp
    next target' validated =>
      have below := router.validateTarget_below _ target target' validated
      split
      · simp
      · cases rowIndices with
        | none => exact router.yieldTo_known target' record _ below (ih _ _ _)
        | some rowIndices =>
          dsimp only
          split
          · simp
          · simp
          · exact router.yieldTo_known target' _ _ below (ih _ _ _)

theorem route_known (cursor next : π) (record : Record β) (routes : Yielded (Nat × List Nat × Record β))
    (routed : router.route ops cursor record = .ok (routes,next)) : ∀ item ∈ routes.items, router.Known item := by
  unfold route at routed
  split at routed
  · obtain ⟨⟨targets,cursor'⟩,-,routed⟩ := bind_ok routed
    obtain ⟨valid,validated,routed⟩ := bind_ok routed
    split at routed
    · cases routed
    · cases routed
      exact router.yieldRows_known record valid (router.validateTargets_below _ targets [] valid (by simp) validated)
  next numRows columns =>
    obtain ⟨⟨given,cursor'⟩,-,routed⟩ := bind_ok routed
    dsimp only at routed
    split at routed
    · cases routed
    · cases routed
      exact router.yieldColumnar_known ops record numRows given [] [] false

end RecordRouter
end Klein.Dataflow
