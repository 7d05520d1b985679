import Klein.Dataflow.BlockRows
import Klein.State.KeyGroupRange

/-! `simple_partitioner.py` and `key_partitioner.py` under the router: a columnar record
is cut into slices by targets that are named row by row. -/
namespace Klein.Dataflow
open Fallible List Option

section buckets

def intoBucket (buckets : Dict Int (List Nat)) (target : Int) (rowIndex : Nat) : Dict Int (List Nat) :=
  buckets.set target ((buckets.get? target).getD [] ++ [rowIndex])

/-- The loop of `partition_columnar`; the order of the targets is that of the buckets. -/
def bucketRows (targetsOf : Nat → Except String (List Int)) (rowIndices : List Nat) (buckets : Dict Int (List Nat)) :
    Except String (Dict Int (List Nat)) :=
  rowIndices.foldlM (fun buckets rowIndex => do
    let targets ← targetsOf rowIndex
    return targets.foldl (fun buckets target => intoBucket buckets target rowIndex) buckets) buckets

/-- `[(target, buckets[target]) for target in order]` -/
def bucketRoutes (buckets : Dict Int (List Nat)) : List (Int × Option (List Int)) :=
  buckets.entries.map (fun bucket => (bucket.1,some (bucket.2.map Int.ofNat)))

end buckets

section partitioners
variable {γ ν δ α τ κ : Type} (arrays : ArrayOps γ ν δ α τ)

/-- `Record(block_row_dict(block, row_index))` -/
def routedRow (record : Record (Block γ ν α)) (rowIndex : Nat) : Record (Block γ ν α) :=
  Record.fresh (record.block.rowBlock arrays rowIndex none) none

/-- `SimplePartitioner` of a function that depends on nothing else. -/
def simplePartitioner (fn : Record (Block γ ν α) → Nat → Except String (List Int)) (partitionCount : Nat) :
    Partitioner Unit (Block γ ν α) where
  name := "CUSTOM"
  partition := fun _ record => do return (← fn record partitionCount,())
  partitionColumnar := fun _ record numRows => do
    let buckets ← bucketRows (fun rowIndex => fn (routedRow arrays record rowIndex) partitionCount) (List.range numRows) ∅
    return (match buckets.entries with
      | [(target,rowIndices)] => if rowIndices.length = numRows then [(target,none)] else bucketRoutes buckets
      | _ => bucketRoutes buckets,())
  retryTargets := fun initialTarget => .ok [initialTarget]

structure KeySelector (γ ν α κ : Type) where
  select : Block γ ν α → Except String κ
  keyHash : κ → Except String Nat
  maxParallelism : Nat

namespace KeySelector
variable (selector : KeySelector γ ν α κ)

/-- `key_group_for_key` -/
def keyGroupForKey (key : κ) : Except String Nat :=
  if selector.maxParallelism < 1 then .error "max_parallelism must be at least 1"
  else (selector.keyHash key).map (fun hash => hash % selector.maxParallelism)

/-- `_target_for_key` -/
def targetForKey (partitionCount : Nat) (key : κ) : Except String Int := do
  let keyGroup ← selector.keyGroupForKey key
  let owner ← State.keyGroupOwner keyGroup selector.maxParallelism partitionCount
  return (owner : Int)

def targetOf (partitionCount : Nat) (block : Block γ ν α) : Except String Int := do
  let key ← selector.select block
  selector.targetForKey partitionCount key

end KeySelector

/-- `KeyPartitioner` once it is opened. -/
def keyPartitioner (selector : KeySelector γ ν α κ) (partitionCount : Nat) : Partitioner Unit (Block γ ν α) where
  name := "HASH"
  partition := fun _ record => do return ([← selector.targetOf partitionCount record.block],())
  partitionColumnar := fun _ record numRows => do
    let buckets ← bucketRows (fun rowIndex => do
      return [← selector.targetOf partitionCount (routedRow arrays record rowIndex).block]) (List.range numRows) ∅
    return (match buckets.entries with
      | [(target,_)] => [(target,none)]
      | _ => bucketRoutes buckets,())
  retryTargets := fun initialTarget => .ok [initialTarget]

def blockRoutes (columns : ColumnOps (Block γ ν α)) : RouteOps (Block γ ν α) := {columns with
  selectRows := fun block indices => block.selectRows arrays indices}

inductive RowPartitioner (γ ν α κ : Type) where
  | simple (fn : Record (Block γ ν α) → Nat → Except String (List Int))
  | key (selector : KeySelector γ ν α κ)

def RowPartitioner.partitioner (partitionCount : Nat) : RowPartitioner γ ν α κ → Partitioner Unit (Block γ ν α)
  | .simple fn => simplePartitioner arrays fn partitionCount
  | .key selector => keyPartitioner arrays selector partitionCount

end partitioners

section buckets
variable (buckets : Dict Int (List Nat)) (occurrences : Int → List Nat)

def Bucketed : Prop := ∀ target, (buckets.get? target).getD [] = occurrences target ∧ buckets.get? target ≠ some []

variable {buckets occurrences} (bucketed : Bucketed buckets occurrences)

include bucketed

theorem Bucketed.mem (target : Int) (rowIndices : List Nat) :
    (target,rowIndices) ∈ buckets.entries ↔ occurrences target ≠ [] ∧ rowIndices = occurrences target := by
  rw [← Dict.get?_eq_some]
  obtain ⟨held,nonempty⟩ := bucketed target
  cases found : buckets.get? target with
  | none =>
    rw [found] at held
    exact iff_of_false (fun impossible => by cases impossible) (fun both => both.1 held.symm)
  | some rows =>
    rw [found,getD_some] at held
    rw [found,held] at nonempty
    rw [Option.some.injEq,held]
    exact ⟨fun same => ⟨fun nothing => nonempty (congrArg some nothing),same.symm⟩,fun both => both.2.symm⟩

theorem Bucketed.congr (others : Int → List Nat) (same : ∀ target, occurrences target = others target) : Bucketed buckets others := by
  intro target
  rw [← same]
  exact bucketed target

theorem Bucketed.into (target : Int) (rowIndex : Nat) : Bucketed (intoBucket buckets target rowIndex)
    (fun other => occurrences other ++ if other = target then [rowIndex] else []) := by
  intro other
  unfold intoBucket
  rw [Dict.get?_set]
  by_cases same : other = target
  · subst same
    rw [if_pos rfl]
    dsimp only
    rw [if_pos rfl,(bucketed other).1]
    exact ⟨rfl,by simp⟩
  · rw [if_neg same]
    dsimp only
    rw [if_neg same,append_nil]
    exact bucketed other

theorem Bucketed.row (targets : List Int) (rowIndex : Nat) :
    Bucketed (targets.foldl (fun buckets target => intoBucket buckets target rowIndex) buckets)
      (fun other => occurrences other ++ List.replicate (targets.count other) rowIndex) := by
  induction targets generalizing buckets occurrences with
  | nil =>
    simp only [count_nil,replicate_zero,append_nil]
    exact bucketed
  | cons target rest ih =>
    refine (ih (bucketed.into target rowIndex)).congr _ (fun other => ?_)
    rw [append_assoc,count_cons]
    congr 1
    by_cases same : other = target
    · subst same
      simp [replicate_succ]
    · simp [same,Ne.symm same]

theorem Bucketed.rows (targetsOf : Nat → Except String (List Int)) (named : Nat → List Int) (rowIndices : List Nat)
    (names : ∀ rowIndex ∈ rowIndices, targetsOf rowIndex = .ok (named rowIndex)) :
    ∃ after, bucketRows targetsOf rowIndices buckets = .ok after ∧ Bucketed after (fun target => occurrences target ++
      rowIndices.flatMap (fun rowIndex => List.replicate ((named rowIndex).count target) rowIndex)) := by
  induction rowIndices generalizing buckets occurrences with
  | nil =>
    refine ⟨buckets,rfl,?_⟩
    simp only [flatMap_nil,append_nil]
    exact bucketed
  | cons rowIndex rest ih =>
    obtain ⟨here,later⟩ := forall_mem_cons.mp names
    obtain ⟨after,done,held⟩ := ih (bucketed.row (named rowIndex) rowIndex) later
    refine ⟨after,?_,?_⟩
    · unfold bucketRows at done ⊢
      rw [foldlM_cons,@ok_bind _ _ _ _ _ (named rowIndex) here]
      exact done
    · simp only [flatMap_cons,← append_assoc]
      exact held

omit bucketed in
variable (buckets) in
theorem bucketRows_error (targetsOf : Nat → Except String (List Int)) (rowIndices : List Nat) (bad : Nat)
    (inside : bad ∈ rowIndices) (text : String) (raises : targetsOf bad = .error text) :
    ∃ raised, bucketRows targetsOf rowIndices buckets = .error raised := by
  induction rowIndices generalizing buckets with
  | nil => cases inside
  | cons rowIndex rest ih =>
    unfold bucketRows at ih ⊢
    rw [foldlM_cons]
    cases named : targetsOf rowIndex with
    | error other => exact ⟨other,rfl⟩
    | ok targets =>
      obtain rfl | later := mem_cons.mp inside
      · rw [named] at raises
        cases raises
      · exact ih _ later

end buckets

namespace RecordRouter
section validation
variable {π β : Type} (router : RecordRouter π β)

def Allowed (target : Int) : Prop :=
  0 ≤ target ∧ target < (router.targetCount : Int) ∧ target.toNat ∈ router.controlTargetIndices

variable {router}

theorem validateTarget_ok (context : String) (target : Int) (allowed : router.Allowed target) :
    router.validateTarget context target = .ok target.toNat := by
  obtain ⟨least,most,member⟩ := allowed
  unfold validateTarget
  rw [if_neg (by omega),if_neg (not_not_intro member)]

theorem validateTarget_error (context : String) (target : Int) (refused : ¬ router.Allowed target) :
    ∃ text, router.validateTarget context target = .error text := by
  unfold validateTarget
  split
  · exact ⟨_,rfl⟩
  next inside =>
    split
    · exact ⟨_,rfl⟩
    next member =>
      refine absurd ⟨?_,?_,not_not.mp member⟩ refused
      · omega
      · omega

theorem Allowed.inj {one other : Int} (allowed : router.Allowed one) (allowed' : router.Allowed other)
    (same : one.toNat = other.toNat) : one = other := by
  have := allowed.1
  have := allowed'.1
  omega

theorem validateTargets_ok (context : String) (targets : List Int) (seen : List Nat)
    (allowed : ∀ target ∈ targets, router.Allowed target) (distinct : targets.Nodup)
    (fresh : ∀ target ∈ targets, target.toNat ∉ seen) :
    router.validateTargets context targets seen = .ok (seen ++ targets.map Int.toNat) := by
  induction targets generalizing seen with
  | nil => rw [validateTargets,map_nil,append_nil]
  | cons target rest ih =>
    obtain ⟨here,later⟩ := forall_mem_cons.mp allowed
    obtain ⟨new,others⟩ := forall_mem_cons.mp fresh
    obtain ⟨absent,distinct⟩ := nodup_cons.mp distinct
    rw [validateTargets,ok_bind (validateTarget_ok context target here),if_neg new]
    refine (ih (seen ++ [target.toNat]) later distinct (fun other inside => ?_)).trans ?_
    · rw [mem_append,mem_singleton]
      rintro (before | same)
      · exact others other inside before
      · rw [(later other inside).inj here same] at inside
        exact absent inside
    · rw [append_assoc]
      rfl

theorem validateTargets_error (context : String) (targets : List Int) (seen : List Nat)
    (bad : ¬ ((∀ target ∈ targets, router.Allowed target) ∧ targets.Nodup) ∨ ∃ target ∈ targets, target.toNat ∈ seen) :
    ∃ text, router.validateTargets context targets seen = .error text := by
  induction targets generalizing seen with
  | nil =>
    obtain bad | ⟨_,inside,_⟩ := bad
    · exact absurd ⟨by simp,nodup_nil⟩ bad
    · cases inside
  | cons target rest ih =>
    rw [validateTargets]
    by_cases here : router.Allowed target
    · rw [ok_bind (validateTarget_ok context target here)]
      by_cases twice : target.toNat ∈ seen
      · rw [if_pos twice]
        exact ⟨_,rfl⟩
      · rw [if_neg twice]
        refine ih (seen ++ [target.toNat]) ?_
        obtain bad | ⟨other,inside,before⟩ := bad
        · by_cases repeated : target ∈ rest
          · exact .inr ⟨target,repeated,mem_append_right _ (mem_singleton.mpr rfl)⟩
          · refine .inl (fun good => bad ⟨forall_mem_cons.mpr ⟨here,good.1⟩,nodup_cons.mpr ⟨repeated,good.2⟩⟩)
        · obtain rfl | later := mem_cons.mp inside
          · exact absurd before twice
          · exact .inr ⟨other,later,mem_append_left _ before⟩
    · obtain ⟨text,raises⟩ := validateTarget_error context target here
      rw [raises]
      exact ⟨text,rfl⟩

theorem retryRing_ok (affine : ∀ target, router.partitioner.retryTargets target = .ok [target]) (target : Int)
    (allowed : router.Allowed target) : router.retryRing target.toNat = .ok [target.toNat] := by
  have nonneg : ((target.toNat : Nat) : Int) = target := Int.toNat_of_nonneg allowed.1
  have ring : router.validateTargets ("retry ring for target " ++ toString target.toNat) [(target.toNat : Int)] [] =
      .ok [target.toNat] :=
    validateTargets_ok _ _ [] (by simpa [nonneg] using allowed) (nodup_singleton _) (by simp)
  unfold retryRing
  rw [ok_bind (affine _),ok_bind ring]
  exact if_neg (by simp)

section
variable (numRows target : Nat) (rowIndices seen : List Nat) (below : ∀ index ∈ rowIndices, index < numRows)
include target seen below

theorem validateRowIndices_ok
    (distinct : rowIndices.Nodup) (fresh : ∀ index ∈ rowIndices, index ∉ seen) (nonempty : seen ++ rowIndices ≠ []) :
    router.validateRowIndices numRows target (rowIndices.map Int.ofNat) seen = .ok (seen ++ rowIndices) := by
  induction rowIndices generalizing seen with
  | nil =>
    rw [append_nil] at nonempty ⊢
    rw [map_nil,validateRowIndices,if_neg nonempty]
  | cons index rest ih =>
    obtain ⟨here,later⟩ := forall_mem_cons.mp below
    obtain ⟨new,others⟩ := forall_mem_cons.mp fresh
    obtain ⟨absent,distinct⟩ := nodup_cons.mp distinct
    have split : seen ++ index::rest = (seen ++ [index]) ++ rest := by rw [append_assoc]; rfl
    rw [map_cons,validateRowIndices,if_neg (by simp; omega),if_neg (by simpa using new),split]
    refine ih (seen ++ [index]) later distinct (fun other inside => ?_) (by simp)
    rw [mem_append,mem_singleton]
    rintro (before | rfl)
    · exact others other inside before
    · exact absent inside

theorem validateRowIndices_error (bad : ¬ rowIndices.Nodup ∨ ∃ index ∈ rowIndices, index ∈ seen) :
    ∃ text, router.validateRowIndices numRows target (rowIndices.map Int.ofNat) seen = .error text := by
  induction rowIndices generalizing seen with
  | nil =>
    obtain bad | ⟨_,inside,_⟩ := bad
    · exact absurd nodup_nil bad
    · cases inside
  | cons index rest ih =>
    obtain ⟨here,later⟩ := forall_mem_cons.mp below
    rw [map_cons,validateRowIndices,if_neg (by simp; omega)]
    by_cases twice : index ∈ seen
    · rw [if_pos (by simpa using twice)]
      exact ⟨_,rfl⟩
    · rw [if_neg (by simpa using twice)]
      refine ih (seen ++ [(Int.ofNat index).toNat]) later ?_
      obtain bad | ⟨other,inside,before⟩ := bad
      · by_cases repeated : index ∈ rest
        · exact .inr ⟨index,repeated,mem_append_right _ (mem_singleton.mpr rfl)⟩
        · exact .inl (fun distinct => bad (nodup_cons.mpr ⟨repeated,distinct⟩))
      · obtain rfl | after := mem_cons.mp inside
        · exact absurd before twice
        · exact .inr ⟨other,after,mem_append_left _ before⟩

end

end validation

section yielding
variable {β : Type} (ops : RouteOps β) {router : RecordRouter Unit β}
  (affine : ∀ target, router.partitioner.retryTargets target = .ok [target])

def routed {π : Type} (result : Except String (Yielded (Nat × List Nat × Record β) × π)) : Option (List (Nat × Record β)) :=
  match result with
  | .error _ => none
  | .ok (yielded,_) => if yielded.raised = none then some (yielded.items.map (fun item => (item.1,item.2.2))) else none

section
variable {π : Type} (yielded : Yielded (Nat × List Nat × Record β)) (next : π)
include yielded next

theorem routed_ends (ends : yielded.raised = none) :
    routed (.ok (yielded,next)) = some (yielded.items.map (fun item => (item.1,item.2.2))) := by
  unfold routed
  dsimp only
  rw [if_pos ends]

theorem routed_raises (raises : yielded.raised ≠ none) :
    routed (.ok (yielded,next)) = none := by
  unfold routed
  dsimp only
  rw [if_neg raises]

end

def Routable (router : RecordRouter Unit β) (targets : List Int) : Prop :=
  targets ≠ [] ∧ targets.Nodup ∧ ∀ target ∈ targets, router.Allowed target

theorem routed_row_error (cursor : Unit) (record : Record β) (rowShaped : record.numRows = none) (text : String)
    (raises : router.partitioner.partition cursor record = .error text) : routed (router.route ops cursor record) = none := by
  unfold route
  rw [rowShaped]
  dsimp only
  unfold routeRow
  rw [raises]
  rfl

theorem routed_row_refused (cursor next : Unit) (record : Record β) (rowShaped : record.numRows = none) (targets : List Int)
    (names : router.partitioner.partition cursor record = .ok (targets,next)) (refused : ¬ Routable router targets) :
    routed (router.route ops cursor record) = none := by
  unfold route
  rw [rowShaped]
  dsimp only
  unfold routeRow
  rw [ok_bind names]
  dsimp only
  by_cases good : (∀ target ∈ targets, router.Allowed target) ∧ targets.Nodup
  · have nothing : targets = [] := by
      by_contra some'
      exact refused ⟨some',good.2,good.1⟩
    subst nothing
    rfl
  · obtain ⟨text,raises⟩ := validateTargets_error "row route" targets [] (.inl good)
    rw [raises]
    rfl

theorem routed_columnar (cursor next : Unit) (record : Record β) (numRows : Nat) (columnar : record.numRows = some numRows)
    (routes : List (Int × Option (List Int)))
    (names : router.partitioner.partitionColumnar cursor record numRows = .ok (routes,next)) :
    routed (router.route ops cursor record) = if numRows ≠ 0 ∧ routes = [] then none
      else routed (.ok (router.yieldColumnar ops record numRows routes [] [] false,next)) := by
  unfold route
  rw [columnar]
  dsimp only
  unfold routeColumnar
  rw [ok_bind names]
  dsimp only
  split <;> rfl

include affine

theorem yieldTo_ok (target : Int) (allowed : router.Allowed target) (record : Record β) (later : Yielded (Nat × List Nat × Record β)) :
    router.yieldTo target.toNat record later = later.cons (target.toNat,[target.toNat],record) := by
  unfold yieldTo
  rw [retryRing_ok affine target allowed]

theorem yieldRows_ok (record : Record β) (targets : List Int) (allowed : ∀ target ∈ targets, router.Allowed target) :
    router.yieldRows record (targets.map Int.toNat) = ⟨targets.map (fun target => (target.toNat,[target.toNat],record)),none⟩ := by
  induction targets with
  | nil => rfl
  | cons target rest ih =>
    obtain ⟨here,later⟩ := forall_mem_cons.mp allowed
    rw [map_cons,yieldRows,ih later,yieldTo_ok affine target here]
    rfl

theorem routed_row (cursor next : Unit) (record : Record β) (rowShaped : record.numRows = none) (targets : List Int)
    (names : router.partitioner.partition cursor record = .ok (targets,next)) (routable : Routable router targets) :
    routed (router.route ops cursor record) = some (targets.map (fun target => (target.toNat,record))) := by
  obtain ⟨some',distinct,allowed⟩ := routable
  have valid := validateTargets_ok "row route" targets [] allowed distinct (by simp)
  unfold route
  rw [rowShaped]
  dsimp only
  unfold routeRow
  rw [ok_bind names]
  dsimp only
  rw [ok_bind valid,nil_append,if_neg (by simpa using some'),yieldRows_ok affine record targets allowed]
  refine (routed_ends _ _ rfl).trans ?_
  rw [List.map_map]
  rfl

section
variable (record : Record β) (numRows : Nat) (buckets : List (Int × List Nat)) (seen covered : List Nat)
include record numRows buckets seen covered

theorem yieldColumnar_ok
    (allowed : ∀ bucket ∈ buckets, router.Allowed bucket.1) (distinct : (buckets.map Prod.fst).Nodup)
    (fresh : ∀ bucket ∈ buckets, bucket.1.toNat ∉ seen)
    (rows : ∀ bucket ∈ buckets, bucket.2 ≠ [] ∧ bucket.2.Nodup ∧ ∀ index ∈ bucket.2, index < numRows) :
    (router.yieldColumnar ops record numRows (buckets.map (fun bucket => (bucket.1,some (bucket.2.map Int.ofNat)))) seen covered false).items =
        buckets.map (fun bucket => (bucket.1.toNat,[bucket.1.toNat],slice ops record bucket.2)) ∧
      ((router.yieldColumnar ops record numRows (buckets.map (fun bucket => (bucket.1,some (bucket.2.map Int.ofNat)))) seen covered
        false).raised = none ↔ missingRows numRows (covered ++ buckets.flatMap Prod.snd) = []) := by
  induction buckets generalizing seen covered with
  | nil =>
    rw [map_nil,yieldColumnar,flatMap_nil,append_nil]
    by_cases missing : missingRows numRows covered = []
    · rw [if_neg (fun bad => bad.2 missing)]
      exact ⟨rfl,iff_of_true rfl missing⟩
    · rw [if_pos ⟨Bool.false_ne_true,missing⟩]
      exact ⟨rfl,iff_of_false (fun impossible => by cases impossible) missing⟩
  | cons bucket rest ih =>
    obtain ⟨here,later⟩ := forall_mem_cons.mp allowed
    obtain ⟨new,others⟩ := forall_mem_cons.mp fresh
    obtain ⟨absent,distinct⟩ := nodup_cons.mp distinct
    obtain ⟨⟨nonempty,once,below⟩,rows'⟩ := forall_mem_cons.mp rows
    obtain ⟨items,raised⟩ := ih (seen ++ [bucket.1.toNat]) (covered ++ bucket.2) later distinct (fun other inside => by
      rw [mem_append,mem_singleton]
      rintro (before | same)
      · exact others other inside before
      · refine absent ?_
        rw [← (later other inside).inj here same]
        exact List.mem_map_of_mem inside) rows'
    have valid : router.validateRowIndices numRows bucket.1.toNat (bucket.2.map Int.ofNat) [] = .ok bucket.2 :=
      validateRowIndices_ok numRows _ bucket.2 [] below once (by simp) nonempty
    have step : router.yieldColumnar ops record numRows ((bucket::rest).map (fun bucket => (bucket.1,some (bucket.2.map Int.ofNat)))) seen
        covered false = (router.yieldColumnar ops record numRows (rest.map (fun bucket => (bucket.1,some (bucket.2.map Int.ofNat))))
          (seen ++ [bucket.1.toNat]) (covered ++ bucket.2) false).cons (bucket.1.toNat,[bucket.1.toNat],slice ops record bucket.2) := by
      rw [map_cons,yieldColumnar,validateTarget_ok _ _ here]
      dsimp only
      rw [if_neg new,retryRing_ok affine _ here,valid]
      dsimp only
      rw [yieldTo_ok affine _ here]
    rw [step,flatMap_cons,← append_assoc]
    refine ⟨?_,raised⟩
    rw [map_cons,← items]
    rfl

theorem yieldColumnar_error (below : ∀ bucket ∈ buckets, ∀ index ∈ bucket.2, index < numRows)
    (bad : ∃ bucket ∈ buckets, ¬ (router.Allowed bucket.1 ∧ bucket.2.Nodup)) :
    (router.yieldColumnar ops record numRows (buckets.map (fun bucket => (bucket.1,some (bucket.2.map Int.ofNat)))) seen covered
      false).raised ≠ none := by
  induction buckets generalizing seen covered with
  | nil => exact absurd bad (by simp)
  | cons bucket rest ih =>
    obtain ⟨here,later⟩ := forall_mem_cons.mp below
    rw [map_cons,yieldColumnar]
    by_cases allowed : router.Allowed bucket.1
    · rw [validateTarget_ok _ _ allowed]
      dsimp only
      by_cases twice : bucket.1.toNat ∈ seen
      · rw [if_pos twice]
        simp
      · rw [if_neg twice,retryRing_ok affine _ allowed]
        cases valid : router.validateRowIndices numRows bucket.1.toNat (bucket.2.map Int.ofNat) [] with
        | error text => simp
        | ok indices =>
          dsimp only
          rw [yieldTo_ok affine _ allowed]
          refine ih _ _ later ?_
          obtain ⟨other,inside,refused⟩ := bad
          obtain rfl | after := mem_cons.mp inside
          · have repeated : ¬ other.2.Nodup := fun once => refused ⟨allowed,once⟩
            obtain ⟨text,raises⟩ := @validateRowIndices_error _ _ router numRows other.1.toNat other.2 [] here (.inl repeated)
            rw [raises] at valid
            cases valid
          · exact ⟨other,after,refused⟩
    · obtain ⟨text,raises⟩ := validateTarget_error "columnar route" bucket.1 allowed
      rw [raises]
      simp

end

end yielding
end RecordRouter

section slices
variable {γ ν δ α τ : Type} {arrays : ArrayOps γ ν δ α τ} (lawful : arrays.Lawful) (columns : ColumnOps (Block γ ν α))
  (record : Record (Block γ ν α)) (consistent : Consistent arrays record) (numRows : Nat) (columnar : record.numRows = some numRows)
include lawful consistent columnar

theorem taggedRows_slice (indices : List Nat) (below : ∀ index ∈ indices, index < numRows) :
    taggedRows arrays (RecordRouter.slice (blockRoutes arrays columns) record indices) =
      indices.filterMap (fun index => (taggedRows arrays record)[index]?) := by
  obtain ⟨block,held,holds⟩ := consistent.columnar numRows columnar
  have aligned := consistent.aligned record
  have length : (taggedRows arrays record).length = numRows := by
    rw [aligned.length]
    unfold Record.rows
    rw [columnar]
    rfl
  have sliced : (RecordRouter.slice (blockRoutes arrays columns) record indices).block = .columnar (block.selectRows arrays indices) := by
    unfold RecordRouter.slice blockRoutes
    dsimp only
    rw [held]
    rfl
  have aligned' : Aligned arrays (RecordRouter.slice (blockRoutes arrays columns) record indices) := by
    refine ⟨?_,fun _ => ?_,fun kinds same => ?_,fun stamps same => ?_⟩
    · unfold readRows
      rw [sliced]
      rfl
    · rw [sliced]
      rfl
    · obtain ⟨source,-,rfl⟩ := map_eq_some_iff.mp same
      exact length_map _
    · obtain ⟨source,-,rfl⟩ := map_eq_some_iff.mp same
      exact length_map _
  have whole := taggedRows_columnar record aligned block numRows held columnar
  have inside : ∀ index ∈ indices, index < (taggedRows arrays record).length := by
    rw [length]
    exact below
  rw [taggedRows_columnar _ aligned' (block.selectRows arrays indices) indices.length sliced rfl]
  refine ext_getElem? (fun position => ?_)
  by_cases less : position < indices.length
  · rw [select_at _ _ inside position less,whole,getElem?_map,getElem?_map,getElem?_range less,
      getElem?_range (below _ (getElem_mem less)),map_some,map_some,
      ColumnarBlock.rowDict_selectRows lawful block numRows holds indices below position less]
    congr 2
    · unfold RecordRouter.slice
      dsimp only
      cases record.rowKinds with
      | none => rfl
      | some kinds => simp [less]
    · unfold RecordRouter.slice
      dsimp only
      cases record.rowTimestamps with
      | none => rfl
      | some stamps => simp [less]
  · rw [getElem?_eq_none (by simpa using less),getElem?_eq_none (by rw [select_length _ _ inside]; simpa using less)]

end slices

section occurrences
variable (named : Nat → List Int) (numRows : Nat)

def occurrences (target : Int) : List Nat :=
  (List.range numRows).flatMap (fun rowIndex => List.replicate ((named rowIndex).count target) rowIndex)

theorem mem_occurrences (target : Int) (rowIndex : Nat) :
    rowIndex ∈ occurrences named numRows target ↔ rowIndex < numRows ∧ target ∈ named rowIndex := by
  unfold occurrences
  rw [mem_flatMap]
  constructor
  · rintro ⟨other,inside,member⟩
    obtain ⟨some',rfl⟩ := mem_replicate.mp member
    exact ⟨mem_range.mp inside,count_pos_iff.mp (Nat.pos_of_ne_zero some')⟩
  · intro ⟨less,names⟩
    exact ⟨rowIndex,mem_range.mpr less,mem_replicate.mpr ⟨Nat.pos_iff_ne_zero.mp (count_pos_iff.mpr names),rfl⟩⟩

theorem occurrences_eq_filter (once : ∀ rowIndex < numRows, (named rowIndex).Nodup) (target : Int) :
    occurrences named numRows target = (List.range numRows).filter (fun rowIndex => target ∈ named rowIndex) := by
  unfold occurrences
  rw [← filterMap_eq_filter,filterMap_eq_flatMap_toList]
  refine flatMap_congr (fun rowIndex inside => ?_)
  by_cases names : target ∈ named rowIndex
  · rw [count_eq_one_of_mem (once rowIndex (mem_range.mp inside)) names]
    simp [Option.guard,names]
  · rw [count_eq_zero_of_not_mem names]
    simp [Option.guard,names]

theorem once_of_nodup (distinct : ∀ target, (occurrences named numRows target).Nodup) (rowIndex : Nat) (less : rowIndex < numRows) :
    (named rowIndex).Nodup := by
  refine nodup_iff_count_le_one.mpr (fun target => ?_)
  have pieces := (nodup_flatMap.mp (distinct target)).1 rowIndex (mem_range.mpr less)
  exact nodup_replicate.mp pieces

theorem occurrences_length (target : Int) (only : ∀ rowIndex < numRows, ∀ other ∈ named rowIndex, other = target) :
    (occurrences named numRows target).length = ((List.range numRows).map (fun rowIndex => (named rowIndex).length)).sum := by
  unfold occurrences
  rw [length_flatMap]
  congr 1
  refine map_congr_left (fun rowIndex inside => ?_)
  rw [length_replicate]
  exact count_eq_length.mpr (fun other there => (only rowIndex (mem_range.mp inside) other there).symm)

theorem single_bucket (buckets : Dict Int (List Nat)) (bucketed : Bucketed buckets (occurrences named numRows)) (target : Int) :
    (∃ rowIndices, buckets.entries = [(target,rowIndices)]) ↔
      (∀ rowIndex < numRows, ∀ other ∈ named rowIndex, other = target) ∧ ∃ rowIndex < numRows, target ∈ named rowIndex := by
  constructor
  · intro ⟨rowIndices,entries⟩
    constructor
    · intro rowIndex less other there
      have member := (mem_occurrences named numRows other rowIndex).mpr ⟨less,there⟩
      have bucket := (bucketed.mem other _).mpr ⟨ne_nil_of_mem member,rfl⟩
      rw [entries] at bucket
      exact (Prod.mk.inj (mem_singleton.mp bucket)).1
    · have bucket : (target,rowIndices) ∈ buckets.entries := by rw [entries]; exact mem_singleton.mpr rfl
      obtain ⟨rowIndex,member⟩ := exists_mem_of_ne_nil _ ((bucketed.mem target rowIndices).mp bucket).1
      exact ⟨rowIndex,(mem_occurrences named numRows target rowIndex).mp member⟩
  · intro ⟨only,first,less,there⟩
    have bucket : (target,occurrences named numRows target) ∈ buckets.entries := by
      refine (bucketed.mem target _).mpr ⟨?_,rfl⟩
      exact ne_nil_of_mem ((mem_occurrences named numRows target first).mpr ⟨less,there⟩)
    have same (other : Int) (rowIndices : List Nat) (inside : (other,rowIndices) ∈ buckets.entries) : other = target := by
      obtain ⟨rowIndex,member⟩ := exists_mem_of_ne_nil _ ((bucketed.mem other rowIndices).mp inside).1
      obtain ⟨less,names⟩ := (mem_occurrences named numRows other rowIndex).mp member
      exact only rowIndex less other names
    have distinct := buckets.distinct
    match entries : buckets.entries with
    | [] =>
      rw [entries] at bucket
      cases bucket
    | [(other,rowIndices)] =>
      rw [same other rowIndices (by rw [entries]; exact mem_singleton.mpr rfl)]
      exact ⟨rowIndices,rfl⟩
    | (one,rows)::(other,rows')::rest =>
      rw [entries] at distinct
      have one' := same one rows (by rw [entries]; exact mem_cons_self)
      have other' := same other rows' (by rw [entries]; exact mem_cons_of_mem _ mem_cons_self)
      refine absurd ?_ (nodup_cons.mp distinct).1
      rw [one',other']
      exact mem_cons_self

end occurrences

theorem filterMap_range {ι : Type} (items : List ι) : (List.range items.length).filterMap (fun index => items[index]?) = items := by
  have inside : ∀ index ∈ List.range items.length, index < items.length := fun index member => mem_range.mp member
  refine ext_getElem? (fun position => ?_)
  by_cases less : position < items.length
  · rw [select_at items _ inside position (by simpa using less),getElem_range]
  · rw [getElem?_eq_none (by rw [select_length items _ inside]; simpa using less),getElem?_eq_none (Nat.le_of_not_lt less)]

theorem filter_key {ι : Type} (items : List (Nat × ι)) (distinct : (items.map Prod.fst).Nodup) (key : Nat) (value : ι)
    (inside : (key,value) ∈ items) : items.filter (fun item => item.1 = key) = [(key,value)] := by
  induction items with
  | nil => cases inside
  | cons item rest ih =>
    obtain ⟨absent,distinct⟩ := nodup_cons.mp distinct
    obtain rfl | later := mem_cons.mp inside
    · rw [filter_cons_of_pos (by simp)]
      refine congrArg (List.cons _) (filter_eq_nil_iff.mpr (fun other member => ?_))
      intro same
      have named := List.mem_map_of_mem (f := Prod.fst) member
      rw [of_decide_eq_true same] at named
      exact absent named
    · rw [filter_cons_of_neg,ih distinct later]
      intro same
      rw [of_decide_eq_true same] at absent
      exact absent (List.mem_map_of_mem (f := Prod.fst) later)

section agreement
variable {γ ν δ α τ : Type} (arrays : ArrayOps γ ν δ α τ) (columns : ColumnOps (Block γ ν α))
  (router : RecordRouter Unit (Block γ ν α)) (record : Record (Block γ ν α)) (numRows : Nat)

def ownRoute (rowIndex : Nat) : Option (List Nat) :=
  (RecordRouter.routed (router.route (blockRoutes arrays columns) () (routedRow arrays record rowIndex))).map (List.map Prod.fst)

def RoutesAgree : Prop :=
  match RecordRouter.routed (router.route (blockRoutes arrays columns) () record) with
  | none => ∃ rowIndex < numRows, ownRoute arrays columns router record rowIndex = none
  | some items => (items.map Prod.fst).Nodup ∧
      (∀ rowIndex < numRows, (ownRoute arrays columns router record rowIndex).isSome) ∧
      ∀ target, (items.filter (fun item => item.1 = target)).flatMap (fun item => taggedRows arrays item.2) =
        (List.range numRows).filterMap (fun rowIndex =>
          if target ∈ (ownRoute arrays columns router record rowIndex).getD [] then (taggedRows arrays record)[rowIndex]? else none)

variable {arrays columns router record numRows} (lawful : arrays.Lawful) (consistent : Consistent arrays record)
  (columnar : record.numRows = some numRows)
  (affine : ∀ target, router.partitioner.retryTargets target = .ok [target])
  (named : Nat → List Int)
  (names : ∀ rowIndex < numRows, router.partitioner.partition () (routedRow arrays record rowIndex) = .ok (named rowIndex,()))

include affine names

theorem ownRoute_routable (rowIndex : Nat) (less : rowIndex < numRows) (routable : RecordRouter.Routable router (named rowIndex)) :
    ownRoute arrays columns router record rowIndex = some ((named rowIndex).map Int.toNat) := by
  unfold ownRoute
  rw [RecordRouter.routed_row _ affine () () (routedRow arrays record rowIndex) rfl (named rowIndex) (names rowIndex less) routable,
    map_some,List.map_map]
  rfl

omit affine in
theorem ownRoute_refused (rowIndex : Nat) (less : rowIndex < numRows) (refused : ¬ RecordRouter.Routable router (named rowIndex)) :
    ownRoute arrays columns router record rowIndex = none := by
  unfold ownRoute
  rw [RecordRouter.routed_row_refused _ () () (routedRow arrays record rowIndex) rfl (named rowIndex) (names rowIndex less) refused]
  rfl

theorem ownRoute_isSome (rowIndex : Nat) (less : rowIndex < numRows) :
    (ownRoute arrays columns router record rowIndex).isSome ↔ RecordRouter.Routable router (named rowIndex) := by
  by_cases routable : RecordRouter.Routable router (named rowIndex)
  · rw [ownRoute_routable affine named names rowIndex less routable]
    exact iff_of_true rfl routable
  · rw [ownRoute_refused named names rowIndex less routable]
    exact iff_of_false (by simp) routable

theorem filterMap_ownRoute (routable : ∀ rowIndex < numRows, RecordRouter.Routable router (named rowIndex)) (target : Int)
    (allowed : router.Allowed target) :
    (List.range numRows).filterMap (fun rowIndex =>
        if target.toNat ∈ (ownRoute arrays columns router record rowIndex).getD [] then (taggedRows arrays record)[rowIndex]? else none) =
      (occurrences named numRows target).filterMap (fun rowIndex => (taggedRows arrays record)[rowIndex]?) := by
  rw [occurrences_eq_filter named numRows (fun rowIndex less => (routable rowIndex less).2.1),filterMap_filter]
  refine filterMap_congr (fun rowIndex inside => ?_)
  have less := mem_range.mp inside
  rw [ownRoute_routable affine named names rowIndex less (routable rowIndex less),getD_some]
  have member : target.toNat ∈ (named rowIndex).map Int.toNat ↔ target ∈ named rowIndex := by
    rw [List.mem_map]
    refine ⟨fun ⟨other,there,same⟩ => ?_,fun there => ⟨target,there,rfl⟩⟩
    rw [← ((routable rowIndex less).2.2 other there).inj allowed same]
    exact there
  simp only [member,decide_eq_true_eq]

include lawful consistent columnar

theorem buckets_agree (buckets : Dict Int (List Nat)) (bucketed : Bucketed buckets (occurrences named numRows))
    (routes : router.partitioner.partitionColumnar () record numRows = .ok (bucketRoutes buckets,())) :
    RoutesAgree arrays columns router record numRows := by
  have below : ∀ bucket ∈ buckets.entries, ∀ index ∈ bucket.2, index < numRows := by
    intro bucket inside index member
    rw [(bucketed.mem bucket.1 bucket.2).mp inside |>.2] at member
    exact ((mem_occurrences named numRows _ _).mp member).1
  have bucketOf (rowIndex : Nat) (less : rowIndex < numRows) (target : Int) (names : target ∈ named rowIndex) :
      (target,occurrences named numRows target) ∈ buckets.entries := by
    refine (bucketed.mem _ _).mpr ⟨fun nothing => ?_,rfl⟩
    have member := (mem_occurrences named numRows target rowIndex).mpr ⟨less,names⟩
    rw [nothing] at member
    cases member
  unfold RoutesAgree
  rw [RecordRouter.routed_columnar _ () () record numRows columnar _ routes]
  by_cases routable : ∀ rowIndex < numRows, RecordRouter.Routable router (named rowIndex)
  · have namedBy (bucket : Int × List Nat) (inside : bucket ∈ buckets.entries) :
        ∃ rowIndex < numRows, bucket.1 ∈ named rowIndex := by
      obtain ⟨some',-⟩ := (bucketed.mem bucket.1 bucket.2).mp inside
      obtain ⟨rowIndex,member⟩ := exists_mem_of_ne_nil _ some'
      exact ⟨rowIndex,(mem_occurrences named numRows _ _).mp member⟩
    have allowed : ∀ bucket ∈ buckets.entries, router.Allowed bucket.1 := by
      intro bucket inside
      obtain ⟨rowIndex,less,names⟩ := namedBy bucket inside
      exact (routable rowIndex less).2.2 _ names
    have rows : ∀ bucket ∈ buckets.entries, bucket.2 ≠ [] ∧ bucket.2.Nodup ∧ ∀ index ∈ bucket.2, index < numRows := by
      intro bucket inside
      obtain ⟨some',same⟩ := (bucketed.mem bucket.1 bucket.2).mp inside
      refine ⟨same ▸ some',?_,below bucket inside⟩
      rw [same,occurrences_eq_filter named numRows (fun rowIndex less => (routable rowIndex less).2.1)]
      exact nodup_range.filter _
    obtain ⟨items,ends⟩ := RecordRouter.yieldColumnar_ok (blockRoutes arrays columns) affine record numRows buckets.entries [] []
      allowed buckets.distinct (by simp) rows
    have covered : RecordRouter.missingRows numRows ([] ++ buckets.entries.flatMap Prod.snd) = [] := by
      refine filter_eq_nil_iff.mpr (fun rowIndex inside => ?_)
      have less := mem_range.mp inside
      obtain ⟨target,names⟩ := exists_mem_of_ne_nil _ (routable rowIndex less).1
      have member : rowIndex ∈ [] ++ buckets.entries.flatMap Prod.snd :=
        mem_flatMap.mpr ⟨_,bucketOf rowIndex less target names,(mem_occurrences named numRows _ _).mpr ⟨less,names⟩⟩
      simpa using member
    have some' : ¬ (numRows ≠ 0 ∧ bucketRoutes buckets = []) := by
      rintro ⟨positive,nothing⟩
      have less : 0 < numRows := Nat.pos_of_ne_zero positive
      obtain ⟨target,names⟩ := exists_mem_of_ne_nil _ (routable 0 less).1
      have bucket := bucketOf 0 less target names
      rw [map_eq_nil_iff.mp nothing] at bucket
      cases bucket
    have followed : RecordRouter.routed (.ok (router.yieldColumnar (blockRoutes arrays columns) record numRows (bucketRoutes buckets) [] []
        false,())) = some (buckets.entries.map (fun bucket => (bucket.1.toNat,RecordRouter.slice (blockRoutes arrays columns) record bucket.2))) := by
      refine (RecordRouter.routed_ends _ _ (ends.mpr covered)).trans (congrArg some ?_)
      rw [items,List.map_map]
      rfl
    rw [if_neg some',followed]
    dsimp only
    have keys : ((buckets.entries.map (fun bucket =>
        (bucket.1.toNat,RecordRouter.slice (blockRoutes arrays columns) record bucket.2))).map Prod.fst).Nodup := by
      rw [List.map_map]
      have distinct : (buckets.entries.map Prod.fst).Nodup := buckets.distinct
      refine List.Nodup.map_on (fun one inside other inside' same => ?_) (List.Nodup.of_map _ distinct)
      exact inj_on_of_nodup_map distinct inside inside' ((allowed one inside).inj (allowed other inside') same)
    refine ⟨keys,fun rowIndex less => (ownRoute_isSome affine named names rowIndex less).mpr (routable rowIndex less),fun target => ?_⟩
    by_cases found : ∃ bucket ∈ buckets.entries, bucket.1.toNat = target
    · obtain ⟨bucket,inside,rfl⟩ := found
      have item := List.mem_map_of_mem (f := fun bucket : Int × List Nat =>
        (bucket.1.toNat,RecordRouter.slice (blockRoutes arrays columns) record bucket.2)) inside
      rw [filter_key _ keys _ _ item,filterMap_ownRoute affine named names routable bucket.1 (allowed bucket inside),
        flatMap_cons,flatMap_nil,append_nil,
        taggedRows_slice lawful columns record consistent numRows columnar bucket.2 (below bucket inside),
        (bucketed.mem bucket.1 bucket.2).mp inside |>.2]
    · rw [filter_eq_nil_iff.mpr,flatMap_nil]
      · refine (filterMap_eq_nil_iff.mpr (fun rowIndex inside => ?_)).symm
        have less := mem_range.mp inside
        rw [ownRoute_routable affine named names rowIndex less (routable rowIndex less),getD_some,if_neg]
        intro member
        obtain ⟨other,there,same⟩ := List.mem_map.mp member
        exact found ⟨_,bucketOf rowIndex less other there,same⟩
      · intro item inside same
        obtain ⟨bucket,member,rfl⟩ := List.mem_map.mp inside
        exact found ⟨bucket,member,of_decide_eq_true same⟩
  · obtain ⟨rowIndex,bad⟩ := not_forall.mp routable
    obtain ⟨less,refused⟩ := Classical.not_imp.mp bad
    have raises : (if numRows ≠ 0 ∧ bucketRoutes buckets = [] then none
        else RecordRouter.routed (.ok (router.yieldColumnar (blockRoutes arrays columns) record numRows (bucketRoutes buckets) [] [] false,()))) =
          none := by
      split
      · rfl
      · apply RecordRouter.routed_raises
        by_cases fine : ∀ bucket ∈ buckets.entries, router.Allowed bucket.1 ∧ bucket.2.Nodup
        · obtain ⟨-,ends⟩ := RecordRouter.yieldColumnar_ok (blockRoutes arrays columns) affine record numRows buckets.entries [] []
            (fun bucket inside => (fine bucket inside).1) buckets.distinct (by simp) (fun bucket inside => by
              obtain ⟨some',same⟩ := (bucketed.mem bucket.1 bucket.2).mp inside
              exact ⟨same ▸ some',(fine bucket inside).2,below bucket inside⟩)
          intro finished
          have covered := ends.mp finished
          have once : (named rowIndex).Nodup := by
            refine once_of_nodup named numRows (fun target => ?_) rowIndex less
            by_cases nothing : occurrences named numRows target = []
            · rw [nothing]
              exact nodup_nil
            · exact (fine _ ((bucketed.mem target _).mpr ⟨nothing,rfl⟩)).2
          have nothing : named rowIndex = [] := by
            by_contra some'
            exact refused ⟨some',once,fun target names => (fine _ (bucketOf rowIndex less target names)).1⟩
          have missing := filter_eq_nil_iff.mp covered rowIndex (mem_range.mpr less)
          have member : rowIndex ∈ [] ++ buckets.entries.flatMap Prod.snd := by simpa using missing
          obtain ⟨bucket,inside,there⟩ := mem_flatMap.mp member
          rw [(bucketed.mem bucket.1 bucket.2).mp inside |>.2] at there
          have names := ((mem_occurrences named numRows _ _).mp there).2
          rw [nothing] at names
          cases names
        · refine RecordRouter.yieldColumnar_error _ affine record numRows buckets.entries [] [] below ?_
          obtain ⟨bucket,refused⟩ := not_forall.mp fine
          exact ⟨bucket,Classical.not_imp.mp refused⟩
    rw [raises]
    exact ⟨rowIndex,less,ownRoute_refused named names rowIndex less refused⟩

omit lawful in
theorem whole_agrees_iff (target : Int) (only : ∀ rowIndex < numRows, ∀ other ∈ named rowIndex, other = target)
    (some' : ∃ rowIndex < numRows, target ∈ named rowIndex)
    (routes : router.partitioner.partitionColumnar () record numRows = .ok ([(target,none)],())) :
    RoutesAgree arrays columns router record numRows ↔
      (router.Allowed target → ∀ rowIndex < numRows, named rowIndex = [target]) := by
  obtain ⟨first,less,there⟩ := some'
  have positive : ¬ (numRows ≠ 0 ∧ [(target,(none : Option (List Int)))] = []) := by simp
  unfold RoutesAgree
  rw [RecordRouter.routed_columnar _ () () record numRows columnar _ routes,if_neg positive]
  by_cases allowed : router.Allowed target
  · have followed : RecordRouter.routed (.ok (router.yieldColumnar (blockRoutes arrays columns) record numRows [(target,none)] [] [] false,())) =
        some [(target.toNat,record)] := by
      rw [RecordRouter.yieldColumnar,RecordRouter.validateTarget_ok _ _ allowed]
      dsimp only
      rw [if_neg (by simp),RecordRouter.yieldTo_ok affine _ allowed]
      rfl
    rw [followed,forall_prop_of_true allowed]
    dsimp only
    have length : (taggedRows arrays record).length = numRows := by
      rw [(consistent.aligned record).length]
      unfold Record.rows
      rw [columnar]
      rfl
    constructor
    · intro agrees rowIndex less
      obtain ⟨-,each,-⟩ := agrees
      obtain ⟨nonempty,once,-⟩ := (ownRoute_isSome affine named names rowIndex less).mp (each rowIndex less)
      rcases same : named rowIndex with _ | ⟨one,_ | ⟨other,rest⟩⟩
      · exact absurd same nonempty
      · rw [only rowIndex less one (by rw [same]; exact mem_singleton.mpr rfl)]
      · rw [same] at once
        have one' := only rowIndex less one (by rw [same]; exact mem_cons_self)
        have other' := only rowIndex less other (by rw [same]; exact mem_cons_of_mem _ mem_cons_self)
        refine absurd ?_ (nodup_cons.mp once).1
        rw [one',other']
        exact mem_cons_self
    · intro all
      have own (rowIndex : Nat) (less : rowIndex < numRows) :
          ownRoute arrays columns router record rowIndex = some [target.toNat] := by
        refine (ownRoute_routable affine named names rowIndex less ?_).trans (by rw [all rowIndex less]; rfl)
        rw [all rowIndex less]
        exact ⟨by simp,nodup_singleton _,by simpa using allowed⟩
      refine ⟨nodup_singleton _,fun rowIndex less => by rw [own rowIndex less]; rfl,fun other => ?_⟩
      by_cases same : target.toNat = other
      · subst same
        rw [filter_cons_of_pos (by simp),filter_nil,flatMap_cons,flatMap_nil,append_nil]
        refine Eq.trans (filterMap_range (taggedRows arrays record)).symm ?_
        rw [length]
        refine filterMap_congr (fun rowIndex inside => ?_)
        rw [own rowIndex (mem_range.mp inside)]
        exact (if_pos (by simp)).symm
      · rw [filter_cons_of_neg (by simpa using same),filter_nil,flatMap_nil]
        refine (filterMap_eq_nil_iff.mpr (fun rowIndex inside => ?_)).symm
        rw [own rowIndex (mem_range.mp inside)]
        exact if_neg (by simpa using Ne.symm same)
  · have raises : RecordRouter.routed (.ok (router.yieldColumnar (blockRoutes arrays columns) record numRows [(target,none)] [] [] false,())) =
        none := by
      apply RecordRouter.routed_raises
      obtain ⟨text,refused⟩ := RecordRouter.validateTarget_error "columnar route" target allowed
      rw [RecordRouter.yieldColumnar,refused]
      simp
    rw [raises]
    refine iff_of_true ⟨first,less,ownRoute_refused named names first less (fun routable => ?_)⟩ (fun given => absurd given allowed)
    exact allowed (routable.2.2 target there)

end agreement

section partitioners
variable {γ ν δ α τ κ : Type} (arrays : ArrayOps γ ν δ α τ) (columns : ColumnOps (Block γ ν α))

def rowRouter (partitioner : RowPartitioner γ ν α κ) (targetCount : Nat) (controlTargetIndices : List Nat) :
    RecordRouter Unit (Block γ ν α) := ⟨partitioner.partitioner arrays targetCount,targetCount,controlTargetIndices⟩

/-- The rows together name one target that data may go to, as often as there are rows,
though not each of them once. -/
def Misled (partitioner : RowPartitioner γ ν α κ) (targetCount : Nat) (controlTargetIndices : List Nat)
    (record : Record (Block γ ν α)) (numRows : Nat) : Prop :=
  match partitioner with
  | .key _ => False
  | .simple fn => ∃ target, (rowRouter arrays partitioner targetCount controlTargetIndices).Allowed target ∧
      ∃ named : Nat → List Int, (∀ rowIndex < numRows, fn (routedRow arrays record rowIndex) targetCount = .ok (named rowIndex)) ∧
        (∀ rowIndex < numRows, ∀ other ∈ named rowIndex, other = target) ∧
        ((List.range numRows).map (fun rowIndex => (named rowIndex).length)).sum = numRows ∧
        ∃ rowIndex < numRows, named rowIndex ≠ [target]

/-- A keyed row goes to the one target whose range has its key group, if data may go there. -/
def KeyedRows (partitioner : RowPartitioner γ ν α κ) (targetCount : Nat) (controlTargetIndices : List Nat) : Prop :=
  match partitioner with
  | .simple _ => True
  | .key selector => 0 < targetCount → targetCount ≤ selector.maxParallelism →
      ∀ row : Record (Block γ ν α), row.numRows = none → ∀ key, selector.select row.block = .ok key →
        ∀ keyGroup, selector.keyGroupForKey key = .ok keyGroup → ∃ target,
          (∀ subtaskIndex, (∃ range, State.assignKeyGroupRange selector.maxParallelism targetCount subtaskIndex = .ok range ∧
            keyGroup ∈ range) ↔ subtaskIndex = target) ∧
          RecordRouter.routed ((rowRouter arrays partitioner targetCount controlTargetIndices).route (blockRoutes arrays columns) () row) =
            if target ∈ controlTargetIndices then some [(target,row)] else none

variable {arrays columns}

theorem keyedRows (partitioner : RowPartitioner γ ν α κ) (targetCount : Nat) (controlTargetIndices : List Nat) :
    KeyedRows arrays columns partitioner targetCount controlTargetIndices := by
  cases partitioner with
  | simple fn => exact trivial
  | key selector =>
    intro positive within row rowShaped key selects keyGroup grouped
    have inside : keyGroup < selector.maxParallelism := by
      unfold KeySelector.keyGroupForKey at grouped
      rw [if_neg (by omega)] at grouped
      obtain ⟨hash,-,rfl⟩ := map_ok grouped
      exact Nat.mod_lt _ (by omega)
    have owner := State.keyGroupOwner_ok selector.maxParallelism targetCount positive within keyGroup inside
    have less := State.keyGroupOwner_lt selector.maxParallelism targetCount positive keyGroup inside
    have names : (rowRouter arrays (.key selector) targetCount controlTargetIndices).partitioner.partition () row =
        .ok ([((keyGroup * targetCount / selector.maxParallelism : Nat) : Int)],()) := by
      have targeted : selector.targetOf targetCount row.block = .ok ((keyGroup * targetCount / selector.maxParallelism : Nat) : Int) := by
        unfold KeySelector.targetOf KeySelector.targetForKey
        rw [ok_bind selects,ok_bind grouped,ok_bind owner]
        rfl
      exact ok_bind targeted
    refine ⟨keyGroup * targetCount / selector.maxParallelism,fun subtaskIndex => ?_,?_⟩
    · constructor
      · intro ⟨range,assigned,member⟩
        by_cases known : subtaskIndex < targetCount
        · obtain ⟨range',assigned',-,members⟩ := State.assignKeyGroupRange_ok selector.maxParallelism targetCount positive within
            subtaskIndex known
          obtain rfl := Except.ok.inj (assigned.symm.trans assigned')
          exact ((members keyGroup).mp member).2.symm
        · unfold State.assignKeyGroupRange at assigned
          rw [ok_bind (State.validateParallelism_ok _ _ positive within),if_neg known] at assigned
          cases assigned
      · rintro rfl
        obtain ⟨range,assigned,-,members⟩ := State.assignKeyGroupRange_ok selector.maxParallelism targetCount positive within _ less
        exact ⟨range,assigned,(members keyGroup).mpr ⟨inside,rfl⟩⟩
    · by_cases known : keyGroup * targetCount / selector.maxParallelism ∈ controlTargetIndices
      · rw [if_pos known]
        refine RecordRouter.routed_row _ (fun _ => rfl) () () row rowShaped _ names ⟨by simp,nodup_singleton _,fun target member => ?_⟩
        rw [mem_singleton.mp member]
        exact ⟨Int.natCast_nonneg _,by exact_mod_cast less,known⟩
      · rw [if_neg known]
        refine RecordRouter.routed_row_refused _ () () row rowShaped _ names (fun routable => known ?_)
        exact (routable.2.2 _ (mem_singleton.mpr rfl)).2.2

section rows
variable {router : RecordRouter Unit (Block γ ν α)} {record : Record (Block γ ν α)} {numRows : Nat}
  (columnar : record.numRows = some numRows)
include columnar

theorem raises_agree (text text' : String) (bad : Nat) (less : bad < numRows)
    (raises : router.partitioner.partition () (routedRow arrays record bad) = .error text)
    (raises' : router.partitioner.partitionColumnar () record numRows = .error text') :
    RoutesAgree arrays columns router record numRows := by
  have ends : RecordRouter.routed (router.route (blockRoutes arrays columns) () record) = none := by
    unfold RecordRouter.route
    rw [columnar]
    dsimp only
    unfold RecordRouter.routeColumnar
    rw [raises']
    rfl
  unfold RoutesAgree
  rw [ends]
  refine ⟨bad,less,?_⟩
  unfold ownRoute
  rw [RecordRouter.routed_row_error _ () (routedRow arrays record bad) rfl text raises]
  rfl

end rows

theorem bucketRows_ok (targetsOf : Nat → Except String (List Int)) (named : Nat → List Int) (numRows : Nat)
    (names : ∀ rowIndex < numRows, targetsOf rowIndex = .ok (named rowIndex)) :
    ∃ buckets, bucketRows targetsOf (List.range numRows) ∅ = .ok buckets ∧ Bucketed buckets (occurrences named numRows) := by
  have nothing : Bucketed ∅ (fun _ => []) := fun _ => ⟨rfl,by simp⟩
  obtain ⟨buckets,done,bucketed⟩ := nothing.rows targetsOf named (List.range numRows)
    (fun rowIndex inside => names rowIndex (mem_range.mp inside))
  exact ⟨buckets,done,bucketed.congr _ (fun target => nil_append _)⟩

def namedBy (targetsOf : Nat → Except String (List Int)) (rowIndex : Nat) : List Int := (targetsOf rowIndex).toOption.getD []

theorem known_or_raises (targetsOf : Nat → Except String (List Int)) (numRows : Nat) :
    (∀ rowIndex < numRows, targetsOf rowIndex = .ok (namedBy targetsOf rowIndex)) ∨
      ∃ rowIndex < numRows, ∃ text, targetsOf rowIndex = .error text := by
  by_cases known : ∃ rowIndex < numRows, ∃ text, targetsOf rowIndex = .error text
  · exact .inr known
  · refine .inl (fun rowIndex less => ?_)
    unfold namedBy
    cases named : targetsOf rowIndex with
    | error text => exact absurd ⟨rowIndex,less,text,named⟩ known
    | ok targets => rfl

section kinds
variable (lawful : arrays.Lawful) (targetCount : Nat) (controlTargetIndices : List Nat) (record : Record (Block γ ν α))
  (consistent : Consistent arrays record) (numRows : Nat) (columnar : record.numRows = some numRows)
include lawful consistent columnar

theorem key_agrees (selector : KeySelector γ ν α κ) :
    RoutesAgree arrays columns (rowRouter arrays (.key selector) targetCount controlTargetIndices) record numRows := by
  obtain known | ⟨bad,less,text,raises⟩ := known_or_raises (fun rowIndex => do
    return [← selector.targetOf targetCount (routedRow arrays record rowIndex).block]) numRows
  · generalize namedBy _ = named at known
    have single (rowIndex : Nat) (less : rowIndex < numRows) : ∃ target, named rowIndex = [target] := by
      obtain ⟨target,-,same⟩ := bind_ok (known rowIndex less)
      exact ⟨target,(Except.ok.inj same).symm⟩
    have names (rowIndex : Nat) (less : rowIndex < numRows) :
        (rowRouter arrays (.key selector) targetCount controlTargetIndices).partitioner.partition () (routedRow arrays record rowIndex) =
          .ok (named rowIndex,()) := by
      obtain ⟨target,targeted,same⟩ := bind_ok (known rowIndex less)
      rw [← Except.ok.inj same]
      exact ok_bind targeted
    obtain ⟨buckets,done,bucketed⟩ := bucketRows_ok _ named numRows known
    have routes := @ok_bind _ _ _ _ (fun buckets : Dict Int (List Nat) => (pure (match buckets.entries with
      | [(target,_)] => [(target,none)]
      | _ => bucketRoutes buckets,()) : Except String (List (Int × Option (List Int)) × Unit))) buckets done
    match entries : buckets.entries with
    | [(target,rowIndices)] =>
      rw [entries] at routes
      obtain ⟨only,some'⟩ := (single_bucket named numRows buckets bucketed target).mp ⟨rowIndices,entries⟩
      refine (whole_agrees_iff consistent columnar (fun _ => rfl) named names target only some' routes).mpr (fun _ rowIndex less => ?_)
      obtain ⟨other,same⟩ := single rowIndex less
      rw [same,only rowIndex less other (by rw [same]; exact mem_singleton.mpr rfl)]
    | [] =>
      rw [entries] at routes
      exact buckets_agree lawful consistent columnar (fun _ => rfl) named names buckets bucketed routes
    | first::second::rest =>
      rw [entries] at routes
      exact buckets_agree lawful consistent columnar (fun _ => rfl) named names buckets bucketed routes
  · obtain ⟨text',ends⟩ := bucketRows_error ∅ (fun rowIndex => do
      return [← selector.targetOf targetCount (routedRow arrays record rowIndex).block]) (List.range numRows) bad
      (mem_range.mpr less) text raises
    refine raises_agree columnar text text' bad less ?_ ?_
    · cases targeted : selector.targetOf targetCount (routedRow arrays record bad).block with
      | ok target =>
        rw [targeted] at raises
        cases raises
      | error other =>
        rw [targeted] at raises
        cases raises
        change (do return ([← selector.targetOf targetCount (routedRow arrays record bad).block],())) = _
        rw [targeted]
        rfl
    · change (do
        let buckets ← bucketRows _ (List.range numRows) ∅
        _) = _
      rw [ends]
      rfl

theorem simple_agrees_iff (fn : Record (Block γ ν α) → Nat → Except String (List Int)) :
    RoutesAgree arrays columns (rowRouter (κ := κ) arrays (.simple fn) targetCount controlTargetIndices) record numRows ↔
      ¬ Misled (κ := κ) arrays (.simple fn) targetCount controlTargetIndices record numRows := by
  obtain known | ⟨bad,less,text,raises⟩ := known_or_raises (fun rowIndex => fn (routedRow arrays record rowIndex) targetCount) numRows
  · generalize namedBy _ = named at known
    have names (rowIndex : Nat) (less : rowIndex < numRows) :
        (rowRouter (κ := κ) arrays (.simple fn) targetCount controlTargetIndices).partitioner.partition () (routedRow arrays record rowIndex) =
          .ok (named rowIndex,()) := ok_bind (known rowIndex less)
    obtain ⟨buckets,done,bucketed⟩ := bucketRows_ok _ named numRows known
    have routes := @ok_bind _ _ _ _ (fun buckets : Dict Int (List Nat) => (pure (match buckets.entries with
      | [(target,rowIndices)] => if rowIndices.length = numRows then [(target,none)] else bucketRoutes buckets
      | _ => bucketRoutes buckets,()) : Except String (List (Int × Option (List Int)) × Unit))) buckets done
    -- the targets that a row is named with are those of `fn`
    have misled : Misled (κ := κ) arrays (.simple fn) targetCount controlTargetIndices record numRows ↔
        ∃ target, (rowRouter (κ := κ) arrays (.simple fn) targetCount controlTargetIndices).Allowed target ∧
          (∀ rowIndex < numRows, ∀ other ∈ named rowIndex, other = target) ∧
          ((List.range numRows).map (fun rowIndex => (named rowIndex).length)).sum = numRows ∧
          ∃ rowIndex < numRows, named rowIndex ≠ [target] := by
      constructor
      · intro ⟨target,allowed,named',known',rest⟩
        have same (rowIndex : Nat) (less : rowIndex < numRows) : named' rowIndex = named rowIndex :=
          Except.ok.inj ((known' rowIndex less).symm.trans (known rowIndex less))
        obtain ⟨only,total,bad,less,differs⟩ := rest
        refine ⟨target,allowed,fun rowIndex less => same rowIndex less ▸ only rowIndex less,?_,bad,less,same bad less ▸ differs⟩
        refine Eq.trans (congrArg List.sum (map_congr_left (fun rowIndex inside => ?_))) total
        rw [same rowIndex (mem_range.mp inside)]
      · intro ⟨target,allowed,rest⟩
        exact ⟨target,allowed,named,known,rest⟩
    rw [misled]
    have single (target : Int) := single_bucket named numRows buckets bucketed target
    by_cases whole : ∃ target rowIndices, buckets.entries = [(target,rowIndices)] ∧ rowIndices.length = numRows
    · obtain ⟨target,rowIndices,entries,total⟩ := whole
      obtain ⟨only,some'⟩ := (single target).mp ⟨rowIndices,entries⟩
      have bucket : (target,rowIndices) ∈ buckets.entries := by rw [entries]; exact mem_singleton.mpr rfl
      have counted : ((List.range numRows).map (fun rowIndex => (named rowIndex).length)).sum = numRows := by
        rw [← occurrences_length named numRows target only,← ((bucketed.mem target rowIndices).mp bucket).2]
        exact total
      rw [entries] at routes
      dsimp only at routes
      rw [if_pos total] at routes
      rw [whole_agrees_iff consistent columnar (fun _ => rfl) named names target only some' routes]
      constructor
      · intro all
        rintro ⟨other,allowed,only',-,bad,less,differs⟩
        obtain ⟨first,less',there⟩ := some'
        obtain rfl := only' first less' target there
        exact differs (all allowed bad less)
      · intro agrees allowed rowIndex less
        by_contra differs
        exact agrees ⟨target,allowed,only,counted,rowIndex,less,differs⟩
    · have routes' : (rowRouter (κ := κ) arrays (.simple fn) targetCount controlTargetIndices).partitioner.partitionColumnar () record numRows =
          .ok (bucketRoutes buckets,()) := by
        refine Eq.trans routes ?_
        split
        next target rowIndices entries =>
          rw [if_neg (fun total => whole ⟨target,rowIndices,entries,total⟩)]
          rfl
        · rfl
      refine iff_of_true (buckets_agree lawful consistent columnar (fun _ => rfl) named names buckets bucketed routes') ?_
      rintro ⟨target,-,only,total,bad,less,-⟩
      have some' : ∃ rowIndex < numRows, target ∈ named rowIndex := by
        have positive : 0 < ((List.range numRows).map (fun rowIndex => (named rowIndex).length)).sum := by omega
        obtain ⟨length,member,positive⟩ := List.sum_pos_iff_exists_pos_nat.mp positive
        obtain ⟨rowIndex,inside,rfl⟩ := List.mem_map.mp member
        have less := mem_range.mp inside
        obtain ⟨other,there⟩ := exists_mem_of_length_pos positive
        exact ⟨rowIndex,less,only rowIndex less other there ▸ there⟩
      obtain ⟨rowIndices,entries⟩ := (single target).mpr ⟨only,some'⟩
      have bucket : (target,rowIndices) ∈ buckets.entries := by rw [entries]; exact mem_singleton.mpr rfl
      refine whole ⟨target,rowIndices,entries,?_⟩
      rw [((bucketed.mem target rowIndices).mp bucket).2,occurrences_length named numRows target only]
      exact total
  · obtain ⟨text',ends⟩ := bucketRows_error ∅ (fun rowIndex => fn (routedRow arrays record rowIndex) targetCount) (List.range numRows) bad
      (mem_range.mpr less) text raises
    refine iff_of_true (raises_agree columnar text text' bad less ?_ ?_) ?_
    · change (do return (← fn (routedRow arrays record bad) targetCount,())) = _
      rw [raises]
      rfl
    · change (do
        let buckets ← bucketRows _ (List.range numRows) ∅
        _) = _
      rw [ends]
      rfl
    · rintro ⟨target,-,named,known,-⟩
      rw [known bad less] at raises
      cases raises

/-- A columnar record is routed as its rows are, and keyed rows go to the owner of their
key group, exactly when the rows do not mislead the count of one bucket. -/
theorem routing_agrees_iff (partitioner : RowPartitioner γ ν α κ) :
    (RoutesAgree arrays columns (rowRouter arrays partitioner targetCount controlTargetIndices) record numRows ∧
      KeyedRows arrays columns partitioner targetCount controlTargetIndices) ↔
        ¬ Misled arrays partitioner targetCount controlTargetIndices record numRows := by
  have keyed := @keyedRows _ _ _ _ _ _ arrays columns partitioner targetCount controlTargetIndices
  rw [and_iff_left keyed]
  cases partitioner with
  | simple fn => exact simple_agrees_iff lawful targetCount controlTargetIndices record consistent numRows columnar fn
  | key selector => exact iff_of_true (key_agrees lawful targetCount controlTargetIndices record consistent numRows columnar selector) id

end kinds
end partitioners

section runs

def numberRows (values : List Nat) : Record (Block Nat (List Nat) (List Nat)) :=
  ⟨.columnar (.mapping (Dict.ofList [("a",.ndarray values)])),some values.length,none,none,none,none⟩

theorem numberRows_consistent (values : List Nat) : Consistent (objectArrays 0) (numberRows values) where
  rowShaped := fun same => by cases same
  columnar := fun numRows same => by
    cases same
    refine ⟨_,rfl,fun column inside => ?_⟩
    rw [mem_singleton.mp inside]
    rfl
  kinds := fun _ same => by cases same
  stamps := fun _ same => by cases same

def numberColumns : ColumnOps (Block Nat (List Nat) (List Nat)) where
  retainedSize := fun _ => 0
  sliceRows := fun block start stop => block.sliceRows (objectArrays 0) start stop
  rowBlock := fun block index kind => block.rowBlock (objectArrays 0) index kind
  merge := fun _ => .error "no input batches here"
  numRows := fun _ => 0
  validateRecord := fun _ => none
  validateColumns := fun _ => none

def numberOf (block : Block Nat (List Nat) (List Nat)) : Nat :=
  match block with
  | .row cells _ => (cells.get? "a").getD 0
  | .columnar _ => 0

def byNumber : KeySelector Nat (List Nat) (List Nat) Nat := ⟨fun block => .ok (numberOf block),.ok,4⟩

/-- Two rows with keys of different subtasks. -/
theorem keyed_numbers :
    RoutesAgree (objectArrays 0) numberColumns (rowRouter (objectArrays 0) (.key byNumber) 2 [0,1]) (numberRows [1,3]) 2 ∧
      KeyedRows (objectArrays 0) numberColumns (.key byNumber) 2 [0,1] :=
  (routing_agrees_iff (objectArrays_lawful 0) 2 [0,1] (numberRows [1,3]) (numberRows_consistent [1,3]) 2 rfl (.key byNumber)).mpr id

def uneven : RowPartitioner Nat (List Nat) (List Nat) Nat :=
  .simple (fun record _ => .ok (if numberOf record.block = 1 then [0,0] else []))

/-- Neither row may be routed by itself, but both are routed together. -/
theorem uneven_rows_are_routed :
    RecordRouter.routed ((rowRouter (objectArrays 0) uneven 1 [0]).route (blockRoutes (objectArrays 0) numberColumns) () (numberRows [1,2])) =
        some [(0,numberRows [1,2])] ∧
      ownRoute (objectArrays 0) numberColumns (rowRouter (objectArrays 0) uneven 1 [0]) (numberRows [1,2]) 0 = none ∧
      ¬ RoutesAgree (objectArrays 0) numberColumns (rowRouter (objectArrays 0) uneven 1 [0]) (numberRows [1,2]) 2 := by
  have whole : RecordRouter.routed ((rowRouter (objectArrays 0) uneven 1 [0]).route (blockRoutes (objectArrays 0) numberColumns) ()
      (numberRows [1,2])) = some [(0,numberRows [1,2])] := rfl
  have own : ownRoute (objectArrays 0) numberColumns (rowRouter (objectArrays 0) uneven 1 [0]) (numberRows [1,2]) 0 = none := rfl
  refine ⟨whole,own,fun agrees => ?_⟩
  unfold RoutesAgree at agrees
  rw [whole] at agrees
  have some' := agrees.2.1 0 (by decide)
  rw [own] at some'
  cases some'

end runs
end Klein.Dataflow
