import Klein.EventTime.IntervalJoin
import Klein.Fallible

/-! What the interval join emits over a run. In every state the buckets hold the rows
of the run whose cleanup timestamp is ahead of the watermark; a row that comes in time
finds all of its partners there. -/
namespace Klein.EventTime
open Fallible List Option
namespace IntervalJoinOperator

section grouping
variable {ρ τ : Type} [DecidableEq τ]

theorem grouped_perm (rows : List ρ) (place : ρ → τ) (places : List τ) (distinct : places.Nodup) :
    (places.flatMap (fun at_ => rows.filter (fun row => place row = at_))).Perm (rows.filter (fun row => place row ∈ places)) := by
  induction places with
  | nil => simp
  | cons first rest ih =>
    obtain ⟨absent,remaining⟩ := nodup_cons.mp distinct
    rw [flatMap_cons]
    have both := filter_append_perm (fun row => decide (place row = first)) (rows.filter (fun row => place row ∈ first :: rest))
    rw [List.filter_filter,List.filter_filter] at both
    refine List.Perm.trans ?_ both
    refine List.Perm.append (List.Perm.of_eq (List.filter_congr (fun row _ => ?_))) ((ih remaining).trans (List.Perm.of_eq
      (List.filter_congr (fun row _ => ?_))))
    · by_cases same : place row = first <;> simp [same]
    · by_cases same : place row = first
      · simp [same,absent]
      · simp [same]

end grouping

structure Buckets {κ ρ : Type} [DecidableEq κ] (state : Dict (κ × Int) (List ρ)) (rows : List ρ) (key : ρ → κ) (time : ρ → Int)
    (live : Int → Prop) : Prop where
  stored : ∀ k bucket, live bucket → (state.get? (k,bucket)).getD [] = rows.filter (fun row => key row = k ∧ time row = bucket)
  gone : ∀ k bucket, ¬ live bucket → state.get? (k,bucket) = none

section buckets
variable {κ ρ : Type} [DecidableEq κ] (state : Dict (κ × Int) (List ρ)) (rows : List ρ) (key : ρ → κ) (time : ρ → Int)
  (live : Int → Prop) (buckets : Buckets state rows key time live)
include buckets

theorem Buckets.push (row : ρ) (alive : live (time row)) :
    Buckets (state.push (key row,time row) row) (rows ++ [row]) key time live where
  stored k bucket lives := by
    have before := buckets.stored k bucket lives
    unfold Dict.push
    rw [Dict.get?_set,filter_append,← before]
    by_cases same : (k,bucket) = (key row,time row)
    · obtain ⟨rfl,rfl⟩ := Prod.mk.inj same
      simp
    · rw [if_neg same]
      have other : ¬ (key row = k ∧ time row = bucket) := fun equal => same (by rw [equal.1,equal.2])
      simp [other]
  gone k bucket dead := by
    unfold Dict.push
    rw [Dict.get?_set,if_neg]
    · exact buckets.gone k bucket dead
    · intro same
      obtain ⟨-,rfl⟩ := Prod.mk.inj same
      exact dead alive

theorem Buckets.skip (row : ρ) (late : ¬ live (time row)) : Buckets state (rows ++ [row]) key time live where
  stored k bucket lives := by
    have other : ¬ (key row = k ∧ time row = bucket) := fun equal => late (equal.2 ▸ lives)
    rw [filter_append,buckets.stored k bucket lives]
    simp [other]
  gone := buckets.gone

theorem Buckets.expire (live' : Int → Prop) (fewer : ∀ bucket, live' bucket → live bucket) (state' : Dict (κ × Int) (List ρ))
    (kept : ∀ k bucket, live' bucket → state'.get? (k,bucket) = state.get? (k,bucket))
    (erased : ∀ k bucket, ¬ live' bucket → state'.get? (k,bucket) = none) : Buckets state' rows key time live' where
  stored k bucket lives := by
    rw [kept k bucket lives]
    exact buckets.stored k bucket (fewer bucket lives)
  gone := erased

theorem Buckets.partners_perm {α β : Type} (c : IntervalJoinConfig κ α β) (k : κ) (test : Int → Bool)
    (alive : ∀ bucket, test bucket = true → live bucket) :
    (partners c state k test).Perm (rows.filter (fun row => key row = k ∧ test (time row) = true)) := by
  have listed (bucket : Int) : bucket ∈ namespaces c state k ↔ ∃ held, state.get? (k,bucket) = some held := by
    simp only [namespaces,mem_mergeSort,List.mem_map,mem_filter,decide_eq_true_eq,Dict.mem_keys]
    constructor
    · rintro ⟨⟨own,other⟩,⟨found,rfl⟩,rfl⟩
      exact found
    · exact fun found => ⟨(k,bucket),⟨found,rfl⟩,rfl⟩
  have distinct : (namespaces c state k).Nodup := by
    refine ((mergeSort_perm _ _).nodup_iff).mpr ?_
    refine List.Nodup.map_on ?_ (state.distinct.filter _)
    rintro ⟨first,bucket⟩ inside ⟨second,other⟩ inside' rfl
    have own : first = k := by simpa using (mem_filter.mp inside).2
    have own' : second = k := by simpa using (mem_filter.mp inside').2
    rw [own,own']
  have grouped := grouped_perm (rows.filter (fun row => key row = k)) time ((namespaces c state k).filter test) (distinct.filter test)
  have shared : partners c state k test = ((namespaces c state k).filter test).flatMap
      (fun bucket => (rows.filter (fun row => key row = k)).filter (fun row => time row = bucket)) := by
    refine flatMap_congr (fun bucket inside => ?_)
    rw [buckets.stored k bucket (alive bucket (mem_filter.mp inside).2),List.filter_filter]
    refine List.filter_congr (fun row _ => ?_)
    simp [Bool.and_comm]
  rw [shared]
  refine grouped.trans (List.Perm.of_eq ?_)
  rw [List.filter_filter]
  refine List.filter_congr (fun row inside => ?_)
  apply Bool.eq_iff_iff.mpr
  simp only [Bool.and_eq_true,decide_eq_true_eq,mem_filter,listed]
  constructor
  · exact fun found => ⟨found.2,found.1.2⟩
  · intro matched
    refine ⟨⟨?_,matched.2⟩,matched.1⟩
    have held := buckets.stored k (time row) (alive _ matched.2)
    cases found : state.get? (k,time row) with
    | some held => exact ⟨held,rfl⟩
    | none =>
      rw [found] at held
      have member : row ∈ rows.filter (fun row' => key row' = k ∧ time row' = time row) :=
        mem_filter.mpr ⟨inside,by simp [matched.1]⟩
      rw [← held] at member
      cases member

end buckets

variable {κ α β : Type} [DecidableEq κ] (c : IntervalJoinConfig κ α β)

def Holds (o : IntervalJoinOperator κ α β) (key : κ) (bucket : Int) : JoinSide → Prop
  | .left => ∃ rows, o.leftState.get? (key,bucket) = some rows
  | .right => ∃ rows, o.rightState.get? (key,bucket) = some rows

def cleanup (bucket : Int) : JoinSide → Int
  | .left => c.leftCleanup bucket
  | .right => c.rightCleanup bucket

structure Kept (o : IntervalJoinOperator κ α β) (lefts : List α) (rights : List β) : Prop where
  left : Buckets o.leftState lefts c.leftKey c.leftTimestamp (fun bucket => o.currentWatermark < c.leftCleanup bucket)
  right : Buckets o.rightState rights c.rightKey c.rightTimestamp (fun bucket => o.currentWatermark < c.rightCleanup bucket)
  timers : ∀ timer, timer ∈ o.timers ↔ timer.timestamp = cleanup c timer.bucket timer.side ∧ Holds o timer.key timer.bucket timer.side
  once : o.timers.Nodup

theorem Kept.init : Kept c (init : IntervalJoinOperator κ α β) [] [] where
  left := ⟨fun _ _ _ => rfl,fun _ _ _ => rfl⟩
  right := ⟨fun _ _ _ => rfl,fun _ _ _ => rfl⟩
  once := nodup_nil
  timers timer := by
    constructor
    · exact nofun
    · intro scheduled
      obtain ⟨-,held⟩ := scheduled
      cases side : timer.side with
      | left =>
        rw [side] at held
        obtain ⟨rows,found⟩ := held
        cases found
      | right =>
        rw [side] at held
        obtain ⟨rows,found⟩ := held
        cases found

section steps
variable (o next : IntervalJoinOperator κ α β) (lefts : List α) (rights : List β) (kept : Kept c o lefts rights)

theorem registerTimer_eq (timer : JoinTimer κ) (registered : o.registerTimer timer = some next) :
    next = {o with timers := o.timers.insert timer} := by
  unfold registerTimer at registered
  split at registered
  next => exact (some.inj registered).symm
  next => cases registered

theorem joinLeft_eq (row : α) (timestamp : Int) (joined : o.joinLeft c row timestamp = some next)
    (ahead : o.currentWatermark < c.leftCleanup timestamp) : next = {o with
      emitted := o.emitted ++ (partners c o.rightState (c.leftKey row) (c.within timestamp)).map (fun right => (row,right))
      leftState := o.leftState.push (c.leftKey row,timestamp) row
      timers := o.timers.insert ⟨c.leftCleanup timestamp,c.leftKey row,.left,timestamp⟩} := by
  unfold joinLeft at joined
  rw [if_neg (Int.not_le.mpr ahead)] at joined
  exact registerTimer_eq _ next _ joined

theorem joinRight_eq (row : β) (timestamp : Int) (joined : o.joinRight c row timestamp = some next)
    (ahead : o.currentWatermark < c.rightCleanup timestamp) : next = {o with
      emitted := o.emitted ++ (partners c o.leftState (c.rightKey row) (fun left => c.within left timestamp)).map (fun left => (left,row))
      rightState := o.rightState.push (c.rightKey row,timestamp) row
      timers := o.timers.insert ⟨c.rightCleanup timestamp,c.rightKey row,.right,timestamp⟩} := by
  unfold joinRight at joined
  rw [if_neg (Int.not_le.mpr ahead)] at joined
  exact registerTimer_eq _ next _ joined

theorem joinLeft_late (row : α) (timestamp : Int) (joined : o.joinLeft c row timestamp = some next)
    (late : c.leftCleanup timestamp ≤ o.currentWatermark) : next = {o with lateDrops := o.lateDrops + 1} := by
  unfold joinLeft at joined
  rw [if_pos late] at joined
  exact (some.inj joined).symm

theorem joinRight_late (row : β) (timestamp : Int) (joined : o.joinRight c row timestamp = some next)
    (late : c.rightCleanup timestamp ≤ o.currentWatermark) : next = {o with lateDrops := o.lateDrops + 1} := by
  unfold joinRight at joined
  rw [if_pos late] at joined
  exact (some.inj joined).symm

omit [DecidableEq κ] in
theorem holds_push {ρ : Type} [DecidableEq κ] (state : Dict (κ × Int) (List ρ)) (entry other : κ × Int) (row : ρ) :
    (∃ rows, (state.push entry row).get? other = some rows) ↔ other = entry ∨ ∃ rows, state.get? other = some rows := by
  unfold Dict.push
  rw [Dict.get?_set]
  by_cases same : other = entry
  · simp [same]
  · simp [same]

include kept

theorem Kept.joinLeft (row : α) (joined : o.joinLeft c row (c.leftTimestamp row) = some next) : Kept c next (lefts ++ [row]) rights := by
  by_cases ahead : o.currentWatermark < c.leftCleanup (c.leftTimestamp row)
  · obtain rfl := joinLeft_eq c o next row _ joined ahead
    refine ⟨kept.left.push _ _ _ _ _ row ahead,kept.right,fun timer => ?_,kept.once.insert⟩
    rw [mem_insert_iff,kept.timers timer]
    obtain ⟨timestamp,key,side,bucket⟩ := timer
    cases side with
    | left =>
      simp only [Holds,cleanup,holds_push,JoinTimer.mk.injEq,Prod.mk.injEq,true_and]
      constructor
      · intro either
        rcases either with ⟨rfl,rfl,rfl⟩ | ⟨rfl,found⟩
        · exact ⟨rfl,.inl ⟨rfl,rfl⟩⟩
        · exact ⟨rfl,.inr found⟩
      · intro scheduled
        obtain ⟨rfl,⟨rfl,rfl⟩ | found⟩ := scheduled
        · exact .inl ⟨rfl,rfl,rfl⟩
        · exact .inr ⟨rfl,found⟩
    | right => simp [Holds,cleanup]
  · obtain rfl := joinLeft_late c o next row _ joined (Int.not_lt.mp ahead)
    exact {kept with left := kept.left.skip _ _ _ _ _ row ahead}

theorem Kept.joinRight (row : β) (joined : o.joinRight c row (c.rightTimestamp row) = some next) : Kept c next lefts (rights ++ [row]) := by
  by_cases ahead : o.currentWatermark < c.rightCleanup (c.rightTimestamp row)
  · obtain rfl := joinRight_eq c o next row _ joined ahead
    refine ⟨kept.left,kept.right.push _ _ _ _ _ row ahead,fun timer => ?_,kept.once.insert⟩
    rw [mem_insert_iff,kept.timers timer]
    obtain ⟨timestamp,key,side,bucket⟩ := timer
    cases side with
    | left => simp [Holds,cleanup]
    | right =>
      simp only [Holds,cleanup,holds_push,JoinTimer.mk.injEq,Prod.mk.injEq,true_and]
      constructor
      · intro either
        rcases either with ⟨rfl,rfl,rfl⟩ | ⟨rfl,found⟩
        · exact ⟨rfl,.inl ⟨rfl,rfl⟩⟩
        · exact ⟨rfl,.inr found⟩
      · intro scheduled
        obtain ⟨rfl,⟨rfl,rfl⟩ | found⟩ := scheduled
        · exact .inl ⟨rfl,rfl,rfl⟩
        · exact .inr ⟨rfl,found⟩
  · obtain rfl := joinRight_late c o next row _ joined (Int.not_lt.mp ahead)
    exact {kept with right := kept.right.skip _ _ _ _ _ row ahead}

end steps

section watermarks

def slot (timer : JoinTimer κ) : JoinSide × κ × Int := (timer.side,timer.key,timer.bucket)

theorem fire_all (due : List (JoinTimer κ)) (o : IntervalJoinOperator κ α β) :
    (∀ key bucket, (due.foldl onTimer o).leftState.get? (key,bucket) =
      if (JoinSide.left,key,bucket) ∈ due.map slot then none else o.leftState.get? (key,bucket)) ∧
    (∀ key bucket, (due.foldl onTimer o).rightState.get? (key,bucket) =
      if (JoinSide.right,key,bucket) ∈ due.map slot then none else o.rightState.get? (key,bucket)) ∧
    (due.foldl onTimer o).timers = o.timers ∧ (due.foldl onTimer o).currentWatermark = o.currentWatermark ∧
    (due.foldl onTimer o).lateDrops = o.lateDrops ∧ (due.foldl onTimer o).emitted = o.emitted := by
  induction due generalizing o with
  | nil => simp
  | cons timer rest ih =>
    obtain ⟨first,second,others⟩ := ih (o.onTimer timer)
    obtain ⟨timestamp,own,side,place⟩ := timer
    cases side with
    | left =>
      refine ⟨fun key bucket => ?_,fun key bucket => ?_,others⟩
      · rw [foldl_cons,first]
        by_cases same : (key,bucket) = (own,place)
        · obtain ⟨rfl,rfl⟩ := Prod.mk.inj same
          simp [onTimer,slot]
        · simp [onTimer,slot,same,Prod.mk.injEq] at same ⊢
      · rw [foldl_cons,second]
        simp [onTimer,slot]
    | right =>
      refine ⟨fun key bucket => ?_,fun key bucket => ?_,others⟩
      · rw [foldl_cons,first]
        simp [onTimer,slot]
      · rw [foldl_cons,second]
        by_cases same : (key,bucket) = (own,place)
        · obtain ⟨rfl,rfl⟩ := Prod.mk.inj same
          simp [onTimer,slot]
        · simp [onTimer,slot,same,Prod.mk.injEq] at same ⊢

theorem fire_holds (due : List (JoinTimer κ)) (o : IntervalJoinOperator κ α β) (key : κ) (bucket : Int) (side : JoinSide) :
    Holds (due.foldl onTimer o) key bucket side ↔ Holds o key bucket side ∧ (side,key,bucket) ∉ due.map slot := by
  obtain ⟨left,right,-⟩ := fire_all due o
  cases side with
  | left =>
    unfold Holds
    rw [left]
    by_cases inside : (JoinSide.left,key,bucket) ∈ due.map slot <;> simp [inside]
  | right =>
    unfold Holds
    rw [right]
    by_cases inside : (JoinSide.right,key,bucket) ∈ due.map slot <;> simp [inside]

variable (o : IntervalJoinOperator κ α β) (lefts : List α) (rights : List β) (kept : Kept c o lefts rights)
include kept

theorem mem_due (timestamp : Int) (side : JoinSide) (key : κ) (bucket : Int) :
    (side,key,bucket) ∈ (o.dueTimers c timestamp).map slot ↔ cleanup c bucket side ≤ timestamp ∧ Holds o key bucket side := by
  have due (timer : JoinTimer κ) : timer ∈ o.dueTimers c timestamp ↔ timer ∈ o.timers ∧ timer.timestamp ≤ timestamp := by
    simp [dueTimers]
  rw [List.mem_map]
  constructor
  · intro found
    obtain ⟨timer,inside,same⟩ := found
    obtain ⟨scheduled,past⟩ := (due timer).mp inside
    obtain ⟨stamp,held⟩ := (kept.timers timer).mp scheduled
    cases same
    exact ⟨stamp ▸ past,held⟩
  · intro past
    exact ⟨⟨cleanup c bucket side,key,side,bucket⟩,(due _).mpr ⟨(kept.timers _).mpr ⟨rfl,past.2⟩,past.1⟩,rfl⟩

theorem Kept.watermark (timestamp : Int) (later : o.currentWatermark < timestamp) :
    Kept c (o.onEventTimeWatermark c timestamp) lefts rights := by
  unfold onEventTimeWatermark
  rw [if_neg (Int.not_le.mpr later)]
  obtain ⟨left,right,timers,watermark,-,-⟩ := fire_all (o.dueTimers c timestamp) {o with
    currentWatermark := timestamp
    timers := o.timers.filter (fun timer => ¬ timer.timestamp ≤ timestamp)}
  have listed := mem_due c o lefts rights kept timestamp
  refine ⟨?_,?_,fun timer => ?_,timers ▸ kept.once.filter _⟩
  · rw [watermark]
    refine kept.left.expire _ _ _ _ _ _ (fun bucket ahead => lt_trans later ahead) _ (fun key bucket ahead => ?_) (fun key bucket past => ?_)
    · rw [left,if_neg]
      exact fun inside => absurd ahead (not_lt.mpr ((listed .left key bucket).mp inside).1)
    · rw [left]
      split
      next => rfl
      next outside =>
        cases found : o.leftState.get? (key,bucket) with
        | none => rfl
        | some rows => exact absurd ((listed .left key bucket).mpr ⟨not_lt.mp past,rows,found⟩) outside
  · rw [watermark]
    refine kept.right.expire _ _ _ _ _ _ (fun bucket ahead => lt_trans later ahead) _ (fun key bucket ahead => ?_) (fun key bucket past => ?_)
    · rw [right,if_neg]
      exact fun inside => absurd ahead (not_lt.mpr ((listed .right key bucket).mp inside).1)
    · rw [right]
      split
      next => rfl
      next outside =>
        cases found : o.rightState.get? (key,bucket) with
        | none => rfl
        | some rows => exact absurd ((listed .right key bucket).mpr ⟨not_lt.mp past,rows,found⟩) outside
  · rw [timers,mem_filter,kept.timers timer,fire_holds,listed]
    have same : Holds {o with
        currentWatermark := timestamp
        timers := o.timers.filter (fun timer => ¬ timer.timestamp ≤ timestamp)} timer.key timer.bucket timer.side ↔
        Holds o timer.key timer.bucket timer.side := by
      cases timer.side <;> rfl
    rw [same,decide_eq_true_eq]
    constructor
    · intro scheduled
      obtain ⟨⟨stamp,held⟩,ahead⟩ := scheduled
      exact ⟨stamp,held,fun past => ahead (stamp ▸ past.1)⟩
    · intro scheduled
      obtain ⟨stamp,held,ahead⟩ := scheduled
      exact ⟨⟨stamp,held⟩,fun past => ahead ⟨stamp ▸ past,held⟩⟩

end watermarks

section spec

def pairs (test : α → β → Bool) (lefts : List α) (rights : List β) : List (α × β) :=
  lefts.flatMap (fun left => (rights.filter (test left)).map (fun right => (left,right)))

theorem pairs_left (test : α → β → Bool) (lefts : List α) (rights : List β) (left : α) :
    pairs test (lefts ++ [left]) rights = pairs test lefts rights ++ (rights.filter (test left)).map (fun right => (left,right)) := by
  simp [pairs]

theorem pairs_right (test : α → β → Bool) (lefts : List α) (rights : List β) (right : β) :
    (pairs test lefts (rights ++ [right])).Perm
      (pairs test lefts rights ++ (lefts.filter (fun left => test left right)).map (fun left => (left,right))) := by
  induction lefts with
  | nil => exact List.Perm.refl _
  | cons left rest ih =>
    have split (rights : List β) : pairs test (left :: rest) rights =
        (rights.filter (test left)).map (fun right => (left,right)) ++ pairs test rest rights := rfl
    rw [split,split,filter_append,map_append,append_assoc,append_assoc]
    refine List.Perm.append_left _ ?_
    cases matched : test left right with
    | false =>
      rw [filter_cons_of_neg (by simp [matched]),filter_cons_of_neg (by simp [matched])]
      exact ih
    | true =>
      rw [filter_cons_of_pos matched]
      have taken : (left :: rest).filter (fun left => test left right) = left :: rest.filter (fun left => test left right) :=
        filter_cons_of_pos matched
      rw [taken]
      exact (ih.cons (left,right)).trans perm_middle.symm

def lefts (inputs : List (JoinInput α β)) : List α := inputs.filterMap (fun input => match input with
  | .left row => some row
  | _ => none)

def rights (inputs : List (JoinInput α β)) : List β := inputs.filterMap (fun input => match input with
  | .right row => some row
  | _ => none)

def joins (left : α) (right : β) : Bool :=
  c.leftKey left = c.rightKey right ∧ c.within (c.leftTimestamp left) (c.rightTimestamp right) = true

/-- A row comes while the watermark is at most its timestamp plus the lateness that is
allowed, and a watermark is above the last one. -/
def Admissible (o : IntervalJoinOperator κ α β) : JoinInput α β → Prop
  | .left row => o.currentWatermark ≤ c.leftTimestamp row + c.allowedLatenessMs
  | .right row => o.currentWatermark ≤ c.rightTimestamp row + c.allowedLatenessMs
  | .watermark timestamp => o.currentWatermark < timestamp

instance (o : IntervalJoinOperator κ α β) (input : JoinInput α β) : Decidable (Admissible c o input) := by
  cases input <;> unfold Admissible <;> infer_instance

def Timely (o : IntervalJoinOperator κ α β) : JoinInput α β → Prop
  | .left row => o.currentWatermark < c.leftCleanup (c.leftTimestamp row)
  | .right row => o.currentWatermark < c.rightCleanup (c.rightTimestamp row)
  | .watermark _ => True

def Fits : JoinInput α β → Prop
  | .left row => 0 ≤ c.leftTimestamp row ∧ c.leftCleanup (c.leftTimestamp row) < 2 ^ 64
  | .right row => 0 ≤ c.rightTimestamp row ∧ c.rightCleanup (c.rightTimestamp row) < 2 ^ 64
  | .watermark _ => True

end spec

section runs
variable (o next : IntervalJoinOperator κ α β) (lefts' : List α) (rights' : List β)

theorem step_total (input : JoinInput α β) (low : -1 ≤ o.currentWatermark) (fits : Fits c input) :
    ∃ next, o.step c input = some next ∧ -1 ≤ next.currentWatermark ∧ o.lateDrops ≤ next.lateDrops := by
  cases input with
  | left row | right row =>
    rw [step,if_neg (Int.not_lt.mpr fits.1)]
    first | unfold joinLeft | unfold joinRight
    split
    next => exact ⟨_,rfl,low,Nat.le_succ _⟩
    next ahead =>
      unfold registerTimer
      rw [if_pos ⟨by dsimp only; omega,fits.2⟩]
      exact ⟨_,rfl,low,Nat.le_refl _⟩
  | watermark timestamp =>
    refine ⟨_,rfl,?_⟩
    unfold onEventTimeWatermark
    split
    next => exact ⟨low,Nat.le_refl _⟩
    next later =>
      obtain ⟨-,-,-,watermark,drops,-⟩ := fire_all (o.dueTimers c timestamp) {o with
        currentWatermark := timestamp
        timers := o.timers.filter (fun timer => ¬ timer.timestamp ≤ timestamp)}
      rw [watermark,drops]
      exact ⟨by dsimp only; omega,Nat.le_refl _⟩

theorem step_left (row : α) (taken : o.step c (.left row) = some next) : o.joinLeft c row (c.leftTimestamp row) = some next := by
  rw [step] at taken
  split at taken
  next => cases taken
  next => exact taken

theorem step_right (row : β) (taken : o.step c (.right row) = some next) : o.joinRight c row (c.rightTimestamp row) = some next := by
  rw [step] at taken
  split at taken
  next => cases taken
  next => exact taken

theorem step_late (input : JoinInput α β) (taken : o.step c input = some next) (late : ¬ Timely c o input) :
    next.lateDrops = o.lateDrops + 1 := by
  cases input with
  | left row => rw [joinLeft_late c o next row _ (step_left c o next row taken) (Int.not_lt.mp late)]
  | right row => rw [joinRight_late c o next row _ (step_right c o next row taken) (Int.not_lt.mp late)]
  | watermark timestamp => exact absurd trivial late

section
variable (kept : Kept c o lefts' rights') (input : JoinInput α β) (taken : o.step c input = some next)
include kept taken

theorem Kept.step :
    Kept c next (lefts' ++ lefts [input]) (rights' ++ rights [input]) := by
  cases input with
  | left row =>
    change Kept c next (lefts' ++ [row]) (rights' ++ [])
    rw [append_nil]
    exact kept.joinLeft c o next lefts' rights' row (step_left c o next row taken)
  | right row =>
    change Kept c next (lefts' ++ []) (rights' ++ [row])
    rw [append_nil]
    exact kept.joinRight c o next lefts' rights' row (step_right c o next row taken)
  | watermark timestamp =>
    obtain rfl := some.inj taken
    change Kept c _ (lefts' ++ []) (rights' ++ [])
    rw [append_nil,append_nil]
    by_cases later : o.currentWatermark < timestamp
    · exact kept.watermark c o lefts' rights' timestamp later
    · unfold onEventTimeWatermark
      rw [if_pos (Int.not_lt.mp later)]
      exact kept

theorem step_exact
    (admissible : Admissible c o input) (timely : Timely c o input) (exact : o.emitted.Perm (pairs (joins c) lefts' rights')) :
    next.lateDrops = o.lateDrops ∧
      next.emitted.Perm (pairs (joins c) (lefts' ++ lefts [input]) (rights' ++ rights [input])) := by
  cases input with
  | left row =>
    obtain rfl := joinLeft_eq c o next row _ (step_left c o next row taken) timely
    refine ⟨rfl,?_⟩
    change List.Perm _ (pairs (joins c) (lefts' ++ [row]) (rights' ++ []))
    rw [append_nil,pairs_left]
    have alive (bucket : Int) (inside : c.within (c.leftTimestamp row) bucket = true) : o.currentWatermark < c.rightCleanup bucket := by
      have bounds := of_decide_eq_true inside
      unfold Admissible at admissible
      unfold IntervalJoinConfig.rightCleanup
      omega
    have found := kept.right.partners_perm _ _ _ _ _ c (c.leftKey row) (c.within (c.leftTimestamp row)) alive
    refine exact.append ((found.trans (List.Perm.of_eq (List.filter_congr (fun right _ => ?_)))).map _)
    exact decide_eq_decide.mpr (and_congr eq_comm Iff.rfl)
  | right row =>
    obtain rfl := joinRight_eq c o next row _ (step_right c o next row taken) timely
    refine ⟨rfl,?_⟩
    change List.Perm _ (pairs (joins c) (lefts' ++ []) (rights' ++ [row]))
    rw [append_nil]
    refine List.Perm.trans ?_ (pairs_right (joins c) lefts' rights' row).symm
    have alive (bucket : Int) (inside : c.within bucket (c.rightTimestamp row) = true) : o.currentWatermark < c.leftCleanup bucket := by
      have bounds := of_decide_eq_true inside
      unfold Admissible at admissible
      unfold IntervalJoinConfig.leftCleanup
      omega
    exact exact.append ((kept.left.partners_perm _ _ _ _ _ c (c.rightKey row) (fun left => c.within left (c.rightTimestamp row)) alive).map _)
  | watermark timestamp =>
    obtain rfl := some.inj taken
    change _ ∧ List.Perm _ (pairs (joins c) (lefts' ++ []) (rights' ++ []))
    rw [append_nil,append_nil]
    unfold onEventTimeWatermark
    rw [if_neg (Int.not_le.mpr admissible)]
    obtain ⟨-,-,-,-,drops,emitted⟩ := fire_all (o.dueTimers c timestamp) {o with
      currentWatermark := timestamp
      timers := o.timers.filter (fun timer => ¬ timer.timestamp ≤ timestamp)}
    rw [drops,emitted]
    exact ⟨rfl,exact⟩

end

theorem run_total (inputs : List (JoinInput α β)) (o : IntervalJoinOperator κ α β) (low : -1 ≤ o.currentWatermark)
    (fits : ∀ input ∈ inputs, Fits c input) :
    ∃ final, Runs.exec (step c) o inputs = some final ∧ o.lateDrops ≤ final.lateDrops := by
  induction inputs generalizing o with
  | nil => exact ⟨o,rfl,Nat.le_refl _⟩
  | cons input rest ih =>
    obtain ⟨next,taken,low',drops⟩ := step_total c o input low (fits input mem_cons_self)
    obtain ⟨final,run,more⟩ := ih next low' (fun other inside => fits other (mem_cons_of_mem _ inside))
    refine ⟨final,?_,drops.trans more⟩
    rw [Runs.exec_cons,taken]
    exact run

theorem run_exact (inputs : List (JoinInput α β)) (o : IntervalJoinOperator κ α β) (kept : Kept c o lefts' rights')
    (low : -1 ≤ o.currentWatermark) (clean : o.lateDrops = 0) (exact : o.emitted.Perm (pairs (joins c) lefts' rights'))
    (admissible : Runs.Along (step c) (Admissible c) o inputs) (fits : ∀ input ∈ inputs, Fits c input) :
    ∃ final, Runs.exec (step c) o inputs = some final ∧
      ((final.lateDrops = 0 ∧ final.emitted.Perm (pairs (joins c) (lefts' ++ lefts inputs) (rights' ++ rights inputs))) ↔
        Runs.Along (step c) (Timely c) o inputs) := by
  induction inputs generalizing o lefts' rights' with
  | nil =>
    refine ⟨o,rfl,iff_of_true ⟨clean,?_⟩ trivial⟩
    change o.emitted.Perm (pairs (joins c) (lefts' ++ []) (rights' ++ []))
    rw [append_nil,append_nil]
    exact exact
  | cons input rest ih =>
    obtain ⟨next,taken,low',-⟩ := step_total c o input low (fits input mem_cons_self)
    have later (other : JoinInput α β) (inside : other ∈ rest) : Fits c other := fits other (mem_cons_of_mem _ inside)
    have along : Runs.Along (step c) (Timely c) o (input :: rest) ↔ Timely c o input ∧ Runs.Along (step c) (Timely c) next rest := by
      refine and_congr Iff.rfl ⟨fun each => each next taken,fun remaining other taken' => ?_⟩
      obtain rfl := some.inj (taken.symm.trans taken')
      exact remaining
    have run (final : IntervalJoinOperator κ α β) (done : Runs.exec (step c) next rest = some final) :
        Runs.exec (step c) o (input :: rest) = some final := by
      rw [Runs.exec_cons,taken]
      exact done
    by_cases timely : Timely c o input
    · obtain ⟨drops,found⟩ := step_exact c o next lefts' rights' kept input taken admissible.1 timely exact
      have onward := ih _ _ next (kept.step c o next lefts' rights' input taken) low' (drops.trans clean) found
        (admissible.2 next taken) later
      obtain ⟨final,done,same⟩ := onward
      refine ⟨final,run final done,?_⟩
      have whole : lefts' ++ lefts (input :: rest) = lefts' ++ lefts [input] ++ lefts rest ∧
          rights' ++ rights (input :: rest) = rights' ++ rights [input] ++ rights rest := by
        cases input <;> simp [lefts,rights]
      rw [whole.1,whole.2,same,along]
      exact ⟨fun remaining => ⟨timely,remaining⟩,fun both => both.2⟩
    · obtain ⟨final,done,more⟩ := run_total c rest next low' later
      refine ⟨final,run final done,iff_of_false (fun both => ?_) (fun each => timely (along.mp each).1)⟩
      rw [step_late c o next input taken timely] at more
      omega

theorem run_kept (inputs : List (JoinInput α β)) (o final : IntervalJoinOperator κ α β) (kept : Kept c o lefts' rights')
    (run : Runs.exec (step c) o inputs = some final) : Kept c final (lefts' ++ lefts inputs) (rights' ++ rights inputs) := by
  induction inputs generalizing o lefts' rights' with
  | nil =>
    obtain rfl := some.inj run
    simpa [lefts,rights] using kept
  | cons input rest ih =>
    obtain ⟨next,taken,run⟩ := bind_eq_some_iff.mp run
    have onward := ih _ _ next (kept.step c o next lefts' rights' input taken) run
    cases input <;> simpa [lefts,rights] using onward

end runs

omit [DecidableEq κ] in
theorem timely_around (o : IntervalJoinOperator κ α β) (below : c.lowerMs ≤ 0) (above : 0 ≤ c.upperMs) (input : JoinInput α β)
    (admissible : Admissible c o input) : Timely c o input := by
  cases input with
  | left row =>
    unfold Admissible at admissible
    unfold Timely IntervalJoinConfig.leftCleanup
    omega
  | right row =>
    unfold Admissible at admissible
    unfold Timely IntervalJoinConfig.rightCleanup
    omega
  | watermark timestamp => trivial

omit [DecidableEq κ] in
theorem build_ok (base built : IntervalJoinConfig κ α β) (lowerBound upperBound allowedLateness : Int)
    (ok : base.build lowerBound upperBound allowedLateness = .ok built) :
    ∃ lowerMs upperMs allowedLatenessMs, milliseconds lowerBound = .ok lowerMs ∧ milliseconds upperBound = .ok upperMs ∧
      milliseconds allowedLateness = .ok allowedLatenessMs ∧ lowerMs ≤ upperMs ∧ 0 ≤ allowedLatenessMs ∧ built = {base with
        lowerMs := lowerMs
        upperMs := upperMs
        allowedLatenessMs := allowedLatenessMs} := by
  unfold IntervalJoinConfig.build at ok
  obtain ⟨lowerMs,lower,ok⟩ := bind_ok ok
  obtain ⟨upperMs,upper,ok⟩ := bind_ok ok
  obtain ⟨allowedLatenessMs,lateness,ok⟩ := bind_ok ok
  refine ⟨lowerMs,upperMs,allowedLatenessMs,lower,upper,lateness,?_⟩
  by_cases crossed : upperMs < lowerMs
  · rw [if_pos crossed] at ok
    cases ok
  · rw [if_neg crossed] at ok
    by_cases negative : allowedLatenessMs < 0
    · rw [if_pos negative] at ok
      cases ok
    · rw [if_neg negative] at ok
      exact ⟨Int.not_lt.mp crossed,Int.not_lt.mp negative,(Except.ok.inj ok).symm⟩

/-- An operator whose bounds are whole milliseconds drops no row and emits exactly the
pairs of one key whose timestamps are within the bounds, if and only if every left row
comes before its timestamp and the upper bound and the lateness are passed, and every
right row before its own cleanup timestamp; bounds around zero let no row be late. -/
theorem interval_join_exact (base built : IntervalJoinConfig κ α β) (lowerBound upperBound allowedLateness : Int)
    (ok : base.build lowerBound upperBound allowedLateness = .ok built)
    (whole : Whole lowerBound ∧ Whole upperBound ∧ Whole allowedLateness)
    (inputs : List (JoinInput α β)) (admissible : Runs.Along (step built) (Admissible built) init inputs)
    (fits : ∀ input ∈ inputs, Fits built input) :
    ∃ final, Runs.exec (step built) init inputs = some final ∧
      ((final.lateDrops = 0 ∧ final.emitted.Perm (pairs (fun left right => base.leftKey left = base.rightKey right ∧
          lowerBound ≤ 1000 * (base.rightTimestamp right - base.leftTimestamp left) ∧
          1000 * (base.rightTimestamp right - base.leftTimestamp left) ≤ upperBound) (lefts inputs) (rights inputs))) ↔
        Runs.Along (step built) (Timely built) init inputs) ∧
      (lowerBound ≤ 0 → 0 ≤ upperBound → Runs.Along (step built) (Timely built) init inputs) := by
  obtain ⟨lowerMs,upperMs,allowedLatenessMs,first,second,third,-,-,rfl⟩ := build_ok base built lowerBound upperBound allowedLateness ok
  have lower := whole.1.eq _ _ first
  have upper := whole.2.1.eq _ _ second
  have lateness := whole.2.2.eq _ _ third
  obtain ⟨final,run,same⟩ := run_exact _ [] [] inputs init (.init _) (le_refl _) rfl (List.Perm.refl _) admissible fits
  have test : (fun left right => decide (base.leftKey left = base.rightKey right ∧
      lowerBound ≤ 1000 * (base.rightTimestamp right - base.leftTimestamp left) ∧
      1000 * (base.rightTimestamp right - base.leftTimestamp left) ≤ upperBound)) = joins {base with
        lowerMs := lowerMs
        upperMs := upperMs
        allowedLatenessMs := allowedLatenessMs} := by
    funext left right
    refine decide_eq_decide.mpr (and_congr Iff.rfl ?_)
    unfold IntervalJoinConfig.within
    rw [decide_eq_true_eq]
    dsimp only
    omega
  refine ⟨final,run,?_,fun below above => ?_⟩
  · rw [test]
    exact same
  · exact admissible.imp _ _ _ _ _ (fun o input => timely_around _ o (by dsimp only; omega) (by dsimp only; omega) input)

section rows

def stamps : IntervalJoinConfig Unit Int Int where
  leftKey _ := ()
  rightKey _ := ()
  leftTimestamp row := row
  rightTimestamp row := row
  lowerMs := 0
  upperMs := 0
  allowedLatenessMs := 0
  rank bucket := bucket.toNat
  digest _ _ bucket := bucket.toNat

def around : IntervalJoinConfig Unit Int Int := {stamps with
  lowerMs := -5
  upperMs := 5}

theorem five_milliseconds : milliseconds (-5000) = .ok (-5) ∧ milliseconds 5000 = .ok 5 := by decide +kernel

theorem around_built : stamps.build (-5000) 5000 0 = .ok around := by
  unfold IntervalJoinConfig.build
  rw [five_milliseconds.1,five_milliseconds.2,milliseconds_zero]
  rfl

/-- A pair around a watermark is emitted. -/
theorem around_joined : ∃ final, Runs.exec (step around) init [.left 3,.watermark 1,.right 1] = some final ∧
    final.lateDrops = 0 ∧ final.emitted.Perm [(3,1)] := by
  have whole : Whole (-5000) ∧ Whole 5000 ∧ Whole 0 :=
    ⟨⟨-5,five_milliseconds.1,rfl⟩,⟨5,five_milliseconds.2,rfl⟩,0,milliseconds_zero,rfl⟩
  have fits : ∀ input ∈ [JoinInput.left 3,.watermark 1,.right 1], Fits around input := by
    intro input inside
    simp only [mem_cons,not_mem_nil,or_false] at inside
    rcases inside with rfl | rfl | rfl
    · exact ⟨by decide,by decide⟩
    · trivial
    · exact ⟨by decide,by decide⟩
  obtain ⟨final,run,same,timely⟩ := interval_join_exact stamps around (-5000) 5000 0 around_built whole
    [.left 3,.watermark 1,.right 1] (by decide +kernel) fits
  exact ⟨final,run,same.mpr (timely (by decide) (by decide))⟩

def behind : IntervalJoinConfig Unit Int Int := {stamps with
  lowerMs := -10
  upperMs := -5}

theorem behind_built : stamps.build (-10000) (-5000) 0 = .ok behind := by
  have lower : milliseconds (-10000) = .ok (-10) := by decide +kernel
  unfold IntervalJoinConfig.build
  rw [lower,five_milliseconds.1,milliseconds_zero]
  rfl

/-- The left row comes with the watermark at its timestamp, and its partner is missing. -/
theorem behind_dropped : stamps.build (-10000) (-5000) 0 = .ok behind ∧
    Runs.Along (step behind) (Admissible behind) init [.right 0,.watermark 8,.left 8] ∧
    pairs (joins behind) [8] [0] = [(8,0)] ∧
    (Runs.exec (step behind) init [.right 0,.watermark 8,.left 8]).map (fun final => (final.lateDrops,final.emitted)) = some (1,[]) := by
  refine ⟨behind_built,?_,?_,?_⟩
  · decide +kernel
  · decide +kernel
  · decide +kernel

end rows

end IntervalJoinOperator
end Klein.EventTime
