import Klein.EventTime.WindowAssignment
import Klein.EventTime.WindowInputs

/-! Tumbling and sliding windows: each one that took a record is emitted once, with the
fold of what it took, in the order of arrival. -/
namespace Klein.EventTime
open Fallible List Option
namespace WindowOperator
variable {κ β : Type} [DecidableEq κ] (c : WindowConfig κ β)

section records
variable (apart : c.assigner.isMerging = false)

structure Takes (o : WindowOperator κ β) (key : κ) (block : β) (windows : List TimeWindow) (next : WindowOperator κ β) : Prop where
  state : ∀ entry, next.state.get? entry =
    if entry.1 = key ∧ entry.2 ∈ windows ∧ o.currentWatermark < cleanupTimestamp c entry.2 then join c (o.state.get? entry) block
    else o.state.get? entry
  results : next.results = o.results
  currentWatermark : next.currentWatermark = o.currentWatermark
  scheduled : Scheduled c o → Scheduled c next

include apart in
theorem processWindow_takes (o : WindowOperator κ β) (key : κ) (block : β) (window : TimeWindow) :
    Takes c o key block [window] (o.processWindow c key block window).1 := by
  have plan : o.sessionMergePlan c key window = (window,[]) := by
    unfold sessionMergePlan
    rw [apart]
    rfl
  by_cases late : cleanupTimestamp c window ≤ o.currentWatermark
  · have same : (o.processWindow c key block window).1 = o := by
      unfold processWindow
      rw [plan]
      dsimp only
      rw [if_pos late]
    rw [same]
    refine ⟨fun entry => ?_,rfl,rfl,fun scheduled => scheduled⟩
    rw [if_neg]
    intro taken
    obtain ⟨-,inside,timely⟩ := taken
    obtain rfl := mem_singleton.mp inside
    omega
  · have touches := (processWindow_touches c o key block window (by rw [plan]; exact Int.not_le.mp late)).2
    rw [plan] at touches
    refine ⟨fun entry => ?_,touches.results,touches.currentWatermark,touches.scheduled c o _ key block window []⟩
    have own : prior c o key window [] = o.state.get? (key,window) := by simp [prior]
    rw [touches.state,own]
    by_cases same : entry = (key,window)
    · subst same
      rw [if_pos rfl,if_pos ⟨rfl,mem_singleton.mpr rfl,Int.not_le.mp late⟩]
      rfl
    · rw [if_neg same,if_neg (by simp),if_neg]
      intro taken
      obtain ⟨key',inside,-⟩ := taken
      exact same (Prod.ext key' (mem_singleton.mp inside))

include apart in
theorem processWindows_takes (block : β) (windows : List TimeWindow) (once : windows.Nodup) (progress : WindowOperator κ β × Bool) :
    Takes c progress.1 (c.keySelector block) block windows (windows.foldl (fun progress window =>
      let (next,late) := progress.1.processWindow c (c.keySelector block) block window
      (next,progress.2 || late)) progress).1 := by
  induction windows generalizing progress with
  | nil => exact ⟨fun entry => by simp,rfl,rfl,fun scheduled => scheduled⟩
  | cons window rest ih =>
    obtain ⟨absent,remaining⟩ := nodup_cons.mp once
    have first := processWindow_takes c apart progress.1 (c.keySelector block) block window
    have later := ih remaining ((progress.1.processWindow c (c.keySelector block) block window).1,
      progress.2 || (progress.1.processWindow c (c.keySelector block) block window).2)
    refine ⟨fun entry => ?_,later.results.trans first.results,later.currentWatermark.trans first.currentWatermark,
      fun scheduled => later.scheduled (first.scheduled scheduled)⟩
    rw [foldl_cons]
    have state := later.state entry
    dsimp only at state ⊢
    rw [state,first.currentWatermark,first.state]
    by_cases own : entry.2 = window
    · have outside : entry.2 ∉ rest := own ▸ absent
      simp [own,absent]
    · simp [own]

include apart in
theorem processManagedElement_takes (o : WindowOperator κ β) (block : β) (timestamp : Int)
    (once : (c.assigner.assignWindows timestamp).Nodup) :
    Takes c o (c.keySelector block) block (c.assigner.assignWindows timestamp) (o.processManagedElement c block timestamp) := by
  have takes := processWindows_takes c apart block _ once (o,false)
  unfold processManagedElement
  dsimp only
  split
  · exact ⟨takes.state,takes.results,takes.currentWatermark,fun scheduled =>
      ⟨(takes.scheduled scheduled).distinct,(takes.scheduled scheduled).exact⟩⟩
  · exact takes

end records

section runs

def accepted (watermark : Int) : List (WindowInput β) → κ × TimeWindow → List β
  | [],_ => []
  | .record block timestamp :: rest,entry =>
    (if entry.1 = c.keySelector block ∧ entry.2 ∈ c.assigner.assignWindows timestamp ∧ watermark < cleanupTimestamp c entry.2
      then [block] else []) ++ accepted watermark rest entry
  | .watermark timestamp :: rest,entry => accepted (max watermark timestamp) rest entry

structure Tallied (o : WindowOperator κ β) (taken : κ × TimeWindow → List β) : Prop where
  scheduled : Scheduled c o
  state : ∀ entry, o.state.get? entry = if cleanupTimestamp c entry.2 ≤ o.currentWatermark then none else reduced c (taken entry)
  once : (o.results.map Prod.fst).Nodup
  results : ∀ entry value, (entry,value) ∈ o.results ↔
    cleanupTimestamp c entry.2 ≤ o.currentWatermark ∧ reduced c (taken entry) = some value

variable (o next : WindowOperator κ β) (taken : κ × TimeWindow → List β)

theorem Tallied.init (early : ∀ entry : κ × TimeWindow, taken entry = []) : Tallied c (init : WindowOperator κ β) taken where
  scheduled := ⟨nodup_nil,by simp [WindowOperator.init]⟩
  state entry := by
    rw [early]
    exact (ite_self none).symm
  once := nodup_nil
  results entry value := by
    rw [early]
    simp [WindowOperator.init,reduced]

theorem Tallied.takes (tallied : Tallied c o taken) (key : κ) (block : β) (windows : List TimeWindow)
    (takes : Takes c o key block windows next) : Tallied c next (fun entry => taken entry ++
      if entry.1 = key ∧ entry.2 ∈ windows ∧ o.currentWatermark < cleanupTimestamp c entry.2 then [block] else []) where
  scheduled := takes.scheduled tallied.scheduled
  state entry := by
    rw [takes.state,takes.currentWatermark,tallied.state]
    by_cases late : cleanupTimestamp c entry.2 ≤ o.currentWatermark
    · rw [if_pos late,if_pos late,if_neg]
      exact fun taken => absurd late (Int.not_le.mpr taken.2.2)
    · rw [if_neg late,if_neg late]
      split
      · rw [reduced_append]
      · rw [append_nil]
  once := by
    rw [takes.results]
    exact tallied.once
  results entry value := by
    rw [takes.results,takes.currentWatermark,tallied.results]
    refine and_congr_right (fun late => ?_)
    rw [if_neg,append_nil]
    exact fun taken => absurd late (Int.not_le.mpr taken.2.2)

theorem Tallied.fires (tallied : Tallied c o taken) (timestamp : Int) (later : o.currentWatermark ≤ timestamp)
    (fires : Fires c o timestamp next) : Tallied c next taken where
  scheduled := fires.scheduled
  state entry := by
    rw [fires.state,fires.currentWatermark,tallied.state]
    by_cases past : cleanupTimestamp c entry.2 ≤ timestamp
    · rw [if_pos past,if_pos past]
    · rw [if_neg past,if_neg past,if_neg (fun before => past (before.trans later))]
  once := by
    obtain ⟨fired,results,distinct,exact'⟩ := fires.results
    rw [results,map_append]
    refine tallied.once.append distinct (fun entry mine theirs => ?_)
    obtain ⟨result,inside,rfl⟩ := List.mem_map.mp mine
    obtain ⟨other,inside',same⟩ := List.mem_map.mp theirs
    have passed := ((tallied.results result.1 result.2).mp inside).1
    have held := ((exact' other.1 other.2).mp inside').1
    rw [same,tallied.state,if_pos passed] at held
    cases held
  results entry value := by
    obtain ⟨fired,results,distinct,exact'⟩ := fires.results
    rw [results,fires.currentWatermark,mem_append,tallied.results,exact',tallied.state]
    by_cases before : cleanupTimestamp c entry.2 ≤ o.currentWatermark
    · simp [before,before.trans later]
    · simp [before,and_comm]

section
variable (apart : c.assigner.isMerging = false) (once : ∀ timestamp, (c.assigner.assignWindows timestamp).Nodup)
include apart once

theorem Tallied.input (tallied : Tallied c o taken) (input : WindowInput β) (done : o.step c input = some next) :
    Tallied c next (fun entry => taken entry ++ accepted c o.currentWatermark [input] entry) ∧
      ∀ rest entry, accepted c o.currentWatermark (input :: rest) entry =
        accepted c o.currentWatermark [input] entry ++ accepted c next.currentWatermark rest entry := by
  cases input with
  | record block timestamp =>
    obtain ⟨-,rfl⟩ := step_record c o next block timestamp done
    have takes := processManagedElement_takes c apart o block timestamp (once timestamp)
    constructor
    · have tallied := tallied.takes c o _ taken _ block _ takes
      simpa only [accepted,append_nil] using tallied
    · intro rest entry
      rw [takes.currentWatermark]
      simp only [accepted,append_nil]
  | watermark timestamp =>
    obtain rfl := some.inj done
    have none_taken (entry : κ × TimeWindow) : accepted c o.currentWatermark [.watermark timestamp] entry = [] := rfl
    simp only [none_taken,append_nil,nil_append]
    by_cases later : o.currentWatermark < timestamp
    · have fires := onEventTimeWatermark_fires c o tallied.scheduled timestamp later
      refine ⟨tallied.fires c o _ taken timestamp later.le fires,fun rest entry => ?_⟩
      rw [fires.currentWatermark]
      exact congrArg (fun mark => accepted c mark rest entry) (max_eq_right later.le)
    · have same : o.onEventTimeWatermark c timestamp = o := if_pos (Int.not_lt.mp later)
      rw [same]
      exact ⟨tallied,fun rest entry => congrArg (fun mark => accepted c mark rest entry) (max_eq_left (Int.not_lt.mp later))⟩

theorem Tallied.run
    (inputs : List (WindowInput β)) (o final : WindowOperator κ β) (taken : κ × TimeWindow → List β) (tallied : Tallied c o taken)
    (run : Runs.exec (WindowOperator.step c) o inputs = some final) :
    Tallied c final (fun entry => taken entry ++ accepted c o.currentWatermark inputs entry) := by
  induction inputs generalizing o taken with
  | nil =>
    obtain rfl := some.inj run
    simpa only [accepted,append_nil] using tallied
  | cons input rest ih =>
    obtain ⟨next,done,remaining⟩ := bind_eq_some_iff.mp run
    obtain ⟨after,split⟩ := tallied.input c o next taken apart once input done
    have same : (fun entry => taken entry ++ accepted c o.currentWatermark (input :: rest) entry) = fun entry =>
        taken entry ++ accepted c o.currentWatermark [input] entry ++ accepted c next.currentWatermark rest entry := by
      funext entry
      rw [split,append_assoc]
    rw [same]
    exact ih next _ after remaining

end

theorem Tallied.finish (tallied : Tallied c o taken) : ((o.finish c).results.map Prod.fst).Nodup ∧
    ∀ entry value, (entry,value) ∈ (o.finish c).results ↔
      cleanupTimestamp c entry.2 ≤ max lastTimestamp o.currentWatermark ∧ reduced c (taken entry) = some value := by
  have fires := finish_fires c o tallied.scheduled
  by_cases later : o.currentWatermark ≤ lastTimestamp
  · have after := tallied.fires c o _ taken lastTimestamp later fires
    rw [max_eq_left later]
    exact ⟨after.once,after.results⟩
  · obtain ⟨fired,results,-,exact'⟩ := fires.results
    have beyond := Int.not_le.mp later
    have none_fired : fired = [] := by
      refine eq_nil_iff_forall_not_mem.mpr (fun result inside => ?_)
      obtain ⟨held,past⟩ := (exact' result.1 result.2).mp inside
      rw [tallied.state,if_pos (past.trans beyond.le)] at held
      cases held
    rw [none_fired,append_nil] at results
    change (o.finish c).results = o.results at results
    rw [results,max_eq_right beyond.le]
    exact ⟨tallied.once,tallied.results⟩

theorem run_exists (apart : c.assigner.isMerging = false) (once : ∀ timestamp, (c.assigner.assignWindows timestamp).Nodup)
    (inputs : List (WindowInput β)) (o : WindowOperator κ β) (taken : κ × TimeWindow → List β) (tallied : Tallied c o taken)
    (small : ∀ timer ∈ o.timers, timer.timestamp < 2 ^ 64)
    (fits : ∀ block timestamp, .record block timestamp ∈ inputs → 0 ≤ timestamp ∧
      ∀ window ∈ c.assigner.assignWindows timestamp, cleanupTimestamp c window < 2 ^ 64) :
    ∃ final, Runs.exec (WindowOperator.step c) o inputs = some final := by
  induction inputs generalizing o taken with
  | nil => exact ⟨o,rfl⟩
  | cons input rest ih =>
    have done : ∃ next, o.step c input = some next ∧ ∀ timer ∈ next.timers, timer.timestamp < 2 ^ 64 := by
      cases input with
      | record block timestamp =>
        obtain ⟨valid,ends⟩ := fits block timestamp mem_cons_self
        have takes := processManagedElement_takes c apart o block timestamp (once timestamp)
        have scheduled := takes.scheduled tallied.scheduled
        have bounded : ∀ timer ∈ (o.processManagedElement c block timestamp).timers, timer.timestamp < 2 ^ 64 := by
          intro timer inside
          obtain ⟨key,window,value,held,rfl⟩ := (scheduled.exact timer).mp inside
          rw [takes.state] at held
          split at held
          next new => exact ends window new.2.1
          next => exact small _ ((tallied.scheduled.exact _).mpr ⟨key,window,value,held,rfl⟩)
        refine ⟨_,?_,bounded⟩
        rw [WindowOperator.step,if_neg (Int.not_lt.mpr valid)]
        exact if_pos (List.all_eq_true.mpr (fun timer inside => decide_eq_true (bounded timer inside)))
      | watermark timestamp =>
        refine ⟨_,rfl,fun timer inside => ?_⟩
        by_cases later : o.currentWatermark < timestamp
        · have fires := onEventTimeWatermark_fires c o tallied.scheduled timestamp later
          obtain ⟨key,window,value,held,rfl⟩ := (fires.scheduled.exact timer).mp inside
          rw [fires.state] at held
          have before := (ite_none_left_eq_some.mp held).2
          exact small _ ((tallied.scheduled.exact _).mpr ⟨key,window,value,before,rfl⟩)
        · have same : o.onEventTimeWatermark c timestamp = o := if_pos (Int.not_lt.mp later)
          rw [same] at inside
          exact small timer inside
    obtain ⟨next,done,small'⟩ := done
    obtain ⟨after,-⟩ := tallied.input c o next taken apart once input done
    obtain ⟨final,run⟩ := ih next _ after small' (fun block timestamp inside => fits block timestamp (mem_cons_of_mem _ inside))
    refine ⟨final,?_⟩
    rw [Runs.exec_cons,done]
    exact run

end runs

section built

theorem made_aligned (size slide offset : Int) (assigner : WindowAssigner)
    (made : slidingWindow size slide offset = .ok assigner ∨ slide = size ∧ tumblingWindow size offset = .ok assigner)
    (whole : Whole size ∧ Whole slide ∧ Whole offset) : assigner.isMerging = false ∧
      ∀ timestamp, (assigner.assignWindows timestamp).Nodup ∧ ∀ window, window ∈ assigner.assignWindows timestamp ↔
        1000 * (window.stop - window.start) = size ∧ slide ∣ 1000 * window.start - offset ∧
          window.start ≤ timestamp ∧ timestamp < window.stop := by
  have scaled (size slide offset timestamp : Int) (windows : List TimeWindow)
      (aligned : WindowAssigner.Aligned size slide offset timestamp windows) : windows.Nodup ∧ ∀ window, window ∈ windows ↔
        1000 * (window.stop - window.start) = 1000 * size ∧ 1000 * slide ∣ 1000 * window.start - 1000 * offset ∧
          window.start ≤ timestamp ∧ timestamp < window.stop := by
    refine ⟨aligned.once,fun window => (aligned.exact window).trans (and_congr ?_ (and_congr ?_ Iff.rfl))⟩
    · omega
    · rw [← Int.mul_sub]
      exact (mul_dvd_mul_iff_left (by decide)).symm
  rcases made with made | ⟨rfl,made⟩
  · obtain ⟨sizeMs,first,made⟩ := bind_ok made
    obtain ⟨slideMs,second,made⟩ := bind_ok made
    obtain ⟨offsetMs,third,made⟩ := bind_ok made
    obtain rfl := Except.ok.inj made
    have size' := whole.1.eq _ _ (positiveMilliseconds_ok _ _ _ first)
    have slide' := whole.2.1.eq _ _ (positiveMilliseconds_ok _ _ _ second)
    have offset' := whole.2.2.eq _ _ third
    refine ⟨rfl,fun timestamp => ?_⟩
    rw [← size',← slide',← offset']
    exact scaled _ _ _ _ _ (WindowAssigner.sliding_aligned _ _ _ timestamp sizeMs.2 slideMs.2)
  · obtain ⟨sizeMs,first,made⟩ := bind_ok made
    obtain ⟨offsetMs,third,made⟩ := bind_ok made
    obtain rfl := Except.ok.inj made
    have size' := whole.1.eq _ _ (positiveMilliseconds_ok _ _ _ first)
    have offset' := whole.2.2.eq _ _ third
    refine ⟨rfl,fun timestamp => ?_⟩
    rw [← size',← offset']
    exact scaled _ _ _ _ _ (WindowAssigner.tumbling_aligned _ _ timestamp sizeMs.2)

/-- Durations that the conversion keeps: a timestamp is assigned to the windows that
contain it, each once; and a run with `finish` emits each window that took a record
once, with the fold of what it took, if and only if none of them is cleaned up later than
the bound of `finish` and the last watermark. -/
theorem aligned_windows_exact (base c : WindowConfig κ β) (size slide offset allowedLateness : Int) (assigner : WindowAssigner)
    (made : slidingWindow size slide offset = .ok assigner ∨ slide = size ∧ tumblingWindow size offset = .ok assigner)
    (ok : base.build assigner allowedLateness = .ok c)
    (whole : Whole size ∧ Whole slide ∧ Whole offset ∧ Whole allowedLateness) :
    (∀ timestamp, (c.assigner.assignWindows timestamp).Nodup ∧ ∀ window, window ∈ c.assigner.assignWindows timestamp ↔
      1000 * (window.stop - window.start) = size ∧ slide ∣ 1000 * window.start - offset ∧
        window.start ≤ timestamp ∧ timestamp < window.stop) ∧
    (∀ window, 1000 * cleanupTimestamp c window = 1000 * (window.stop - 1) + allowedLateness) ∧
    ∀ inputs,
      ((∀ block timestamp, .record block timestamp ∈ inputs → 0 ≤ timestamp ∧
        ∀ window ∈ c.assigner.assignWindows timestamp, cleanupTimestamp c window < 2 ^ 64) →
          ∃ final, Runs.exec (WindowOperator.step c) init inputs = some final) ∧
      ∀ final, Runs.exec (WindowOperator.step c) init inputs = some final →
        ((((final.finish c).results.map Prod.fst).Nodup ∧ ∀ entry value, (entry,value) ∈ (final.finish c).results ↔
            reduced c (accepted c (-1) inputs entry) = some value) ↔
          ∀ entry, accepted c (-1) inputs entry ≠ [] → cleanupTimestamp c entry.2 ≤ max lastTimestamp final.currentWatermark) := by
  obtain ⟨allowedLatenessMs,computed,valid,rfl⟩ := WindowConfig.build_ok base c assigner allowedLateness ok
  have lateness := whole.2.2.2.eq _ _ computed
  obtain ⟨apart,aligned⟩ := made_aligned size slide offset assigner made ⟨whole.1,whole.2.1,whole.2.2.1⟩
  have start := Tallied.init {base with
    assigner := assigner
    allowedLatenessMs := allowedLatenessMs.toNat} (fun _ => []) (fun _ => rfl)
  refine ⟨aligned,fun window => ?_,fun inputs => ⟨fun fits => ?_,fun final run => ?_⟩⟩
  · unfold cleanupTimestamp
    dsimp only
    omega
  · exact run_exists _ apart (fun timestamp => (aligned timestamp).1) inputs init _ start (by simp [init]) fits
  · have tallied := start.run _ apart (fun timestamp => (aligned timestamp).1) inputs init final _ run
    obtain ⟨distinct,emitted⟩ := tallied.finish _ final _
    simp only [nil_append] at emitted
    constructor
    · intro both entry took
      obtain ⟨value,known⟩ := ne_none_iff_exists'.mp (fun absent => took ((reduced_eq_none _ _).mp absent))
      exact ((emitted entry value).mp ((both.2 entry value).mpr known)).1
    · intro bounded
      refine ⟨distinct,fun entry value => (emitted entry value).trans (and_iff_right_of_imp (fun known => bounded entry ?_))⟩
      intro took
      change reduced _ (accepted _ (-1) inputs entry) = some value at known
      rw [took] at known
      cases known

end built

section sums

def sums (assigner : WindowAssigner) : WindowConfig Unit Nat where
  keySelector _ := ()
  assigner := assigner
  reduceFunction := (· + ·)
  allowedLatenessMs := 0
  rank window := window.start.toNat
  digest _ window := window.start.toNat

private theorem ten_positive : 0 < (10 : Int) := by decide

def tenths : WindowAssigner := .tumbling 10 0 ten_positive

theorem ten_milliseconds : milliseconds 10000 = .ok 10 := by decide +kernel

theorem tenths_made : tumblingWindow 10000 0 = .ok tenths := by
  unfold tumblingWindow positiveMilliseconds
  rw [ten_milliseconds,milliseconds_zero]
  rfl

theorem sums_built (base : WindowAssigner) (assigner : WindowAssigner) : (sums base).build assigner 0 = .ok (sums assigner) := by
  unfold WindowConfig.build
  rw [milliseconds_zero]
  rfl

/-- Two records of one window are emitted as their sum. -/
theorem tenths_emitted : ∃ final, Runs.exec (WindowOperator.step (sums tenths)) init [.record 1 3,.record 2 7] = some final ∧
    ((((),⟨0,10,by decide⟩) : Unit × TimeWindow),3) ∈ (final.finish (sums tenths)).results := by
  have whole : Whole 10000 ∧ Whole 10000 ∧ Whole 0 ∧ Whole 0 := by
    have size : Whole 10000 := ⟨10,ten_milliseconds,rfl⟩
    exact ⟨size,size,⟨0,milliseconds_zero,rfl⟩,0,milliseconds_zero,rfl⟩
  have window (timestamp : Int) (early : 0 ≤ timestamp) (late : timestamp < 10) :
      (sums tenths).assigner.assignWindows timestamp = [⟨0,10,by decide⟩] := by
    have quotient : timestamp / 10 = 0 := by omega
    simp [sums,tenths,WindowAssigner.assignWindows,quotient]
  obtain ⟨-,-,runs⟩ := aligned_windows_exact (sums tenths) (sums tenths) 10000 10000 0 0 tenths (.inr ⟨rfl,tenths_made⟩)
    (sums_built tenths tenths) whole
  obtain ⟨exist,exact⟩ := runs [.record 1 3,.record 2 7]
  have fits : ∀ block timestamp, WindowInput.record block timestamp ∈ [WindowInput.record 1 3,.record 2 7] → 0 ≤ timestamp ∧
      ∀ window ∈ (sums tenths).assigner.assignWindows timestamp, cleanupTimestamp (sums tenths) window < 2 ^ 64 := by
    intro block timestamp inside
    simp only [mem_cons,WindowInput.record.injEq,not_mem_nil,or_false] at inside
    rcases inside with ⟨rfl,rfl⟩ | ⟨rfl,rfl⟩
    · rw [window 3 (by decide) (by decide)]
      simp [cleanupTimestamp,sums]
    · rw [window 7 (by decide) (by decide)]
      simp [cleanupTimestamp,sums]
  obtain ⟨final,run⟩ := exist fits
  refine ⟨final,run,?_⟩
  have emitted := ((exact final run).mpr (fun entry took => ?_)).2 ((),⟨0,10,by decide⟩) 3
  · refine emitted.mpr ?_
    simp only [accepted,window 3 (by decide) (by decide),window 7 (by decide) (by decide)]
    rfl
  · simp only [accepted,window 3 (by decide) (by decide),window 7 (by decide) (by decide)] at took
    by_cases own : entry.2 = ⟨0,10,by decide⟩
    · rw [own]
      exact le_max_of_le_left (by decide)
    · exact absurd (by simp [own]) took

/-- A size of 1001 milliseconds becomes 1000. -/
theorem millisecond_lost : ∃ assigner, tumblingWindow 1001000 0 = .ok assigner ∧
    ¬ ∃ window ∈ assigner.assignWindows 1000, 1000 * (window.stop - window.start) = 1001000 := by
  have size : milliseconds 1001000 = .ok 1000 := by decide +kernel
  refine ⟨.tumbling 1000 0 (by decide),?_,?_⟩
  · unfold tumblingWindow positiveMilliseconds
    rw [size,milliseconds_zero]
    rfl
  · simp [WindowAssigner.assignWindows]

end sums

end WindowOperator
end Klein.EventTime
