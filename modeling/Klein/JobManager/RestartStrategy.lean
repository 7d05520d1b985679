import Mathlib.Data.List.Induction
import Klein.Binary64

/-! The restart policy of the job master (`runtime/scheduler/restart_strategy.py`): triggers are
counted while they lie in a window that slides with the clock. -/
namespace Klein.JobManager
open List

structure FixedDelayRestartStrategy where
  maxAttempts : Nat
  countInterval : ℚ
  window : List Int

namespace FixedDelayRestartStrategy

section calls
variable (round : ℚ → ℚ) (strategy : FixedDelayRestartStrategy) (now : Int)

/-- `round` is the rounding of a float difference. -/
def expired (time : Int) : Bool := (time : ℚ) < round (now - strategy.countInterval)

/-- `_prune` -/
def prune : List Int := strategy.window.dropWhile (strategy.expired round now)

def recordAndShouldSuppress : (Bool × Nat) × FixedDelayRestartStrategy :=
  let window := strategy.prune round now ++ [now]
  ((strategy.maxAttempts < window.length,window.length),{strategy with window := window})

def windowView : (Nat × Nat × Int) × FixedDelayRestartStrategy :=
  let window := strategy.prune round now
  ((window.length,strategy.maxAttempts,Binary64.truncate strategy.countInterval),{strategy with window := window})

/-- The calls of the supervisor are marked, those of the progress view are not. -/
def run (calls : List (Bool × Int)) : FixedDelayRestartStrategy :=
  calls.foldl (fun strategy call =>
    if call.1 then (strategy.recordAndShouldSuppress round call.2).2 else (strategy.windowView round call.2).2) strategy

end calls

def triggers (calls : List (Bool × Int)) : List Int := (calls.filter Prod.fst).map Prod.snd

def attempts (round : ℚ → ℚ) (strategy : FixedDelayRestartStrategy) (calls : List (Bool × Int)) (now : Int) : Nat :=
  (triggers calls).countP (fun time => !strategy.expired round now time)

section runs
variable (round : ℚ → ℚ) (monotone : Monotone round) (strategy : FixedDelayRestartStrategy) (fresh : strategy.window = [])
  (calls : List (Bool × Int)) (now : Int) (ordered : (calls.map Prod.snd ++ [now]).Pairwise (· ≤ ·))

include monotone

theorem expired_earlier (first second earlier later : Int) (order : first ≤ second) (before : earlier ≤ later)
    (old : strategy.expired round earlier second = true) : strategy.expired round later first = true := by
  have start := monotone (sub_le_sub_right (Int.cast_le (R := ℚ).mpr before) strategy.countInterval)
  have order : (first : ℚ) ≤ second := Int.cast_le.mpr order
  simp only [expired,decide_eq_true_eq] at old ⊢
  linarith

theorem prune_sorted (times : List Int) (sorted : times.Pairwise (· ≤ ·)) :
    prune round {strategy with window := times} now = times.filter (fun time => !strategy.expired round now time) := by
  induction sorted with
  | nil => rfl
  | @cons first rest later _ ih =>
    cases old : strategy.expired round now first with
    | true =>
      rw [filter_cons_of_neg (by simp [old]),← ih]
      exact dropWhile_cons_of_pos old
    | false =>
      have kept : ∀ time ∈ first::rest, (!strategy.expired round now time) = true := by
        intro time inside
        have := expired_earlier round monotone strategy first time now now (by grind) le_rfl
        grind
      rw [List.filter_eq_self.mpr kept]
      exact dropWhile_cons_of_neg (ne_true_of_eq_false old)

include fresh ordered

theorem run_prune : ∃ window, strategy.run round calls = {strategy with window := window} ∧
    prune round {strategy with window := window} now = (triggers calls).filter (fun time => !strategy.expired round now time) := by
  induction calls using List.reverseRecOn generalizing now with
  | nil => exact ⟨[],by rw [← fresh]; rfl,rfl⟩
  | append_singleton before call ih =>
    rw [map_append,append_assoc] at ordered
    obtain ⟨window,reached,pruned⟩ := ih call.2 (ordered.sublist (by simp))
    have later : call.2 ≤ now := by simpa using (pairwise_append.mp ordered).2.1
    have split : triggers (before ++ [call]) = triggers before ++ triggers [call] := by simp [triggers]
    have sorted : (triggers (before ++ [call])).Pairwise (· ≤ ·) :=
      ordered.sublist (List.Sublist.trans (filter_sublist.map _) (by simp))
    rw [split] at sorted ⊢
    refine ⟨(triggers before).filter (fun time => !strategy.expired round call.2 time) ++ triggers [call],?_,?_⟩
    · rw [run,foldl_concat,← run,reached,recordAndShouldSuppress,windowView,pruned]
      cases trigger : call.1 <;> simp [triggers,trigger]
    · rw [prune_sorted round monotone _ _ _ (sorted.sublist (filter_sublist.append_right _))]
      rw [filter_append,filter_append,List.filter_filter]
      congr 1
      refine List.filter_congr (fun time _ => ?_)
      have := expired_earlier round monotone strategy time time call.2 now le_rfl later
      grind

/-- While the clock does not run back, a trigger is suppressed exactly when it is more than the
allowed number of triggers in the window that ends with it, however often the window is viewed. -/
theorem suppressed_iff_frequent :
    ((strategy.run round calls).recordAndShouldSuppress round now).1 =
      (decide (strategy.maxAttempts ≤ strategy.attempts round calls now),strategy.attempts round calls now + 1) ∧
    ((strategy.run round calls).windowView round now).1 =
      (strategy.attempts round calls now,strategy.maxAttempts,Binary64.truncate strategy.countInterval) := by
  obtain ⟨window,reached,pruned⟩ := run_prune round monotone strategy fresh calls now ordered
  rw [reached,recordAndShouldSuppress,windowView,pruned,attempts,countP_eq_length_filter]
  refine ⟨?_,rfl⟩
  rw [length_append,length_singleton,Prod.mk.injEq,decide_eq_decide]
  exact ⟨Nat.lt_succ_iff,rfl⟩

end runs

/-- The first trigger has left the window when the fourth comes and when it is viewed. -/
theorem third_suppressed :
    (((⟨2,60,[]⟩ : FixedDelayRestartStrategy).run id [(true,0),(false,5),(true,70),(true,75)]).recordAndShouldSuppress id 80).1 =
        (true,3) ∧
      (((⟨2,60,[]⟩ : FixedDelayRestartStrategy).run id [(true,0),(false,5),(true,70),(true,75)]).windowView id 80).1 = (2,2,60) := by
  obtain ⟨suppressed,viewed⟩ := suppressed_iff_frequent id monotone_id ⟨2,60,[]⟩ rfl
    [(true,0),(false,5),(true,70),(true,75)] 80 (by decide)
  exact ⟨suppressed.trans (by decide +kernel),viewed.trans (by decide +kernel)⟩

end FixedDelayRestartStrategy
end Klein.JobManager
