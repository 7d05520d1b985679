import Mathlib.Data.Option.Basic
import Mathlib.Data.List.Basic

/-! Runs of partial step functions. A label that is not enabled has no successor
state; a run is a list of labels that were all enabled. Conditions on a run are
conditions on the state in which each of its labels is taken. -/
namespace Klein.Runs
open Option

variable {σ α : Type}

def exec (step : σ → α → Option σ) (initial : σ) (labels : List α) : Option σ :=
  labels.foldlM step initial

/-- Each label of the run meets `condition` in the state it is taken in. -/
def Along (step : σ → α → Option σ) (condition : σ → α → Prop) : σ → List α → Prop
  | _,[] => True
  | state,label::rest => condition state label ∧ ∀ next ∈ step state label, Along step condition next rest

instance decidableAlong (step : σ → α → Option σ) (condition : σ → α → Prop)
    [∀ state label, Decidable (condition state label)] :
    ∀ (labels : List α) (state : σ), Decidable (Along step condition state labels)
  | [],_ => .isTrue trivial
  | label::rest,state =>
    have := decidableAlong step condition rest
    inferInstanceAs (Decidable (condition state label ∧ ∀ next ∈ step state label, Along step condition next rest))

section
variable (step : σ → α → Option σ)
include step

@[simp] theorem exec_nil (state : σ) : exec step state [] = some state := rfl

@[simp] theorem exec_cons (state : σ) (label : α) (rest : List α) :
    exec step state (label::rest) = (step state label).bind (fun next => exec step next rest) := rfl

theorem exec_append (state : σ) (first second : List α) :
    exec step state (first++second) = (exec step state first).bind (fun next => exec step next second) := by
  simp [exec,List.foldlM_append,bind]

theorem exec_invariant (condition : σ → α → Prop) (invariant : σ → Prop)
    (kept : ∀ state label next, invariant state → condition state label → step state label = some next →
      invariant next)
    (labels : List α) (initial final : σ) (start : invariant initial)
    (meets : Along step condition initial labels) (run : exec step initial labels = some final) :
    invariant final := by
  induction labels generalizing initial with
  | nil =>
    cases some.inj run
    exact start
  | cons label rest ih =>
    obtain ⟨next,taken,remaining⟩ := bind_eq_some_iff.mp run
    exact ih next (kept initial label next start meets.1 taken) (meets.2 next taken) remaining

theorem Along.of_forall (condition : σ → α → Prop) (labels : List α)
    (met : ∀ state, ∀ label ∈ labels, condition state label) (initial : σ) :
    Along step condition initial labels := by
  induction labels generalizing initial with
  | nil => trivial
  | cons label rest ih =>
    exact ⟨met initial label (by simp),fun next _ =>
      ih (fun state other inside => met state other (by simp [inside])) next⟩

theorem Along.imp (weak strong : σ → α → Prop) (labels : List α) (initial : σ)
    (stronger : ∀ state label, strong state label → weak state label)
    (meets : Along step strong initial labels) : Along step weak initial labels := by
  induction labels generalizing initial with
  | nil => trivial
  | cons label rest ih => exact ⟨stronger _ _ meets.1,fun next taken => ih next (meets.2 next taken)⟩

theorem Along.and (first second : σ → α → Prop) (labels : List α) (initial : σ)
    (left : Along step first initial labels) (right : Along step second initial labels) :
    Along step (fun state label => first state label ∧ second state label) initial labels := by
  induction labels generalizing initial with
  | nil => trivial
  | cons label rest ih =>
    exact ⟨⟨left.1,right.1⟩,fun next taken => ih next (left.2 next taken) (right.2 next taken)⟩

theorem Along.earlier (condition : σ → α → Prop) (first second : List α) (initial : σ)
    (meets : Along step condition initial (first ++ second)) : Along step condition initial first := by
  induction first generalizing initial with
  | nil => trivial
  | cons label rest ih => exact ⟨meets.1,fun next taken => ih next (meets.2 next taken)⟩

theorem exec_check (initial : σ) (labels : List α) (check : σ → Prop) [DecidablePred check]
    (passes : (exec step initial labels).any (fun state => decide (check state)) = true) :
    ∃ state, exec step initial labels = some state ∧ check state := by
  obtain ⟨state,run,checked⟩ := (Option.any_eq_true _ _).mp passes
  exact ⟨state,run,of_decide_eq_true checked⟩

theorem exec_check_built (built : Option σ) (labels : List α) (check : σ → σ → Prop)
    [∀ initial final, Decidable (check initial final)]
    (passes : built.any (fun initial => (exec step initial labels).any
      (fun final => decide (check initial final))) = true) :
    ∃ initial final, built = some initial ∧ exec step initial labels = some final ∧ check initial final := by
  obtain ⟨initial,start,ran⟩ := (Option.any_eq_true _ _).mp passes
  obtain ⟨final,run,checked⟩ := exec_check step initial labels (check initial) ran
  exact ⟨initial,final,start,run,checked⟩

end

end Klein.Runs
