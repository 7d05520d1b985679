import Mathlib.Data.List.Basic

/-! Computations that keep their effects when they fail (`EStateM`): what a body did
before it raised stays done, and a handler goes on from there. -/
namespace Klein.Effects
variable {σ ε α β : Type}

def Ensures (body : EStateM ε σ α) (before : σ → Prop) (returned : α → σ → Prop) (raised : ε → σ → Prop) : Prop :=
  ∀ state, before state →
    match body state with
    | .ok value after => returned value after
    | .error error after => raised error after

section
variable (first : EStateM ε σ α) (rest : α → EStateM ε σ β) (state after : σ)
include first rest state after

theorem bind_of_ok (value : α)
    (done : first state = .ok value after) : (first >>= rest) state = rest value after := by
  change EStateM.bind first rest state = _
  unfold EStateM.bind
  rw [done]

theorem bind_of_error (error : ε)
    (failed : first state = .error error after) : (first >>= rest) state = .error error after := by
  change EStateM.bind first rest state = _
  unfold EStateM.bind
  rw [failed]

theorem bind_ok_iff (result : β) :
    (first >>= rest) state = .ok result after ↔
      ∃ value middle, first state = .ok value middle ∧ rest value middle = .ok result after := by
  cases ran : first state with
  | ok value middle =>
    rw [bind_of_ok first rest state middle value ran]
    constructor
    · exact fun done => ⟨value,middle,rfl,done⟩
    · rintro ⟨_,_,same,done⟩
      cases same
      exact done
  | error error middle =>
    rw [bind_of_error first rest state middle error ran]
    constructor
    · intro done
      cases done
    · rintro ⟨_,_,same,_⟩
      cases same

end

theorem pure_ok_iff (value result : α) (state after : σ) :
    (pure value : EStateM ε σ α) state = .ok result after ↔ result = value ∧ after = state := by
  change EStateM.Result.ok value state = .ok result after ↔ _
  rw [EStateM.Result.ok.injEq,eq_comm,eq_comm (a := state)]

section rules
variable {before : σ → Prop} {returned : α → σ → Prop} {raised : ε → σ → Prop}

theorem Ensures.ok {body : EStateM ε σ α} (ensures : Ensures body before returned raised) (state after : σ) (value : α)
    (here : before state) (done : body state = .ok value after) : returned value after := by
  have holds := ensures state here
  rw [done] at holds
  exact holds

theorem Ensures.pure {value : α} (holds : ∀ state, before state → returned value state) :
    Ensures (Pure.pure value : EStateM ε σ α) before returned raised := fun state here => holds state here

theorem Ensures.throw {error : ε} (holds : ∀ state, before state → raised error state) :
    Ensures (MonadExcept.throw error : EStateM ε σ α) before returned raised := fun state here => holds state here

theorem Ensures.weaken {body : EStateM ε σ α} (ensures : Ensures body before returned raised) {before' : σ → Prop}
    {returned' : α → σ → Prop} {raised' : ε → σ → Prop} (first : ∀ state, before' state → before state)
    (good : ∀ value state, returned value state → returned' value state)
    (bad : ∀ error state, raised error state → raised' error state) : Ensures body before' returned' raised' := by
  intro state here
  have holds := ensures state (first state here)
  cases ran : body state with
  | ok value after =>
    rw [ran] at holds
    exact good value after holds
  | error error after =>
    rw [ran] at holds
    exact bad error after holds

theorem Ensures.bind {first : EStateM ε σ α} {rest : α → EStateM ε σ β} (middle : α → σ → Prop) {last : β → σ → Prop}
    (begins : Ensures first before middle raised) (goesOn : ∀ value, Ensures (rest value) (middle value) last raised) :
    Ensures (first >>= rest) before last raised := by
  intro state here
  have holds := begins state here
  change match EStateM.bind first rest state with
    | .ok value after => last value after
    | .error error after => raised error after
  unfold EStateM.bind
  cases ran : first state with
  | ok value after =>
    rw [ran] at holds
    exact goesOn value after holds
  | error error after =>
    rw [ran] at holds
    exact holds

theorem Ensures.get {rest : σ → EStateM ε σ α}
    (goesOn : ∀ found, before found → Ensures (rest found) (fun state => state = found) returned raised) :
    Ensures (MonadState.get >>= rest) before returned raised := fun state here => goesOn state here state rfl

theorem Ensures.tryCatch {body : EStateM ε σ α} {handler : ε → EStateM ε σ α} {failed : ε → σ → Prop}
    (tries : Ensures body before returned failed) (recovers : ∀ error, Ensures (handler error) (failed error) returned raised) :
    Ensures (MonadExcept.tryCatch body handler) before returned raised := by
  intro state here
  have holds := tries state here
  change match EStateM.tryCatch body handler state with
    | .ok value after => returned value after
    | .error error after => raised error after
  unfold EStateM.tryCatch
  cases ran : body state with
  | ok value after =>
    rw [ran] at holds
    exact holds
  | error error after =>
    rw [ran] at holds
    exact recovers error after holds

theorem Ensures.forM {body : β → EStateM ε σ PUnit} {invariant : σ → Prop} (items : List β)
    (keeps : ∀ item ∈ items, Ensures (body item) invariant (fun _ => invariant) raised) :
    Ensures (forM items body) invariant (fun _ => invariant) raised := by
  induction items with
  | nil => exact fun state here => here
  | cons item rest ih =>
    obtain ⟨here,later⟩ := List.forall_mem_cons.mp keeps
    rw [List.forM_cons]
    exact Ensures.bind _ here (fun _ => ih later)

end rules

def Keeps (invariant : σ → Prop) (body : EStateM ε σ α) : Prop :=
  Ensures body invariant (fun _ => invariant) (fun _ => invariant)

end Klein.Effects
