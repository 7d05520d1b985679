import Klein.Runs

/-! Cooperative coroutines over shared state. A coroutine runs without
interruption from one await to the next; between two of its segments every other
coroutine and the environment may run. `Contract` is a rely-guarantee
specification of such a system, `wp` the proof rule for one coroutine, and
`exec_secure` the rule for a whole run. -/
namespace Klein
open List

/-- A computation over shared states `σ` that raises `ε`, awaits requests `ω` and
is resumed with replies `ρ`. An access continues with the state before it. -/
inductive Coroutine (σ ω ρ ε α : Type) : Type where
  | ret (value : α)
  | throw (error : ε)
  | access (update : σ → σ) (next : σ → Coroutine σ ω ρ ε α)
  | await (request : ω) (next : ρ → Coroutine σ ω ρ ε α)

namespace Coroutine
variable {σ ω ρ ε α β : Type}

def bind (first : Coroutine σ ω ρ ε α) (second : α → Coroutine σ ω ρ ε β) : Coroutine σ ω ρ ε β :=
  match first with
  | .ret value => second value
  | .throw error => .throw error
  | .access update next => .access update (fun state => (next state).bind second)
  | .await request next => .await request (fun reply => (next reply).bind second)

instance : Monad (Coroutine σ ω ρ ε) where
  pure := .ret
  bind := bind

def get : Coroutine σ ω ρ ε σ := .access id .ret
def modify (update : σ → σ) : Coroutine σ ω ρ ε Unit := .access update (fun _ => .ret ())
def ask (request : ω) : Coroutine σ ω ρ ε ρ := .await request .ret
def raise (error : ε) : Coroutine σ ω ρ ε α := .throw error

/-- `try: body except: handler` -/
def handle (body : Coroutine σ ω ρ ε α) (handler : ε → Coroutine σ ω ρ ε α) : Coroutine σ ω ρ ε α :=
  match body with
  | .ret value => .ret value
  | .throw error => handler error
  | .access update next => .access update (fun state => (next state).handle handler)
  | .await request next => .await request (fun reply => (next reply).handle handler)

/-- `try: body finally: last` -/
def finish (body : Coroutine σ ω ρ ε α) (last : Coroutine σ ω ρ ε Unit) : Coroutine σ ω ρ ε α :=
  match body with
  | .ret value => last.bind (fun _ => .ret value)
  | .throw error => last.bind (fun _ => .throw error)
  | .access update next => .access update (fun state => (next state).finish last)
  | .await request next => .await request (fun reply => (next reply).finish last)

/-- Every access of the coroutine is one of the given moves, and it raises only when
`raises` permits it. -/
def Accesses (move : σ → σ → Prop) (raises : Prop) : Coroutine σ ω ρ ε α → Prop
  | .ret _ => True
  | .throw _ => raises
  | .access update next => ∀ state, move state (update state) ∧ (next state).Accesses move raises
  | .await _ next => ∀ reply, (next reply).Accesses move raises

section accesses
variable (move : σ → σ → Prop) (raises : Prop)

theorem Accesses.bind (first : Coroutine σ ω ρ ε α) (second : α → Coroutine σ ω ρ ε β) (head : first.Accesses move raises)
    (tail : ∀ value, (second value).Accesses move raises) : (first >>= second).Accesses move raises := by
  induction first with
  | ret value => exact tail value
  | throw error => exact head
  | access update next ih => exact fun state => ⟨(head state).1,ih state (head state).2⟩
  | await request next ih => exact fun reply => ih reply (head reply)

theorem Accesses.finish (body : Coroutine σ ω ρ ε α) (last : Coroutine σ ω ρ ε Unit) (head : body.Accesses move raises)
    (tail : last.Accesses move raises) : (body.finish last).Accesses move raises := by
  induction body with
  | ret value => exact Accesses.bind move raises last _ tail (fun _ => trivial)
  | throw error => exact Accesses.bind move raises last _ tail (fun _ => head)
  | access update next ih => exact fun state => ⟨(head state).1,ih state (head state).2⟩
  | await request next ih => exact fun reply => ih reply (head reply)

theorem Accesses.get (next : σ → Coroutine σ ω ρ ε α) (reflexive : ∀ state, move state state)
    (tail : ∀ state, (next state).Accesses move raises) : (Coroutine.get >>= next).Accesses move raises :=
  fun state => ⟨reflexive state,tail state⟩

theorem Accesses.update (update : σ → σ) (next : Unit → Coroutine σ ω ρ ε α) (moves : ∀ state, move state (update state))
    (tail : (next ()).Accesses move raises) : (Coroutine.modify update >>= next).Accesses move raises :=
  fun state => ⟨moves state,tail⟩

theorem Accesses.ask (request : ω) (next : ρ → Coroutine σ ω ρ ε α) (tail : ∀ reply, (next reply).Accesses move raises) :
    (Coroutine.ask request >>= next).Accesses move raises :=
  tail

end accesses

inductive Pause (σ ω ρ ε α : Type) : Type where
  | waiting (request : ω) (next : ρ → Coroutine σ ω ρ ε α)
  | done (result : Except ε α)

def advance : Coroutine σ ω ρ ε α → σ → Pause σ ω ρ ε α × σ
  | .ret value,state => (.done (.ok value),state)
  | .throw error,state => (.done (.error error),state)
  | .access update next,state => advance (next state) (update state)
  | .await request next,state => (.waiting request next,state)

end Coroutine

/-- A system of coroutines. `call` is the coroutine of a method call, started by
the thread of the given index; `respond` is the answer of the environment to a
request, when it is possible in that state, with its effect on the state; `act`
is what the environment does by itself, and `restart` loses every coroutine. -/
structure System (σ ω ρ ε κ η ζ : Type) where
  call : Nat → κ → Coroutine σ ω ρ ε Unit
  respond : σ → ω → ρ → Option σ
  act : η → σ → Option σ
  restart : ζ → σ → Option σ

namespace System
variable {σ ω ρ ε κ η ζ : Type}

/-- The shared state and, for each thread ever started, where it is suspended or
how it ended. -/
structure Config (σ ω ρ ε : Type) where
  shared : σ
  threads : List (Coroutine.Pause σ ω ρ ε Unit)

inductive Label (κ ρ η ζ : Type) where
  | spawn (call : κ)
  | resume (thread : Nat) (reply : ρ)
  | environment (action : η)
  | restart (reason : ζ)

variable (system : System σ ω ρ ε κ η ζ)

def step (config : Config σ ω ρ ε) : Label κ ρ η ζ → Option (Config σ ω ρ ε)
  | .spawn call =>
    let (pause,shared) := (system.call config.threads.length call).advance config.shared
    some ⟨shared,config.threads ++ [pause]⟩
  | .resume thread reply =>
    match config.threads[thread]? with
    | some (.waiting request next) =>
      match system.respond config.shared request reply with
      | some answered =>
        let (pause,shared) := (next reply).advance answered
        some ⟨shared,config.threads.set thread pause⟩
      | none => none
    | _ => none
  | .environment action =>
    match system.act action config.shared with
    | some shared => some {config with shared}
    | none => none
  | .restart reason =>
    match system.restart reason config.shared with
    | some shared => some ⟨shared,[]⟩
    | none => none

end System

inductive Origin (κ ω ρ : Type) where
  | call (call : κ)
  | reply (request : ω) (reply : ρ)

structure Contract (σ ω ρ κ : Type) where
  invariant : σ → Prop
  permit : Nat → ω → σ → Prop
  rely : Nat → ω → σ → σ → Prop
  guarantee : Nat → Origin κ ω ρ → σ → σ → Prop

namespace Contract
variable {σ ω ρ ε κ η ζ α β : Type} (contract : Contract σ ω ρ κ) (respond : σ → ω → ρ → Option σ) (thread : Nat)

structure Segment (σ ω ρ κ : Type) where
  origin : Origin κ ω ρ
  start : σ

def Settled (segment : Segment σ ω ρ κ) (state : σ) : Prop :=
  contract.invariant state ∧ contract.guarantee thread segment.origin segment.start state

/-- The coroutine keeps the contract from this state on, and ends with `post` or
raises with `fail`. -/
def wp (body : Coroutine σ ω ρ ε α) (post : α → Segment σ ω ρ κ → σ → Prop) (fail : ε → Segment σ ω ρ κ → σ → Prop)
    (segment : Segment σ ω ρ κ) (state : σ) : Prop :=
  match body with
  | .ret value => post value segment state
  | .throw error => fail error segment state
  | .access update next => wp (next state) post fail segment (update state)
  | .await request next =>
    contract.Settled thread segment state ∧ contract.permit thread request state ∧
      ∀ later reply answered, contract.invariant later → contract.rely thread request state later →
        respond later request reply = some answered → wp (next reply) post fail ⟨.reply request reply,later⟩ answered

theorem wp_bind (first : Coroutine σ ω ρ ε α) (second : α → Coroutine σ ω ρ ε β)
    (post : β → Segment σ ω ρ κ → σ → Prop) (fail : ε → Segment σ ω ρ κ → σ → Prop) (segment : Segment σ ω ρ κ) (state : σ) :
    contract.wp respond thread (first.bind second) post fail segment state ↔
      contract.wp respond thread first
        (fun value segment state => contract.wp respond thread (second value) post fail segment state)
        fail segment state := by
  induction first generalizing segment state with
  | ret value => rfl
  | throw error => rfl
  | access update next ih => exact ih state segment (update state)
  | await request next ih =>
    simp only [Coroutine.bind,wp]
    refine and_congr_right (fun _ => and_congr_right (fun _ => ?_))
    refine forall_congr' (fun later => forall_congr' (fun reply => forall_congr' (fun answered => ?_)))
    exact imp_congr_right (fun _ => imp_congr_right (fun _ => imp_congr_right (fun _ => ih reply _ _)))

section rules
variable (post : α → Segment σ ω ρ κ → σ → Prop) (fail : ε → Segment σ ω ρ κ → σ → Prop) (segment : Segment σ ω ρ κ)
  (state : σ)

@[simp] theorem wp_get (next : σ → Coroutine σ ω ρ ε α) :
    contract.wp respond thread (Coroutine.get >>= next) post fail segment state ↔
      contract.wp respond thread (next state) post fail segment state :=
  Iff.rfl

@[simp] theorem wp_update (update : σ → σ) (next : Unit → Coroutine σ ω ρ ε α) :
    contract.wp respond thread (Coroutine.modify update >>= next) post fail segment state ↔
      contract.wp respond thread (next ()) post fail segment (update state) :=
  Iff.rfl

theorem wp_seq (first : Coroutine σ ω ρ ε β) (second : β → Coroutine σ ω ρ ε α) :
    contract.wp respond thread (first >>= second) post fail segment state ↔
      contract.wp respond thread first
        (fun value segment state => contract.wp respond thread (second value) post fail segment state)
        fail segment state :=
  contract.wp_bind respond thread first second post fail segment state

theorem wp_ask (request : ω) (next : ρ → Coroutine σ ω ρ ε α) :
    contract.wp respond thread (Coroutine.ask request >>= next) post fail segment state ↔
      contract.Settled thread segment state ∧ contract.permit thread request state ∧
        ∀ later reply answered, contract.invariant later → contract.rely thread request state later →
          respond later request reply = some answered →
            contract.wp respond thread (next reply) post fail ⟨.reply request reply,later⟩ answered :=
  Iff.rfl

end rules

section
variable (body : Coroutine σ ω ρ ε α)
include body

theorem wp_handle (handler : ε → Coroutine σ ω ρ ε α)
    (post : α → Segment σ ω ρ κ → σ → Prop) (fail : ε → Segment σ ω ρ κ → σ → Prop) (segment : Segment σ ω ρ κ) (state : σ) :
    contract.wp respond thread (body.handle handler) post fail segment state ↔
      contract.wp respond thread body post
        (fun error segment state => contract.wp respond thread (handler error) post fail segment state)
        segment state := by
  induction body generalizing segment state with
  | ret value => rfl
  | throw error => rfl
  | access update next ih => exact ih state segment (update state)
  | await request next ih =>
    simp only [Coroutine.handle,wp]
    refine and_congr_right (fun _ => and_congr_right (fun _ => ?_))
    refine forall_congr' (fun later => forall_congr' (fun reply => forall_congr' (fun answered => ?_)))
    exact imp_congr_right (fun _ => imp_congr_right (fun _ => imp_congr_right (fun _ => ih reply _ _)))

theorem wp_finish (last : Coroutine σ ω ρ ε Unit)
    (post : α → Segment σ ω ρ κ → σ → Prop) (fail : ε → Segment σ ω ρ κ → σ → Prop) (segment : Segment σ ω ρ κ) (state : σ) :
    contract.wp respond thread (body.finish last) post fail segment state ↔
      contract.wp respond thread body
        (fun value segment state => contract.wp respond thread last (fun _ => post value) fail segment state)
        (fun error segment state => contract.wp respond thread last (fun _ => fail error) fail segment state)
        segment state := by
  induction body generalizing segment state with
  | ret value => exact contract.wp_bind respond thread last _ post fail segment state
  | throw error => exact contract.wp_bind respond thread last _ post fail segment state
  | access update next ih => exact ih state segment (update state)
  | await request next ih =>
    simp only [Coroutine.finish,wp]
    refine and_congr_right (fun _ => and_congr_right (fun _ => ?_))
    refine forall_congr' (fun later => forall_congr' (fun reply => forall_congr' (fun answered => ?_)))
    exact imp_congr_right (fun _ => imp_congr_right (fun _ => imp_congr_right (fun _ => ih reply _ _)))

variable {respond thread body} in
theorem wp_mono {post post' : α → Segment σ ω ρ κ → σ → Prop}
    {fail fail' : ε → Segment σ ω ρ κ → σ → Prop} {segment : Segment σ ω ρ κ} {state : σ}
    (weaker : ∀ value segment state, post value segment state → post' value segment state)
    (weakerFail : ∀ error segment state, fail error segment state → fail' error segment state)
    (holds : contract.wp respond thread body post fail segment state) :
    contract.wp respond thread body post' fail' segment state := by
  induction body generalizing segment state with
  | ret value => exact weaker _ _ _ holds
  | throw error => exact weakerFail _ _ _ holds
  | access update next ih => exact ih state holds
  | await request next ih =>
    exact ⟨holds.1,holds.2.1,fun later reply answered kept allowed answer =>
      ih reply (holds.2.2 later reply answered kept allowed answer)⟩

end

variable {respond thread} in
theorem wp_chain {first : Coroutine σ ω ρ ε β} {second : β → Coroutine σ ω ρ ε α}
    {middle : β → Segment σ ω ρ κ → σ → Prop} {post : α → Segment σ ω ρ κ → σ → Prop}
    {fail : ε → Segment σ ω ρ κ → σ → Prop} {segment : Segment σ ω ρ κ} {state : σ}
    (head : contract.wp respond thread first middle fail segment state)
    (tail : ∀ value segment state, middle value segment state →
      contract.wp respond thread (second value) post fail segment state) :
    contract.wp respond thread (first >>= second) post fail segment state :=
  (contract.wp_seq respond thread post fail segment state first second).mpr
    (contract.wp_mono tail (fun _ _ _ failed => failed) head)

structure Stable (keep : Segment σ ω ρ κ → σ → Prop) : Prop where
  settled : ∀ segment state, keep segment state → contract.Settled thread segment state
  permit : ∀ request segment state, keep segment state → contract.permit thread request state
  resume : ∀ request reply segment state later answered, keep segment state → contract.invariant later →
    contract.rely thread request state later → respond later request reply = some answered →
      keep ⟨.reply request reply,later⟩ answered

theorem wp_accesses (move : σ → σ → Prop) (raises : Prop) (keep : Segment σ ω ρ κ → σ → Prop)
    (stable : contract.Stable respond thread keep)
    (moved : ∀ segment before after, move before after → keep segment before → keep segment after)
    (body : Coroutine σ ω ρ ε α) (accesses : body.Accesses move raises) (segment : Segment σ ω ρ κ) (state : σ)
    (holds : keep segment state) :
    contract.wp respond thread body (fun _ => keep) (fun _ segment state => raises ∧ keep segment state) segment state := by
  induction body generalizing segment state with
  | ret value => exact holds
  | throw error => exact ⟨accesses,holds⟩
  | access update next ih =>
    obtain ⟨moves,rest⟩ := accesses state
    exact ih state rest segment (update state) (moved segment state _ moves holds)
  | await request next ih =>
    refine ⟨stable.settled segment state holds,stable.permit request segment state holds,?_⟩
    intro later reply answered kept allowed answer
    exact ih reply (accesses reply) _ answered (stable.resume request reply segment state later answered holds kept allowed answer)

def Safe (state : σ) : Coroutine.Pause σ ω ρ ε Unit → Prop
  | .done _ => True
  | .waiting request next => ∀ later reply answered, contract.invariant later →
      contract.rely thread request state later → respond later request reply = some answered →
      contract.wp respond thread (next reply)
        (fun _ => contract.Settled thread) (fun _ => contract.Settled thread)
        ⟨.reply request reply,later⟩ answered

def Keeps (body : Coroutine σ ω ρ ε Unit) (segment : Segment σ ω ρ κ) (state : σ) : Prop :=
  contract.wp respond thread body (fun _ => contract.Settled thread) (fun _ => contract.Settled thread) segment state

def Issued (state : σ) : Coroutine.Pause σ ω ρ ε Unit → Prop
  | .done _ => True
  | .waiting request _ => contract.permit thread request state

theorem Keeps.advance (body : Coroutine σ ω ρ ε Unit) (segment : Segment σ ω ρ κ) (state : σ)
    (keeps : contract.Keeps respond thread body segment state) :
    contract.Settled thread segment (body.advance state).2 ∧
      contract.Safe respond thread (body.advance state).2 (body.advance state).1 ∧
      contract.Issued thread (body.advance state).2 (body.advance state).1 := by
  induction body generalizing segment state with
  | ret value => exact ⟨keeps,trivial,trivial⟩
  | throw error => exact ⟨keeps,trivial,trivial⟩
  | access update next ih => exact ih state segment (update state) keeps
  | await request next ih => exact ⟨keeps.1,keeps.2.2,keeps.2.1⟩

variable (system : System σ ω ρ ε κ η ζ)

structure Secure (config : System.Config σ ω ρ ε) : Prop where
  invariant : contract.invariant config.shared
  threads : ∀ index pause, config.threads[index]? = some pause →
    contract.Safe system.respond index config.shared pause

def Starts (config : System.Config σ ω ρ ε) : System.Label κ ρ η ζ → Nat → Origin κ ω ρ → Prop
  | .spawn call,index,origin => index = config.threads.length ∧ origin = .call call
  | .resume thread reply,index,origin => index = thread ∧
      ∃ request next, config.threads[thread]? = some (.waiting request next) ∧ origin = .reply request reply
  | .environment _,_,_ => False
  | .restart _,_,_ => False

structure Sound (condition : System.Config σ ω ρ ε → System.Label κ ρ η ζ → Prop) : Prop where
  refl : ∀ thread request state, contract.rely thread request state state
  trans : ∀ thread request first second third, contract.rely thread request first second →
    contract.rely thread request second third → contract.rely thread request first third
  calls : ∀ thread call config, condition config (.spawn call) → contract.invariant config.shared →
    contract.Keeps system.respond thread (system.call thread call) ⟨.call call,config.shared⟩ config.shared
  interference : ∀ config label index origin, condition config label → Starts config label index origin →
    ∀ after, contract.invariant config.shared → contract.guarantee index origin config.shared after →
      ∀ other request next, other ≠ index → config.threads[other]? = some (.waiting request next) →
        contract.rely other request config.shared after
  environment : ∀ config action after, condition config (.environment action) → contract.invariant config.shared →
    system.act action config.shared = some after →
      contract.invariant after ∧ ∀ thread request, contract.rely thread request config.shared after
  restart : ∀ config reason after, condition config (.restart reason) → contract.invariant config.shared →
    system.restart reason config.shared = some after → contract.invariant after

section
variable (condition : System.Config σ ω ρ ε → System.Label κ ρ η ζ → Prop) (sound : contract.Sound system condition)
include sound

theorem Safe.weaken (before after : σ) (pause : Coroutine.Pause σ ω ρ ε Unit)
    (allowed : ∀ request next, pause = .waiting request next → contract.rely thread request before after)
    (safe : contract.Safe system.respond thread before pause) : contract.Safe system.respond thread after pause := by
  cases pause with
  | done result => exact safe
  | waiting request next =>
    intro later reply answered kept further answer
    exact safe later reply answered kept
      (sound.trans thread request before after later (allowed request next rfl) further) answer

theorem Secure.segment (config : System.Config σ ω ρ ε) (label : System.Label κ ρ η ζ)
    (index : Nat) (origin : Origin κ ω ρ) (body : Coroutine σ ω ρ ε Unit) (state : σ)
    (secure : contract.Secure system config) (meets : condition config label)
    (started : Starts config label index origin)
    (keeps : contract.Keeps system.respond index body ⟨origin,config.shared⟩ state) :
    contract.invariant (body.advance state).2 ∧
      contract.guarantee index origin config.shared (body.advance state).2 ∧
      contract.Issued index (body.advance state).2 (body.advance state).1 ∧
      contract.Safe system.respond index (body.advance state).2 (body.advance state).1 ∧
      ∀ other pause, other ≠ index → config.threads[other]? = some pause →
        contract.Safe system.respond other (body.advance state).2 pause := by
  obtain ⟨settled,safe,issued⟩ := keeps.advance contract system.respond index body _ state
  refine ⟨settled.1,settled.2,issued,safe,fun other pause different found => ?_⟩
  refine Safe.weaken contract other system condition sound config.shared _ pause ?_ (secure.threads other pause found)
  rintro request next rfl
  exact sound.interference config label index origin meets started _ secure.invariant settled.2 other request next
    different found

theorem Secure.step (config next : System.Config σ ω ρ ε) (label : System.Label κ ρ η ζ)
    (secure : contract.Secure system config) (meets : condition config label)
    (taken : system.step config label = some next) :
    contract.Secure system next ∧ ∀ index origin, Starts config label index origin →
      contract.guarantee index origin config.shared next.shared ∧
      ∀ pause, next.threads[index]? = some pause → contract.Issued index next.shared pause := by
  cases label with
  | spawn call =>
    cases taken
    have keeps := sound.calls config.threads.length call config meets secure.invariant
    obtain ⟨kept,guaranteed,issued,safe,others⟩ := secure.segment contract system condition sound config (.spawn call)
      _ _ _ _ meets ⟨rfl,rfl⟩ keeps
    refine ⟨⟨kept,fun index pause found => ?_⟩,?_⟩
    · dsimp only at found ⊢
      rw [getElem?_append] at found
      split at found
      next inside => exact others index pause (by omega) found
      next outside =>
        obtain ⟨bound,rfl⟩ := List.getElem?_eq_some_iff.mp found
        have last : index = config.threads.length := by
          simp only [length_singleton] at bound
          omega
        simpa [last] using safe
    · rintro index origin ⟨rfl,rfl⟩
      refine ⟨guaranteed,fun pause found => ?_⟩
      obtain rfl : ((system.call config.threads.length call).advance config.shared).1 = pause := by simpa using found
      exact issued
  | resume thread reply =>
    simp only [System.step] at taken
    split at taken
    next request continuation waiting =>
      split at taken
      next answered answer =>
        cases taken
        have keeps := secure.threads thread _ waiting config.shared reply answered secure.invariant
          (sound.refl thread request config.shared) answer
        obtain ⟨kept,guaranteed,issued,safe,others⟩ := secure.segment contract system condition sound config
          (.resume thread reply) thread (.reply request reply) _ _ meets ⟨rfl,request,continuation,waiting,rfl⟩ keeps
        have bound : thread < config.threads.length := (List.getElem?_eq_some_iff.mp waiting).1
        refine ⟨⟨kept,fun index pause found => ?_⟩,?_⟩
        · dsimp only at found ⊢
          by_cases same : thread = index
          · subst same
            obtain rfl : ((continuation reply).advance answered).1 = pause := by simpa [bound] using found
            exact safe
          · rw [getElem?_set_ne same] at found
            exact others index pause (Ne.symm same) found
        · rintro index origin ⟨rfl,request',next',same,rfl⟩
          obtain ⟨rfl,-⟩ : request = request' ∧ continuation = next' := by simpa [waiting] using same
          refine ⟨guaranteed,fun pause found => ?_⟩
          obtain rfl : ((continuation reply).advance answered).1 = pause := by simpa [bound] using found
          exact issued
      next => contradiction
    next => contradiction
  | environment action =>
    simp only [System.step] at taken
    split at taken
    next after acted =>
      cases taken
      obtain ⟨kept,allowed⟩ := sound.environment config action after meets secure.invariant acted
      refine ⟨⟨kept,fun index pause found => ?_⟩,fun _ _ started => started.elim⟩
      exact Safe.weaken contract index system condition sound config.shared after pause
        (fun request _ _ => allowed index request) (secure.threads index pause found)
    next => contradiction
  | restart reason =>
    simp only [System.step] at taken
    split at taken
    next after restarted =>
      cases taken
      exact ⟨⟨sound.restart config reason after meets secure.invariant restarted,by simp⟩,
        fun _ _ started => started.elim⟩
    next => contradiction

theorem exec_secure (labels : List (System.Label κ ρ η ζ)) (start final : System.Config σ ω ρ ε)
    (secure : contract.Secure system start) (meets : Runs.Along system.step condition start labels)
    (run : Runs.exec system.step start labels = some final) : contract.Secure system final :=
  Runs.exec_invariant system.step condition (contract.Secure system)
    (fun config label next holds met taken => (holds.step contract system condition sound config next label met taken).1)
    labels start final secure meets run

end

end Contract
end Klein
