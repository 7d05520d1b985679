import Klein.Redis.RedisSink

/-! Every run of the Redis sink: who holds the flush lock accounts for the batch in flight. -/
namespace Klein.Redis
open List Option
variable {ρ : Type} {c : Config}

theorem succeeded_append (first second : List (Execution ρ)) : succeeded (first ++ second) = succeeded first ++ succeeded second := by
  simp [succeeded]

theorem InOrder.append_execution (written : List ρ) (executions : List (Execution ρ)) (last : Execution ρ) (order : InOrder written executions)
    (next : last.batch <+: written.drop (succeeded executions).length) : InOrder written (executions ++ [last]) := by
  intro before execution after split
  rcases eq_nil_or_concat after with rfl | ⟨earlier,final,rfl⟩
  · obtain ⟨rfl,same⟩ := append_inj' split rfl
    cases same
    exact next
  · rw [concat_eq_append,← cons_append,← append_assoc] at split
    obtain ⟨whole,-⟩ := append_inj' split rfl
    exact order before execution earlier whole

theorem InOrder.append_record (written : List ρ) (record : ρ) (executions : List (Execution ρ)) (order : InOrder written executions) :
    InOrder (written ++ [record]) executions := by
  intro before execution after split
  rw [drop_append]
  exact (order before execution after split).trans (prefix_append _ _)

namespace Flushing

/-- The batch that `_inflight` counts. -/
def counted : Flushing ρ → List ρ
  | .taken _ batch => batch
  | .executing _ batch => batch
  | .completing batch => batch
  | .restoring _ batch _ => batch
  | _ => []

def pending : Flushing ρ → List ρ
  | .completing _ => []
  | place => place.counted

theorem pending_le (place : Flushing ρ) : place.pending.length ≤ place.counted.length := by
  cases place <;> simp [pending,counted]

end Flushing

def Next.place? {π : Type} : Next π → Option π
  | .move place => some place
  | _ => none

structure Books (c : Config) (s : Sink ρ) (place : Flushing ρ) : Prop where
  bounded : s.buffer.length + s.inflight ≤ c.bufferCapacity
  inflight : s.inflight = place.counted.length
  whole : s.written = succeeded s.executions ++ place.pending ++ s.buffer
  inOrder : InOrder s.written s.executions

section
variable {s : Sink ρ} {place : Flushing ρ} (books : Books c s place)
include books

theorem Books.moved (next : Flushing ρ)
    (counted : next.counted = place.counted) (pending : next.pending = place.pending) : Books c s next := by
  refine ⟨books.bounded,?_,?_,books.inOrder⟩
  · rw [counted,books.inflight]
  · rw [pending]
    exact books.whole

theorem Books.safe : Safe c s :=
  ⟨books.bounded,⟨place.pending,books.whole,books.inflight ▸ place.pending_le⟩,books.inOrder⟩

theorem Books.drained (idle : place.pending = []) (empty : s.buffer = []) :
    s.written = succeeded s.executions := by
  have whole := books.whole
  rw [idle,empty,append_nil,append_nil] at whole
  exact whole

end

/-! ### One step of a flush -/

section flush
variable (force : Bool) (chance : Chance) (s : Sink ρ)

section
variable (place : Flushing ρ)
include place

theorem flushStep_books (books : Books c s place) :
    Books c (flushStep c force chance s place).1 ((flushStep c force chance s place).2.place?.getD .checking) := by
  have front : place.pending = place.counted → place.counted <+: s.written.drop (succeeded s.executions).length := by
    intro out
    rw [books.whole,out,append_assoc,drop_left]
    exact prefix_append _ _
  cases place with
  | checking =>
    refine books.moved _ ?_ ?_ <;> (dsimp only [flushStep,Next.place?,getD_some]; split <;> rfl)
  | attempting attempt =>
    have halves := take_append_drop c.batchSize s.buffer
    have lengths := congrArg List.length halves
    rw [length_append] at lengths
    have bounded := books.bounded
    have whole := books.whole
    rw [← halves] at whole
    have taken : Books c (takeBatch c s) (.taken attempt (s.buffer.take c.batchSize)) := by
      refine ⟨?_,rfl,?_,books.inOrder⟩
      · dsimp only [takeBatch]
        omega
      · rw [takeBatch,whole]
        simp [Flushing.pending,Flushing.counted]
    dsimp only [flushStep,Next.place?,getD_some]
    split
    next empty => exact taken.moved _ (by simp [Flushing.counted,empty]) (by simp [Flushing.pending,Flushing.counted,empty])
    next => exact taken
  | taken attempt batch =>
    refine books.moved _ ?_ ?_ <;> (dsimp only [flushStep,Next.place?,getD_some]; split <;> rfl)
  | executing attempt batch =>
    dsimp only [flushStep]
    have effective (flag : Bool) (next : Flushing ρ) (counted : next.counted = batch)
        (account : succeeded [⟨batch,flag⟩] ++ next.pending = batch) : Books c (effect batch flag s) next := by
      refine ⟨books.bounded,?_,?_,books.inOrder.append_execution _ _ ⟨batch,flag⟩ (front rfl)⟩
      · rw [counted]
        exact books.inflight
      · dsimp only [effect]
        rw [succeeded_append,append_assoc _ _ next.pending,account]
        exact books.whole
    rcases chance.outcome with _ | ⟨takesEffect,retryable⟩
    · exact effective true (.completing batch) rfl (by simp [succeeded,Flushing.pending])
    · cases takesEffect with
      | false => exact books.moved _ rfl rfl
      | true => exact effective false (.restoring attempt batch retryable) rfl (by simp [succeeded,Flushing.pending,Flushing.counted])
  | completing batch =>
    have bounded := books.bounded
    exact ⟨by dsimp only [flushStep]; omega,rfl,books.whole,books.inOrder⟩
  | restoring attempt batch retry =>
    have bounded := books.bounded
    have inflight := books.inflight
    have whole := books.whole
    have restored : Books c (restoreBatch batch s) .checking := by
      refine ⟨?_,rfl,?_,books.inOrder⟩
      · dsimp only [restoreBatch,Flushing.counted] at inflight ⊢
        rw [length_append]
        omega
      · dsimp only [restoreBatch]
        rw [whole]
        simp [Flushing.pending,Flushing.counted]
    refine restored.moved _ ?_ ?_ <;> (dsimp only [flushStep,Next.place?,getD_some]; split <;> rfl)
  | sleeping attempt =>
    refine books.moved _ ?_ ?_ <;> (dsimp only [flushStep,Next.place?,getD_some]; split <;> rfl)
  | replacing attempt => exact {books with}
  | leaving raises => cases raises <;> exact {books with}

theorem flushStep_lock :
    ((flushStep c force chance s place).1.flushLock = none ∧ (flushStep c force chance s place).2.place? = none) ∨
      (flushStep c force chance s place).1.flushLock = s.flushLock := by
  cases place with
  | leaving raises => cases raises <;> exact .inl ⟨rfl,rfl⟩
  | executing attempt batch =>
    right
    dsimp only [flushStep]
    rcases chance.outcome with _ | ⟨takesEffect,retryable⟩
    · rfl
    · cases takesEffect <;> rfl
  | _ => exact .inr rfl

theorem flushStep_leaves (leaves : (flushStep c true chance s place).2 = .move (.leaving false)) :
    place = .checking ∧ s.buffer = [] := by
  cases place with
  | checking =>
    dsimp only [flushStep] at leaves
    split at leaves
    next => cases leaves
    next stops => exact ⟨rfl,by simpa [shouldFlush] using stops⟩
  | executing attempt batch =>
    obtain ⟨due,_ | ⟨takesEffect,retryable⟩⟩ := chance <;> cases leaves
  | completing batch => cases leaves
  | replacing attempt => cases leaves
  | leaving raises => cases raises <;> cases leaves
  | _ =>
    dsimp only [flushStep] at leaves
    split at leaves <;> cases leaves

theorem flushStep_returned (ends : (flushStep c true chance s place).2 = .returned) : place = .leaving false := by
  cases place with
  | leaving raises =>
    cases raises with
    | false => rfl
    | true => cases ends
  | executing attempt batch =>
    obtain ⟨due,_ | ⟨takesEffect,retryable⟩⟩ := chance <;> cases ends
  | _ => cases ends

end

structure Advances (s next : Sink ρ) : Prop where
  written : s.written <+: next.written
  succeeded : succeeded s.executions <+: succeeded next.executions
  backgroundError : s.backgroundError = true → next.backgroundError = true

theorem flushStep_advances (place : Flushing ρ) : Advances s (flushStep c force chance s place).1 ∧
    (flushStep c force chance s place).1.flushThread = s.flushThread ∧
    (s.pool = true → (flushStep c force chance s place).1.pool = true) := by
  have appended (batch : List ρ) (flag : Bool) : Advances s (effect batch flag s) := by
    refine ⟨prefix_refl _,?_,id⟩
    dsimp only [effect]
    rw [succeeded_append]
    exact prefix_append _ _
  have same : Advances s s := ⟨prefix_refl _,prefix_refl _,id⟩
  cases place with
  | executing attempt batch =>
    dsimp only [flushStep]
    rcases chance.outcome with _ | ⟨takesEffect,retryable⟩
    · exact ⟨appended batch true,rfl,id⟩
    · cases takesEffect
      · exact ⟨same,rfl,id⟩
      · exact ⟨appended batch false,rfl,id⟩
  | replacing attempt => exact ⟨⟨prefix_refl _,prefix_refl _,id⟩,rfl,fun _ => rfl⟩
  | _ => exact ⟨⟨prefix_refl _,prefix_refl _,id⟩,rfl,id⟩

end flush

/-! ### All threads -/

def Task.place? : Task ρ → Option (Flushing ρ)
  | .flushing _ (.available place) => some place
  | _ => none

def Background.place? : Background ρ → Option (Flushing ρ)
  | .flushing place => some place
  | _ => none

def Closer.place? : Closer ρ → Option (Flushing ρ)
  | .flushing (.available place) => some place
  | _ => none

def World.places (w : World ρ) : Thread → Option (Flushing ρ)
  | .task => w.task.place?
  | .background => w.background.place?
  | .closer => w.closer.place?

structure Core (c : Config) (s : Sink ρ) (places : Thread → Option (Flushing ρ)) : Prop where
  books : Books c s ((s.flushLock.bind places).getD .checking)
  lock : ∀ thread place, places thread = some place → s.flushLock = some thread

namespace Core
variable {s : Sink ρ} {places : Thread → Option (Flushing ρ)}

section
variable (core : Core c s places)
include core

section
variable (thread : Thread) (place : Flushing ρ) (here : places thread = some place)
include here

theorem at_place : Books c s place := by
  have books := core.books
  rw [core.lock thread place here,bind_some,here] at books
  exact books

theorem flush (force : Bool)
    (chance : Chance) (later : Thread → Option (Flushing ρ)) (moved : later thread = (flushStep c force chance s place).2.place?)
    (others : ∀ other, other ≠ thread → later other = places other) : Core c (flushStep c force chance s place).1 later := by
  have books := flushStep_books force chance s place (core.at_place thread place here)
  have held := core.lock thread place here
  have alone : ∀ other, other ≠ thread → later other = none := by
    intro other differs
    rw [others other differs]
    cases found : places other with
    | none => rfl
    | some place' => exact absurd (some.inj ((core.lock other place' found).symm.trans held)) differs
  have owner : ∀ other place', later other = some place' → other = thread := by
    intro other place' found
    by_contra differs
    rw [alone other differs] at found
    cases found
  rcases flushStep_lock (c := c) force chance s place with ⟨free,ended⟩ | kept
  · rw [ended] at books moved
    refine ⟨by rw [free]; exact books,fun other place' found => ?_⟩
    rw [owner other place' found,moved] at found
    cases found
  · refine ⟨?_,fun other place' found => ?_⟩
    · rw [kept,held,bind_some,moved]
      exact books
    · rw [owner other place' found,kept,held]

end

theorem acquire (thread : Thread) (free : s.flushLock = none) (later : Thread → Option (Flushing ρ))
    (moved : later thread = some .checking) (others : ∀ other, other ≠ thread → later other = places other) :
    Core c { s with flushLock := some thread } later := by
  have books := core.books
  rw [free] at books
  refine ⟨?_,fun other place found => ?_⟩
  · rw [bind_some,moved]
    exact {books with}
  · by_cases same : other = thread
    · rw [same]
    · rw [others other same] at found
      have held := core.lock other place found
      rw [free] at held
      cases held

theorem flags (next : Sink ρ) (later : Thread → Option (Flushing ρ)) (stay : later = places)
    (same : s = { next with
      stopEvent := s.stopEvent
      flushThread := s.flushThread
      backgroundError := s.backgroundError
      pool := s.pool }) : Core c next later := by
  subst stay
  rw [same] at core
  exact ⟨{core.books with},core.lock⟩

theorem write (record : ρ) (room : s.buffer.length + s.inflight < c.bufferCapacity)
    (later : Thread → Option (Flushing ρ)) (stay : later = places) :
    Core c { s with
      buffer := s.buffer ++ [record]
      written := s.written ++ [record] } later := by
  subst stay
  refine ⟨⟨?_,core.books.inflight,?_,core.books.inOrder.append_record _ _ _⟩,core.lock⟩
  · dsimp only
    rw [length_append,length_singleton]
    omega
  · have whole := core.books.whole
    dsimp only
    rw [whole,append_assoc]

end

end Core

def FlushCall.over : FlushCall ρ → Prop
  | .available (.leaving raises) => raises = false
  | .ending => True
  | _ => False

def TaskInv (s : Sink ρ) : Task ρ → Prop
  | .idle => True
  | .writing _ call => call.failed = true → s.backgroundError = true
  | .flushing call place => call.failed = false ∧ call.before <+: s.written ∧ (place = .unopened → s.pool = false) ∧
    (place.over → call.before <+: succeeded s.executions)

theorem TaskInv.advance {s next : Sink ρ} {task : Task ρ} (inv : TaskInv s task) (advances : Advances s next)
    (closed : s.pool = false → next.pool = false) : TaskInv next task := by
  cases task with
  | idle => trivial
  | writing record call => exact fun failed => advances.backgroundError (inv failed)
  | flushing call place =>
    obtain ⟨sound,before,unopened,done⟩ := inv
    exact ⟨sound,before.trans advances.written,fun here => closed (unopened here),fun finished => (done finished).trans advances.succeeded⟩

def Closer.inFlush : Closer ρ → Bool
  | .flushing .acquiring => true
  | .flushing (.available _) => true
  | _ => false

theorem Closer.away (closer : Closer ρ) (away : closer.inFlush = false) : closer.place? = none := by
  cases closer with
  | flushing place => cases place <;> first | rfl | cases away
  | _ => rfl

structure Inv (c : Config) (w : World ρ) : Prop where
  core : Core c w.sink w.places
  closed : w.sink.pool = false → w.background = .ended ∧ w.closer.inFlush = false
  joined : w.sink.flushThread = false → w.background = .ended ∨ w.closer = .joining true
  alone : w.closer = .joining false ∨ w.closer = .disconnecting → w.background = .ended
  task : TaskInv w.sink w.task

theorem inv_opened : Inv c (World.opened : World ρ) := by
  refine ⟨⟨⟨Nat.zero_le _,rfl,rfl,?_⟩,?_⟩,?_,?_,?_,trivial⟩
  · intro before execution after split
    cases before <;> cases split
  · intro thread place found
    cases thread <;> cases found
  · intro closed
    cases closed
  · intro joined
    cases joined
  · intro closer
    rcases closer with same | same <;> cases same

/-! ### Steps -/

theorem places_task (w : World ρ) (task : Task ρ) (s : Sink ρ) (same : task.place? = w.task.place?) :
    World.places { w with sink := s, task := task } = w.places := by
  funext thread
  cases thread with
  | task => exact same
  | background => rfl
  | closer => rfl

theorem Inv.task_moves {w : World ρ} (inv : Inv c w) (s : Sink ρ) (task : Task ρ)
    (core : Core c s (World.places { w with sink := s, task := task })) (pool : s.pool = false → w.sink.pool = false)
    (thread : s.flushThread = w.sink.flushThread) (kept : TaskInv s task) : Inv c { w with sink := s, task := task } := by
  refine ⟨core,fun closed => inv.closed (pool closed),fun joined => inv.joined ?_,inv.alone,kept⟩
  rw [← thread]
  exact joined

theorem Inv.task_waits {w : World ρ} (inv : Inv c w) (task : Task ρ) (same : task.place? = w.task.place?) (kept : TaskInv w.sink task) :
    Inv c { w with task := task } :=
  inv.task_moves w.sink task (inv.core.flags w.sink _ (places_task w task w.sink same) rfl) id rfl kept

theorem writeStep_inv (w next : World ρ) (record : ρ) (call : Call ρ) (event : Option (Event ρ)) (inv : Inv c w)
    (here : w.task = .writing record call) (taken : w.writeStep c record call = some (next,event)) :
    Inv c next ∧ ∀ e ∈ event, e.Honest next.sink := by
  have idle : (Task.idle : Task ρ).place? = w.task.place? := by rw [here]; rfl
  have raises : Inv c { w with task := .idle } := inv.task_waits .idle idle trivial
  unfold World.writeStep at taken
  dsimp only at taken
  split at taken
  next =>
    split at taken
    next =>
      cases taken
      exact ⟨raises,by simp [Event.Honest]⟩
    next => cases taken
  next room =>
    split at taken
    next =>
      cases taken
      exact ⟨raises,by simp [Event.Honest]⟩
    next sound =>
      cases taken
      constructor
      · exact inv.task_moves _ _ (inv.core.write record (by omega) _ (places_task w .idle _ idle)) id rfl trivial
      · rintro e ⟨⟩
        have kept := inv.task
        rw [here] at kept
        exact Bool.eq_false_iff.mpr (fun failed => sound (kept failed))

theorem Inv.quiet {w : World ρ} (inv : Inv c w) (closed : w.sink.pool = false) (out : w.task.place? = none) : Books c w.sink .checking := by
  obtain ⟨ended,away⟩ := inv.closed closed
  have nowhere : w.places = fun _ => none := by
    funext thread
    cases thread with
    | task => exact out
    | background => exact (congrArg Background.place? ended).trans rfl
    | closer => exact Closer.away w.closer away
  have books := inv.core.books
  rw [nowhere] at books
  cases owner : w.sink.flushLock with
  | none =>
    rw [owner] at books
    exact books
  | some thread =>
    rw [owner] at books
    exact books

theorem flushCall_inv (w next : World ρ) (chance : Chance) (call : Call ρ) (place : FlushCall ρ) (event : Option (Event ρ)) (inv : Inv c w)
    (here : w.task = .flushing call place) (taken : w.taskStep c chance = some (next,event)) :
    Inv c next ∧ ∀ e ∈ event, e.Honest next.sink := by
  have kept := inv.task
  rw [here] at kept
  obtain ⟨sound,before,unopened,done⟩ := kept
  unfold World.taskStep at taken
  rw [here] at taken
  obtain ⟨⟨s,goes⟩,called,taken⟩ := map_eq_some_iff.mp taken
  cases place with
  | lookingAtPool =>
    cases called
    cases taken
    refine ⟨inv.task_waits _ ?_ ⟨sound,before,fun look => ?_,fun ended => ?_⟩,by simp⟩
    · rw [here]
      split <;> rfl
    · split at look
      next => cases look
      next shut => simpa using shut
    · split at ended <;> cases ended
  | unopened =>
    cases called
    have closed := unopened rfl
    have books := inv.quiet closed (by rw [here]; rfl)
    have idle : Inv c { w with task := .idle } := inv.task_waits .idle (by rw [here]; rfl) trivial
    by_cases empty : w.sink.buffer = []
    · rw [if_pos empty] at taken
      cases taken
      refine ⟨idle,?_⟩
      rintro e ⟨⟩
      rw [books.drained rfl empty] at before
      exact ⟨sound,before⟩
    · rw [if_neg empty] at taken
      cases taken
      exact ⟨idle,by simp [Event.Honest]⟩
  | acquiring =>
    dsimp only [flushCall] at called
    split at called
    next free =>
      cases called
      cases taken
      refine ⟨inv.task_moves _ _ ?_ id rfl ⟨sound,before,nofun,nofun⟩,by simp⟩
      exact inv.core.acquire .task free _ rfl (fun other differs => by cases other <;> first | rfl | exact absurd rfl differs)
    next => cases called
  | available place =>
    have inside : w.places .task = some place := (congrArg Task.place? here).trans rfl
    have books := inv.core.at_place .task place inside
    obtain ⟨advances,thread,pool⟩ := flushStep_advances (c := c) true chance w.sink place
    have leaves := flushStep_leaves (c := c) chance w.sink place
    have ends := flushStep_returned (c := c) chance w.sink place
    have core := inv.core.flush .task place inside true chance
    have shut : (flushStep c true chance w.sink place).1.pool = false → w.sink.pool = false := by
      intro closed
      by_contra opened
      rw [pool (by simpa using opened)] at closed
      cases closed
    dsimp only [flushCall] at called
    rcases stepped : flushStep c true chance w.sink place with ⟨s',ahead⟩
    rw [stepped] at advances thread leaves ends core shut called
    cases called
    have moves (task : Task ρ) (moved : task.place? = ahead.place?) (kept : TaskInv s' task) : Inv c { w with sink := s', task := task } :=
      inv.task_moves s' task (core _ moved (fun other differs => by cases other <;> first | rfl | exact absurd rfl differs)) shut thread kept
    cases ahead with
    | move next =>
      cases taken
      refine ⟨moves _ rfl ⟨sound,before.trans advances.written,nofun,fun ended => ?_⟩,by simp⟩
      have last : next = .leaving false := by
        cases next with
        | leaving raises => exact congrArg Flushing.leaving ended
        | _ => cases ended
      subst last
      obtain ⟨rfl,empty⟩ := leaves rfl
      rw [books.drained rfl empty] at before
      exact before.trans advances.succeeded
    | returned =>
      cases taken
      obtain rfl := ends rfl
      exact ⟨moves _ rfl ⟨sound,before.trans advances.written,nofun,fun _ => (done rfl).trans advances.succeeded⟩,by simp⟩
    | raised =>
      cases taken
      exact ⟨moves _ rfl trivial,by simp [Event.Honest]⟩
  | ending =>
    cases called
    have idle : Inv c { w with task := .idle } := inv.task_waits .idle (by rw [here]; rfl) trivial
    cases failed : w.sink.backgroundError with
    | true =>
      rw [failed] at taken
      cases taken
      exact ⟨idle,by simp [Event.Honest]⟩
    | false =>
      rw [failed] at taken
      cases taken
      refine ⟨idle,?_⟩
      rintro e ⟨⟩
      exact ⟨sound,done trivial⟩

theorem Inv.background_moves {w : World ρ} (inv : Inv c w) (alive : w.background ≠ .ended) (s : Sink ρ) (background : Background ρ)
    (core : Core c s (World.places { w with sink := s, background := background })) (pool : w.sink.pool = true → s.pool = true)
    (thread : s.flushThread = w.sink.flushThread) (advances : Advances w.sink s) :
    Inv c { w with sink := s, background := background } := by
  have open' : w.sink.pool = true := by
    by_contra shut
    exact alive (inv.closed (by simpa using shut)).1
  refine ⟨core,fun shut => ?_,fun joined => .inr ?_,fun closer => absurd (inv.alone closer) alive,?_⟩
  · rw [pool open'] at shut
    cases shut
  · exact (inv.joined (thread ▸ joined)).resolve_left alive
  · refine inv.task.advance advances (fun shut => ?_)
    rw [open'] at shut
    cases shut

theorem places_background (w : World ρ) (background : Background ρ) (s : Sink ρ) (same : background.place? = w.background.place?) :
    World.places { w with sink := s, background := background } = w.places := by
  funext thread
  cases thread with
  | task => rfl
  | background => exact same
  | closer => rfl

theorem backgroundStep_inv (w next : World ρ) (chance : Chance) (inv : Inv c w) (taken : w.backgroundStep c chance = some next) : Inv c next := by
  have same : Advances w.sink w.sink := ⟨prefix_refl _,prefix_refl _,id⟩
  unfold World.backgroundStep at taken
  split at taken
  next here =>
    have alive : w.background ≠ .ended := by simp [here]
    have waits (background : Background ρ) (out : background.place? = none) : Inv c { w with background := background } :=
      inv.background_moves alive w.sink background (inv.core.flags _ _ (places_background w background w.sink (by rw [out,here]; rfl)) rfl) id rfl same
    split at taken
    next =>
      cases taken
      exact waits .ended rfl
    next =>
      split at taken
      next =>
        cases taken
        exact waits .acquiring rfl
      next => cases taken
  next here =>
    split at taken
    next free =>
      cases taken
      refine inv.background_moves (by simp [here]) _ _ ?_ id rfl ⟨prefix_refl _,prefix_refl _,id⟩
      exact inv.core.acquire .background free _ rfl (fun other differs => by cases other <;> first | rfl | exact absurd rfl differs)
    next => cases taken
  next place here =>
    have inside : w.places .background = some place := (congrArg Background.place? here).trans rfl
    obtain ⟨advances,thread,pool⟩ := flushStep_advances (c := c) false chance w.sink place
    have core := inv.core.flush .background place inside false chance
    rcases stepped : flushStep c false chance w.sink place with ⟨s,ahead⟩
    rw [stepped] at advances thread pool core taken
    cases taken
    refine inv.background_moves (by simp [here]) _ _ (core _ ?_ ?_) pool thread advances
    · cases ahead <;> rfl
    · exact fun other differs => by cases other <;> first | rfl | exact absurd rfl differs
  next here =>
    cases taken
    refine inv.background_moves (by simp [here]) _ _ (inv.core.flags _ _ ?_ rfl) id rfl ⟨prefix_refl _,prefix_refl _,fun _ => rfl⟩
    exact places_background w .ended _ (by rw [here]; rfl)
  next => cases taken

theorem places_closer (w : World ρ) (closer : Closer ρ) (s : Sink ρ) (same : closer.place? = w.closer.place?) :
    World.places { w with sink := s, closer := closer } = w.places := by
  funext thread
  cases thread with
  | task => rfl
  | background => rfl
  | closer => exact same

theorem Inv.closer_moves {w : World ρ} (inv : Inv c w) (place : FlushCall ρ) (here : w.closer = .flushing place) (s : Sink ρ) (closer : Closer ρ)
    (stays : closer = .stopping ∨ ∃ place', closer = .flushing place') (core : Core c s (World.places { w with sink := s, closer := closer }))
    (pool : s.pool = false → w.sink.pool = false ∧ closer.inFlush = false) (thread : s.flushThread = w.sink.flushThread)
    (task : TaskInv s w.task) : Inv c { w with sink := s, closer := closer } := by
  refine ⟨core,fun shut => ⟨(inv.closed (pool shut).1).1,(pool shut).2⟩,fun joined => .inl ?_,fun moved => ?_,task⟩
  · have before := inv.joined (thread ▸ joined)
    rw [here] at before
    exact before.resolve_right nofun
  · rcases stays with rfl | ⟨place',rfl⟩ <;> rcases moved with same | same <;> cases same

theorem closerFlush_inv (w : World ρ) (chance : Chance) (place : FlushCall ρ) (inv : Inv c w) (here : w.closer = .flushing place)
    (s : Sink ρ) (goes : Next (FlushCall ρ)) (called : flushCall c .closer chance w.sink place = some (s,goes)) :
    Inv c (match goes with
      | .move place => { w with sink := s, closer := .flushing place }
      | _ => { w with sink := s, closer := .stopping }) := by
  have opened (within : (Closer.flushing place).inFlush = true) : w.sink.pool = true := by
    by_contra shut
    have away := (inv.closed (by simpa using shut)).2
    rw [here,within] at away
    cases away
  have waits (closer : Closer ρ) (stays : closer = .stopping ∨ ∃ place', closer = .flushing place') (out : closer.place? = none)
      (old : w.closer.place? = none) (away : w.sink.pool = false → closer.inFlush = false) : Inv c { w with closer := closer } :=
    inv.closer_moves place here w.sink closer stays (inv.core.flags _ _ (places_closer w closer w.sink (out.trans old.symm)) rfl)
      (fun shut => ⟨shut,away shut⟩) rfl inv.task
  cases place with
  | lookingAtPool =>
    cases called
    refine waits _ (.inr ⟨_,rfl⟩) ?_ (by rw [here]; rfl) (fun shut => ?_)
    · split <;> rfl
    · rw [shut]
      rfl
  | unopened =>
    cases called
    have stops := waits .stopping (.inl rfl) rfl (by rw [here]; rfl) (fun _ => rfl)
    split
    next found =>
      split at found <;> cases found
    next => exact stops
  | acquiring =>
    dsimp only [flushCall] at called
    split at called
    next free =>
      cases called
      refine inv.closer_moves .acquiring here _ _ (.inr ⟨_,rfl⟩) ?_ (fun shut => ?_) rfl
        (inv.task.advance ⟨prefix_refl _,prefix_refl _,id⟩ id)
      · exact inv.core.acquire .closer free _ rfl (fun other differs => by cases other <;> first | rfl | exact absurd rfl differs)
      · rw [opened rfl] at shut
        cases shut
    next => cases called
  | available place =>
    have inside : w.places .closer = some place := (congrArg Closer.place? here).trans rfl
    obtain ⟨advances,thread,pool⟩ := flushStep_advances (c := c) true chance w.sink place
    have core := inv.core.flush .closer place inside true chance
    dsimp only [flushCall] at called
    rcases stepped : flushStep c true chance w.sink place with ⟨s',ahead⟩
    rw [stepped] at advances thread pool core called
    cases called
    have moves (closer : Closer ρ) (stays : closer = .stopping ∨ ∃ place', closer = .flushing place') (moved : closer.place? = ahead.place?) :
        Inv c { w with sink := s', closer := closer } := by
      refine inv.closer_moves _ here s' closer stays (core _ moved ?_) (fun shut => ?_) thread (inv.task.advance advances (fun shut => ?_))
      · exact fun other differs => by cases other <;> first | rfl | exact absurd rfl differs
      · rw [pool (opened rfl)] at shut
        cases shut
      · rw [opened rfl] at shut
        cases shut
    cases ahead with
    | move next => exact moves _ (.inr ⟨_,rfl⟩) rfl
    | returned => exact moves _ (.inr ⟨_,rfl⟩) rfl
    | raised => exact moves _ (.inl rfl) rfl
  | ending =>
    cases called
    have stops := waits .stopping (.inl rfl) rfl (by rw [here]; rfl) (fun _ => rfl)
    split
    next found =>
      split at found <;> cases found
    next => exact stops

theorem closerStep_inv (w next : World ρ) (chance : Chance) (inv : Inv c w) (taken : w.closerStep c chance = some next) : Inv c next := by
  unfold World.closerStep at taken
  split at taken
  next => cases taken
  next place here =>
    obtain ⟨⟨s,goes⟩,called,rfl⟩ := map_eq_some_iff.mp taken
    exact closerFlush_inv w chance place inv here s goes called
  next here =>
    cases taken
    have ended (joined : w.sink.flushThread = false) : w.background = .ended := by
      have before := inv.joined joined
      rw [here] at before
      exact before.resolve_right nofun
    refine ⟨inv.core.flags _ _ (places_closer w _ _ (by rw [here]; rfl)) rfl,fun shut => ⟨(inv.closed shut).1,rfl⟩,fun _ => ?_,fun closer => ?_,
      inv.task.advance ⟨prefix_refl _,prefix_refl _,id⟩ id⟩
    · cases thread : w.sink.flushThread with
      | true => exact .inr rfl
      | false => exact .inl (ended thread)
    · rcases closer with same | same
      · exact ended (Closer.joining.inj same)
      · cases same
  next thread here =>
    have joins (ended : w.background = .ended) : Inv c { w with closer := .disconnecting } :=
      ⟨inv.core.flags _ _ (places_closer w _ _ (by rw [here]; rfl)) rfl,fun shut => ⟨ended,rfl⟩,fun _ => .inl ended,fun _ => ended,inv.task⟩
    split at taken
    next ended =>
      cases taken
      exact joins ended
    next => cases taken
    next =>
      cases taken
      exact joins (inv.alone (.inl here))
  next here =>
    cases taken
    have ended := inv.alone (.inr here)
    refine ⟨inv.core.flags _ _ (places_closer w _ _ (by rw [here]; rfl)) rfl,fun _ => ⟨ended,rfl⟩,fun _ => .inl ended,fun closer => ?_,
      inv.task.advance ⟨prefix_refl _,prefix_refl _,id⟩ (fun _ => rfl)⟩
    rcases closer with same | same <;> cases same

theorem step_inv (w next : World ρ) (label : Label ρ) (event : Option (Event ρ)) (inv : Inv c w) (taken : w.step c label = some (next,event)) :
    Inv c next ∧ ∀ e ∈ event, e.Honest next.sink := by
  unfold World.step at taken
  split at taken
  next record =>
    split at taken
    next idle =>
      have taken := some.inj taken
      split at taken
      next =>
        cases taken
        exact ⟨inv.task_waits _ (by rw [idle]; rfl) id,by simp⟩
      next =>
        cases taken
        exact ⟨inv,by simp [Event.Honest]⟩
    next => cases taken
  next =>
    split at taken
    next idle =>
      have taken := some.inj taken
      split at taken
      next =>
        cases taken
        exact ⟨inv,by simp [Event.Honest]⟩
      next sound =>
        cases taken
        exact ⟨inv.task_waits _ (by rw [idle]; rfl) ⟨by simpa [World.call] using sound,prefix_refl _,nofun,nofun⟩,by simp⟩
    next => cases taken
  next =>
    split at taken
    next idle =>
      cases taken
      refine ⟨⟨inv.core.flags _ _ (places_closer w _ _ ?_) rfl,fun shut => ⟨(inv.closed shut).1,?_⟩,fun joined => .inl ?_,fun moved => ?_,inv.task⟩,by simp⟩
      · rw [idle]
        split <;> rfl
      · split <;> rfl
      · have before := inv.joined joined
        rw [idle] at before
        exact before.resolve_right nofun
      · split at moved <;> rcases moved with same | same <;> cases same
    next => cases taken
  next chance =>
    cases here : w.task with
    | idle =>
      unfold World.taskStep at taken
      rw [here] at taken
      cases taken
    | writing record call =>
      unfold World.taskStep at taken
      rw [here] at taken
      exact writeStep_inv w next record call event inv here taken
    | flushing call place => exact flushCall_inv w next chance call place event inv here taken
  next chance =>
    obtain ⟨next',moved,same⟩ := map_eq_some_iff.mp taken
    cases same
    exact ⟨backgroundStep_inv w next chance inv moved,by simp⟩
  next chance =>
    obtain ⟨next',moved,same⟩ := map_eq_some_iff.mp taken
    cases same
    exact ⟨closerStep_inv w next chance inv moved,by simp⟩

def World.next (c : Config) (w : World ρ) (label : Label ρ) : Option (World ρ) := (w.step c label).map Prod.fst

/-! ### A background failure stays -/

section failed
variable (w next : World ρ) (failed : w.sink.backgroundError = true)
include failed

theorem refuses : Refuses c w where
  flush := by
    intro idle
    unfold World.step
    rw [idle,failed]
    rfl
  write := by
    intro record idle
    unfold World.step
    rw [idle]
    cases w.sink.pool with
    | true => exact .inr rfl
    | false => exact .inl rfl
  writing := by
    intro record call chance writing
    unfold World.step World.taskStep
    dsimp only
    rw [writing]
    unfold World.writeStep
    dsimp only
    rw [failed]
    split <;> rfl

theorem flushCall_failed (thread : Thread) (chance : Chance) (place : FlushCall ρ) (result : Sink ρ × Next (FlushCall ρ))
    (called : flushCall c thread chance w.sink place = some result) : result.1.backgroundError = true := by
  cases place with
  | acquiring =>
    dsimp only [flushCall] at called
    split at called
    · cases called
      exact failed
    · cases called
  | available place =>
    cases called
    exact (flushStep_advances (c := c) true chance w.sink place).1.backgroundError failed
  | _ =>
    cases called
    exact failed

theorem backgroundStep_failed (chance : Chance) (taken : w.backgroundStep c chance = some next) :
    next.sink.backgroundError = true := by
  unfold World.backgroundStep at taken
  split at taken
  · split at taken
    · cases taken
      exact failed
    · split at taken <;> cases taken
      exact failed
  · split at taken <;> cases taken
    exact failed
  next place _ =>
    cases taken
    exact (flushStep_advances (c := c) false chance w.sink place).1.backgroundError failed
  · cases taken
    rfl
  · cases taken

theorem closerStep_failed (chance : Chance) (taken : w.closerStep c chance = some next) :
    next.sink.backgroundError = true := by
  unfold World.closerStep at taken
  split at taken
  · cases taken
  next place _ =>
    obtain ⟨result,called,rfl⟩ := map_eq_some_iff.mp taken
    have kept := flushCall_failed w failed .closer chance place result called
    split <;> exact kept
  · cases taken
    exact failed
  · split at taken <;> cases taken <;> exact failed
  · cases taken
    exact failed

theorem step_failed (label : Label ρ) (event : Option (Event ρ)) (taken : w.step c label = some (next,event)) :
    next.sink.backgroundError = true := by
  cases label with
  | write record =>
    dsimp only [World.step] at taken
    split at taken
    · have taken := some.inj taken
      split at taken <;> cases taken <;> exact failed
    · cases taken
  | flush =>
    dsimp only [World.step] at taken
    split at taken
    · have taken := some.inj taken
      split at taken <;> cases taken <;> exact failed
    · cases taken
  | close =>
    dsimp only [World.step] at taken
    split at taken <;> cases taken
    exact failed
  | task chance =>
    dsimp only [World.step,World.taskStep] at taken
    split at taken
    · cases taken
    next record call writing =>
      have raised := (refuses (c := c) w failed).writing record call chance writing
      unfold World.step World.taskStep at raised
      rw [writing] at raised
      cases raised.symm.trans taken
      exact failed
    next call place _ =>
      obtain ⟨result,called,moved⟩ := map_eq_some_iff.mp taken
      have kept := flushCall_failed w failed .task chance place result called
      split at moved <;> cases moved <;> exact kept
  | background chance =>
    obtain ⟨next',moved,same⟩ := map_eq_some_iff.mp taken
    cases same
    exact backgroundStep_failed w next failed chance moved
  | closer chance =>
    obtain ⟨next',moved,same⟩ := map_eq_some_iff.mp taken
    cases same
    exact closerStep_failed w next failed chance moved

end failed

theorem redis_sink_loses_and_reorders_nothing (c : Config) (labels : List (Label ρ)) (w : World ρ)
    (run : Runs.exec (World.next c) World.opened labels = some w) :
    Safe c w.sink ∧ (∀ label next event, w.step c label = some (next,some event) → event.Honest next.sink) ∧
      (w.sink.backgroundError = true → ∀ later final, Runs.exec (World.next c) w later = some final → Refuses c final) := by
  have inv := Runs.exec_invariant (World.next c) (fun _ _ => True) (Inv c) (fun w label next inv _ taken => by
      obtain ⟨⟨next',event⟩,moved,rfl⟩ := map_eq_some_iff.mp taken
      exact (step_inv w next' label event inv moved).1)
    labels World.opened w inv_opened (Runs.Along.of_forall _ _ _ (fun _ _ _ => trivial) _) run
  refine ⟨inv.core.books.safe,fun label next event taken => ?_,fun failed later final goesOn => ?_⟩
  · exact (step_inv w next label (some event) inv taken).2 event rfl
  · have stays := Runs.exec_invariant (World.next c) (fun _ _ => True) (fun w => w.sink.backgroundError = true)
      (fun w label next failed _ taken => by
        obtain ⟨⟨next',event⟩,moved,rfl⟩ := map_eq_some_iff.mp taken
        exact step_failed w next' failed label event moved)
      later w final failed (Runs.Along.of_forall _ _ _ (fun _ _ _ => trivial) _) goesOn
    exact refuses final stays

def sound : Chance := ⟨true,.succeeds⟩

def refused (takesEffect : Bool) : Chance := ⟨true,.fails takesEffect true⟩

/-- Two rows and a flush that sends them twice, up to its last look at the stored error. -/
def retried : List (Label Nat) :=
  [.write 7,.task sound,.write 8,.task sound,.flush] ++ List.replicate 5 (.task sound) ++ [.task (refused true)] ++
    List.replicate 9 (.task sound)

/-- One more row, which the background thread gives up. -/
def givenUp : List (Label Nat) :=
  retried ++ [.task sound,.write 9,.task sound] ++ List.replicate 5 (.background sound) ++ [.background (refused false)] ++
    List.replicate 5 (.background sound) ++ [.background (refused true)] ++ List.replicate 3 (.background sound)

def flushedBefore : Event Nat → List Nat
  | .flushed call => call.before
  | _ => []

theorem retried_flush_executes : (∃ w next event, Runs.exec (World.next ⟨2,3,1⟩) World.opened retried = some w ∧
      w.step ⟨2,3,1⟩ (.task sound) = some (next,some event) ∧ flushedBefore event = [7,8] ∧ event.Honest next.sink) ∧
    ∃ w, Runs.exec (World.next ⟨2,3,1⟩) World.opened givenUp = some w ∧
      w.sink.executions = [⟨[7,8],false⟩,⟨[7,8],true⟩,⟨[9],false⟩] ∧ Safe ⟨2,3,1⟩ w.sink ∧
      ∃ final, Runs.exec (World.next ⟨2,3,1⟩) w (.close::List.replicate 3 (.closer sound)) = some final ∧
        Refuses ⟨2,3,1⟩ w ∧ Refuses ⟨2,3,1⟩ final := by
  constructor
  · obtain ⟨w,run,flushes⟩ := Runs.exec_check (World.next ⟨2,3,1⟩) World.opened retried (fun w =>
      ((w.step ⟨2,3,1⟩ (.task sound)).any (fun result => result.2.any (fun event => flushedBefore event = [7,8]))) = true)
      (by decide +kernel)
    obtain ⟨⟨next,event⟩,taken,flushed⟩ := (Option.any_eq_true _ _).mp flushes
    obtain ⟨event,rfl,before⟩ := (Option.any_eq_true _ _).mp flushed
    have honest := (redis_sink_loses_and_reorders_nothing ⟨2,3,1⟩ retried w run).2.1 (.task sound) next event taken
    exact ⟨w,next,event,run,taken,of_decide_eq_true before,honest⟩
  · obtain ⟨w,run,executions,failed,closes⟩ := Runs.exec_check (World.next ⟨2,3,1⟩) World.opened givenUp
      (fun w => w.sink.executions = [⟨[7,8],false⟩,⟨[7,8],true⟩,⟨[9],false⟩] ∧ w.sink.backgroundError = true ∧
        (Runs.exec (World.next ⟨2,3,1⟩) w (.close::List.replicate 3 (.closer sound))).isSome = true) (by decide +kernel)
    obtain ⟨final,closed⟩ := isSome_iff_exists.mp closes
    obtain ⟨safe,-,refuses⟩ := redis_sink_loses_and_reorders_nothing ⟨2,3,1⟩ givenUp w run
    exact ⟨w,run,executions,safe,final,closed,refuses failed [] w rfl,refuses failed _ final closed⟩

end Klein.Redis
