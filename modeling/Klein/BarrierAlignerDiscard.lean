import Klein.BarrierAligner
import Klein.Runs

/-! What an aborted barrier does to the others. `discard` removes one barrier's
partial counts and raises both cut-offs to it, so the aligner that discarded a
barrier is compared with the one that did not, over whatever happens later to
other barriers. -/
namespace Klein.BarrierAligner
open Dict Runs

inductive Operation where
  | receive (copy : Copy)
  | receiveEof (barrier : Barrier)
  | resetInflightBefore (cutoff : Int)
  | discard (barrierId : Int)
  | reconfigure (barrierSplits : Dict ExecutionVertexId Nat) (inputVertexIds : Option (List ExecutionVertexId))
      (inputChannels : Option (List DeliveryChannel))
  | reconfigureInputs (inputVertexIds : List ExecutionVertexId) (inputChannels : Option (List DeliveryChannel))

variable (quote : String → String)

/-- One operation, with the outcome that `receive` reported. -/
def perform (a : BarrierAligner) : Operation → Except AlignerError (BarrierAligner × Option Outcome)
  | .receive copy => (receive quote a copy).map (fun result => (result.1,some result.2))
  | .receiveEof barrier => .ok ((a.receiveEof barrier).1,none)
  | .resetInflightBefore cutoff => .ok ((a.resetInflightBefore cutoff).1,none)
  | .discard barrierId => .ok ((a.discard barrierId).1,none)
  | .reconfigure splits vertices channels => (a.reconfigure quote splits vertices channels).map (·,none)
  | .reconfigureInputs vertices channels => (a.reconfigureInputs quote vertices channels).map (·,none)

def history (a : BarrierAligner) : List Operation → Except AlignerError (BarrierAligner × List (Option Outcome))
  | [] => .ok (a,[])
  | operation::rest => do
    let (next,outcome) ← perform quote a operation
    let (final,outcomes) ← history next rest
    return (final,outcome::outcomes)

def step (a : BarrierAligner) (operation : Operation) : Option BarrierAligner :=
  (perform quote a operation).toOption.map Prod.fst

def Reachable (a : BarrierAligner) : Prop :=
  ∃ splits vertices channels start operations, init quote splits vertices channels = .ok start ∧
    exec (step quote) start operations = some a

def Copy.counted (copy : Copy) : Bool := ¬ copy.barrier.coordinated ∧ copy.senderVertexId = none

def cutoff (a : BarrierAligner) (copy : Copy) : Int :=
  if copy.barrier.coordinated then a.lastCoordinatedBarrierId else a.directResolvedThrough

/-- A copy of another barrier that the cut-off at `aborted` does not reach: a
later barrier, one that is resolved anyway, or a copy counted per source. -/
def Clear (aborted : Int) (a : BarrierAligner) : Operation → Prop
  | .receive copy => aborted < copy.barrier.id ∨ copy.barrier.id ≤ a.cutoff copy ∨ copy.counted
  | _ => True

instance (aborted : Int) (a : BarrierAligner) (operation : Operation) : Decidable (Clear aborted a operation) := by
  cases operation <;> unfold Clear <;> infer_instance

def Operation.concerns (barrierId : Int) : Operation → Bool
  | .receive copy => copy.barrier.id = barrierId
  | _ => false

/-- The partial counts and cut-offs that `discard` changes. -/
structure Books where
  inflight : Dict Int Nat
  coordinatedInflight : Dict Int (Multiset ExecutionVertexId)
  coordinatedChannels : Dict Int (List InputChannel)
  lastCoordinatedBarrierId : Int
  directInflight : Dict Int (Dict InputChannel (ExecutionVertexId × Bool))
  directExpected : Dict Int (Multiset ExecutionVertexId)
  directResolvedThrough : Int

@[simps] def withBooks (a : BarrierAligner) (books : Books) : BarrierAligner :=
  {a with
    inflight := books.inflight
    coordinatedInflight := books.coordinatedInflight
    coordinatedChannels := books.coordinatedChannels
    lastCoordinatedBarrierId := books.lastCoordinatedBarrierId
    directInflight := books.directInflight
    directExpected := books.directExpected
    directResolvedThrough := books.directResolvedThrough}

def books (a : BarrierAligner) : Books :=
  ⟨a.inflight,a.coordinatedInflight,a.coordinatedChannels,a.lastCoordinatedBarrierId,a.directInflight,
    a.directExpected,a.directResolvedThrough⟩

section withBooks
variable (a : BarrierAligner) (books : Books)

@[simp] theorem withBooks_expected (source : Option ExecutionVertexId) :
    (a.withBooks books).expected source = a.expected source := rfl

@[simp] theorem withBooks_directChannel (barrier : Barrier) (sender : ExecutionVertexId)
    (lane : Option DeliveryChannel) :
    (a.withBooks books).directChannel barrier sender lane = a.directChannel barrier sender lane := rfl

@[simp] theorem withBooks_checkChannel (inputs : Option (Multiset ExecutionVertexId)) (error : AlignerError)
    (channel : InputChannel) (sender : ExecutionVertexId) :
    (a.withBooks books).checkChannel quote inputs error channel sender =
      a.checkChannel quote inputs error channel sender := rfl

theorem withBooks_retireReplaced (channel : InputChannel) :
    (a.withBooks books).retireReplacedTerminalChannel channel =
      (a.retireReplacedTerminalChannel channel).withBooks books := by
  cases channel with
  | vertex sender => rfl
  | channel lane =>
    by_cases unreplaced : a.terminalInputChannels.filter (replacedBy lane) = []
    · simp only [retireReplacedTerminalChannel,withBooks_terminalInputChannels,unreplaced,if_true]
    · simp only [retireReplacedTerminalChannel,withBooks_terminalInputChannels,unreplaced,if_false]
      rfl

end withBooks

def Without {ν : Type} (aborted : Int) (kept dropped : Dict Int ν) : Prop :=
  ∀ barrierId, dropped.get? barrierId = if barrierId = aborted then none else kept.get? barrierId

namespace Without
variable {ν : Type} (aborted : Int) (kept dropped : Dict Int ν)

theorem get_other (without : Without aborted kept dropped) (barrierId : Int) (other : barrierId ≠ aborted) :
    dropped.get? barrierId = kept.get? barrierId := by
  simp [without barrierId,other]

theorem erase_self : Without aborted kept (kept.erase aborted) := by
  intro barrierId
  simp

section
variable (without : Without aborted kept dropped)
include without

theorem erase (barrierId : Int) :
    Without aborted (kept.erase barrierId) (dropped.erase barrierId) := by
  intro other
  rw [Dict.get?_erase,Dict.get?_erase,without other]
  by_cases same : other = barrierId <;> simp [same]

theorem set (barrierId : Int) (other : barrierId ≠ aborted) (value : ν) :
    Without aborted (kept.set barrierId value) (dropped.set barrierId value) := by
  intro key
  by_cases same : key = barrierId
  · simp [same,other]
  · simp [same,without key]

theorem filter (first second : Int → ν → Bool)
    (agree : ∀ barrierId ≠ aborted, ∀ value, second barrierId value = first barrierId value) :
    Without aborted (kept.filter first) (dropped.filter second) := by
  intro key
  rw [Dict.get?_filter,Dict.get?_filter,without key]
  by_cases gone : key = aborted
  · simp [gone]
  · have same : second key = first key := funext (agree key gone)
    simp [gone,same]

theorem contains (barrierId : Int) (other : barrierId ≠ aborted) :
    dropped.contains barrierId = kept.contains barrierId := by
  rw [contains_eq_isSome,contains_eq_isSome,without.get_other aborted kept dropped barrierId other]

theorem isEmpty (empty : kept.isEmpty = true) : dropped.isEmpty = true := by
  rw [Dict.isEmpty_iff] at empty ⊢
  intro key
  simp [without key,empty key]

end

end Without

/-- `dropped` is `kept` with one barrier discarded. -/
structure Apart (aborted : Int) (kept : BarrierAligner) (dropped : Books) : Prop where
  inflight : Without aborted kept.inflight dropped.inflight
  coordinatedInflight : Without aborted kept.coordinatedInflight dropped.coordinatedInflight
  coordinatedChannels : Without aborted kept.coordinatedChannels dropped.coordinatedChannels
  lastCoordinatedBarrierId : dropped.lastCoordinatedBarrierId = max kept.lastCoordinatedBarrierId aborted
  directInflight : Without aborted kept.directInflight dropped.directInflight
  directExpected : Without aborted kept.directExpected dropped.directExpected
  directResolvedThrough : dropped.directResolvedThrough = max kept.directResolvedThrough aborted

variable (aborted : Int) (kept : BarrierAligner) (dropped : Books)

def Parallel {α : Type} (first second : BarrierAligner × α) : Prop :=
  ∃ books, second = (first.1.withBooks books,first.2) ∧ Apart aborted first.1 books

def Follows {α : Type} (first second : Except AlignerError (BarrierAligner × α)) : Prop :=
  ∀ result, first = .ok result → ∃ other, second = .ok other ∧ Parallel aborted result other

theorem follows_ok {α : Type} (first second : BarrierAligner × α) (parallel : Parallel aborted first second) :
    Follows aborted (.ok first) (.ok second) := by
  rintro result returned
  cases returned
  exact ⟨second,rfl,parallel⟩

theorem follows_error {α : Type} (error : AlignerError) (second : Except AlignerError (BarrierAligner × α)) :
    Follows aborted (.error error) second := by
  rintro result returned
  contradiction

theorem follows_ite {α : Type} (condition : Prop) [Decidable condition]
    (first second : Except AlignerError (BarrierAligner × α)) (third fourth : Except AlignerError (BarrierAligner × α))
    (holds : condition → Follows aborted first third) (fails : ¬ condition → Follows aborted second fourth) :
    Follows aborted (if condition then first else second) (if condition then third else fourth) := by
  by_cases decided : condition
  · simpa only [if_pos decided] using holds decided
  · simpa only [if_neg decided] using fails decided

theorem discard_apart : ∃ books, (kept.discard aborted).1 = kept.withBooks books ∧ Apart aborted kept books :=
  ⟨(kept.discard aborted).1.books,rfl,Without.erase_self _ _,Without.erase_self _ _,Without.erase_self _ _,rfl,
    Without.erase_self _ _,Without.erase_self _ _,rfl⟩

theorem receiveCounted_apart (barrier : Barrier) (other : barrier.id ≠ aborted) (apart : Apart aborted kept dropped) :
    Parallel aborted (kept.receiveCounted barrier) ((kept.withBooks dropped).receiveCounted barrier) := by
  have same := apart.inflight.get_other _ _ _ barrier.id other
  simp only [receiveCounted,withBooks_expected,withBooks_inflight,same]
  split
  · exact ⟨{dropped with inflight := dropped.inflight.erase barrier.id},rfl,
      {apart with inflight := apart.inflight.erase _ _ _ barrier.id}⟩
  · exact ⟨{dropped with inflight := (dropped.inflight.erase barrier.id).set barrier.id _},rfl,
      {apart with inflight := (apart.inflight.erase _ _ _ barrier.id).set _ _ _ barrier.id other _}⟩

theorem countCoordinated_apart (barrierId : Int) (sender : ExecutionVertexId) (channel : InputChannel)
    (later : aborted < barrierId) (apart : Apart aborted kept dropped) :
    Parallel aborted (kept.countCoordinated barrierId sender channel)
      ((kept.withBooks dropped).countCoordinated barrierId sender channel) := by
  have other : barrierId ≠ aborted := by omega
  have channels := apart.coordinatedChannels.get_other _ _ _ barrierId other
  have counted := apart.coordinatedInflight.get_other _ _ _ barrierId other
  simp only [countCoordinated,withBooks_coordinatedChannels,withBooks_coordinatedInflight,withBooks_inputVertexIds,
    channels,counted]
  split
  · exact ⟨dropped,rfl,apart⟩
  · split
    · exact ⟨{dropped with
        coordinatedInflight := dropped.coordinatedInflight.erase barrierId
        coordinatedChannels := dropped.coordinatedChannels.erase barrierId
        lastCoordinatedBarrierId := barrierId},rfl,{apart with
          coordinatedInflight := apart.coordinatedInflight.erase _ _ _ barrierId
          coordinatedChannels := apart.coordinatedChannels.erase _ _ _ barrierId
          lastCoordinatedBarrierId := by dsimp only; omega}⟩
    · exact ⟨{dropped with
        coordinatedInflight := dropped.coordinatedInflight.set barrierId _
        coordinatedChannels := dropped.coordinatedChannels.set barrierId _},rfl,{apart with
          coordinatedInflight := apart.coordinatedInflight.set _ _ _ barrierId other _
          coordinatedChannels := apart.coordinatedChannels.set _ _ _ barrierId other _}⟩

theorem receiveCoordinated_apart (barrier : Barrier) (sender : Option ExecutionVertexId)
    (lane : Option DeliveryChannel) (clear : aborted < barrier.id ∨ barrier.id ≤ kept.lastCoordinatedBarrierId)
    (apart : Apart aborted kept dropped) :
    Follows aborted (kept.receiveCoordinated quote barrier sender lane)
      ((kept.withBooks dropped).receiveCoordinated quote barrier sender lane) := by
  have cut := apart.lastCoordinatedBarrierId
  have same : barrier.id ≤ dropped.lastCoordinatedBarrierId ↔ barrier.id ≤ kept.lastCoordinatedBarrierId := by omega
  simp only [receiveCoordinated,withBooks_lastCoordinatedBarrierId,withBooks_inputVertexIds,
    withBooks_retiredInputChannels,withBooks_checkChannel,same]
  apply follows_ite
  · intro resolved
    exact follows_ok aborted (kept,_) _ ⟨dropped,rfl,apart⟩
  · intro fresh
    apply follows_ite
    · intro unfed
      exact follows_ok aborted ({kept with lastCoordinatedBarrierId := barrier.id},_) _
        ⟨{dropped with lastCoordinatedBarrierId := barrier.id},rfl,
          {apart with lastCoordinatedBarrierId := by dsimp only; omega}⟩
    · intro fed
      cases sender with
      | none => exact follows_error aborted _ _
      | some vertex =>
        apply follows_ite
        · exact fun mismatched => follows_error aborted _ _
        · intro matched
          apply follows_ite
          · exact fun retired => follows_ok aborted (kept,_) _ ⟨dropped,rfl,apart⟩
          · intro active
            split
            · exact follows_error aborted _ _
            · exact follows_ok aborted _ _ (countCoordinated_apart aborted kept dropped barrier.id _ _ (by omega) apart)

theorem completeDirectAlignment_apart (barrierId : Int) (seen : Dict InputChannel (ExecutionVertexId × Bool))
    (later : aborted < barrierId) (apart : Apart aborted kept dropped) :
    ∃ books, (kept.withBooks dropped).completeDirectAlignment barrierId seen =
        (kept.completeDirectAlignment barrierId seen).withBooks books ∧
      Apart aborted (kept.completeDirectAlignment barrierId seen) books :=
  ⟨{dropped with
    directInflight := dropped.directInflight.erase barrierId
    directExpected := dropped.directExpected.erase barrierId
    directResolvedThrough := barrierId},rfl,{apart with
      directInflight := apart.directInflight.erase _ _ _ barrierId
      directExpected := apart.directExpected.erase _ _ _ barrierId
      directResolvedThrough := by
        change barrierId = max barrierId aborted
        omega}⟩

section
variable (barrier : Barrier) (seen : Dict InputChannel (ExecutionVertexId × Bool))
include barrier seen

theorem directAlignmentComplete_apart (other : barrier.id ≠ aborted) (apart : Apart aborted kept dropped) :
    Parallel aborted (kept.directAlignmentComplete barrier seen)
      ((kept.withBooks dropped).directAlignmentComplete barrier seen) := by
  have same := apart.directExpected.get_other _ _ _ barrier.id other
  simp only [directAlignmentComplete,withBooks_directInputVertexIds,withBooks_expected,withBooks_directExpected,
    withBooks_terminalInputs,same]
  split
  · exact ⟨dropped,rfl,apart⟩
  · exact ⟨{dropped with directExpected := dropped.directExpected.set barrier.id _},rfl,
      {apart with directExpected := apart.directExpected.set _ _ _ barrier.id other _}⟩

theorem settleDirect_apart (later : aborted < barrier.id) (apart : Apart aborted kept dropped) :
    Parallel aborted (kept.settleDirect barrier seen) ((kept.withBooks dropped).settleDirect barrier seen) := by
  obtain ⟨books,equal,after⟩ := directAlignmentComplete_apart aborted kept dropped barrier seen (by omega) apart
  unfold settleDirect
  rw [equal]
  generalize kept.directAlignmentComplete barrier seen = result at after ⊢
  obtain ⟨next,complete⟩ := result
  cases complete with
  | false => exact ⟨books,rfl,after⟩
  | true =>
    obtain ⟨final,finished,closed⟩ := completeDirectAlignment_apart aborted next books barrier.id seen later after
    exact ⟨final,congrArg (·,Outcome.aligned) finished,closed⟩

end

theorem countDirect_apart (barrier : Barrier) (sender : ExecutionVertexId) (channel : InputChannel)
    (later : aborted < barrier.id) (apart : Apart aborted kept dropped) :
    Follows aborted (kept.countDirect quote barrier sender channel)
      ((kept.withBooks dropped).countDirect quote barrier sender channel) := by
  have other : barrier.id ≠ aborted := by omega
  have same := apart.directInflight.get_other _ _ _ barrier.id other
  simp only [countDirect,withBooks_directInflight,same]
  cases ((kept.directInflight.get? barrier.id).getD ∅).get? channel with
  | some previous =>
    apply follows_ite
    · exact fun changed => follows_error aborted _ _
    · exact fun repeated => follows_ok aborted (kept,_) _ ⟨dropped,rfl,apart⟩
  | none =>
    apply follows_ok
    exact settleDirect_apart aborted
      {kept with directInflight := kept.directInflight.set barrier.id _}
      {dropped with directInflight := dropped.directInflight.set barrier.id _} barrier _ later
      {apart with directInflight := apart.directInflight.set _ _ _ barrier.id other _}

theorem retireReplaced_apart (channel : InputChannel) (apart : Apart aborted kept dropped) :
    Apart aborted (kept.retireReplacedTerminalChannel channel) dropped := by
  cases channel with
  | vertex sender => exact apart
  | channel lane =>
    unfold retireReplacedTerminalChannel
    dsimp only
    split
    · exact apart
    · exact {apart with}

theorem receiveDirect_apart (barrier : Barrier) (sender : ExecutionVertexId) (lane : Option DeliveryChannel)
    (clear : aborted < barrier.id ∨ barrier.id ≤ kept.directResolvedThrough) (apart : Apart aborted kept dropped) :
    Follows aborted (kept.receiveDirect quote barrier sender lane)
      ((kept.withBooks dropped).receiveDirect quote barrier sender lane) := by
  have cut := apart.directResolvedThrough
  have same : barrier.id ≤ dropped.directResolvedThrough ↔ barrier.id ≤ kept.directResolvedThrough := by omega
  simp only [receiveDirect,withBooks_directResolvedThrough,withBooks_directChannel,withBooks_terminalInputChannels,
    withBooks_retiredTerminalInputChannels,withBooks_retiredInputChannels,withBooks_directInputVertexIds,
    withBooks_checkChannel,withBooks_retireReplaced,withBooks_directInflight,same]
  apply follows_ite
  · exact fun resolved => follows_ok aborted (kept,_) _ ⟨dropped,rfl,apart⟩
  · intro fresh
    cases kept.directChannel barrier sender lane with
    | error problem => exact follows_error aborted _ _
    | ok channel =>
      apply follows_ite
      · exact fun closed => follows_ok aborted (kept,_) _ ⟨dropped,rfl,apart⟩
      · intro opened
        have retired := retireReplaced_apart aborted kept dropped channel apart
        split
        · exact follows_error aborted _ _
        · split
          · exact follows_error aborted _ _
          next admitted =>
            rw [if_neg ?_]
            · exact countDirect_apart quote aborted _ _ barrier sender channel (by omega) retired
            · rintro ⟨busy,missing⟩
              rw [retired.directInflight.contains _ _ _ barrier.id (by omega)] at missing
              apply admitted
              refine ⟨fun empty => busy ?_,missing⟩
              exact retired.directInflight.isEmpty _ _ _ empty

theorem receive_apart (copy : Copy) (other : copy.barrier.id ≠ aborted) (clear : Clear aborted kept (.receive copy))
    (apart : Apart aborted kept dropped) :
    Follows aborted (kept.receive quote copy) ((kept.withBooks dropped).receive quote copy) := by
  unfold receive
  by_cases coordinated : copy.barrier.coordinated
  · simp only [coordinated,if_true]
    apply receiveCoordinated_apart quote aborted kept dropped _ _ _ ?_ apart
    simpa [Clear,cutoff,coordinated,Copy.counted] using clear
  · simp only [coordinated]
    cases sent : copy.senderVertexId with
    | none => exact follows_ok aborted _ _ (receiveCounted_apart aborted kept dropped copy.barrier other apart)
    | some sender =>
      apply receiveDirect_apart quote aborted kept dropped _ _ _ ?_ apart
      simpa [Clear,cutoff,coordinated,Copy.counted,sent] using clear

theorem receiveEof_apart (barrier : Barrier) (apart : Apart aborted kept dropped) :
    Parallel aborted (kept.receiveEof barrier) ((kept.withBooks dropped).receiveEof barrier) := by
  by_cases latest : kept.directInputVertexIds.isSome ∧ kept.lastAlignedId = some barrier.id
  · have same : (kept.withBooks dropped).directInputVertexIds.isSome ∧
        (kept.withBooks dropped).lastAlignedId = some barrier.id := latest
    simp only [receiveEof,latest,same]
    exact ⟨dropped,rfl,apart⟩
  · have same : ¬ ((kept.withBooks dropped).directInputVertexIds.isSome ∧
        (kept.withBooks dropped).lastAlignedId = some barrier.id) := latest
    unfold receiveEof
    rw [if_neg latest,if_neg same]
    cases barrier.sourceId with
    | none => exact ⟨dropped,rfl,apart⟩
    | some source => exact ⟨dropped,rfl,{apart with}⟩

theorem resetInflightBefore_apart (cutoff : Int) (apart : Apart aborted kept dropped) :
    ∃ books, ((kept.withBooks dropped).resetInflightBefore cutoff).1 =
        (kept.resetInflightBefore cutoff).1.withBooks books ∧
      Apart aborted (kept.resetInflightBefore cutoff).1 books := by
  have coordinated := apart.lastCoordinatedBarrierId
  have direct := apart.directResolvedThrough
  have agree {ν : Type} (barrierId : Int) (_ : barrierId ≠ aborted) (_ : ν) :
      decide (cutoff < barrierId) = decide (cutoff < barrierId) := rfl
  refine ⟨((kept.withBooks dropped).resetInflightBefore cutoff).1.books,rfl,
    apart.inflight.filter _ _ _ (fun barrierId _ => cutoff < barrierId) _ agree,
    apart.coordinatedInflight.filter _ _ _ (fun barrierId _ => cutoff < barrierId) _ agree,
    apart.coordinatedChannels.filter _ _ _
      (fun barrierId _ => cutoff < barrierId ∨ ¬ kept.coordinatedInflight.contains barrierId)
      (fun barrierId _ => cutoff < barrierId ∨ ¬ dropped.coordinatedInflight.contains barrierId) ?_,?_,
    apart.directInflight.filter _ _ _ (fun barrierId _ => cutoff < barrierId) _ agree,
    apart.directExpected.filter _ _ _
      (fun barrierId _ => cutoff < barrierId ∨ ¬ kept.directInflight.contains barrierId)
      (fun barrierId _ => cutoff < barrierId ∨ ¬ dropped.directInflight.contains barrierId) ?_,?_⟩
  · intro barrierId other value
    rw [apart.coordinatedInflight.contains _ _ _ barrierId other]
  · dsimp only [resetInflightBefore,withBooks,books]
    omega
  · intro barrierId other value
    rw [apart.directInflight.contains _ _ _ barrierId other]
  · dsimp only [resetInflightBefore,withBooks,books]
    omega

theorem discard_later_apart (barrierId : Int) (apart : Apart aborted kept dropped) :
    ∃ books, ((kept.withBooks dropped).discard barrierId).1 = (kept.discard barrierId).1.withBooks books ∧
      Apart aborted (kept.discard barrierId).1 books := by
  have coordinated := apart.lastCoordinatedBarrierId
  have direct := apart.directResolvedThrough
  refine ⟨((kept.withBooks dropped).discard barrierId).1.books,rfl,apart.inflight.erase _ _ _ barrierId,
    apart.coordinatedInflight.erase _ _ _ barrierId,apart.coordinatedChannels.erase _ _ _ barrierId,?_,
    apart.directInflight.erase _ _ _ barrierId,
    apart.directExpected.erase _ _ _ barrierId,?_⟩
  · dsimp only [discard,withBooks,books]
    omega
  · dsimp only [discard,withBooks,books]
    omega

theorem validate_apart (apart : Apart aborted kept dropped) (quiet : kept.validateReconfiguration = .ok ()) :
    (kept.withBooks dropped).validateReconfiguration = .ok () := by
  unfold validateReconfiguration at quiet ⊢
  split at quiet
  next empty =>
    rw [if_pos]
    exact ⟨apart.inflight.isEmpty _ _ _ empty.1,apart.coordinatedInflight.isEmpty _ _ _ empty.2.1,
      apart.directInflight.isEmpty _ _ _ empty.2.2⟩
  next => contradiction

theorem reconfigureTerminalInputs_apart (inputs : Multiset ExecutionVertexId)
    (channels : Option (List DeliveryChannel)) (next : BarrierAligner) (apart : Apart aborted kept dropped)
    (installed : kept.reconfigureTerminalInputs quote inputs channels = .ok next) :
    (kept.withBooks dropped).reconfigureTerminalInputs quote inputs channels = .ok (next.withBooks dropped) ∧
      Apart aborted next dropped := by
  unfold reconfigureTerminalInputs at installed ⊢
  cases channels with
  | none =>
    cases installed
    exact ⟨rfl,{apart with}⟩
  | some lanes =>
    dsimp only at installed ⊢
    split at installed
    next => contradiction
    next distinct =>
      rw [if_neg distinct]
      split at installed
      next => contradiction
      next fitting =>
        rw [if_neg fitting]
        cases installed
        exact ⟨rfl,{apart with}⟩

theorem reconfigureInputs_apart (vertices : List ExecutionVertexId) (channels : Option (List DeliveryChannel))
    (next : BarrierAligner) (apart : Apart aborted kept dropped)
    (installed : kept.reconfigureInputs quote vertices channels = .ok next) :
    (kept.withBooks dropped).reconfigureInputs quote vertices channels = .ok (next.withBooks dropped) ∧
      Apart aborted next dropped := by
  unfold reconfigureInputs at installed ⊢
  cases quiet : kept.validateReconfiguration with
  | error problem => simp [quiet] at installed
  | ok valid =>
    rw [quiet] at installed
    rw [validate_apart aborted kept dropped apart quiet]
    exact reconfigureTerminalInputs_apart quote aborted
      {kept with inputVertexIds := ↑vertices,directInputVertexIds := some ↑vertices} dropped _ _ next {apart with}
      installed

theorem reconfigure_apart (splits : Dict ExecutionVertexId Nat) (vertices : Option (List ExecutionVertexId))
    (channels : Option (List DeliveryChannel)) (next : BarrierAligner) (apart : Apart aborted kept dropped)
    (installed : kept.reconfigure quote splits vertices channels = .ok next) :
    (kept.withBooks dropped).reconfigure quote splits vertices channels = .ok (next.withBooks dropped) ∧
      Apart aborted next dropped := by
  unfold reconfigure at installed ⊢
  cases vertices with
  | some inputs =>
    dsimp only at installed ⊢
    cases replaced : reconfigureInputs quote {kept with split := splits} inputs channels with
    | error problem => simp [replaced,Except.map] at installed
    | ok middle =>
      rw [replaced] at installed
      cases installed
      obtain ⟨same,after⟩ := reconfigureInputs_apart quote aborted {kept with split := splits} dropped inputs channels
        middle {apart with} replaced
      refine ⟨?_,{after with}⟩
      change (reconfigureInputs quote ({kept with split := splits}.withBooks dropped) inputs channels).map _ = _
      rw [same]
      rfl
  | none =>
    dsimp only at installed ⊢
    cases quiet : kept.validateReconfiguration with
    | error problem => simp [quiet] at installed
    | ok valid =>
      rw [quiet] at installed
      rw [validate_apart aborted kept dropped apart quiet]
      cases channels with
      | some lanes => contradiction
      | none =>
        cases installed
        exact ⟨rfl,{apart with}⟩

theorem perform_apart (operation : Operation) (other : operation.concerns aborted = false)
    (clear : Clear aborted kept operation) (apart : Apart aborted kept dropped) :
    Follows aborted (perform quote kept operation) (perform quote (kept.withBooks dropped) operation) := by
  intro result performed
  cases operation with
  | receive copy =>
    simp only [perform] at performed ⊢
    cases received : kept.receive quote copy with
    | error problem => simp [received,Except.map] at performed
    | ok outcome =>
      rw [received] at performed
      cases performed
      obtain ⟨_,same,books,rfl,after⟩ := receive_apart quote aborted kept dropped copy
        (by simpa [Operation.concerns] using other) clear apart outcome received
      exact ⟨_,by rw [same]; rfl,books,rfl,after⟩
  | receiveEof barrier =>
    cases performed
    obtain ⟨books,same,after⟩ := receiveEof_apart aborted kept dropped barrier apart
    exact ⟨_,by simp only [perform,same],books,rfl,after⟩
  | resetInflightBefore cutoff =>
    cases performed
    obtain ⟨books,same,after⟩ := resetInflightBefore_apart aborted kept dropped cutoff apart
    exact ⟨_,by simp only [perform,same],books,rfl,after⟩
  | discard barrierId =>
    cases performed
    obtain ⟨books,same,after⟩ := discard_later_apart aborted kept dropped barrierId apart
    exact ⟨_,by simp only [perform,same],books,rfl,after⟩
  | reconfigure splits vertices channels =>
    simp only [perform] at performed ⊢
    cases installed : kept.reconfigure quote splits vertices channels with
    | error problem => simp [installed,Except.map] at performed
    | ok next =>
      rw [installed] at performed
      cases performed
      obtain ⟨same,after⟩ := reconfigure_apart quote aborted kept dropped splits vertices channels next apart installed
      exact ⟨_,by rw [same]; rfl,dropped,rfl,after⟩
  | reconfigureInputs vertices channels =>
    simp only [perform] at performed ⊢
    cases installed : kept.reconfigureInputs quote vertices channels with
    | error problem => simp [installed,Except.map] at performed
    | ok next =>
      rw [installed] at performed
      cases performed
      obtain ⟨same,after⟩ := reconfigureInputs_apart quote aborted kept dropped vertices channels next apart installed
      exact ⟨_,by rw [same]; rfl,dropped,rfl,after⟩

theorem history_cons (a : BarrierAligner) (operation : Operation) (rest : List Operation) (final : BarrierAligner)
    (outcomes : List (Option Outcome)) :
    history quote a (operation::rest) = .ok (final,outcomes) ↔
      ∃ next outcome later, perform quote a operation = .ok (next,outcome) ∧
        history quote next rest = .ok (final,later) ∧ outcomes = outcome::later := by
  simp only [history]
  cases performed : perform quote a operation with
  | error problem => simp [bind,Except.bind]
  | ok result =>
    obtain ⟨next,outcome⟩ := result
    constructor
    · intro followed
      cases remaining : history quote next rest with
      | error problem => simp [bind,Except.bind,remaining] at followed
      | ok last =>
        obtain ⟨reached,later⟩ := last
        simp only [bind,Except.bind,remaining,pure,Except.pure,Except.ok.injEq,Prod.mk.injEq] at followed
        obtain ⟨rfl,rfl⟩ := followed
        exact ⟨next,outcome,later,rfl,remaining,rfl⟩
    · rintro ⟨_,_,later,same,followed,rfl⟩
      cases same
      simp [bind,Except.bind,pure,Except.pure,followed]

theorem history_apart (operations : List Operation) (others : ∀ operation ∈ operations, operation.concerns aborted = false)
    (clear : Along (step quote) (Clear aborted) kept operations) (apart : Apart aborted kept dropped)
    (final : BarrierAligner) (outcomes : List (Option Outcome))
    (run : history quote kept operations = .ok (final,outcomes)) :
    ∃ after, history quote (kept.withBooks dropped) operations = .ok (after,outcomes) := by
  induction operations generalizing kept dropped outcomes with
  | nil =>
    cases run
    exact ⟨_,rfl⟩
  | cons operation rest ih =>
    obtain ⟨next,outcome,later,performed,followed,rfl⟩ := (history_cons quote kept operation rest final outcomes).mp run
    obtain ⟨_,same,books,rfl,onwards⟩ := perform_apart quote aborted kept dropped operation
      (others operation (by simp)) clear.1 apart _ performed
    have taken : step quote kept operation = some next := by simp [step,performed,Except.toOption]
    obtain ⟨after,resumed⟩ := ih next books (fun other member => others other (by simp [member]))
      (clear.2 next taken) onwards later followed
    exact ⟨after,(history_cons quote _ operation rest after _).mpr ⟨_,outcome,later,same,resumed,rfl⟩⟩

/-- Discarding a barrier changes no outcome of any later history of other
barriers whose copies the raised cut-off does not reach. -/
theorem discard_undisturbed (operations : List Operation)
    (others : ∀ operation ∈ operations, operation.concerns aborted = false)
    (clear : Along (step quote) (Clear aborted) kept operations) (final : BarrierAligner)
    (outcomes : List (Option Outcome)) (run : history quote kept operations = .ok (final,outcomes)) :
    ∃ after, history quote (kept.discard aborted).1 operations = .ok (after,outcomes) := by
  obtain ⟨books,same,apart⟩ := discard_apart aborted kept
  rw [same]
  exact history_apart quote aborted kept books operations others clear apart final outcomes run

def directCopy (barrierId : Int) (sender : ExecutionVertexId) : Operation :=
  .receive ⟨⟨barrierId,none,false,false,0⟩,some sender,none⟩

def partlyAligned : BarrierAligner :=
  ((init id ∅ (some [⟨1,0⟩,⟨1,1⟩]) none).toOption.bind (fun a => step id a (directCopy 1 ⟨1,0⟩))).get (by decide)

theorem partlyAligned_reachable : Reachable id partlyAligned := by
  refine ⟨∅,some [⟨1,0⟩,⟨1,1⟩],none,_,[directCopy 1 ⟨1,0⟩],rfl,?_⟩
  rfl

theorem history_of_outcomes (a : BarrierAligner) (operations : List Operation) (outcomes : List (Option Outcome))
    (reported : (history quote a operations).toOption.map Prod.snd = some outcomes) :
    ∃ final, history quote a operations = .ok (final,outcomes) := by
  cases run : history quote a operations with
  | error problem => simp [run,Except.toOption] at reported
  | ok result =>
    simp only [run,Except.toOption,Option.map_some,Option.some.injEq] at reported
    exact ⟨result.1,by rw [← reported]⟩

theorem discard_undisturbed_later :
    ∃ after, history id (partlyAligned.discard 0).1 [directCopy 1 ⟨1,1⟩,directCopy 2 ⟨1,0⟩] =
      .ok (after,[some .aligned,some .waiting]) := by
  obtain ⟨final,run⟩ := history_of_outcomes id partlyAligned [directCopy 1 ⟨1,1⟩,directCopy 2 ⟨1,0⟩]
    [some .aligned,some .waiting] (by decide)
  exact discard_undisturbed id 0 partlyAligned _ (by decide) (by decide) final _ run

theorem discard_strands_earlier : ¬ ∀ a : BarrierAligner, Reachable id a →
    ∀ (aborted : Int) (operations : List Operation) (final : BarrierAligner) (outcomes : List (Option Outcome)),
      (∀ operation ∈ operations, operation.concerns aborted = false) →
        history id a operations = .ok (final,outcomes) →
          ∃ after, history id (a.discard aborted).1 operations = .ok (after,outcomes) := by
  intro claim
  obtain ⟨final,run⟩ := history_of_outcomes id partlyAligned [directCopy 1 ⟨1,1⟩] [some .aligned] (by decide)
  obtain ⟨after,same⟩ := claim partlyAligned partlyAligned_reachable 2 _ final _ (by decide) run
  have reported : (history id (partlyAligned.discard 2).1 [directCopy 1 ⟨1,1⟩]).toOption.map Prod.snd =
      some [some .ignored] := by decide
  simp [same,Except.toOption] at reported

end Klein.BarrierAligner
