import Mathlib
import Klein.BarrierAlignerDirect

/-! What a task forwards downstream at the epochs its aligner reports
(`InboxPump.handle_barrier`): plain barriers, and one end of data when every lane
has ended. -/
namespace Klein
open List Option
namespace BarrierAligner

/-- A forwarded barrier and the answer of `receive_eof` to it. -/
structure Forward where
  barrier : Barrier
  finished : Bool
deriving DecidableEq

structure Event where
  delivery : Delivery
  outcome : Outcome
  forward : Option Forward

/-- What is forwarded after `receive` returned, with the aligner that `receive_eof`
leaves; it is asked only about an end of data. -/
def forward (a : BarrierAligner) (delivery : Delivery) : Outcome → BarrierAligner × Option Forward
  | .aligned =>
    let forwarded := a.barrierToForward delivery.barrier
    let answer := a.receiveEof forwarded
    (if forwarded.endOfData then answer.1 else a,some ⟨forwarded,answer.2⟩)
  | _ => (a,none)

variable (quote : String → String) (lanes : List InputChannel)

inductive Ran (start : BarrierAligner) : List Event → BarrierAligner → Prop where
  | nil : Ran start [] start
  | snoc (log : List Event) (a next : BarrierAligner) (delivery : Delivery) (outcome : Outcome)
      (before : Ran start log a) (inside : delivery.lane ∈ lanes) (direct : delivery.barrier.coordinated = false)
      (received : receive quote a delivery.copy = .ok (next,outcome)) :
      Ran start (log ++ [⟨delivery,outcome,(forward next delivery outcome).2⟩]) (forward next delivery outcome).1

def Event.counts (event : Event) (lane : InputChannel) (epoch : Int) (endOfData : Bool) : Prop :=
  event.outcome ≠ .ignored ∧ event.delivery.lane = lane ∧ event.delivery.barrier.id = epoch ∧
    event.delivery.barrier.endOfData = endOfData

def Aligned (log : List Event) (epoch : Int) : Prop :=
  ∃ event ∈ log, event.outcome = .aligned ∧ event.delivery.barrier.id = epoch

def Terminal (log : List Event) (lane : InputChannel) : Prop :=
  ∃ event ∈ log, ∃ epoch, event.counts lane epoch true ∧ Aligned log epoch

structure Remembers (log : List Event) (a : BarrierAligner) : Prop extends Wired lanes a where
  heardBy : ∀ epoch lane value, (a.heard epoch).get? lane = some value → lane ∈ lanes ∧ value.1 = lane.sender ∧
    ∃ event ∈ log, event.counts lane epoch value.2
  kept : ∀ event ∈ log, ∀ lane epoch endOfData, event.counts lane epoch endOfData →
    Aligned log epoch ∨ (a.heard epoch).get? lane = some (lane.sender,endOfData)
  ended : ∀ lane, lane ∈ a.terminalInputChannels ↔ Terminal log lane
  done : ∀ epoch, Aligned log epoch → epoch ≤ a.directResolvedThrough

section steps
variable (log : List Event) (a : BarrierAligner) (delivery : Delivery)

theorem Aligned.snoc (event : Event) (epoch : Int) : Aligned (log ++ [event]) epoch ↔
    Aligned log epoch ∨ event.outcome = .aligned ∧ event.delivery.barrier.id = epoch := by
  constructor
  · rintro ⟨other,inside,rest⟩
    rcases mem_append.mp inside with old | new
    · exact .inl ⟨other,old,rest⟩
    · obtain rfl := mem_singleton.mp new
      exact .inr rest
  · rintro (⟨other,inside,rest⟩ | rest)
    · exact ⟨other,mem_append_left _ inside,rest⟩
    · exact ⟨event,by simp,rest⟩

theorem Terminal.grows (event : Event) (lane : InputChannel) (terminal : Terminal log lane) :
    Terminal (log ++ [event]) lane := by
  obtain ⟨other,inside,epoch,counts,aligned⟩ := terminal
  exact ⟨other,mem_append_left _ inside,epoch,counts,(Aligned.snoc log event epoch).mpr (.inl aligned)⟩

theorem Terminal.of_snoc (remembers : Remembers lanes log a) (event : Event) (lane : InputChannel)
    (waits : event.outcome ≠ .aligned)
    (later : event.outcome ≠ .ignored → a.directResolvedThrough < event.delivery.barrier.id)
    (terminal : Terminal (log ++ [event]) lane) : Terminal log lane := by
  obtain ⟨other,inside,epoch,counts,aligned⟩ := terminal
  have old := ((Aligned.snoc log event epoch).mp aligned).resolve_right (fun new => waits new.1)
  rcases mem_append.mp inside with before | new
  · exact ⟨other,before,epoch,counts,old⟩
  · obtain rfl := mem_singleton.mp new
    have past := remembers.done epoch old
    have after := later counts.1
    have same := counts.2.2.1
    omega

theorem Remembers.ignored (remembers : Remembers lanes log a) (kind : Option Forward) :
    Remembers lanes (log ++ [⟨delivery,.ignored,kind⟩]) a where
  toWired := remembers.toWired
  heardBy epoch lane value found := by
    obtain ⟨inside,sender,event,member,counts⟩ := remembers.heardBy epoch lane value found
    exact ⟨inside,sender,event,mem_append_left _ member,counts⟩
  kept event member lane epoch endOfData counts := by
    rcases mem_append.mp member with old | new
    · exact (remembers.kept event old lane epoch endOfData counts).imp_left
        (fun aligned => (Aligned.snoc log _ epoch).mpr (.inl aligned))
    · obtain rfl := mem_singleton.mp new
      exact absurd rfl counts.1
  ended lane := by
    refine (remembers.ended lane).trans ⟨Terminal.grows log _ lane,?_⟩
    exact Terminal.of_snoc lanes log a remembers _ lane (by simp) (fun impossible => absurd rfl impossible)
  done epoch aligned := by
    rcases (Aligned.snoc log _ epoch).mp aligned with old | new
    · exact remembers.done epoch old
    · exact absurd new.1 (by simp)

section counted
variable (remembers : Remembers lanes log a) (inside : delivery.lane ∈ lanes)
variable (later : a.directResolvedThrough < delivery.barrier.id)
variable (unheard : (a.heard delivery.barrier.id).get? delivery.lane = none)

include remembers inside in
theorem Remembers.hearing (outcome : Outcome) (kind : Option Forward) (counted : outcome ≠ .ignored) (lane : InputChannel)
    (value : ExecutionVertexId × Bool) (found : (a.hearing delivery).get? lane = some value) :
    lane ∈ lanes ∧ value.1 = lane.sender ∧
      ∃ event ∈ log ++ [⟨delivery,outcome,kind⟩], event.counts lane delivery.barrier.id value.2 := by
  rw [BarrierAligner.hearing,Dict.get?_set] at found
  split at found
  next same =>
    cases found
    subst same
    exact ⟨inside,rfl,⟨delivery,outcome,kind⟩,by simp,counted,rfl,rfl,rfl⟩
  next =>
    obtain ⟨listed,sender,event,member,counts⟩ := remembers.heardBy delivery.barrier.id lane value found
    exact ⟨listed,sender,event,mem_append_left _ member,counts⟩

include remembers later unheard in
theorem Remembers.heard_counted (event : Event) (outcome : Outcome) (kind : Option Forward)
    (member : event ∈ log ++ [⟨delivery,outcome,kind⟩]) (lane : InputChannel) (endOfData : Bool)
    (counts : event.counts lane delivery.barrier.id endOfData) :
    (a.hearing delivery).get? lane = some (lane.sender,endOfData) := by
  rw [BarrierAligner.hearing,Dict.get?_set]
  rcases mem_append.mp member with old | new
  · rcases remembers.kept event old lane delivery.barrier.id endOfData counts with aligned | heard
    · have past := remembers.done _ aligned
      omega
    · have different : lane ≠ delivery.lane := by
        rintro rfl
        rw [unheard] at heard
        contradiction
      rw [if_neg different]
      exact heard
  · obtain rfl := mem_singleton.mp new
    obtain ⟨-,rfl,-,rfl⟩ := counts
    rw [if_pos rfl]

include remembers inside later unheard in
theorem Remembers.waits (kind : Option Forward) :
    Remembers lanes (log ++ [⟨delivery,.waiting,kind⟩]) (a.counting delivery) where
  toWired := remembers.toWired.counting lanes delivery a
  heardBy epoch lane value found := by
    by_cases same : epoch = delivery.barrier.id
    · subst same
      have stored : (a.counting delivery).heard delivery.barrier.id = a.hearing delivery := by
        simp [BarrierAligner.heard,counting]
      rw [stored] at found
      exact remembers.hearing lanes log a delivery inside .waiting kind (by simp) lane value found
    · have stored : (a.counting delivery).heard epoch = a.heard epoch := by
        simp [BarrierAligner.heard,counting,same]
      rw [stored] at found
      obtain ⟨listed,sender,event,member,counts⟩ := remembers.heardBy epoch lane value found
      exact ⟨listed,sender,event,mem_append_left _ member,counts⟩
  kept event member lane epoch endOfData counts := by
    by_cases same : epoch = delivery.barrier.id
    · subst same
      refine .inr ?_
      have stored : (a.counting delivery).heard delivery.barrier.id = a.hearing delivery := by
        simp [BarrierAligner.heard,counting]
      rw [stored]
      exact remembers.heard_counted lanes log a delivery later unheard event .waiting kind member lane endOfData counts
    · have stored : (a.counting delivery).heard epoch = a.heard epoch := by
        simp [BarrierAligner.heard,counting,same]
      rw [stored]
      rcases mem_append.mp member with old | new
      · exact (remembers.kept event old lane epoch endOfData counts).imp_left
          (fun aligned => (Aligned.snoc log _ epoch).mpr (.inl aligned))
      · obtain rfl := mem_singleton.mp new
        exact absurd counts.2.2.1.symm same
  ended lane := by
    refine (remembers.ended lane).trans ⟨Terminal.grows log _ lane,?_⟩
    exact Terminal.of_snoc lanes log a remembers _ lane (by simp) (fun _ => later)
  done epoch aligned := by
    rcases (Aligned.snoc log _ epoch).mp aligned with old | new
    · exact remembers.done epoch old
    · exact absurd new.1 (by simp)

include remembers inside later unheard in
theorem Remembers.aligns (kind : Option Forward) : Remembers lanes (log ++ [⟨delivery,.aligned,kind⟩])
    ((a.counting delivery).completeDirectAlignment delivery.barrier.id (a.hearing delivery)) where
  toWired := (remembers.toWired.counting lanes delivery a).completed lanes _ _ _ (fun lane value found =>
    (remembers.hearing lanes log a delivery inside .aligned kind (by simp) lane value found).1)
  heardBy epoch lane value found := by
    by_cases same : epoch = delivery.barrier.id
    · simp [BarrierAligner.heard,completeDirectAlignment,rebuildTerminalInputs,same] at found
    · have stored : ((a.counting delivery).completeDirectAlignment delivery.barrier.id (a.hearing delivery)).heard epoch =
          a.heard epoch := by simp [BarrierAligner.heard,completeDirectAlignment,rebuildTerminalInputs,counting,same]
      rw [stored] at found
      obtain ⟨listed,sender,event,member,counts⟩ := remembers.heardBy epoch lane value found
      exact ⟨listed,sender,event,mem_append_left _ member,counts⟩
  kept event member lane epoch endOfData counts := by
    by_cases same : epoch = delivery.barrier.id
    · exact .inl ((Aligned.snoc log _ epoch).mpr (.inr ⟨rfl,same.symm⟩))
    · have stored : ((a.counting delivery).completeDirectAlignment delivery.barrier.id (a.hearing delivery)).heard epoch =
          a.heard epoch := by simp [BarrierAligner.heard,completeDirectAlignment,rebuildTerminalInputs,counting,same]
      rw [stored]
      rcases mem_append.mp member with old | new
      · exact (remembers.kept event old lane epoch endOfData counts).imp_left
          (fun aligned => (Aligned.snoc log _ epoch).mpr (.inl aligned))
      · obtain rfl := mem_singleton.mp new
        exact absurd counts.2.2.1.symm same
  ended lane := by
    rw [mem_terminal_completed]
    change lane ∈ a.terminalInputChannels ∨ _ ↔ _
    constructor
    · rintro (old | ⟨sender,found⟩)
      · exact Terminal.grows log _ lane ((remembers.ended lane).mp old)
      · obtain ⟨-,-,event,member,counts⟩ :=
          remembers.hearing lanes log a delivery inside .aligned kind (by simp) lane _ found
        exact ⟨event,member,_,counts,(Aligned.snoc log _ _).mpr (.inr ⟨rfl,rfl⟩)⟩
    · rintro ⟨event,member,epoch,counts,aligned⟩
      by_cases same : epoch = delivery.barrier.id
      · subst same
        exact .inr ⟨_,remembers.heard_counted lanes log a delivery later unheard event .aligned kind member lane true
          counts⟩
      · refine .inl ((remembers.ended lane).mpr ?_)
        have old := ((Aligned.snoc log _ epoch).mp aligned).resolve_right (fun new => same new.2.symm)
        rcases mem_append.mp member with before | new
        · exact ⟨event,before,epoch,counts,old⟩
        · obtain rfl := mem_singleton.mp new
          exact absurd counts.2.2.1.symm same
  done epoch aligned := by
    change epoch ≤ delivery.barrier.id
    rcases (Aligned.snoc log _ epoch).mp aligned with old | new
    · have past := remembers.done epoch old
      omega
    · exact Int.le_of_eq new.2.symm

theorem forward_completed (wired : Wired lanes a) (seen : Dict InputChannel (ExecutionVertexId × Bool))
    (known : ∀ lane value, seen.get? lane = some value → lane ∈ lanes) :
    ∃ barrier, barrier.id = delivery.barrier.id ∧
      (barrier.endOfData = true ↔ ∀ lane ∈ lanes,
        lane ∈ (a.completeDirectAlignment delivery.barrier.id seen).terminalInputChannels) ∧
      forward (a.completeDirectAlignment delivery.barrier.id seen) delivery .aligned =
        (a.completeDirectAlignment delivery.barrier.id seen,some ⟨barrier,barrier.endOfData⟩) := by
  have completed := wired.completed lanes a delivery.barrier.id seen known
  generalize same : a.completeDirectAlignment delivery.barrier.id seen = next at completed
  have last : next.lastAlignedId = some delivery.barrier.id := by
    rw [← same]
    rfl
  have flag : next.lastAlignmentIsTerminal = true ↔ ∀ lane ∈ lanes, lane ∈ next.terminalInputChannels := by
    have stored : next.lastAlignmentIsTerminal =
        decide (∃ inputs ∈ next.directInputVertexIds, inputs ≤ next.terminalInputs) := by
      rw [← same]
      rfl
    rw [stored,completed.inputs,completed.counted,decide_eq_true_iff]
    refine Iff.trans ?_ (inputs_le lanes next.terminalInputChannels completed.distinct completed.terminalDistinct
      completed.terminal)
    simp
  have direct : next.directInputVertexIds.isSome = true := by rw [completed.inputs]; rfl
  have kind : (next.barrierToForward delivery.barrier).endOfData = next.lastAlignmentIsTerminal := by
    unfold barrierToForward
    split
    next impossible =>
      rcases impossible with missing | other
      · rw [completed.inputs] at missing
        contradiction
      · exact absurd last other
    next =>
      split
      next equal => exact equal.symm
      next => rfl
  have id : (next.barrierToForward delivery.barrier).id = delivery.barrier.id := by
    unfold barrierToForward
    split
    next => rfl
    next => split <;> rfl
  have answer : next.receiveEof (next.barrierToForward delivery.barrier) =
      (next,(next.barrierToForward delivery.barrier).endOfData) := by
    unfold receiveEof
    rw [if_pos ⟨direct,by rw [last,id]⟩,kind]
  refine ⟨next.barrierToForward delivery.barrier,id,kind ▸ flag,?_⟩
  simp only [forward,answer,ite_self]

end counted

structure Event.Exact (event : Event) : Prop where
  aligned : event.forward.isSome ↔ event.outcome = .aligned
  id : ∀ forwarded ∈ event.forward, forwarded.barrier.id = event.delivery.barrier.id
  finished : ∀ forwarded ∈ event.forward, forwarded.finished = forwarded.barrier.endOfData
  last : ∀ forwarded ∈ event.forward,
    (forwarded.barrier.endOfData = true ↔ ∀ lane ∈ lanes, Terminal (log ++ [event]) lane)

theorem Event.Exact.silent (outcome : Outcome) (unaligned : outcome ≠ .aligned) :
    Event.Exact lanes log ⟨delivery,outcome,none⟩ :=
  ⟨by simp [unaligned],by simp,by simp,by simp⟩

theorem Remembers.receive (remembers : Remembers lanes log a) (inside : delivery.lane ∈ lanes)
    (direct : delivery.barrier.coordinated = false) (next : BarrierAligner) (outcome : Outcome)
    (received : receive quote a delivery.copy = .ok (next,outcome)) :
    Remembers lanes (log ++ [⟨delivery,outcome,(forward next delivery outcome).2⟩]) (forward next delivery outcome).1 ∧
      Event.Exact lanes log ⟨delivery,outcome,(forward next delivery outcome).2⟩ := by
  by_cases skipped : delivery.barrier.id ≤ a.directResolvedThrough ∨ delivery.lane ∈ a.terminalInputChannels
  · rw [receive_ignored quote lanes a delivery remembers.toWired direct inside skipped] at received
    cases received
    exact ⟨remembers.ignored lanes log a delivery none,Event.Exact.silent lanes log delivery .ignored (by simp)⟩
  · have later : a.directResolvedThrough < delivery.barrier.id := by omega
    rw [receive_live quote lanes a delivery remembers.toWired direct inside later (fun ended => skipped (.inr ended))]
      at received
    split at received
    next => contradiction
    next =>
      cases found : (a.heard delivery.barrier.id).get? delivery.lane with
      | some value =>
        rw [countDirect_again quote a delivery value found] at received
        split at received
        next => contradiction
        next =>
          cases received
          exact ⟨remembers.ignored lanes log a delivery none,Event.Exact.silent lanes log delivery .ignored (by simp)⟩
      | none =>
        rw [countDirect_new quote lanes a delivery remembers.toWired found] at received
        split at received
        next =>
          cases received
          have wired := remembers.toWired.counting lanes delivery a
          obtain ⟨barrier,id,kind,forwarded⟩ := forward_completed lanes (a.counting delivery) delivery wired
            (a.hearing delivery) (fun lane value listed =>
              (remembers.hearing lanes log a delivery inside .aligned none (by simp) lane value listed).1)
          rw [forwarded]
          have grown := remembers.aligns lanes log a delivery inside later found (some ⟨barrier,barrier.endOfData⟩)
          refine ⟨grown,by simp,?_,?_,?_⟩
          · rintro _ ⟨⟩
            exact id
          · rintro _ ⟨⟩
            rfl
          · rintro _ ⟨⟩
            exact kind.trans (forall₂_congr (fun lane _ => grown.ended lane))
        next =>
          cases received
          exact ⟨remembers.waits lanes log a delivery inside later found none,
            Event.Exact.silent lanes log delivery .waiting (by simp)⟩

end steps

def forwarded (log : List Event) : List Forward := log.filterMap Event.forward

theorem init_remembers (splits : Dict ExecutionVertexId Nat) (inputs : List ExecutionVertexId)
    (channels : List DeliveryChannel) (start : BarrierAligner)
    (opened : init quote splits (some inputs) (some channels) = .ok start)
    (routes : DistinctRoutes (channels.map .channel)) : Remembers (channels.map .channel) [] start := by
  have tracks := init_tracks quote splits inputs channels start opened routes
  refine ⟨tracks.toWired,?_,?_,?_,?_⟩
  · intro epoch lane value found
    obtain ⟨-,_,_,⟨_,inside,-⟩,-⟩ := tracks.underway epoch (contains_of_heard start epoch lane value found)
    contradiction
  · exact fun event member => by contradiction
  · intro lane
    rw [tracks.ended]
    simp [Ended,Heard,Terminal]
  · intro epoch released
    obtain ⟨event,member,-⟩ := released
    contradiction

section runs
variable (start : BarrierAligner) (opened : Remembers lanes [] start)

include opened in
theorem Ran.remembers (log : List Event) (a : BarrierAligner) (ran : Ran quote lanes start log a) : Remembers lanes log a := by
  induction ran with
  | nil => exact opened
  | snoc log a next delivery outcome before inside direct received ih =>
    exact (ih.receive quote lanes log a delivery inside direct next outcome received).1

include opened in
theorem Ran.exact (log : List Event) (a : BarrierAligner) (ran : Ran quote lanes start log a) (before after : List Event)
    (event : Event) (split : log = before ++ event::after) : Event.Exact lanes before event := by
  induction ran generalizing after with
  | nil => simp at split
  | snoc log a next delivery outcome earlier inside direct received ih =>
    rcases eq_nil_or_concat after with rfl | ⟨rest,final,rfl⟩
    · obtain ⟨rfl,same⟩ := append_inj' split rfl
      obtain rfl := singleton_inj.mp same
      have remembers := earlier.remembers quote lanes start opened
      exact (remembers.receive quote lanes log a delivery inside direct next outcome received).2
    · refine ih rest ?_
      have same : log ++ [⟨delivery,outcome,(forward next delivery outcome).2⟩] = (before ++ event::rest) ++ [final] := by
        simpa using split
      exact (append_inj' same rfl).1

include opened in
theorem Ran.ends_once (log : List Event) (a : BarrierAligner) (ran : Ran quote lanes start log a) :
    ∃ plain last, forwarded log = plain ++ last ∧ (∀ sent ∈ plain, sent.barrier.endOfData = false) ∧
      last.length ≤ 1 ∧ ∀ sent ∈ last, sent.barrier.endOfData = true ∧ ∀ lane ∈ lanes, Terminal log lane := by
  induction ran with
  | nil => exact ⟨[],[],rfl,by simp,by simp,by simp⟩
  | snoc log a next delivery outcome earlier inside direct received ih =>
    obtain ⟨plain,last,sequence,plainOnly,single,ended⟩ := ih
    have remembers := earlier.remembers quote lanes start opened
    have exactly := (remembers.receive quote lanes log a delivery inside direct next outcome received).2
    have grown : forwarded (log ++ [⟨delivery,outcome,(forward next delivery outcome).2⟩]) =
        forwarded log ++ (forward next delivery outcome).2.toList := by
      simp only [forwarded,filterMap_append]
      cases (forward next delivery outcome).2 <;> rfl
    rw [grown,sequence]
    cases sent : (forward next delivery outcome).2 with
    | none =>
      refine ⟨plain,last,by simp,plainOnly,single,fun other member => ?_⟩
      exact ⟨(ended other member).1,fun lane own => Terminal.grows log _ lane ((ended other member).2 lane own)⟩
    | some new =>
      have aligned : outcome = .aligned := exactly.aligned.mp (by simp [sent])
      -- an end of data before this one left every lane terminal, so nothing was counted now
      have none_last : last = [] := by
        rcases last with _ | ⟨other,rest⟩
        · rfl
        · have heard := (ended other (by simp)).2 delivery.lane inside
          have skipped := receive_ignored quote lanes a delivery remembers.toWired direct inside
            (.inr ((remembers.ended delivery.lane).mpr heard))
          rw [skipped] at received
          cases received
          contradiction
      subst none_last
      have kind := exactly.last new sent
      cases data : new.barrier.endOfData with
      | false =>
        refine ⟨plain ++ [new],[],by simp,?_,by simp,by simp⟩
        intro other member
        rcases mem_append.mp member with old | last
        · exact plainOnly other old
        · rw [mem_singleton.mp last]
          exact data
      | true =>
        refine ⟨plain,[new],by simp,plainOnly,by simp,?_⟩
        intro other member
        rw [mem_singleton.mp member]
        refine ⟨data,fun lane own => ?_⟩
        have all := kind.mp data lane own
        rw [← sent]
        exact all

end runs

/-- End of data is forwarded once, when every lane has ended, and is the last barrier
that is forwarded. -/
theorem end_of_stream_forwarded_once (splits : Dict ExecutionVertexId Nat) (inputs : List ExecutionVertexId)
    (channels : List DeliveryChannel) (start : BarrierAligner)
    (opened : init quote splits (some inputs) (some channels) = .ok start)
    (routes : DistinctRoutes (channels.map .channel)) (log : List Event) (a : BarrierAligner)
    (ran : Ran quote (channels.map .channel) start log a) :
    (∃ plain last, forwarded log = plain ++ last ∧ (∀ sent ∈ plain, sent.barrier.endOfData = false) ∧
      last.length ≤ 1 ∧ ∀ sent ∈ last, sent.barrier.endOfData = true) ∧
    ∀ before event after, log = before ++ event::after →
      (event.forward.isSome ↔ event.outcome = .aligned) ∧ ∀ sent ∈ event.forward,
        sent.barrier.id = event.delivery.barrier.id ∧ sent.finished = sent.barrier.endOfData ∧
          (sent.barrier.endOfData = true ↔ ∀ lane ∈ channels.map .channel, Terminal (before ++ [event]) lane) := by
  have remembers := init_remembers quote splits inputs channels start opened routes
  refine ⟨?_,fun before event after split => ?_⟩
  · obtain ⟨plain,last,sequence,plainOnly,single,ended⟩ := ran.ends_once quote _ start remembers
    exact ⟨plain,last,sequence,plainOnly,single,fun sent member => (ended sent member).1⟩
  · have exactly := ran.exact quote _ start remembers log a before after event split
    exact ⟨exactly.aligned,fun sent member => ⟨exactly.id sent member,exactly.finished sent member,exactly.last sent member⟩⟩

def events (a : BarrierAligner) : List Delivery → Option (List Event × BarrierAligner)
  | [] => some ([],a)
  | delivery::rest =>
    match receive quote a delivery.copy with
    | .error _ => none
    | .ok (next,outcome) =>
      (events (forward next delivery outcome).1 rest).map
        (fun log => (⟨delivery,outcome,(forward next delivery outcome).2⟩::log.1,log.2))

theorem events_ran (start a last : BarrierAligner) (before log : List Event) (deliveries : List Delivery)
    (ran : Ran quote lanes start before a) (inside : ∀ delivery ∈ deliveries, delivery.lane ∈ lanes)
    (direct : ∀ delivery ∈ deliveries, delivery.barrier.coordinated = false)
    (run : events quote a deliveries = some (log,last)) : Ran quote lanes start (before ++ log) last := by
  induction deliveries generalizing a before log with
  | nil =>
    cases run
    simpa using ran
  | cons delivery rest ih =>
    rw [events] at run
    split at run
    next => contradiction
    next next outcome received =>
      obtain ⟨⟨later,final⟩,remaining,same⟩ := map_eq_some_iff.mp run
      cases same
      have step := Ran.snoc before a next delivery outcome ran (inside _ mem_cons_self) (direct _ mem_cons_self)
        received
      have rest' := ih _ _ later step (fun other member => inside other (mem_cons_of_mem _ member))
        (fun other member => direct other (mem_cons_of_mem _ member)) remaining
      simpa using rest'

section decidable
variable (log : List Event) (event : Event) (lane : InputChannel) (epoch : Int)

instance (endOfData : Bool) : Decidable (event.counts lane epoch endOfData) :=
  inferInstanceAs (Decidable (_ ∧ _ ∧ _ ∧ _))

instance : Decidable (Aligned log epoch) := inferInstanceAs (Decidable (∃ event ∈ log, _))

instance : Decidable (Terminal log lane) :=
  decidable_of_iff (∃ event ∈ log, event.counts lane event.delivery.barrier.id true ∧
      Aligned log event.delivery.barrier.id)
    ⟨fun ⟨event,member,counts,aligned⟩ => ⟨event,member,_,counts,aligned⟩,
      fun ⟨event,member,_,counts,aligned⟩ => ⟨event,member,counts.2.2.1 ▸ counts,counts.2.2.1 ▸ aligned⟩⟩

end decidable

def journey (inputs : List ExecutionVertexId) (channels : List DeliveryChannel) (trace : List Delivery) :
    Option (List Event × BarrierAligner) :=
  (init quote ∅ (some inputs) (some channels)).toOption.bind (fun start => events quote start trace)

theorem journey_check (inputs : List ExecutionVertexId) (channels : List DeliveryChannel) (trace : List Delivery)
    (check : List Event → Prop) [DecidablePred check]
    (passes : (journey quote inputs channels trace).any (fun result => decide (check result.1)) = true) :
    ∃ start log a, init quote ∅ (some inputs) (some channels) = .ok start ∧
      events quote start trace = some (log,a) ∧ check log := by
  obtain ⟨⟨log,a⟩,run,checked⟩ := (Option.any_eq_true _ _).mp passes
  obtain ⟨start,opened,run⟩ := bind_eq_some_iff.mp run
  refine ⟨start,log,a,?_,run,of_decide_eq_true checked⟩
  cases opening : init quote ∅ (some inputs) (some channels) with
  | error error => simp [opening,Except.toOption] at opened
  | ok other => simpa [opening,Except.toOption] using opened

/-- The left lane ends in epoch 1 and the right one in epoch 2. -/
theorem end_of_stream_forwarded_once_twoLanes : ∃ start log a,
    init (fun text => text) ∅ (some [⟨1,0⟩,⟨2,0⟩]) (some [leftLane,rightLane]) = .ok start ∧
      events (fun text => text) start [direct 1 true leftLane,direct 1 false rightLane,direct 2 true rightLane] =
        some (log,a) ∧
      (forwarded log).map (fun sent => (sent.barrier.id,sent.barrier.endOfData,sent.finished)) =
        [(1,false,false),(2,true,true)] ∧
      ∃ plain last, forwarded log = plain ++ last ∧ (∀ sent ∈ plain, sent.barrier.endOfData = false) ∧
        last.length ≤ 1 ∧ ∀ sent ∈ last, sent.barrier.endOfData = true := by
  obtain ⟨start,log,a,opened,run,sent⟩ := journey_check (fun text => text) [⟨1,0⟩,⟨2,0⟩] [leftLane,rightLane]
    [direct 1 true leftLane,direct 1 false rightLane,direct 2 true rightLane]
    (fun log => (forwarded log).map (fun sent => (sent.barrier.id,sent.barrier.endOfData,sent.finished)) =
      [(1,false,false),(2,true,true)]) (by decide +kernel)
  refine ⟨start,log,a,opened,run,sent,?_⟩
  have ran := events_ran (fun text => text) ([leftLane,rightLane].map .channel) start start a [] log
    [direct 1 true leftLane,direct 1 false rightLane,direct 2 true rightLane] .nil (by decide) (by decide) run
  exact (end_of_stream_forwarded_once (fun text => text) ∅ [⟨1,0⟩,⟨2,0⟩] [leftLane,rightLane] start opened (by decide) log a
    ran).1

def leftAgain : DeliveryChannel := {leftLane with topologyEpoch := some "e2"}

/-- Two incarnations of one route in one inventory: the end of one is forgotten on a
later copy of the other, and the epoch at which every lane has ended is forwarded as
a plain barrier. -/
theorem incarnations_lose_end_of_stream : ∃ start log a,
    init (fun text => text) ∅ (some [⟨1,0⟩,⟨1,0⟩,⟨2,0⟩])
        (some [leftLane,leftAgain,rightLane]) = .ok start ∧
      Ran (fun text => text) ([leftLane,leftAgain,rightLane].map InputChannel.channel) start log a ∧
      (∀ lane ∈ [leftLane,leftAgain,rightLane].map InputChannel.channel, Terminal log lane) ∧
      (forwarded log).map (fun sent => (sent.barrier.id,sent.barrier.endOfData)) = [(1,false),(2,false)] := by
  obtain ⟨start,log,a,opened,run,ends,sent⟩ := journey_check (fun text => text) [⟨1,0⟩,⟨1,0⟩,⟨2,0⟩]
    [leftLane,leftAgain,rightLane]
    [direct 1 false leftLane,direct 1 true leftAgain,direct 1 false rightLane,
      direct 2 true rightLane,direct 2 true leftLane]
    (fun log => (∀ lane ∈ [leftLane,leftAgain,rightLane].map InputChannel.channel, Terminal log lane) ∧
      (forwarded log).map (fun sent => (sent.barrier.id,sent.barrier.endOfData)) = [(1,false),(2,false)])
    (by decide +kernel)
  refine ⟨start,log,a,opened,?_,ends,sent⟩
  exact events_ran (fun text => text) _ start start a [] log _ .nil (by decide) (by decide) run

end BarrierAligner
end Klein
