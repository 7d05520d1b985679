import Mathlib.Data.List.Induction
import Mathlib.Data.Multiset.MapFold
import Klein.BarrierAlignerDiscard
import Klein.DictBag

/-! Direct alignment of an operator whose input lanes are known: which deliveries
an aligner counts, on which one it reports an epoch aligned, and which barrier it
forwards then. -/
namespace Klein
open Dict List Option
namespace BarrierAligner
open Runs

structure Delivery where
  barrier : Barrier
  lane : InputChannel

def deliveryChannel : InputChannel → Option DeliveryChannel
  | .channel lane => some lane
  | .vertex _ => none

def Delivery.copy (delivery : Delivery) : Copy :=
  ⟨delivery.barrier,some delivery.lane.sender,deliveryChannel delivery.lane⟩

def DistinctRoutes (lanes : List InputChannel) : Prop :=
  ∀ lane ∈ lanes, ∀ other ∈ lanes, ∀ channel, lane = .channel channel → replacedBy channel other = false

instance (lanes : List InputChannel) : Decidable (DistinctRoutes lanes) := by
  refine decidable_of_iff (∀ lane ∈ lanes, ∀ other ∈ lanes, (deliveryChannel lane).all
    (fun channel => ! replacedBy channel other) = true) ?_
  refine forall₂_congr (fun lane _ => forall₂_congr (fun other _ => ?_))
  cases lane <;> simp [deliveryChannel]

structure Wired (lanes : List InputChannel) (a : BarrierAligner) : Prop where
  distinct : lanes.Nodup
  inputs : a.directInputVertexIds = some ↑(lanes.map InputChannel.sender)
  routes : DistinctRoutes lanes
  alone : ∀ sender, .vertex sender ∈ lanes → (lanes.map InputChannel.sender).count sender = 1
  configured : ∀ channels ∈ a.configuredInputChannels, ∀ lane ∈ lanes, lane.isIn channels = true
  active : ∀ lane ∈ lanes, lane ∉ a.retiredTerminalInputChannels ∧ lane.isIn a.retiredInputChannels = false
  terminal : a.terminalInputChannels ⊆ lanes
  terminalDistinct : a.terminalInputChannels.Nodup
  counted : a.terminalInputs = ↑(a.terminalInputChannels.map InputChannel.sender)

section counting
variable (lanes terminal seen : List InputChannel)

section
variable (distinct : lanes.Nodup) (distinctTerminal : terminal.Nodup) (inside : terminal ⊆ lanes)
include distinct distinctTerminal inside

theorem live_senders :
    (↑(lanes.map InputChannel.sender) : Multiset ExecutionVertexId) - ↑(terminal.map InputChannel.sender) =
      ↑((lanes.filter (fun lane => lane ∉ terminal)).map InputChannel.sender) := by
  let rest := lanes.filter (fun lane => lane ∉ terminal)
  have split : lanes.Perm (terminal ++ rest) := by
    refine (perm_ext_iff_of_nodup distinct ?_).mpr (fun lane => ?_)
    · refine distinctTerminal.append (distinct.filter _) (fun lane mine theirs => ?_)
      have outside := (mem_filter.mp theirs).2
      simp [mine] at outside
    · by_cases ended : lane ∈ terminal
      · simp [ended,inside ended]
      · simp [rest,ended]
  rw [Multiset.coe_eq_coe.mpr (split.map InputChannel.sender),map_append,← Multiset.coe_add,Multiset.add_comm]
  exact Multiset.add_sub_cancel_right

theorem expected_le (distinctSeen : seen.Nodup) (known : ∀ lane ∈ seen, lane ∈ lanes ∧ lane ∉ terminal) :
    ((↑(lanes.map InputChannel.sender) : Multiset ExecutionVertexId) - ↑(terminal.map InputChannel.sender) ≤
      ↑(seen.map InputChannel.sender)) ↔ ∀ lane ∈ lanes, lane ∉ terminal → lane ∈ seen := by
  let rest := lanes.filter (fun lane => lane ∉ terminal)
  rw [live_senders lanes terminal distinct distinctTerminal inside]
  have restSeen : seen ⊆ rest := fun lane member => by simpa [rest] using known lane member
  constructor
  · intro enough lane member live
    have lengths := Multiset.card_le_card enough
    simp only [Multiset.coe_card,length_map] at lengths
    have same := (distinctSeen.subperm restSeen).perm_of_length_le lengths
    exact same.mem_iff.mpr (by simp [rest,member,live])
  · intro all
    have within : rest ⊆ seen := fun lane member => by
      obtain ⟨own,live⟩ := mem_filter.mp member
      exact all lane own (by simpa using live)
    have ordered : (↑rest : Multiset InputChannel) ≤ ↑seen := Multiset.coe_le.mpr ((distinct.filter _).subperm within)
    exact Multiset.map_le_map ordered

theorem inputs_le :
    ((↑(lanes.map InputChannel.sender) : Multiset ExecutionVertexId) ≤ ↑(terminal.map InputChannel.sender)) ↔
      lanes ⊆ terminal := by
  have all := expected_le lanes [] terminal distinct nodup_nil (by simp) distinctTerminal
    (fun lane member => ⟨inside member,by simp⟩)
  simpa [subset_def] using all

end

end counting

def heard (a : BarrierAligner) (epoch : Int) : Dict InputChannel (ExecutionVertexId × Bool) :=
  (a.directInflight.get? epoch).getD ∅

def hearing (a : BarrierAligner) (delivery : Delivery) : Dict InputChannel (ExecutionVertexId × Bool) :=
  (a.heard delivery.barrier.id).set delivery.lane (delivery.lane.sender,delivery.barrier.endOfData)

def expectation (a : BarrierAligner) (epoch : Int) : Multiset ExecutionVertexId :=
  (a.directExpected.get? epoch).getD (a.directInputVertexIds.getD 0 - a.terminalInputs)

def counting (a : BarrierAligner) (delivery : Delivery) : BarrierAligner :=
  {a with
    directInflight := a.directInflight.set delivery.barrier.id (a.hearing delivery)
    directExpected := a.directExpected.set delivery.barrier.id (a.expectation delivery.barrier.id)}

def Completes (a : BarrierAligner) (delivery : Delivery) : Prop :=
  a.expectation delivery.barrier.id ≤ ↑((a.hearing delivery).values.map Prod.fst)

instance (a : BarrierAligner) (delivery : Delivery) : Decidable (a.Completes delivery) :=
  inferInstanceAs (Decidable (a.expectation delivery.barrier.id ≤ ↑((a.hearing delivery).values.map Prod.fst)))

section counted
variable (quote : String → String) (lanes : List InputChannel) (a : BarrierAligner) (delivery : Delivery)

section
variable (wired : Wired lanes a)
include wired

section
variable (inside : delivery.lane ∈ lanes)
include inside

theorem directChannel_lane :
    a.directChannel delivery.barrier delivery.lane.sender (deliveryChannel delivery.lane) = .ok delivery.lane := by
  unfold directChannel
  rw [wired.inputs]
  cases lane : delivery.lane with
  | channel channel => simp [deliveryChannel,InputChannel.sender]
  | vertex sender =>
    have once := wired.alone sender (lane ▸ inside)
    simp [deliveryChannel,InputChannel.sender,once]

theorem retireReplacedTerminalChannel_lane :
    a.retireReplacedTerminalChannel delivery.lane = a := by
  unfold retireReplacedTerminalChannel
  split
  next => rfl
  next channel same =>
    have nothing : a.terminalInputChannels.filter (replacedBy channel) = [] := by
      refine filter_eq_nil_iff.mpr (fun other member => ?_)
      simp [wired.routes delivery.lane inside other (wired.terminal member) channel same]
    simp [nothing]

theorem checkChannel_lane (error : AlignerError) :
    checkChannel quote a a.directInputVertexIds error delivery.lane delivery.lane.sender = .ok () := by
  have listed : delivery.lane.sender ∈ (↑(lanes.map InputChannel.sender) : Multiset ExecutionVertexId) :=
    Multiset.mem_coe.mpr (List.mem_map.mpr ⟨_,inside,rfl⟩)
  have configured : ¬ ∃ channels ∈ a.configuredInputChannels, ¬ delivery.lane.isIn channels = true := by
    rintro ⟨channels,found,outside⟩
    exact outside (wired.configured channels found delivery.lane inside)
  unfold checkChannel
  rw [if_neg configured,wired.inputs]
  simp [listed]

end

section
variable (direct : delivery.barrier.coordinated = false) (inside : delivery.lane ∈ lanes)
include direct inside

theorem receive_ignored
    (skipped : delivery.barrier.id ≤ a.directResolvedThrough ∨ delivery.lane ∈ a.terminalInputChannels) :
    receive quote a delivery.copy = .ok (a,.ignored) := by
  simp only [receive,Delivery.copy,direct,Bool.false_eq_true,if_false]
  unfold receiveDirect
  split
  next => rfl
  next later =>
    rw [directChannel_lane lanes a delivery wired inside]
    simp only [skipped.resolve_left later,true_or,if_true]

theorem receive_live (later : a.directResolvedThrough < delivery.barrier.id)
    (live : delivery.lane ∉ a.terminalInputChannels) :
    receive quote a delivery.copy = if ¬ a.directInflight.isEmpty ∧ ¬ a.directInflight.contains delivery.barrier.id then
      .error (.runtimeError ("checkpoint barrier " ++ toString delivery.barrier.id ++ " arrived before epoch " ++
        toString (a.directInflight.keys.min?.getD delivery.barrier.id) ++ " aligned"))
      else countDirect quote a delivery.barrier delivery.lane.sender delivery.lane := by
  obtain ⟨untombed,unretired⟩ := wired.active delivery.lane inside
  simp only [receive,Delivery.copy,direct,Bool.false_eq_true,if_false]
  unfold receiveDirect
  rw [if_neg (by omega),directChannel_lane lanes a delivery wired inside]
  dsimp only
  rw [if_neg (by simp [live,untombed,unretired]),checkChannel_lane quote lanes a delivery wired inside]
  dsimp only
  rw [retireReplacedTerminalChannel_lane lanes a delivery wired inside]

end

theorem directAlignmentComplete_counting :
    directAlignmentComplete {a with directInflight := a.directInflight.set delivery.barrier.id (a.hearing delivery)}
      delivery.barrier (a.hearing delivery) = (a.counting delivery,decide (a.Completes delivery)) := by
  have same : a.expectation delivery.barrier.id =
      (a.directExpected.get? delivery.barrier.id).getD (↑(lanes.map InputChannel.sender) - a.terminalInputs) := by
    rw [expectation,wired.inputs]
    rfl
  unfold directAlignmentComplete
  split
  next missing =>
    have known : a.directInputVertexIds = none := missing
    rw [wired.inputs] at known
    contradiction
  next inputs found =>
    have known : a.directInputVertexIds = some inputs := found
    rw [wired.inputs,some_inj] at known
    subst known
    simp only [Completes,counting,same]

theorem countDirect_new (unheard : (a.heard delivery.barrier.id).get? delivery.lane = none) :
    countDirect quote a delivery.barrier delivery.lane.sender delivery.lane =
      .ok (if a.Completes delivery then
        ((a.counting delivery).completeDirectAlignment delivery.barrier.id (a.hearing delivery),.aligned)
      else (a.counting delivery,.waiting)) := by
  have counted : countDirect quote a delivery.barrier delivery.lane.sender delivery.lane = .ok (settleDirect
      {a with directInflight := a.directInflight.set delivery.barrier.id (a.hearing delivery)} delivery.barrier
      (a.hearing delivery)) := by
    rw [heard] at unheard
    unfold countDirect
    dsimp only
    rw [unheard]
    rfl
  rw [counted]
  unfold settleDirect
  rw [directAlignmentComplete_counting lanes a delivery wired]
  by_cases complete : a.Completes delivery <;> simp [complete]

end

theorem countDirect_again (value : ExecutionVertexId × Bool)
    (found : (a.heard delivery.barrier.id).get? delivery.lane = some value) :
    countDirect quote a delivery.barrier delivery.lane.sender delivery.lane =
      if value ≠ (delivery.lane.sender,delivery.barrier.endOfData) then
        .error (.runtimeError ("checkpoint barrier " ++ toString delivery.barrier.id ++ " on channel " ++
          delivery.lane.repr quote ++ " changed sender or terminal kind"))
      else .ok (a,.ignored) := by
  unfold countDirect
  rw [heard] at found
  dsimp only
  rw [found]

end counted

def Heard (trace : List Delivery) (epoch : Int) (lane : InputChannel) (endOfData : Bool) : Prop :=
  ∃ delivery ∈ trace, delivery.lane = lane ∧ delivery.barrier.id = epoch ∧ delivery.barrier.endOfData = endOfData

def Ended (trace : List Delivery) (epoch : Int) (lane : InputChannel) : Prop :=
  ∃ earlier, earlier < epoch ∧ Heard trace earlier lane true

def Present (trace : List Delivery) (epoch : Int) (lane : InputChannel) : Prop :=
  ¬ Ended trace epoch lane ∧ ∃ endOfData, Heard trace epoch lane endOfData

structure Complete (lanes : List InputChannel) (trace : List Delivery) (epoch : Int) : Prop where
  begun : ∃ lane ∈ lanes, Present trace epoch lane
  all : ∀ lane ∈ lanes, ¬ Ended trace epoch lane → Present trace epoch lane

def Stale (lanes : List InputChannel) (trace : List Delivery) (delivery : Delivery) : Prop :=
  (∃ epoch, delivery.barrier.id ≤ epoch ∧ Complete lanes trace epoch) ∨
    ∃ epoch, epoch < delivery.barrier.id ∧ Complete lanes trace epoch ∧ Heard trace epoch delivery.lane true

/-- A delivery that a lane may add: the ids of a lane do not decrease, a copy of an
epoch that it delivered before is a duplicate, and an epoch that has begun is the
only one until it is complete. -/
structure Admissible (lanes : List InputChannel) (trace : List Delivery) (delivery : Delivery) : Prop where
  direct : delivery.barrier.coordinated = false
  lane : delivery.lane ∈ lanes
  issued : 0 ≤ delivery.barrier.id
  order : ∀ epoch endOfData, Heard trace epoch delivery.lane endOfData → epoch ≤ delivery.barrier.id
  duplicate : ∀ endOfData, Heard trace delivery.barrier.id delivery.lane endOfData →
    endOfData = delivery.barrier.endOfData
  oneEpoch : ∀ epoch, epoch ≠ delivery.barrier.id → (∃ lane ∈ lanes, Present trace epoch lane) →
    ¬ Complete lanes trace epoch → Stale lanes trace delivery

inductive Orderly (lanes : List InputChannel) : List Delivery → Prop where
  | nil : Orderly lanes []
  | snoc (trace : List Delivery) (delivery : Delivery) (before : Orderly lanes trace)
      (admissible : Admissible lanes trace delivery) : Orderly lanes (trace ++ [delivery])

theorem Wired.counting (lanes : List InputChannel) (delivery : Delivery) (a : BarrierAligner) (wired : Wired lanes a) :
    Wired lanes (a.counting delivery) :=
  {wired with}

section traces
variable (lanes : List InputChannel) (trace : List Delivery) (delivery : Delivery)

theorem Heard.snoc (epoch : Int) (lane : InputChannel) (endOfData : Bool) :
    Heard (trace ++ [delivery]) epoch lane endOfData ↔ Heard trace epoch lane endOfData ∨
      delivery.lane = lane ∧ delivery.barrier.id = epoch ∧ delivery.barrier.endOfData = endOfData := by
  constructor
  · rintro ⟨other,inside,rest⟩
    rcases mem_append.mp inside with old | new
    · exact .inl ⟨other,old,rest⟩
    · obtain rfl := mem_singleton.mp new
      exact .inr rest
  · rintro (⟨other,inside,rest⟩ | rest)
    · exact ⟨other,mem_append_left _ inside,rest⟩
    · exact ⟨delivery,by simp,rest⟩

theorem Ended.snoc (epoch : Int) (lane : InputChannel) :
    Ended (trace ++ [delivery]) epoch lane ↔ Ended trace epoch lane ∨
      delivery.lane = lane ∧ delivery.barrier.id < epoch ∧ delivery.barrier.endOfData = true := by
  simp only [Ended,Heard.snoc]
  constructor
  · rintro ⟨earlier,less,old | ⟨same,rfl,ends⟩⟩
    · exact .inl ⟨earlier,less,old⟩
    · exact .inr ⟨same,less,ends⟩
  · rintro (⟨earlier,less,old⟩ | ⟨same,less,ends⟩)
    · exact ⟨earlier,less,.inl old⟩
    · exact ⟨_,less,.inr ⟨same,rfl,ends⟩⟩

theorem Ended.mono (first second : Int) (lane : InputChannel) (le : first ≤ second) (ended : Ended trace first lane) :
    Ended trace second lane := by
  obtain ⟨earlier,less,heard⟩ := ended
  exact ⟨earlier,by omega,heard⟩

def Redundant : Prop :=
  Heard trace delivery.barrier.id delivery.lane delivery.barrier.endOfData ∨
    Ended trace delivery.barrier.id delivery.lane

section redundant
variable (redundant : Redundant trace delivery)

include redundant in
theorem Redundant.ended (epoch : Int) (lane : InputChannel) :
    Ended (trace ++ [delivery]) epoch lane ↔ Ended trace epoch lane := by
  rw [Ended.snoc]
  refine or_iff_left_of_imp (fun added => ?_)
  obtain ⟨rfl,less,ends⟩ := added
  rcases redundant with heard | ⟨earlier,before,heard⟩
  · exact ⟨_,less,ends ▸ heard⟩
  · exact ⟨earlier,by omega,heard⟩

include redundant in
theorem Redundant.heard (epoch : Int) (lane : InputChannel) (endOfData : Bool) (live : ¬ Ended trace epoch lane) :
    Heard (trace ++ [delivery]) epoch lane endOfData ↔ Heard trace epoch lane endOfData := by
  rw [Heard.snoc]
  refine or_iff_left_of_imp (fun added => ?_)
  obtain ⟨rfl,rfl,rfl⟩ := added
  exact redundant.resolve_right live

include redundant in
theorem Redundant.present (epoch : Int) (lane : InputChannel) :
    Present (trace ++ [delivery]) epoch lane ↔ Present trace epoch lane := by
  unfold Present
  rw [redundant.ended trace delivery]
  refine and_congr_right (fun live => exists_congr (fun endOfData => ?_))
  exact redundant.heard trace delivery epoch lane endOfData live

include redundant in
theorem Redundant.complete (epoch : Int) : Complete lanes (trace ++ [delivery]) epoch ↔ Complete lanes trace epoch := by
  constructor
  · rintro ⟨begun,all⟩
    simp only [redundant.present,redundant.ended] at begun all
    exact ⟨begun,all⟩
  · rintro ⟨begun,all⟩
    refine ⟨?_,?_⟩
    · simpa only [redundant.present] using begun
    · simpa only [redundant.present,redundant.ended] using all

end redundant
end traces

structure Tracks (lanes : List InputChannel) (trace : List Delivery) (a : BarrierAligner) : Prop extends Wired lanes a where
  top : a.directResolvedThrough = -1 ∨ Complete lanes trace a.directResolvedThrough
  done : ∀ epoch, Complete lanes trace epoch → epoch ≤ a.directResolvedThrough
  ended : ∀ lane, lane ∈ a.terminalInputChannels ↔ Ended trace (a.directResolvedThrough + 1) lane
  known : ∀ epoch lane endOfData, Heard trace epoch lane endOfData → lane ∈ lanes
  fresh : ∀ epoch lane endOfData, Heard trace epoch lane endOfData → a.directResolvedThrough < epoch →
    lane ∉ a.terminalInputChannels → a.directInflight.contains epoch = true
  single : ∀ epoch other, a.directInflight.contains epoch = true → a.directInflight.contains other = true → epoch = other
  underway : ∀ epoch, a.directInflight.contains epoch = true → a.directResolvedThrough < epoch ∧
    ∃ lane endOfData, Heard trace epoch lane endOfData ∧ lane ∉ a.terminalInputChannels
  seen : ∀ epoch, a.directInflight.contains epoch = true → ∀ lane value, (a.heard epoch).get? lane = some value ↔
    value.1 = lane.sender ∧ Heard trace epoch lane value.2 ∧ lane ∉ a.terminalInputChannels
  expected : ∀ epoch, a.directExpected.get? epoch = if a.directInflight.contains epoch then
    some (↑(lanes.map InputChannel.sender) - a.terminalInputs) else none

theorem contains_of_heard (a : BarrierAligner) (epoch : Int) (lane : InputChannel) (value : ExecutionVertexId × Bool)
    (found : (a.heard epoch).get? lane = some value) : a.directInflight.contains epoch = true := by
  unfold heard at found
  cases stored : a.directInflight.get? epoch with
  | none => simp [stored] at found
  | some seen => simp [contains_eq_isSome,stored]

section tracks
variable (lanes : List InputChannel) (trace : List Delivery) (delivery : Delivery) (a : BarrierAligner)
variable (tracks : Tracks lanes trace a)

include tracks in
theorem Tracks.live (epoch : Int) (lane : InputChannel) (current : a.directInflight.contains epoch = true)
    (open' : lane ∉ a.terminalInputChannels) : ¬ Ended trace epoch lane := by
  rintro ⟨earlier,less,heard⟩
  have later : a.directResolvedThrough < earlier := by
    by_contra old
    exact open' ((tracks.ended lane).mpr ⟨earlier,by omega,heard⟩)
  have same := tracks.single earlier epoch (tracks.fresh earlier lane true heard later open') current
  omega

include tracks in
theorem Tracks.incomplete (epoch : Int) (later : a.directResolvedThrough < epoch) : ¬ Complete lanes trace epoch :=
  fun complete => absurd (tracks.done epoch complete) (by omega)

include tracks in
theorem Tracks.redundant (redundant : Redundant trace delivery) (inside : delivery.lane ∈ lanes)
    (skipped : delivery.barrier.id ≤ a.directResolvedThrough ∨ delivery.lane ∈ a.terminalInputChannels ∨
      Heard trace delivery.barrier.id delivery.lane delivery.barrier.endOfData) : Tracks lanes (trace ++ [delivery]) a where
  toWired := tracks.toWired
  top := tracks.top.imp_right (redundant.complete lanes trace delivery _).mpr
  done epoch complete := tracks.done epoch ((redundant.complete lanes trace delivery epoch).mp complete)
  ended lane := (tracks.ended lane).trans (redundant.ended trace delivery _ lane).symm
  known epoch lane endOfData heard := by
    rcases (Heard.snoc trace delivery epoch lane endOfData).mp heard with old | ⟨rfl,-⟩
    · exact tracks.known epoch lane endOfData old
    · exact inside
  fresh epoch lane endOfData heard later open' := by
    rcases (Heard.snoc trace delivery epoch lane endOfData).mp heard with old | ⟨rfl,rfl,rfl⟩
    · exact tracks.fresh epoch lane endOfData old later open'
    · have old := (skipped.resolve_left (by omega)).resolve_left open'
      exact tracks.fresh _ _ _ old later open'
  single := tracks.single
  underway epoch current := by
    obtain ⟨later,lane,endOfData,heard,open'⟩ := tracks.underway epoch current
    exact ⟨later,lane,endOfData,(Heard.snoc trace delivery epoch lane endOfData).mpr (.inl heard),open'⟩
  seen epoch current lane value := by
    rw [tracks.seen epoch current lane value]
    refine and_congr_right (fun _ => and_congr_left (fun open' => ?_))
    exact (redundant.heard trace delivery epoch lane value.2 (tracks.live lanes trace a epoch lane current open')).symm
  expected := tracks.expected

include tracks in
theorem Tracks.skipped (admissible : Admissible lanes trace delivery)
    (skipped : delivery.barrier.id ≤ a.directResolvedThrough ∨ delivery.lane ∈ a.terminalInputChannels) :
    Redundant trace delivery := by
  have duplicate (endOfData : Bool) (heard : Heard trace delivery.barrier.id delivery.lane endOfData) :
      Redundant trace delivery := .inl (admissible.duplicate endOfData heard ▸ heard)
  by_cases past : delivery.barrier.id ≤ a.directResolvedThrough
  · have issued := admissible.issued
    have complete := tracks.top.resolve_left (by omega)
    by_cases ended : Ended trace a.directResolvedThrough delivery.lane
    · obtain ⟨earlier,less,heard⟩ := ended
      have order := admissible.order earlier true heard
      rcases Int.lt_or_eq_of_le order with before | same
      · exact .inr ⟨earlier,before,heard⟩
      · exact duplicate true (same ▸ heard)
    · obtain ⟨_,endOfData,heard⟩ := complete.all delivery.lane admissible.lane ended
      have order := admissible.order _ endOfData heard
      have same : a.directResolvedThrough = delivery.barrier.id := by omega
      exact duplicate endOfData (same ▸ heard)
  · have terminal := (tracks.ended delivery.lane).mp (skipped.resolve_left past)
    exact .inr (terminal.mono trace _ _ _ (by omega))

include tracks in
theorem Tracks.current (admissible : Admissible lanes trace delivery)
    (later : a.directResolvedThrough < delivery.barrier.id) (open' : delivery.lane ∉ a.terminalInputChannels)
    (epoch : Int) (underway : a.directInflight.contains epoch = true) : epoch = delivery.barrier.id := by
  by_contra different
  obtain ⟨after,lane,endOfData,heard,live⟩ := tracks.underway epoch underway
  have present : Present trace epoch lane := ⟨tracks.live lanes trace a epoch lane underway live,endOfData,heard⟩
  have stale := admissible.oneEpoch epoch different ⟨lane,tracks.known _ _ _ heard,present⟩
    (tracks.incomplete lanes trace a epoch after)
  rcases stale with ⟨past,le,complete⟩ | ⟨past,less,complete,ended⟩
  · have bound := tracks.done past complete
    omega
  · have bound := tracks.done past complete
    exact open' ((tracks.ended delivery.lane).mpr ⟨past,by omega,ended⟩)

section counted
variable (admissible : Admissible lanes trace delivery) (later : a.directResolvedThrough < delivery.barrier.id)
variable (open' : delivery.lane ∉ a.terminalInputChannels)

include tracks admissible later open' in
theorem Tracks.ended_current (lane : InputChannel) :
    Ended (trace ++ [delivery]) delivery.barrier.id lane ↔ lane ∈ a.terminalInputChannels := by
  rw [Ended.snoc,tracks.ended]
  constructor
  · rintro (⟨earlier,less,heard⟩ | ⟨-,less,-⟩)
    · by_contra live
      have after : a.directResolvedThrough < earlier := by
        by_contra old
        exact live ⟨earlier,by omega,heard⟩
      have flying := tracks.fresh earlier lane true heard after (fun ended => live ((tracks.ended lane).mp ended))
      have same := tracks.current lanes trace delivery a admissible later open' earlier flying
      omega
    · omega
  · exact fun ended => .inl (ended.mono trace _ _ _ (by omega))

include tracks later open' in
theorem Tracks.hearing (unheard : ∀ endOfData, ¬ Heard trace delivery.barrier.id delivery.lane endOfData)
    (lane : InputChannel) (value : ExecutionVertexId × Bool) : (a.hearing delivery).get? lane = some value ↔
      value.1 = lane.sender ∧ Heard (trace ++ [delivery]) delivery.barrier.id lane value.2 ∧
        lane ∉ a.terminalInputChannels := by
  rw [BarrierAligner.hearing,Dict.get?_set,Heard.snoc]
  by_cases same : lane = delivery.lane
  · subst same
    rw [if_pos rfl,some_inj]
    constructor
    · rintro rfl
      exact ⟨rfl,.inr ⟨rfl,rfl,rfl⟩,open'⟩
    · rintro ⟨sender,heard,-⟩
      have kind := (heard.resolve_left (unheard _)).2.2
      exact Prod.ext sender.symm kind
  · rw [if_neg same]
    have other : ¬ (delivery.lane = lane ∧ delivery.barrier.id = delivery.barrier.id ∧
        delivery.barrier.endOfData = value.2) := fun both => same both.1.symm
    rw [or_iff_left other]
    by_cases flying : a.directInflight.contains delivery.barrier.id = true
    · exact tracks.seen delivery.barrier.id flying lane value
    · constructor
      · exact fun found => absurd (contains_of_heard a _ _ _ found) flying
      · exact fun ⟨_,heard,live⟩ => absurd (tracks.fresh _ _ _ heard later live) flying

include tracks admissible later open' in
theorem Tracks.completes (unheard : ∀ endOfData, ¬ Heard trace delivery.barrier.id delivery.lane endOfData) :
    a.Completes delivery ↔ Complete lanes (trace ++ [delivery]) delivery.barrier.id := by
  have hearing := tracks.hearing lanes trace delivery a later open' unheard
  have expectation : a.expectation delivery.barrier.id =
      ↑(lanes.map InputChannel.sender) - ↑(a.terminalInputChannels.map InputChannel.sender) := by
    rw [BarrierAligner.expectation,tracks.expected,tracks.inputs,← tracks.counted]
    split <;> rfl
  have senders : (a.hearing delivery).values.map Prod.fst = (a.hearing delivery).keys.map InputChannel.sender := by
    rw [Dict.values,Dict.keys,List.map_map,List.map_map]
    refine map_congr_left (fun item inside => ?_)
    exact ((hearing item.1 item.2).mp ((Dict.get?_eq_some _ _ _).mpr inside)).1
  have keys (lane : InputChannel) : lane ∈ (a.hearing delivery).keys ↔
      Present (trace ++ [delivery]) delivery.barrier.id lane := by
    rw [Dict.mem_keys,Present,tracks.ended_current lanes trace delivery a admissible later open']
    constructor
    · rintro ⟨value,found⟩
      obtain ⟨-,heard,live⟩ := (hearing lane value).mp found
      exact ⟨live,value.2,heard⟩
    · rintro ⟨live,endOfData,heard⟩
      exact ⟨(lane.sender,endOfData),(hearing lane _).mpr ⟨rfl,heard,live⟩⟩
  have known (lane : InputChannel) (inside : lane ∈ (a.hearing delivery).keys) :
      lane ∈ lanes ∧ lane ∉ a.terminalInputChannels := by
    obtain ⟨live,endOfData,heard⟩ := (keys lane).mp inside
    rw [tracks.ended_current lanes trace delivery a admissible later open'] at live
    refine ⟨?_,live⟩
    rcases (Heard.snoc trace delivery _ lane endOfData).mp heard with old | ⟨rfl,-⟩
    · exact tracks.known _ _ _ old
    · exact admissible.lane
  rw [Completes,expectation,senders,expected_le lanes a.terminalInputChannels
    (a.hearing delivery).keys tracks.distinct tracks.terminalDistinct tracks.terminal (a.hearing delivery).distinct known]
  constructor
  · intro all
    refine ⟨⟨delivery.lane,admissible.lane,?_⟩,fun lane inside live => ?_⟩
    · rw [Present,tracks.ended_current lanes trace delivery a admissible later open']
      exact ⟨open',delivery.barrier.endOfData,(Heard.snoc _ _ _ _ _).mpr (.inr ⟨rfl,rfl,rfl⟩)⟩
    · rw [tracks.ended_current lanes trace delivery a admissible later open'] at live
      exact (keys lane).mp (all lane inside live)
  · intro complete lane inside live
    rw [← tracks.ended_current lanes trace delivery a admissible later open'] at live
    exact (keys lane).mpr (complete.all lane inside live)

include tracks admissible later open' in
theorem Tracks.complete_other (epoch : Int) (different : epoch ≠ delivery.barrier.id)
    (complete : Complete lanes (trace ++ [delivery]) epoch) : epoch ≤ a.directResolvedThrough := by
  by_contra after
  obtain ⟨lane,inside,live,endOfData,heard⟩ := complete.begun
  have old := ((Heard.snoc trace delivery epoch lane endOfData).mp heard).resolve_right
    (fun new => different new.2.1.symm)
  have open'' : lane ∉ a.terminalInputChannels := by
    intro terminal
    refine live ((Ended.snoc trace delivery epoch lane).mpr (.inl ?_))
    exact ((tracks.ended lane).mp terminal).mono trace _ _ _ (by omega)
  have flying := tracks.fresh epoch lane endOfData old (by omega) open''
  exact different (tracks.current lanes trace delivery a admissible later open' epoch flying)

theorem Complete.snoc (epoch : Int) (past : epoch < delivery.barrier.id) (complete : Complete lanes trace epoch) :
    Complete lanes (trace ++ [delivery]) epoch := by
  have ended (lane : InputChannel) : Ended (trace ++ [delivery]) epoch lane ↔ Ended trace epoch lane := by
    rw [Ended.snoc]
    refine or_iff_left (fun new => ?_)
    omega
  have present (lane : InputChannel) (was : Present trace epoch lane) : Present (trace ++ [delivery]) epoch lane := by
    obtain ⟨live,endOfData,heard⟩ := was
    exact ⟨fun ends => live ((ended lane).mp ends),endOfData,(Heard.snoc _ _ _ _ _).mpr (.inl heard)⟩
  obtain ⟨lane,inside,was⟩ := complete.begun
  exact ⟨⟨lane,inside,present lane was⟩,fun lane inside live =>
    present lane (complete.all lane inside (fun ends => live ((ended lane).mpr ends)))⟩

include tracks admissible later open' in
theorem Tracks.waits (unheard : ∀ endOfData, ¬ Heard trace delivery.barrier.id delivery.lane endOfData)
    (waits : ¬ Complete lanes (trace ++ [delivery]) delivery.barrier.id) :
    Tracks lanes (trace ++ [delivery]) (a.counting delivery) := by
  have current := tracks.current lanes trace delivery a admissible later open'
  have flying (epoch : Int) (inside : (a.counting delivery).directInflight.contains epoch = true) :
      epoch = delivery.barrier.id := by
    rw [contains_eq_isSome,counting,Dict.get?_set] at inside
    split at inside
    next same => exact same
    next => exact current epoch ((contains_eq_isSome _ _).trans inside)
  have flies : (a.counting delivery).directInflight.contains delivery.barrier.id = true := by
    simp [contains_eq_isSome,counting]
  have resolved (lane : InputChannel) : Ended (trace ++ [delivery]) (a.directResolvedThrough + 1) lane ↔
      Ended trace (a.directResolvedThrough + 1) lane := by
    rw [Ended.snoc]
    refine or_iff_left (fun new => ?_)
    omega
  constructor
  case toWired => exact tracks.toWired.counting lanes delivery a
  case top => exact tracks.top.imp_right (Complete.snoc lanes trace delivery _ later)
  case done =>
    intro epoch complete
    by_cases same : epoch = delivery.barrier.id
    · exact absurd (same ▸ complete) waits
    · exact tracks.complete_other lanes trace delivery a admissible later open' epoch same complete
  case ended => exact fun lane => (tracks.ended lane).trans (resolved lane).symm
  case known =>
    intro epoch lane endOfData heard
    rcases (Heard.snoc trace delivery epoch lane endOfData).mp heard with old | ⟨rfl,-⟩
    · exact tracks.known epoch lane endOfData old
    · exact admissible.lane
  case fresh =>
    intro epoch lane endOfData heard after live
    rcases (Heard.snoc trace delivery epoch lane endOfData).mp heard with old | ⟨-,rfl,-⟩
    · rw [current epoch (tracks.fresh epoch lane endOfData old after live)]
      exact flies
    · exact flies
  case single => exact fun epoch other first second => (flying epoch first).trans (flying other second).symm
  case underway =>
    intro epoch inside
    obtain rfl := flying epoch inside
    exact ⟨later,delivery.lane,_,(Heard.snoc _ _ _ _ _).mpr (.inr ⟨rfl,rfl,rfl⟩),open'⟩
  case seen =>
    intro epoch inside lane value
    obtain rfl := flying epoch inside
    have stored : (a.counting delivery).heard delivery.barrier.id = a.hearing delivery := by
      simp [BarrierAligner.heard,counting]
    rw [stored]
    exact tracks.hearing lanes trace delivery a later open' unheard lane value
  case expected =>
    intro epoch
    rw [counting,Dict.get?_set]
    split
    next same =>
      rw [same,if_pos (by simpa [counting] using flies),expectation,tracks.expected,tracks.inputs]
      split <;> rfl
    next different =>
      rw [tracks.expected]
      have absent : ¬ a.directInflight.contains epoch = true := fun inside => different (current epoch inside)
      have absent' : ¬ (a.directInflight.set delivery.barrier.id (a.hearing delivery)).contains epoch = true := by
        rw [contains_eq_isSome,Dict.get?_set,if_neg different,← contains_eq_isSome]
        exact absent
      rw [if_neg absent,if_neg absent']

theorem mem_terminal_completed (epoch : Int) (seen : Dict InputChannel (ExecutionVertexId × Bool)) (lane : InputChannel) :
    lane ∈ (a.completeDirectAlignment epoch seen).terminalInputChannels ↔
      lane ∈ a.terminalInputChannels ∨ ∃ sender, seen.get? lane = some (sender,true) := by
  simp only [completeDirectAlignment,rebuildTerminalInputs,mem_append,List.mem_map,mem_filter]
  constructor
  · rintro (old | ⟨item,⟨inside,ends⟩,rfl⟩)
    · exact .inl old
    · simp only [decide_eq_true_eq] at ends
      refine .inr ⟨item.2.1,(Dict.get?_eq_some _ _ _).mpr ?_⟩
      rw [← ends.1]
      exact inside
  · rintro (old | ⟨sender,found⟩)
    · exact .inl old
    · by_cases old : lane ∈ a.terminalInputChannels
      · exact .inl old
      · exact .inr ⟨(lane,(sender,true)),⟨(Dict.get?_eq_some _ _ _).mp found,by simp [old]⟩,rfl⟩

theorem Wired.completed (wired : Wired lanes a) (epoch : Int) (seen : Dict InputChannel (ExecutionVertexId × Bool))
    (known : ∀ lane value, seen.get? lane = some value → lane ∈ lanes) :
    Wired lanes (a.completeDirectAlignment epoch seen) where
  distinct := wired.distinct
  inputs := wired.inputs
  routes := wired.routes
  alone := wired.alone
  configured := wired.configured
  active lane inside := by
    obtain ⟨untombed,unretired⟩ := wired.active lane inside
    refine ⟨fun member => ?_,unretired⟩
    exact untombed (mem_filter.mp member).1
  terminal lane member := by
    rcases (mem_terminal_completed a epoch seen lane).mp member with old | ⟨sender,found⟩
    · exact wired.terminal old
    · exact known lane _ found
  terminalDistinct := by
    refine wired.terminalDistinct.append ?_ (fun lane old new => ?_)
    · exact seen.distinct.sublist (filter_sublist.map Prod.fst)
    · obtain ⟨item,inside,rfl⟩ := List.mem_map.mp new
      have outside := (mem_filter.mp inside).2
      simp [old] at outside
  counted := rfl

include tracks admissible later open' in
theorem Tracks.aligns (unheard : ∀ endOfData, ¬ Heard trace delivery.barrier.id delivery.lane endOfData)
    (complete : Complete lanes (trace ++ [delivery]) delivery.barrier.id) :
    Tracks lanes (trace ++ [delivery])
      ((a.counting delivery).completeDirectAlignment delivery.barrier.id (a.hearing delivery)) := by
  have current := tracks.current lanes trace delivery a admissible later open'
  have hearing := tracks.hearing lanes trace delivery a later open' unheard
  have known (epoch : Int) (lane : InputChannel) (endOfData : Bool)
      (heard : Heard (trace ++ [delivery]) epoch lane endOfData) : lane ∈ lanes := by
    rcases (Heard.snoc trace delivery epoch lane endOfData).mp heard with old | ⟨rfl,-⟩
    · exact tracks.known epoch lane endOfData old
    · exact admissible.lane
  have terminal (lane : InputChannel) : lane ∈ ((a.counting delivery).completeDirectAlignment delivery.barrier.id
      (a.hearing delivery)).terminalInputChannels ↔ lane ∈ a.terminalInputChannels ∨
        Heard (trace ++ [delivery]) delivery.barrier.id lane true := by
    rw [mem_terminal_completed]
    constructor
    · rintro (old | ⟨sender,found⟩)
      · exact .inl old
      · exact .inr ((hearing lane _).mp found).2.1
    · rintro (old | heard)
      · exact .inl old
      · by_cases old : lane ∈ a.terminalInputChannels
        · exact .inl old
        · exact .inr ⟨lane.sender,(hearing lane _).mpr ⟨rfl,heard,old⟩⟩
  have none (epoch : Int) : ¬ ((a.counting delivery).completeDirectAlignment delivery.barrier.id
      (a.hearing delivery)).directInflight.contains epoch = true := by
    simp only [completeDirectAlignment,rebuildTerminalInputs,counting,contains_eq_isSome,Dict.get?_erase,Dict.get?_set]
    by_cases same : epoch = delivery.barrier.id
    · simp [same]
    · rw [if_neg same,if_neg same,← contains_eq_isSome]
      exact fun inside => same (current epoch inside)
  constructor
  case toWired =>
    refine (tracks.toWired.counting lanes delivery a).completed lanes _ _ _ (fun lane value found => ?_)
    exact known _ _ _ ((hearing lane value).mp found).2.1
  case top => exact .inr complete
  case done =>
    intro epoch complete
    change epoch ≤ delivery.barrier.id
    by_cases same : epoch = delivery.barrier.id
    · omega
    · have past := tracks.complete_other lanes trace delivery a admissible later open' epoch same complete
      omega
  case ended =>
    intro lane
    rw [terminal,← tracks.ended_current lanes trace delivery a admissible later open']
    change _ ↔ Ended (trace ++ [delivery]) (delivery.barrier.id + 1) lane
    constructor
    · rintro (old | heard)
      · exact old.mono _ _ _ _ (by omega)
      · exact ⟨_,by omega,heard⟩
    · rintro ⟨earlier,less,heard⟩
      rcases Int.lt_or_eq_of_le (Int.lt_add_one_iff.mp less) with before | rfl
      · exact .inl ⟨earlier,before,heard⟩
      · exact .inr heard
  case known => exact known
  case fresh =>
    intro epoch lane endOfData heard after live
    have past : delivery.barrier.id < epoch := after
    have old := ((Heard.snoc trace delivery epoch lane endOfData).mp heard).resolve_right (fun new => by omega)
    have open'' : lane ∉ a.terminalInputChannels := fun ended => live ((terminal lane).mpr (.inl ended))
    have same := current epoch (tracks.fresh epoch lane endOfData old (by omega) open'')
    omega
  case single => exact fun epoch _ inside => absurd inside (none epoch)
  case underway => exact fun epoch inside => absurd inside (none epoch)
  case seen => exact fun epoch inside => absurd inside (none epoch)
  case expected =>
    intro epoch
    rw [if_neg (none epoch)]
    simp only [completeDirectAlignment,rebuildTerminalInputs,counting,Dict.get?_erase,Dict.get?_set]
    split
    next => rfl
    next different =>
      rw [tracks.expected,if_neg (fun inside => different (current epoch inside))]

end counted

include tracks in
theorem Tracks.receive (quote : String → String) (admissible : Admissible lanes trace delivery) : ∃ next outcome,
    receive quote a delivery.copy = .ok (next,outcome) ∧ Tracks lanes (trace ++ [delivery]) next ∧
      (outcome = .aligned ↔ ¬ Complete lanes trace delivery.barrier.id ∧
        Complete lanes (trace ++ [delivery]) delivery.barrier.id) := by
  have ignored (redundant : Redundant trace delivery) : (Outcome.ignored = .aligned ↔
      ¬ Complete lanes trace delivery.barrier.id ∧ Complete lanes (trace ++ [delivery]) delivery.barrier.id) := by
    rw [redundant.complete lanes trace delivery]
    simp
  by_cases skipped : delivery.barrier.id ≤ a.directResolvedThrough ∨ delivery.lane ∈ a.terminalInputChannels
  · have redundant := tracks.skipped lanes trace delivery a admissible skipped
    exact ⟨a,.ignored,receive_ignored quote lanes a delivery tracks.toWired admissible.direct admissible.lane skipped,
      tracks.redundant lanes trace delivery a redundant admissible.lane (skipped.imp_right .inl),ignored redundant⟩
  · obtain ⟨after,live⟩ := not_or.mp skipped
    have later : a.directResolvedThrough < delivery.barrier.id := by omega
    have current := tracks.current lanes trace delivery a admissible later live
    have alone : ¬ (¬ a.directInflight.isEmpty = true ∧ ¬ a.directInflight.contains delivery.barrier.id = true) := by
      rintro ⟨busy,absent⟩
      rw [Dict.isEmpty_iff,not_forall] at busy
      obtain ⟨epoch,found⟩ := busy
      have flying : a.directInflight.contains epoch = true := by
        rw [contains_eq_isSome]
        exact isSome_iff_ne_none.mpr found
      exact absent (current epoch flying ▸ flying)
    rw [receive_live quote lanes a delivery tracks.toWired admissible.direct admissible.lane later live,if_neg alone]
    cases stored : (a.heard delivery.barrier.id).get? delivery.lane with
    | some value =>
      have flying := contains_of_heard a _ _ _ stored
      obtain ⟨sender,heard,-⟩ := (tracks.seen _ flying delivery.lane value).mp stored
      have kind := admissible.duplicate value.2 heard
      have redundant : Redundant trace delivery := .inl (kind ▸ heard)
      rw [countDirect_again quote a delivery value stored,if_neg (by simp [← sender,← kind])]
      exact ⟨a,.ignored,rfl,tracks.redundant lanes trace delivery a redundant admissible.lane
        (.inr (.inr (kind ▸ heard))),ignored redundant⟩
    | none =>
      have unheard (endOfData : Bool) : ¬ Heard trace delivery.barrier.id delivery.lane endOfData := by
        intro heard
        have flying := tracks.fresh _ _ _ heard later live
        have found := (tracks.seen _ flying delivery.lane (delivery.lane.sender,endOfData)).mpr ⟨rfl,heard,live⟩
        rw [stored] at found
        contradiction
      have completes := tracks.completes lanes trace delivery a admissible later live unheard
      have fresh := tracks.incomplete lanes trace a delivery.barrier.id later
      rw [countDirect_new quote lanes a delivery tracks.toWired stored]
      by_cases complete : a.Completes delivery
      · rw [if_pos complete]
        exact ⟨_,.aligned,rfl,tracks.aligns lanes trace delivery a admissible later live unheard (completes.mp complete),
          by simp [fresh,completes.mp complete]⟩
      · rw [if_neg complete]
        have waits : ¬ Complete lanes (trace ++ [delivery]) delivery.barrier.id := fun done => complete (completes.mpr done)
        exact ⟨_,.waiting,rfl,tracks.waits lanes trace delivery a admissible later live unheard waits,by simp [waits]⟩

end tracks

section
variable (lanes : List InputChannel) (trace : List Delivery) (delivery : Delivery)
  (admissible : Admissible lanes trace delivery) (epoch : Int)
include admissible epoch

theorem Complete.kept (complete : Complete lanes trace epoch) :
    Complete lanes (trace ++ [delivery]) epoch := by
  have present (lane : InputChannel) (was : Present trace epoch lane) : Present (trace ++ [delivery]) epoch lane := by
    obtain ⟨live,endOfData,heard⟩ := was
    refine ⟨fun ends => ?_,endOfData,(Heard.snoc _ _ _ _ _).mpr (.inl heard)⟩
    rcases (Ended.snoc trace delivery epoch lane).mp ends with old | ⟨rfl,less,-⟩
    · exact live old
    · have order := admissible.order epoch endOfData heard
      omega
  obtain ⟨lane,inside,was⟩ := complete.begun
  refine ⟨⟨lane,inside,present lane was⟩,fun lane inside live => ?_⟩
  exact present lane (complete.all lane inside (fun ends => live ((Ended.snoc _ _ _ _).mpr (.inl ends))))

theorem Complete.before (different : epoch ≠ delivery.barrier.id)
    (complete : Complete lanes (trace ++ [delivery]) epoch) : Complete lanes trace epoch := by
  have present (lane : InputChannel) (now : Present (trace ++ [delivery]) epoch lane) : Present trace epoch lane := by
    obtain ⟨live,endOfData,heard⟩ := now
    refine ⟨fun ends => live ((Ended.snoc _ _ _ _).mpr (.inl ends)),endOfData,?_⟩
    exact ((Heard.snoc _ _ _ _ _).mp heard).resolve_right (fun new => different new.2.1.symm)
  obtain ⟨lane,inside,now⟩ := complete.begun
  have begun := present lane now
  refine ⟨⟨lane,inside,begun⟩,fun other member live => ?_⟩
  by_cases ends : Ended (trace ++ [delivery]) epoch other
  · obtain ⟨same,less,terminal⟩ := ((Ended.snoc _ _ _ _).mp ends).resolve_left live
    subst same
    by_contra missing
    have stale := admissible.oneEpoch epoch different ⟨lane,inside,begun⟩
      (fun done => missing (done.all _ member live))
    rcases stale with ⟨past,le,done⟩ | ⟨past,before,done,heard⟩
    · by_cases ended : Ended trace past delivery.lane
      · obtain ⟨earlier,-,heard⟩ := ended
        exact live ⟨earlier,by have order := admissible.order earlier true heard; omega,heard⟩
      · obtain ⟨-,endOfData,heard⟩ := done.all _ member ended
        have order := admissible.order past endOfData heard
        obtain rfl : past = delivery.barrier.id := by omega
        rw [admissible.duplicate endOfData heard,terminal] at heard
        exact live ⟨_,less,heard⟩
    · exact live ⟨past,by omega,heard⟩
  · exact present other (complete.all other member ends)

end

section runs
variable (quote : String → String)

def deliver (a : BarrierAligner) (delivery : Delivery) : Option BarrierAligner :=
  (receive quote a delivery.copy).toOption.map Prod.fst

/-- The ids for which `receive` returned true, in order. -/
def alignments (a : BarrierAligner) : List Delivery → List Int
  | [] => []
  | delivery::rest =>
    match receive quote a delivery.copy with
    | .ok (next,.aligned) => delivery.barrier.id::alignments next rest
    | .ok (next,_) => alignments next rest
    | .error _ => []

theorem alignments_snoc (a last next : BarrierAligner) (trace : List Delivery) (delivery : Delivery) (outcome : Outcome)
    (run : exec (deliver quote) a trace = some last) (received : receive quote last delivery.copy = .ok (next,outcome)) :
    alignments quote a (trace ++ [delivery]) =
      alignments quote a trace ++ (if outcome = .aligned then [delivery.barrier.id] else []) := by
  induction trace generalizing a with
  | nil =>
    cases some.inj run
    simp only [nil_append,alignments,received]
    cases outcome <;> rfl
  | cons first rest ih =>
    obtain ⟨middle,taken,remaining⟩ := bind_eq_some_iff.mp run
    obtain ⟨result,done,same⟩ := map_eq_some_iff.mp taken
    have step : receive quote a first.copy = .ok result := by
      cases received : receive quote a first.copy with
      | error error => simp [received,Except.toOption] at done
      | ok other => simpa [received,Except.toOption] using done
    obtain ⟨state,how⟩ := result
    cases same
    rw [cons_append]
    cases how <;> simp only [alignments,step,ih state remaining,cons_append]

theorem init_tracks (splits : Dict ExecutionVertexId Nat) (inputs : List ExecutionVertexId)
    (channels : List DeliveryChannel) (start : BarrierAligner)
    (opened : init quote splits (some inputs) (some channels) = .ok start)
    (routes : DistinctRoutes (channels.map .channel)) : Tracks (channels.map .channel) [] start := by
  have silent (epoch : Int) (lane : InputChannel) (endOfData : Bool) : ¬ Heard [] epoch lane endOfData := by
    simp [Heard]
  have incomplete (epoch : Int) : ¬ Complete (channels.map .channel) [] epoch := by
    rintro ⟨⟨lane,-,-,endOfData,heard⟩,-⟩
    exact silent epoch lane endOfData heard
  have senders : (channels.map InputChannel.channel).map InputChannel.sender =
      channels.map DeliveryChannel.senderVertexId := by
    rw [List.map_map]
    rfl
  change reconfigureTerminalInputs quote _ (↑inputs) (some channels) = .ok start at opened
  unfold reconfigureTerminalInputs at opened
  dsimp only at opened
  split at opened
  next => contradiction
  next distinct =>
    split at opened
    next => contradiction
    next matching =>
      cases opened
      constructor
      case toWired =>
        constructor
        case distinct => exact (not_not.mp distinct).map (fun _ _ same => by simpa using same)
        case inputs => exact congrArg some (by rw [senders]; exact (not_not.mp matching).symm)
        case routes => exact routes
        case alone => simp
        case configured => simp [rebuildTerminalInputs,InputChannel.isIn]
        case active => simp [rebuildTerminalInputs,InputChannel.isIn]
        case terminal => simp [rebuildTerminalInputs]
        case terminalDistinct => simp [rebuildTerminalInputs]
        case counted => rfl
      case top => exact .inl rfl
      case done => exact fun epoch complete => absurd complete (incomplete epoch)
      case ended => simp [rebuildTerminalInputs,Ended,silent]
      case known => exact fun _ _ _ heard => absurd heard (silent _ _ _)
      case fresh => exact fun _ _ _ heard => absurd heard (silent _ _ _)
      case single => exact fun _ _ inside => by contradiction
      case underway => exact fun _ inside => by contradiction
      case seen => exact fun _ inside => by contradiction
      case expected => exact fun _ => rfl

theorem orderly_run (lanes : List InputChannel) (start : BarrierAligner) (opened : Tracks lanes [] start)
    (trace : List Delivery) (orderly : Orderly lanes trace) :
    ∃ a, exec (deliver quote) start trace = some a ∧ Tracks lanes trace a ∧ (alignments quote start trace).Nodup ∧
      ∀ epoch, epoch ∈ alignments quote start trace ↔ Complete lanes trace epoch := by
  induction orderly with
  | nil =>
    refine ⟨start,rfl,opened,nodup_nil,fun epoch => ⟨fun inside => by contradiction,fun complete => ?_⟩⟩
    obtain ⟨lane,-,-,endOfData,delivery,inside,-⟩ := complete.begun
    contradiction
  | snoc trace delivery before admissible ih =>
    obtain ⟨a,run,tracks,distinct,listed⟩ := ih
    obtain ⟨next,outcome,received,further,exact'⟩ := tracks.receive lanes trace delivery a quote admissible
    have grown := alignments_snoc quote start a next trace delivery outcome run received
    refine ⟨next,?_,further,?_,fun epoch => ?_⟩
    · rw [exec_append,run]
      simp [deliver,received,Except.toOption]
    · rw [grown]
      split
      next aligned =>
        have fresh := fun inside => (exact'.mp aligned).1 ((listed _).mp inside)
        exact distinct.append (nodup_singleton _) (fun epoch old new => fresh (mem_singleton.mp new ▸ old))
      next => simpa using distinct
    · have kept := Complete.kept lanes trace delivery admissible epoch
      rw [grown,mem_append,listed]
      constructor
      · rintro (old | new)
        · exact kept old
        · split at new
          next aligned =>
            obtain rfl := mem_singleton.mp new
            exact (exact'.mp aligned).2
          next => contradiction
      · intro complete
        by_cases old : Complete lanes trace epoch
        · exact .inl old
        · refine .inr ?_
          by_cases same : epoch = delivery.barrier.id
          · have aligned := exact'.mpr ⟨same ▸ old,same ▸ complete⟩
            rw [if_pos aligned,same]
            exact mem_singleton.mpr rfl
          · exact absurd (Complete.before lanes trace delivery admissible epoch same complete) old

theorem Orderly.last (lanes : List InputChannel) (trace : List Delivery) (delivery : Delivery)
    (orderly : Orderly lanes (trace ++ [delivery])) : Orderly lanes trace ∧ Admissible lanes trace delivery := by
  generalize whole : trace ++ [delivery] = both at orderly
  cases orderly with
  | nil => simp at whole
  | snoc before other earlier admissible =>
    obtain ⟨rfl,same⟩ := append_inj' whole rfl
    obtain rfl : delivery = other := by simpa using same
    exact ⟨earlier,admissible⟩

theorem Orderly.earlier (lanes : List InputChannel) (first rest : List Delivery) (orderly : Orderly lanes (first ++ rest)) :
    Orderly lanes first := by
  induction rest using List.reverseRecOn with
  | nil => simpa using orderly
  | append_singleton rest delivery ih =>
    rw [← append_assoc] at orderly
    exact ih (orderly.last lanes _ delivery).1

/-- `receive` returns true exactly on the delivery that makes every lane present
that had not ended when the epoch started, and once for each epoch. -/
theorem direct_alignment_exact (splits : Dict ExecutionVertexId Nat) (inputs : List ExecutionVertexId)
    (channels : List DeliveryChannel) (start : BarrierAligner)
    (opened : init quote splits (some inputs) (some channels) = .ok start)
    (routes : DistinctRoutes (channels.map .channel)) (trace : List Delivery)
    (orderly : Orderly (channels.map .channel) trace) :
    (∀ before delivery after, trace = before ++ delivery::after → ∃ a next outcome,
      exec (deliver quote) start before = some a ∧ receive quote a delivery.copy = .ok (next,outcome) ∧
        (outcome = .aligned ↔ ¬ Complete (channels.map .channel) before delivery.barrier.id ∧
          Complete (channels.map .channel) (before ++ [delivery]) delivery.barrier.id)) ∧
      (alignments quote start trace).Nodup ∧
      ∀ epoch, epoch ∈ alignments quote start trace ↔ Complete (channels.map .channel) trace epoch := by
  have tracks := init_tracks quote splits inputs channels start opened routes
  refine ⟨fun before delivery after split => ?_,?_⟩
  · subst split
    have upTo : before ++ delivery::after = (before ++ [delivery]) ++ after := by simp
    rw [upTo] at orderly
    obtain ⟨earlier,admissible⟩ := (orderly.earlier _ _ after).last _ before delivery
    obtain ⟨a,run,further,-,-⟩ := orderly_run quote _ start tracks before earlier
    obtain ⟨next,outcome,received,-,exactly⟩ := further.receive _ before delivery a quote admissible
    exact ⟨a,next,outcome,run,received,exactly⟩
  · obtain ⟨_,-,-,distinct,listed⟩ := orderly_run quote _ start tracks trace orderly
    exact ⟨distinct,listed⟩

end runs

section decidable
variable (lanes : List InputChannel) (trace : List Delivery) (delivery : Delivery) (epoch : Int) (lane : InputChannel)

instance (endOfData : Bool) : Decidable (Heard trace epoch lane endOfData) :=
  inferInstanceAs (Decidable (∃ delivery ∈ trace, _))

instance : Decidable (Ended trace epoch lane) :=
  decidable_of_iff (∃ delivery ∈ trace, delivery.barrier.id < epoch ∧ Heard trace delivery.barrier.id lane true)
    ⟨fun ⟨_,_,less,heard⟩ => ⟨_,less,heard⟩,
      fun ⟨_,less,delivery,inside,same,id,ends⟩ => ⟨delivery,inside,id ▸ less,delivery,inside,same,rfl,ends⟩⟩

instance : Decidable (Present trace epoch lane) :=
  inferInstanceAs (Decidable (¬ Ended trace epoch lane ∧ ∃ endOfData, Heard trace epoch lane endOfData))

instance : Decidable (Complete lanes trace epoch) :=
  decidable_of_iff ((∃ lane ∈ lanes, Present trace epoch lane) ∧
      ∀ lane ∈ lanes, ¬ Ended trace epoch lane → Present trace epoch lane)
    ⟨fun both => ⟨both.1,both.2⟩,fun complete => ⟨complete.begun,complete.all⟩⟩

instance : Decidable (Stale lanes trace delivery) := by
  refine decidable_of_iff ((∃ other ∈ trace, delivery.barrier.id ≤ other.barrier.id ∧
      Complete lanes trace other.barrier.id) ∨ ∃ other ∈ trace, other.barrier.id < delivery.barrier.id ∧
      Complete lanes trace other.barrier.id ∧ Heard trace other.barrier.id delivery.lane true) (or_congr ?_ ?_)
  · constructor
    · rintro ⟨other,-,le,complete⟩
      exact ⟨_,le,complete⟩
    · rintro ⟨epoch,le,complete⟩
      obtain ⟨_,-,-,_,other,inside,-,rfl,-⟩ := complete.begun
      exact ⟨other,inside,le,complete⟩
  · constructor
    · rintro ⟨other,-,rest⟩
      exact ⟨_,rest⟩
    · rintro ⟨epoch,less,complete,heard⟩
      obtain ⟨other,inside,-,rfl,-⟩ := id heard
      exact ⟨other,inside,less,complete,heard⟩

instance : Decidable (Admissible lanes trace delivery) := by
  refine decidable_of_iff (delivery.barrier.coordinated = false ∧ delivery.lane ∈ lanes ∧ 0 ≤ delivery.barrier.id ∧
      (∀ other ∈ trace, other.lane = delivery.lane → other.barrier.id ≤ delivery.barrier.id ∧
        (other.barrier.id = delivery.barrier.id → other.barrier.endOfData = delivery.barrier.endOfData)) ∧
      ∀ other ∈ trace, other.barrier.id ≠ delivery.barrier.id → (∃ lane ∈ lanes, Present trace other.barrier.id lane) →
        ¬ Complete lanes trace other.barrier.id → Stale lanes trace delivery) ?_
  constructor
  · rintro ⟨direct,inside,issued,order,oneEpoch⟩
    refine ⟨direct,inside,issued,?_,?_,?_⟩
    · rintro epoch endOfData ⟨other,member,same,rfl,-⟩
      exact (order other member same).1
    · rintro endOfData ⟨other,member,same,id,rfl⟩
      exact (order other member same).2 id
    · intro epoch different begun
      obtain ⟨_,-,-,_,other,member,-,rfl,-⟩ := id begun
      exact oneEpoch other member different begun
  · intro admissible
    refine ⟨admissible.direct,admissible.lane,admissible.issued,fun other member same => ⟨?_,fun id => ?_⟩,
      fun other _ => admissible.oneEpoch other.barrier.id⟩
    · exact admissible.order _ _ ⟨other,member,same,rfl,rfl⟩
    · exact admissible.duplicate _ ⟨other,member,same,id,rfl⟩

end decidable

def direct (epoch : Int) (endOfData : Bool) (channel : DeliveryChannel) : Delivery :=
  ⟨⟨epoch,some channel.senderVertexId,false,endOfData,0⟩,.channel channel⟩

def leftLane : DeliveryChannel := ⟨⟨1,0⟩,"left",0,0,some "e1"⟩
def rightLane : DeliveryChannel := ⟨⟨2,0⟩,"right",0,0,some "e1"⟩

/-- The right lane ends in epoch 1, and epoch 2 aligns on the left one alone. -/
theorem direct_alignment_exact_endedLane : ∃ start,
    init (fun text => text) ∅ (some [⟨1,0⟩,⟨2,0⟩]) (some [leftLane,rightLane]) = .ok start ∧
      alignments (fun text => text) start [direct 1 false leftLane,direct 1 true rightLane,direct 2 false leftLane] = [1,2] ∧
      (alignments (fun text => text) start
        [direct 1 false leftLane,direct 1 true rightLane,direct 2 false leftLane]).Nodup := by
  refine ⟨_,rfl,by decide +kernel,?_⟩
  refine (direct_alignment_exact (fun text => text) ∅ [⟨1,0⟩,⟨2,0⟩] [leftLane,rightLane] _ rfl (by decide) _ ?_).2.1
  refine .snoc [direct 1 false leftLane,direct 1 true rightLane] _ ?_ (by decide +kernel)
  refine .snoc [direct 1 false leftLane] _ ?_ (by decide +kernel)
  exact .snoc [] _ .nil (by decide +kernel)

/-- Two incarnations of one route in one inventory: once one of them has ended, a
delivery on the other makes it count as expected again, and the epoch never aligns. -/
theorem incarnations_strand_epoch : ∃ start a,
    init (fun text => text) ∅ (some [⟨1,0⟩,⟨1,0⟩]) (some [leftLane,{leftLane with topologyEpoch := some "e2"}]) =
        .ok start ∧
      exec (deliver (fun text => text)) start
        [direct 1 false leftLane,direct 1 true {leftLane with topologyEpoch := some "e2"}] = some a ∧
      Orderly [.channel leftLane,.channel {leftLane with topologyEpoch := some "e2"}]
        [direct 1 false leftLane,direct 1 true {leftLane with topologyEpoch := some "e2"},direct 2 false leftLane] ∧
      ¬ Complete [.channel leftLane,.channel {leftLane with topologyEpoch := some "e2"}]
        [direct 1 false leftLane,direct 1 true {leftLane with topologyEpoch := some "e2"}] 2 ∧
      Complete [.channel leftLane,.channel {leftLane with topologyEpoch := some "e2"}]
        [direct 1 false leftLane,direct 1 true {leftLane with topologyEpoch := some "e2"},direct 2 false leftLane] 2 ∧
      (receive (fun text => text) a (direct 2 false leftLane).copy).toOption.map Prod.snd = some .waiting := by
  refine ⟨_,_,rfl,rfl,?_,by decide +kernel,by decide +kernel,by decide +kernel⟩
  refine .snoc [direct 1 false leftLane,direct 1 true {leftLane with topologyEpoch := some "e2"}] _ ?_ (by decide +kernel)
  refine .snoc [direct 1 false leftLane] _ ?_ (by decide +kernel)
  exact .snoc [] _ .nil (by decide +kernel)

end BarrierAligner
end Klein
