import Mathlib
import Klein.InboxPump
import Klein.Fallible

/-! The gates of a pump under announcements, dequeued envelopes, discards, resets and
reconfigurations in any order. -/
namespace Klein.InboxPump
open Dict Fallible

variable {ρ : Type} (quote : String → String)

inductive GateStep (ρ : Type) where
  | announce (barrier : Barrier) (sender : Option ExecutionVertexId) (lane : Option DeliveryChannel)
  | next (inbox : InboxEnvelope ρ)
  | finish (barrierId : Int)
  | discard (barrierId : Int)
  | reset (cutoff : Int)
  | reconfigure (inputVertexIds : List ExecutionVertexId) (inputChannels : Option (List DeliveryChannel))

def dequeue (pump : InboxPump ρ) (envelope : InboxEnvelope ρ) : Except PumpError (InboxPump ρ) :=
  if pump.holdForCoordinatedCheckpoint envelope then .ok {pump with held := pump.held ++ [envelope]}
  else (observeCoordinatedBarrier quote pump envelope).map Prod.fst

def gateStep (pump : InboxPump ρ) : GateStep ρ → Except PumpError (InboxPump ρ)
  | .announce barrier sender lane => (announceCoordinatedBarrier quote pump barrier sender lane).map Prod.fst
  -- `_next_envelope` prefers what was held and is ready
  | .next inbox => {pump with ready := pump.ready.tail}.dequeue quote (pump.ready.headD inbox)
  | .finish barrierId => .ok (pump.finishCoordinatedCheckpoint barrierId)
  | .discard barrierId => .ok (pump.discardCheckpoint barrierId).1
  | .reset cutoff => .ok (pump.resetInflightBefore cutoff).1
  | .reconfigure vertices channels => pump.reconfigureCheckpointInputs vertices channels

/-- A call that raises leaves the gates as they are. -/
def gateRun (steps : List (GateStep ρ)) (pump : InboxPump ρ) : InboxPump ρ :=
  steps.foldl (fun pump step => (gateStep quote pump step).toOption.getD pump) pump

def Gate (pump : InboxPump ρ) (event : Nat) : Prop :=
  ∃ channel, pump.admissionResumes.get? channel = some event ∨ pump.inputResumes.get? channel = some event

/-- Every event was set or is the gate of a lane of the aligning epoch. -/
structure Gated (pump : InboxPump ρ) : Prop where
  events : ∀ event, event < pump.events ↔ event ∈ pump.resumed ∨ pump.Gate event
  apart : ∀ event ∈ pump.resumed, ¬ pump.Gate event
  announced : ∀ channel event, pump.admissionResumes.get? channel = some event → channel ∈ pump.announcedChannels
  idle : pump.barrierId = none → pump.admissionResumes = ∅ ∧ pump.inputResumes = ∅ ∧ pump.held = []

section steps
variable (pump : InboxPump ρ) (gated : pump.Gated)
include gated

theorem Gated.move (next : InboxPump ρ) (busy : next.barrierId ≠ none) (resumed : next.resumed = pump.resumed)
    (more : pump.events ≤ next.events)
    (gate : ∀ event, next.Gate event ↔ pump.Gate event ∨ pump.events ≤ event ∧ event < next.events)
    (announced : ∀ channel event, next.admissionResumes.get? channel = some event → channel ∈ next.announcedChannels) :
    next.Gated := by
  refine ⟨fun event => ?_,fun event woken => ?_,announced,fun idle => absurd idle busy⟩
  · rw [resumed,gate,← or_assoc,← gated.events]
    omega
  · rw [resumed] at woken
    have old := (gated.events event).mpr (.inl woken)
    rw [gate]
    exact not_or.mpr ⟨gated.apart event woken,by omega⟩

theorem Gated.release : pump.releaseCheckpointInputs.Gated := by
  refine ⟨fun event => ?_,?_,by simp [releaseCheckpointInputs],fun _ => ⟨rfl,rfl,rfl⟩⟩
  · simp [gated.events,Gate,releaseCheckpointInputs,mem_values,exists_or]
  · simp [Gate,releaseCheckpointInputs]

theorem Gated.block (channel : InputChannel) (busy : pump.barrierId ≠ none) : (pump.blockCheckpointInput channel).Gated := by
  unfold blockCheckpointInput
  split
  next => exact gated
  next absent =>
    rw [contains_eq_isSome,Option.not_isSome_iff_eq_none] at absent
    -- the gate shares the event of the admission gate, or gets one of its own
    split
    all_goals
      refine gated.move pump _ busy rfl (by simp) (fun other => ?_) gated.announced
      simp only [Gate,Dict.get?_set]
      grind

theorem Gated.announce (channel : InputChannel) (busy : pump.barrierId ≠ none) (unheard : channel ∉ pump.announcedChannels) :
    {pump with
      announcedChannels := pump.announcedChannels ++ [channel]
      admissionResumes := pump.admissionResumes.set channel pump.events
      events := pump.events + 1}.Gated := by
  have absent (event : Nat) (found : pump.admissionResumes.get? channel = some event) : False :=
    unheard (gated.announced channel event found)
  refine gated.move pump _ busy rfl (Nat.le_succ _) (fun other => ?_) (fun other event => ?_)
  · simp only [Gate,Dict.get?_set]
    grind
  · have := gated.announced other event
    simp only [Dict.get?_set]
    grind

theorem Gated.same (next : InboxPump ρ) (events : next.events = pump.events) (resumed : next.resumed = pump.resumed)
    (announced : next.announcedChannels = pump.announcedChannels) (admission : next.admissionResumes = pump.admissionResumes)
    (input : next.inputResumes = pump.inputResumes)
    (idle : next.barrierId = none → pump.barrierId = none ∧ next.held = pump.held) : next.Gated := by
  obtain ⟨events,apart,announced,idle⟩ := gated
  constructor <;> grind [Gate]

theorem Gated.install (vertices : List ExecutionVertexId) (channels : Option (List DeliveryChannel)) (next : InboxPump ρ)
    (done : pump.installCheckpointInputs vertices channels = .ok next) : next.Gated := by
  have same := gated.same pump
  unfold installCheckpointInputs at done
  grind

theorem Gated.claim (barrier : Barrier) (claimed : InboxPump ρ) (claims : pump.claimEpoch barrier = .ok claimed) :
    claimed.Gated ∧ claimed.barrierId ≠ none := by
  have same := gated.same pump
  unfold claimEpoch at claims
  grind

theorem Gated.dequeue (envelope : InboxEnvelope ρ) (next : InboxPump ρ) (done : pump.dequeue quote envelope = .ok next) :
    next.Gated := by
  unfold InboxPump.dequeue at done
  split at done
  next holds =>
    cases done
    refine {gated with idle := fun idle => ?_}
    unfold holdForCoordinatedCheckpoint at holds
    rw [(gated.idle idle).2.1] at holds
    split at holds <;> cases holds
  next =>
    obtain ⟨result,observed,rfl⟩ := map_ok done
    have claim := gated.claim pump
    have block := @Gated.block ρ
    have same := @Gated.same ρ
    unfold observeCoordinatedBarrier countCopy at observed
    grind

theorem Gated.step (step : GateStep ρ) (next : InboxPump ρ) (done : gateStep quote pump step = .ok next) : next.Gated := by
  have release := @Gated.release ρ
  have same := @Gated.same ρ
  cases step with
  | announce barrier sender lane =>
    obtain ⟨result,announced,rfl⟩ := map_ok done
    have claim := gated.claim pump barrier
    have fenced := @Gated.announce ρ
    unfold announceCoordinatedBarrier at announced
    grind
  | next inbox =>
    exact Gated.dequeue quote {pump with ready := pump.ready.tail} {gated with} _ next done
  | reset cutoff =>
    unfold gateStep resetInflightBefore at done
    cases aligning : pump.barrierId <;> grind
  | finish _ | discard _ =>
    unfold gateStep at done
    grind [finishCoordinatedCheckpoint,discardCheckpoint]
  | reconfigure vertices channels =>
    unfold gateStep reconfigureCheckpointInputs at done
    grind [Gated.install]

end steps

theorem gateRun_gated (start : InboxPump ρ) (gated : start.Gated) (steps : List (GateStep ρ)) :
    (gateRun quote steps start).Gated := by
  induction steps generalizing start with
  | nil => exact gated
  | cons step rest ih =>
    refine ih _ ?_
    dsimp only
    cases taken : gateStep quote start step with
    | error => exact gated
    | ok next => exact gated.step quote start step next taken

/-- However announcements, envelopes, discards, resets and reconfigurations follow each other, a
lane waits only for an event that is still to be set, and when no epoch is aligning every event
was set, no lane is blocked and nothing is held. -/
theorem gates_reopen (vertices : List ExecutionVertexId) (channels : Option (List DeliveryChannel)) (start pump : InboxPump ρ)
    (started : init vertices channels = .ok start) (steps : List (GateStep ρ)) (ran : start.gateRun quote steps = pump) :
    (∀ channel payload event, pump.checkpointInputEvent channel payload = some event →
      pump.barrierId ≠ none ∧ event < pump.events ∧ event ∉ pump.resumed) ∧
    (pump.barrierId = none → (∀ event < pump.events, event ∈ pump.resumed) ∧ pump.held = [] ∧
      ∀ channel, pump.checkpointInputBlocked channel = false) := by
  have opened : start.Gated := by
    apply Gated.install _ _ vertices channels start started
    constructor <;> simp [Gate]
  have gated := gateRun_gated quote start opened steps
  rw [ran] at gated
  refine ⟨fun channel payload event waits => ?_,fun idle => ?_⟩
  · have gate : pump.Gate event := by
      unfold checkpointInputEvent at waits
      refine ⟨channel,?_⟩
      cases admission : pump.admissionResumes.get? channel <;> cases payload <;> grind
    refine ⟨fun idle => ?_,(gated.events event).mpr (.inr gate),fun woken => gated.apart event woken gate⟩
    simp [Gate,gated.idle idle] at gate
  · obtain ⟨admission,input,held⟩ := gated.idle idle
    refine ⟨fun event created => ?_,held,fun channel => ?_⟩
    · exact ((gated.events event).mp created).resolve_right (by simp [Gate,admission,input])
    · rw [checkpointInputBlocked,admission,input]
      rfl

/-- An announced lane of two waits for the event of its own gate. -/
theorem gates_reopen_announced : ∃ start pump : InboxPump Unit, init [⟨1,0⟩,⟨1,1⟩] none = .ok start ∧
    start.gateRun id [.announce ⟨1,none,true,false,0⟩ (some ⟨1,0⟩) none] = pump ∧
    pump.checkpointInputEvent (.vertex ⟨1,0⟩) (.inr ()) = some 0 ∧ pump.barrierId ≠ none ∧ 0 < pump.events ∧ 0 ∉ pump.resumed :=
  ⟨_,_,rfl,rfl,rfl,(gates_reopen id [⟨1,0⟩,⟨1,1⟩] none _ _ rfl _ rfl).1 (.vertex ⟨1,0⟩) (.inr ()) 0 rfl⟩

end Klein.InboxPump
