import Klein.BarrierAligner
import Klein.InboxPump
import Klein.Runs

/-! The pump and the aligner of one task count the copies of a coordinated epoch
apart from each other. Here they are driven with the same envelopes, discards,
resets and reconfigurations, and their books are compared after each. -/
namespace Klein.InboxPump
open Dict Option Runs

structure Gates (ρ : Type) where
  pump : InboxPump ρ
  aligner : BarrierAligner

inductive Gates.Label where
  | envelope (copy : BarrierAligner.Copy)
  | discard (barrierId : Int)
  | resetInflightBefore (cutoff : Int)
  | reconfigure (barrierSplits : Dict ExecutionVertexId Nat) (inputVertexIds : List ExecutionVertexId)
      (inputChannels : Option (List DeliveryChannel))

def enveloped {ρ : Type} (copy : BarrierAligner.Copy) : InboxEnvelope ρ :=
  ⟨.inl copy.barrier,copy.senderVertexId,none,copy.deliveryChannel⟩

variable {ρ : Type} (quote : String → String)

namespace Gates

def init (barrierSplits : Dict ExecutionVertexId Nat) (inputVertexIds : List ExecutionVertexId)
    (inputChannels : Option (List DeliveryChannel)) : Option (Gates ρ) :=
  match InboxPump.init inputVertexIds inputChannels,
      BarrierAligner.init quote barrierSplits (some inputVertexIds) inputChannels with
  | .ok pump,.ok aligner => some ⟨pump,aligner⟩
  | _,_ => none

def PumpAligns (gates : Gates ρ) (copy : BarrierAligner.Copy) : Prop :=
  ∃ pump, observeCoordinatedBarrier quote gates.pump (enveloped copy) = .ok (pump,true)

/-- The aligner's `receive` returns true for this copy. -/
def AlignerAligns (gates : Gates ρ) (copy : BarrierAligner.Copy) : Prop :=
  ∃ aligner, BarrierAligner.receive quote gates.aligner copy = .ok (aligner,.aligned)

/-- One envelope is observed, counted and, when it aligned its epoch, finished
before the next one; a call that raises ends the task. -/
def step (gates : Gates ρ) : Label → Option (Gates ρ)
  | .envelope copy =>
    if copy.barrier.coordinated then
      match observeCoordinatedBarrier quote gates.pump (enveloped copy),BarrierAligner.receive quote gates.aligner copy with
      | .ok (pump,aligned),.ok (aligner,_) =>
        some ⟨if aligned then pump.finishCoordinatedCheckpoint copy.barrier.id else pump,aligner⟩
      | _,_ => none
    else none
  | .discard barrierId => some ⟨(gates.pump.discardCheckpoint barrierId).1,(gates.aligner.discard barrierId).1⟩
  | .resetInflightBefore cutoff =>
    some ⟨(gates.pump.resetInflightBefore cutoff).1,(gates.aligner.resetInflightBefore cutoff).1⟩
  | .reconfigure splits vertices channels =>
    if vertices = [] then none
    else match gates.pump.reconfigureCheckpointInputs vertices channels,
        BarrierAligner.reconfigure quote gates.aligner splits (some vertices) channels with
      | .ok pump,.ok aligner => some ⟨pump,aligner⟩
      | _,_ => none

def Ungated (gates : Gates ρ) : Prop :=
  ∀ channel, gates.pump.checkpointInputBlocked channel = true →
    ∃ epoch, gates.pump.barrierId = some epoch ∧ gates.pump.lastCoordinatedBarrierId < epoch

def Timely (gates : Gates ρ) : Label → Prop
  | .discard barrierId => ∀ epoch ∈ gates.pump.barrierId, barrierId ≤ epoch
  | _ => True

instance (gates : Gates ρ) (label : Label) : Decidable (gates.Timely label) := by
  cases label <;> unfold Timely <;> infer_instance

end Gates

structure Together (pump : InboxPump ρ) (aligner : BarrierAligner) : Prop where
  inputs : pump.expectedInputs = aligner.inputVertexIds
  fed : aligner.inputVertexIds ≠ 0
  channels : pump.inputChannels = aligner.configuredInputChannels
  retired : ∀ lane, lane ∈ pump.retiredInputChannels ↔ lane ∈ aligner.retiredInputChannels
  last : pump.lastCoordinatedBarrierId = aligner.lastCoordinatedBarrierId
  seen : ∀ epoch, aligner.coordinatedInflight.get? epoch =
    if pump.barrierId = some epoch then some pump.seenInputs else none
  lanes : ∀ epoch, aligner.coordinatedChannels.get? epoch =
    if pump.barrierId = some epoch then some pump.seenChannels else none
  short : ∀ epoch, pump.barrierId = some epoch → ¬ pump.expectedInputs ≤ pump.seenInputs
  begun : ∀ epoch, pump.barrierId = some epoch → ∃ sender ∈ pump.expectedInputs, sender ∈ pump.seenInputs
  idle : pump.barrierId = none → pump.seenInputs = 0 ∧ pump.seenChannels = [] ∧
    ∀ channel, pump.checkpointInputBlocked channel = false

theorem isIn_congr (first second : List DeliveryChannel) (same : ∀ lane, lane ∈ first ↔ lane ∈ second)
    (channel : InputChannel) : channel.isIn first = channel.isIn second := by
  cases channel with
  | channel lane => simp only [InputChannel.isIn,same lane]
  | vertex sender => rfl

inductive Taken (pump : InboxPump ρ) (aligner : BarrierAligner) (copy : BarrierAligner.Copy) : Prop where
  | ignored (observed : observeCoordinatedBarrier quote pump (enveloped copy) = .ok (pump,false))
      (received : BarrierAligner.receive quote aligner copy = .ok (aligner,.ignored))
  | raised (error : PumpError) (observed : observeCoordinatedBarrier quote pump (enveloped copy) = .error error)
      (received : ∀ next, BarrierAligner.receive quote aligner copy ≠ .ok (next,.aligned))
  | counted (sender : ExecutionVertexId) (channel : InputChannel) (claimed : InboxPump ρ)
      (later : pump.lastCoordinatedBarrierId < copy.barrier.id)
      (claims : pump.claimEpoch copy.barrier = .ok claimed)
      (expected : sender ∈ pump.expectedInputs) (fresh : channel ∉ pump.seenChannels)
      (observed : observeCoordinatedBarrier quote pump (enveloped copy) = .ok (claimed.countCopy sender channel))
      (received : BarrierAligner.receive quote aligner copy =
        .ok (aligner.countCoordinated copy.barrier.id sender channel))

theorem claimEpoch_ok (pump claimed : InboxPump ρ) (barrier : Barrier) (claims : pump.claimEpoch barrier = .ok claimed) :
    (pump.barrierId = none ∨ pump.barrierId = some barrier.id) ∧
      claimed = {pump with barrierId := some barrier.id} := by
  cases aligning : pump.barrierId with
  | none =>
    simp only [claimEpoch,aligning,Except.ok.injEq] at claims
    exact ⟨.inl rfl,claims.symm⟩
  | some epoch =>
    simp only [claimEpoch,aligning] at claims
    split at claims
    · cases claims
    · rename_i same
      obtain rfl := not_not.mp same
      cases claims
      exact ⟨.inr rfl,by rw [← aligning]⟩

section
variable (pump : InboxPump ρ) (aligner : BarrierAligner) (together : Together pump aligner)
include together

theorem checks_agree (copy : BarrierAligner.Copy) (coordinated : copy.barrier.coordinated = true)
    (later : pump.lastCoordinatedBarrierId < copy.barrier.id) :
    ((∃ error, coordinatedCheckpointChannel quote pump copy.senderVertexId copy.deliveryChannel = .error error) ∧
      ∃ error, BarrierAligner.receive quote aligner copy = .error error) ∨
    (coordinatedCheckpointChannel quote pump copy.senderVertexId copy.deliveryChannel = .ok none ∧
      BarrierAligner.receive quote aligner copy = .ok (aligner,.ignored)) ∨
    ∃ sender channel,
      coordinatedCheckpointChannel quote pump copy.senderVertexId copy.deliveryChannel = .ok (some (sender,channel)) ∧
      sender ∈ pump.expectedInputs ∧
      BarrierAligner.receive quote aligner copy = .ok (aligner.countCoordinated copy.barrier.id sender channel) := by
  have fresh : ¬ copy.barrier.id ≤ aligner.lastCoordinatedBarrierId := by
    rw [← together.last]
    omega
  have fed : pump.expectedInputs ≠ 0 := together.inputs ▸ together.fed
  simp only [BarrierAligner.receive,coordinated,if_true,BarrierAligner.receiveCoordinated,fresh,together.fed,if_false]
  cases copy.senderVertexId with
  | none => exact .inl ⟨⟨_,rfl⟩,_,rfl⟩
  | some sender =>
    simp only [coordinatedCheckpointChannel,BarrierAligner.checkChannel,together.channels,← together.inputs,
      isIn_congr _ _ together.retired]
    by_cases mismatch : ∃ lane ∈ copy.deliveryChannel, lane.senderVertexId ≠ sender
    · simp only [if_pos mismatch]
      exact .inl ⟨⟨_,rfl⟩,_,rfl⟩
    simp only [if_neg mismatch]
    by_cases old : (InputChannel.of sender copy.deliveryChannel).isIn aligner.retiredInputChannels = true
    · simp only [if_pos old]
      exact .inr (.inl ⟨trivial,trivial⟩)
    simp only [if_neg old]
    by_cases outside : ∃ configured ∈ aligner.configuredInputChannels,
        ¬ (InputChannel.of sender copy.deliveryChannel).isIn configured = true
    · simp only [if_pos outside]
      exact .inl ⟨⟨_,rfl⟩,_,rfl⟩
    simp only [if_neg outside]
    by_cases expected : sender ∈ pump.expectedInputs
    · have known : ¬ ∃ inputs ∈ some pump.expectedInputs, sender ∉ inputs := by simpa using expected
      simp only [if_neg known,expected,not_true_eq_false,and_false,if_false]
      exact .inr (.inr ⟨sender,_,rfl,expected,rfl⟩)
    · have unknown : ∃ inputs ∈ some pump.expectedInputs, sender ∉ inputs := ⟨_,rfl,expected⟩
      have rejected : pump.expectedInputs ≠ 0 ∧ sender ∉ pump.expectedInputs := ⟨fed,expected⟩
      simp only [if_pos unknown,if_pos rejected]
      exact .inl ⟨⟨_,rfl⟩,_,rfl⟩

theorem other_epoch_waits
    (aligning other : Int) (current : pump.barrierId = some aligning) (different : aligning ≠ other)
    (sender : ExecutionVertexId) (channel : InputChannel) :
    (aligner.countCoordinated other sender channel).2 ≠ .aligned := by
  have lanes : aligner.coordinatedChannels.get? other = none := by simp [together.lanes,current,different]
  have seen : aligner.coordinatedInflight.get? other = none := by simp [together.seen,current,different]
  have alone : ¬ aligner.inputVertexIds ≤ {sender} := by
    intro single
    have only : aligner.inputVertexIds = {sender} :=
      (Multiset.le_singleton.mp single).resolve_left together.fed
    obtain ⟨begun,expected,counted⟩ := together.begun aligning current
    have isSender : begun = sender := by
      rw [together.inputs,only] at expected
      exact Multiset.mem_singleton.mp expected
    apply together.short aligning current
    rw [together.inputs,only,← isSender]
    exact Multiset.singleton_le.mpr counted
  simp [BarrierAligner.countCoordinated,lanes,seen,alone]

theorem taken (copy : BarrierAligner.Copy) (coordinated : copy.barrier.coordinated = true) :
    Taken quote pump aligner copy := by
  by_cases stale : copy.barrier.id ≤ pump.lastCoordinatedBarrierId
  · have staleToo : copy.barrier.id ≤ aligner.lastCoordinatedBarrierId := together.last ▸ stale
    exact .ignored (by simp [observeCoordinatedBarrier,enveloped,coordinated,stale])
      (by simp [BarrierAligner.receive,BarrierAligner.receiveCoordinated,coordinated,staleToo])
  have later : pump.lastCoordinatedBarrierId < copy.barrier.id := by omega
  rcases checks_agree quote pump aligner together copy coordinated later with
    ⟨⟨error,checked⟩,_,received⟩ | ⟨checked,received⟩ | ⟨sender,channel,checked,expected,received⟩
  · exact .raised error (by simp [observeCoordinatedBarrier,enveloped,coordinated,stale,checked])
      (fun next aligned => by simp [received] at aligned)
  · exact .ignored (by simp [observeCoordinatedBarrier,enveloped,coordinated,stale,checked]) received
  cases claims : pump.claimEpoch copy.barrier with
  | error error =>
    refine .raised error (by simp [observeCoordinatedBarrier,enveloped,coordinated,stale,checked,claims]) ?_
    intro next aligned
    cases current : pump.barrierId with
    | none => simp [claimEpoch,current] at claims
    | some aligning =>
      have different : aligning ≠ copy.barrier.id := by
        intro same
        simp [claimEpoch,current,same] at claims
      apply other_epoch_waits pump aligner together aligning copy.barrier.id current different sender channel
      rw [received] at aligned
      rw [Except.ok.inj aligned]
  | ok claimed =>
    have observed : observeCoordinatedBarrier quote pump (enveloped copy) = .ok (claimed.countCopy sender channel) := by
      simp [observeCoordinatedBarrier,enveloped,coordinated,stale,checked,claims]
    by_cases again : channel ∈ pump.seenChannels
    · obtain ⟨which,rfl⟩ := claimEpoch_ok pump claimed copy.barrier claims
      have current : pump.barrierId = some copy.barrier.id := by
        apply which.resolve_left
        intro none
        rw [(together.idle none).2.1] at again
        cases again
      refine .ignored ?_ ?_
      · rw [observed]
        simp only [countCopy,again,if_true]
        rw [← current]
      · rw [received]
        simp [BarrierAligner.countCoordinated,together.lanes,current,again]
    · exact .counted sender channel claimed later claims expected again observed received

end

section fields
variable (pump : InboxPump ρ) (channel : InputChannel)

@[simp] theorem blockCheckpointInput_barrierId : (pump.blockCheckpointInput channel).barrierId = pump.barrierId := by
  unfold blockCheckpointInput
  split <;> [rfl; split <;> rfl]

@[simp] theorem blockCheckpointInput_seenInputs :
    (pump.blockCheckpointInput channel).seenInputs = pump.seenInputs := by
  unfold blockCheckpointInput
  split <;> [rfl; split <;> rfl]

@[simp] theorem blockCheckpointInput_seenChannels :
    (pump.blockCheckpointInput channel).seenChannels = pump.seenChannels := by
  unfold blockCheckpointInput
  split <;> [rfl; split <;> rfl]

@[simp] theorem blockCheckpointInput_expectedInputs :
    (pump.blockCheckpointInput channel).expectedInputs = pump.expectedInputs := by
  unfold blockCheckpointInput
  split <;> [rfl; split <;> rfl]

@[simp] theorem blockCheckpointInput_inputChannels :
    (pump.blockCheckpointInput channel).inputChannels = pump.inputChannels := by
  unfold blockCheckpointInput
  split <;> [rfl; split <;> rfl]

@[simp] theorem blockCheckpointInput_retiredInputChannels :
    (pump.blockCheckpointInput channel).retiredInputChannels = pump.retiredInputChannels := by
  unfold blockCheckpointInput
  split <;> [rfl; split <;> rfl]

@[simp] theorem blockCheckpointInput_lastCoordinatedBarrierId :
    (pump.blockCheckpointInput channel).lastCoordinatedBarrierId = pump.lastCoordinatedBarrierId := by
  unfold blockCheckpointInput
  split <;> [rfl; split <;> rfl]

end fields

section
variable (pump : InboxPump ρ)
include pump

theorem Together.released (aligner : BarrierAligner)
    (inputs : pump.expectedInputs = aligner.inputVertexIds) (fed : aligner.inputVertexIds ≠ 0)
    (channels : pump.inputChannels = aligner.configuredInputChannels)
    (retired : ∀ lane, lane ∈ pump.retiredInputChannels ↔ lane ∈ aligner.retiredInputChannels)
    (last : pump.lastCoordinatedBarrierId = aligner.lastCoordinatedBarrierId)
    (seen : ∀ epoch, aligner.coordinatedInflight.get? epoch = none)
    (lanes : ∀ epoch, aligner.coordinatedChannels.get? epoch = none) :
    Together pump.releaseCheckpointInputs aligner where
  inputs := inputs
  fed := fed
  channels := channels
  retired := retired
  last := last
  seen := by simpa [releaseCheckpointInputs] using seen
  lanes := by simpa [releaseCheckpointInputs] using lanes
  short := by simp [releaseCheckpointInputs]
  begun := by simp [releaseCheckpointInputs]
  idle := by simp [releaseCheckpointInputs,checkpointInputBlocked,contains_eq_isSome]

theorem Together.count (aligner : BarrierAligner) (together : Together pump aligner)
    (barrier : Barrier) (sender : ExecutionVertexId) (channel : InputChannel) (claimed : InboxPump ρ)
    (later : pump.lastCoordinatedBarrierId < barrier.id) (claims : pump.claimEpoch barrier = .ok claimed)
    (expected : sender ∈ pump.expectedInputs) (fresh : channel ∉ pump.seenChannels) :
    let observed := claimed.countCopy sender channel
    let received := aligner.countCoordinated barrier.id sender channel
    (observed.2 = true ↔ received.2 = .aligned) ∧
      Together (if observed.2 then observed.1.finishCoordinatedCheckpoint barrier.id else observed.1) received.1 := by
  intro observed received
  obtain ⟨which,rfl⟩ := claimEpoch_ok pump claimed barrier claims
  have alone : ∀ epoch, epoch ≠ barrier.id → pump.barrierId ≠ some epoch := by
    intro epoch different current
    rcases which with none | same
    · simp [none] at current
    · exact different (some.inj (current.symm.trans same))
  have counted : (aligner.coordinatedInflight.get? barrier.id).getD 0 = pump.seenInputs := by
    rcases which with none | same
    · simp [together.seen,none,(together.idle none).1]
    · simp [together.seen,same]
  have heard : (aligner.coordinatedChannels.get? barrier.id).getD [] = pump.seenChannels := by
    rcases which with none | same
    · simp [together.lanes,none,(together.idle none).2.1]
    · simp [together.lanes,same]
  have fed : pump.expectedInputs ≠ 0 := together.inputs ▸ together.fed
  by_cases enough : pump.expectedInputs ≤ sender ::ₘ pump.seenInputs
  · have enoughToo : aligner.inputVertexIds ≤ sender ::ₘ pump.seenInputs := together.inputs ▸ enough
    have aligned : observed.2 = true := by simp [observed,countCopy,fresh,fed,enough]
    have alignedToo : received = ({aligner with
        coordinatedInflight := aligner.coordinatedInflight.erase barrier.id
        coordinatedChannels := aligner.coordinatedChannels.erase barrier.id
        lastCoordinatedBarrierId := barrier.id},.aligned) := by
      simp [received,BarrierAligner.countCoordinated,counted,heard,fresh,enoughToo]
    refine ⟨by simp [aligned,alignedToo],?_⟩
    rw [if_pos aligned,alignedToo]
    have current : some barrier.id = observed.1.barrierId := by simp [observed,countCopy,fresh]
    rw [finishCoordinatedCheckpoint,if_neg (not_not.mpr current)]
    refine Together.released _ _ ?_ together.fed ?_ ?_ ?_ ?_ ?_
    · simp [observed,countCopy,fresh,together.inputs]
    · simp [observed,countCopy,fresh,together.channels]
    · simp [observed,countCopy,fresh,together.retired]
    · simp only [observed,countCopy,fresh,if_false,blockCheckpointInput_lastCoordinatedBarrierId]
      omega
    · intro epoch
      by_cases same : epoch = barrier.id
      · simp [same]
      · simp [same,together.seen,alone epoch same]
    · intro epoch
      by_cases same : epoch = barrier.id
      · simp [same]
      · simp [same,together.lanes,alone epoch same]
  · have enoughNot : ¬ aligner.inputVertexIds ≤ sender ::ₘ pump.seenInputs := together.inputs ▸ enough
    have waits : observed.2 = false := by simp [observed,countCopy,fresh,fed,enough]
    have waitsToo : received = ({aligner with
        coordinatedInflight := aligner.coordinatedInflight.set barrier.id (sender ::ₘ pump.seenInputs)
        coordinatedChannels := aligner.coordinatedChannels.set barrier.id (pump.seenChannels ++ [channel])},
        .waiting) := by
      simp [received,BarrierAligner.countCoordinated,counted,heard,fresh,enoughNot]
    refine ⟨by simp [waits,waitsToo],?_⟩
    rw [waits,waitsToo]
    simp only [Bool.false_eq_true,if_false]
    constructor
    · simp [observed,countCopy,fresh,together.inputs]
    · exact together.fed
    · simp [observed,countCopy,fresh,together.channels]
    · simp [observed,countCopy,fresh,together.retired]
    · simp [observed,countCopy,fresh,together.last]
    iterate 2
      intro epoch
      by_cases same : epoch = barrier.id
      · simp [observed,countCopy,fresh,same]
      · simp [observed,countCopy,fresh,same,Ne.symm same,together.seen,together.lanes,alone epoch same]
    · intro epoch _
      simpa [observed,countCopy,fresh] using enough
    · intro epoch _
      exact ⟨sender,by simpa [observed,countCopy,fresh] using expected,by simp [observed,countCopy,fresh]⟩
    · intro none
      simp [observed,countCopy,fresh] at none

theorem Together.discard (aligner : BarrierAligner) (together : Together pump aligner)
    (barrierId : Int) : Together (pump.discardCheckpoint barrierId).1 (aligner.discard barrierId).1 := by
  by_cases current : some barrierId = pump.barrierId
  · rw [discardCheckpoint,if_pos current]
    refine Together.released _ _ together.inputs together.fed together.channels together.retired ?_ ?_ ?_
    · simp [BarrierAligner.discard,together.last]
    all_goals
      intro epoch
      by_cases same : epoch = barrierId
      · simp [BarrierAligner.discard,same]
      · simp [BarrierAligner.discard,same,together.seen,together.lanes,← current,Ne.symm same]
  · rw [discardCheckpoint,if_neg current]
    refine {together with last := ?_,seen := ?_,lanes := ?_}
    · simp [BarrierAligner.discard,together.last]
    all_goals
      intro epoch
      by_cases same : epoch = barrierId
      · simp [BarrierAligner.discard,same,Ne.symm current]
      · simp [BarrierAligner.discard,same,together.seen,together.lanes]

theorem resetInflightBefore_keeps (cutoff : Int)
    (later : ∀ epoch, pump.barrierId = some epoch → cutoff < epoch) :
    (pump.resetInflightBefore cutoff).1 =
      {pump with lastCoordinatedBarrierId := max pump.lastCoordinatedBarrierId cutoff} := by
  unfold resetInflightBefore
  split
  · rfl
  · rename_i aligning current
    rw [if_pos (later aligning current)]

theorem resetInflightBefore_drops (cutoff aligning : Int)
    (current : pump.barrierId = some aligning) (reached : aligning ≤ cutoff) :
    (pump.resetInflightBefore cutoff).1 = releaseCheckpointInputs
      {pump with lastCoordinatedBarrierId := max pump.lastCoordinatedBarrierId cutoff} := by
  unfold resetInflightBefore
  split
  · rename_i none
    rw [none] at current
    cases current
  · rename_i other found
    obtain rfl := some.inj (found.symm.trans current)
    rw [if_neg (by omega)]

theorem Together.reset (aligner : BarrierAligner) (together : Together pump aligner)
    (cutoff : Int) : Together (pump.resetInflightBefore cutoff).1 (aligner.resetInflightBefore cutoff).1 := by
  have last : max pump.lastCoordinatedBarrierId cutoff =
      (aligner.resetInflightBefore cutoff).1.lastCoordinatedBarrierId := by
    simp [BarrierAligner.resetInflightBefore,together.last]
  by_cases later : ∀ epoch, pump.barrierId = some epoch → cutoff < epoch
  · rw [resetInflightBefore_keeps pump cutoff later]
    refine {together with last,seen := ?_,lanes := ?_}
    all_goals
      intro epoch
      by_cases current : pump.barrierId = some epoch
      · simp [BarrierAligner.resetInflightBefore,together.seen,together.lanes,current,later epoch current]
      · simp [BarrierAligner.resetInflightBefore,together.seen,together.lanes,current]
  · simp only [not_forall] at later
    obtain ⟨aligning,current,notLater⟩ := later
    have reached : aligning ≤ cutoff := by omega
    rw [resetInflightBefore_drops pump cutoff aligning current reached]
    refine Together.released _ _ together.inputs together.fed together.channels together.retired last ?_ ?_
    · intro epoch
      by_cases same : aligning = epoch
      · simp [BarrierAligner.resetInflightBefore,← same,reached]
      · simp [BarrierAligner.resetInflightBefore,together.seen,current,same]
    · intro epoch
      by_cases same : aligning = epoch
      · simp [BarrierAligner.resetInflightBefore,together.lanes,current,← same,reached,contains_eq_isSome,
          together.seen]
      · simp [BarrierAligner.resetInflightBefore,together.lanes,current,same]

end

theorem Together.installed (pump next : InboxPump ρ) (aligner ready : BarrierAligner)
    (vertices : List ExecutionVertexId) (channels : Option (List DeliveryChannel)) (fed : vertices ≠ [])
    (before : pump.inputChannels = aligner.configuredInputChannels)
    (retired : ∀ lane, lane ∈ pump.retiredInputChannels ↔ lane ∈ aligner.retiredInputChannels)
    (last : pump.lastCoordinatedBarrierId = aligner.lastCoordinatedBarrierId)
    (inputs : aligner.inputVertexIds = ↑vertices)
    (seen : ∀ epoch, aligner.coordinatedInflight.get? epoch = none)
    (lanes : ∀ epoch, aligner.coordinatedChannels.get? epoch = none)
    (quiet : pump.barrierId = none) (empty : pump.seenInputs = 0 ∧ pump.seenChannels = [] ∧
      ∀ channel, pump.checkpointInputBlocked channel = false)
    (installs : pump.installCheckpointInputs vertices channels = .ok next)
    (installsToo : aligner.reconfigureTerminalInputs quote ↑vertices channels = .ok ready) :
    Together next ready := by
  cases channels with
  | none =>
    cases installs
    cases installsToo
    exact {
      inputs := inputs.symm
      fed := by simpa [BarrierAligner.rebuildTerminalInputs,inputs] using fed
      channels := rfl
      retired := fun lane => Iff.rfl
      last := last
      seen := by simpa [quiet,BarrierAligner.rebuildTerminalInputs] using seen
      lanes := by simpa [quiet,BarrierAligner.rebuildTerminalInputs] using lanes
      short := by simp [quiet]
      begun := by simp [quiet]
      idle := fun _ => empty}
  | some listed =>
    simp only [installCheckpointInputs] at installs
    simp only [BarrierAligner.reconfigureTerminalInputs] at installsToo
    split at installs
    · cases installs
    rename_i distinct
    rw [if_neg distinct] at installsToo
    split at installs
    · cases installs
    rename_i multiplicity
    rw [if_neg multiplicity] at installsToo
    cases installs
    cases installsToo
    exact {
      inputs := inputs.symm
      fed := by simpa [BarrierAligner.rebuildTerminalInputs,inputs] using fed
      channels := rfl
      retired := by
        intro lane
        simp [BarrierAligner.rebuildTerminalInputs,before,retired,or_comm]
      last := last
      seen := by simpa [quiet,BarrierAligner.rebuildTerminalInputs] using seen
      lanes := by simpa [quiet,BarrierAligner.rebuildTerminalInputs] using lanes
      short := by simp [quiet]
      begun := by simp [quiet]
      idle := fun _ => empty}

theorem Together.init (splits : Dict ExecutionVertexId Nat) (vertices : List ExecutionVertexId)
    (channels : Option (List DeliveryChannel)) (fed : vertices ≠ []) (start : Gates ρ)
    (starts : Gates.init quote splits vertices channels = some start) : Together start.pump start.aligner := by
  simp only [Gates.init] at starts
  split at starts
  case h_2 => cases starts
  case h_1 pump aligner installs installsToo =>
    cases starts
    cases channels with
    | none =>
      cases installs
      cases installsToo
      exact {
        inputs := rfl
        fed := by simpa using fed
        channels := rfl
        retired := fun lane => Iff.rfl
        last := rfl
        seen := by simp
        lanes := by simp
        short := by simp
        begun := by simp
        idle := fun _ => ⟨rfl,rfl,fun _ => rfl⟩}
    | some listed =>
      exact Together.installed quote _ pump _ aligner vertices (some listed) fed rfl (fun lane => Iff.rfl) rfl rfl
        (fun epoch => rfl) (fun epoch => rfl) rfl ⟨rfl,rfl,fun _ => rfl⟩ installs installsToo

theorem Together.reconfigure (gates next : Gates ρ) (together : Together gates.pump gates.aligner)
    (splits : Dict ExecutionVertexId Nat) (vertices : List ExecutionVertexId)
    (channels : Option (List DeliveryChannel))
    (taken : gates.step quote (.reconfigure splits vertices channels) = some next) :
    next.pump.barrierId = none ∧ Together next.pump next.aligner := by
  simp only [Gates.step] at taken
  split at taken
  · cases taken
  rename_i fed
  split at taken
  case h_2 => cases taken
  case h_1 pump aligner installs installsToo =>
    cases taken
    have quiet : gates.pump.barrierId = none := by
      by_contra aligning
      have refused : gates.pump.barrierId.isSome ∨ gates.pump.announcedChannels ≠ [] ∨
          ¬ gates.pump.inputResumes.isEmpty := .inl (isSome_iff_ne_none.mpr aligning)
      simp only [reconfigureCheckpointInputs,validateCheckpointReconfiguration,if_pos refused] at installs
      cases installs
    have installed : gates.pump.installCheckpointInputs vertices channels = .ok pump := by
      unfold reconfigureCheckpointInputs at installs
      split at installs
      · cases installs
      · exact installs
    simp only [BarrierAligner.reconfigure,BarrierAligner.reconfigureInputs] at installsToo
    split at installsToo
    · cases installsToo
    let emptied : BarrierAligner := {gates.aligner with
      split := splits,inputVertexIds := ↑vertices,directInputVertexIds := some ↑vertices}
    cases ready : emptied.reconfigureTerminalInputs quote ↑vertices channels with
    | error error => simp [emptied,ready,Except.map] at installsToo
    | ok ready' =>
      simp only [emptied,ready,Except.map,Except.ok.injEq] at installsToo
      have both : Together pump ready' :=
        Together.installed quote gates.pump pump emptied ready' vertices channels fed together.channels
          together.retired together.last rfl (fun epoch => by simp [emptied,together.seen,quiet])
          (fun epoch => by simp [emptied,together.lanes,quiet]) quiet (together.idle quiet) installed ready
      subst installsToo
      refine ⟨?_,{both with}⟩
      cases channels with
      | none =>
        cases installed
        exact quiet
      | some listed =>
        simp only [installCheckpointInputs] at installed
        split at installed
        · cases installed
        split at installed
        · cases installed
        cases installed
        exact quiet

def Live (pump : InboxPump ρ) : Prop :=
  ∀ epoch, pump.barrierId = some epoch →
    pump.lastCoordinatedBarrierId < epoch ∧ ∃ channel, pump.checkpointInputBlocked channel = true

theorem live_of_none (pump : InboxPump ρ) (none : pump.barrierId = none) : Live pump := by
  intro epoch current
  rw [none] at current
  cases current

theorem blockCheckpointInput_blocks (pump : InboxPump ρ) (channel : InputChannel) :
    (pump.blockCheckpointInput channel).checkpointInputBlocked channel = true := by
  unfold blockCheckpointInput
  split
  · rename_i present
    simp [checkpointInputBlocked,present]
  · split <;> simp [checkpointInputBlocked,contains_eq_isSome]

theorem countCopy_barrierId (pump claimed : InboxPump ρ) (barrier : Barrier) (sender : ExecutionVertexId)
    (channel : InputChannel) (claims : pump.claimEpoch barrier = .ok claimed) (fresh : channel ∉ pump.seenChannels) :
    (claimed.countCopy sender channel).1.barrierId = some barrier.id := by
  obtain ⟨_,rfl⟩ := claimEpoch_ok pump claimed barrier claims
  simp [countCopy,fresh]

theorem finish_barrierId (pump : InboxPump ρ) (barrierId : Int) (current : pump.barrierId = some barrierId) :
    (pump.finishCoordinatedCheckpoint barrierId).barrierId = none := by
  rw [finishCoordinatedCheckpoint,if_neg (not_not.mpr current.symm)]
  rfl

theorem countCopy_live (pump claimed : InboxPump ρ) (barrier : Barrier) (sender : ExecutionVertexId)
    (channel : InputChannel) (later : pump.lastCoordinatedBarrierId < barrier.id)
    (claims : pump.claimEpoch barrier = .ok claimed) (fresh : channel ∉ pump.seenChannels) :
    Live (claimed.countCopy sender channel).1 := by
  intro epoch current
  rw [countCopy_barrierId pump claimed barrier sender channel claims fresh,Option.some.injEq] at current
  subst current
  obtain ⟨_,rfl⟩ := claimEpoch_ok pump claimed barrier claims
  refine ⟨by simpa [countCopy,fresh] using later,channel,?_⟩
  simp only [countCopy,fresh,if_false]
  exact blockCheckpointInput_blocks _ channel

namespace Gates

def Steady (gates : Gates ρ) : Prop := Together gates.pump gates.aligner ∧ Live gates.pump

theorem Steady.ungated (gates : Gates ρ) (steady : gates.Steady) : gates.Ungated := by
  intro channel blocked
  cases current : gates.pump.barrierId with
  | none =>
    rw [(steady.1.idle current).2.2 channel] at blocked
    cases blocked
  | some epoch => exact ⟨epoch,rfl,(steady.2 epoch current).1⟩

theorem step_envelope (gates : Gates ρ) (copy : BarrierAligner.Copy) (coordinated : copy.barrier.coordinated = true)
    (observed : InboxPump ρ × Bool) (received : BarrierAligner × Outcome)
    (observes : observeCoordinatedBarrier quote gates.pump (enveloped copy) = .ok observed)
    (receives : BarrierAligner.receive quote gates.aligner copy = .ok received) :
    gates.step quote (.envelope copy) =
      some ⟨if observed.2 then observed.1.finishCoordinatedCheckpoint copy.barrier.id else observed.1,received.1⟩ := by
  simp [step,coordinated,observes,receives]

theorem step_together (gates next : Gates ρ) (label : Label) (together : Together gates.pump gates.aligner)
    (stepped : gates.step quote label = some next) : Together next.pump next.aligner := by
  cases label with
  | envelope copy =>
    by_cases coordinated : copy.barrier.coordinated = true
    case neg => simp [step,coordinated] at stepped
    case pos =>
      cases taken quote gates.pump gates.aligner together copy coordinated with
      | ignored observed received =>
        rw [step_envelope quote gates copy coordinated _ _ observed received] at stepped
        obtain rfl := some.inj stepped
        exact together
      | raised error observed received => simp [step,coordinated,observed] at stepped
      | counted sender channel claimed later claims expected fresh observed received =>
        rw [step_envelope quote gates copy coordinated _ _ observed received] at stepped
        obtain rfl := some.inj stepped
        exact (Together.count gates.pump gates.aligner together copy.barrier sender channel claimed later claims expected
          fresh).2
  | discard barrierId =>
    cases stepped
    exact together.discard _ _ barrierId
  | resetInflightBefore cutoff =>
    cases stepped
    exact together.reset _ _ cutoff
  | reconfigure splits vertices channels =>
    exact (Together.reconfigure quote gates next together splits vertices channels stepped).2

theorem step_live (gates next : Gates ρ) (label : Label) (steady : gates.Steady) (timely : gates.Timely label)
    (stepped : gates.step quote label = some next) : Live next.pump := by
  obtain ⟨together,live⟩ := steady
  cases label with
  | envelope copy =>
    by_cases coordinated : copy.barrier.coordinated = true
    case neg => simp [step,coordinated] at stepped
    case pos =>
      cases taken quote gates.pump gates.aligner together copy coordinated with
      | ignored observed received =>
        rw [step_envelope quote gates copy coordinated _ _ observed received] at stepped
        obtain rfl := some.inj stepped
        exact live
      | raised error observed received => simp [step,coordinated,observed] at stepped
      | counted sender channel claimed later claims expected fresh observed received =>
        rw [step_envelope quote gates copy coordinated _ _ observed received] at stepped
        obtain rfl := some.inj stepped
        by_cases aligned : (claimed.countCopy sender channel).2 = true
        · simp only [aligned,if_true]
          exact live_of_none _ (finish_barrierId _ copy.barrier.id
            (countCopy_barrierId gates.pump claimed copy.barrier sender channel claims fresh))
        · simp only [aligned]
          exact countCopy_live gates.pump claimed copy.barrier sender channel later claims fresh
  | discard barrierId =>
    cases stepped
    by_cases current : some barrierId = gates.pump.barrierId
    · rw [discardCheckpoint,if_pos current]
      exact live_of_none _ rfl
    · rw [discardCheckpoint,if_neg current]
      intro epoch aligning
      have reached := timely epoch aligning
      have different : barrierId ≠ epoch := fun same => current (by rw [same,← aligning])
      obtain ⟨later,blocked⟩ := live epoch aligning
      exact ⟨Int.max_lt.mpr ⟨later,by omega⟩,blocked⟩
  | resetInflightBefore cutoff =>
    cases stepped
    by_cases later : ∀ epoch, gates.pump.barrierId = some epoch → cutoff < epoch
    · rw [resetInflightBefore_keeps _ cutoff later]
      intro epoch aligning
      obtain ⟨after,blocked⟩ := live epoch aligning
      exact ⟨Int.max_lt.mpr ⟨after,later epoch aligning⟩,blocked⟩
    · simp only [not_forall] at later
      obtain ⟨aligning,current,notLater⟩ := later
      rw [resetInflightBefore_drops _ cutoff aligning current (by omega)]
      exact live_of_none _ rfl
  | reconfigure splits vertices channels =>
    exact live_of_none _ (Together.reconfigure quote gates next together splits vertices channels stepped).1

theorem late_discard_gates (gates : Gates ρ) (live : Live gates.pump) (barrierId : Int)
    (ungated : Ungated ⟨(gates.pump.discardCheckpoint barrierId).1,(gates.aligner.discard barrierId).1⟩) :
    gates.Timely (.discard barrierId) := by
  intro epoch aligning
  by_contra late
  have different : ¬ some barrierId = gates.pump.barrierId := by
    rw [aligning]
    intro same
    have := some.inj same
    omega
  obtain ⟨_,channel,blocked⟩ := live epoch aligning
  simp only [Ungated,discardCheckpoint,if_neg different] at ungated
  obtain ⟨other,current,after⟩ := ungated channel blocked
  obtain rfl := some.inj (current.symm.trans aligning)
  omega

theorem step_ungated (gates next : Gates ρ) (label : Label) (steady : gates.Steady)
    (stepped : gates.step quote label = some next) : next.Ungated ↔ gates.Timely label := by
  constructor
  · intro ungated
    cases label with
    | discard barrierId =>
      cases stepped
      exact late_discard_gates gates steady.2 barrierId ungated
    | _ => trivial
  · intro timely
    exact Steady.ungated next
      ⟨step_together quote gates next label steady.1 stepped,step_live quote gates next label steady timely stepped⟩

theorem aligns_iff (gates : Gates ρ) (together : Together gates.pump gates.aligner) (copy : BarrierAligner.Copy)
    (coordinated : copy.barrier.coordinated = true) : gates.PumpAligns quote copy ↔ gates.AlignerAligns quote copy := by
  cases taken quote gates.pump gates.aligner together copy coordinated with
  | ignored observed received => simp [PumpAligns,AlignerAligns,observed,received]
  | raised error observed received =>
    constructor
    · rintro ⟨pump,aligned⟩
      rw [observed] at aligned
      cases aligned
    · rintro ⟨aligner,aligned⟩
      exact absurd aligned (received aligner)
  | counted sender channel claimed later claims expected fresh observed received =>
    have both := (Together.count gates.pump gates.aligner together copy.barrier sender channel claimed later claims
      expected fresh).1
    constructor
    · rintro ⟨pump,aligned⟩
      rw [observed] at aligned
      exact ⟨_,by rw [received,← both.mp (congrArg Prod.snd (Except.ok.inj aligned))]⟩
    · rintro ⟨aligner,aligned⟩
      rw [received] at aligned
      exact ⟨_,by rw [observed,← both.mpr (congrArg Prod.snd (Except.ok.inj aligned))]⟩

def StaysUngated (start : Gates ρ) (labels : List Label) : Prop :=
  Along (step quote) (fun gates label => ∀ next ∈ gates.step quote label, next.Ungated) start labels

theorem staysUngated_iff (labels : List Label) (start : Gates ρ) (steady : start.Steady) (final : Gates ρ)
    (run : exec (step quote) start labels = some final) :
    start.StaysUngated quote labels ↔ Along (step quote) Timely start labels := by
  induction labels generalizing start with
  | nil => exact Iff.rfl
  | cons label rest ih =>
    obtain ⟨next,stepped,remaining⟩ := bind_eq_some_iff.mp run
    have here := step_ungated quote start next label steady stepped
    have later (timely : start.Timely label) : next.StaysUngated quote rest ↔ Along (step quote) Timely next rest :=
      ih next ⟨step_together quote start next label steady.1 stepped,
        step_live quote start next label steady timely stepped⟩ remaining
    simp only [StaysUngated,Along,stepped,mem_def,Option.some.injEq,forall_eq']
    constructor
    · rintro ⟨ungated,stays⟩
      exact ⟨here.mp ungated,(later (here.mp ungated)).mp stays⟩
    · rintro ⟨timely,along⟩
      exact ⟨here.mpr timely,(later timely).mpr along⟩

theorem init_steady (splits : Dict ExecutionVertexId Nat) (vertices : List ExecutionVertexId)
    (channels : Option (List DeliveryChannel)) (fed : vertices ≠ []) (start : Gates ρ)
    (starts : init quote splits vertices channels = some start) : start.Steady := by
  refine ⟨Together.init quote splits vertices channels fed start starts,live_of_none _ ?_⟩
  simp only [init] at starts
  split at starts
  case h_2 => cases starts
  case h_1 pump aligner installs _ =>
    cases starts
    simp only [InboxPump.init,installCheckpointInputs] at installs
    split at installs
    · split at installs
      · cases installs
      split at installs
      · cases installs
      cases installs
      rfl
    · cases installs
      rfl

/-- Over every run the pump and the aligner align the same copies, and no lane
stays gated for a finalized epoch exactly when no discard of the run names an
epoch after the one that is aligning. -/
theorem gates_agree (splits : Dict ExecutionVertexId Nat) (vertices : List ExecutionVertexId)
    (channels : Option (List DeliveryChannel)) (fed : vertices ≠ []) (start : Gates ρ)
    (starts : init quote splits vertices channels = some start) (labels : List Label) (final : Gates ρ)
    (run : exec (step quote) start labels = some final) :
    (∀ copy : BarrierAligner.Copy, copy.barrier.coordinated = true →
      (final.PumpAligns quote copy ↔ final.AlignerAligns quote copy)) ∧
    (start.StaysUngated quote labels ↔ Along (step quote) Timely start labels) := by
  have steady := init_steady quote splits vertices channels fed start starts
  refine ⟨?_,staysUngated_iff quote labels start steady final run⟩
  intro copy coordinated
  have reached : Together final.pump final.aligner :=
    exec_invariant (step quote) (fun _ _ => True) (fun gates => Together gates.pump gates.aligner)
      (fun gates label next kept _ stepped => step_together quote gates next label kept stepped) labels start final
      steady.1 (Along.of_forall _ _ labels (fun _ _ _ => trivial) start) run
  exact aligns_iff quote final reached copy coordinated

section twoLanes

def lane (index : Nat) : DeliveryChannel := ⟨⟨1,index⟩,"map",0,0,none⟩

def copyOn (index : Nat) (epoch : Int) : BarrierAligner.Copy :=
  ⟨⟨epoch,none,true,false,0⟩,some ⟨1,index⟩,some (lane index)⟩

def twoLanes : Option (Gates Unit) := init id ∅ [⟨1,0⟩,⟨1,1⟩] (some [lane 0,lane 1])

def secondAligns : List Label :=
  [.envelope (copyOn 0 1),.envelope (copyOn 0 1),.discard 1,.envelope (copyOn 1 1),.envelope (copyOn 1 2),
    .envelope (copyOn 0 2),.resetInflightBefore 2]

theorem gates_agree_twoLanes : ∃ start final, twoLanes = some start ∧
    exec (step id) start secondAligns = some final ∧ start.StaysUngated id secondAligns ∧
    (final.PumpAligns id (copyOn 0 3) ↔ final.AlignerAligns id (copyOn 0 3)) := by
  obtain ⟨start,final,starts,run,timely⟩ := exec_check_built (step id) twoLanes secondAligns
    (fun start _ => Along (step id) Timely start secondAligns) (by decide +kernel)
  have agree := gates_agree id ∅ [⟨1,0⟩,⟨1,1⟩] (some [lane 0,lane 1]) (by decide) start starts secondAligns final run
  exact ⟨start,final,starts,run,agree.2.mpr timely,agree.1 (copyOn 0 3) rfl⟩

/-- The discard of epoch 2 finalizes epoch 1 while its first lane stays gated. -/
theorem later_discard_strands_lane : ∃ start final, twoLanes = some start ∧
    exec (step id) start [.envelope (copyOn 0 1),.discard 2] = some final ∧ ¬ final.Ungated := by
  obtain ⟨start,final,starts,run,blocked,aligning,last⟩ := exec_check_built (step id) twoLanes
    [.envelope (copyOn 0 1),.discard 2] (fun _ final => final.pump.checkpointInputBlocked (.channel (lane 0)) = true ∧
      final.pump.barrierId = some 1 ∧ final.pump.lastCoordinatedBarrierId = 2) (by decide +kernel)
  refine ⟨start,final,starts,run,?_⟩
  intro ungated
  obtain ⟨epoch,current,later⟩ := ungated _ blocked
  obtain rfl := some.inj (aligning.symm.trans current)
  rw [last] at later
  cases later

end twoLanes

end Gates
end Klein.InboxPump
