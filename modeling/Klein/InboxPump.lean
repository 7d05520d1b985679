import Mathlib.Data.Multiset.AddSub
import Mathlib.Data.Multiset.Count
import Klein.Dict
import Klein.Message

/-! The input gate of an operator's pump (`InboxPump` of `runtime/worker/pump.py`).
A lane closes to admission when its copy of a coordinated barrier is announced
and to processing when that copy is handled, and all lanes open together when
the epoch is finished, discarded or reset. Each `asyncio.Event` is known by the
order of its creation. -/
namespace Klein

inductive PumpError where
  | valueError (message : String)
  | runtimeError (message : String)
deriving DecidableEq, Repr

/-- One item of a task's inbox; `ρ` is every payload that is not a checkpoint barrier. -/
structure InboxEnvelope (ρ : Type) where
  payload : Barrier ⊕ ρ
  senderVertexId : Option ExecutionVertexId
  sequence : Option Int
  deliveryChannel : Option DeliveryChannel
deriving DecidableEq

/-- `delivery_channel or sender_vertex_id` -/
def InboxEnvelope.channel {ρ : Type} (envelope : InboxEnvelope ρ) : Option InputChannel :=
  match envelope.deliveryChannel with
  | some lane => some (.channel lane)
  | none => envelope.senderVertexId.map .vertex

structure InboxPump (ρ : Type) where
  expectedInputs : Multiset ExecutionVertexId
  barrierId : Option Int
  seenInputs : Multiset ExecutionVertexId
  seenChannels : List InputChannel
  announcedChannels : List InputChannel
  admissionResumes : Dict InputChannel Nat
  inputResumes : Dict InputChannel Nat
  held : List (InboxEnvelope ρ)
  ready : List (InboxEnvelope ρ)
  lastCoordinatedBarrierId : Int
  inputChannels : Option (List DeliveryChannel)
  retiredInputChannels : List DeliveryChannel
  events : Nat
  resumed : List Nat

namespace InboxPump
variable {ρ : Type} (quote : String → String)

/-- `_install_checkpoint_inputs` -/
def installCheckpointInputs (pump : InboxPump ρ) (inputVertexIds : List ExecutionVertexId)
    (inputChannels : Option (List DeliveryChannel)) : Except PumpError (InboxPump ρ) :=
  let expected : Multiset ExecutionVertexId := ↑inputVertexIds
  match inputChannels with
  | some channels =>
    if ¬ channels.Nodup then .error (.valueError "checkpoint input channels cannot contain duplicates")
    else if (↑(channels.map DeliveryChannel.senderVertexId) : Multiset ExecutionVertexId) ≠ expected then
      .error (.valueError "checkpoint input channel inventory does not match input vertex multiplicity")
    else
      let dropped := (pump.inputChannels.getD []).filter (· ∉ channels)
      .ok {pump with
        retiredInputChannels := (pump.retiredInputChannels ∪ dropped).filter (· ∉ channels)
        expectedInputs := expected
        inputChannels := some channels}
  | none => .ok {pump with retiredInputChannels := [],expectedInputs := expected,inputChannels := none}

def init (inputVertexIds : List ExecutionVertexId) (inputChannels : Option (List DeliveryChannel)) :
    Except PumpError (InboxPump ρ) :=
  let pump : InboxPump ρ := {
    expectedInputs := ↑inputVertexIds
    barrierId := none
    seenInputs := 0
    seenChannels := []
    announcedChannels := []
    admissionResumes := ∅
    inputResumes := ∅
    held := []
    ready := []
    lastCoordinatedBarrierId := -1
    inputChannels := none
    retiredInputChannels := []
    events := 0
    resumed := []}
  pump.installCheckpointInputs inputVertexIds inputChannels

/-- `_coordinated_checkpoint_channel`; a retired lane has none. -/
def coordinatedCheckpointChannel (pump : InboxPump ρ) (sender : Option ExecutionVertexId)
    (deliveryChannel : Option DeliveryChannel) : Except PumpError (Option (ExecutionVertexId × InputChannel)) :=
  match sender with
  | none => .error (.valueError "a coordinated checkpoint barrier requires a physical sender")
  | some sender =>
    let channel := InputChannel.of sender deliveryChannel
    if ∃ lane ∈ deliveryChannel, lane.senderVertexId ≠ sender then
      .error (.valueError "checkpoint delivery_channel does not match its sender")
    else if channel.isIn pump.retiredInputChannels then .ok none
    else if ∃ configured ∈ pump.inputChannels, ¬ channel.isIn configured then
      .error (.runtimeError ("unexpected checkpoint delivery channel " ++ channel.repr quote))
    else if pump.expectedInputs ≠ 0 ∧ sender ∉ pump.expectedInputs then
      .error (.valueError ("unexpected coordinated checkpoint sender " ++ sender.repr))
    else .ok (some (sender,channel))

def claimEpoch (pump : InboxPump ρ) (barrier : Barrier) : Except PumpError (InboxPump ρ) :=
  match pump.barrierId with
  | none => .ok {pump with barrierId := some barrier.id}
  | some aligning =>
    if aligning ≠ barrier.id then
      .error (.runtimeError ("coordinated checkpoint " ++ toString barrier.id ++ " arrived while " ++
        toString aligning ++ " is aligning"))
    else .ok pump

/-- `_block_checkpoint_input`: the processing gate shares the event of the
admission gate when there is one. -/
def blockCheckpointInput (pump : InboxPump ρ) (channel : InputChannel) : InboxPump ρ :=
  if pump.inputResumes.contains channel then pump
  else match pump.admissionResumes.get? channel with
    | some event => {pump with inputResumes := pump.inputResumes.set channel event}
    | none => {pump with inputResumes := pump.inputResumes.set channel pump.events,events := pump.events + 1}

def countCopy (pump : InboxPump ρ) (sender : ExecutionVertexId) (channel : InputChannel) : InboxPump ρ × Bool :=
  if channel ∈ pump.seenChannels then (pump,false)
  else
    let seenInputs := sender ::ₘ pump.seenInputs
    let counted := blockCheckpointInput {pump with seenChannels := pump.seenChannels ++ [channel],seenInputs} channel
    let expected := if counted.expectedInputs = 0 then {sender} else counted.expectedInputs
    (counted,decide (expected ≤ seenInputs))

/-- `_observe_coordinated_barrier` says whether the epoch is aligned. -/
def observeCoordinatedBarrier (pump : InboxPump ρ) (envelope : InboxEnvelope ρ) :
    Except PumpError (InboxPump ρ × Bool) :=
  match envelope.payload with
  | .inr _ => .ok (pump,false)
  | .inl barrier =>
    if ¬ barrier.coordinated then .ok (pump,false)
    else if barrier.id ≤ pump.lastCoordinatedBarrierId then .ok (pump,false)
    else match coordinatedCheckpointChannel quote pump envelope.senderVertexId envelope.deliveryChannel with
      | .error error => .error error
      | .ok none => .ok (pump,false)
      | .ok (some (sender,channel)) =>
        match pump.claimEpoch barrier with
        | .error error => .error error
        | .ok claimed => .ok (claimed.countCopy sender channel)

/-- Fence later admissions before a coordinated barrier queues; `false` for a
copy that must not be queued again. -/
def announceCoordinatedBarrier (pump : InboxPump ρ) (barrier : Barrier) (sender : Option ExecutionVertexId)
    (deliveryChannel : Option DeliveryChannel) : Except PumpError (InboxPump ρ × Bool) :=
  if ¬ barrier.coordinated then .ok (pump,true)
  else if barrier.id ≤ pump.lastCoordinatedBarrierId then .ok (pump,false)
  else match coordinatedCheckpointChannel quote pump sender deliveryChannel with
    | .error error => .error error
    | .ok none => .ok (pump,false)
    | .ok (some (_,channel)) =>
      match pump.claimEpoch barrier with
      | .error error => .error error
      | .ok claimed =>
        if channel ∈ claimed.announcedChannels then .ok (claimed,false)
        else .ok ({claimed with
          announcedChannels := claimed.announcedChannels ++ [channel]
          admissionResumes := claimed.admissionResumes.set channel claimed.events
          events := claimed.events + 1},true)

/-- `_hold_for_coordinated_checkpoint` -/
def holdForCoordinatedCheckpoint (pump : InboxPump ρ) (envelope : InboxEnvelope ρ) : Bool :=
  match envelope.channel with
  | none => false
  | some channel =>
    pump.inputResumes.contains channel &&
      match envelope.payload with
      | .inl barrier => ¬ (barrier.coordinated ∧ some barrier.id = pump.barrierId)
      | .inr _ => true

def checkpointInputBlocked (pump : InboxPump ρ) (channel : InputChannel) : Bool :=
  pump.admissionResumes.contains channel || pump.inputResumes.contains channel

/-- The event that `wait_for_checkpoint_input` waits for, if it waits. -/
def checkpointInputEvent (pump : InboxPump ρ) (channel : InputChannel) (payload : Barrier ⊕ ρ) : Option Nat :=
  match pump.admissionResumes.get? channel <|> pump.inputResumes.get? channel,payload with
  | none,_ => none
  | some resume,.inl barrier => if barrier.coordinated ∧ some barrier.id = pump.barrierId then none else some resume
  | some resume,.inr _ => some resume

/-- `_release_checkpoint_inputs` -/
def releaseCheckpointInputs (pump : InboxPump ρ) : InboxPump ρ :=
  {pump with
    resumed := pump.resumed ++ pump.admissionResumes.values ++ pump.inputResumes.values
    announcedChannels := []
    admissionResumes := ∅
    inputResumes := ∅
    ready := pump.ready ++ pump.held
    held := []
    seenInputs := 0
    seenChannels := []
    barrierId := none}

/-- `_finish_coordinated_checkpoint` -/
def finishCoordinatedCheckpoint (pump : InboxPump ρ) (barrierId : Int) : InboxPump ρ :=
  if some barrierId ≠ pump.barrierId then pump
  else releaseCheckpointInputs {pump with lastCoordinatedBarrierId := max pump.lastCoordinatedBarrierId barrierId}

def discardCheckpoint (pump : InboxPump ρ) (barrierId : Int) : InboxPump ρ × Nat :=
  let raised := {pump with lastCoordinatedBarrierId := max pump.lastCoordinatedBarrierId barrierId}
  if some barrierId = pump.barrierId then (raised.releaseCheckpointInputs,pump.held.length) else (raised,0)

def resetInflightBefore (pump : InboxPump ρ) (cutoff : Int) : InboxPump ρ × Nat :=
  let raised := {pump with lastCoordinatedBarrierId := max pump.lastCoordinatedBarrierId cutoff}
  match pump.barrierId with
  | none => (raised,0)
  | some aligning => if cutoff < aligning then (raised,0) else (raised.releaseCheckpointInputs,pump.held.length)

/-- `validate_checkpoint_reconfiguration` -/
def validateCheckpointReconfiguration (pump : InboxPump ρ) : Except PumpError Unit :=
  if pump.barrierId.isSome ∨ pump.announcedChannels ≠ [] ∨ ¬ pump.inputResumes.isEmpty then
    .error (.runtimeError "cannot reconfigure checkpoint inputs with a barrier in flight")
  else .ok ()

/-- `reconfigure_checkpoint_inputs` -/
def reconfigureCheckpointInputs (pump : InboxPump ρ) (inputVertexIds : List ExecutionVertexId)
    (inputChannels : Option (List DeliveryChannel)) : Except PumpError (InboxPump ρ) :=
  match pump.validateCheckpointReconfiguration with
  | .error error => .error error
  | .ok () => pump.installCheckpointInputs inputVertexIds inputChannels

end InboxPump
end Klein
