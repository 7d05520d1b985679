import Klein.InputBatchAccumulator
import Klein.Runs
import Klein.WatermarkController
import Klein.WeightedQueue

/-! The input buffer of a task: its inbox, the byte reservations of its pump
(`runtime/worker/pump.py`) and the accumulator behind it. Which item the pump takes
is open, as the gates of checkpoints decide it; an item that it took is not held
again. A step that raises fails the task and has no successor. The marks that a
pipelined watermark controller publishes go to the emit pipeline, which is not here. -/
namespace Klein

inductive TaskPayload (β : Type) where
  | records (records : List (Record β))
  | barrier
  | endOfData
  | streamControl
  | rescaleBarrier (retired : Bool)
deriving DecidableEq

structure TaskEnvelope (β : Type) where
  payload : TaskPayload β
  channel : Option InputChannel
  sequence : Option Int
deriving DecidableEq

section envelopes
variable {β : Type}

def TaskPayload.isData : TaskPayload β → Bool
  | .records _ => true
  | _ => false

/-- `inbox_envelope_rows` -/
def inboxEnvelopeRows (envelope : TaskEnvelope β) : Nat :=
  match envelope.payload with
  | .records listed => max 1 (listed.map Record.rows).sum
  | _ => 1

inductive InputWork (β : Type) where
  | accept (input : TaskInput β)
  | flush
deriving DecidableEq

/-- `_handle_sync` and `_handle_async`, and `handle_rescale_barrier` of the task. -/
def TaskPayload.work : TaskPayload β → List (InputWork β)
  | .records listed => listed.map (fun record => .accept (.data record))
  | .barrier => [.accept .control]
  | .endOfData => [.accept .control,.flush]
  | .streamControl => [.flush]
  | .rescaleBarrier retired => if retired then [] else [.flush]

end envelopes

inductive PumpPhase (β : Type) where
  | waiting
  | processing (identity : Nat) (envelope : TaskEnvelope β) (todo : List (InputWork β))
  | idling
deriving DecidableEq

inductive RunnerControl where
  | envelope (isData : Bool) (channel : Option InputChannel) (sequence : Option Int)
  | idle
deriving DecidableEq

structure BufferOps (β : Type) extends BlockOps β where
  envelopeSize : TaskPayload β → Nat

/-- `identity` numbers the envelopes; `idled` says that an idle iteration of the pump
has run since the last input was admitted or taken. -/
structure InputBuffer (β : Type) where
  queue : WeightedQueue (Nat × TaskEnvelope β)
  accumulator : InputBatchAccumulator β
  watermark : WatermarkController
  isAsync : Bool
  inflightEnvelopes : Dict Nat Nat
  inflightBytes : Nat
  processingBytes : Nat
  phase : PumpPhase β
  runner : List RunnerControl
  idleFlushPending : Bool
  identity : Nat
  idled : Bool

namespace InputBuffer
variable {β : Type} (ops : BufferOps β)

/-- As `_build_runtime` of the task makes it; both byte limits are the same. -/
def create (runtimeInfo : RuntimeInfo) (isAsync : Bool) (maxWeight maxBytes : Nat) (watermark : WatermarkController) :
    Except String (InputBuffer β) := do
  let accumulator ← InputBatchAccumulator.create runtimeInfo (some maxBytes)
  let queue ← WeightedQueue.create maxWeight (some maxBytes)
  return {
    queue := queue
    accumulator := accumulator
    watermark := watermark
    isAsync := isAsync
    inflightEnvelopes := ∅
    inflightBytes := 0
    processingBytes := 0
    phase := .waiting
    runner := []
    idleFlushPending := false
    identity := 0
    idled := false}

variable (buffer : InputBuffer β)

/-- `_reserved_input_bytes`, which a queue without a byte limit does not ask for. -/
def reservedInputBytes : Nat :=
  if buffer.queue.maxBytes = none then 0
  else buffer.inflightBytes + buffer.processingBytes + buffer.accumulator.bufferedBytes

def canAdmit (envelope : TaskEnvelope β) : Bool :=
  buffer.queue.canAdmit buffer.reservedInputBytes (inboxEnvelopeRows envelope) (ops.envelopeSize envelope.payload)

def admitted (envelope : TaskEnvelope β) : InputBuffer β :=
  {buffer with
    queue := buffer.queue.admitted (buffer.identity,envelope) (inboxEnvelopeRows envelope) (ops.envelopeSize envelope.payload)
    identity := buffer.identity + 1
    idled := false}

def put (envelope : TaskEnvelope β) : Option (InputBuffer β) :=
  if buffer.canAdmit ops envelope then some (buffer.admitted ops envelope) else none

def tryPut (envelope : TaskEnvelope β) : Bool × InputBuffer β :=
  if buffer.canAdmit ops envelope then (true,buffer.admitted ops envelope) else (false,buffer)

/-- `get_matching`, `_reserve_input_envelope` and `_reserve_accumulator_processing` -/
def take (index : Nat) : Option (InputBuffer β) :=
  match buffer.phase,buffer.queue.take index with
  | .waiting,some (((identity,envelope),size),queue) =>
    let reserved := buffer.queue.maxBytes ≠ none
    if reserved ∧ buffer.inflightEnvelopes.contains identity then none
    else some {buffer with
      queue := queue
      inflightEnvelopes := if reserved then buffer.inflightEnvelopes.set identity size else buffer.inflightEnvelopes
      inflightBytes := if reserved then buffer.inflightBytes + size else buffer.inflightBytes
      processingBytes := buffer.accumulator.bufferedBytes
      phase := .processing identity envelope envelope.payload.work
      idled := false}
  | _,_ => none

def work (now later : Int) : Option (InputBuffer β) :=
  match buffer.phase with
  | .processing identity envelope (.accept input::todo) =>
    match buffer.accumulator.accept ops.toBlockOps input now later with
    | .ok (_,accumulator) => some {buffer with
        accumulator := accumulator
        phase := .processing identity envelope todo}
    | .error _ => none
  | .processing identity envelope (.flush::todo) =>
    match buffer.accumulator.flush ops.toBlockOps true now later with
    | .ok (_,accumulator) => some {buffer with
        accumulator := accumulator
        phase := .processing identity envelope todo}
    | .error _ => none
  | _ => none

/-- `WatermarkController.advance`: input is flushed where a mark is due. -/
def advance (now later : Int) : Option (InputBuffer β) :=
  match buffer.watermark.due with
  | [] => some {buffer with watermark := buffer.watermark.settle []}
  | mark::marks =>
    match buffer.accumulator.flush ops.toBlockOps true now later with
    | .error _ => none
    | .ok (_,accumulator) =>
      let published := if buffer.watermark.mode = .sink then
          (mark::marks).foldl (fun watermark mark => watermark.applyForwarded mark.1 mark.2) buffer.watermark
        else buffer.watermark
      some {buffer with
        accumulator := accumulator
        watermark := published.settle (mark::marks)}

/-- The bookkeeping of `_emit_drain_and_watermark`. -/
def note (isData : Bool) (channel : Option InputChannel) (sequence : Option Int) (now later : Int) :
    Option (InputBuffer β) :=
  if isData then
    let (watermark,flushDue) := buffer.watermark.noteProcessed channel sequence
    let noted := {buffer with watermark := watermark}
    if flushDue then noted.advance ops now later else some noted
  else some buffer

/-- `_release_accumulator_processing` and `_release_input_envelope` -/
def release (identity : Nat) : InputBuffer β :=
  {buffer with
    processingBytes := 0
    inflightEnvelopes := buffer.inflightEnvelopes.erase identity
    inflightBytes := buffer.inflightBytes - (buffer.inflightEnvelopes.get? identity).getD 0
    phase := .waiting}

/-- The end of `_process_envelope`; an asynchronous operator leaves the rest to its runner. -/
def finish (now later : Int) : Option (InputBuffer β) :=
  match buffer.phase with
  | .processing identity envelope [] =>
    match envelope.payload with
    | .rescaleBarrier _ => some (buffer.release identity)
    | payload =>
      if buffer.isAsync then
        let control := RunnerControl.envelope payload.isData envelope.channel envelope.sequence
        some ({buffer with runner := buffer.runner ++ [control]}.release identity)
      else (buffer.note ops payload.isData envelope.channel envelope.sequence now later).map (fun noted => noted.release identity)
  | _ => none

def idle (now later : Int) : Option (InputBuffer β) :=
  match buffer.phase,buffer.accumulator.flush ops.toBlockOps false now later with
  | .waiting,.ok (_,accumulator) => some {buffer with
      processingBytes := buffer.accumulator.bufferedBytes
      accumulator := accumulator
      phase := .idling}
  | _,_ => none

def idleDone (now later : Int) : Option (InputBuffer β) :=
  match buffer.phase with
  | .idling =>
    let released := {buffer with
      processingBytes := 0
      phase := .waiting
      idled := true}
    if buffer.isAsync then
      if buffer.idleFlushPending then some released
      else some {released with
        runner := buffer.runner ++ [.idle]
        idleFlushPending := true}
    else released.advance ops now later
  | _ => none

def control (now later : Int) : Option (InputBuffer β) :=
  match buffer.runner with
  | [] => none
  | .envelope isData channel sequence::rest =>
    {buffer with runner := rest}.note ops isData channel sequence now later
  | .idle::rest =>
    {buffer with
      runner := rest
      idleFlushPending := false}.advance ops now later

inductive Label (β : Type) where
  | put (envelope : TaskEnvelope β)
  | putControl (envelope : TaskEnvelope β)
  | take (index : Nat)
  | work (now later : Int)
  | finish (now later : Int)
  | idle (now later : Int)
  | idleDone (now later : Int)
  | control (now later : Int)

def step : Label β → Option (InputBuffer β)
  | .put envelope => buffer.put ops envelope
  | .putControl envelope => some (buffer.admitted ops envelope)
  | .take index => buffer.take index
  | .work now later => buffer.work ops now later
  | .finish now later => buffer.finish ops now later
  | .idle now later => buffer.idle ops now later
  | .idleDone now later => buffer.idleDone ops now later
  | .control now later => buffer.control ops now later

structure Resting : Prop where
  queue : buffer.queue.items = []
  phase : buffer.phase = .waiting
  runner : buffer.runner = []

instance [DecidableEq β] : Decidable buffer.Resting :=
  decidable_of_iff (buffer.queue.items = [] ∧ buffer.phase = .waiting ∧ buffer.runner = [])
    ⟨fun rests => ⟨rests.1,rests.2.1,rests.2.2⟩,fun rests => ⟨rests.queue,rests.phase,rests.runner⟩⟩

end InputBuffer
end Klein
