import Klein.DeliveryJournal
import Klein.Runs
import Klein.WatermarkController

/-! One upstream edge lane and the task it delivers to, as a step function:
`DeliveryJournal`, `DownstreamSender.send_async` and the `EmitPipeline` FIFO on the
sending side, the inbox, accumulator, emit queue and `WatermarkController` on the
receiving side, and the single-task recovery of either side by `RecoveryManager`.
Batches of different sender incarnations are told apart by a ghost incarnation
number that no modelled function reads. -/
namespace Klein.DeliveryLane

structure Config (ρ : Type) where
  targetCount : Nat
  target : Fin targetCount
  measure : RecordMeasure ρ
  senderVertexId : ExecutionVertexId
  senderTaskName : String
  edgeIndex : Nat
  topologyEpoch : Option String
  maxBytes : Int
  maxBytesPositive : 0 < maxBytes
  mode : WatermarkMode
  flushIntervalBatches : Nat
  flushPositive : 0 < flushIntervalBatches

structure Batch where
  incarnation : Nat
  sequence : Int
deriving DecidableEq, Repr

structure Envelope (ρ : Type) where
  batch : Batch
  records : List ρ

inductive Command (ρ : Type) where
  | data (records : List ρ)
  | replay (sequence : Int) (records : List ρ)

/-- The put in flight on the lane. `reply` is the forwarded sequence on its
accepting acknowledgement, once the receiver has admitted the batch. -/
structure Request (ρ : Type) where
  command : Command ρ
  sequence : Int
  reply : Option Int

inductive EmitItem where
  | output (batch : Batch)
  | marker (sender : InputChannel) (sequence : Int)

structure Sender (ρ : Type) (targetCount : Nat) where
  incarnation : Nat
  journal : DeliveryJournal ρ targetCount
  queue : List (Command ρ)
  request : Option (Request ρ)

structure Downstream (ρ : Type) where
  inbox : List (Envelope ρ)
  accumulator : List (Envelope ρ)
  emitQueue : List EmitItem
  watermark : WatermarkController

inductive Phase where
  | running
  | crashed
  | rebuilt
  | replaying
deriving DecidableEq, Repr

/-- The lane. `strays` are puts of a dead sender that the receiver may still
admit; `recorded`, `forwarded` and `accepted` are ghosts: the batches the sender
committed, those whose output left the receiver, and those that the running
receiver admitted. -/
structure State (ρ : Type) (targetCount : Nat) where
  sender : Sender ρ targetCount
  downstream : Option (Downstream ρ)
  phase : Phase
  acknowledgements : List Int
  strays : List (Envelope ρ)
  recorded : List Batch
  forwarded : List Batch
  accepted : List Batch

variable {ρ : Type} (c : Config ρ)

def Config.lane : DeliveryChannel :=
  ⟨c.senderVertexId,c.senderTaskName,c.edgeIndex,c.target,c.topologyEpoch⟩

def Config.channel : InputChannel := .channel c.lane

def freshJournal : DeliveryJournal ρ c.targetCount :=
  {DeliveryJournal.init ρ c.targetCount with
    enabled := true
    senderVertexId := some c.senderVertexId
    senderTaskName := some c.senderTaskName
    edgeIndex := some c.edgeIndex
    topologyEpoch := c.topologyEpoch
    maxBytes := c.maxBytes}

def freshSender (incarnation : Nat) : Sender ρ c.targetCount := ⟨incarnation,freshJournal c,[],none⟩

def freshDownstream : Downstream ρ :=
  ⟨[],[],[],WatermarkController.init c.mode c.flushIntervalBatches c.flushPositive⟩

def initial : State ρ c.targetCount where
  sender := freshSender c 0
  downstream := some (freshDownstream c)
  phase := .running
  acknowledgements := []
  strays := []
  recorded := []
  forwarded := []
  accepted := []

def Command.records : Command ρ → List ρ
  | .data records => records
  | .replay _ records => records

def Command.isReplay : Command ρ → Bool
  | .data _ => false
  | .replay _ _ => true

/-- `replay_sequence if is_replay else journal.next_sequence(target)` -/
def sequenceFor (sender : Sender ρ c.targetCount) : Command ρ → Int
  | .data _ => sender.journal.nextSequence c.target
  | .replay sequence _ => sequence

variable (s : State ρ c.targetCount)

def enqueue (records : List ρ) : Option (State ρ c.targetCount) :=
  some {s with sender := {s.sender with queue := s.sender.queue ++ [.data records]}}

def send : Option (State ρ c.targetCount) :=
  match s.sender.request,s.sender.queue with
  | none,command::rest => some {s with sender := {s.sender with
      queue := rest
      request := some ⟨command,sequenceFor c s.sender command,none⟩}}
  | _,_ => none

/-- A lost put or a lost answer (`ActorUnavailableError`) sends the command again. -/
def retry : Option (State ρ c.targetCount) :=
  match s.sender.request with
  | some request => some {s with sender := {s.sender with
      request := some ⟨request.command,sequenceFor c s.sender request.command,none⟩}}
  | none => none

/-- `StreamTask.put`/`try_put` of a bootstrapped receiver with inbox room. -/
def accept : Option (State ρ c.targetCount) :=
  match s.sender.request,s.downstream with
  | some ⟨command,sequence,none⟩,some down =>
    let batch : Batch := ⟨s.sender.incarnation,sequence⟩
    let piggybacked := down.watermark.forwardedSequenceFor (some c.channel)
    some {s with
      sender := {s.sender with request := some ⟨command,sequence,some piggybacked⟩}
      downstream := some {down with inbox := down.inbox ++ [⟨batch,command.records⟩]}
      accepted := s.accepted ++ [batch]}
  | _,_ => none

/-- `DownstreamSender._on_success`. A full journal fails the sending task, which
ends the run of this lane. -/
def reply : Option (State ρ c.targetCount) :=
  match s.sender.request with
  | some ⟨command,sequence,some watermark⟩ =>
    let journal := s.sender.journal.acknowledge c.target watermark
    match command with
    | .replay _ _ => some {s with sender := {s.sender with journal,request := none}}
    | .data records =>
      match journal.recordDelivery c.measure c.target records sequence with
      | .error _ => none
      | .ok journal => some {s with
          sender := {s.sender with journal,request := none}
          recorded := s.recorded ++ [⟨s.sender.incarnation,sequence⟩]}
  | _ => none

def process : Option (State ρ c.targetCount) :=
  match s.downstream with
  | some down =>
    match down.inbox with
    | envelope::rest => some {s with downstream := some {down with
        inbox := rest
        accumulator := down.accumulator ++ [envelope]
        watermark := (down.watermark.noteProcessed (some c.channel) (some envelope.batch.sequence)).1}}
    | [] => none
  | none => none

def drain : Option (State ρ c.targetCount) :=
  match s.downstream with
  | some down =>
    match down.accumulator with
    | envelope::rest =>
      if down.watermark.mode = .sink then none
      else some {s with downstream := some {down with
        accumulator := rest
        emitQueue := down.emitQueue ++ [.output envelope.batch]}}
    | [] => none
  | none => none

/-- The acknowledgements that `_push_ack` sends to this lane's upstream actor. -/
def pushed (marks : List (InputChannel × Int)) : List Int :=
  (marks.filter (fun mark => mark.1 = c.channel)).map Prod.snd

/-- `WatermarkController.advance`: flush input and output, then publish marks
behind the output (pipelined) or at once (sink). -/
def advance : Option (State ρ c.targetCount) :=
  match s.downstream with
  | none => none
  | some down =>
    let marks := down.watermark.due
    if marks = [] then
      some {s with downstream := some {down with watermark := {down.watermark with batchesSinceFlush := 0}}}
    else if down.watermark.mode = .sink then
      let published := marks.foldl (fun watermark mark => watermark.applyForwarded mark.1 mark.2) down.watermark
      some {s with
        downstream := some {down with accumulator := [],watermark := published.settle marks}
        acknowledgements := s.acknowledgements ++ pushed c marks
        forwarded := s.forwarded ++ down.accumulator.map Envelope.batch}
    else
      some {s with downstream := some {down with
        accumulator := []
        emitQueue := down.emitQueue ++ down.accumulator.map (fun envelope => .output envelope.batch) ++
          marks.map (fun mark => .marker mark.1 mark.2)
        watermark := down.watermark.settle marks}}

def emit : Option (State ρ c.targetCount) :=
  match s.downstream with
  | some down =>
    match down.emitQueue with
    | .output batch::rest => some {s with
        downstream := some {down with emitQueue := rest}
        forwarded := s.forwarded ++ [batch]}
    | .marker sender sequence::rest => some {s with
        downstream := some {down with
          emitQueue := rest
          watermark := down.watermark.applyForwarded sender sequence}
        acknowledgements := s.acknowledgements ++ pushed c [(sender,sequence)]}
    | [] => none
  | none => none

/-- `StreamTask.acknowledge_delivery` on whichever sender is running. -/
def deliverAck (i : Nat) : Option (State ρ c.targetCount) :=
  match s.acknowledgements[i]? with
  | some watermark => some {s with
      sender := {s.sender with journal := s.sender.journal.acknowledge c.target watermark}
      acknowledgements := s.acknowledgements.eraseIdx i}
  | none => none

def loseAck (i : Nat) : Option (State ρ c.targetCount) :=
  some {s with acknowledgements := s.acknowledgements.eraseIdx i}

def crash : Option (State ρ c.targetCount) :=
  if s.phase = .running then some {s with downstream := none,phase := .crashed,accepted := []} else none

/-- `RecoveryManager._bootstrap_vertex` -/
def bootstrap : Option (State ρ c.targetCount) :=
  if s.phase = .crashed then some {s with downstream := some (freshDownstream c),phase := .rebuilt} else none

def replayCommands : List (Command ρ) :=
  (s.sender.journal.pendingFor c.target).map (fun entry => .replay entry.1 entry.2)

/-- `StreamTask.replay_buffered_to`: the buffered batches go behind whatever the
emit FIFO already holds. -/
def extract : Option (State ρ c.targetCount) :=
  if s.phase = .rebuilt then
    some {s with
      sender := {s.sender with queue := s.sender.queue ++ replayCommands c s}
      phase := if (replayCommands c s).isEmpty then .running else .replaying}
  else none

def unsent (sender : Sender ρ c.targetCount) : List Int :=
  (sender.request.toList.map Request.command ++ sender.queue).filterMap fun
    | .data _ => none
    | .replay sequence _ => some sequence

def finishReplay : Option (State ρ c.targetCount) :=
  if s.phase = .replaying ∧ unsent c s.sender = [] then some {s with phase := .running} else none

/-- Single-task recovery of the sending task: an empty journal under the same
channel value. A put of the dead sender may still reach the receiver. -/
def rebuildSender : Option (State ρ c.targetCount) :=
  if s.phase = .running then
    some {s with
      sender := freshSender c (s.sender.incarnation + 1)
      strays := s.strays ++ s.sender.request.toList.filterMap fun request =>
        if request.reply = none then some ⟨⟨s.sender.incarnation,request.sequence⟩,request.command.records⟩ else none}
  else none

def acceptStray (i : Nat) : Option (State ρ c.targetCount) :=
  match s.strays[i]?,s.downstream with
  | some envelope,some down => some {s with
      strays := s.strays.eraseIdx i
      downstream := some {down with inbox := down.inbox ++ [envelope]}
      accepted := s.accepted ++ [envelope.batch]}
  | _,_ => none

inductive Action (ρ : Type) where
  | enqueue (records : List ρ)
  | send
  | retry
  | accept
  | reply
  | process
  | drain
  | advance
  | emit
  | deliverAck (i : Nat)
  | loseAck (i : Nat)
  | crash
  | bootstrap
  | extract
  | finishReplay
  | rebuildSender
  | acceptStray (i : Nat)

def step : Action ρ → Option (State ρ c.targetCount)
  | .enqueue records => enqueue c s records
  | .send => send c s
  | .retry => retry c s
  | .accept => accept c s
  | .reply => reply c s
  | .process => process c s
  | .drain => drain c s
  | .advance => advance c s
  | .emit => emit c s
  | .deliverAck i => deliverAck c s i
  | .loseAck i => loseAck c s i
  | .crash => crash c s
  | .bootstrap => bootstrap c s
  | .extract => extract c s
  | .finishReplay => finishReplay c s
  | .rebuildSender => rebuildSender c s
  | .acceptStray i => acceptStray c s i

end Klein.DeliveryLane
