import Mathlib.Data.Multiset.AddSub
import Mathlib.Data.Multiset.Count
import Klein.Dict
import Klein.Message

/-! Barrier alignment of one operator (`_BarrierAligner` of
`runtime/coordinator/checkpoint_strategy.py`). Copies of a barrier are counted
per source, per coordinated epoch over every physical input, or per direct
epoch with end-of-data lanes taken out. Counters are multisets of vertices, and
a call that raises ends the run of its task. -/
namespace Klein

inductive AlignerError where
  | valueError (message : String)
  | runtimeError (message : String)
deriving DecidableEq, Repr

/-- What became of one copy. The source returns `True` for `aligned` and `False`
for the other two: `waiting` counted the copy, `ignored` did not. -/
inductive Outcome where
  | aligned
  | waiting
  | ignored
deriving DecidableEq, Repr

structure BarrierAligner where
  split : Dict ExecutionVertexId Nat
  inflight : Dict Int Nat
  inputVertexIds : Multiset ExecutionVertexId
  coordinatedInflight : Dict Int (Multiset ExecutionVertexId)
  coordinatedChannels : Dict Int (List InputChannel)
  lastCoordinatedBarrierId : Int
  directInputVertexIds : Option (Multiset ExecutionVertexId)
  directInflight : Dict Int (Dict InputChannel (ExecutionVertexId × Bool))
  directExpected : Dict Int (Multiset ExecutionVertexId)
  directResolvedThrough : Int
  terminalInputs : Multiset ExecutionVertexId
  terminalInputChannels : List InputChannel
  retiredTerminalInputChannels : List InputChannel
  retiredInputChannels : List DeliveryChannel
  configuredInputChannels : Option (List DeliveryChannel)
  lastAlignedId : Option Int
  lastAlignmentIsTerminal : Bool
  eofFromSrc : Dict ExecutionVertexId Bool

namespace BarrierAligner

def rebuildTerminalInputs (a : BarrierAligner) : BarrierAligner :=
  {a with terminalInputs := ↑(a.terminalInputChannels.map InputChannel.sender)}

/-- The lanes whose end of data survives without a channel inventory: at most
the new multiplicity of each sender, in the order of their `repr`. -/
def retainByMultiplicity (remaining : Multiset ExecutionVertexId) : List InputChannel → List InputChannel
  | [] => []
  | channel::rest =>
    if channel.sender ∈ remaining then channel::retainByMultiplicity (remaining.erase channel.sender) rest
    else retainByMultiplicity remaining rest

variable (quote : String → String)

def sortedByRepr (channels : List InputChannel) : List InputChannel :=
  channels.mergeSort (fun left right => decide (left.repr quote ≤ right.repr quote))

/-- `_reconfigure_terminal_inputs` -/
def reconfigureTerminalInputs (a : BarrierAligner) (inputs : Multiset ExecutionVertexId)
    (inputChannels : Option (List DeliveryChannel)) : Except AlignerError BarrierAligner :=
  let install (candidates retained : List InputChannel) (retiredInputChannels : List DeliveryChannel) :
      BarrierAligner :=
    let removed := candidates.filter (· ∉ retained)
    let installed := rebuildTerminalInputs {a with
      retiredTerminalInputChannels := (removed ∪ a.retiredTerminalInputChannels).filter (· ∉ retained)
      terminalInputChannels := retained
      retiredInputChannels
      configuredInputChannels := inputChannels}
    {installed with lastAlignmentIsTerminal := decide (inputs ≠ 0 ∧ inputs ≤ installed.terminalInputs)}
  match inputChannels with
  | some channels =>
    if ¬ channels.Nodup then .error (.valueError "checkpoint input channels cannot contain duplicates")
    else if (↑(channels.map DeliveryChannel.senderVertexId) : Multiset ExecutionVertexId) ≠ inputs then
      .error (.valueError "checkpoint input channel inventory does not match input vertex multiplicity")
    else
      let dropped := (a.configuredInputChannels.getD []).filter (· ∉ channels)
      let candidates := a.retiredTerminalInputChannels.filter (InputChannel.isIn channels) ∪ a.terminalInputChannels
      .ok (install candidates (candidates.filter (InputChannel.isIn channels))
        ((dropped ∪ a.retiredInputChannels).filter (· ∉ channels)))
  | none =>
    .ok (install a.terminalInputChannels
      (retainByMultiplicity inputs (sortedByRepr quote a.terminalInputChannels)) [])

def channelsWithoutVertices : AlignerError := .valueError "checkpoint input channels require input vertex ids"

def init (barrierSplits : Dict ExecutionVertexId Nat) (inputVertexIds : Option (List ExecutionVertexId))
    (inputChannels : Option (List DeliveryChannel)) : Except AlignerError BarrierAligner :=
  let a : BarrierAligner := {
    split := barrierSplits
    inflight := ∅
    inputVertexIds := ↑(inputVertexIds.getD [])
    coordinatedInflight := ∅
    coordinatedChannels := ∅
    lastCoordinatedBarrierId := -1
    directInputVertexIds := inputVertexIds.map (↑·)
    directInflight := ∅
    directExpected := ∅
    directResolvedThrough := -1
    terminalInputs := 0
    terminalInputChannels := []
    retiredTerminalInputChannels := []
    retiredInputChannels := []
    configuredInputChannels := none
    lastAlignedId := none
    lastAlignmentIsTerminal := false
    eofFromSrc := Dict.ofList (barrierSplits.keys.map (fun source => (source,false)))}
  match inputChannels,a.directInputVertexIds with
  | none,_ => .ok a
  | some _,none => .error channelsWithoutVertices
  | some channels,some inputs => reconfigureTerminalInputs quote a inputs (some channels)

/-- `_expected`: a source absent from the table aligns on its first copy. -/
def expected (a : BarrierAligner) (sourceId : Option ExecutionVertexId) : Nat :=
  (sourceId.bind a.split.get?).getD 1

def senderMismatch : AlignerError := .valueError "checkpoint delivery_channel does not match its sender"

def checkChannel (a : BarrierAligner) (inputs : Option (Multiset ExecutionVertexId)) (unexpectedSender : AlignerError)
    (channel : InputChannel) (sender : ExecutionVertexId) : Except AlignerError Unit :=
  if ∃ configured ∈ a.configuredInputChannels, ¬ channel.isIn configured then
    .error (.runtimeError ("unexpected checkpoint delivery channel " ++ channel.repr quote))
  else if ∃ expected ∈ inputs, sender ∉ expected then .error unexpectedSender
  else .ok ()

def countCoordinated (a : BarrierAligner) (barrierId : Int) (sender : ExecutionVertexId) (channel : InputChannel) :
    BarrierAligner × Outcome :=
  let channels := (a.coordinatedChannels.get? barrierId).getD []
  if channel ∈ channels then (a,.ignored)
  else
    let seen := sender ::ₘ (a.coordinatedInflight.get? barrierId).getD 0
    if a.inputVertexIds ≤ seen then
      ({a with
        coordinatedInflight := a.coordinatedInflight.erase barrierId
        coordinatedChannels := a.coordinatedChannels.erase barrierId
        lastCoordinatedBarrierId := barrierId},.aligned)
    else
      ({a with
        coordinatedInflight := a.coordinatedInflight.set barrierId seen
        coordinatedChannels := a.coordinatedChannels.set barrierId (channels ++ [channel])},.waiting)

def receiveCoordinated (a : BarrierAligner) (barrier : Barrier) (senderVertexId : Option ExecutionVertexId)
    (deliveryChannel : Option DeliveryChannel) : Except AlignerError (BarrierAligner × Outcome) :=
  if barrier.id ≤ a.lastCoordinatedBarrierId then .ok (a,.ignored)
  else if a.inputVertexIds = 0 then .ok ({a with lastCoordinatedBarrierId := barrier.id},.aligned)
  else
    match senderVertexId with
    | none => .error (.valueError "a coordinated checkpoint barrier requires its direct sender identity")
    | some sender =>
      let channel := InputChannel.of sender deliveryChannel
      if ∃ lane ∈ deliveryChannel, lane.senderVertexId ≠ sender then .error senderMismatch
      else if channel.isIn a.retiredInputChannels then .ok (a,.ignored)
      else
        match checkChannel quote a (some a.inputVertexIds)
            (.valueError ("unexpected coordinated checkpoint sender " ++ sender.repr)) channel sender with
        | .error error => .error error
        | .ok () => .ok (countCoordinated a barrier.id sender channel)

/-- `_direct_channel` -/
def directChannel (a : BarrierAligner) (barrier : Barrier) (sender : ExecutionVertexId)
    (deliveryChannel : Option DeliveryChannel) : Except AlignerError InputChannel :=
  let expectedMultiplicity := match a.directInputVertexIds with
    | none => a.expected barrier.sourceId
    | some inputs => inputs.count sender
  match deliveryChannel with
  | none =>
    if 1 < expectedMultiplicity then
      .error (.valueError ("checkpoint sender " ++ sender.repr ++ " has " ++ toString expectedMultiplicity ++
        " input lanes; delivery_channel is required"))
    else .ok (.vertex sender)
  | some lane => if lane.senderVertexId ≠ sender then .error senderMismatch else .ok (.channel lane)

def replacedBy (lane : DeliveryChannel) : InputChannel → Bool
  | .channel terminal =>
    terminal.senderVertexId = lane.senderVertexId ∧ terminal.senderTaskName = lane.senderTaskName ∧
      terminal.edgeIndex = lane.edgeIndex ∧ terminal.targetIndex = lane.targetIndex ∧
      terminal.topologyEpoch ≠ lane.topologyEpoch
  | .vertex _ => false

def retireReplacedTerminalChannel (a : BarrierAligner) : InputChannel → BarrierAligner
  | .vertex _ => a
  | .channel lane =>
    let replaced := a.terminalInputChannels.filter (replacedBy lane)
    if replaced = [] then a
    else rebuildTerminalInputs {a with
      terminalInputChannels := a.terminalInputChannels.filter (fun terminal => ¬ replacedBy lane terminal)
      retiredTerminalInputChannels := replaced ∪ a.retiredTerminalInputChannels}

/-- `_direct_alignment_complete`, with the expectation it fixes for the epoch. -/
def directAlignmentComplete (a : BarrierAligner) (barrier : Barrier)
    (seen : Dict InputChannel (ExecutionVertexId × Bool)) : BarrierAligner × Bool :=
  match a.directInputVertexIds with
  | none => (a,decide (a.expected barrier.sourceId ≤ seen.entries.length))
  | some inputs =>
    let expected := (a.directExpected.get? barrier.id).getD (inputs - a.terminalInputs)
    ({a with directExpected := a.directExpected.set barrier.id expected},
      decide (expected ≤ ↑(seen.values.map Prod.fst)))

/-- `_complete_direct_alignment` -/
def completeDirectAlignment (a : BarrierAligner) (barrierId : Int)
    (seen : Dict InputChannel (ExecutionVertexId × Bool)) : BarrierAligner :=
  let ended := (seen.entries.filter (fun lane => lane.2.2 ∧ lane.1 ∉ a.terminalInputChannels)).map Prod.fst
  let closed := rebuildTerminalInputs {a with
    directInflight := a.directInflight.erase barrierId
    directExpected := a.directExpected.erase barrierId
    directResolvedThrough := barrierId
    terminalInputChannels := a.terminalInputChannels ++ ended
    retiredTerminalInputChannels := a.retiredTerminalInputChannels.filter (· ∉ ended)
    lastAlignedId := some barrierId}
  let terminal := decide (∃ inputs ∈ closed.directInputVertexIds, inputs ≤ closed.terminalInputs)
  {closed with lastAlignmentIsTerminal := terminal}

def settleDirect (a : BarrierAligner) (barrier : Barrier) (seen : Dict InputChannel (ExecutionVertexId × Bool)) :
    BarrierAligner × Outcome :=
  match a.directAlignmentComplete barrier seen with
  | (waiting,false) => (waiting,.waiting)
  | (complete,true) => (complete.completeDirectAlignment barrier.id seen,.aligned)

def countDirect (a : BarrierAligner) (barrier : Barrier) (sender : ExecutionVertexId) (channel : InputChannel) :
    Except AlignerError (BarrierAligner × Outcome) :=
  let seen := (a.directInflight.get? barrier.id).getD ∅
  match seen.get? channel with
  | some previous =>
    if previous ≠ (sender,barrier.endOfData) then
      .error (.runtimeError ("checkpoint barrier " ++ toString barrier.id ++ " on channel " ++ channel.repr quote ++
        " changed sender or terminal kind"))
    else .ok (a,.ignored)
  | none =>
    let seen := seen.set channel (sender,barrier.endOfData)
    .ok (settleDirect {a with directInflight := a.directInflight.set barrier.id seen} barrier seen)

def receiveDirect (a : BarrierAligner) (barrier : Barrier) (sender : ExecutionVertexId)
    (deliveryChannel : Option DeliveryChannel) : Except AlignerError (BarrierAligner × Outcome) :=
  if barrier.id ≤ a.directResolvedThrough then .ok (a,.ignored)
  else
    match a.directChannel barrier sender deliveryChannel with
    | .error error => .error error
    | .ok channel =>
      if channel ∈ a.terminalInputChannels ∨ channel ∈ a.retiredTerminalInputChannels ∨
          channel.isIn a.retiredInputChannels then .ok (a,.ignored)
      else
        match checkChannel quote a a.directInputVertexIds
            (.runtimeError ("unexpected checkpoint barrier sender " ++ sender.repr)) channel sender with
        | .error error => .error error
        | .ok () =>
          let a := a.retireReplacedTerminalChannel channel
          if ¬ a.directInflight.isEmpty ∧ ¬ a.directInflight.contains barrier.id then
            let currentBarrierId := a.directInflight.keys.min?.getD barrier.id
            .error (.runtimeError ("checkpoint barrier " ++ toString barrier.id ++ " arrived before epoch " ++
              toString currentBarrierId ++ " aligned"))
          else countDirect quote a barrier sender channel

def receiveCounted (a : BarrierAligner) (barrier : Barrier) : BarrierAligner × Outcome :=
  let count := (a.inflight.get? barrier.id).getD 0 + 1
  if a.expected barrier.sourceId ≤ count then ({a with inflight := a.inflight.erase barrier.id},.aligned)
  else ({a with inflight := (a.inflight.erase barrier.id).set barrier.id count},.waiting)

structure Copy where
  barrier : Barrier
  senderVertexId : Option ExecutionVertexId
  deliveryChannel : Option DeliveryChannel

def receive (a : BarrierAligner) (copy : Copy) : Except AlignerError (BarrierAligner × Outcome) :=
  if copy.barrier.coordinated then
    receiveCoordinated quote a copy.barrier copy.senderVertexId copy.deliveryChannel
  else
    match copy.senderVertexId with
    | some sender => receiveDirect quote a copy.barrier sender copy.deliveryChannel
    | none => .ok (receiveCounted a copy.barrier)

def receiveEof (a : BarrierAligner) (barrier : Barrier) : BarrierAligner × Bool :=
  if a.directInputVertexIds.isSome ∧ a.lastAlignedId = some barrier.id then (a,a.lastAlignmentIsTerminal)
  else
    match barrier.sourceId with
    | none => (a,a.eofFromSrc.values.all id)
    | some source =>
      let eofFromSrc := a.eofFromSrc.set source true
      ({a with eofFromSrc},eofFromSrc.values.all id)

def barrierToForward (a : BarrierAligner) (barrier : Barrier) : Barrier :=
  if a.directInputVertexIds.isNone ∨ a.lastAlignedId ≠ some barrier.id then barrier
  else if a.lastAlignmentIsTerminal = barrier.endOfData then barrier
  else ⟨barrier.id,barrier.sourceId,false,a.lastAlignmentIsTerminal,barrier.timestamp⟩

def resetInflightBefore (a : BarrierAligner) (cutoff : Int) : BarrierAligner × Nat :=
  ({a with
    inflight := a.inflight.filter (fun barrierId _ => cutoff < barrierId)
    coordinatedInflight := a.coordinatedInflight.filter (fun barrierId _ => cutoff < barrierId)
    coordinatedChannels := a.coordinatedChannels.filter
      (fun barrierId _ => cutoff < barrierId ∨ ¬ a.coordinatedInflight.contains barrierId)
    lastCoordinatedBarrierId := max a.lastCoordinatedBarrierId cutoff
    directInflight := a.directInflight.filter (fun barrierId _ => cutoff < barrierId)
    directExpected := a.directExpected.filter
      (fun barrierId _ => cutoff < barrierId ∨ ¬ a.directInflight.contains barrierId)
    directResolvedThrough := max a.directResolvedThrough cutoff},
    (a.inflight.keys.filter (· ≤ cutoff)).length + (a.coordinatedInflight.keys.filter (· ≤ cutoff)).length +
      (a.directInflight.keys.filter (· ≤ cutoff)).length)

/-- Drop one failed barrier; `abort` returns whether anything was removed. -/
def discard (a : BarrierAligner) (barrierId : Int) : BarrierAligner × Nat :=
  ({a with
    inflight := a.inflight.erase barrierId
    coordinatedInflight := a.coordinatedInflight.erase barrierId
    coordinatedChannels := a.coordinatedChannels.erase barrierId
    lastCoordinatedBarrierId := max a.lastCoordinatedBarrierId barrierId
    directInflight := a.directInflight.erase barrierId
    directExpected := a.directExpected.erase barrierId
    directResolvedThrough := max a.directResolvedThrough barrierId},
    (a.inflight.contains barrierId).toNat + (a.coordinatedInflight.contains barrierId).toNat +
      (a.directInflight.contains barrierId).toNat)

/-- `validate_reconfiguration` -/
def validateReconfiguration (a : BarrierAligner) : Except AlignerError Unit :=
  if a.inflight.isEmpty ∧ a.coordinatedInflight.isEmpty ∧ a.directInflight.isEmpty then .ok ()
  else .error (.runtimeError "cannot reconfigure barrier alignment while checkpoints are in flight")

/-- `reconfigure_inputs` -/
def reconfigureInputs (a : BarrierAligner) (inputVertexIds : List ExecutionVertexId)
    (inputChannels : Option (List DeliveryChannel)) : Except AlignerError BarrierAligner :=
  match a.validateReconfiguration with
  | .error error => .error error
  | .ok () => reconfigureTerminalInputs quote
      {a with inputVertexIds := ↑inputVertexIds,directInputVertexIds := some ↑inputVertexIds} ↑inputVertexIds inputChannels

def reconfigure (a : BarrierAligner) (barrierSplits : Dict ExecutionVertexId Nat)
    (inputVertexIds : Option (List ExecutionVertexId)) (inputChannels : Option (List DeliveryChannel)) :
    Except AlignerError BarrierAligner :=
  let eofFromSrc := Dict.ofList (barrierSplits.keys.map (fun source => (source,(a.eofFromSrc.get? source).getD false)))
  match inputVertexIds,inputChannels with
  | some inputs,channels => (reconfigureInputs quote {a with split := barrierSplits} inputs channels).map
      (fun installed => {installed with eofFromSrc})
  | none,channels =>
    match a.validateReconfiguration,channels with
    | .error error,_ => .error error
    | .ok (),some _ => .error channelsWithoutVertices
    | .ok (),none => .ok {a with split := barrierSplits,eofFromSrc}

end BarrierAligner
end Klein
