import Klein.Dict
import Klein.Message
import Klein.Runs

/-! The fence of an operator rescale: `handle_rescale_barrier` and its helpers of
`runtime/worker/stream_task.py`, the delivery of `EdgeOutput.send_commands`, and the cut
that `JobMaster._await_local_rescale_cut` waits for. Every subtask of an upstream operator
sends its data and one fence on each of its output edges to the operator that is rescaled,
and pauses; each target subtask collects the fences. A state is taken between the
suspension points of the tasks. -/
namespace Klein.RescaleFence

/-- One output edge of one upstream subtask. With a target it is a physical input lane of that target. -/
structure OutputEdge where
  sender : ExecutionVertexId
  edgeIndex : Nat
deriving DecidableEq, Repr

/-- What an edge has to send. A fence goes to each control target, those that took it are no longer listed. -/
inductive EdgeCommand (β : Type) where
  | data (target : Nat) (retryRing : List Nat) (batch : β)
  | fence (remaining : List Nat)
deriving DecidableEq, Repr

structure EdgeOutput (β : Type) where
  controlTargets : List Nat
  pending : List (EdgeCommand β)
deriving DecidableEq, Repr

/-- A data batch, or without payload the `RescaleBarrier`. -/
structure InboxEnvelope (β : Type) where
  edge : OutputEdge
  payload : Option β
deriving DecidableEq, Repr

/-- A target subtask. `arrivals` and `taken` keep what its inbox ever admitted and what the pump took from it. -/
structure TargetTask (β : Type) where
  inputChannels : List OutputEdge
  expectedSenders : List ExecutionVertexId
  seenSenders : List ExecutionVertexId
  inbox : List (InboxEnvelope β)
  batched : List (OutputEdge × β)
  processed : List (OutputEdge × β)
  ready : Bool
  arrivals : List (InboxEnvelope β)
  taken : List (InboxEnvelope β)

/-- `discarded` keeps what the inboxes held when the new runtimes took over. -/
structure State (β : Type) where
  edges : Dict OutputEdge (EdgeOutput β)
  originated : List ExecutionVertexId
  targets : Dict Nat (TargetTask β)
  committed : Bool
  discarded : List (InboxEnvelope β)

inductive Label (β : Type) where
  | collect (edge : OutputEdge) (target : Nat) (retryRing : List Nat) (batch : β)
  | originate (sender : ExecutionVertexId)
  | deliver (edge : OutputEdge) (position target : Nat)
  | deliverFence (edge : OutputEdge) (target : Nat)
  | pump (target position : Nat)
  | process (target position : Nat)
  | commit

variable {β : Type}

def inputChannels (topology : Dict OutputEdge (List Nat)) (target : Nat) : List OutputEdge :=
  (topology.filter (fun _ controlTargets => target ∈ controlTargets)).keys

/-- `set(descriptor.input_vertex_ids)` -/
def inputSenders (inputChannels : List OutputEdge) : List ExecutionVertexId := (inputChannels.map OutputEdge.sender).dedup

/-- A target subtask after `prepare_rescale_target` -/
def TargetTask.prepared (inputChannels : List OutputEdge) : TargetTask β :=
  ⟨inputChannels,inputSenders inputChannels,[],[],[],[],false,[],[]⟩

/-- The participants, prepared, before a batch is sent. `topology` gives the control targets of each edge. -/
def start (topology : Dict OutputEdge (List Nat)) (parallelism : Nat) : Except String (State β) :=
  if (List.range parallelism).any (fun target => (inputSenders (inputChannels topology target)).isEmpty) then
    .error "source operators cannot be locally rescaled"
  else .ok {
    edges := topology.mapValues (fun _ controlTargets => ⟨controlTargets,[]⟩)
    originated := []
    targets := Dict.ofList ((List.range parallelism).map (fun target =>
      (target,TargetTask.prepared (inputChannels topology target))))
    committed := false
    discarded := []}

def collect (state : State β) (edge : OutputEdge) (target : Nat) (retryRing : List Nat) (batch : β) : Option (State β) :=
  (state.edges.get? edge).bind (fun output =>
    if edge.sender ∉ state.originated ∧ retryRing.head? = some target ∧ (∀ other ∈ retryRing, other ∈ output.controlTargets) then
      some {state with
        edges := state.edges.set edge {output with pending := output.pending ++ [.data target retryRing batch]}}
    else none)

/-- `TaskOutput.collect_to_edges` of the fence: behind what the edges still have to send. -/
def collectToEdges (edges : Dict OutputEdge (EdgeOutput β)) (sender : ExecutionVertexId) : Dict OutputEdge (EdgeOutput β) :=
  edges.mapValues (fun edge output =>
    if edge.sender = sender then {output with pending := output.pending ++ [.fence output.controlTargets]} else output)

/-- `_originate_rescale_barrier`. The subtask takes no more input until it is resumed. -/
def originateRescaleBarrier (state : State β) (sender : ExecutionVertexId) : Option (State β) :=
  if sender ∉ state.originated ∧ (state.edges.keys.any (fun edge => edge.sender = sender)) = true then
    some {state with edges := collectToEdges state.edges sender, originated := state.originated ++ [sender]}
  else none

def startable (ahead : List (EdgeCommand β)) (target : Nat) : Bool :=
  ahead.all (fun command => match command with
    | .data other _ _ => other ≠ target
    | .fence _ => false)

def TargetTask.admitted (task : TargetTask β) (envelope : InboxEnvelope β) : TargetTask β :=
  {task with inbox := task.inbox ++ [envelope], arrivals := task.arrivals ++ [envelope]}

/-- `DownstreamSender.send_async`: one target of the retry ring accepts the batch. -/
def deliver (state : State β) (edge : OutputEdge) (position target : Nat) : Option (State β) :=
  (state.edges.get? edge).bind (fun output => (state.targets.get? target).bind (fun task =>
    match output.pending[position]? with
    | some (.data initial retryRing batch) =>
      if startable (output.pending.take position) initial = true ∧ target ∈ retryRing ∧ state.committed = false then
        some {state with
          edges := state.edges.set edge {output with pending := output.pending.eraseIdx position}
          targets := state.targets.set target (task.admitted ⟨edge,some batch⟩)}
      else none
    | _ => none))

/-- `DownstreamSender.send_control_async`: one control target admits the fence. -/
def deliverFence (state : State β) (edge : OutputEdge) (target : Nat) : Option (State β) :=
  (state.edges.get? edge).bind (fun output => (state.targets.get? target).bind (fun task =>
    match output.pending with
    | .fence remaining::rest =>
      let others := remaining.filter (· ≠ target)
      if target ∈ remaining ∧ state.committed = false then
        some {state with
          edges := state.edges.set edge {output with pending := if others = [] then rest else .fence others::rest}
          targets := state.targets.set target (task.admitted ⟨edge,none⟩)}
      else none
    | _ => none))

/-- `_drain_rescale_boundary`: the input accumulators go to the operator. -/
def TargetTask.drainRescaleBoundary (task : TargetTask β) : TargetTask β :=
  {task with batched := [], processed := task.processed ++ task.batched}

/-- `_receive_rescale_barrier` of a target -/
def TargetTask.receiveRescaleBarrier (task : TargetTask β) (sender : ExecutionVertexId) : Except String (TargetTask β) :=
  if sender ∉ task.expectedSenders then .error ("unexpected rescale sender " ++ sender.repr)
  else if sender ∈ task.seenSenders then .ok task
  else
    let seen := task.seenSenders ++ [sender]
    if ∀ expected ∈ task.expectedSenders, expected ∈ seen then .ok {task with seenSenders := seen, ready := true}
    else .ok {task with seenSenders := seen}

/-- `InboxPump.run_once` -/
def TargetTask.runOnce (task : TargetTask β) (position : Nat) : Option (TargetTask β) :=
  (task.inbox[position]?).bind (fun envelope =>
    if (∀ earlier ∈ task.inbox.take position, earlier.edge ≠ envelope.edge) ∧ task.ready = false then
      let task := {task with inbox := task.inbox.eraseIdx position, taken := task.taken ++ [envelope]}
      match envelope.payload with
      | some batch => some {task with batched := task.batched ++ [(envelope.edge,batch)]}
      | none => (task.drainRescaleBoundary.receiveRescaleBarrier envelope.edge.sender).toOption
    else none)

def TargetTask.process (task : TargetTask β) (position : Nat) : Option (TargetTask β) :=
  (task.batched[position]?).map (fun batch =>
    {task with batched := task.batched.eraseIdx position, processed := task.processed ++ [batch]})

/-- `_await_local_rescale_cut` has an answer of every upstream and every target. -/
def cutComplete (state : State β) : Bool :=
  state.edges.entries.all (fun item => decide (item.1.sender ∈ state.originated) && item.2.pending.isEmpty) &&
    state.targets.values.all (fun task => task.ready)

/-- `commit_runtime_rescale` at every target: a new inbox takes the place of the old one. -/
def commitRuntimeRescale (state : State β) : Option (State β) :=
  if cutComplete state = true ∧ state.committed = false then
    some {state with committed := true, discarded := state.targets.values.flatMap TargetTask.inbox}
  else none

def pump (state : State β) (target position : Nat) : Option (State β) :=
  if state.committed = true then none
  else (state.targets.get? target).bind (fun task => (task.runOnce position).map (fun next =>
    {state with targets := state.targets.set target next}))

def process (state : State β) (target position : Nat) : Option (State β) :=
  if state.committed = true then none
  else (state.targets.get? target).bind (fun task => (task.process position).map (fun next =>
    {state with targets := state.targets.set target next}))

/-- A lane may be held in the inbox while a checkpoint aligns, so the pump takes the first envelope of any lane. -/
def step (state : State β) : Label β → Option (State β)
  | .collect edge target retryRing batch => collect state edge target retryRing batch
  | .originate sender => originateRescaleBarrier state sender
  | .deliver edge position target => deliver state edge position target
  | .deliverFence edge target => deliverFence state edge target
  | .pump target position => pump state target position
  | .process target position => process state target position
  | .commit => commitRuntimeRescale state

end Klein.RescaleFence
