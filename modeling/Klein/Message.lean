import Mathlib.Data.List.Basic

/-! Identities that travel between tasks (`runtime/message.py`,
`runtime/execution_graph/execution_vertex_id.py`). -/
namespace Klein

structure ExecutionVertexId where
  jobVertexId : Nat
  index : Nat
deriving DecidableEq, Repr

/-- Stable identity for one upstream edge's actual delivery target. Equality
includes the topology epoch and nothing about the sender's process. -/
structure DeliveryChannel where
  senderVertexId : ExecutionVertexId
  senderTaskName : String
  edgeIndex : Nat
  targetIndex : Nat
  topologyEpoch : Option String
deriving DecidableEq, Repr

/-- The key under which a receiver files a sender: `delivery_channel or sender_vertex_id`. -/
inductive InputChannel where
  | channel (lane : DeliveryChannel)
  | vertex (sender : ExecutionVertexId)
deriving DecidableEq, Repr

/-- A checkpoint barrier; `endOfData` tells the `EndOfData` subclass apart. -/
structure Barrier where
  id : Int
  sourceId : Option ExecutionVertexId
  coordinated : Bool
  endOfData : Bool
  timestamp : Int
deriving DecidableEq, Repr

def ExecutionVertexId.repr (vertex : ExecutionVertexId) : String :=
  "(job_vertex_id:" ++ toString vertex.jobVertexId ++ ", index:" ++ toString vertex.index ++ ")"

/-- `repr` of a channel; `quote` is Python's `repr` of a string. -/
def DeliveryChannel.repr (quote : String → String) (channel : DeliveryChannel) : String :=
  "DeliveryChannel(sender_vertex_id=" ++ channel.senderVertexId.repr ++
    ", sender_task_name=" ++ quote channel.senderTaskName ++ ", edge_index=" ++ toString channel.edgeIndex ++
    ", target_index=" ++ toString channel.targetIndex ++
    ", topology_epoch=" ++ (channel.topologyEpoch.map quote).getD "None" ++ ")"

def InputChannel.repr (quote : String → String) : InputChannel → String
  | .channel lane => lane.repr quote
  | .vertex sender => sender.repr

/-- The vertex that feeds a lane (`_terminal_channel_sender`). -/
def InputChannel.sender : InputChannel → ExecutionVertexId
  | .channel lane => lane.senderVertexId
  | .vertex sender => sender

def InputChannel.isIn (channels : List DeliveryChannel) : InputChannel → Bool
  | .channel lane => lane ∈ channels
  | .vertex _ => false

def InputChannel.of (sender : ExecutionVertexId) : Option DeliveryChannel → InputChannel
  | some lane => .channel lane
  | none => .vertex sender

end Klein
