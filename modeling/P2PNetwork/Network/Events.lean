import P2PNetwork.Network.Wire

/-!
# Events between the tasks

What the tasks of the node send to each other, and the operating system's and
the runtime's answers that the tasks branch on.
-/

namespace P2PNetwork.Events

open P2PNetwork.Wire

/-- Capacity of every bounded channel of the node. -/
def channelCapacity : ℕ := 1024

abbrev PeerId := UInt64

/-- `tokio::task::Id`.  A connection is identified by the id of the task that
serves it, and so is the command channel made for that task. -/
abbrev TaskId := ℕ

/-- `std::io::Error`, by its code. -/
structure IoError where
  code : ℤ
  deriving DecidableEq

/-- `tokio::task::JoinError`: the task panicked. -/
structure JoinError where
  id : TaskId
  deriving DecidableEq

inductive TypeConnection where
  | incomingConnection
  | outgoingConnection
  deriving DecidableEq

structure StructContextConnection where
  peerid : PeerId
  typeConnection : TypeConnection
  nonce : UInt64
  localAddress : SocketAddr
  removeAddress : SocketAddr
  deriving DecidableEq

/-- A connected socket, by what the operating system answers about its two
ends. -/
structure TcpStream where
  peerAddr : Except IoError SocketAddr
  localAddr : Except IoError SocketAddr

def loopbackSocket : TcpStream where
  peerAddr := .ok loopback
  localAddr := .ok loopback

inductive EventsThreadNetwork where
  | outgoingConnection (address : SocketAddr)
  | shutdown
  deriving DecidableEq

/-- What the initialising thread sends to a supervising thread. -/
inductive EventsInit where
  | shutdown
  deriving DecidableEq

/-- What a supervising thread sends to the initialising thread. -/
inductive EventsThreadNetworkProtocol where
  | exitCompletionThreadNetwork
  | exitCompletionThreadProtocol
  deriving DecidableEq

inductive EventsPeerManager where
  | readyMessage (peerid : PeerId) (message : MessagePayload)
  | readyLowMessage (message : MessagePayload)
  | shutdown
  | incidentNewConnection (context : StructContextConnection)
  | incidentCompletedPeer (peerid : PeerId)
  | incidentCompletedAllPeer
  deriving DecidableEq

inductive EventsLoopListen where
  | incomingConnection (socket : TcpStream) (address : SocketAddr)

inductive EventsPeer where
  | shutdown
  | readyLowMessage (peerid : PeerId) (message : MessagePayload)
  | lowLevelMessage (message : MessagePayload)
  deriving DecidableEq

inductive EventsTaskRead where
  | lowRawMessage (message : MessagePayload)
  deriving DecidableEq

inductive EventsThreadProtocol where
  | shutdown
  deriving DecidableEq

inductive EventsHandleMessage where
  | readyMessage (peerid : PeerId) (message : MessagePayload)
  | incidetViolentComplitedPeer (peerid : PeerId)
  deriving DecidableEq

/-- The peer an event of `HandleMessage` is about. -/
def EventsHandleMessage.peerid : EventsHandleMessage → PeerId
  | .readyMessage peerid _ => peerid
  | .incidetViolentComplitedPeer peerid => peerid

end P2PNetwork.Events
