import P2PNetwork.Network.TaskRead
import P2PNetwork.Network.TaskWrite

/-!
# One peer

`Peer::spawn` runs a reader and a writer of its socket and moves messages
between them and `PeerManager`.  Its loop, what it does after the loop and the
result it makes of the ends of its two subtasks.
-/

namespace P2PNetwork.PeerActor

open P2PNetwork.Events
open P2PNetwork.Handler
open P2PNetwork.TaskRead
open P2PNetwork.TaskWrite
open P2PNetwork.Wire

inductive SuccessPeer where
  | successfulTaskReadTaskWrite
  | successfulTaskReadBrokenPipeTaskWriteSuccessful
  deriving DecidableEq

inductive ErrorPeer where
  | errorRemoteAddress (reason : IoError)
  | errorLocalAddress (reason : IoError)
  | errorSuccessTaskReadErrorTaskWrite (successRead : SuccessTaskRead)
      (errorWrite : ErrorTaskWrite)
  | errorSuccessTaskWriteErrorTaskRead (errorRead : ErrorTaskRead)
      (successWrite : SuccessTaskWrite)
  | errorTaskReadTaskWrite (errorRead : ErrorTaskRead)
      (errorWrite : ErrorTaskWrite)
  | errorSuccessTaskReadErrorJoinHandleTaskWrite (successRead : SuccessTaskRead)
      (errorWrite : JoinError)
  | errorSuccessTaskWriteErrorJoinHandleTaskRead (errorRead : JoinError)
      (successWrite : SuccessTaskWrite)
  | errorTaskReadErrorJoinHandleTaskWrite (errorRead : ErrorTaskRead)
      (errorWrite : JoinError)
  | errorTaskWriteErrorJoinHandleTaskRead (errorWrite : ErrorTaskWrite)
      (errorRead : JoinError)
  | errorJoinHandleTaskReadTaskWrite (errorRead errorWrite : JoinError)
  | errorSuccessTaskRead (successRead : SuccessTaskRead)
  | errorSuccessTaskWrite (successWrite : SuccessTaskWrite)
  | errorTaskRead (errorRead : ErrorTaskRead)
  | errorTaskWrite (errorWrite : ErrorTaskWrite)
  | errorTaskReadJoinHandle (errorRead : JoinError)
  | errorTaskWriteJoinHandle (errorWrite : JoinError)
  deriving DecidableEq

inductive EventsCriticalCompletion where
  | incidentConfirmationShutdown
  | incidentChannelPeerManagerClosed
  | incidentChannelTaskReadClosed
  | incidentChannelTaskWriteClosed
  | incidentComplitedTaskRead (result : ResultTaskRead)
  | incidentComplitedTaskWrite (result : ResultTaskWrite)
  | incidentJoinHandleTaskRead (reason : JoinError)
  | incidentJoinHandleTaskWrite (reason : JoinError)

structure Peer where
  peerid : PeerId
  typeConnection : TypeConnection
  remoteAddress : SocketAddr
  localAddress : SocketAddr

/-- The peer of a connected socket, with the socket's own address. -/
def Peer.create (peerid : PeerId) (socket : TcpStream)
    (typeConnection : TypeConnection) : Except ErrorPeer (Peer × SocketAddr) :=
  match socket.peerAddr with
  | .error reason => .error (.errorRemoteAddress reason)
  | .ok remoteAddress =>
      match socket.localAddr with
      | .error reason => .error (.errorLocalAddress reason)
      | .ok localAddress =>
          .ok ({ peerid, typeConnection, remoteAddress, localAddress },
            localAddress)

def loopbackPeer : Peer where
  peerid := 1
  typeConnection := .incomingConnection
  remoteAddress := loopback
  localAddress := loopback

/-! ## The loop -/

/-- The sends of a peer. -/
inductive PeerSend where
  | toTaskRead (event : EventsPeer)
  | toTaskWrite (event : EventsPeer)
  | toPeerManager (event : EventsPeer)
  deriving DecidableEq

/-- What `select!` finds ready. -/
inductive PeerInput where
  | incidentPeermanager (incident : Option EventsPeerManager)
  | incidentTaskRead (incident : Option EventsTaskRead)
  | resultStateTaskRead (result : Except JoinError ResultTaskRead)
  | resultStateTaskWrite (result : Except JoinError ResultTaskWrite)

/-- A turn, or the rest of one, of the loop of a peer. -/
abbrev PeerTurn := Await Peer PeerSend Bool (Flow EventsCriticalCompletion)

/-- Send an event on, or leave the loop when its channel is closed. -/
def forward (send : PeerSend) (closed : EventsCriticalCompletion)
    (self : Peer) : PeerTurn :=
  .issue self send fun delivered =>
    if delivered then .done self .next else .done self (.leave closed)

def turn : PeerInput → Peer → PeerTurn
  | .incidentPeermanager (some (.readyLowMessage message)), self =>
      forward (.toTaskWrite (.lowLevelMessage message))
        .incidentChannelTaskWriteClosed self
  | .incidentPeermanager (some .shutdown), self =>
      .done self (.leave .incidentConfirmationShutdown)
  | .incidentPeermanager (some _), self => .done self .next
  | .incidentPeermanager none, self =>
      .done self (.leave .incidentConfirmationShutdown)
  | .incidentTaskRead (some (.lowRawMessage message)), self =>
      forward (.toPeerManager (.readyLowMessage self.peerid message))
        .incidentChannelPeerManagerClosed self
  | .incidentTaskRead none, self =>
      .done self (.leave .incidentChannelTaskReadClosed)
  | .resultStateTaskRead (.ok result), self =>
      .done self (.leave (.incidentComplitedTaskRead result))
  | .resultStateTaskRead (.error reason), self =>
      .done self (.leave (.incidentJoinHandleTaskRead reason))
  | .resultStateTaskWrite (.ok result), self =>
      .done self (.leave (.incidentComplitedTaskWrite result))
  | .resultStateTaskWrite (.error reason), self =>
      .done self (.leave (.incidentJoinHandleTaskWrite reason))

theorem forward_singleSend (send : PeerSend) (closed : EventsCriticalCompletion)
    (self : Peer) : (forward send closed self).SingleSend := by
  intro delivered
  cases delivered
  · exact ⟨self, .leave closed, rfl⟩
  · exact ⟨self, .next, rfl⟩

theorem turn_singleSend (input : PeerInput) (self : Peer) :
    (turn input self).SingleSend := by
  unfold turn
  split
  case h_1 => exact forward_singleSend _ _ _
  case h_5 => exact forward_singleSend _ _ _
  all_goals trivial

/-! ## After the loop -/

/-- The incidents after which the peer sends `Shutdown` to the reader and
waits for its end. -/
def EventsCriticalCompletion.awaitsTaskRead : EventsCriticalCompletion → Bool
  | .incidentConfirmationShutdown | .incidentChannelPeerManagerClosed
  | .incidentChannelTaskWriteClosed | .incidentComplitedTaskWrite _
  | .incidentJoinHandleTaskWrite _ => true
  | .incidentChannelTaskReadClosed | .incidentComplitedTaskRead _
  | .incidentJoinHandleTaskRead _ => false

/-- The incidents after which the peer sends `Shutdown` to the writer and
waits for its end. -/
def EventsCriticalCompletion.awaitsTaskWrite : EventsCriticalCompletion → Bool
  | .incidentConfirmationShutdown | .incidentChannelPeerManagerClosed
  | .incidentChannelTaskReadClosed | .incidentComplitedTaskRead _
  | .incidentJoinHandleTaskRead _ => true
  | .incidentChannelTaskWriteClosed | .incidentComplitedTaskWrite _
  | .incidentJoinHandleTaskWrite _ => false

/-- Sends whose answers are ignored. -/
def sendAll (self : Peer) : List PeerSend → Await Peer PeerSend Bool Unit
  | [] => .done self ()
  | send :: sends => .issue self send fun _ => sendAll self sends

/-- What a peer sends after its loop. -/
def shutdownSubtasks (self : Peer) (incident : EventsCriticalCompletion) :
    Await Peer PeerSend Bool Unit :=
  sendAll self
    ((if incident.awaitsTaskRead then [.toTaskRead .shutdown] else []) ++
      if incident.awaitsTaskWrite then [.toTaskWrite .shutdown] else [])

/-- The result where both subtasks' ends are known. -/
def resultSubtasks : Except JoinError ResultTaskRead →
    Except JoinError ResultTaskWrite → Except ErrorPeer SuccessPeer
  | .ok (.ok .successful), .ok (.ok _) => .ok .successfulTaskReadTaskWrite
  | .ok (.ok .successfulEOF), .ok (.ok _) =>
      .ok .successfulTaskReadBrokenPipeTaskWriteSuccessful
  | .ok (.ok successRead), .ok (.error errorWrite) =>
      .error (.errorSuccessTaskReadErrorTaskWrite successRead errorWrite)
  | .ok (.error errorRead), .ok (.ok successWrite) =>
      .error (.errorSuccessTaskWriteErrorTaskRead errorRead successWrite)
  | .ok (.error errorRead), .ok (.error errorWrite) =>
      .error (.errorTaskReadTaskWrite errorRead errorWrite)
  | .ok (.ok successRead), .error errorWrite =>
      .error (.errorSuccessTaskReadErrorJoinHandleTaskWrite successRead errorWrite)
  | .ok (.error errorRead), .error errorWrite =>
      .error (.errorTaskReadErrorJoinHandleTaskWrite errorRead errorWrite)
  | .error errorRead, .ok (.ok successWrite) =>
      .error (.errorSuccessTaskWriteErrorJoinHandleTaskRead errorRead successWrite)
  | .error errorRead, .ok (.error errorWrite) =>
      .error (.errorTaskWriteErrorJoinHandleTaskRead errorWrite errorRead)
  | .error errorRead, .error errorWrite =>
      .error (.errorJoinHandleTaskReadTaskWrite errorRead errorWrite)

/-- The result where the reader's channel closed first and its end was not
waited for. -/
def resultChannelTaskReadClosed : Except JoinError ResultTaskWrite →
    Except ErrorPeer SuccessPeer
  | .ok (.ok successWrite) => .error (.errorSuccessTaskWrite successWrite)
  | .ok (.error errorWrite) => .error (.errorTaskWrite errorWrite)
  | .error errorWrite => .error (.errorTaskWriteJoinHandle errorWrite)

/-- The result where the writer's channel closed first and its end was not
waited for. -/
def resultChannelTaskWriteClosed : Except JoinError ResultTaskRead →
    Except ErrorPeer SuccessPeer
  | .ok (.ok successRead) => .error (.errorSuccessTaskRead successRead)
  | .ok (.error errorRead) => .error (.errorTaskRead errorRead)
  | .error errorRead => .error (.errorTaskReadJoinHandle errorRead)

/-- What `Peer::spawn` returns with its id, given the ends of the subtasks.
An end that was noticed in the loop is in the incident. -/
def spawnResult (incident : EventsCriticalCompletion)
    (read : Except JoinError ResultTaskRead)
    (write : Except JoinError ResultTaskWrite) :
    Except ErrorPeer SuccessPeer :=
  match incident with
  | .incidentConfirmationShutdown => resultSubtasks read write
  | .incidentChannelPeerManagerClosed => resultSubtasks read write
  | .incidentChannelTaskReadClosed => resultChannelTaskReadClosed write
  | .incidentChannelTaskWriteClosed => resultChannelTaskWriteClosed read
  | .incidentComplitedTaskRead result => resultSubtasks (.ok result) write
  | .incidentComplitedTaskWrite result => resultSubtasks read (.ok result)
  | .incidentJoinHandleTaskRead reason => resultSubtasks (.error reason) write
  | .incidentJoinHandleTaskWrite reason => resultSubtasks read (.error reason)

end P2PNetwork.PeerActor
