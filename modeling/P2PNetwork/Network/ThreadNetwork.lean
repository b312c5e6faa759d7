import P2PNetwork.Network.PeerManager

/-!
# The network thread

`LoopListen` accepts connections for `PeerManager`, and the network thread
supervises both tasks.  When one of them ends, or when it is told to, the thread
shuts down what is left, waits for it, and returns what the tasks returned.
-/

namespace P2PNetwork.LoopListen

open P2PNetwork.Events
open P2PNetwork.Handler
open P2PNetwork.Wire

inductive ErrorLoopListen where
  | errorInputOutput (reason : IoError)
  | errorChannelPeerManagerClosed
  | errorChannelThreadNetworkClosed
  deriving DecidableEq

/-- What `select!` finds ready. -/
inductive LoopListenInput where
  | resultAccept (result : Except IoError (TcpStream × SocketAddr))
  | incidentThreadNetwork (incident : Option EventsThreadNetwork)

/-- A turn, or the rest of one, of the loop of `LoopListen`, which keeps
nothing between two turns and sends to `PeerManager` only. -/
abbrev LoopListenTurn :=
  Await Unit EventsLoopListen Bool (Flow (Except ErrorLoopListen Unit))

/-- The loop is entered when the listener is bound. -/
def bound : Except IoError Unit → LoopListenTurn
  | .ok () => .done () .next
  | .error reason => .done () (.leave (.error (.errorInputOutput reason)))

/-- A turn of `looplisten::run`. -/
def turn : LoopListenInput → LoopListenTurn
  | .resultAccept (.ok (socketIncoming, address)) =>
      .issue () (.incomingConnection socketIncoming address) fun delivered =>
        if delivered then .done () .next
        else .done () (.leave (.error .errorChannelPeerManagerClosed))
  | .resultAccept (.error _) => .done () .next
  | .incidentThreadNetwork (some .shutdown) => .done () (.leave (.ok ()))
  | .incidentThreadNetwork (some _) => .done () .next
  | .incidentThreadNetwork none =>
      .done () (.leave (.error .errorChannelThreadNetworkClosed))

end P2PNetwork.LoopListen

namespace P2PNetwork.ThreadNetwork

open P2PNetwork.Events
open P2PNetwork.LoopListen
open P2PNetwork.Manager

inductive ErrorThreadNetwork where
  | errorInputOutput (reason : IoError)
  | errorPeerManager (reason : ErrorPeerManager)
  | errorLoopListen (reason : ErrorLoopListen)
  | errorPeerManagerErrorLoopListen (errorPeermanager : ErrorPeerManager)
      (errorLooplisten : ErrorLoopListen)
  | errorPeerManagerJoinHandleLoopListen (errorPeermanager : ErrorPeerManager)
      (errorJoinhandleLooplisten : JoinError)
  | errorLoopListenJoinHandlePeerManager (errorLooplisten : ErrorLoopListen)
      (errorJoinhandlePeermanager : JoinError)
  | errorPeerManagerJoinHandle (reason : JoinError)
  | errorLoopListenJoinHandle (reason : JoinError)
  | errorPeerManagerErrorLoopListenJoinHandle
      (errorJoinhandlePeermanager : JoinError)
      (errorJoinhandleLooplisten : JoinError)
  deriving DecidableEq

/-- Why the thread left its supervising loop. -/
inductive EventsCriticalCompletionThreadNetwork where
  | incidentConfirmationShutdown
  | incidentChannelInitClosed
  | incidentComplitedPeerManager (result : Except ErrorPeerManager Unit)
  | incidentComplitedLoopListen (result : Except ErrorLoopListen Unit)
  | incidentJoinHandlePeerManager (reason : JoinError)
  | incidentJoinHandleLoopListen (reason : JoinError)

/-- What the handle of the task of `PeerManager` yields. -/
abbrev StateTaskPeermanager := Except JoinError (Except ErrorPeerManager Unit)

/-- What the handle of the task of `LoopListen` yields. -/
abbrev StateTaskLooplisten := Except JoinError (Except ErrorLoopListen Unit)

/-- The sends of the thread to its tasks. -/
inductive ThreadNetworkSend where
  | toPeermanager (event : EventsThreadNetwork)
  | toLooplisten (event : EventsThreadNetwork)
  deriving DecidableEq

/-! ## The supervising loop -/

/-- The branch of the init channel. -/
def incidentInit : Option EventsInit → EventsCriticalCompletionThreadNetwork
  | some .shutdown => .incidentConfirmationShutdown
  | none => .incidentChannelInitClosed

def resultStatePeermanager :
    StateTaskPeermanager → EventsCriticalCompletionThreadNetwork
  | .ok okPeermanager => .incidentComplitedPeerManager okPeermanager
  | .error errorPeermanager => .incidentJoinHandlePeerManager errorPeermanager

def resultStateLooplisten :
    StateTaskLooplisten → EventsCriticalCompletionThreadNetwork
  | .ok okLooplisten => .incidentComplitedLoopListen okLooplisten
  | .error errorLooplisten => .incidentJoinHandleLoopListen errorLooplisten

/-! ## After the loop -/

/-- The thread shuts down the tasks that it has not seen end; after a panic
none. -/
def shutdownSends :
    EventsCriticalCompletionThreadNetwork → List ThreadNetworkSend
  | .incidentConfirmationShutdown | .incidentChannelInitClosed =>
      [.toPeermanager .shutdown, .toLooplisten .shutdown]
  | .incidentComplitedPeerManager _ => [.toLooplisten .shutdown]
  | .incidentComplitedLoopListen _ => [.toPeermanager .shutdown]
  | .incidentJoinHandlePeerManager _ | .incidentJoinHandleLoopListen _ => []

/-- Both tasks have returned. -/
def resultTasks :
    Except ErrorPeerManager Unit → Except ErrorLoopListen Unit →
      Except ErrorThreadNetwork Unit
  | .ok _, .ok _ => .ok ()
  | .ok _, .error errorLooplisten => .error (.errorLoopListen errorLooplisten)
  | .error errorPeermanager, .ok _ =>
      .error (.errorPeerManager errorPeermanager)
  | .error errorPeermanager, .error errorLooplisten =>
      .error (.errorPeerManagerErrorLoopListen errorPeermanager errorLooplisten)

/-- `tokio::join!` of both tasks. -/
def resultStateTasks :
    StateTaskPeermanager → StateTaskLooplisten → Except ErrorThreadNetwork Unit
  | .ok statePeermanager, .ok stateLooplisten =>
      resultTasks statePeermanager stateLooplisten
  | .ok (.ok _), .error errorJoinhandleLooplisten =>
      .error (.errorLoopListenJoinHandle errorJoinhandleLooplisten)
  | .ok (.error errorPm), .error errorJoinhandleLooplisten =>
      .error (.errorPeerManagerJoinHandleLoopListen errorPm
        errorJoinhandleLooplisten)
  | .error errorJoinhandlePeermanager, .ok (.ok _) =>
      .error (.errorPeerManagerJoinHandle errorJoinhandlePeermanager)
  | .error errorJoinhandlePeermanager, .ok (.error errorLl) =>
      .error (.errorLoopListenJoinHandlePeerManager errorLl
        errorJoinhandlePeermanager)
  | .error errorJoinhandlePeermanager, .error errorJoinhandleLooplisten =>
      .error (.errorPeerManagerErrorLoopListenJoinHandle
        errorJoinhandlePeermanager errorJoinhandleLooplisten)

/-- `PeerManager` was seen to return first. -/
def resultAfterPeermanager (resultPeermanager : Except ErrorPeerManager Unit) :
    StateTaskLooplisten → Except ErrorThreadNetwork Unit
  | .ok okLooplisten => resultTasks resultPeermanager okLooplisten
  | .error errorLooplisten =>
      .error (.errorLoopListenJoinHandle errorLooplisten)

/-- `LoopListen` was seen to return first. -/
def resultAfterLooplisten (resultLooplisten : Except ErrorLoopListen Unit) :
    StateTaskPeermanager → Except ErrorThreadNetwork Unit
  | .ok okPeermanager => resultTasks okPeermanager resultLooplisten
  | .error errorPeermanager =>
      .error (.errorPeerManagerJoinHandle errorPeermanager)

/-- What the thread returns once the tasks it waits for have ended: the handles
yield what `peermanager` and `looplisten` allow. -/
inductive Complited (peermanager : StateTaskPeermanager → Prop)
    (looplisten : StateTaskLooplisten → Prop) :
    EventsCriticalCompletionThreadNetwork → Except ErrorThreadNetwork Unit →
      Prop where
  | confirmationShutdown {statePeermanager : StateTaskPeermanager}
      {stateLooplisten : StateTaskLooplisten}
      (hpeermanager : peermanager statePeermanager)
      (hlooplisten : looplisten stateLooplisten) :
      Complited peermanager looplisten .incidentConfirmationShutdown
        (resultStateTasks statePeermanager stateLooplisten)
  | channelInitClosed {statePeermanager : StateTaskPeermanager}
      {stateLooplisten : StateTaskLooplisten}
      (hpeermanager : peermanager statePeermanager)
      (hlooplisten : looplisten stateLooplisten) :
      Complited peermanager looplisten .incidentChannelInitClosed
        (resultStateTasks statePeermanager stateLooplisten)
  | complitedPeerManager {resultPeermanager : Except ErrorPeerManager Unit}
      {stateLooplisten : StateTaskLooplisten}
      (hlooplisten : looplisten stateLooplisten) :
      Complited peermanager looplisten
        (.incidentComplitedPeerManager resultPeermanager)
        (resultAfterPeermanager resultPeermanager stateLooplisten)
  | complitedLoopListen {resultLooplisten : Except ErrorLoopListen Unit}
      {statePeermanager : StateTaskPeermanager}
      (hpeermanager : peermanager statePeermanager) :
      Complited peermanager looplisten
        (.incidentComplitedLoopListen resultLooplisten)
        (resultAfterLooplisten resultLooplisten statePeermanager)
  | joinHandlePeerManager {reason : JoinError} :
      Complited peermanager looplisten (.incidentJoinHandlePeerManager reason)
        (.error (.errorPeerManagerJoinHandle reason))
  | joinHandleLoopListen {reason : JoinError} :
      Complited peermanager looplisten (.incidentJoinHandleLoopListen reason)
        (.error (.errorLoopListenJoinHandle reason))

end P2PNetwork.ThreadNetwork
