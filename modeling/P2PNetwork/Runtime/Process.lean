import P2PNetwork.Network.PeerTasks
import P2PNetwork.Network.ThreadNetwork
import P2PNetwork.Protocol.ThreadProtocol
import P2PNetwork.Runtime.System

/-!
# The process

`main` starts the network thread and the protocol thread, waits until one of
them reports that it ends or until neither can report any more, tells the other
to shut down and joins both.  Each thread builds its runtime, runs its tasks in
it and supervises them.  The tasks on the path of an event are those of the
running node; here they end, panic or are dropped with their runtime as well.

A channel end goes when its owner does: a task's with the task, a thread's with
the thread.  Until its runtime is built a thread owns the ends of its tasks.
-/

namespace P2PNetwork.Supervision

open P2PNetwork.EventLoop
open P2PNetwork.Events
open P2PNetwork.Handler
open P2PNetwork.Handshake
open P2PNetwork.LoopListen
open P2PNetwork.Manager
open P2PNetwork.PeerSubtasks (Ends)
open P2PNetwork.Runtime (HandleStep HasLeft ManagerPhase ManagerStep PeerPhase
  PeerStep System)
open P2PNetwork.ThreadNetwork (ErrorThreadNetwork
  EventsCriticalCompletionThreadNetwork StateTaskLooplisten
  StateTaskPeermanager ThreadNetworkSend)
open P2PNetwork.ThreadProtocol (ErrorThreadProtocol
  EventsCriticalCompletionThreadProtocol StateHandlemessage)
open P2PNetwork.Wire (SocketAddr)

/-! ## `main` -/

/-- `Box<dyn Any + Send>`: what a panicked thread leaves to `join`. -/
structure PanicPayload where
  deriving DecidableEq

/-- `std::thread::Result`. -/
abbrev ThreadResult (α : Type) := Except PanicPayload α

inductive ErrorInit where
  | errorThreadProtocol (reason : ThreadResult ErrorThreadProtocol)
  | errorThreadNetwork (reason : ThreadResult ErrorThreadNetwork)
  | errorThreadNetworkThreadProtocol (network : ThreadResult ErrorThreadNetwork)
      (protocol : ThreadResult ErrorThreadProtocol)

/-- What `main` returns when both threads are joined. -/
def resultInit :
    ThreadResult (Except ErrorThreadNetwork Unit) →
      ThreadResult (Except ErrorThreadProtocol Unit) → Except ErrorInit Unit
  | .ok (.ok _), .ok (.ok _) => .ok ()
  | .ok (.error netErr), .ok (.ok _) =>
      .error (.errorThreadNetwork (.ok netErr))
  | .ok (.ok _), .ok (.error proErr) =>
      .error (.errorThreadProtocol (.ok proErr))
  | .ok (.error netErr), .ok (.error proErr) =>
      .error (.errorThreadNetworkThreadProtocol (.ok netErr) (.ok proErr))
  | .error netPanic, .ok (.ok _) =>
      .error (.errorThreadNetwork (.error netPanic))
  | .ok (.ok _), .error proPanic =>
      .error (.errorThreadProtocol (.error proPanic))
  | .error netPanic, .error proPanic =>
      .error (.errorThreadNetworkThreadProtocol (.error netPanic)
        (.error proPanic))
  | .error netPanic, .ok (.error proErr) =>
      .error (.errorThreadNetworkThreadProtocol (.error netPanic) (.ok proErr))
  | .ok (.error netErr), .error proPanic =>
      .error (.errorThreadNetworkThreadProtocol (.ok netErr) (.error proPanic))

/-- `main`: in its receive loop, in the two joins, or returned. -/
inductive MainPhase where
  | receiving
  | joiningNetwork
  | joiningProtocol (network : ThreadResult (Except ErrorThreadNetwork Unit))
  | returned (result : Except ErrorInit Unit)

def MainPhase.HasReturned : MainPhase → Prop
  | .returned _ => True
  | _ => False

/-! ## The threads -/

/-- A supervising thread: its runtime is being built, it is in its loop, it
shuts its tasks down with the sends `rest` still to be made, it is about to
return, or it has ended. -/
inductive ThreadPhase (incident send error : Type) where
  | starting
  | supervising
  | closing (reason : incident) (rest : List send)
  | leaving (result : Except error Unit)
  | ended (result : Except error Unit)

namespace ThreadPhase

variable {incident send error : Type}

/-- The thread is in `block_on`, so the tasks of its runtime run. -/
def Runs : ThreadPhase incident send error → Prop
  | .supervising | .closing _ _ => True
  | _ => False

def HasEnded : ThreadPhase incident send error → Prop
  | .ended _ => True
  | _ => False

end ThreadPhase

abbrev NetworkPhase :=
  ThreadPhase EventsCriticalCompletionThreadNetwork ThreadNetworkSend
    ErrorThreadNetwork

abbrev ProtocolPhase :=
  ThreadPhase EventsCriticalCompletionThreadProtocol EventsThreadProtocol
    ErrorThreadProtocol

/-! ## The tasks -/

/-- The task of `LoopListen`: it binds its listener, or is in its loop. -/
inductive LoopListenPhase where
  | binding
  | running (turn : LoopListenTurn)

/-- The task has ended, and its channel ends are gone. -/
def LoopListenPhase.HasEnded : LoopListenPhase → Prop
  | .binding => False
  | .running turn => HasLeft turn

/-- A task that panics, or whose runtime is dropped, leaves nothing behind but
what it has returned. -/
def dropTurn {σ ε ζ ρ : Type} : Await σ ε ζ (Flow ρ) → Await σ ε ζ (Flow ρ)
  | .done state (.leave result) => .done state (.leave result)
  | turn => .done turn.state .panicked

def dropLooplisten : LoopListenPhase → LoopListenPhase
  | .binding => .running (.done () .panicked)
  | .running turn => .running (dropTurn turn)

def dropPeermanager : ManagerPhase → ManagerPhase
  | .finished result self => .finished result self
  | manager => .dropped manager.registry

/-- The `JoinSet` of the manager aborts the peers when it is dropped. -/
def dropPeer : PeerPhase → PeerPhase
  | .looping _ => .finished .panicked
  | peer => peer

/-- What the handle of a task yields whose loop has ended with the turn. -/
inductive Joined {σ ε ζ ρ τ : Type} (result : ρ → τ) :
    Await σ ε ζ (Flow ρ) → Except JoinError τ → Prop where
  | ended (state : σ) {flow : Flow ρ} {incident : Except JoinError ρ}
      (hends : Ends flow incident) :
      Joined result (.done state flow) (incident.map result)

inductive LooplistenJoined : LoopListenPhase → StateTaskLooplisten → Prop where
  | ended {turn : LoopListenTurn} {result : StateTaskLooplisten}
      (hturn : Joined id turn result) :
      LooplistenJoined (.running turn) result

inductive PeermanagerJoined : ManagerPhase → StateTaskPeermanager → Prop where
  | returned (result : Except ErrorPeerManager Unit) (self : PeerManager) :
      PeermanagerJoined (.finished result self) (.ok result)
  | panicked (self : PeerManager) (reason : JoinError) :
      PeermanagerJoined (.dropped self) (.error reason)

abbrev HandlemessageJoined : HandleTurn → StateHandlemessage → Prop :=
  Joined HandleMessage.criticalResult

theorem joined_of_hasLeft {σ ε ζ ρ τ : Type} {turn : Await σ ε ζ (Flow ρ)}
    (hleft : HasLeft turn) (result : ρ → τ) :
    ∃ joined, Joined result turn joined := by
  rcases turn with ⟨state, _ | incident | _⟩ | _
  · exact hleft.elim
  · exact ⟨_, .ended state (.returned incident)⟩
  · exact ⟨_, .ended state (.panicked { id := 0 })⟩
  · exact hleft.elim

theorem joined_of_hasFinished {manager : ManagerPhase}
    (hfinished : manager.HasFinished) :
    ∃ joined, PeermanagerJoined manager joined := by
  cases manager with
  | finished result self => exact ⟨_, .returned result self⟩
  | dropped self => exact ⟨_, .panicked self { id := 0 }⟩
  | _ => exact hfinished.elim

theorem looplistenJoined_of_hasEnded {looplisten : LoopListenPhase}
    (hended : looplisten.HasEnded) :
    ∃ outcome, LooplistenJoined looplisten outcome := by
  cases looplisten with
  | binding => exact hended.elim
  | running turn =>
      obtain ⟨outcome, hjoined⟩ := joined_of_hasLeft hended id
      exact ⟨outcome, .ended hjoined⟩

theorem PeermanagerJoined.hasFinished {manager : ManagerPhase}
    {outcome : StateTaskPeermanager}
    (hjoined : PeermanagerJoined manager outcome) : manager.HasFinished := by
  cases hjoined <;> trivial

theorem LooplistenJoined.hasEnded {looplisten : LoopListenPhase}
    {outcome : StateTaskLooplisten}
    (hjoined : LooplistenJoined looplisten outcome) : looplisten.HasEnded := by
  obtain ⟨⟨state, hends⟩⟩ := hjoined
  cases hends <;> trivial

/-! ## The whole -/

/-- `main`, the two threads, `LoopListen` and the tasks of the node, with the
channels between them. -/
structure Process where
  main : MainPhase
  network : NetworkPhase
  protocol : ProtocolPhase
  looplisten : LoopListenPhase
  node : System
  initToNetwork : List EventsInit
  initToProtocol : List EventsInit
  toInit : List EventsThreadNetworkProtocol
  networkToPeermanager : List EventsThreadNetwork
  networkToLooplisten : List EventsThreadNetwork
  looplistenToPeermanager : List EventsLoopListen
  protocolToHandlemessage : List EventsThreadProtocol

def Process.initial (nonce : UInt64) : Process where
  main := .receiving
  network := .starting
  protocol := .starting
  looplisten := .binding
  node := .initial nonce
  initToNetwork := []
  initToProtocol := []
  toInit := []
  networkToPeermanager := []
  networkToLooplisten := []
  looplistenToPeermanager := []
  protocolToHandlemessage := []

namespace Process

/-- `main` tells the protocol thread to shut down; a thread that has ended does
not receive it. -/
def shutdownProtocol (process : Process) : Process :=
  match process.protocol with
  | .ended _ => process
  | _ =>
      { process with initToProtocol := process.initToProtocol ++ [.shutdown] }

def shutdownNetwork (process : Process) : Process :=
  match process.network with
  | .ended _ => process
  | _ => { process with initToNetwork := process.initToNetwork ++ [.shutdown] }

/-- The branches of the loop of `main`; each leaves it. -/
def receive (process : Process) :
    Option EventsThreadNetworkProtocol → Process
  | some .exitCompletionThreadNetwork =>
      { process.shutdownProtocol with main := .joiningNetwork }
  | some .exitCompletionThreadProtocol =>
      { process.shutdownNetwork with main := .joiningNetwork }
  | none => { process with main := .joiningNetwork }

/-- The task at the other end of a channel of the network thread is gone. -/
def Closed (process : Process) : ThreadNetworkSend → Prop
  | .toPeermanager _ => process.node.manager.HasFinished
  | .toLooplisten _ => process.looplisten.HasEnded

/-- The channel of a send of the network thread has a free place. -/
def HasRoom (process : Process) : ThreadNetworkSend → Prop
  | .toPeermanager _ => process.networkToPeermanager.length < channelCapacity
  | .toLooplisten _ => process.networkToLooplisten.length < channelCapacity

/-- Put an event of the network thread into its channel. -/
def deliver (process : Process) : ThreadNetworkSend → Process
  | .toPeermanager event =>
      { process with
        networkToPeermanager := process.networkToPeermanager ++ [event] }
  | .toLooplisten event =>
      { process with
        networkToLooplisten := process.networkToLooplisten ++ [event] }

/-- The task of the manager is gone, and the peers with it. -/
def dropManager (system : System) : System :=
  { system with
    manager := dropPeermanager system.manager
    peers := fun task => dropPeer (system.peers task) }

def dropHandle (system : System) : System :=
  { system with handle := dropTurn system.handle }

/-- The network thread leaves its supervising loop. -/
def leaveNetwork (process : Process)
    (incident : EventsCriticalCompletionThreadNetwork) : Process :=
  { process with
    network := .closing incident (ThreadNetwork.shutdownSends incident) }

/-- The protocol thread leaves its supervising loop. -/
def leaveProtocol (process : Process)
    (incident : EventsCriticalCompletionThreadProtocol) : Process :=
  { process with
    protocol := .closing incident (ThreadProtocol.shutdownSends incident) }

end Process

/-! ## Steps -/

inductive Label where
  | init
  | buildNetwork (result : Except IoError Unit)
  | buildProtocol (result : Except IoError Unit)
  | threadNetwork
  | threadProtocol
  | looplistenBind (result : Except IoError Unit)
  | looplistenAccept (result : Except IoError (TcpStream × SocketAddr))
  | looplistenThread
  | looplistenSend (delivered : Bool)
  | node (label : Runtime.Label)
  | panicLooplisten
  | panicPeermanager
  | panicHandlemessage

/-- Steps of `main`.  It has handed its own sender to the protocol thread, so
its channel is closed when both threads have ended. -/
inductive InitStep : Process → Label → Process → Prop where
  | receive {process : Process} {event : EventsThreadNetworkProtocol}
      {rest : List EventsThreadNetworkProtocol}
      (hmain : process.main = .receiving)
      (hqueue : process.toInit = event :: rest) :
      InitStep process .init ({ process with toInit := rest }.receive (some event))
  | closed {process : Process} (hmain : process.main = .receiving)
      (hqueue : process.toInit = []) (hnetwork : process.network.HasEnded)
      (hprotocol : process.protocol.HasEnded) :
      InitStep process .init (process.receive none)
  | joinNetwork {process : Process} {result : Except ErrorThreadNetwork Unit}
      (hmain : process.main = .joiningNetwork)
      (hnetwork : process.network = .ended result) :
      InitStep process .init { process with main := .joiningProtocol (.ok result) }
  | joinProtocol {process : Process}
      {network : ThreadResult (Except ErrorThreadNetwork Unit)}
      {result : Except ErrorThreadProtocol Unit}
      (hmain : process.main = .joiningProtocol network)
      (hprotocol : process.protocol = .ended result) :
      InitStep process .init
        { process with main := .returned (resultInit network (.ok result)) }

/-- Steps of the network thread.  `main` keeps its senders until it returns. -/
inductive NetworkStep : Process → Label → Process → Prop where
  | built {process : Process} (hstarting : process.network = .starting) :
      NetworkStep process (.buildNetwork (.ok ()))
        { process with network := .supervising }
  | buildFailed {process : Process} (hstarting : process.network = .starting)
      (reason : IoError) :
      NetworkStep process (.buildNetwork (.error reason))
        { process with network := .leaving (.error (.errorInputOutput reason)) }
  | init {process : Process} {event : EventsInit} {rest : List EventsInit}
      (hsupervising : process.network = .supervising)
      (hqueue : process.initToNetwork = event :: rest) :
      NetworkStep process .threadNetwork
        ({ process with initToNetwork := rest }.leaveNetwork
          (ThreadNetwork.incidentInit (some event)))
  | initClosed {process : Process}
      (hsupervising : process.network = .supervising)
      (hqueue : process.initToNetwork = [])
      (hclosed : process.main.HasReturned) :
      NetworkStep process .threadNetwork
        (process.leaveNetwork (ThreadNetwork.incidentInit none))
  | peermanager {process : Process} {result : StateTaskPeermanager}
      (hsupervising : process.network = .supervising)
      (hjoined : PeermanagerJoined process.node.manager result) :
      NetworkStep process .threadNetwork
        (process.leaveNetwork (ThreadNetwork.resultStatePeermanager result))
  | looplisten {process : Process} {result : StateTaskLooplisten}
      (hsupervising : process.network = .supervising)
      (hjoined : LooplistenJoined process.looplisten result) :
      NetworkStep process .threadNetwork
        (process.leaveNetwork (ThreadNetwork.resultStateLooplisten result))
  | send {process : Process} {incident : EventsCriticalCompletionThreadNetwork}
      {send : ThreadNetworkSend} {rest : List ThreadNetworkSend}
      (hclosing : process.network = .closing incident (send :: rest))
      (hopen : ¬ process.Closed send) (hroom : process.HasRoom send) :
      NetworkStep process .threadNetwork
        { process.deliver send with network := .closing incident rest }
  | sendClosed {process : Process}
      {incident : EventsCriticalCompletionThreadNetwork}
      {send : ThreadNetworkSend} {rest : List ThreadNetworkSend}
      (hclosing : process.network = .closing incident (send :: rest))
      (hclosed : process.Closed send) :
      NetworkStep process .threadNetwork
        { process with network := .closing incident rest }
  | complited {process : Process}
      {incident : EventsCriticalCompletionThreadNetwork}
      {result : Except ErrorThreadNetwork Unit}
      (hclosing : process.network = .closing incident [])
      (hcomplited : ThreadNetwork.Complited
        (PeermanagerJoined process.node.manager)
        (LooplistenJoined process.looplisten) incident result) :
      NetworkStep process .threadNetwork
        { process with
          network := .leaving result
          toInit := process.toInit ++ [.exitCompletionThreadNetwork] }
  | ended {process : Process} {result : Except ErrorThreadNetwork Unit}
      (hleaving : process.network = .leaving result) :
      NetworkStep process .threadNetwork
        { process with
          network := .ended result
          looplisten := dropLooplisten process.looplisten
          node := Process.dropManager process.node }

/-- Steps of the protocol thread. -/
inductive ProtocolStep : Process → Label → Process → Prop where
  | built {process : Process} (hstarting : process.protocol = .starting) :
      ProtocolStep process (.buildProtocol (.ok ()))
        { process with protocol := .supervising }
  | buildFailed {process : Process} (hstarting : process.protocol = .starting)
      (reason : IoError) :
      ProtocolStep process (.buildProtocol (.error reason))
        { process with protocol := .leaving (.error (.errorInputOutput reason)) }
  | init {process : Process} {event : EventsInit} {rest : List EventsInit}
      (hsupervising : process.protocol = .supervising)
      (hqueue : process.initToProtocol = event :: rest) :
      ProtocolStep process .threadProtocol
        ({ process with initToProtocol := rest }.leaveProtocol
          (ThreadProtocol.incidentInit (some event)))
  | initClosed {process : Process}
      (hsupervising : process.protocol = .supervising)
      (hqueue : process.initToProtocol = [])
      (hclosed : process.main.HasReturned) :
      ProtocolStep process .threadProtocol
        (process.leaveProtocol (ThreadProtocol.incidentInit none))
  | handlemessage {process : Process} {result : StateHandlemessage}
      (hsupervising : process.protocol = .supervising)
      (hjoined : HandlemessageJoined process.node.handle result) :
      ProtocolStep process .threadProtocol
        (process.leaveProtocol (ThreadProtocol.resultStateHandlemessage result))
  | send {process : Process} {incident : EventsCriticalCompletionThreadProtocol}
      {event : EventsThreadProtocol} {rest : List EventsThreadProtocol}
      (hclosing : process.protocol = .closing incident (event :: rest))
      (hopen : ¬ HasLeft process.node.handle)
      (hroom : process.protocolToHandlemessage.length < channelCapacity) :
      ProtocolStep process .threadProtocol
        { process with
          protocol := .closing incident rest
          protocolToHandlemessage :=
            process.protocolToHandlemessage ++ [event] }
  | sendClosed {process : Process}
      {incident : EventsCriticalCompletionThreadProtocol}
      {event : EventsThreadProtocol} {rest : List EventsThreadProtocol}
      (hclosing : process.protocol = .closing incident (event :: rest))
      (hclosed : HasLeft process.node.handle) :
      ProtocolStep process .threadProtocol
        { process with protocol := .closing incident rest }
  | complited {process : Process}
      {incident : EventsCriticalCompletionThreadProtocol}
      {result : Except ErrorThreadProtocol Unit}
      {reports : List EventsThreadNetworkProtocol}
      (hclosing : process.protocol = .closing incident [])
      (hcomplited : ThreadProtocol.Complited
        (HandlemessageJoined process.node.handle) incident result reports) :
      ProtocolStep process .threadProtocol
        { process with
          protocol := .leaving result
          toInit := process.toInit ++ reports }
  | ended {process : Process} {result : Except ErrorThreadProtocol Unit}
      (hleaving : process.protocol = .leaving result) :
      ProtocolStep process .threadProtocol
        { process with
          protocol := .ended result
          node := Process.dropHandle process.node }

/-- Steps of `LoopListen`.  The network thread keeps its senders as long as its
tasks run. -/
inductive LoopListenStep : Process → Label → Process → Prop where
  | bind {process : Process} (hruns : process.network.Runs)
      (hlooplisten : process.looplisten = .binding)
      (result : Except IoError Unit) :
      LoopListenStep process (.looplistenBind result)
        { process with looplisten := .running (bound result) }
  | accept {process : Process} (hruns : process.network.Runs)
      (hlooplisten : process.looplisten = .running (.done () .next))
      (result : Except IoError (TcpStream × SocketAddr)) :
      LoopListenStep process (.looplistenAccept result)
        { process with
          looplisten := .running (LoopListen.turn (.resultAccept result)) }
  | thread {process : Process} {event : EventsThreadNetwork}
      {rest : List EventsThreadNetwork} (hruns : process.network.Runs)
      (hlooplisten : process.looplisten = .running (.done () .next))
      (hqueue : process.networkToLooplisten = event :: rest) :
      LoopListenStep process .looplistenThread
        { process with
          looplisten := .running
            (LoopListen.turn (.incidentThreadNetwork (some event)))
          networkToLooplisten := rest }
  | send {process : Process} {event : EventsLoopListen}
      {resume : Bool → LoopListenTurn} (hruns : process.network.Runs)
      (hlooplisten : process.looplisten = .running (.issue () event resume))
      (hopen : ¬ process.node.manager.HasFinished)
      (hroom : process.looplistenToPeermanager.length < channelCapacity) :
      LoopListenStep process (.looplistenSend true)
        { process with
          looplisten := .running (resume true)
          looplistenToPeermanager :=
            process.looplistenToPeermanager ++ [event] }
  | sendClosed {process : Process} {event : EventsLoopListen}
      {resume : Bool → LoopListenTurn} (hruns : process.network.Runs)
      (hlooplisten : process.looplisten = .running (.issue () event resume))
      (hclosed : process.node.manager.HasFinished) :
      LoopListenStep process (.looplistenSend false)
        { process with looplisten := .running (resume false) }

/-- Steps of the tasks of the node.  What the manager takes from the network
thread and from `LoopListen`, and `HandleMessage` from the protocol thread,
comes through the channels between them. -/
inductive NodeStep : Process → Label → Process → Prop where
  | manager {process : Process} {label : Runtime.Label} {node : System}
      (hruns : process.network.Runs)
      (hstep : ManagerStep process.node label node)
      (hlabel : ∀ input, label ≠ .managerTake input) :
      NodeStep process (.node label) { process with node := node }
  | managerThread {process : Process} {node : System}
      {event : EventsThreadNetwork} {rest : List EventsThreadNetwork}
      (hruns : process.network.Runs)
      (hqueue : process.networkToPeermanager = event :: rest)
      (connect : Except IoError TcpStream)
      (hstep : ManagerStep process.node
        (.managerTake (.incidentThreadNetwork connect (some event))) node) :
      NodeStep process
        (.node (.managerTake (.incidentThreadNetwork connect (some event))))
        { process with node := node, networkToPeermanager := rest }
  | managerLooplisten {process : Process} {node : System}
      {event : EventsLoopListen} {rest : List EventsLoopListen}
      (hruns : process.network.Runs)
      (hqueue : process.looplistenToPeermanager = event :: rest)
      (hstep : ManagerStep process.node
        (.managerTake (.incidentLooplisten (some event))) node) :
      NodeStep process
        (.node (.managerTake (.incidentLooplisten (some event))))
        { process with node := node, looplistenToPeermanager := rest }
  | managerLooplistenClosed {process : Process} {node : System}
      (hruns : process.network.Runs)
      (hqueue : process.looplistenToPeermanager = [])
      (hclosed : process.looplisten.HasEnded)
      (hstep : ManagerStep process.node
        (.managerTake (.incidentLooplisten none)) node) :
      NodeStep process (.node (.managerTake (.incidentLooplisten none)))
        { process with node := node }
  | peer {process : Process} {label : Runtime.Label} {node : System}
      (hruns : process.network.Runs)
      (hstep : PeerStep process.node label node) :
      NodeStep process (.node label) { process with node := node }
  | handle {process : Process} {label : Runtime.Label} {node : System}
      (hruns : process.protocol.Runs)
      (hstep : HandleStep process.node label node)
      (hlabel : ∀ incident, label ≠ .handleThreadProtocol incident) :
      NodeStep process (.node label) { process with node := node }
  | handleThread {process : Process} {node : System}
      {event : EventsThreadProtocol} {rest : List EventsThreadProtocol}
      (hruns : process.protocol.Runs)
      (hqueue : process.protocolToHandlemessage = event :: rest)
      (hstep : HandleStep process.node
        (.handleThreadProtocol (some event)) node) :
      NodeStep process (.node (.handleThreadProtocol (some event)))
        { process with node := node, protocolToHandlemessage := rest }

/-- A task panics at any time before it has ended. -/
inductive PanicStep : Process → Label → Process → Prop where
  | looplisten {process : Process} (hruns : process.network.Runs)
      (hlooplisten : ¬ process.looplisten.HasEnded) :
      PanicStep process .panicLooplisten
        { process with looplisten := dropLooplisten process.looplisten }
  | peermanager {process : Process} (hruns : process.network.Runs)
      (hmanager : ¬ process.node.manager.HasFinished) :
      PanicStep process .panicPeermanager
        { process with node := Process.dropManager process.node }
  | handlemessage {process : Process} (hruns : process.protocol.Runs)
      (hhandle : ¬ HasLeft process.node.handle) :
      PanicStep process .panicHandlemessage
        { process with node := Process.dropHandle process.node }

inductive Step (before : Process) (label : Label) (after : Process) : Prop where
  | init (step : InitStep before label after)
  | network (step : NetworkStep before label after)
  | protocol (step : ProtocolStep before label after)
  | looplisten (step : LoopListenStep before label after)
  | node (step : NodeStep before label after)
  | panic (step : PanicStep before label after)

/-! ## The node inside the process -/

/-- The step drops no task of the node. -/
def DropsNothing (process : Process) : Label → Prop
  | .panicPeermanager | .panicHandlemessage => False
  | .threadNetwork => ∀ result, process.network ≠ .leaving result
  | .threadProtocol => ∀ result, process.protocol ≠ .leaving result
  | _ => True

/-- The steps of the node in a run of the process. -/
def nodeLabels (labels : List Label) : List Runtime.Label :=
  labels.filterMap fun
    | .node label => some label
    | _ => none

section Steps

variable {before after : Process} {label : Label}

@[simp]
theorem Process.protocol_deliver (process : Process)
    (send : ThreadNetworkSend) :
    (process.deliver send).protocol = process.protocol := by
  cases send <;> rfl

@[simp]
theorem Process.node_deliver (process : Process) (send : ThreadNetworkSend) :
    (process.deliver send).node = process.node := by
  cases send <;> rfl

theorem InitStep.frame (hstep : InitStep before label after) :
    after.network = before.network ∧ after.protocol = before.protocol ∧
      after.looplisten = before.looplisten ∧ after.node = before.node := by
  cases hstep with
  | @receive event rest hmain hqueue =>
      cases event <;>
        simp only [Process.receive, Process.shutdownProtocol,
          Process.shutdownNetwork] <;>
        split <;> exact ⟨rfl, rfl, rfl, rfl⟩
  | _ => exact ⟨rfl, rfl, rfl, rfl⟩

theorem NodeStep.frame (hstep : NodeStep before label after) :
    after.network = before.network ∧ after.protocol = before.protocol ∧
      after.looplisten = before.looplisten := by
  cases hstep <;> exact ⟨rfl, rfl, rfl⟩

/-- A step of one task of the node, in the thread that runs it. -/
inductive TaskStep (before after : Process) (own : Runtime.Label) : Prop where
  | manager (hruns : before.network.Runs)
      (hstep : ManagerStep before.node own after.node)
  | peer (hruns : before.network.Runs)
      (hstep : PeerStep before.node own after.node)
  | handle (hruns : before.protocol.Runs)
      (hstep : HandleStep before.node own after.node)

theorem NodeStep.task_step (hstep : NodeStep before label after) :
    ∃ own, label = .node own ∧ TaskStep before after own := by
  cases hstep with
  | manager hruns hstep => exact ⟨_, rfl, .manager hruns hstep⟩
  | managerThread hruns _ _ hstep => exact ⟨_, rfl, .manager hruns hstep⟩
  | managerLooplisten hruns _ hstep => exact ⟨_, rfl, .manager hruns hstep⟩
  | managerLooplistenClosed hruns _ _ hstep =>
      exact ⟨_, rfl, .manager hruns hstep⟩
  | peer hruns hstep => exact ⟨_, rfl, .peer hruns hstep⟩
  | handle hruns hstep => exact ⟨_, rfl, .handle hruns hstep⟩
  | handleThread hruns _ hstep => exact ⟨_, rfl, .handle hruns hstep⟩

/-- Steps of the tasks of the node are steps of the node. -/
theorem NodeStep.node_step (hstep : NodeStep before label after) :
    ∃ own, label = .node own ∧ Runtime.Step before.node own after.node := by
  obtain ⟨own, hlabel, htask⟩ := hstep.task_step
  cases htask with
  | manager _ hstep => exact ⟨own, hlabel, .manager hstep⟩
  | peer _ hstep => exact ⟨own, hlabel, .peer hstep⟩
  | handle _ hstep => exact ⟨own, hlabel, .handle hstep⟩

/-- The other steps that drop nothing do not touch the node. -/
theorem Step.node_step (hstep : Step before label after)
    (hdrops : DropsNothing before label) :
    (∃ own, label = .node own ∧ Runtime.Step before.node own after.node) ∨
      nodeLabels [label] = [] ∧ after.node = before.node := by
  cases hstep with
  | init hstep =>
      obtain ⟨-, -, -, hnode⟩ := hstep.frame
      cases hstep <;> exact .inr ⟨rfl, hnode⟩
  | network hstep =>
      cases hstep with
      | send => exact .inr ⟨rfl, by simp⟩
      | ended hleaving => exact absurd hleaving (hdrops _)
      | _ => exact .inr ⟨rfl, rfl⟩
  | protocol hstep =>
      cases hstep with
      | ended hleaving => exact absurd hleaving (hdrops _)
      | _ => exact .inr ⟨rfl, rfl⟩
  | looplisten hstep => cases hstep <;> exact .inr ⟨rfl, rfl⟩
  | node hstep => exact .inl hstep.node_step
  | panic hstep =>
      cases hstep with
      | looplisten => exact .inr ⟨rfl, rfl⟩
      | _ => exact hdrops.elim

/-- Until a task is dropped, the process runs the node. -/
theorem node_run {nonce : UInt64} {labels : List Label} {process : Process}
    (run : Run (Restrict Step DropsNothing) (.initial nonce) labels process) :
    Run Runtime.Step (.initial nonce) (nodeLabels labels) process.node := by
  induction run with
  | refl => exact .refl _
  | tail run last_step ih =>
      have hnodes : ∀ left right : List Label,
          nodeLabels (left ++ right) = nodeLabels left ++ nodeLabels right :=
        fun _ _ => List.filterMap_append
      rw [hnodes]
      obtain ⟨own, rfl, hstep⟩ | ⟨hlabel, hnode⟩ :=
        last_step.2.node_step last_step.1
      · exact ih.tail hstep
      · rw [hlabel, hnode, List.append_nil]
        exact ih

end Steps

end P2PNetwork.Supervision
