import P2PNetwork.Core.EventLoop
import P2PNetwork.Core.FiniteTable
import P2PNetwork.Network.Peer

/-!
# The manager of the peers

`PeerManager::run` accepts and dials connections, gives each an id and a task,
and moves events between the peers and `HandleMessage`.  A turn of its loop is
a computation with at most one awaited send.  The task set, the scheduler and
the operating system are the environment: the id of a spawned task and the
outcome of `TcpStream::connect` come with the input they belong to.
-/

namespace P2PNetwork.Manager

open P2PNetwork.Events
open P2PNetwork.FiniteTable
open P2PNetwork.Handler
open P2PNetwork.PeerActor
open P2PNetwork.Wire

inductive ErrorPeerManager where
  | errorChannelThreadNetworkClosed
  | errorChannelLoopListenClosed
  | errorChannelHandleMessageClosed
  | errorChannelAllPeersClosed
  deriving DecidableEq

inductive ErrorSendEvents where
  | errorChannelPeerClosed
  | missingPeer
  deriving DecidableEq

inductive EventsCriticalCompletionPeerManager where
  | incidentConfirmationShutdown
  | incidentChannelThreadNetworkClosed
  | incidentChannelLoopListenClosed
  | incidentChannelProtocolClosed
  | incidentZeroPeers
  deriving DecidableEq

/-- The sender of a command channel is the task at its other end. -/
structure PeerSystemMetadata where
  socketAddress : SocketAddr
  typeConnect : TypeConnection
  txChannelPeermanagerToPeer : TaskId
  deriving DecidableEq

/-- A task of `set_task_peers`, with the id its peer was created with. -/
structure TaskPeer where
  id : TaskId
  peerid : PeerId
  deriving DecidableEq

structure PeerManager where
  peerid : PeerId
  setAllPeers : Table PeerId PeerSystemMetadata
  setTaskPeers : List TaskPeer
  setIdPeers : Table TaskId PeerId
  nonce : UInt64

def PeerManager.create (nonce : UInt64) : PeerManager where
  peerid := 1
  setAllPeers := ∅
  setTaskPeers := []
  setIdPeers := ∅
  nonce := nonce

/-- The sends of the manager. -/
inductive ManagerSend where
  | toProtocol (event : EventsPeerManager)
  | toPeer (task : TaskId) (event : EventsPeerManager)
  deriving DecidableEq

/-- What a peer's task yields to `join_next`. -/
abbrev ResultPeer := Except JoinError (PeerId × Except ErrorPeer SuccessPeer)

/-- What `select!` finds ready. -/
inductive ManagerInput where
  | incidentThreadNetwork (connect : Except IoError TcpStream)
      (incident : Option EventsThreadNetwork)
  | incidentLooplisten (incident : Option EventsLoopListen)
  | incidentProtocol (incident : Option EventsHandleMessage)
  | incidentPeer (incident : Option EventsPeer)
  | resultPeer (result : ResultPeer)

/-- A turn, or the rest of one, of the manager's loop. -/
abbrev ManagerTurn :=
  Await PeerManager ManagerSend Bool (Flow EventsCriticalCompletionPeerManager)

namespace PeerManager

/-! ## The branches of the loop -/

/-- Send an event to `HandleMessage`, or leave the loop when its channel is
closed. -/
def notifyProtocol (event : EventsPeerManager) (self : PeerManager) :
    ManagerTurn :=
  .issue self (.toProtocol event) fun delivered =>
    if delivered then .done self .next
    else .done self (.leave .incidentChannelProtocolClosed)

/-- The records of a new connection: its task, its entry and the id of its
task. -/
def addPeer (self : PeerManager) (task : TaskId) (newPeerid : PeerId)
    (address : SocketAddr) (typeConnect : TypeConnection) : PeerManager :=
  { self with
    setTaskPeers := self.setTaskPeers ++ [{ id := task, peerid := newPeerid }]
    setAllPeers := self.setAllPeers.insert newPeerid {
      socketAddress := address
      typeConnect := typeConnect
      txChannelPeermanagerToPeer := task }
    setIdPeers := self.setIdPeers.insert task newPeerid }

/-- A connected socket: the counter is taken and raised first, and lowered
again when the peer cannot be created. -/
def newConnection (task : TaskId) (socket : TcpStream) (address : SocketAddr)
    (typeConnect : TypeConnection) (self : PeerManager) : ManagerTurn :=
  let newPeerid := self.peerid
  let self := { self with peerid := self.peerid + 1 }
  match Peer.create newPeerid socket typeConnect with
  | .ok (_, localAddress) =>
      (self.addPeer task newPeerid address typeConnect).notifyProtocol
        (.incidentNewConnection {
          peerid := newPeerid
          typeConnection := typeConnect
          nonce := self.nonce
          localAddress := localAddress
          removeAddress := address })
  | .error _ => .done { self with peerid := self.peerid - 1 } .next

/-- `send_events_peer`. -/
def sendEventsPeer (basicPeerid : PeerId) (message : MessagePayload)
    (self : PeerManager) :
    Await PeerManager ManagerSend Bool (Except ErrorSendEvents Unit) :=
  match self.setAllPeers.lookup basicPeerid with
  | some peer =>
      .issue self
        (.toPeer peer.txChannelPeermanagerToPeer (.readyLowMessage message))
        fun delivered =>
          if delivered then .done self (.ok ())
          else .done self (.error .errorChannelPeerClosed)
  | none => .done self (.error .missingPeer)

/-- Drop the entry of a peer. -/
def removePeer (self : PeerManager) (peerid : PeerId) : PeerManager :=
  { self with setAllPeers := self.setAllPeers.erase peerid }

def protocolReadyMessage (peerid : PeerId) (message : MessagePayload)
    (self : PeerManager) : ManagerTurn :=
  (self.sendEventsPeer peerid message).bind fun self result =>
    match result with
    | .ok () => .done self .next
    | .error .errorChannelPeerClosed => .done (self.removePeer peerid) .next
    | .error .missingPeer => .done self .next

def violentComplitedPeer (peerid : PeerId) (self : PeerManager) : ManagerTurn :=
  match self.setAllPeers.lookup peerid with
  | some complitedPeer =>
      .issue self (.toPeer complitedPeer.txChannelPeermanagerToPeer .shutdown)
        fun _ => .done self .next
  | none => .done self .next

/-- The end of a peer: its entry goes and the counter is lowered. -/
def complitedPeer (self : PeerManager) (peerid : PeerId) : PeerManager :=
  { self.removePeer peerid with peerid := self.peerid - 1 }

/-- Every result of a peer is handled alike; a panicked task is found by its
task id. -/
def complitedPeerResult (self : PeerManager) : ResultPeer → ManagerTurn
  | .ok (peerid, _) =>
      (self.complitedPeer peerid).notifyProtocol (.incidentCompletedPeer peerid)
  | .error reason =>
      match self.setIdPeers.lookup reason.id with
      | some peerid =>
          (self.complitedPeer peerid).notifyProtocol
            (.incidentCompletedPeer peerid)
      | none => .done self .next

/-- A turn of `PeerManager::run`.  `task` is the id of the task that the turn
spawns, if it spawns one. -/
def turn (task : TaskId) : ManagerInput → PeerManager → ManagerTurn
  | .incidentThreadNetwork (.ok socket) (some (.outgoingConnection address)),
      self =>
      self.newConnection task socket address .outgoingConnection
  | .incidentThreadNetwork (.error _) (some (.outgoingConnection _)), self =>
      .done self .next
  | .incidentThreadNetwork _ (some .shutdown), self =>
      .done self (.leave .incidentConfirmationShutdown)
  | .incidentThreadNetwork _ none, self =>
      .done self (.leave .incidentChannelThreadNetworkClosed)
  | .incidentLooplisten (some (.incomingConnection socket address)), self =>
      self.newConnection task socket address .incomingConnection
  | .incidentLooplisten none, self =>
      .done self (.leave .incidentChannelLoopListenClosed)
  | .incidentProtocol (some (.readyMessage peerid message)), self =>
      self.protocolReadyMessage peerid message
  | .incidentProtocol (some (.incidetViolentComplitedPeer peerid)), self =>
      self.violentComplitedPeer peerid
  | .incidentProtocol none, self =>
      .done self (.leave .incidentChannelProtocolClosed)
  | .incidentPeer (some (.readyLowMessage peerid message)), self =>
      self.notifyProtocol (.readyMessage peerid message)
  | .incidentPeer (some _), self => .done self .next
  | .incidentPeer none, self => self.notifyProtocol .incidentCompletedAllPeer
  | .resultPeer result, self => self.complitedPeerResult result

/-! ## After the loop -/

/-- The peers that `bulk_peer_disconnection` sends `Shutdown` to. -/
def allTasks (self : PeerManager) : List TaskId :=
  self.setAllPeers.entries.map fun entry => entry.2.txChannelPeermanagerToPeer

/-- A task that `join_next` yields after the loop. -/
def drainPeer (self : PeerManager) : ResultPeer → PeerManager
  | .ok (peerid, _) => self.complitedPeer peerid
  | .error reason =>
      match self.setIdPeers.lookup reason.id with
      | some peerid => self.complitedPeer peerid
      | none => self

/-- What `PeerManager::run` returns when all tasks have been drained. -/
def criticalResult :
    EventsCriticalCompletionPeerManager → Except ErrorPeerManager Unit
  | .incidentConfirmationShutdown => .ok ()
  | .incidentChannelThreadNetworkClosed =>
      .error .errorChannelThreadNetworkClosed
  | .incidentChannelLoopListenClosed => .error .errorChannelLoopListenClosed
  | .incidentChannelProtocolClosed => .error .errorChannelHandleMessageClosed
  | .incidentZeroPeers => .error .errorChannelAllPeersClosed

end PeerManager

/-! ## What a turn does -/

/-- The inputs that do not come from the other tasks of the node. -/
def External : ManagerInput → Prop
  | .incidentThreadNetwork _ _ | .incidentLooplisten _ => True
  | _ => False

/-- The connections that a turn makes a peer of. -/
def Accepts (input : ManagerInput) : Prop :=
  ∃ socket : TcpStream,
    ((∃ address, input = .incidentThreadNetwork (.ok socket)
        (some (.outgoingConnection address))) ∨
      ∃ address, input = .incidentLooplisten
        (some (.incomingConnection socket address))) ∧
    (∃ remoteAddress, socket.peerAddr = .ok remoteAddress) ∧
    ∃ localAddress, socket.localAddr = .ok localAddress

/-- The peer that a turn spawns a task for. -/
def spawned : ManagerInput → PeerManager → Option Peer
  | .incidentThreadNetwork (.ok socket) (some (.outgoingConnection _)), self =>
      (Peer.create self.peerid socket .outgoingConnection).toOption.map Prod.fst
  | .incidentLooplisten (some (.incomingConnection socket _)), self =>
      (Peer.create self.peerid socket .incomingConnection).toOption.map Prod.fst
  | _, _ => none

section Turns

variable {self : PeerManager} {task : TaskId}

/-- A turn that may make a connection leaves the records as they are, or adds
a peer whose id is the counter's value and reports it. -/
inductive ConnectTurn (task : TaskId) (self : PeerManager) :
    Option Peer → ManagerTurn → Prop where
  | idle (flow : Flow EventsCriticalCompletionPeerManager) :
      ConnectTurn task self none (.done self flow)
  | accepted {peer : Peer} {context : StructContextConnection}
      (hpeer : peer.peerid = self.peerid)
      (hcontext : context.peerid = self.peerid) (address : SocketAddr)
      (typeConnect : TypeConnection) :
      ConnectTurn task self (some peer)
        (({ self with peerid := self.peerid + 1 }.addPeer task self.peerid
          address typeConnect).notifyProtocol (.incidentNewConnection context))

theorem newConnection_connectTurn (socket : TcpStream) (address : SocketAddr)
    (typeConnect : TypeConnection) :
    ConnectTurn task self
      ((Peer.create self.peerid socket typeConnect).toOption.map Prod.fst)
      (self.newConnection task socket address typeConnect) := by
  have hcounter : { self with peerid := self.peerid + 1 - 1 } = self := by simp
  unfold PeerManager.newConnection Peer.create
  cases hpeer : socket.peerAddr with
  | error reason =>
      simp only [hcounter]
      exact .idle .next
  | ok remoteAddress =>
      cases hlocal : socket.localAddr with
      | error reason =>
          simp only [hcounter]
          exact .idle .next
      | ok localAddress => exact .accepted rfl rfl address typeConnect

theorem turn_external {input : ManagerInput} (hexternal : External input) :
    ConnectTurn task self (spawned input self)
      (PeerManager.turn task input self) := by
  unfold PeerManager.turn
  split
  case h_1 => exact newConnection_connectTurn _ _ _
  case h_5 => exact newConnection_connectTurn _ _ _
  case h_3 connect => cases connect <;> exact .idle _
  case h_4 connect => cases connect <;> exact .idle _
  case h_2 => exact .idle _
  case h_6 => exact .idle _
  all_goals exact hexternal.elim

theorem created_of_toOption {peerid : PeerId} {socket : TcpStream}
    {typeConnect : TypeConnection} {peer : Peer}
    (hcreate : (Peer.create peerid socket typeConnect).toOption.map Prod.fst =
      some peer) :
    peer.peerid = peerid ∧
      (∃ remoteAddress, socket.peerAddr = .ok remoteAddress) ∧
      ∃ localAddress, socket.localAddr = .ok localAddress := by
  unfold Peer.create at hcreate
  cases hpeer : socket.peerAddr with
  | error reason => simp [hpeer, Except.toOption] at hcreate
  | ok remoteAddress =>
      cases hlocal : socket.localAddr with
      | error reason => simp [hpeer, hlocal, Except.toOption] at hcreate
      | ok localAddress =>
          simp only [hpeer, hlocal, Except.toOption, Option.map_some,
            Option.some.injEq] at hcreate
          exact ⟨by rw [← hcreate], ⟨_, rfl⟩, _, rfl⟩

theorem accepts_of_spawned {input : ManagerInput} {peer : Peer}
    (hspawned : spawned input self = some peer) : Accepts input := by
  unfold spawned at hspawned
  split at hspawned
  case h_1 socket address =>
    exact ⟨socket, .inl ⟨_, rfl⟩, (created_of_toOption hspawned).2⟩
  case h_2 socket address =>
    exact ⟨socket, .inr ⟨_, rfl⟩, (created_of_toOption hspawned).2⟩
  case h_3 => cases hspawned

theorem spawned_of_accepts {input : ManagerInput} (haccepts : Accepts input)
    (self : PeerManager) : ∃ peer, spawned input self = some peer := by
  obtain ⟨socket, hinput, ⟨remoteAddress, hpeer⟩, localAddress, hlocal⟩ :=
    haccepts
  obtain ⟨address, rfl⟩ | ⟨address, rfl⟩ := hinput <;>
    simp [spawned, Peer.create, hpeer, hlocal, Except.toOption]

/-- A turn about a peer sends into the channel of the peer's entry, if there is
one, and may drop the entry. -/
inductive ProtocolTurn (self : PeerManager) (peerid : PeerId) :
    ManagerTurn → Prop where
  | missing (hentry : self.setAllPeers.lookup peerid = none) :
      ProtocolTurn self peerid (.done self .next)
  | entry {entry : PeerSystemMetadata} {command : EventsPeerManager}
      {resume : Bool → ManagerTurn}
      (hentry : self.setAllPeers.lookup peerid = some entry)
      (hresume : ∀ delivered, resume delivered = .done self .next ∨
        resume delivered = .done (self.removePeer peerid) .next) :
      ProtocolTurn self peerid
        (.issue self (.toPeer entry.txChannelPeermanagerToPeer command) resume)

theorem turn_protocol (event : EventsHandleMessage) :
    ProtocolTurn self event.peerid
      (PeerManager.turn task (.incidentProtocol (some event)) self) := by
  cases event with
  | readyMessage peerid message =>
      simp only [PeerManager.turn, PeerManager.protocolReadyMessage,
        PeerManager.sendEventsPeer]
      cases hentry : self.setAllPeers.lookup peerid with
      | none => exact .missing hentry
      | some entry =>
          refine .entry hentry fun delivered => ?_
          cases delivered
          · exact .inr rfl
          · exact .inl rfl
  | incidetViolentComplitedPeer peerid =>
      simp only [PeerManager.turn, PeerManager.violentComplitedPeer]
      cases hentry : self.setAllPeers.lookup peerid with
      | none => exact .missing hentry
      | some entry => exact .entry hentry fun _ => .inl rfl

theorem turn_peer (event : EventsPeer) :
    PeerManager.turn task (.incidentPeer (some event)) self = .done self .next ∨
    ∃ peerid message, event = .readyLowMessage peerid message ∧
      PeerManager.turn task (.incidentPeer (some event)) self =
        self.notifyProtocol (.readyMessage peerid message) := by
  cases event with
  | readyLowMessage peerid message => exact .inr ⟨peerid, message, rfl, rfl⟩
  | _ => exact .inl rfl

theorem ProtocolTurn.state_eq {peerid : PeerId} {turn : ManagerTurn}
    (hturn : ProtocolTurn self peerid turn) : turn.state = self := by
  cases hturn <;> rfl

theorem turn_peer_state (event : EventsPeer) :
    (PeerManager.turn task (.incidentPeer (some event)) self).state = self := by
  cases event <;> rfl

theorem turn_result (result : ResultPeer) :
    PeerManager.turn task (.resultPeer result) self = .done self .next ∨
    ∃ peerid, PeerManager.turn task (.resultPeer result) self =
      (self.complitedPeer peerid).notifyProtocol
        (.incidentCompletedPeer peerid) := by
  cases result with
  | ok result => exact .inr ⟨result.1, rfl⟩
  | error reason =>
      cases hknown : self.setIdPeers.lookup reason.id with
      | none =>
          left
          simp only [PeerManager.turn, PeerManager.complitedPeerResult, hknown]
      | some peerid =>
          right
          refine ⟨peerid, ?_⟩
          simp only [PeerManager.turn, PeerManager.complitedPeerResult, hknown]

/-- Once its send is answered the turn ends, and at most an entry is
dropped. -/
def DropsOnly : ManagerTurn → Prop
  | .done _ _ => True
  | .issue self _ resume => ∀ delivered, ∃ self' flow,
      resume delivered = .done self' flow ∧
        (self' = self ∨ ∃ peerid, self' = self.removePeer peerid)

theorem DropsOnly.singleSend {turn : ManagerTurn} (hdrops : DropsOnly turn) :
    turn.SingleSend := by
  cases turn with
  | done self flow => trivial
  | issue self send resume =>
      intro delivered
      obtain ⟨self', flow, hdone, -⟩ := hdrops delivered
      exact ⟨self', flow, hdone⟩

theorem DropsOnly.resume {send : ManagerSend} {resume : Bool → ManagerTurn}
    (hdrops : DropsOnly (.issue self send resume)) (delivered : Bool) :
    DropsOnly (resume delivered) := by
  obtain ⟨self', flow, hdone, -⟩ := hdrops delivered
  rw [hdone]
  trivial

/-- What holds of the manager at a send, and would without one of its entries,
holds when the send is answered. -/
theorem DropsOnly.answered {property : PeerManager → Prop} {send : ManagerSend}
    {resume : Bool → ManagerTurn} (hdrops : DropsOnly (.issue self send resume))
    (hself : property self)
    (hremoved : ∀ peerid, property (self.removePeer peerid))
    (delivered : Bool) :
    property (resume delivered).state := by
  obtain ⟨self', flow, hdone, hself'⟩ := hdrops delivered
  rw [hdone]
  obtain rfl | ⟨peerid, rfl⟩ := hself'
  · exact hself
  · exact hremoved peerid

theorem notifyProtocol_dropsOnly (event : EventsPeerManager) :
    DropsOnly (self.notifyProtocol event) := by
  intro delivered
  cases delivered
  · exact ⟨self, .leave .incidentChannelProtocolClosed, rfl, .inl rfl⟩
  · exact ⟨self, .next, rfl, .inl rfl⟩

theorem ProtocolTurn.dropsOnly {peerid : PeerId} {turn : ManagerTurn}
    (hturn : ProtocolTurn self peerid turn) : DropsOnly turn := by
  cases hturn with
  | missing => trivial
  | entry hentry hresume =>
      intro delivered
      obtain hdone | hdone := hresume delivered
      · exact ⟨_, _, hdone, .inl rfl⟩
      · exact ⟨_, _, hdone, .inr ⟨peerid, rfl⟩⟩

theorem ConnectTurn.dropsOnly {peer : Option Peer} {turn : ManagerTurn}
    (hturn : ConnectTurn task self peer turn) : DropsOnly turn := by
  cases hturn with
  | idle => trivial
  | accepted => exact notifyProtocol_dropsOnly _

theorem turn_dropsOnly (input : ManagerInput) :
    DropsOnly (PeerManager.turn task input self) := by
  cases input with
  | incidentThreadNetwork connect incident =>
      exact (@turn_external self task (.incidentThreadNetwork connect incident)
        trivial).dropsOnly
  | incidentLooplisten incident =>
      exact (@turn_external self task (.incidentLooplisten incident)
        trivial).dropsOnly
  | incidentProtocol incident =>
      cases incident with
      | none => trivial
      | some event => exact (turn_protocol event).dropsOnly
  | incidentPeer incident =>
      cases incident with
      | none => exact notifyProtocol_dropsOnly _
      | some event =>
          obtain hdone | ⟨_, _, -, hturn⟩ := turn_peer event
          · exact hdone ▸ trivial
          · exact hturn ▸ notifyProtocol_dropsOnly _
  | resultPeer result =>
      obtain hdone | ⟨_, hturn⟩ := turn_result result
      · exact hdone ▸ trivial
      · exact hturn ▸ notifyProtocol_dropsOnly _

end Turns

/-! ## The task set -/

/-- How a peer's task has ended: with its result, or by a panic. -/
inductive TaskOutcome where
  | returned (result : Except ErrorPeer SuccessPeer)
  | panicked

/-- What `join_next` yields for a task. -/
def TaskPeer.joined (task : TaskPeer) : TaskOutcome → ResultPeer
  | .returned result => .ok (task.peerid, result)
  | .panicked => .error { id := task.id }

/-- `join_next` takes a task out of the set. -/
def PeerManager.takeTask (self : PeerManager) (task : TaskPeer) : PeerManager :=
  { self with setTaskPeers := self.setTaskPeers.erase task }

/-- Every task of the set was spawned before `next` and is known by its id. -/
structure TasksKnown (next : TaskId) (manager : PeerManager) : Prop where
  spawned : ∀ task ∈ manager.setTaskPeers, task.id < next
  known : ∀ task ∈ manager.setTaskPeers,
    manager.setIdPeers.lookup task.id = some task.peerid

theorem TasksKnown.create (next : TaskId) (nonce : UInt64) :
    TasksKnown next (PeerManager.create nonce) where
  spawned task htask := by simp [PeerManager.create] at htask
  known task htask := by simp [PeerManager.create] at htask

theorem TasksKnown.mono {next next' : TaskId} {self : PeerManager}
    (htasks : TasksKnown next self) (hnext : next ≤ next') :
    TasksKnown next' self where
  spawned task htask := lt_of_lt_of_le (htasks.spawned task htask) hnext
  known := htasks.known

theorem TasksKnown.addPeer {next : TaskId} {self : PeerManager}
    (htasks : TasksKnown next self) (peerid : PeerId) (address : SocketAddr)
    (typeConnect : TypeConnection) :
    TasksKnown (next + 1) (self.addPeer next peerid address typeConnect) where
  spawned task htask := by
    simp only [PeerManager.addPeer, List.mem_append, List.mem_singleton] at htask
    obtain htask | rfl := htask
    · exact Nat.lt_succ_of_lt (htasks.spawned task htask)
    · exact Nat.lt_succ_self next
  known task htask := by
    simp only [PeerManager.addPeer, List.mem_append, List.mem_singleton] at htask
    obtain htask | rfl := htask
    · have hne : task.id ≠ next := (htasks.spawned task htask).ne
      simpa [PeerManager.addPeer, hne] using htasks.known task htask
    · simp [PeerManager.addPeer]

theorem TasksKnown.complited {next : TaskId} {self : PeerManager}
    (htasks : TasksKnown next self) (task : TaskPeer) :
    TasksKnown next ((self.takeTask task).complitedPeer task.peerid) where
  spawned other hother := htasks.spawned other (List.mem_of_mem_erase hother)
  known other hother := htasks.known other (List.mem_of_mem_erase hother)

theorem ConnectTurn.tasksKnown {next : TaskId} {self : PeerManager}
    {peer : Option Peer} {turn : ManagerTurn}
    (hturn : ConnectTurn next self peer turn)
    (htasks : TasksKnown next self) : TasksKnown (next + 1) turn.state := by
  cases hturn with
  | idle flow => exact htasks.mono (Nat.le_succ next)
  | accepted hpeer hcontext address typeConnect =>
      have hcounter : TasksKnown next { self with peerid := self.peerid + 1 } :=
        ⟨htasks.spawned, htasks.known⟩
      exact hcounter.addPeer self.peerid address typeConnect

section Joined

variable {self : PeerManager} {task : TaskPeer}
variable (hknown : self.setIdPeers.lookup task.id = some task.peerid)
include hknown

theorem drainPeer_joined (outcome : TaskOutcome) :
    (self.takeTask task).drainPeer (task.joined outcome) =
      (self.takeTask task).complitedPeer task.peerid := by
  cases outcome with
  | returned result => rfl
  | panicked =>
      have hknown' : (self.takeTask task).setIdPeers.lookup task.id =
          some task.peerid := hknown
      simp only [PeerManager.drainPeer, TaskPeer.joined, hknown']

/-- The end of a known task is the end of its peer. -/
theorem turn_joined (next : TaskId) (outcome : TaskOutcome) :
    PeerManager.turn next (.resultPeer (task.joined outcome))
        (self.takeTask task) =
      ((self.takeTask task).complitedPeer task.peerid).notifyProtocol
        (.incidentCompletedPeer task.peerid) := by
  cases outcome with
  | returned result => rfl
  | panicked =>
      have hknown' : (self.takeTask task).setIdPeers.lookup task.id =
          some task.peerid := hknown
      simp only [PeerManager.turn, TaskPeer.joined,
        PeerManager.complitedPeerResult, hknown']

end Joined

end P2PNetwork.Manager
