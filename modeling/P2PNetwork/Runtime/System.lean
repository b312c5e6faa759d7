import P2PNetwork.Network.PeerRegistry
import P2PNetwork.Protocol.HandleMessage

/-!
# The running node

`PeerManager`, `HandleMessage` and any number of peers, joined by their bounded
channels.  Every step is a step of one task; which task moves, and which ready
branch its `select!` takes, is free.  Sockets, the subtasks of a peer and the
two supervising threads are the environment.

A connection is identified by the task that serves it.  Every event in a
channel carries the connection it belongs to, and so do the records of
`HandleMessage`; these marks are ghost state that no step looks at.
-/

namespace P2PNetwork.Runtime

open P2PNetwork.EventLoop
open P2PNetwork.Events
open P2PNetwork.Handler
open P2PNetwork.Handshake
open P2PNetwork.Manager
open P2PNetwork.PeerActor
open P2PNetwork.TaskRead
open P2PNetwork.TaskWrite
open P2PNetwork.Wire

/-! ## The tasks -/

/-- The task has left its loop or panicked, and its channel ends are gone. -/
def HasLeft {σ ε ζ ρ : Type} : Await σ ε ζ (Flow ρ) → Prop
  | .done _ .next => False
  | .done _ _ => True
  | .issue _ _ _ => False

/-- `PeerManager::run`: in its loop, in `bulk_peer_disconnection` with the
tasks still to be told, in the `join_next` loop, or returned.  A panic of the
task, or the end of its runtime, drops it. -/
inductive ManagerPhase where
  | running (turn : ManagerTurn)
  | disconnecting (incident : EventsCriticalCompletionPeerManager)
      (self : PeerManager) (rest : List TaskId)
  | joining (incident : EventsCriticalCompletionPeerManager)
      (self : PeerManager)
  | finished (result : Except ErrorPeerManager Unit) (self : PeerManager)
  | dropped (self : PeerManager)

namespace ManagerPhase

def registry : ManagerPhase → PeerManager
  | .running turn => turn.state
  | .disconnecting _ self _ => self
  | .joining _ self => self
  | .finished _ self => self
  | .dropped self => self

/-- The manager has returned or was dropped, and its channel ends are gone. -/
def HasFinished : ManagerPhase → Prop
  | .finished _ _ | .dropped _ => True
  | _ => False

/-- The manager no longer receives and has not returned. -/
def Closing : ManagerPhase → Prop
  | .disconnecting _ _ _ | .joining _ _ => True
  | _ => False

/-- The send that the manager awaits. -/
def awaits : ManagerPhase → Option ManagerSend
  | .running (.issue _ send _) => some send
  | .disconnecting _ _ (task :: _) => some (.toPeer task .shutdown)
  | _ => none

theorem Closing.not_hasFinished {manager : ManagerPhase}
    (hclosing : manager.Closing) : ¬ manager.HasFinished := by
  cases manager with
  | disconnecting | joining => exact not_false
  | _ => exact hclosing.elim

theorem HasFinished.awaits_eq {manager : ManagerPhase}
    (hfinished : manager.HasFinished) : manager.awaits = none := by
  cases manager with
  | finished | dropped => rfl
  | _ => exact hfinished.elim

/-- The manager holds the sender of a task's command channel. -/
def HoldsSender (manager : ManagerPhase) (task : TaskId) : Prop :=
  ¬ manager.HasFinished ∧ task ∈ manager.registry.allTasks

end ManagerPhase

/-- A peer that has left its loop and waits for its subtasks is still
`looping`, in a turn that leaves. -/
inductive PeerPhase where
  | absent
  | looping (turn : PeerTurn)
  | finished (outcome : TaskOutcome)

def PeerPhase.HasFinished : PeerPhase → Prop
  | .finished _ => True
  | _ => False

/-- The peer is in a send to the manager. -/
def PeerPhase.Sends (peer : PeerPhase) (event : EventsPeer) : Prop :=
  ∃ self resume, peer = .looping (.issue self (.toPeerManager event) resume)

/-! ## The system -/

/-- Something that belongs to a connection. -/
structure Tagged (α : Type) where
  connection : TaskId
  event : α
  deriving DecidableEq

/-- The connections whose event made the records of `HandleMessage`. -/
structure Owners where
  context : PeerId → Option TaskId
  state : PeerId → Option TaskId

/-- `managing` and `handling` are the connections of the turns that the manager
and `HandleMessage` are in; with `owners` they are ghost state. -/
structure System where
  manager : ManagerPhase
  managing : TaskId
  handle : HandleTurn
  handling : TaskId
  owners : Owners
  peers : TaskId → PeerPhase
  toProtocol : List (Tagged EventsPeerManager)
  fromProtocol : List (Tagged EventsHandleMessage)
  fromPeers : List (Tagged EventsPeer)
  commands : TaskId → List EventsPeerManager
  next : TaskId

def System.initial (nonce : UInt64) : System where
  manager := .running (.done (PeerManager.create nonce) .next)
  managing := 0
  handle := .done HandleMessage.create .next
  handling := 0
  owners := { context := fun _ => none, state := fun _ => none }
  peers := fun _ => .absent
  toProtocol := []
  fromProtocol := []
  fromPeers := []
  commands := fun _ => []
  next := 0

namespace System

/-- The receiver of a send of the manager is gone. -/
def Closed (system : System) : ManagerSend → Prop
  | .toProtocol _ => HasLeft system.handle
  | .toPeer task _ => (system.peers task).HasFinished

/-- The channel of a send of the manager has a free place. -/
def HasRoom (system : System) : ManagerSend → Prop
  | .toProtocol _ => system.toProtocol.length < channelCapacity
  | .toPeer task _ => (system.commands task).length < channelCapacity

/-- Put an event of the manager into its channel. -/
def deliver (system : System) : ManagerSend → System
  | .toProtocol event =>
      { system with
        toProtocol := system.toProtocol ++
          [{ connection := system.managing, event := event }] }
  | .toPeer task event =>
      { system with
        commands := Function.update system.commands task
          (system.commands task ++ [event]) }

def setPeer (system : System) (task : TaskId) (peer : PeerPhase) : System :=
  { system with peers := Function.update system.peers task peer }

end System

/-- The peers after a turn that may spawn the task `task`. -/
def spawnPeer (peers : TaskId → PeerPhase) (task : TaskId) :
    Option Peer → TaskId → PeerPhase
  | none => peers
  | some peer => Function.update peers task (.looping (.done peer .next))

/-- Who made the records after `HandleMessage` has taken an event. -/
def Owners.take (owners : Owners) (self : HandleMessage)
    (item : Tagged EventsPeerManager) : Owners :=
  match item.event with
  | .incidentNewConnection context =>
      { context :=
          if context.peerid ∈ self.setContextPeers then owners.context
          else Function.update owners.context context.peerid
            (some item.connection)
        state :=
          if context.peerid ∈ self.setStatePeers then owners.state
          else Function.update owners.state context.peerid
            (some item.connection) }
  | .incidentCompletedPeer peerid =>
      { context := Function.update owners.context peerid none
        state := Function.update owners.state peerid none }
  | .incidentCompletedAllPeer =>
      { context := fun _ => none, state := fun _ => none }
  | _ => owners

/-! ## Steps -/

inductive Label where
  | managerTake (input : ManagerInput)
  | managerProtocol
  | managerPeer
  | managerJoin (task : TaskPeer)
  | managerSend (delivered : Bool)
  | managerLeave
  | managerDisconnect
  | managerDrain (task : TaskPeer)
  | managerFinish
  | handleThreadProtocol (incident : Option EventsThreadProtocol)
  | handlePeermanager (now : Except SystemTimeError UInt64)
  | handleSend (delivered : Bool)
  | peerCommand (task : TaskId)
  | peerSubtask (task : TaskId) (input : PeerInput)
  | peerSend (task : TaskId) (delivered : Bool)
  | peerWrite (task : TaskId) (delivered : Bool)
  | peerEnd (task : TaskId)

/-- Steps of the manager. -/
inductive ManagerStep : System → Label → System → Prop where
  | take {system : System} {self : PeerManager} {input : ManagerInput}
      (hmanager : system.manager = .running (.done self .next))
      (hexternal : External input) :
      ManagerStep system (.managerTake input)
        { system with
          manager := .running (PeerManager.turn system.next input self)
          managing := system.next
          peers := spawnPeer system.peers system.next (spawned input self)
          next := system.next + 1 }
  | protocol {system : System} {self : PeerManager}
      {item : Tagged EventsHandleMessage}
      {rest : List (Tagged EventsHandleMessage)}
      (hmanager : system.manager = .running (.done self .next))
      (hqueue : system.fromProtocol = item :: rest) :
      ManagerStep system .managerProtocol
        { system with
          manager := .running (PeerManager.turn system.next
            (.incidentProtocol (some item.event)) self)
          managing := item.connection
          fromProtocol := rest }
  | protocolClosed {system : System} {self : PeerManager}
      (hmanager : system.manager = .running (.done self .next))
      (hqueue : system.fromProtocol = []) (hclosed : HasLeft system.handle) :
      ManagerStep system .managerProtocol
        { system with
          manager := .running
            (PeerManager.turn system.next (.incidentProtocol none) self) }
  | peer {system : System} {self : PeerManager} {item : Tagged EventsPeer}
      {rest : List (Tagged EventsPeer)}
      (hmanager : system.manager = .running (.done self .next))
      (hqueue : system.fromPeers = item :: rest) :
      ManagerStep system .managerPeer
        { system with
          manager := .running (PeerManager.turn system.next
            (.incidentPeer (some item.event)) self)
          managing := item.connection
          fromPeers := rest }
  | join {system : System} {self : PeerManager} {task : TaskPeer}
      {outcome : TaskOutcome}
      (hmanager : system.manager = .running (.done self .next))
      (htask : task ∈ self.setTaskPeers)
      (hfinished : system.peers task.id = .finished outcome) :
      ManagerStep system (.managerJoin task)
        { system with
          manager := .running (PeerManager.turn system.next
            (.resultPeer (task.joined outcome)) (self.takeTask task))
          managing := task.id }
  | send {system : System} {self : PeerManager} {send : ManagerSend}
      {resume : Bool → ManagerTurn}
      (hmanager : system.manager = .running (.issue self send resume))
      (hopen : ¬ system.Closed send) (hroom : system.HasRoom send) :
      ManagerStep system (.managerSend true)
        { system.deliver send with manager := .running (resume true) }
  | sendClosed {system : System} {self : PeerManager} {send : ManagerSend}
      {resume : Bool → ManagerTurn}
      (hmanager : system.manager = .running (.issue self send resume))
      (hclosed : system.Closed send) :
      ManagerStep system (.managerSend false)
        { system with manager := .running (resume false) }
  | leave {system : System} {self : PeerManager}
      {incident : EventsCriticalCompletionPeerManager} {tasks : List TaskId}
      (hmanager : system.manager = .running (.done self (.leave incident)))
      (htasks : tasks.Perm self.allTasks) :
      ManagerStep system .managerLeave
        { system with manager := .disconnecting incident self tasks }
  | disconnect {system : System} {self : PeerManager}
      {incident : EventsCriticalCompletionPeerManager} {task : TaskId}
      {rest : List TaskId}
      (hmanager : system.manager = .disconnecting incident self (task :: rest))
      (hopen : ¬ system.Closed (.toPeer task .shutdown))
      (hroom : system.HasRoom (.toPeer task .shutdown)) :
      ManagerStep system .managerDisconnect
        { system.deliver (.toPeer task .shutdown) with
          manager := .disconnecting incident self rest }
  | disconnectClosed {system : System} {self : PeerManager}
      {incident : EventsCriticalCompletionPeerManager} {task : TaskId}
      {rest : List TaskId}
      (hmanager : system.manager = .disconnecting incident self (task :: rest))
      (hclosed : system.Closed (.toPeer task .shutdown)) :
      ManagerStep system .managerDisconnect
        { system with manager := .disconnecting incident self rest }
  | disconnected {system : System} {self : PeerManager}
      {incident : EventsCriticalCompletionPeerManager}
      (hmanager : system.manager = .disconnecting incident self []) :
      ManagerStep system .managerDisconnect
        { system with manager := .joining incident self }
  | drain {system : System} {self : PeerManager}
      {incident : EventsCriticalCompletionPeerManager} {task : TaskPeer}
      {outcome : TaskOutcome}
      (hmanager : system.manager = .joining incident self)
      (htask : task ∈ self.setTaskPeers)
      (hfinished : system.peers task.id = .finished outcome) :
      ManagerStep system (.managerDrain task)
        { system with
          manager := .joining incident
            ((self.takeTask task).drainPeer (task.joined outcome)) }
  | finish {system : System} {self : PeerManager}
      {incident : EventsCriticalCompletionPeerManager}
      (hmanager : system.manager = .joining incident self)
      (htasks : self.setTaskPeers = []) :
      ManagerStep system .managerFinish
        { system with
          manager := .finished (PeerManager.criticalResult incident) self }

/-- Steps of `HandleMessage`. -/
inductive HandleStep : System → Label → System → Prop where
  | threadProtocol {system : System} {self : HandleMessage}
      (hhandle : system.handle = .done self .next)
      (incident : Option EventsThreadProtocol) :
      HandleStep system (.handleThreadProtocol incident)
        { system with
          handle := HandleMessage.turn (.incidentThreadProtocol incident) self }
  | peermanager {system : System} {self : HandleMessage}
      {item : Tagged EventsPeerManager}
      {rest : List (Tagged EventsPeerManager)}
      (hhandle : system.handle = .done self .next)
      (hqueue : system.toProtocol = item :: rest)
      (now : Except SystemTimeError UInt64) :
      HandleStep system (.handlePeermanager now)
        { system with
          handle := HandleMessage.turn
            (.incidentPeermanager now (some item.event)) self
          handling := item.connection
          owners := system.owners.take self item
          toProtocol := rest }
  | peermanagerClosed {system : System} {self : HandleMessage}
      (hhandle : system.handle = .done self .next)
      (hqueue : system.toProtocol = [])
      (hfinished : system.manager.HasFinished)
      (now : Except SystemTimeError UInt64) :
      HandleStep system (.handlePeermanager now)
        { system with
          handle := HandleMessage.turn (.incidentPeermanager now none) self }
  | send {system : System} {self : HandleMessage}
      {event : EventsHandleMessage} {resume : Bool → HandleTurn}
      (hhandle : system.handle = .issue self event resume)
      (hopen : ¬ system.manager.HasFinished)
      (hroom : system.fromProtocol.length < channelCapacity) :
      HandleStep system (.handleSend true)
        { system with
          handle := resume true
          fromProtocol := system.fromProtocol ++
            [{ connection := system.handling, event := event }] }
  | sendClosed {system : System} {self : HandleMessage}
      {event : EventsHandleMessage} {resume : Bool → HandleTurn}
      (hhandle : system.handle = .issue self event resume)
      (hclosed : system.manager.HasFinished) :
      HandleStep system (.handleSend false)
        { system with handle := resume false }

/-- The inputs of a peer that come from its subtasks. -/
def FromSubtask : PeerInput → Prop
  | .incidentPeermanager _ => False
  | _ => True

/-- Steps of a peer.  Its subtasks may yield anything at any time, and a task
may panic at any time. -/
inductive PeerStep : System → Label → System → Prop where
  | command {system : System} {task : TaskId} {self : Peer}
      {event : EventsPeerManager} {rest : List EventsPeerManager}
      (hpeer : system.peers task = .looping (.done self .next))
      (hqueue : system.commands task = event :: rest) :
      PeerStep system (.peerCommand task)
        { system.setPeer task (.looping
            (PeerActor.turn (.incidentPeermanager (some event)) self)) with
          commands := Function.update system.commands task rest }
  | commandClosed {system : System} {task : TaskId} {self : Peer}
      (hpeer : system.peers task = .looping (.done self .next))
      (hqueue : system.commands task = [])
      (hclosed : ¬ system.manager.HoldsSender task) :
      PeerStep system (.peerCommand task)
        (system.setPeer task
          (.looping (PeerActor.turn (.incidentPeermanager none) self)))
  | subtask {system : System} {task : TaskId} {self : Peer} {input : PeerInput}
      (hpeer : system.peers task = .looping (.done self .next))
      (hinput : FromSubtask input) :
      PeerStep system (.peerSubtask task input)
        (system.setPeer task (.looping (PeerActor.turn input self)))
  | send {system : System} {task : TaskId} {self : Peer} {event : EventsPeer}
      {resume : Bool → PeerTurn}
      (hpeer : system.peers task =
        .looping (.issue self (.toPeerManager event) resume))
      (hopen : ¬ system.manager.HasFinished)
      (hroom : system.fromPeers.length < channelCapacity) :
      PeerStep system (.peerSend task true)
        { system.setPeer task (.looping (resume true)) with
          fromPeers := system.fromPeers ++
            [{ connection := task, event := event }] }
  | sendClosed {system : System} {task : TaskId} {self : Peer}
      {event : EventsPeer} {resume : Bool → PeerTurn}
      (hpeer : system.peers task =
        .looping (.issue self (.toPeerManager event) resume))
      (hclosed : system.manager.HasFinished) :
      PeerStep system (.peerSend task false)
        (system.setPeer task (.looping (resume false)))
  | write {system : System} {task : TaskId} {self : Peer} {event : EventsPeer}
      {resume : Bool → PeerTurn}
      (hpeer : system.peers task =
        .looping (.issue self (.toTaskWrite event) resume))
      (delivered : Bool) :
      PeerStep system (.peerWrite task delivered)
        (system.setPeer task (.looping (resume delivered)))
  | finish {system : System} {task : TaskId} {self : Peer}
      {incident : EventsCriticalCompletion}
      (hpeer : system.peers task = .looping (.done self (.leave incident)))
      (read : Except JoinError ResultTaskRead)
      (write : Except JoinError ResultTaskWrite) :
      PeerStep system (.peerEnd task)
        (system.setPeer task
          (.finished (.returned (spawnResult incident read write))))
  | panic {system : System} {task : TaskId} {turn : PeerTurn}
      (hpeer : system.peers task = .looping turn) :
      PeerStep system (.peerEnd task)
        (system.setPeer task (.finished .panicked))

inductive Step (before : System) (label : Label) (after : System) : Prop where
  | manager (step : ManagerStep before label after)
  | handle (step : HandleStep before label after)
  | peer (step : PeerStep before label after)

/-! ## Frames -/

section Frames

variable {before after : System} {label : Label}

@[simp]
theorem System.peers_deliver (system : System) (send : ManagerSend) :
    (system.deliver send).peers = system.peers := by
  cases send <;> rfl

@[simp]
theorem System.fromPeers_deliver (system : System) (send : ManagerSend) :
    (system.deliver send).fromPeers = system.fromPeers := by
  cases send <;> rfl

@[simp]
theorem System.handle_deliver (system : System) (send : ManagerSend) :
    (system.deliver send).handle = system.handle := by
  cases send <;> rfl

@[simp]
theorem System.next_deliver (system : System) (send : ManagerSend) :
    (system.deliver send).next = system.next := by
  cases send <;> rfl

/-- The manager changes the peers only by spawning one. -/
theorem ManagerStep.peers_eq (hstep : ManagerStep before label after) :
    after.peers = before.peers ∧ after.next = before.next ∨
      ∃ peer, after.peers = spawnPeer before.peers before.next peer ∧
        after.next = before.next + 1 := by
  cases hstep with
  | take => exact .inr ⟨_, rfl, rfl⟩
  | send | disconnect => exact .inl ⟨by simp, by simp⟩
  | _ => exact .inl ⟨rfl, rfl⟩

theorem HandleStep.peers_eq (hstep : HandleStep before label after) :
    after.peers = before.peers ∧ after.next = before.next := by
  cases hstep <;> exact ⟨rfl, rfl⟩

/-- A step of a peer is a step of a looping peer and changes no other. -/
theorem PeerStep.peers_eq (hstep : PeerStep before label after) :
    after.next = before.next ∧ ∃ task turn peer,
      before.peers task = .looping turn ∧
        after.peers = Function.update before.peers task peer := by
  cases hstep <;> exact ⟨rfl, _, _, _, by assumption, rfl⟩

theorem ManagerStep.handle_eq (hstep : ManagerStep before label after) :
    after.handle = before.handle := by
  cases hstep with
  | send | disconnect => simp
  | _ => rfl

theorem PeerStep.handle_eq (hstep : PeerStep before label after) :
    after.handle = before.handle := by
  cases hstep <;> rfl

theorem HandleStep.manager_eq (hstep : HandleStep before label after) :
    after.manager = before.manager := by
  cases hstep <;> rfl

theorem PeerStep.manager_eq (hstep : PeerStep before label after) :
    after.manager = before.manager := by
  cases hstep <;> rfl

theorem ManagerStep.not_finished (hstep : ManagerStep before label after) :
    ¬ before.manager.HasFinished := by
  cases hstep <;> simp_all [ManagerPhase.HasFinished]

end Frames

/-! ## The peers of a run -/

/-- Tasks are numbered in the order they are spawned, and a turn of a peer has
at most one send. -/
structure PeersInOrder (system : System) : Prop where
  absent : ∀ task, system.next ≤ task → system.peers task = .absent
  single : ∀ task turn, system.peers task = .looping turn → turn.SingleSend

theorem PeersInOrder.initial (nonce : UInt64) :
    PeersInOrder (System.initial nonce) where
  absent task htask := rfl
  single task turn hpeer := by cases hpeer

theorem PeersInOrder.spawn {system after : System} (horder : PeersInOrder system)
    {peer : Option Peer}
    (hpeers : after.peers = spawnPeer system.peers system.next peer)
    (hnext : after.next = system.next + 1) : PeersInOrder after where
  absent task htask := by
    rw [hnext] at htask
    have hlt : system.next < task := Nat.lt_of_succ_le htask
    rw [hpeers]
    cases peer <;> simp [spawnPeer, hlt.ne', horder.absent task hlt.le]
  single task turn hpeer := by
    rw [hpeers] at hpeer
    cases peer with
    | none => exact horder.single task turn hpeer
    | some peer =>
        by_cases htask : task = system.next
        · subst htask
          simp only [spawnPeer, Function.update_self, PeerPhase.looping.injEq]
            at hpeer
          simp [← hpeer]
        · exact horder.single task turn (by simpa [spawnPeer, htask] using hpeer)

theorem PeersInOrder.setPeer {system : System} (horder : PeersInOrder system)
    {task : TaskId} {turn : PeerTurn}
    (hpeer : system.peers task = .looping turn) {peer : PeerPhase}
    (hsingle : ∀ turn, peer = .looping turn → turn.SingleSend) :
    PeersInOrder (system.setPeer task peer) where
  absent other hother := by
    have hne : other ≠ task := by
      rintro rfl
      simp [horder.absent other hother] at hpeer
    simpa [System.setPeer, hne] using horder.absent other hother
  single other turn hturn := by
    by_cases hother : other = task
    · subst hother
      exact hsingle turn (by simpa [System.setPeer] using hturn)
    · exact horder.single other turn (by simpa [System.setPeer, hother] using hturn)

theorem PeersInOrder.congr {before after : System} (horder : PeersInOrder before)
    (hpeers : after.peers = before.peers) (hnext : after.next = before.next) :
    PeersInOrder after where
  absent task htask := by rw [hpeers, horder.absent task (hnext ▸ htask)]
  single task turn hpeer := horder.single task turn (hpeers ▸ hpeer)

/-- A peer takes up its next input. -/
theorem PeersInOrder.turnPeer {system : System} (horder : PeersInOrder system)
    {task : TaskId} {self : Peer} {flow : Flow EventsCriticalCompletion}
    (hpeer : system.peers task = .looping (.done self flow))
    (input : PeerInput) :
    PeersInOrder
      (system.setPeer task (.looping (PeerActor.turn input self))) := by
  apply horder.setPeer hpeer
  intro turn hturn
  cases hturn
  exact turn_singleSend _ _

/-- A send of a peer is answered. -/
theorem PeersInOrder.resumePeer {system : System} (horder : PeersInOrder system)
    {task : TaskId} {self : Peer} {send : PeerSend} {resume : Bool → PeerTurn}
    (hpeer : system.peers task = .looping (.issue self send resume))
    (delivered : Bool) :
    PeersInOrder (system.setPeer task (.looping (resume delivered))) := by
  apply horder.setPeer hpeer
  intro turn hturn
  cases hturn
  exact (horder.single _ _ hpeer).resume delivered

theorem PeersInOrder.peerStep {before after : System} {label : Label}
    (horder : PeersInOrder before) (hstep : PeerStep before label after) :
    PeersInOrder after := by
  cases hstep with
  | command hpeer hqueue => exact (horder.turnPeer hpeer _).congr rfl rfl
  | commandClosed hpeer hqueue hclosed => exact horder.turnPeer hpeer _
  | subtask hpeer hinput => exact horder.turnPeer hpeer _
  | send hpeer hopen hroom => exact (horder.resumePeer hpeer true).congr rfl rfl
  | sendClosed hpeer hclosed => exact horder.resumePeer hpeer false
  | write hpeer delivered => exact horder.resumePeer hpeer delivered
  | finish hpeer read write => exact horder.setPeer hpeer nofun
  | panic hpeer => exact horder.setPeer hpeer nofun

theorem PeersInOrder.step {before after : System} {label : Label}
    (horder : PeersInOrder before) (hstep : Step before label after) :
    PeersInOrder after := by
  cases hstep with
  | manager hstep =>
      obtain ⟨hpeers, hnext⟩ | ⟨peer, hpeers, hnext⟩ := hstep.peers_eq
      · exact horder.congr hpeers hnext
      · exact horder.spawn hpeers hnext
  | handle hstep => exact horder.congr hstep.peers_eq.1 hstep.peers_eq.2
  | peer hstep => exact horder.peerStep hstep

/-- Only a message of the reader makes a peer send to the manager. -/
theorem message_of_sends {input : PeerInput} {self : Peer} {event : EventsPeer}
    (hsends : (PeerPhase.looping (PeerActor.turn input self)).Sends event) :
    ∃ message, input = .incidentTaskRead (some message) := by
  obtain ⟨self', resume, hturn⟩ := hsends
  rw [PeerPhase.looping.injEq] at hturn
  unfold PeerActor.turn at hturn
  split at hturn
  case h_5 => exact ⟨_, rfl⟩
  all_goals cases hturn

theorem not_sends_of_singleSend {self : Peer} {send : PeerSend}
    {resume : Bool → PeerTurn}
    (hsingle : (Await.issue self send resume).SingleSend) (delivered : Bool)
    (event : EventsPeer) : ¬ (PeerPhase.looping (resume delivered)).Sends event := by
  obtain ⟨self', flow, hdone⟩ := hsingle delivered
  rw [hdone]
  rintro ⟨_, _, ⟨⟩⟩

/-! ## The manager of a run -/

/-- A turn of the manager has at most one send, and its channel to
`HandleMessage` is bounded. -/
structure ManagerInOrder (system : System) : Prop where
  single : ∀ turn, system.manager = .running turn → turn.SingleSend
  bounded : system.toProtocol.length ≤ channelCapacity

theorem ManagerInOrder.initial (nonce : UInt64) :
    ManagerInOrder (System.initial nonce) where
  single turn hturn := by
    cases hturn
    trivial
  bounded := Nat.zero_le _

theorem ManagerInOrder.managerStep {before after : System} {label : Label}
    (horder : ManagerInOrder before) (hstep : ManagerStep before label after) :
    ManagerInOrder after := by
  cases hstep with
  | take | protocol | protocolClosed | peer | join =>
      refine ⟨?_, horder.bounded⟩
      rintro turn ⟨⟩
      exact (turn_dropsOnly _).singleSend
  | @send self send resume hmanager hopen hroom =>
      refine ⟨?_, ?_⟩
      · rintro turn ⟨⟩
        exact (horder.single _ hmanager).resume true
      · cases send with
        | toProtocol event =>
            simp only [System.deliver, List.length_append, List.length_singleton]
            exact hroom
        | toPeer task command => exact horder.bounded
  | sendClosed hmanager hclosed =>
      refine ⟨?_, horder.bounded⟩
      rintro turn ⟨⟩
      exact (horder.single _ hmanager).resume false
  | _ => exact ⟨nofun, horder.bounded⟩

theorem ManagerInOrder.step {before after : System} {label : Label}
    (horder : ManagerInOrder before) (hstep : Step before label after) :
    ManagerInOrder after := by
  cases hstep with
  | manager hstep => exact horder.managerStep hstep
  | handle hstep =>
      cases hstep with
      | peermanager hhandle hqueue now =>
          have hbounded := horder.bounded
          rw [hqueue] at hbounded
          exact ⟨horder.single, (Nat.le_succ _).trans hbounded⟩
      | _ => exact ⟨horder.single, horder.bounded⟩
  | peer hstep => cases hstep <;> exact ⟨horder.single, horder.bounded⟩

/-! ## One connection -/

/-- The node after a connection was accepted. -/
def connected : System :=
  { System.initial 0 with
    manager := .running (.done ((PeerManager.create 0).accepted 0) .next)
    peers := Function.update (fun _ => .absent) 0
      (.looping (.done loopbackPeer .next))
    toProtocol := [{
      connection := 0
      event := .incidentNewConnection {
        peerid := 1
        typeConnection := .incomingConnection
        nonce := 0
        localAddress := loopback
        removeAddress := loopback } }]
    next := 1 }

/-- `HandleMessage`'s channel takes the event that a turn ends with. -/
theorem ManagerStep.notified {system : System} {self : PeerManager}
    {event : EventsPeerManager}
    (hmanager : system.manager = .running (self.notifyProtocol event))
    (hopen : ¬ HasLeft system.handle)
    (hroom : system.toProtocol.length < channelCapacity) :
    ManagerStep system (.managerSend true)
      { system with
        manager := .running (.done self .next)
        toProtocol := system.toProtocol ++
          [{ connection := system.managing, event := event }] } :=
  @ManagerStep.send system self (.toProtocol event) _ hmanager hopen hroom

theorem connected_restrict {condition : System → Label → Prop}
    (htake : condition (.initial 0) (.managerTake loopbackConnection))
    (hsend : ∀ system, condition system (.managerSend true)) :
    Run (Restrict Step condition) (.initial 0)
      [.managerTake loopbackConnection, .managerSend true] connected := by
  have htaken : Restrict Step condition (.initial 0)
      (.managerTake loopbackConnection) _ :=
    ⟨htake, .manager (.take rfl trivial)⟩
  exact .tail (.tail (.refl _) htaken) ⟨hsend _,
    .manager (.notified rfl not_false (Nat.zero_lt_succ _))⟩

theorem connected_run :
    Run Step (.initial 0) [.managerTake loopbackConnection, .managerSend true]
      connected :=
  (@connected_restrict (fun _ _ => True) trivial fun _ => trivial).mono
    fun _ _ _ hstep => hstep.2

/-- The reader of a peer has come to the end of its stream. -/
def endOfStream : PeerInput := .resultStateTaskRead (.ok (.ok .successfulEOF))

/-- The peer that was connected first, in the task set. -/
def firstPeer : TaskPeer where
  id := 0
  peerid := 1

/-- Two peers are connected, and the first one ends. -/
theorem survivor_run : ∃ labels system self,
    Run Step (.initial 0) labels system ∧
      system.manager = .running (.done self .next) ∧
      self.setTaskPeers = [{ id := 1, peerid := 2 }] ∧
      system.toProtocol = [] ∧ 2 ∈ system.handle.state.setContextPeers := by
  have htaken := connected_run.tail (.manager (@ManagerStep.take _ _
    loopbackConnection rfl trivial))
  have hsecond := htaken.tail (.manager (.notified rfl not_false (by decide)))
  have hleft := hsecond.tail
    (.peer (@PeerStep.subtask _ 0 _ endOfStream rfl trivial))
  have hended := hleft.tail (.peer (@PeerStep.finish _ 0 _ _ rfl
    (.ok (.ok .successfulEOF)) (.ok (.ok .successful))))
  have hjoined := hended.tail (.manager (@ManagerStep.join _ _ firstPeer _ rfl
    (by decide) rfl))
  have hnotified := hjoined.tail (.manager (.notified rfl not_false (by decide)))
  have hfirst := hnotified.tail (.handle (.peermanager rfl rfl (.ok 0)))
  have hboth := hfirst.tail (.handle (.peermanager rfl rfl (.ok 0)))
  have hdrained := hboth.tail (.handle (.peermanager rfl rfl (.ok 0)))
  exact ⟨_, _, _, hdrained, rfl, rfl, rfl, by decide⟩
/-- A verack that the handshake did not ask for. -/
def strayVerack : MessagePayload := .verack VerackMessage.buildVerackMessage

def readVerack : PeerInput := .incidentTaskRead (some (.lowRawMessage strayVerack))

/-- The peer has taken a stray verack from its reader. -/
def holdingVerack : PeerPhase :=
  .looping (PeerActor.turn readVerack loopbackPeer)

theorem read_verack {system : System}
    (hpeer : system.peers 0 = .looping (.done loopbackPeer .next)) :
    Step system (.peerSubtask 0 readVerack) (system.setPeer 0 holdingVerack) :=
  .peer (.subtask hpeer trivial)

/-- A stray verack on its way to the manager. -/
def queuedVerack : Tagged EventsPeer where
  connection := 0
  event := .readyLowMessage 1 strayVerack

/-- The peer reads a stray verack and passes it on. -/
theorem verack_run {system : System}
    (hpeer : system.peers 0 = .looping (.done loopbackPeer .next))
    (hopen : ¬ system.manager.HasFinished)
    (hroom : system.fromPeers.length < channelCapacity) :
    Run Step system [.peerSubtask 0 readVerack, .peerSend 0 true]
      { system with fromPeers := system.fromPeers ++ [queuedVerack] } := by
  have hread := read_verack hpeer
  have hsend : Step (system.setPeer 0 holdingVerack) (.peerSend 0 true) _ :=
    .peer (.send (by simp [System.setPeer, holdingVerack]; rfl) hopen hroom)
  refine .tail (.tail (.refl _) hread) ?_
  convert hsend using 1
  simp only [System.setPeer, Function.update_idem, System.mk.injEq, true_and,
    and_true]
  refine ⟨?_, rfl⟩
  rw [eq_comm, Function.update_eq_self_iff]
  exact hpeer.symm

end P2PNetwork.Runtime
