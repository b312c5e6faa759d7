import P2PNetwork.Runtime.DeadHalf
import P2PNetwork.Runtime.SpawnedTasks

/-!
# The work left in the node

A bound for the steps that the node can make without the outside world.  Every
event is counted with what it can set off: a command of a peer is one step, an
answer of `HandleMessage` lets the manager send one command, a notice of the
manager lets `HandleMessage` send two answers, and a message of a peer, like the
end of a task, lets the manager send one notice.  Each step of the node takes
from the sum.
-/

namespace P2PNetwork.Runtime

open P2PNetwork.Events
open P2PNetwork.Handler
open P2PNetwork.Handshake
open P2PNetwork.Manager
open P2PNetwork.PeerActor
open P2PNetwork.Supervision (NodeInternal)
open P2PNetwork.Wire

/-! ## What is left to do -/

/-- Between two turns a loop can still find its channel closed. -/
def loopWork {σ ρ : Type} (_state : σ) : Flow ρ → ℕ
  | .next => 1
  | _ => 0

/-- The disconnection of the peers and the ends of their tasks. -/
def registryWork (self : PeerManager) : ℕ :=
  2 * self.setAllPeers.entries.length + 11 * self.setTaskPeers.length

def managerSendWork : ManagerSend → ℕ
  | .toProtocol _ => 10
  | .toPeer _ _ => 2

def managerLoopWork (self : PeerManager) :
    Flow EventsCriticalCompletionPeerManager → ℕ
  | .next => registryWork self + 4
  | .leave _ => registryWork self + 3
  | .panicked => 0

def ManagerPhase.work : ManagerPhase → ℕ
  | .running turn => turn.cost managerSendWork managerLoopWork
  | .disconnecting _ self rest =>
      2 * rest.length + 11 * self.setTaskPeers.length + 2
  | .joining _ self => 11 * self.setTaskPeers.length + 1
  | .finished _ _ | .dropped _ => 0

def handleWork (turn : HandleTurn) : ℕ := turn.cost (fun _ => 4) loopWork

def peerSendWork : PeerSend → ℕ
  | .toPeerManager _ => 12
  | .toTaskRead _ | .toTaskWrite _ => 0

def PeerPhase.work : PeerPhase → ℕ
  | .looping turn => turn.cost peerSendWork loopWork
  | _ => 0

namespace System

def peersWork (system : System) : ℕ :=
  ∑ task ∈ Finset.range system.next, (system.peers task).work

def commandsWork (system : System) : ℕ :=
  ∑ task ∈ Finset.range system.next, (system.commands task).length

def work (system : System) : ℕ :=
  system.manager.work + handleWork system.handle + system.peersWork +
    system.commandsWork + 9 * system.toProtocol.length +
    3 * system.fromProtocol.length + 11 * system.fromPeers.length

end System

/-! ## Turns -/

section Turns

variable {self : PeerManager} {task : TaskId}

theorem cost_notifyProtocol (event : EventsPeerManager) :
    (self.notifyProtocol event).cost managerSendWork managerLoopWork =
      registryWork self + 14 := by
  simp [PeerManager.notifyProtocol, managerSendWork, managerLoopWork]
  omega

theorem registryWork_le {other : PeerManager}
    (hentries : other.setAllPeers.entries.Sublist self.setAllPeers.entries)
    (htasks : other.setTaskPeers.length ≤ self.setTaskPeers.length) :
    registryWork other ≤ registryWork self := by
  have hlength := hentries.length_le
  unfold registryWork
  omega

theorem registryWork_removePeer (peerid : PeerId) :
    registryWork (self.removePeer peerid) ≤ registryWork self :=
  registryWork_le (removePeer_entries self peerid) (le_refl _)

theorem registryWork_complitedPeer (peerid : PeerId) :
    registryWork (self.complitedPeer peerid) ≤ registryWork self :=
  registryWork_le (complitedPeer_entries self peerid) (le_refl _)

theorem registryWork_takeTask {task : TaskPeer}
    (htask : task ∈ self.setTaskPeers) :
    registryWork (self.takeTask task) + 11 = registryWork self := by
  have hlength := List.length_erase_of_mem htask
  have hpos := List.length_pos_of_mem htask
  simp only [registryWork, PeerManager.takeTask]
  omega

theorem registryWork_addPeer (newPeerid : PeerId) (address : SocketAddr)
    (typeConnect : TypeConnection) :
    registryWork (self.addPeer task newPeerid address typeConnect) ≤
      registryWork self + 13 := by
  obtain ⟨entry, rest, hcons, -, hrest⟩ :=
    addPeer_entries self task newPeerid address typeConnect
  have hlength := hrest.length_le
  unfold registryWork
  rw [hcons]
  simp only [PeerManager.addPeer, List.length_append, List.length_cons,
    List.length_nil]
  omega

theorem cost_protocolTurn {peerid : PeerId} {turn : ManagerTurn}
    (hturn : ProtocolTurn self peerid turn) :
    turn.cost managerSendWork managerLoopWork ≤ registryWork self + 6 := by
  cases hturn with
  | missing => simp [managerLoopWork]
  | @entry entry command resume hentry hresume =>
      have hanswered (delivered : Bool) :
          (resume delivered).cost managerSendWork managerLoopWork ≤
            registryWork self + 4 := by
        obtain hdone | hdone := hresume delivered
        · rw [hdone]
          exact le_refl _
        · rw [hdone]
          exact Nat.add_le_add_right (registryWork_removePeer peerid) 4
      have hfirst := hanswered true
      have hsecond := hanswered false
      simp only [Await.cost_issue, managerSendWork]
      omega

theorem cost_connectTurn {peer : Option Peer} {turn : ManagerTurn}
    (hturn : ConnectTurn task self peer turn) :
    turn.cost managerSendWork managerLoopWork +
      (peer.elim 0 fun _ => 1) ≤ registryWork self + 28 := by
  cases hturn with
  | idle flow => cases flow <;> simp [managerLoopWork]
  | accepted hpeer hcontext address typeConnect =>
      have hadded := @registryWork_addPeer { self with peerid := self.peerid + 1 }
        task self.peerid address typeConnect
      have hsame : registryWork { self with peerid := self.peerid + 1 } =
          registryWork self := rfl
      rw [cost_notifyProtocol]
      simp only [Option.elim_some]
      omega

end Turns

section HandleTurns

/-- A message lets `HandleMessage` make two sends. -/
theorem cost_handleMsg (now : Except SystemTimeError UInt64) (peerid : PeerId)
    (message : MessagePayload) (context : PeerContextMetadata)
    (state : PeerStateMetadata) :
    (handleMsg now peerid message context state).cost (fun _ => 4)
      (fun _ _ => 1) ≤ 9 := by
  have hviolent (reason : ErrorHandle) (state : PeerStateMetadata) :
      (violentCompleted peerid reason state).cost (fun _ => 4)
        (fun _ _ => 1) = 5 := by
    simp [violentCompleted]
  have hanswer (state : PeerStateMetadata) :
      (answerVerack peerid state).cost (fun _ => 4) (fun _ _ => 1) = 5 := by
    simp [answerVerack]
  unfold handleMsg
  split
  · split
    · unfold handleIncomingVersion
      split_ifs
      · dsimp only
        split
        · simp [hanswer]
        · simp
      · simp
      · simp [hviolent]
    · unfold handleOutgoingVersion
      split_ifs <;> simp [hanswer, hviolent]
  · unfold handleVerack
    split_ifs
    · dsimp only
      split_ifs <;> simp [hviolent]
    · simp [hviolent]

theorem cost_afterHandleMsg (peerid : PeerId) (self : HandleMessage)
    (result : Except ErrorHandle Unit) :
    (self.afterHandleMsg peerid result).cost (fun _ => 4) loopWork ≤ 1 := by
  cases result with
  | ok => simp only [HandleMessage.afterHandleMsg]; split_ifs <;> simp [loopWork]
  | error => exact le_refl _

theorem cost_readyMessage (now : Except SystemTimeError UInt64)
    (peerid : PeerId) (message : MessagePayload) (self : HandleMessage) :
    handleWork (self.readyMessage now peerid message) ≤ 9 := by
  unfold handleWork HandleMessage.readyMessage
  split_ifs
  · split
    · rw [Await.cost_bind, Await.cost_within]
      apply (Await.cost_mono _ fun _ _ => cost_afterHandleMsg peerid _ _).trans
      exact cost_handleMsg now peerid message _ _
    · simp [loopWork]
  · simp [loopWork]
  · simp [loopWork]

theorem cost_newConnection (now : Except SystemTimeError UInt64)
    (context : StructContextConnection) (self : HandleMessage) :
    handleWork (self.newConnection now context) ≤ 9 := by
  simp only [handleWork, HandleMessage.newConnection]
  split_ifs
  · split
    · simp [loopWork]
    · split
      · simp [loopWork]
      · split <;> simp [loopWork]
  · simp [loopWork]

/-- An event of the manager lets `HandleMessage` make two sends. -/
theorem cost_handleTurn (now : Except SystemTimeError UInt64)
    (event : EventsPeerManager) (self : HandleMessage) :
    handleWork (HandleMessage.turn (.incidentPeermanager now (some event)) self)
      ≤ 9 := by
  cases event with
  | readyMessage peerid message => exact cost_readyMessage now peerid message self
  | incidentNewConnection context => exact cost_newConnection now context self
  | _ => simp [HandleMessage.turn, handleWork, loopWork]

end HandleTurns

/-! ## Sums over the tasks -/

/-- An update at one index changes a sum by the change there. -/
theorem sum_update {α : Type} (size : α → ℕ) (values : ℕ → α) {count index : ℕ}
    (hindex : index < count) (value : α) :
    ∑ other ∈ Finset.range count, size (Function.update values index value other) +
        size (values index) =
      ∑ other ∈ Finset.range count, size (values other) + size value := by
  have hmem : index ∈ Finset.range count := Finset.mem_range.mpr hindex
  have hupdate : (fun other => size (Function.update values index value other)) =
      Function.update (fun other => size (values other)) index (size value) := by
    funext other
    exact Function.apply_update (fun _ => size) values index value other
  have hsplit := Finset.add_sum_erase (Finset.range count)
    (fun other => size (values other)) hmem
  rw [hupdate, Finset.sum_update_of_mem hmem, Finset.sdiff_singleton_eq_erase]
  omega

theorem sum_update_of_le {α : Type} (size : α → ℕ) (values : ℕ → α)
    {count index : ℕ} (hindex : count ≤ index) (value : α) :
    ∑ other ∈ Finset.range count, size (Function.update values index value other) =
      ∑ other ∈ Finset.range count, size (values other) := by
  refine Finset.sum_congr rfl fun other hother => ?_
  have hne : other ≠ index := ((Finset.mem_range.mp hother).trans_le hindex).ne
  rw [Function.update_of_ne hne]

/-! ## Steps -/

section Steps

variable {before after : System} {label : Label}

/-- A peer goes on from one phase to another. -/
theorem work_setPeer (hspawned : SpawnedOnly before) {task : TaskId}
    {turn : PeerTurn} (hpeer : before.peers task = .looping turn)
    (peer : PeerPhase) :
    (before.setPeer task peer).work + (PeerPhase.looping turn).work =
      before.work + peer.work := by
  have hsum := sum_update PeerPhase.work before.peers
    (hspawned.lt_of_looping hpeer) peer
  rw [hpeer] at hsum
  simp only [System.work, System.peersWork, System.commandsWork, System.setPeer]
  omega

/-- A peer takes a command. -/
theorem work_takeCommand {task : TaskId} {event : EventsPeerManager}
    {rest : List EventsPeerManager} (htask : task < before.next)
    (hqueue : before.commands task = event :: rest) :
    System.work { before with
      commands := Function.update before.commands task rest } + 1 =
        before.work := by
  have hsum := sum_update List.length before.commands htask rest
  rw [hqueue, List.length_cons] at hsum
  simp only [System.work, System.peersWork, System.commandsWork]
  omega

/-- A peer passes a message on. -/
theorem work_sendMessage (system : System) (item : Tagged EventsPeer) :
    System.work { system with fromPeers := system.fromPeers ++ [item] } =
      system.work + 11 := by
  simp only [System.work, System.peersWork, System.commandsWork,
    List.length_append, List.length_singleton]
  omega

theorem commandsWork_deliver_le (system : System) (send : ManagerSend) :
    (system.deliver send).commandsWork ≤ system.commandsWork +
      match send with
      | .toProtocol _ => 0
      | .toPeer _ _ => 1 := by
  cases send with
  | toProtocol event => exact le_refl _
  | toPeer task event =>
      obtain hlt | hge := Nat.lt_or_ge task system.next
      · have hsum := sum_update List.length system.commands hlt
          (system.commands task ++ [event])
        rw [List.length_append, List.length_singleton] at hsum
        simp only [System.commandsWork, System.deliver]
        omega
      · have hsum := sum_update_of_le List.length system.commands hge
          (system.commands task ++ [event])
        simp only [System.commandsWork, System.deliver]
        omega

theorem PeerStep.work_lt (hstep : PeerStep before label after)
    (hspawned : SpawnedOnly before) (hinternal : NodeInternal label) :
    after.work < before.work := by
  cases hstep with
  | @command task self event rest hpeer hqueue =>
      have hturn : (PeerPhase.looping
          (PeerActor.turn (.incidentPeermanager (some event)) self)).work ≤ 1 := by
        cases event <;> simp [PeerPhase.work, PeerActor.turn, forward, loopWork,
          peerSendWork]
      have hidle : (PeerPhase.looping (.done self .next)).work = 1 := rfl
      generalize PeerActor.turn (.incidentPeermanager (some event)) self = turned
        at hturn ⊢
      have hmoved := work_setPeer hspawned hpeer (.looping turned)
      have htaken := @work_takeCommand (before.setPeer task (.looping turned)) task
        event rest (hspawned.lt_of_looping hpeer) hqueue
      exact lt_of_lt_of_le (Nat.lt_of_succ_le htaken.le) (by omega)
  | @commandClosed task self hpeer hqueue hclosed =>
      have hmoved := work_setPeer hspawned hpeer
        (.looping (PeerActor.turn (.incidentPeermanager none) self))
      have hidle : (PeerPhase.looping (.done self .next)).work = 1 := rfl
      have hleft : (PeerPhase.looping
          (PeerActor.turn (.incidentPeermanager none) self)).work = 0 := rfl
      omega
  | @send task self event resume hpeer hopen hroom =>
      have hmoved := work_setPeer hspawned hpeer (.looping (resume true))
      have hsent := work_sendMessage
        (before.setPeer task (.looping (resume true)))
        { connection := task, event := event }
      have hprice := Await.cost_resume_le peerSendWork loopWork self
        (.toPeerManager event) resume true
      simp only [PeerPhase.work, peerSendWork] at hmoved hprice
      refine lt_of_eq_of_lt hsent ?_
      omega
  | @sendClosed task self event resume hpeer hclosed =>
      have hmoved := work_setPeer hspawned hpeer (.looping (resume false))
      have hprice := Await.cost_resume_le peerSendWork loopWork self
        (.toPeerManager event) resume false
      simp only [PeerPhase.work, peerSendWork] at hmoved hprice
      omega
  | subtask | write | finish | panic => exact hinternal.elim

theorem HandleStep.work_lt (hstep : HandleStep before label after) :
    after.work < before.work := by
  cases hstep with
  | @threadProtocol self hhandle incident =>
      have hturn : handleWork
          (HandleMessage.turn (.incidentThreadProtocol incident) self) = 0 := by
        rcases incident with _ | _ <;> rfl
      have hidle : handleWork (.done self .next) = 1 := rfl
      simp only [System.work, System.peersWork, System.commandsWork, hhandle]
      omega
  | @peermanager self item rest hhandle hqueue now =>
      have hturn := cost_handleTurn now item.event self
      have hidle : handleWork (.done self .next) = 1 := rfl
      simp only [System.work, System.peersWork, System.commandsWork, hhandle,
        hqueue, List.length_cons]
      omega
  | @peermanagerClosed self hhandle hqueue hfinished now =>
      have hturn : handleWork
          (HandleMessage.turn (.incidentPeermanager now none) self) = 0 := rfl
      have hidle : handleWork (.done self .next) = 1 := rfl
      simp only [System.work, System.peersWork, System.commandsWork, hhandle]
      omega
  | @send self event resume hhandle hopen hroom =>
      have hprice := Await.cost_resume_le (fun _ => 4) loopWork self event resume
        true
      simp only [System.work, System.peersWork, System.commandsWork, handleWork,
        hhandle, List.length_append, List.length_singleton]
      omega
  | @sendClosed self event resume hhandle hclosed =>
      have hprice := Await.cost_resume_le (fun _ => 4) loopWork self event resume
        false
      simp only [System.work, System.peersWork, System.commandsWork, handleWork,
        hhandle]
      omega

/-- The manager is told of a new connection, or that there will be none. -/
theorem ManagerStep.work_take {input : ManagerInput}
    (hstep : ManagerStep before (.managerTake input) after)
    (hspawned : SpawnedOnly before) : after.work ≤ before.work + 24 := by
  cases hstep with
  | @take self input hmanager hexternal =>
      have hturn := cost_connectTurn (@turn_external self before.next _ hexternal)
      have hpeers : ∑ task ∈ Finset.range (before.next + 1),
          (spawnPeer before.peers before.next (spawned input self) task).work =
            before.peersWork + (spawned input self).elim 0 fun _ => 1 := by
        rw [Finset.sum_range_succ]
        cases hpeer : spawned input self with
        | none =>
            simp [spawnPeer, System.peersWork,
              hspawned.peers before.next (le_refl _), PeerPhase.work]
        | some peer =>
            simp only [spawnPeer, System.peersWork, Option.elim_some]
            rw [sum_update_of_le PeerPhase.work before.peers (le_refl _)]
            simp [PeerPhase.work, loopWork]
      have hcommands : ∑ task ∈ Finset.range (before.next + 1),
          (before.commands task).length = before.commandsWork := by
        rw [Finset.sum_range_succ,
          hspawned.commands _ (hspawned.peers before.next (le_refl _))]
        rfl
      simp only [System.work, System.peersWork, System.commandsWork, hmanager,
        ManagerPhase.work, Await.cost_done, managerLoopWork] at hpeers hcommands ⊢
      omega

/-- The manager does not wait for connections any more. -/
theorem ManagerStep.work_takeClosed
    (hstep : ManagerStep before (.managerTake (.incidentLooplisten none)) after)
    (hspawned : SpawnedOnly before) : after.work < before.work := by
  cases hstep with
  | @take self input hmanager hexternal =>
      have hpeers : ∑ task ∈ Finset.range (before.next + 1),
          (before.peers task).work = before.peersWork := by
        rw [Finset.sum_range_succ, hspawned.peers before.next (le_refl _)]
        rfl
      have hcommands : ∑ task ∈ Finset.range (before.next + 1),
          (before.commands task).length = before.commandsWork := by
        rw [Finset.sum_range_succ, hspawned.commands _ (hspawned.peers before.next (le_refl _))]
        rfl
      simp only [System.work, System.peersWork, System.commandsWork, hmanager,
        ManagerPhase.work, Await.cost_done, managerLoopWork, spawned, spawnPeer,
        PeerManager.turn] at hpeers hcommands ⊢
      omega

/-- The manager goes on from one phase to another. -/
theorem work_lt_manager (system : System) {manager : ManagerPhase}
    (hless : manager.work < system.manager.work) :
    System.work { system with manager := manager } < system.work := by
  simp only [System.work, System.peersWork, System.commandsWork]
  omega

/-- The manager makes a send. -/
theorem work_lt_deliver (system : System) {send : ManagerSend}
    {manager : ManagerPhase}
    (hless : managerSendWork send + manager.work ≤ system.manager.work) :
    System.work { system.deliver send with manager := manager } <
      system.work := by
  have hcommands := commandsWork_deliver_le system send
  cases send with
  | toProtocol event =>
      simp only [System.work, System.peersWork, System.commandsWork,
        System.deliver, managerSendWork, List.length_append,
        List.length_singleton] at hcommands hless ⊢
      omega
  | toPeer task event =>
      simp only [System.work, System.peersWork, System.commandsWork,
        System.deliver, managerSendWork] at hcommands hless ⊢
      omega

theorem ManagerStep.work_lt (hstep : ManagerStep before label after)
    (htake : ∀ input, label ≠ .managerTake input) :
    after.work < before.work := by
  cases hstep with
  | take => exact absurd rfl (htake _)
  | @protocol self item rest hmanager hqueue =>
      have hturn := cost_protocolTurn (@turn_protocol self before.next item.event)
      simp only [System.work, System.peersWork, System.commandsWork, hmanager,
        hqueue, ManagerPhase.work, Await.cost_done, managerLoopWork,
        List.length_cons]
      omega
  | @protocolClosed self hmanager hqueue hclosed =>
      apply work_lt_manager before
      rw [hmanager]
      exact Nat.lt_succ_self _
  | @peer self item rest hmanager hqueue =>
      have hturn : (PeerManager.turn before.next (.incidentPeer (some item.event))
          self).cost managerSendWork managerLoopWork ≤ registryWork self + 14 := by
        obtain hdone | ⟨peerid, message, -, hturn⟩ :=
          @turn_peer self before.next item.event
        · rw [hdone]
          exact Nat.add_le_add_left (by decide) _
        · rw [hturn, cost_notifyProtocol]
      simp only [System.work, System.peersWork, System.commandsWork, hmanager,
        hqueue, ManagerPhase.work, Await.cost_done, managerLoopWork,
        List.length_cons]
      omega
  | @join self task outcome hmanager htask hfinished =>
      have htaken := registryWork_takeTask htask
      have hturn : (PeerManager.turn before.next
          (.resultPeer (task.joined outcome)) (self.takeTask task)).cost
            managerSendWork managerLoopWork ≤
          registryWork (self.takeTask task) + 14 := by
        obtain hdone | ⟨peerid, hturn⟩ :=
          @turn_result (self.takeTask task) before.next (task.joined outcome)
        · rw [hdone]
          exact Nat.add_le_add_left (by decide) _
        · rw [hturn, cost_notifyProtocol]
          exact Nat.add_le_add_right (registryWork_complitedPeer peerid) _
      simp only [System.work, System.peersWork, System.commandsWork, hmanager,
        ManagerPhase.work, Await.cost_done, managerLoopWork]
      omega
  | @send self send resume hmanager hopen hroom =>
      have hprice := Await.cost_resume_le managerSendWork managerLoopWork self send
        resume true
      apply work_lt_deliver before
      rw [hmanager]
      exact hprice
  | @sendClosed self send resume hmanager hclosed =>
      have hprice := Await.cost_resume_le managerSendWork managerLoopWork self send
        resume false
      have hpos : 0 < managerSendWork send := by cases send <;> simp [managerSendWork]
      apply work_lt_manager before
      rw [hmanager]
      exact (Nat.lt_add_of_pos_left hpos).trans_le hprice
  | @leave self incident tasks hmanager htasks =>
      have hlength := htasks.length_eq
      rw [PeerManager.allTasks, List.length_map] at hlength
      apply work_lt_manager before
      simp only [hmanager, ManagerPhase.work, Await.cost_done, managerLoopWork,
        registryWork]
      omega
  | @disconnect self incident task rest hmanager hopen hroom =>
      apply work_lt_deliver before
      simp only [hmanager, ManagerPhase.work, managerSendWork, List.length_cons]
      omega
  | @disconnectClosed self incident task rest hmanager hclosed =>
      apply work_lt_manager before
      simp only [hmanager, ManagerPhase.work, List.length_cons]
      omega
  | @disconnected self incident hmanager =>
      apply work_lt_manager before
      simp only [hmanager, ManagerPhase.work, List.length_nil]
      omega
  | @drain self incident task outcome hmanager htask hfinished =>
      have hlength := List.length_erase_of_mem htask
      have hpos := List.length_pos_of_mem htask
      have htasks : ((self.takeTask task).drainPeer
          (task.joined outcome)).setTaskPeers = self.setTaskPeers.erase task := by
        unfold PeerManager.drainPeer
        split
        · rfl
        · split <;> rfl
      apply work_lt_manager before
      simp only [hmanager, ManagerPhase.work, htasks, hlength]
      omega
  | @finish self incident hmanager htasks =>
      apply work_lt_manager before
      simp only [hmanager, ManagerPhase.work]
      omega

end Steps

end P2PNetwork.Runtime
