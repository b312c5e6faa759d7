import P2PNetwork.Runtime.Deadlock
import P2PNetwork.Runtime.Shutdown
import P2PNetwork.Runtime.ThreadOrders

/-!
# Where the process comes to rest

A process that makes no step by itself has returned, or it waits for something.
Every such wait is listed here: for a runtime or the listener to be set up, for
the subtasks of a peer, for the other party of a blocking cycle or of a stuck
shutdown, or, when the node is at work, for the outside world alone.
-/

namespace P2PNetwork.Supervision

open P2PNetwork.EventLoop
open P2PNetwork.Events
open P2PNetwork.Manager
open P2PNetwork.PeerActor
open P2PNetwork.Runtime (HandleStep HasLeft ManagerPhase ManagerStep PeerPhase
  PeerStep PeersAnswer SpawnedOnly StuckShutdown System connected flooded
  greetedTables)
open P2PNetwork.ThreadNetwork (EventsCriticalCompletionThreadNetwork
  ThreadNetworkSend)
open P2PNetwork.Wire (loopback)

/-! ## Peers at rest -/

/-- The peer waits for its writer to take a message or for its subtasks to
end. -/
def AwaitsSubtasks : PeerPhase → Prop
  | .looping (.issue _ (.toTaskWrite _) _) => True
  | .looping (.done _ (.leave _)) => True
  | _ => False

/-- The peer makes no step by itself, and it waits for no other task of the
node. -/
inductive PeerRests (system : System) (task : TaskId) : Prop where
  | absent (hpeer : system.peers task = .absent)
  | finished (hpeer : (system.peers task).HasFinished)
  | subtasks (hpeer : AwaitsSubtasks (system.peers task))
  | idle {self : Peer} (hpeer : system.peers task = .looping (.done self .next))
      (hcommands : system.commands task = [])
      (hsender : system.manager.HoldsSender task)

/-- The manager waits for the task to end, after it has told all peers to shut
down. -/
def JoinsPeer (system : System) (task : TaskId) : Prop :=
  ∃ incident self, system.manager = .joining incident self ∧
    task ∈ self.setTaskPeers.map TaskPeer.id

/-- The peer waits for the outside world alone, or there is none. -/
inductive PeerIdle (system : System) (task : TaskId) : Prop where
  | absent (hpeer : system.peers task = .absent)
      (hcommands : system.commands task = [])
  -- its command channel has gone with it
  | ended (hpeer : (system.peers task).HasFinished)
  | idle {self : Peer} (hpeer : system.peers task = .looping (.done self .next))
      (hcommands : system.commands task = [])
      (hsender : system.manager.HoldsSender task)

/-- Every loop but those of the peers waits for the outside world alone, and no
peer waits for another task of the node. -/
structure Quiet (process : Process) : Prop where
  main : process.main = .receiving
  network : process.network = .supervising
  protocol : process.protocol = .supervising
  looplisten : process.looplisten = .binding ∨
    process.looplisten = .running (.done () .next)
  manager : ∃ self, process.node.manager = .running (.done self .next) ∧
    ∀ task ∈ self.setTaskPeers, ¬ (process.node.peers task.id).HasFinished
  handle : ∃ self, process.node.handle = .done self .next
  peers : ∀ task, PeerRests process.node task
  toProtocol : process.node.toProtocol = []
  fromProtocol : process.node.fromProtocol = []
  fromPeers : process.node.fromPeers = []
  toInit : process.toInit = []
  initToNetwork : process.initToNetwork = []
  initToProtocol : process.initToProtocol = []
  networkToPeermanager : process.networkToPeermanager = []
  networkToLooplisten : process.networkToLooplisten = []
  looplistenToPeermanager : process.looplistenToPeermanager = []
  protocolToHandlemessage : process.protocolToHandlemessage = []

/-- The node waits for the outside world alone. -/
structure Idle (process : Process) : Prop extends Quiet process where
  peersIdle : ∀ task, PeerIdle process.node task

/-- What a process that makes no step by itself waits for. -/
inductive AtRest (process : Process) : Prop where
  | networkRuntime (hnetwork : process.network = .starting)
  | protocolRuntime (hprotocol : process.protocol = .starting)
  | listener {incident : EventsCriticalCompletionThreadNetwork}
      (hnetwork : process.network = .closing incident [])
      (hlooplisten : process.looplisten = .binding)
  | peerTakes {task : TaskId} (hmanager : process.node.WaitsForPeer task)
      (hpeer : AwaitsSubtasks (process.node.peers task))
  | peerEnds {task : TaskId} (hmanager : JoinsPeer process.node task)
      (hpeer : AwaitsSubtasks (process.node.peers task))
  | cycle (hcycle : process.node.BlockingCycle)
  | stuckShutdown (hstuck : StuckShutdown process.node)
  | subtasks {task : TaskId} (hquiet : Quiet process)
      (hpeer : AwaitsSubtasks (process.node.peers task))
  | idle (hidle : Idle process)
  | returned (hmain : process.main.HasReturned)

/-! ## The facts of a run -/

/-- A reachable process that makes no step by itself. -/
structure Resting (process : Process) : Prop where
  quiescent : Quiescent Step Internal process
  ordered : Ordered process
  orders : OrdersHeard process
  dropped : EndsDropped process
  spawned : SpawnedOnly process.node
  answer : PeersAnswer process.node

theorem resting_of_run {nonce : UInt64} {labels : List Label} {process : Process}
    (run : Run Step (.initial nonce) labels process)
    (hquiescent : Quiescent Step Internal process) : Resting process where
  quiescent := hquiescent
  ordered := ordered_run run
  orders := ordersHeard_run run
  dropped := endsDropped_run run
  spawned := spawnedOnly_run run
  answer := peersAnswer_run run

section Resting

variable {process : Process}

theorem Resting.no_step (hresting : Resting process) {label : Label}
    {next : Process} (hstep : Step process label next)
    (hinternal : Internal label) : False :=
  hresting.quiescent label next hinternal hstep

theorem Resting.no_managerStep (hresting : Resting process)
    (hruns : process.network.Runs) {label : Runtime.Label} {node : System}
    (hstep : ManagerStep process.node label node)
    (hlabel : ∀ input, label ≠ .managerTake input)
    (hinternal : NodeInternal label) : False :=
  hresting.no_step (.node (.manager hruns hstep hlabel)) hinternal

theorem Resting.no_peerStep (hresting : Resting process)
    (hruns : process.network.Runs) {label : Runtime.Label} {node : System}
    (hstep : PeerStep process.node label node)
    (hinternal : NodeInternal label) : False :=
  hresting.no_step (.node (.peer hruns hstep)) hinternal

theorem Resting.no_handleStep (hresting : Resting process)
    (hruns : process.protocol.Runs) {label : Runtime.Label} {node : System}
    (hstep : HandleStep process.node label node)
    (hlabel : ∀ incident, label ≠ .handleThreadProtocol incident)
    (hinternal : NodeInternal label) : False :=
  hresting.no_step (.node (.handle hruns hstep hlabel)) hinternal

theorem eq_nil_of_no_head {α : Type} {items : List α}
    (hhead : ∀ item rest, items = item :: rest → False) : items = [] := by
  cases items with
  | nil => rfl
  | cons item rest => exact (hhead item rest rfl).elim

/-! ### Peers -/

/-- A peer at rest waits for the outside world or for a place in the channel to
the manager. -/
theorem Resting.peer_cases (hresting : Resting process)
    (hruns : process.network.Runs)
    (halive : ¬ process.node.manager.HasFinished) (task : TaskId) :
    PeerRests process.node task ∨ process.node.PeerWaits task := by
  cases hpeer : process.node.peers task with
  | absent => exact .inl (.absent hpeer)
  | finished outcome => exact .inl (.finished (by rw [hpeer]; trivial))
  | looping turn =>
      have hsteady := hresting.answer.steady task turn hpeer
      cases turn with
      | done self flow =>
          cases flow with
          | next =>
              left
              cases hqueue : process.node.commands task with
              | nil =>
                  refine .idle hpeer hqueue ?_
                  by_contra hclosed
                  exact hresting.no_peerStep hruns
                    (.commandClosed hpeer hqueue hclosed) trivial
              | cons command rest =>
                  exact (hresting.no_peerStep hruns
                    (.command hpeer hqueue) trivial).elim
          | leave incident => exact .inl (.subtasks (by rw [hpeer]; trivial))
          | panicked => exact absurd rfl hsteady
      | issue self send resume =>
          cases send with
          | toTaskRead event => exact absurd rfl (hsteady.1 event)
          | toTaskWrite event =>
              exact .inl (.subtasks (by rw [hpeer]; trivial))
          | toPeerManager event =>
              right
              refine ⟨⟨event, self, resume, hpeer⟩, ?_⟩
              by_contra hroom
              exact hresting.no_peerStep hruns
                (.send hpeer halive (not_le.mp hroom)) trivial

/-! ### The manager -/

theorem not_hasFinished_of_awaits {manager : ManagerPhase} {send : ManagerSend}
    (hawaits : manager.awaits = some send) : ¬ manager.HasFinished := by
  intro hfinished
  rw [hfinished.awaits_eq] at hawaits
  cases hawaits

/-- The manager waits for a peer that has been spawned and has not ended. -/
theorem Resting.waitsForPeer (hresting : Resting process)
    (hruns : process.network.Runs) {task : TaskId}
    (hwaits : process.node.WaitsForPeer task)
    (hspawned : process.node.Spawned task)
    (hopen : ¬ (process.node.peers task).HasFinished) : AtRest process := by
  obtain ⟨command, hawaits⟩ := hwaits.1
  obtain hpeer | hpeer :=
    hresting.peer_cases hruns (not_hasFinished_of_awaits hawaits) task
  · cases hpeer with
    | absent hpeer => exact absurd hpeer hspawned
    | finished hpeer => exact absurd hpeer hopen
    | subtasks hpeer => exact .peerTakes hwaits hpeer
    | idle hpeer hcommands hsender =>
        have hfull := hwaits.2
        simp [hcommands, channelCapacity] at hfull
  · exact .cycle (.inr ⟨task, hwaits, hpeer⟩)

/-- The manager waits for `HandleMessage`, which has not left its loop. -/
theorem Resting.waitsForProtocol (hresting : Resting process)
    (hbuilt : process.protocol ≠ .starting)
    (hwaits : process.node.WaitsForProtocol)
    (hopen : ¬ HasLeft process.node.handle) : AtRest process := by
  obtain ⟨event, hawaits⟩ := hwaits.1
  have halive := not_hasFinished_of_awaits hawaits
  have hruns : process.protocol.Runs := by
    cases hprotocol : process.protocol with
    | starting => exact absurd hprotocol hbuilt
    | supervising | closing => trivial
    | leaving result =>
        exact (hresting.quiescent .threadProtocol _ trivial
          (.protocol (.ended hprotocol))).elim
    | ended result =>
        exact absurd (hresting.dropped.protocol (by rw [hprotocol]; trivial)) hopen
  cases hhandle : process.node.handle with
  | done self flow =>
      cases flow with
      | next =>
          exfalso
          cases hqueue : process.node.toProtocol with
          | nil =>
              have hfull := hwaits.2
              simp [hqueue, channelCapacity] at hfull
          | cons item rest =>
              exact hresting.no_handleStep hruns (.peermanager hhandle hqueue (.ok 0))
                (by simp) trivial
      | leave | panicked => exact absurd (by rw [hhandle]; trivial) hopen
  | issue self event' resume =>
      refine .cycle (.inl ⟨hwaits, ⟨self, event', resume, hhandle⟩, ?_⟩)
      by_contra hroom
      exact hresting.no_handleStep hruns (.send hhandle halive (not_le.mp hroom))
        (by simp) trivial

/-- The manager is between two turns, and nothing is ready for it. -/
structure ManagerIdle (process : Process) : Prop where
  manager : ∃ self, process.node.manager = .running (.done self .next) ∧
    ∀ task ∈ self.setTaskPeers, ¬ (process.node.peers task.id).HasFinished
  fromProtocol : process.node.fromProtocol = []
  fromPeers : process.node.fromPeers = []
  networkToPeermanager : process.networkToPeermanager = []
  looplistenToPeermanager : process.looplistenToPeermanager = []
  handle : ¬ HasLeft process.node.handle
  looplisten : ¬ process.looplisten.HasEnded

theorem ManagerIdle.alive (hidle : ManagerIdle process) :
    ¬ process.node.manager.HasFinished := by
  obtain ⟨self, hmanager, -⟩ := hidle.manager
  rw [hmanager]
  exact id

theorem Resting.managerIdle (hresting : Resting process)
    (hruns : process.network.Runs) {self : PeerManager}
    (hmanager : process.node.manager = .running (.done self .next)) :
    ManagerIdle process where
  manager := by
    refine ⟨self, hmanager, fun task htask hfinished => ?_⟩
    cases hpeer : process.node.peers task.id with
    | finished outcome =>
        exact hresting.no_managerStep hruns (.join hmanager htask hpeer) (by simp)
          trivial
    | _ =>
        rw [hpeer] at hfinished
        exact hfinished
  fromProtocol := eq_nil_of_no_head fun item rest hqueue =>
    hresting.no_managerStep hruns (.protocol hmanager hqueue) (by simp) trivial
  fromPeers := eq_nil_of_no_head fun item rest hqueue =>
    hresting.no_managerStep hruns (.peer hmanager hqueue) (by simp) trivial
  networkToPeermanager := eq_nil_of_no_head fun event rest hqueue =>
    hresting.no_step (.node (.managerThread hruns hqueue (.error { code := 0 })
      (.take hmanager trivial))) trivial
  looplistenToPeermanager := eq_nil_of_no_head fun event rest hqueue =>
    hresting.no_step (.node (.managerLooplisten hruns hqueue
      (.take hmanager trivial))) trivial
  handle hleft := by
    have hnone : process.node.fromProtocol = [] :=
      eq_nil_of_no_head fun item rest hqueue =>
        hresting.no_managerStep hruns (.protocol hmanager hqueue) (by simp) trivial
    exact hresting.no_managerStep hruns (.protocolClosed hmanager hnone hleft)
      (by simp) trivial
  looplisten hended := by
    have hnone : process.looplistenToPeermanager = [] :=
      eq_nil_of_no_head fun event rest hqueue =>
        hresting.no_step (.node (.managerLooplisten hruns hqueue
          (.take hmanager trivial))) trivial
    exact hresting.no_step (.node (.managerLooplistenClosed hruns hnone hended
      (.take hmanager trivial))) trivial

/-- The manager waits for the tasks of its peers. -/
theorem Resting.joining (hresting : Resting process)
    (hruns : process.network.Runs)
    {incident : EventsCriticalCompletionPeerManager} {self : PeerManager}
    (hmanager : process.node.manager = .joining incident self) :
    AtRest process := by
  cases htasks : self.setTaskPeers with
  | nil =>
      exact (hresting.no_managerStep hruns (.finish hmanager htasks) (by simp)
        trivial).elim
  | cons task rest =>
      have hmem : task ∈ self.setTaskPeers := by rw [htasks]; exact List.mem_cons_self
      have halive : ¬ process.node.manager.HasFinished := by
        rw [hmanager]
        exact id
      have hspawned := hresting.answer.tasks task (by rw [hmanager]; exact hmem)
      obtain hpeer | ⟨⟨event, hsends⟩, hfull⟩ :=
        hresting.peer_cases hruns halive task.id
      · cases hpeer with
        | absent hpeer => exact absurd hpeer hspawned
        | finished hpeer =>
            cases houtcome : process.node.peers task.id with
            | finished outcome =>
                exact (hresting.no_managerStep hruns
                  (.drain hmanager hmem houtcome) (by simp) trivial).elim
            | _ =>
                rw [houtcome] at hpeer
                exact hpeer.elim
        | subtasks hpeer =>
            exact .peerEnds ⟨incident, self, hmanager, List.mem_map_of_mem hmem⟩
              hpeer
        | idle hpeer hcommands hsender =>
            -- it was told to shut down, and has not taken the order up
            have hentry := hsender.2
            rw [hmanager] at hentry
            have htold := hresting.answer.told task.id
              (by rw [hmanager]; exact hentry)
            simp [System.Told, hcommands, hpeer, PeerPhase.LeftLoop, HasLeft]
              at htold
      · exact .stuckShutdown ⟨by rw [hmanager]; trivial, task.id, event, hsends,
          hfull⟩

theorem Resting.manager_cases (hresting : Resting process)
    (hruns : process.network.Runs) (hbuilt : process.protocol ≠ .starting) :
    AtRest process ∨ ManagerIdle process ∨
      process.node.manager.HasFinished := by
  cases hmanager : process.node.manager with
  | running turn =>
      cases turn with
      | done self flow =>
          cases flow with
          | next => exact .inr (.inl (hresting.managerIdle hruns hmanager))
          | leave incident =>
              exact (hresting.no_managerStep hruns (.leave hmanager (.refl _))
                (by simp) trivial).elim
          | panicked => exact absurd rfl (hresting.dropped.calm _ hmanager)
      | issue self send resume =>
          have hawaits : process.node.manager.awaits = some send := by
            rw [hmanager]
            rfl
          have hopen : ¬ process.node.Closed send := fun hclosed =>
            hresting.no_managerStep hruns (.sendClosed hmanager hclosed) (by simp)
              trivial
          have hfull : ¬ process.node.HasRoom send := fun hroom =>
            hresting.no_managerStep hruns (.send hmanager hopen hroom) (by simp)
              trivial
          left
          cases send with
          | toProtocol event =>
              exact hresting.waitsForProtocol hbuilt
                ⟨⟨event, hawaits⟩, not_lt.mp hfull⟩ hopen
          | toPeer task command =>
              exact hresting.waitsForPeer hruns
                ⟨⟨command, hawaits⟩, not_lt.mp hfull⟩
                ((hresting.spawned.turn _ hmanager).awaited _ _ _ _ rfl) hopen
  | disconnecting incident self tasks =>
      cases tasks with
      | nil =>
          exact (hresting.no_managerStep hruns (.disconnected hmanager) (by simp)
            trivial).elim
      | cons task rest =>
          have hawaits : process.node.manager.awaits =
              some (.toPeer task .shutdown) := by
            rw [hmanager]
            rfl
          have hopen : ¬ (process.node.peers task).HasFinished := fun hclosed =>
            hresting.no_managerStep hruns (.disconnectClosed hmanager hclosed)
              (by simp) trivial
          have hfull : ¬ process.node.HasRoom (.toPeer task .shutdown) :=
            fun hroom => hresting.no_managerStep hruns
              (.disconnect hmanager hopen hroom) (by simp) trivial
          exact .inl (hresting.waitsForPeer hruns
            ⟨⟨_, hawaits⟩, not_lt.mp hfull⟩
            (hresting.spawned.remaining _ _ _ hmanager task List.mem_cons_self)
            hopen)
  | joining incident self => exact .inl (hresting.joining hruns hmanager)
  | finished | dropped => exact .inr (.inr trivial)

/-! ### The network thread -/

/-- A listener that was told to shut down is still being set up, if a listener
that sends can go on. -/
theorem Resting.listener_told (hresting : Resting process)
    (hruns : process.network.Runs)
    (hheard : process.Heard (.toLooplisten .shutdown))
    (hsends : process.node.manager.HasFinished ∨
      process.looplistenToPeermanager = []) :
    process.looplisten = .binding ∨ process.looplisten.HasEnded := by
  cases hlooplisten : process.looplisten with
  | binding => exact .inl rfl
  | running turn =>
      right
      cases turn with
      | done self flow =>
          cases flow with
          | next =>
              obtain hqueued | hended := hheard
              · obtain ⟨event, rest, hqueue⟩ :=
                  List.exists_cons_of_ne_nil (List.ne_nil_of_mem hqueued)
                exact (hresting.no_step (.looplisten
                  (.thread hruns hlooplisten hqueue)) trivial).elim
              · rw [hlooplisten] at hended
                exact hended
          | leave | panicked => trivial
      | issue self event resume =>
          exfalso
          by_cases hgone : process.node.manager.HasFinished
          · exact hresting.no_step (.looplisten
              (.sendClosed hruns hlooplisten hgone)) trivial
          · have hnone := hsends.resolve_left hgone
            exact hresting.no_step (.looplisten (.send hruns hlooplisten hgone
              (by simp [hnone, channelCapacity]))) trivial

/-- Once both tasks of the network thread have ended, it can return. -/
theorem complited_of_ended {incident : EventsCriticalCompletionThreadNetwork}
    (hmanager : .toPeermanager .shutdown ∈ ThreadNetwork.shutdownSends incident →
      process.node.manager.HasFinished)
    (hlooplisten : .toLooplisten .shutdown ∈ ThreadNetwork.shutdownSends incident →
      process.looplisten.HasEnded) :
    ∃ result, ThreadNetwork.Complited (PeermanagerJoined process.node.manager)
      (LooplistenJoined process.looplisten) incident result := by
  cases incident with
  | incidentConfirmationShutdown =>
      obtain ⟨_, hpeermanager⟩ := joined_of_hasFinished
        (hmanager (by simp [ThreadNetwork.shutdownSends]))
      obtain ⟨_, hended⟩ := looplistenJoined_of_hasEnded
        (hlooplisten (by simp [ThreadNetwork.shutdownSends]))
      exact ⟨_, .confirmationShutdown hpeermanager hended⟩
  | incidentChannelInitClosed =>
      obtain ⟨_, hpeermanager⟩ := joined_of_hasFinished
        (hmanager (by simp [ThreadNetwork.shutdownSends]))
      obtain ⟨_, hended⟩ := looplistenJoined_of_hasEnded
        (hlooplisten (by simp [ThreadNetwork.shutdownSends]))
      exact ⟨_, .channelInitClosed hpeermanager hended⟩
  | incidentComplitedPeerManager result =>
      obtain ⟨_, hended⟩ := looplistenJoined_of_hasEnded
        (hlooplisten (by simp [ThreadNetwork.shutdownSends]))
      exact ⟨_, .complitedPeerManager hended⟩
  | incidentComplitedLoopListen result =>
      obtain ⟨_, hpeermanager⟩ := joined_of_hasFinished
        (hmanager (by simp [ThreadNetwork.shutdownSends]))
      exact ⟨_, .complitedLoopListen hpeermanager⟩
  | incidentJoinHandlePeerManager reason => exact ⟨_, .joinHandlePeerManager⟩
  | incidentJoinHandleLoopListen reason => exact ⟨_, .joinHandleLoopListen⟩

/-- The network thread has told its tasks, and waits for them. -/
theorem Resting.closing (hresting : Resting process)
    (hbuilt : process.protocol ≠ .starting)
    {incident : EventsCriticalCompletionThreadNetwork}
    (hclosing : process.network = .closing incident []) : AtRest process := by
  have hruns : process.network.Runs := by rw [hclosing]; trivial
  have hheard {send : ThreadNetworkSend}
      (hsend : send ∈ ThreadNetwork.shutdownSends incident) : process.Heard send :=
    (hresting.orders.network _ _ hclosing send hsend).resolve_left (by simp)
  obtain hrest | htasks := hresting.manager_cases hruns hbuilt
  · exact hrest
  have hmanager : .toPeermanager .shutdown ∈ ThreadNetwork.shutdownSends incident →
      process.node.manager.HasFinished := by
    intro hsend
    obtain hidle | hfinished := htasks
    · obtain ⟨self, hphase, -⟩ := hidle.manager
      have hleft := hheard hsend
      simp [Process.Heard, hidle.networkToPeermanager, hphase, ManagerLeft,
        HasLeft] at hleft
    · exact hfinished
  have hsends : process.node.manager.HasFinished ∨
      process.looplistenToPeermanager = [] :=
    htasks.symm.imp_right ManagerIdle.looplistenToPeermanager
  by_cases hlistener : process.looplisten = .binding
  · exact .listener hclosing hlistener
  · have hlooplisten : .toLooplisten .shutdown ∈
        ThreadNetwork.shutdownSends incident → process.looplisten.HasEnded :=
      fun hsend => (hresting.listener_told hruns (hheard hsend)
        hsends).resolve_left hlistener
    obtain ⟨result, hcomplited⟩ := complited_of_ended hmanager hlooplisten
    exact (hresting.no_step (.network (.complited hclosing hcomplited))
      trivial).elim

theorem Resting.network_cases (hresting : Resting process)
    (hbuilt : process.protocol ≠ .starting) :
    AtRest process ∨
      process.network = .supervising ∧ ManagerIdle process ∨
        process.network.HasEnded := by
  cases hnetwork : process.network with
  | starting => exact .inl (.networkRuntime hnetwork)
  | supervising =>
      have hruns : process.network.Runs := by rw [hnetwork]; trivial
      obtain hrest | hidle | hfinished := hresting.manager_cases hruns hbuilt
      · exact .inl hrest
      · exact .inr (.inl ⟨rfl, hidle⟩)
      · obtain ⟨_, hjoined⟩ := joined_of_hasFinished hfinished
        exact (hresting.no_step (.network (.peermanager hnetwork hjoined))
          trivial).elim
  | closing incident rest =>
      cases rest with
      | nil => exact .inl (hresting.closing hbuilt hnetwork)
      | cons send rest =>
          have hroom := hresting.ordered.network_hasRoom hnetwork
          by_cases hclosed : process.Closed send
          · exact (hresting.no_step (.network (.sendClosed hnetwork hclosed))
              trivial).elim
          · exact (hresting.no_step (.network (.send hnetwork hclosed hroom))
              trivial).elim
  | leaving result =>
      exact (hresting.no_step (.network (.ended hnetwork)) trivial).elim
  | ended result => exact .inr (.inr trivial)

/-! ### The protocol thread -/

/-- When nothing is ready for the manager, `HandleMessage` is not in a send. -/
theorem Resting.handleIdle (hresting : Resting process)
    (hidle : ManagerIdle process) (hruns : process.protocol.Runs) :
    ∃ self, process.node.handle = .done self .next := by
  cases hhandle : process.node.handle with
  | done self flow =>
      cases flow with
      | next => exact ⟨self, rfl⟩
      | leave | panicked => exact absurd (by rw [hhandle]; trivial) hidle.handle
  | issue self event resume =>
      exact (hresting.no_handleStep hruns (.send hhandle hidle.alive
        (by simp [hidle.fromProtocol, channelCapacity])) (by simp) trivial).elim

theorem Resting.protocol_supervising (hresting : Resting process)
    (hbuilt : process.protocol ≠ .starting) (hidle : ManagerIdle process) :
    process.protocol = .supervising := by
  cases hprotocol : process.protocol with
  | starting => exact absurd hprotocol hbuilt
  | supervising => rfl
  | closing incident rest =>
      exfalso
      have hruns : process.protocol.Runs := by rw [hprotocol]; trivial
      obtain ⟨self, hhandle⟩ := hresting.handleIdle hidle hruns
      cases rest with
      | nil =>
          have hunheard : ¬ process.HandleHeard := by
            rintro (hqueue | hleft)
            · obtain ⟨event, rest, hqueue⟩ := List.exists_cons_of_ne_nil hqueue
              exact hresting.no_step (.node (.handleThread hruns hqueue
                (.threadProtocol hhandle _))) trivial
            · exact hidle.handle hleft
          have hnone := hresting.orders.protocol _ _ hprotocol
          cases incident with
          | incidentConfirmationShutdown | incidentChannelInitClosed =>
              obtain hrest | hheard := hnone .shutdown List.mem_cons_self
              · cases hrest
              · exact hunheard hheard
          | incidentComplitedHandleMessage result =>
              exact hresting.no_step (.protocol (.complited hprotocol
                .complitedHandleMessage)) trivial
          | incidentJoinHandleHandleMessage reason =>
              exact hresting.no_step (.protocol (.complited hprotocol
                .joinHandleHandleMessage)) trivial
      | cons event rest =>
          exact hresting.no_step (.protocol (.send hprotocol hidle.handle
            (hresting.ordered.protocol_hasRoom hprotocol))) trivial
  | leaving result =>
      exact (hresting.no_step (.protocol (.ended hprotocol)) trivial).elim
  | ended result =>
      exact absurd (hresting.dropped.protocol (by rw [hprotocol]; trivial))
        hidle.handle

/-! ### The idle process -/

theorem Resting.looplistenIdle (hresting : Resting process)
    (hruns : process.network.Runs) (hidle : ManagerIdle process) :
    process.looplisten = .binding ∨
      process.looplisten = .running (.done () .next) := by
  cases hlooplisten : process.looplisten with
  | binding => exact .inl rfl
  | running turn =>
      cases turn with
      | done self flow =>
          cases flow with
          | next => exact .inr rfl
          | leave | panicked =>
              exact absurd (by rw [hlooplisten]; trivial) hidle.looplisten
      | issue self event resume =>
          exact (hresting.no_step (.looplisten (.send hruns hlooplisten
            hidle.alive (by simp [hidle.looplistenToPeermanager, channelCapacity])))
            trivial).elim

theorem Resting.quiet (hresting : Resting process)
    (hnetwork : process.network = .supervising)
    (hprotocol : process.protocol = .supervising)
    (hidle : ManagerIdle process) : Quiet process := by
  have hruns : process.network.Runs := by rw [hnetwork]; trivial
  have hprotocolRuns : process.protocol.Runs := by rw [hprotocol]; trivial
  obtain ⟨handleMessage, hhandle⟩ := hresting.handleIdle hidle hprotocolRuns
  have hmain : process.main = .receiving := by
    by_contra hmain
    have hpast := hresting.orders.main hmain
    rw [hnetwork, hprotocol] at hpast
    exact hpast.elim id id
  have hlooplisten := hresting.ordered.looplisten
  have hhandlemessage := hresting.ordered.handlemessage
  simp only [hnetwork, hprotocol, ThreadPhase.sendsLeft] at hlooplisten hhandlemessage
  exact {
    main := hmain
    network := hnetwork
    protocol := hprotocol
    looplisten := hresting.looplistenIdle hruns hidle
    manager := hidle.manager
    handle := ⟨handleMessage, hhandle⟩
    peers := fun task => by
      obtain hrests | ⟨-, hfull⟩ := hresting.peer_cases hruns hidle.alive task
      · exact hrests
      · simp [hidle.fromPeers, channelCapacity] at hfull
    toProtocol := eq_nil_of_no_head fun item rest hqueue =>
      hresting.no_handleStep hprotocolRuns (.peermanager hhandle hqueue (.ok 0))
        (by simp) trivial
    fromProtocol := hidle.fromProtocol
    fromPeers := hidle.fromPeers
    toInit := eq_nil_of_no_head fun event rest hqueue =>
      hresting.no_step (.init (.receive hmain hqueue)) trivial
    initToNetwork := eq_nil_of_no_head fun event rest hqueue =>
      hresting.no_step (.network (.init hnetwork hqueue)) trivial
    initToProtocol := eq_nil_of_no_head fun event rest hqueue =>
      hresting.no_step (.protocol (.init hprotocol hqueue)) trivial
    networkToPeermanager := hidle.networkToPeermanager
    networkToLooplisten := List.eq_nil_of_length_eq_zero (by omega)
    looplistenToPeermanager := hidle.looplistenToPeermanager
    protocolToHandlemessage := List.eq_nil_of_length_eq_zero (by omega) }

/-- Unless a peer waits for its subtasks, a quiet node is idle. -/
theorem Resting.idle_or_subtasks (hresting : Resting process)
    (hquiet : Quiet process) : AtRest process := by
  by_cases hsubtasks : ∃ task, AwaitsSubtasks (process.node.peers task)
  · obtain ⟨task, hpeer⟩ := hsubtasks
    exact .subtasks hquiet hpeer
  · refine .idle ⟨hquiet, fun task => ?_⟩
    cases hquiet.peers task with
    | absent hpeer => exact .absent hpeer (hresting.spawned.commands task hpeer)
    | finished hpeer => exact .ended hpeer
    | subtasks hpeer => exact absurd ⟨task, hpeer⟩ hsubtasks
    | idle hpeer hcommands hsender => exact .idle hpeer hcommands hsender

end Resting

/-! ## A quiet node -/

section Quiet

variable {process : Process}

theorem Quiet.no_managerStep (hquiet : Quiet process) {label : Runtime.Label}
    {node : System} (hstep : ManagerStep process.node label node)
    (hlabel : ∀ input, label ≠ .managerTake input) : False := by
  obtain ⟨self, hmanager, htasks⟩ := hquiet.manager
  obtain ⟨handleMessage, hhandle⟩ := hquiet.handle
  cases hstep with
  | take => exact hlabel _ rfl
  | protocol hphase hqueue => simp [hquiet.fromProtocol] at hqueue
  | protocolClosed hphase hqueue hclosed =>
      rw [hhandle] at hclosed
      exact hclosed
  | peer hphase hqueue => simp [hquiet.fromPeers] at hqueue
  | join hphase htask hfinished =>
      rw [hmanager] at hphase
      cases hphase
      exact htasks _ htask (by rw [hfinished]; trivial)
  | send hphase | sendClosed hphase | leave hphase | disconnect hphase
  | disconnectClosed hphase | disconnected hphase | drain hphase
  | finish hphase =>
      rw [hmanager] at hphase
      cases hphase

theorem Quiet.no_peerStep (hquiet : Quiet process) {label : Runtime.Label}
    {node : System} (hstep : PeerStep process.node label node)
    (hinternal : NodeInternal label) : False := by
  cases hstep with
  | @command task self event rest hphase hqueue =>
      cases hquiet.peers task with
      | idle hpeer hcommands hsender => simp [hcommands] at hqueue
      | absent hpeer | finished hpeer | subtasks hpeer =>
          simp [hphase, PeerPhase.HasFinished, AwaitsSubtasks] at hpeer
  | @commandClosed task self hphase hqueue hclosed =>
      cases hquiet.peers task with
      | idle hpeer hcommands hsender => exact hclosed hsender
      | absent hpeer | finished hpeer | subtasks hpeer =>
          simp [hphase, PeerPhase.HasFinished, AwaitsSubtasks] at hpeer
  | @send task self event resume hphase | @sendClosed task self event resume hphase =>
      cases hquiet.peers task with
      | absent hpeer | finished hpeer | subtasks hpeer | idle hpeer =>
          simp [hphase, PeerPhase.HasFinished, AwaitsSubtasks] at hpeer
  | subtask | write | finish | panic => exact hinternal

theorem Quiet.no_handleStep (hquiet : Quiet process) {label : Runtime.Label}
    {node : System} (hstep : HandleStep process.node label node)
    (hlabel : ∀ incident, label ≠ .handleThreadProtocol incident) : False := by
  obtain ⟨self, hmanager, -⟩ := hquiet.manager
  obtain ⟨handleMessage, hhandle⟩ := hquiet.handle
  cases hstep with
  | threadProtocol => exact hlabel _ rfl
  | peermanager hphase hqueue => simp [hquiet.toProtocol] at hqueue
  | peermanagerClosed hphase hqueue hfinished =>
      rw [hmanager] at hfinished
      exact hfinished
  | send hphase | sendClosed hphase =>
      rw [hhandle] at hphase
      cases hphase

theorem Quiet.looplisten_running (hquiet : Quiet process) :
    ¬ process.looplisten.HasEnded := by
  obtain hlooplisten | hlooplisten := hquiet.looplisten
  · rw [hlooplisten]
    exact id
  · rw [hlooplisten]
    exact id

theorem Quiet.no_threadStep (hquiet : Quiet process) {label : Label}
    {next : Process} (hstep : NetworkStep process label next ∨
      ProtocolStep process label next) : False := by
  obtain ⟨self, hmanager, -⟩ := hquiet.manager
  obtain ⟨handleMessage, hhandle⟩ := hquiet.handle
  have hmain : ¬ process.main.HasReturned := by
    rw [hquiet.main]
    exact id
  obtain hstep | hstep := hstep
  · cases hstep with
    | init hphase hqueue => simp [hquiet.initToNetwork] at hqueue
    | initClosed hphase hqueue hclosed => exact hmain hclosed
    | peermanager hphase hjoined =>
        have hfinished := hjoined.hasFinished
        rw [hmanager] at hfinished
        exact hfinished
    | looplisten hphase hjoined => exact hquiet.looplisten_running hjoined.hasEnded
    | built hphase | buildFailed hphase | send hphase | sendClosed hphase
    | complited hphase | ended hphase => simp [hquiet.network] at hphase
  · cases hstep with
    | init hphase hqueue => simp [hquiet.initToProtocol] at hqueue
    | initClosed hphase hqueue hclosed => exact hmain hclosed
    | handlemessage hphase hjoined =>
        have hleft := hjoined.hasLeft
        rw [hhandle] at hleft
        exact hleft
    | built hphase | buildFailed hphase | send hphase | sendClosed hphase
    | complited hphase | ended hphase => simp [hquiet.protocol] at hphase

/-- A quiet node makes no step by itself. -/
theorem Quiet.quiescent (hquiet : Quiet process) :
    Quiescent Step Internal process := by
  intro label next hinternal hstep
  cases hstep with
  | init hstep =>
      cases hstep with
      | receive hphase hqueue => simp [hquiet.toInit] at hqueue
      | closed hphase hqueue hnetwork =>
          rw [hquiet.network] at hnetwork
          exact hnetwork
      | joinNetwork hphase | joinProtocol hphase => simp [hquiet.main] at hphase
  | network hstep => exact hquiet.no_threadStep (.inl hstep)
  | protocol hstep => exact hquiet.no_threadStep (.inr hstep)
  | looplisten hstep =>
      cases hstep with
      | bind | accept => exact hinternal
      | thread hruns hphase hqueue => simp [hquiet.networkToLooplisten] at hqueue
      | send hruns hphase | sendClosed hruns hphase =>
          obtain hlooplisten | hlooplisten := hquiet.looplisten <;>
            simp [hlooplisten] at hphase
  | node hstep =>
      cases hstep with
      | manager hruns hstep hlabel => exact hquiet.no_managerStep hstep hlabel
      | managerThread hruns hqueue => simp [hquiet.networkToPeermanager] at hqueue
      | managerLooplisten hruns hqueue =>
          simp [hquiet.looplistenToPeermanager] at hqueue
      | managerLooplistenClosed hruns hqueue hclosed =>
          exact hquiet.looplisten_running hclosed
      | peer hruns hstep => exact hquiet.no_peerStep hstep hinternal
      | handle hruns hstep hlabel => exact hquiet.no_handleStep hstep hlabel
      | handleThread hruns hqueue =>
          simp [hquiet.protocolToHandlemessage] at hqueue
  | panic hstep => cases hstep <;> exact hinternal

end Quiet

/-! ## Runs -/

/-- Wherever the process comes to rest, it has returned or waits for one of the
things listed. -/
theorem atRest_of_quiescent {nonce : UInt64} {labels : List Label}
    {process : Process} (run : Run Step (.initial nonce) labels process)
    (hquiescent : Quiescent Step Internal process) : AtRest process := by
  have hresting := resting_of_run run hquiescent
  by_cases hbuilt : process.protocol = .starting
  · exact .protocolRuntime hbuilt
  obtain hrest | ⟨hnetwork, hidle⟩ | hended := hresting.network_cases hbuilt
  · exact hrest
  · have hprotocol := hresting.protocol_supervising hbuilt hidle
    exact hresting.idle_or_subtasks (hresting.quiet hnetwork hprotocol hidle)
  · exact .returned (returned_of_network_ended run hquiescent
      (unsuspended_of_network_ended run hended) hended hbuilt)

/-- The node has its runtimes and its listener, and no peers yet. -/
def listening : Process :=
  { Process.initial 0 with
    network := .supervising
    protocol := .supervising
    looplisten := .running (.done () .next) }

theorem listening_run : ∃ labels, Run Step (.initial 0) labels listening := by
  have hbuilt := Run.tail (.refl (Process.initial 0)) (Step.network (.built rfl))
  have hboth := hbuilt.tail (Step.protocol (.built rfl))
  have hruns : ThreadPhase.Runs (.supervising : NetworkPhase) := trivial
  exact ⟨_, hboth.tail (Step.looplisten (.bind hruns rfl (.ok ())))⟩

/-- The listening process with a node at work. -/
def atWork (system : System) : Process := { listening with node := system }

theorem atWork_connected : ∃ labels,
    Run Step (.initial 0) labels (atWork Runtime.connected) := by
  obtain ⟨labels, run⟩ := listening_run
  have hruns : listening.network.Runs := trivial
  have haccepted := run.tail
    (.looplisten (.accept hruns rfl (.ok (loopbackSocket, loopback))))
  have hsent := haccepted.tail
    (.looplisten (.send hruns rfl not_false (Nat.zero_lt_succ _)))
  have htaken := hsent.tail (.node (.managerLooplisten hruns rfl
    (.take rfl trivial)))
  have hnotified := htaken.tail (.node (.manager hruns
    (.notified rfl not_false (Nat.zero_lt_succ _)) (by simp)))
  exact ⟨_, hnotified⟩

/-- One connection, known to `HandleMessage`. -/
def greeted : Process := atWork (flooded (.done greetedTables .next) 0 0)

theorem greeted_run : ∃ labels, Run Step (.initial 0) labels greeted := by
  obtain ⟨labels, run⟩ := atWork_connected
  have htake : HandleStep connected (.handlePeermanager (.ok 0)) _ :=
    .peermanager rfl rfl (.ok 0)
  exact ⟨_, run.tail (.node (.handle trivial htake (by simp)))⟩

theorem peerIdle_greeted (task : TaskId) : PeerIdle greeted.node task := by
  by_cases htask : task = 0
  · subst htask
    exact .idle rfl rfl ⟨not_false, by decide⟩
  · refine .absent ?_ rfl
    simp [greeted, atWork, flooded, connected, htask]

theorem idle_greeted : Idle greeted where
  main := rfl
  network := rfl
  protocol := rfl
  looplisten := .inr rfl
  manager := by
    refine ⟨_, rfl, fun task htask => ?_⟩
    obtain rfl := List.mem_singleton.mp htask
    exact not_false
  handle := ⟨_, rfl⟩
  peers task := by
    cases peerIdle_greeted task with
    | absent hpeer => exact .absent hpeer
    | ended hpeer => exact .finished hpeer
    | idle hpeer hcommands hsender => exact .idle hpeer hcommands hsender
  toProtocol := rfl
  fromProtocol := rfl
  fromPeers := rfl
  toInit := rfl
  initToNetwork := rfl
  initToProtocol := rfl
  networkToPeermanager := rfl
  networkToLooplisten := rfl
  looplistenToPeermanager := rfl
  protocolToHandlemessage := rfl
  peersIdle := peerIdle_greeted

/-- The node rests with a peer. -/
theorem atRest_of_quiescent_greeted :
    ∃ self, greeted.node.peers 0 = .looping (.done self .next) ∧
      greeted.node.commands 0 = [] ∧ AtRest greeted := by
  obtain ⟨labels, run⟩ := greeted_run
  exact ⟨_, rfl, rfl, atRest_of_quiescent run idle_greeted.toQuiet.quiescent⟩

end P2PNetwork.Supervision
