import P2PNetwork.Runtime.Rest

/-!
# No orphans

The manager keeps the handle of every peer that it has spawned until the task
of the peer has ended.  It returns when it has no handle left, and a manager
that is dropped aborts its peers, so no peer outlives it.
-/

namespace P2PNetwork.Runtime

open P2PNetwork.EventLoop
open P2PNetwork.Events
open P2PNetwork.Manager
open P2PNetwork.PeerActor

/-- The manager holds the handle of the task. -/
def ManagerPhase.HoldsTask (manager : ManagerPhase) (task : TaskId) : Prop :=
  task ∈ manager.registry.setTaskPeers.map TaskPeer.id

/-- Every peer that runs is one that the manager holds, and none runs without
the manager. -/
structure NoOrphans (system : System) : Prop where
  held : ∀ task turn, system.peers task = .looping turn →
    system.manager.HoldsTask task
  alive : ∀ task turn, system.peers task = .looping turn →
    ¬ system.manager.HasFinished

theorem NoOrphans.initial (nonce : UInt64) :
    NoOrphans (System.initial nonce) where
  held task turn hpeer := by cases hpeer
  alive task turn hpeer := by cases hpeer

section Steps

variable {before after : System} {label : Label}

/-- The manager goes on with the handles that it has. -/
theorem NoOrphans.congr (horphans : NoOrphans before)
    (hpeers : after.peers = before.peers)
    (hheld : ∀ task, before.manager.HoldsTask task → after.manager.HoldsTask task)
    (halive : ¬ after.manager.HasFinished) : NoOrphans after where
  held task turn hpeer := hheld task (horphans.held task turn (hpeers ▸ hpeer))
  alive _ _ _ := halive

/-- The handle of a task that has ended is taken. -/
theorem NoOrphans.taken (horphans : NoOrphans before)
    (hpeers : after.peers = before.peers) {self : PeerManager} (task : TaskPeer)
    (hmanager : before.manager.registry = self)
    (hfinished : (before.peers task.id).HasFinished)
    (hregistry : after.manager.registry.setTaskPeers = self.setTaskPeers.erase task)
    (halive : ¬ after.manager.HasFinished) : NoOrphans after where
  held other turn hpeer := by
    rw [hpeers] at hpeer
    obtain ⟨handle, hmem, rfl⟩ := List.mem_map.mp (horphans.held other turn hpeer)
    rw [hmanager] at hmem
    have hne : handle ≠ task := by
      rintro rfl
      rw [hpeer] at hfinished
      exact hfinished
    rw [ManagerPhase.HoldsTask, hregistry]
    exact List.mem_map_of_mem ((List.mem_erase_of_ne hne).mpr hmem)
  alive _ _ _ := halive

/-- A turn that spawns a task keeps its handle. -/
theorem connectTurn_holds {next : TaskId} {self : PeerManager}
    {peer : Option Peer} {turn : ManagerTurn}
    (hturn : ConnectTurn next self peer turn) :
    (∀ task ∈ self.setTaskPeers, task ∈ turn.state.setTaskPeers) ∧
      (peer.isSome → next ∈ turn.state.setTaskPeers.map TaskPeer.id) := by
  cases hturn with
  | idle flow => exact ⟨fun _ => id, by simp⟩
  | accepted hpeer hcontext address typeConnect =>
      constructor
      · intro task htask
        simp [PeerManager.notifyProtocol, PeerManager.addPeer, htask]
      · simp [PeerManager.notifyProtocol, PeerManager.addPeer]

theorem NoOrphans.managerStep (horphans : NoOrphans before)
    (hspawned : SpawnedOnly before) (hstep : ManagerStep before label after) :
    NoOrphans after := by
  have hheld {manager : ManagerPhase} {self : PeerManager}
      (hmanager : before.manager = manager)
      (htasks : self.setTaskPeers = manager.registry.setTaskPeers) (task : TaskId)
      (htask : before.manager.HoldsTask task) :
      task ∈ self.setTaskPeers.map TaskPeer.id := by
    rw [htasks, ← hmanager]
    exact htask
  cases hstep with
  | @take self input hmanager hexternal =>
      obtain ⟨hkept, hnew⟩ := connectTurn_holds
        (@turn_external self before.next input hexternal)
      refine ⟨fun task turn hpeer => ?_, fun task turn hpeer => id⟩
      by_cases htask : task = before.next
      · subst htask
        apply hnew
        cases hspawn : spawned input self with
        | none =>
            have habsent := hspawned.peers before.next le_rfl
            simp [hspawn, spawnPeer, habsent] at hpeer
        | some peer => rfl
      · have hbefore : before.peers task = .looping turn := by
          cases hspawn : spawned input self with
          | none => simpa [hspawn, spawnPeer] using hpeer
          | some peer => simpa [hspawn, spawnPeer, htask] using hpeer
        have htask := horphans.held task turn hbefore
        rw [ManagerPhase.HoldsTask, hmanager] at htask
        obtain ⟨handle, hmem, rfl⟩ := List.mem_map.mp htask
        exact List.mem_map_of_mem (hkept handle hmem)
  | protocol hmanager hqueue =>
      exact horphans.congr rfl (hheld hmanager (by
        simp only [ManagerPhase.registry]
        rw [(turn_protocol _).state_eq]
        rfl)) id
  | protocolClosed hmanager =>
      exact horphans.congr rfl (hheld hmanager rfl) id
  | peer hmanager hqueue =>
      exact horphans.congr rfl (hheld hmanager (by
        simp only [ManagerPhase.registry]
        rw [turn_peer_state]
        rfl)) id
  | @join self task outcome hmanager htask hfinished =>
      refine horphans.taken rfl task (by rw [hmanager]) ?_ ?_ id
      · rw [hfinished]
        trivial
      obtain hdone | ⟨peerid, hturn⟩ := @turn_result (self.takeTask task)
        before.next (task.joined outcome)
      · simp only [ManagerPhase.registry, hdone]
        rfl
      · simp only [ManagerPhase.registry, hturn]
        rfl
  | send hmanager | sendClosed hmanager =>
      refine horphans.congr (by simp) (hheld hmanager ?_) id
      simp only [ManagerPhase.registry]
      rw [answered_tasks (hspawned.turn _ hmanager).drops]
      rfl
  | leave hmanager | disconnectClosed hmanager | disconnected hmanager =>
      exact horphans.congr rfl (hheld hmanager rfl) id
  | disconnect hmanager =>
      exact horphans.congr (by simp) (hheld hmanager rfl) id
  | @drain self incident task outcome hmanager htask hfinished =>
      refine horphans.taken rfl task (by rw [hmanager]) ?_ ?_ id
      · rw [hfinished]
        trivial
      simp only [ManagerPhase.registry, drainPeer_tasks]
      rfl
  | finish hmanager htasks =>
      have hnone (task : TaskId) (turn : PeerTurn) :
          before.peers task ≠ .looping turn := by
        intro hpeer
        have htask := horphans.held task turn hpeer
        simp [ManagerPhase.HoldsTask, hmanager, ManagerPhase.registry, htasks]
          at htask
      exact ⟨fun task turn hpeer => absurd hpeer (hnone task turn),
        fun task turn hpeer => absurd hpeer (hnone task turn)⟩

theorem NoOrphans.peerStep (horphans : NoOrphans before)
    (hstep : PeerStep before label after) : NoOrphans after := by
  obtain ⟨-, task, turn, peer, hpeer, hafter⟩ := hstep.peers_eq
  have hbefore {other : TaskId} {turn' : PeerTurn}
      (hother : after.peers other = .looping turn') :
      ∃ turn, before.peers other = .looping turn := by
    rw [hafter] at hother
    by_cases heq : other = task
    · exact ⟨turn, heq ▸ hpeer⟩
    · exact ⟨turn', by simpa [heq] using hother⟩
  constructor
  · intro other turn' hother
    obtain ⟨turn'', hother⟩ := hbefore hother
    rw [hstep.manager_eq]
    exact horphans.held other turn'' hother
  · intro other turn' hother
    obtain ⟨turn'', hother⟩ := hbefore hother
    rw [hstep.manager_eq]
    exact horphans.alive other turn'' hother

theorem NoOrphans.step (horphans : NoOrphans before)
    (hspawned : SpawnedOnly before) (hstep : Step before label after) :
    NoOrphans after := by
  cases hstep with
  | manager hstep => exact horphans.managerStep hspawned hstep
  | handle hstep => cases hstep <;> exact { horphans with }
  | peer hstep => exact horphans.peerStep hstep

end Steps

end P2PNetwork.Runtime

namespace P2PNetwork.Supervision

open P2PNetwork.EventLoop
open P2PNetwork.Events
open P2PNetwork.Runtime (NoOrphans SpawnedOnly System)

/-! ## The process -/

theorem noOrphans_dropManager (system : System) :
    NoOrphans (Process.dropManager system) := by
  have hnone (task : TaskId) (turn : PeerActor.PeerTurn) :
      dropPeer (system.peers task) ≠ .looping turn := by
    cases system.peers task <;> simp [dropPeer]
  exact ⟨fun task turn hpeer => absurd hpeer (hnone task turn),
    fun task turn hpeer => absurd hpeer (hnone task turn)⟩

section Runs

variable {before after process : Process} {label : Label}

theorem Step.noOrphans (hstep : Step before label after)
    (horphans : NoOrphans before.node) (hspawned : SpawnedOnly before.node) :
    NoOrphans after.node := by
  cases hstep with
  | init hstep =>
      obtain ⟨-, -, -, hnode⟩ := hstep.frame
      rwa [hnode]
  | network hstep =>
      cases hstep with
      | send => simpa using horphans
      | ended hleaving => exact noOrphans_dropManager _
      | _ => exact horphans
  | protocol hstep =>
      cases hstep with
      | ended hleaving => exact { horphans with }
      | _ => exact horphans
  | looplisten hstep => cases hstep <;> exact horphans
  | node hstep =>
      obtain ⟨own, -, hstep⟩ := hstep.node_step
      exact horphans.step hspawned hstep
  | panic hstep =>
      cases hstep with
      | looplisten => exact horphans
      | peermanager => exact noOrphans_dropManager _
      | handlemessage => exact { horphans with }

theorem noOrphans_run {nonce : UInt64} {labels : List Label}
    (run : Run Step (.initial nonce) labels process) : NoOrphans process.node :=
  (run.invariant
    (fun reached => NoOrphans reached.node ∧ SpawnedOnly reached.node)
    ⟨.initial nonce, .initial nonce⟩ fun _ _ _ hbefore hstep =>
      ⟨hstep.noOrphans hbefore.1 hbefore.2, hstep.spawnedOnly hbefore.2⟩).1

/-- In every reachable state the manager holds the handles of all peers that
run, and none runs once the manager has returned, panicked or been dropped; so
none runs when the network thread has ended. -/
theorem no_orphans {nonce : UInt64} {labels : List Label}
    (run : Run Step (.initial nonce) labels process) {task : TaskId}
    {turn : PeerActor.PeerTurn} (hpeer : process.node.peers task = .looping turn) :
    (∃ handle ∈ process.node.manager.registry.setTaskPeers, handle.id = task) ∧
      ¬ process.node.manager.HasFinished ∧ ¬ process.network.HasEnded := by
  have horphans := noOrphans_run run
  have halive := horphans.alive task turn hpeer
  refine ⟨List.mem_map.mp (horphans.held task turn hpeer), halive, fun hended => ?_⟩
  exact halive ((endsDropped_run run).network hended).1

end Runs

/-- A process whose peer is connected. -/
theorem no_orphans_connected : ∃ labels turn,
    Run Step (.initial 0) labels (atWork Runtime.connected) ∧
      Runtime.connected.peers 0 = .looping turn ∧
      ¬ Runtime.connected.manager.HasFinished := by
  obtain ⟨labels, run⟩ := atWork_connected
  have hpeer : (atWork Runtime.connected).node.peers 0 = .looping _ := rfl
  exact ⟨labels, _, run, hpeer, (no_orphans run hpeer).2.1⟩

end P2PNetwork.Supervision
