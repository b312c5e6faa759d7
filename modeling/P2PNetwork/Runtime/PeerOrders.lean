import P2PNetwork.Runtime.SpawnedTasks

/-!
# The peers of a manager that leaves

A manager that has left its loop tells every peer that it still has an entry
for to shut down, and waits for all tasks that it has spawned.  The order stays
in the channel of the peer until the peer takes it up, and taking it up is the
end of the peer's loop.
-/

namespace P2PNetwork.Runtime

open P2PNetwork.Events
open P2PNetwork.Handler
open P2PNetwork.Manager
open P2PNetwork.PeerActor
open P2PNetwork.Wire

/-! ## Turns of a peer -/

/-- However its send is answered, the turn does not end in a panic; and it has
no send to the reader. -/
def Steady (turn : PeerTurn) : Prop :=
  turn.Holds (fun ghost _ _ => ghost)
    (fun _ _ send => ∀ event, send ≠ .toTaskRead event)
    (fun _ _ flow => flow ≠ .panicked) ()

theorem steady_done {self : Peer} {flow : Flow EventsCriticalCompletion}
    (hflow : flow ≠ .panicked) : Steady (.done self flow) := hflow

theorem Steady.resume {self : Peer} {send : PeerSend} {resume : Bool → PeerTurn}
    (hsteady : Steady (.issue self send resume)) (delivered : Bool) :
    Steady (resume delivered) := hsteady.2 delivered

theorem turn_steady (input : PeerInput) (self : Peer) :
    Steady (PeerActor.turn input self) := by
  unfold PeerActor.turn
  split
  case h_1 | h_5 =>
    refine ⟨by simp, fun delivered => ?_⟩
    cases delivered <;> exact steady_done (by simp)
  all_goals exact steady_done (by simp)

/-! ## Peers that are told -/

/-- The peer has left its loop, or its task has ended. -/
def PeerPhase.LeftLoop : PeerPhase → Prop
  | .absent => False
  | .looping turn => HasLeft turn
  | .finished _ => True

/-- The order to shut down is on its way to the peer, or the peer needs none. -/
def System.Told (system : System) (task : TaskId) : Prop :=
  .shutdown ∈ system.commands task ∨ (system.peers task).LeftLoop

/-- The manager has left its loop, has an entry for the task and is done with
telling it to shut down. -/
def ManagerPhase.Dismissed (task : TaskId) : ManagerPhase → Prop
  | .disconnecting _ self rest => task ∈ self.allTasks ∧ task ∉ rest
  | .joining _ self => task ∈ self.allTasks
  | _ => False

/-- What holds of the peers while the node runs. -/
structure PeersAnswer (system : System) : Prop where
  steady : ∀ task turn, system.peers task = .looping turn → Steady turn
  tasks : ∀ task ∈ system.manager.registry.setTaskPeers, system.Spawned task.id
  told : ∀ task, system.manager.Dismissed task → system.Told task

theorem PeersAnswer.initial (nonce : UInt64) :
    PeersAnswer (System.initial nonce) where
  steady task turn hpeer := by cases hpeer
  tasks task htask := by cases htask
  told task hdismissed := hdismissed.elim

section Steps

variable {before after : System} {label : Label}

/-! ### Steps of a peer -/

theorem System.Told.congr {task : TaskId} (htold : before.Told task)
    (hcommands : after.commands task = before.commands task)
    (hpeer : (before.peers task).LeftLoop → (after.peers task).LeftLoop) :
    after.Told task := by
  obtain hqueued | hleft := htold
  · exact .inl (hcommands ▸ hqueued)
  · exact .inr (hpeer hleft)

/-- A peer in its loop goes on, and no command is taken from a channel. -/
theorem told_setPeer {task other : TaskId} {turn : PeerTurn} {peer : PeerPhase}
    (htold : before.Told other) (hpeer : before.peers task = .looping turn)
    (hloop : HasLeft turn → peer.LeftLoop) :
    (before.setPeer task peer).Told other := by
  apply htold.congr
  · rfl
  · intro hleft
    by_cases hother : other = task
    · subst hother
      rw [hpeer] at hleft
      simpa [System.setPeer] using hloop hleft
    · simpa [System.setPeer, hother] using hleft

/-- An order that is taken up ends the loop. -/
theorem leftLoop_shutdown (self : Peer) :
    (PeerPhase.looping (PeerActor.turn
      (.incidentPeermanager (some .shutdown)) self)).LeftLoop := trivial

theorem PeerStep.told (hstep : PeerStep before label after) {task : TaskId}
    (htold : before.Told task) : after.Told task := by
  cases hstep with
  | @command other self command rest hpeer hqueue =>
      by_cases htask : task = other
      · subst htask
        obtain hqueued | hleft := htold
        · rw [hqueue, List.mem_cons] at hqueued
          obtain rfl | hrest := hqueued
          · right
            simp only [System.setPeer, Function.update_self]
            exact leftLoop_shutdown self
          · left
            simpa using hrest
        · rw [hpeer] at hleft
          exact hleft.elim
      · apply htold.congr
        · simp [htask]
        · simp [System.setPeer, htask]
  | commandClosed hpeer | subtask hpeer | sendClosed hpeer | write hpeer =>
      exact told_setPeer htold hpeer False.elim
  | send hpeer =>
      exact (told_setPeer htold hpeer False.elim).congr rfl id
  | finish hpeer | panic hpeer =>
      exact told_setPeer htold hpeer fun _ => trivial

theorem PeerStep.steady (hstep : PeerStep before label after)
    (hsteady : ∀ task turn, before.peers task = .looping turn → Steady turn) :
    ∀ task turn, after.peers task = .looping turn → Steady turn := by
  have hset {task : TaskId} {peer : PeerPhase}
      (hpeer : ∀ turn, peer = .looping turn → Steady turn) (other : TaskId)
      (turn : PeerTurn)
      (hother : (before.setPeer task peer).peers other = .looping turn) :
      Steady turn := by
    by_cases htask : other = task
    · subst htask
      exact hpeer turn (by simpa [System.setPeer] using hother)
    · exact hsteady other turn (by simpa [System.setPeer, htask] using hother)
  cases hstep with
  | command hpeer | commandClosed hpeer | subtask hpeer =>
      apply hset
      rintro turn ⟨⟩
      exact turn_steady _ _
  | send hpeer | sendClosed hpeer | write hpeer =>
      apply hset
      rintro turn ⟨⟩
      exact (hsteady _ _ hpeer).resume _
  | finish hpeer | panic hpeer =>
      apply hset
      simp

theorem PeerStep.spawned (hstep : PeerStep before label after) {task : TaskId}
    (hspawned : before.Spawned task) : after.Spawned task := by
  have hset {other : TaskId} {peer : PeerPhase} (hpresent : peer ≠ .absent) :
      (before.setPeer other peer).Spawned task := by
    by_cases htask : task = other
    · subst htask
      simpa [System.Spawned, System.setPeer] using hpresent
    · simpa [System.Spawned, System.setPeer, htask] using hspawned
  cases hstep with
  | command | send => exact hset (by simp)
  | _ => exact hset (by simp)

theorem PeersAnswer.peerStep (hpeers : PeersAnswer before)
    (hstep : PeerStep before label after) : PeersAnswer after where
  steady := hstep.steady hpeers.steady
  tasks := by
    rw [hstep.manager_eq]
    exact fun task htask => hstep.spawned (hpeers.tasks task htask)
  told := by
    rw [hstep.manager_eq]
    exact fun task hdismissed => hstep.told (hpeers.told task hdismissed)

/-! ### Steps of the manager -/

theorem told_deliver {task : TaskId} (htold : before.Told task)
    (send : ManagerSend) : (before.deliver send).Told task := by
  obtain hqueued | hleft := htold
  · left
    cases send with
    | toProtocol event => exact hqueued
    | toPeer other event =>
        by_cases htask : task = other
        · subst htask
          simp [System.deliver, hqueued]
        · simpa [System.deliver, htask] using hqueued
  · right
    simpa using hleft

/-- The manager goes on in its loop. -/
theorem PeersAnswer.running (hpeers : PeersAnswer before) {turn : ManagerTurn}
    (hmanager : after.manager = .running turn)
    (hafter : after.peers = before.peers)
    (htasks : ∀ task ∈ turn.state.setTaskPeers,
      task ∈ before.manager.registry.setTaskPeers) : PeersAnswer after where
  steady := by
    rw [hafter]
    exact hpeers.steady
  tasks := by
    rw [hmanager]
    intro task htask
    rw [System.Spawned, hafter]
    exact hpeers.tasks task (htasks task htask)
  told := by simp [hmanager, ManagerPhase.Dismissed]

/-- The manager goes on after its loop. -/
theorem PeersAnswer.left (hpeers : PeersAnswer before) {manager : ManagerPhase}
    (htasks : ∀ task ∈ manager.registry.setTaskPeers,
      task ∈ before.manager.registry.setTaskPeers)
    (htold : ∀ task, manager.Dismissed task → before.Told task) :
    PeersAnswer { before with manager := manager } where
  steady := hpeers.steady
  tasks task htask := hpeers.tasks task (htasks task htask)
  told := htold

/-- A turn that may spawn the task `next`. -/
theorem connectTurn_tasks {next : TaskId} {self : PeerManager}
    {peer : Option Peer} {turn : ManagerTurn}
    (hturn : ConnectTurn next self peer turn) :
    ∀ task ∈ turn.state.setTaskPeers,
      task ∈ self.setTaskPeers ∨ task.id = next ∧ peer.isSome := by
  cases hturn with
  | idle flow => exact fun task htask => .inl htask
  | accepted hpeer hcontext address typeConnect =>
      intro task htask
      simp only [PeerManager.notifyProtocol, Await.state_issue,
        PeerManager.addPeer, List.mem_append, List.mem_singleton] at htask
      obtain hmem | rfl := htask
      · exact .inl hmem
      · exact .inr ⟨rfl, rfl⟩

theorem answered_tasks {self : PeerManager} {send : ManagerSend}
    {resume : Bool → ManagerTurn} (hdrops : DropsOnly (.issue self send resume))
    (delivered : Bool) :
    (resume delivered).state.setTaskPeers = self.setTaskPeers := by
  obtain ⟨self', flow, hdone, rfl | ⟨peerid, rfl⟩⟩ := hdrops delivered
  · rw [hdone]
    rfl
  · rw [hdone]
    rfl

theorem drainPeer_tasks (self : PeerManager) (result : ResultPeer) :
    (self.drainPeer result).setTaskPeers = self.setTaskPeers := by
  unfold PeerManager.drainPeer
  split
  · rfl
  · split <;> rfl

theorem PeersAnswer.managerStep (hpeers : PeersAnswer before)
    (hspawned : SpawnedOnly before) (hstep : ManagerStep before label after) :
    PeersAnswer after := by
  have htasks := hpeers.tasks
  have htold := hpeers.told
  cases hstep with
  | @take self input hmanager hexternal =>
      have hturn := connectTurn_tasks
        (@turn_external self before.next input hexternal)
      rw [hmanager] at htasks
      exact {
        steady := by
          intro task turn hpeer
          cases hnew : spawned input self with
          | none => exact hpeers.steady task turn (by simpa [spawnPeer, hnew] using hpeer)
          | some peer =>
              by_cases htask : task = before.next
              · subst htask
                simp only [spawnPeer, hnew, Function.update_self,
                  PeerPhase.looping.injEq] at hpeer
                exact hpeer ▸ steady_done (by simp)
              · exact hpeers.steady task turn
                  (by simpa [spawnPeer, hnew, htask] using hpeer)
        tasks := by
          intro task htask
          obtain hmem | ⟨hnext, hsome⟩ := hturn task htask
          · exact spawned_spawnPeer (htasks task hmem) _
          · obtain ⟨peer, hpeer⟩ := Option.isSome_iff_exists.mp hsome
            simp [System.Spawned, spawnPeer, hpeer, hnext]
        told := fun task hdismissed => hdismissed.elim }
  | @protocol self item rest hmanager hqueue =>
      refine hpeers.running rfl rfl ?_
      rw [(turn_protocol item.event).state_eq, hmanager]
      exact fun task htask => htask
  | protocolClosed hmanager hqueue hclosed =>
      refine hpeers.running rfl rfl ?_
      rw [hmanager]
      exact fun task htask => htask
  | @peer self item rest hmanager hqueue =>
      refine hpeers.running rfl rfl ?_
      rw [turn_peer_state, hmanager]
      exact fun task htask => htask
  | @join self task outcome hmanager htask hfinished =>
      refine hpeers.running rfl rfl ?_
      rw [hmanager]
      intro other hother
      have hmem : other ∈ (self.takeTask task).setTaskPeers := by
        obtain hdone | ⟨peerid, hturn⟩ := @turn_result (self.takeTask task)
          before.next (task.joined outcome)
        · rwa [hdone] at hother
        · rwa [hturn] at hother
      exact List.mem_of_mem_erase hmem
  | @send self send resume hmanager hopen hroom =>
      refine hpeers.running rfl (by simp) ?_
      rw [hmanager]
      rw [answered_tasks (hspawned.turn _ hmanager).drops]
      exact fun task htask => htask
  | @sendClosed self send resume hmanager hclosed =>
      refine hpeers.running rfl rfl ?_
      rw [hmanager]
      rw [answered_tasks (hspawned.turn _ hmanager).drops]
      exact fun task htask => htask
  | leave hmanager hperm =>
      apply hpeers.left
      · rw [hmanager]
        exact fun task htask => htask
      · rintro task ⟨hentry, hrest⟩
        exact absurd (hperm.mem_iff.mpr hentry) hrest
  | @disconnect self incident task rest hmanager hopen hroom =>
      rw [hmanager] at htasks htold
      exact {
        steady := by simpa using hpeers.steady
        tasks := by
          intro other hother
          simpa [System.Spawned] using htasks other hother
        told := by
          rintro other ⟨hentry, hrest⟩
          by_cases hother : other = task
          · subst hother
            left
            simp [System.deliver]
          · have hbefore := htold other ⟨hentry, by simp [hother, hrest]⟩
            exact (told_deliver hbefore (.toPeer task .shutdown)).congr rfl id }
  | @disconnectClosed self incident task rest hmanager hclosed =>
      rw [hmanager] at htold
      apply hpeers.left
      · rw [hmanager]
        exact fun task htask => htask
      · rintro other ⟨hentry, hrest⟩
        by_cases hother : other = task
        · subst hother
          right
          cases hpeer : before.peers other with
          | finished outcome => trivial
          | _ => simp [System.Closed, hpeer, PeerPhase.HasFinished] at hclosed
        · exact htold other ⟨hentry, by simp [hother, hrest]⟩
  | disconnected hmanager =>
      rw [hmanager] at htold
      apply hpeers.left
      · rw [hmanager]
        exact fun task htask => htask
      · exact fun task hentry => htold task ⟨hentry, by simp⟩
  | @drain self incident task outcome hmanager htask hfinished =>
      rw [hmanager] at htold
      apply hpeers.left
      · rw [hmanager]
        intro other hother
        simp only [ManagerPhase.registry, drainPeer_tasks] at hother
        exact List.mem_of_mem_erase hother
      · intro other hother
        have hsublist := drainPeer_entries (self.takeTask task)
          (task.joined outcome)
        exact htold other (mem_allTasks_of_sublist hsublist hother)
  | finish hmanager hnone =>
      apply hpeers.left
      · rw [hmanager]
        exact fun task htask => htask
      · exact fun task hdismissed => hdismissed.elim

theorem PeersAnswer.step (hpeers : PeersAnswer before)
    (hspawned : SpawnedOnly before) (hstep : Step before label after) :
    PeersAnswer after := by
  cases hstep with
  | manager hstep => exact hpeers.managerStep hspawned hstep
  | handle hstep => cases hstep <;> exact { hpeers with }
  | peer hstep => exact hpeers.peerStep hstep

end Steps

end P2PNetwork.Runtime
