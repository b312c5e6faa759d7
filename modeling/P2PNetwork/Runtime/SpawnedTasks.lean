import P2PNetwork.Runtime.System

/-!
# The tasks that have been spawned

The manager addresses none but the tasks it has spawned: the entries of its
table, the send it awaits and the peers it has still to disconnect belong to
them.  A task that is not spawned yet is absent and its channel is empty.
-/

namespace P2PNetwork.Runtime

open P2PNetwork.Events
open P2PNetwork.Handler
open P2PNetwork.Manager
open P2PNetwork.PeerActor
open P2PNetwork.Wire

/-! ## The entries of the manager -/

section Entries

variable {self : PeerManager}

theorem removePeer_entries (self : PeerManager) (peerid : PeerId) :
    (self.removePeer peerid).setAllPeers.entries.Sublist
      self.setAllPeers.entries :=
  List.kerase_sublist _ _

theorem complitedPeer_entries (self : PeerManager) (peerid : PeerId) :
    (self.complitedPeer peerid).setAllPeers.entries.Sublist
      self.setAllPeers.entries :=
  removePeer_entries self peerid

theorem drainPeer_entries (self : PeerManager) (result : ResultPeer) :
    (self.drainPeer result).setAllPeers.entries.Sublist
      self.setAllPeers.entries := by
  unfold PeerManager.drainPeer
  split
  · exact complitedPeer_entries self _
  · split
    · exact complitedPeer_entries self _
    · exact .refl _

theorem addPeer_entries (self : PeerManager) (task : TaskId) (newPeerid : PeerId)
    (address : SocketAddr) (typeConnect : TypeConnection) :
    ∃ entry rest,
      (self.addPeer task newPeerid address typeConnect).setAllPeers.entries =
        entry :: rest ∧
      entry.2.txChannelPeermanagerToPeer = task ∧
      rest.Sublist self.setAllPeers.entries :=
  ⟨_, _, AList.entries_insert, rfl, List.kerase_sublist _ _⟩

theorem mem_allTasks_of_sublist {other : PeerManager}
    (hentries : other.setAllPeers.entries.Sublist self.setAllPeers.entries)
    {task : TaskId} (htask : task ∈ other.allTasks) : task ∈ self.allTasks :=
  (hentries.map _).subset htask

theorem mem_allTasks_of_lookup {peerid : PeerId} {entry : PeerSystemMetadata}
    (hentry : self.setAllPeers.lookup peerid = some entry) :
    entry.txChannelPeermanagerToPeer ∈ self.allTasks :=
  List.mem_map.mpr ⟨_, AList.mem_lookup_iff.mp hentry, rfl⟩

end Entries

/-! ## Turns -/

/-- The turn addresses known tasks only. -/
structure AddressesOnly (known : TaskId → Prop) (turn : ManagerTurn) : Prop where
  drops : DropsOnly turn
  entries : ∀ task ∈ turn.state.allTasks, known task
  awaited : ∀ self task event resume,
    turn = .issue self (.toPeer task event) resume → known task

section Turns

variable {known later : TaskId → Prop} {self : PeerManager}

theorem AddressesOnly.done (hentries : ∀ task ∈ self.allTasks, known task)
    (flow : Flow EventsCriticalCompletionPeerManager) :
    AddressesOnly known (.done self flow) :=
  ⟨trivial, hentries, nofun⟩

theorem AddressesOnly.notify (hentries : ∀ task ∈ self.allTasks, known task)
    (event : EventsPeerManager) :
    AddressesOnly known (self.notifyProtocol event) where
  drops := notifyProtocol_dropsOnly event
  entries := hentries
  awaited self' task event' resume hturn := by cases hturn

theorem protocolTurn_addressesOnly {peerid : PeerId} {turn : ManagerTurn}
    (hturn : ProtocolTurn self peerid turn)
    (hentries : ∀ task ∈ self.allTasks, known task) :
    AddressesOnly known turn where
  drops := hturn.dropsOnly
  entries := by rwa [hturn.state_eq]
  awaited self' task event resume hissue := by
    cases hturn with
    | missing => cases hissue
    | entry hentry hresume =>
        cases hissue
        exact hentries _ (mem_allTasks_of_lookup hentry)

/-- A turn that may spawn the task `next`. -/
theorem connectTurn_addressesOnly {next : TaskId} {peer : Option Peer}
    {turn : ManagerTurn} (hturn : ConnectTurn next self peer turn)
    (hentries : ∀ task ∈ self.allTasks, known task)
    (hlater : ∀ task, known task → later task)
    (hnext : peer.isSome → later next) : AddressesOnly later turn := by
  cases hturn with
  | idle flow => exact .done (fun task htask => hlater _ (hentries task htask)) _
  | accepted hpeer hcontext address typeConnect =>
      apply AddressesOnly.notify
      intro task htask
      obtain ⟨entry, rest, hcons, hnew, hrest⟩ := addPeer_entries
        { self with peerid := self.peerid + 1 } next self.peerid address
        typeConnect
      rw [PeerManager.allTasks, hcons, List.map_cons, List.mem_cons] at htask
      obtain rfl | htask := htask
      · exact hnew ▸ hnext rfl
      · exact hlater _ (hentries task ((hrest.map _).subset htask))

/-- The answer of a send addresses nothing more. -/
theorem AddressesOnly.resume {send : ManagerSend} {resume : Bool → ManagerTurn}
    (hturn : AddressesOnly known (.issue self send resume)) (delivered : Bool) :
    AddressesOnly known (resume delivered) := by
  obtain ⟨self', flow, hdone, hself⟩ := hturn.drops delivered
  rw [hdone]
  obtain rfl | ⟨peerid, rfl⟩ := hself
  · exact .done hturn.entries flow
  · exact .done (fun task htask => hturn.entries task
      (mem_allTasks_of_sublist (removePeer_entries self peerid) htask)) flow

end Turns

/-! ## The system -/

def System.Spawned (system : System) (task : TaskId) : Prop :=
  system.peers task ≠ .absent

structure SpawnedOnly (system : System) : Prop where
  peers : ∀ task, system.next ≤ task → system.peers task = .absent
  commands : ∀ task, system.peers task = .absent → system.commands task = []
  entries : ∀ task ∈ system.manager.registry.allTasks, system.Spawned task
  turn : ∀ turn, system.manager = .running turn →
    AddressesOnly system.Spawned turn
  remaining : ∀ incident self rest,
    system.manager = .disconnecting incident self rest →
      ∀ task ∈ rest, system.Spawned task

theorem SpawnedOnly.initial (nonce : UInt64) :
    SpawnedOnly (System.initial nonce) where
  peers task htask := rfl
  commands task htask := rfl
  entries task htask := by cases htask
  turn turn hturn := by
    cases hturn
    exact .done (fun task htask => by cases htask) _
  remaining := nofun

section Steps

variable {before after : System} {label : Label}

/-- The manager goes on, and no peer does. -/
theorem SpawnedOnly.moveManager (hspawned : SpawnedOnly before)
    (hpeers : after.peers = before.peers) (hnext : after.next = before.next)
    (hcommands : ∀ task, before.peers task = .absent → after.commands task = [])
    (hentries : ∀ task ∈ after.manager.registry.allTasks, before.Spawned task)
    (hturn : ∀ turn, after.manager = .running turn →
      AddressesOnly before.Spawned turn)
    (hremaining : ∀ incident self rest,
      after.manager = .disconnecting incident self rest →
        ∀ task ∈ rest, before.Spawned task) : SpawnedOnly after := by
  have hknown : after.Spawned = before.Spawned := by
    funext task
    rw [System.Spawned, hpeers, System.Spawned]
  constructor
  · rw [hpeers, hnext]
    exact hspawned.peers
  · rw [hpeers]
    exact hcommands
  · rw [hknown]
    exact hentries
  · rw [hknown]
    exact hturn
  · rw [hknown]
    exact hremaining

/-- The manager goes on with a turn, all else being as it was. -/
theorem SpawnedOnly.running (hspawned : SpawnedOnly before)
    {turn : ManagerTurn} (hturn : AddressesOnly before.Spawned turn)
    (hmanager : after.manager = .running turn)
    (hpeers : after.peers = before.peers)
    (hcommands : after.commands = before.commands)
    (hnext : after.next = before.next) : SpawnedOnly after := by
  apply hspawned.moveManager hpeers hnext
  · rw [hcommands]
    exact hspawned.commands
  · rw [hmanager]
    exact hturn.entries
  · intro turn' hturn'
    rw [hmanager] at hturn'
    cases hturn'
    exact hturn
  · simp [hmanager]

/-- The manager has left its loop. -/
theorem SpawnedOnly.left (hspawned : SpawnedOnly before) {manager : ManagerPhase}
    {self : PeerManager} (hentries : ∀ task ∈ self.allTasks, before.Spawned task)
    (hregistry : manager.registry = self)
    (hrunning : ∀ turn, manager ≠ .running turn)
    (hremaining : ∀ incident self rest,
      manager = .disconnecting incident self rest →
        ∀ task ∈ rest, before.Spawned task) :
    SpawnedOnly { before with manager := manager } :=
  hspawned.moveManager rfl rfl hspawned.commands (hregistry ▸ hentries)
    (fun turn hturn => absurd hturn (hrunning turn)) hremaining

theorem commands_deliver (hspawned : SpawnedOnly before) {send : ManagerSend}
    (hsend : ∀ task event, send = .toPeer task event → before.Spawned task)
    (task : TaskId) (htask : before.peers task = .absent) :
    (before.deliver send).commands task = [] := by
  cases send with
  | toProtocol event => exact hspawned.commands task htask
  | toPeer other event =>
      have hne : task ≠ other := by
        rintro rfl
        exact hsend task event rfl htask
      simpa [System.deliver, hne] using hspawned.commands task htask

/-- What has been spawned stays spawned when the next task is. -/
theorem spawned_spawnPeer {peers : TaskId → PeerPhase} {task next : TaskId}
    (hspawned : peers task ≠ .absent) (peer : Option Peer) :
    spawnPeer peers next peer task ≠ .absent := by
  cases peer with
  | none => exact hspawned
  | some peer =>
      by_cases htask : task = next
      · subst htask
        simp [spawnPeer]
      · simpa [spawnPeer, htask] using hspawned

theorem SpawnedOnly.managerStep (hspawned : SpawnedOnly before)
    (hstep : ManagerStep before label after) : SpawnedOnly after := by
  have hidle {self : PeerManager}
      {flow : Flow EventsCriticalCompletionPeerManager}
      (hmanager : before.manager = .running (.done self flow)) :
      ∀ task ∈ self.allTasks, before.Spawned task :=
    (hspawned.turn _ hmanager).entries
  cases hstep with
  | @take self input hmanager hexternal =>
      have hnew : (spawned input self).isSome →
          spawnPeer before.peers before.next (spawned input self) before.next ≠
            .absent := by
        intro hsome
        obtain ⟨peer, hpeer⟩ := Option.isSome_iff_exists.mp hsome
        simp [spawnPeer, hpeer]
      have hturn := connectTurn_addressesOnly (turn_external hexternal)
        (hidle hmanager) (fun task htask => spawned_spawnPeer htask _) hnew
      exact {
        peers := by
          intro task htask
          have hlt : before.next < task := htask
          have habsent := hspawned.peers task hlt.le
          cases hpeer : spawned input self with
          | none => simpa [spawnPeer, hpeer] using habsent
          | some peer => simpa [spawnPeer, hpeer, hlt.ne'] using habsent
        commands := by
          intro task htask
          apply hspawned.commands
          by_contra hspawned
          exact spawned_spawnPeer hspawned _ htask
        entries := hturn.entries
        turn := by
          rintro turn ⟨⟩
          exact hturn
        remaining := by simp }
  | @protocol self item rest hmanager hqueue =>
      refine hspawned.running ?_ rfl rfl rfl rfl
      exact protocolTurn_addressesOnly (turn_protocol item.event)
        (hidle hmanager)
  | protocolClosed hmanager hqueue hclosed =>
      exact hspawned.running (.done (hidle hmanager) _) rfl rfl rfl rfl
  | @peer self item rest hmanager hqueue =>
      refine hspawned.running ?_ rfl rfl rfl rfl
      obtain hdone | ⟨peerid, message, -, hturn⟩ := turn_peer item.event
      · exact hdone ▸ .done (hidle hmanager) _
      · exact hturn ▸ .notify (hidle hmanager) _
  | @join self task outcome hmanager htask hfinished =>
      refine hspawned.running ?_ rfl rfl rfl rfl
      have hself := hidle hmanager
      have hentries : ∀ other ∈ (self.takeTask task).allTasks,
          before.Spawned other := hself
      obtain hdone | ⟨peerid, hturn⟩ := turn_result (task.joined outcome)
      · exact hdone ▸ .done hentries _
      · exact hturn ▸ .notify (fun other hother => hentries other
          (mem_allTasks_of_sublist (complitedPeer_entries _ peerid) hother)) _
  | @send self send resume hmanager hopen hroom =>
      have hturn := hspawned.turn _ hmanager
      have hresume := hturn.resume true
      apply hspawned.moveManager (by simp) (by simp)
      · apply commands_deliver hspawned
        rintro task event rfl
        exact hturn.awaited _ _ _ _ rfl
      · exact hresume.entries
      · rintro turn ⟨⟩
        exact hresume
      · simp
  | @sendClosed self send resume hmanager hclosed =>
      exact hspawned.running ((hspawned.turn _ hmanager).resume false) rfl rfl rfl
        rfl
  | @leave self incident tasks hmanager htasks =>
      have hentries := hidle hmanager
      apply hspawned.left hentries rfl (by simp)
      rintro _ _ _ ⟨⟩ task htask
      exact hentries task (htasks.mem_iff.mp htask)
  | @disconnect self incident task rest hmanager hopen hroom =>
      have hentries := hspawned.entries
      have hremaining := hspawned.remaining _ _ _ hmanager
      rw [hmanager] at hentries
      apply hspawned.moveManager (by simp) (by simp)
      · refine @commands_deliver before hspawned (.toPeer task .shutdown) ?_
        rintro _ event ⟨⟩
        exact hremaining task List.mem_cons_self
      · exact hentries
      · simp
      · rintro _ _ _ ⟨⟩ other hother
        exact hremaining other (List.mem_cons_of_mem _ hother)
  | @disconnectClosed self incident task rest hmanager hclosed =>
      have hentries := hspawned.entries
      have hremaining := hspawned.remaining _ _ _ hmanager
      rw [hmanager] at hentries
      refine hspawned.left hentries rfl (by simp) ?_
      rintro _ _ _ ⟨⟩ other hother
      exact hremaining other (List.mem_cons_of_mem _ hother)
  | disconnected hmanager =>
      have hentries := hspawned.entries
      rw [hmanager] at hentries
      exact hspawned.left hentries rfl (by simp) (by simp)
  | @drain self incident task outcome hmanager htask hfinished =>
      have hentries := hspawned.entries
      rw [hmanager] at hentries
      have hdrained : ∀ other ∈ ((self.takeTask task).drainPeer
          (task.joined outcome)).allTasks, before.Spawned other := by
        intro other hother
        have hsublist := drainPeer_entries (self.takeTask task)
          (task.joined outcome)
        exact hentries other (mem_allTasks_of_sublist hsublist hother)
      exact hspawned.left hdrained rfl (by simp) (by simp)
  | finish hmanager htasks =>
      have hentries := hspawned.entries
      rw [hmanager] at hentries
      exact hspawned.left hentries rfl (by simp) (by simp)

theorem SpawnedOnly.lt_of_looping (hspawned : SpawnedOnly before)
    {task : TaskId} {turn : PeerTurn}
    (hpeer : before.peers task = .looping turn) : task < before.next := by
  by_contra hge
  simp [hspawned.peers task (not_lt.mp hge)] at hpeer

/-- A peer that has been spawned goes on. -/
theorem SpawnedOnly.setPeer (hspawned : SpawnedOnly before) {task : TaskId}
    {turn : PeerTurn} (hpeer : before.peers task = .looping turn)
    {peer : PeerPhase} (hpresent : peer ≠ .absent) :
    SpawnedOnly (before.setPeer task peer) := by
  have habsent (other : TaskId) :
      (before.setPeer task peer).peers other = .absent ↔
        before.peers other = .absent := by
    by_cases hother : other = task
    · subst hother
      simp [System.setPeer, hpeer, hpresent]
    · simp [System.setPeer, hother]
  have hknown : (before.setPeer task peer).Spawned = before.Spawned := by
    ext other
    exact not_congr (habsent other)
  constructor
  · intro other hother
    exact (habsent other).mpr (hspawned.peers other hother)
  · intro other hother
    exact hspawned.commands other ((habsent other).mp hother)
  · rw [hknown]
    exact hspawned.entries
  · rw [hknown]
    exact hspawned.turn
  · rw [hknown]
    exact hspawned.remaining

theorem SpawnedOnly.peerStep (hspawned : SpawnedOnly before)
    (hstep : PeerStep before label after) : SpawnedOnly after := by
  cases hstep with
  | @command task self event rest hpeer hqueue =>
      have hmoved {turn : PeerTurn} :
          SpawnedOnly (before.setPeer task (.looping turn)) :=
        hspawned.setPeer hpeer (by simp)
      exact { @hmoved (PeerActor.turn (.incidentPeermanager (some event)) self) with
        commands := fun other hother => by
          have hne : other ≠ task := by
            rintro rfl
            simp [System.setPeer] at hother
          simpa [hne, System.setPeer] using hmoved.commands other hother }
  | send hpeer => exact { hspawned.setPeer hpeer (by simp) with }
  | commandClosed hpeer | subtask hpeer | sendClosed hpeer | write hpeer
  | finish hpeer | panic hpeer => exact hspawned.setPeer hpeer (by simp)

theorem SpawnedOnly.handleStep (hspawned : SpawnedOnly before)
    (hstep : HandleStep before label after) : SpawnedOnly after := by
  cases hstep <;> exact { hspawned with }

theorem SpawnedOnly.step (hspawned : SpawnedOnly before)
    (hstep : Step before label after) : SpawnedOnly after := by
  cases hstep with
  | manager hstep => exact hspawned.managerStep hstep
  | handle hstep => exact hspawned.handleStep hstep
  | peer hstep => exact hspawned.peerStep hstep

end Steps

end P2PNetwork.Runtime
