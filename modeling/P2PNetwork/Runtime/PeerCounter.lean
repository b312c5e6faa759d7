import P2PNetwork.Runtime.System

/-!
# The counter of peer ids

The counter is raised for every new peer and lowered for every peer that ends,
in the loop of the manager and after it.  It is one more than the number of
tasks that have not been joined, so the ids it gives out are never 0 and it
is never lowered from 0, unless it wrapped just before: a peer that cannot be
created is counted until it is dropped.
-/

namespace P2PNetwork.Runtime

open P2PNetwork.EventLoop
open P2PNetwork.Events
open P2PNetwork.FiniteTable
open P2PNetwork.Handler
open P2PNetwork.Handshake
open P2PNetwork.Manager
open P2PNetwork.PeerActor
open P2PNetwork.Wire

/-! ## What a step does to the registry -/

/-- A step keeps the tasks and drops entries at most, makes one peer, or ends
one. -/
inductive RegistryMove (system : System) : Label → PeerManager → Prop where
  | kept {label : Label} {self : PeerManager}
      (htasks : self.setTaskPeers = system.manager.registry.setTaskPeers)
      (hknown : self.setIdPeers = system.manager.registry.setIdPeers)
      (hcounter : self.peerid = system.manager.registry.peerid)
      (hentries : ∀ peerid ∈ self.setAllPeers,
        peerid ∈ system.manager.registry.setAllPeers) :
      RegistryMove system label self
  | connected {input : ManagerInput} (address : SocketAddr)
      (typeConnect : TypeConnection) :
      RegistryMove system (.managerTake input)
        ({ system.manager.registry with
          peerid := system.manager.registry.peerid + 1 }.addPeer system.next
            system.manager.registry.peerid address typeConnect)
  | ended {label : Label} {task : TaskPeer}
      (hlabel : label = .managerJoin task ∨ label = .managerDrain task)
      (htask : task ∈ system.manager.registry.setTaskPeers) :
      RegistryMove system label
        ((system.manager.registry.takeTask task).complitedPeer task.peerid)

section Moves

variable {before after : System} {label : Label}

theorem RegistryMove.same {self : PeerManager}
    (hself : self = before.manager.registry) : RegistryMove before label self := by
  subst hself
  exact .kept rfl rfl rfl fun _ hentry => hentry

theorem RegistryMove.removePeer (peerid : PeerId) :
    RegistryMove before label (before.manager.registry.removePeer peerid) := by
  refine .kept rfl rfl rfl fun other hentry => ?_
  have herased : other ∈ before.manager.registry.setAllPeers.erase peerid := hentry
  exact (AList.mem_erase.mp herased).2

theorem registry_of_running {turn : ManagerTurn}
    (hmanager : before.manager = .running turn) :
    before.manager.registry = turn.state := by
  rw [hmanager]
  rfl

theorem registry_of_idle {self : PeerManager}
    {flow : Flow EventsCriticalCompletionPeerManager}
    (hmanager : before.manager = .running (.done self flow)) :
    before.manager.registry = self :=
  registry_of_running hmanager

/-- In the loop and after it, the task that is joined is known, so its peer
ends. -/
theorem ManagerStep.registry_joined {task : TaskPeer}
    (hstep : ManagerStep before label after)
    (hlabel : label = .managerJoin task ∨ label = .managerDrain task)
    (htasks : TasksKnown before.next before.manager.registry) :
    task ∈ before.manager.registry.setTaskPeers ∧
      after.manager.registry =
        (before.manager.registry.takeTask task).complitedPeer task.peerid := by
  cases hstep with
  | @join self _ outcome hmanager htask hfinished =>
      obtain rfl : _ = task := by simpa using hlabel
      obtain rfl := registry_of_idle hmanager
      refine ⟨htask, ?_⟩
      rw [registry_of_running rfl]
      rw [turn_joined (htasks.known _ htask)]
      rfl
  | @drain self incident _ outcome hmanager htask hfinished =>
      obtain rfl : _ = task := by simpa using hlabel
      have hregistry : before.manager.registry = self := by
        rw [hmanager]
        rfl
      subst hregistry
      exact ⟨htask, drainPeer_joined (htasks.known _ htask) outcome⟩
  | _ => simp at hlabel

/-- A send is answered, and at most an entry is dropped. -/
theorem RegistryMove.answered {self : PeerManager} {send : ManagerSend}
    {resume : Bool → ManagerTurn}
    (hmanager : before.manager = .running (.issue self send resume))
    (hdrops : DropsOnly (.issue self send resume)) (delivered : Bool) :
    RegistryMove before label (resume delivered).state := by
  have hregistry : before.manager.registry = self := registry_of_running hmanager
  subst hregistry
  exact hdrops.answered (.same rfl) .removePeer delivered

/-- Every step of the manager, in its loop and after it. -/
theorem ManagerStep.registryMove (hstep : ManagerStep before label after)
    (htasks : TasksKnown before.next before.manager.registry)
    (hdrops : ∀ turn, before.manager = .running turn → DropsOnly turn) :
    RegistryMove before label after.manager.registry := by
  cases hstep with
  | @take self input hmanager hexternal =>
      have hregistry := registry_of_idle hmanager
      rw [← hregistry]
      have hturn := @turn_external before.manager.registry before.next _ hexternal
      change RegistryMove before _
        (PeerManager.turn before.next input before.manager.registry).state
      generalize PeerManager.turn before.next input before.manager.registry =
        turn at hturn
      generalize spawned input before.manager.registry = peer at hturn
      cases hturn with
      | idle flow => exact .same rfl
      | accepted hpeer hcontext address typeConnect =>
          exact .connected address typeConnect
  | @protocol self item rest hmanager hqueue =>
      apply RegistryMove.same
      rw [registry_of_idle hmanager]
      exact (turn_protocol item.event).state_eq
  | protocolClosed hmanager hqueue hclosed =>
      apply RegistryMove.same
      rw [registry_of_idle hmanager]
      rfl
  | @peer self item rest hmanager hqueue =>
      apply RegistryMove.same
      rw [registry_of_idle hmanager]
      exact turn_peer_state item.event
  | join hmanager htask hfinished =>
      have hstep := ManagerStep.join hmanager htask hfinished
      obtain ⟨hmem, hself⟩ := hstep.registry_joined (.inl rfl) htasks
      rw [hself]
      exact .ended (.inl rfl) hmem
  | send hmanager hopen hroom => exact .answered hmanager (hdrops _ hmanager) true
  | sendClosed hmanager hclosed => exact .answered hmanager (hdrops _ hmanager) false
  | leave hmanager htasks => exact .same (registry_of_idle hmanager).symm
  | disconnect hmanager hopen hroom =>
      apply RegistryMove.same
      rw [hmanager]
      rfl
  | disconnectClosed hmanager hclosed =>
      apply RegistryMove.same
      rw [hmanager]
      rfl
  | disconnected hmanager =>
      apply RegistryMove.same
      rw [hmanager]
      rfl
  | drain hmanager htask hfinished =>
      have hstep := ManagerStep.drain hmanager htask hfinished
      obtain ⟨hmem, hself⟩ := hstep.registry_joined (.inr rfl) htasks
      rw [hself]
      exact .ended (.inr rfl) hmem
  | finish hmanager htasks =>
      apply RegistryMove.same
      rw [hmanager]
      rfl

end Moves

/-! ## The counter -/

/-- What the counter and the tasks of the manager satisfy in every state. -/
structure RegistryInOrder (system : System) : Prop where
  tasks : TasksKnown system.next system.manager.registry
  drops : ∀ turn, system.manager = .running turn → DropsOnly turn
  counter : system.manager.registry.peerid =
    UInt64.ofNat (1 + system.manager.registry.setTaskPeers.length)

section Steps

variable {before after : System} {label : Label}

theorem RegistryInOrder.initial (nonce : UInt64) :
    RegistryInOrder (System.initial nonce) where
  tasks := TasksKnown.create 0 nonce
  drops turn hturn := by
    cases hturn
    trivial
  counter := rfl

theorem RegistryMove.counter {self : PeerManager}
    (hmove : RegistryMove before label self)
    (hcounter : before.manager.registry.peerid =
      UInt64.ofNat (1 + before.manager.registry.setTaskPeers.length)) :
    self.peerid = UInt64.ofNat (1 + self.setTaskPeers.length) := by
  cases hmove with
  | kept htasks hknown hkept hentries => rw [hkept, htasks, hcounter]
  | connected address typeConnect =>
      simp only [PeerManager.addPeer, List.length_append, List.length_singleton,
        hcounter]
      rw [← add_assoc, UInt64.ofNat_add _ 1]
      rfl
  | ended hlabel htask =>
      have hlength := List.length_erase_of_mem htask
      have hpos := List.length_pos_of_mem htask
      have hone : 1 + (before.manager.registry.setTaskPeers.length - 1) =
          1 + before.manager.registry.setTaskPeers.length - 1 := by omega
      simp only [PeerManager.complitedPeer, PeerManager.removePeer,
        PeerManager.takeTask, hlength, hcounter]
      rw [hone, UInt64.ofNat_sub (Nat.le_add_right 1 _)]
      rfl

theorem RegistryMove.tasksKnown {self : PeerManager}
    (hmove : RegistryMove before label self)
    (htasks : TasksKnown before.next before.manager.registry)
    {next : TaskId} (hnext : before.next ≤ next)
    (hspawned : ∀ input, label = .managerTake input → next = before.next + 1) :
    TasksKnown next self := by
  cases hmove with
  | kept hsame hknown hcounter hentries =>
      refine ⟨fun task htask => ?_, fun task htask => ?_⟩
      · rw [hsame] at htask
        exact lt_of_lt_of_le (htasks.spawned task htask) hnext
      · rw [hsame] at htask
        rw [hknown]
        exact htasks.known task htask
  | connected address typeConnect =>
      rw [hspawned _ rfl]
      have hcounter : TasksKnown before.next { before.manager.registry with
          peerid := before.manager.registry.peerid + 1 } :=
        ⟨htasks.spawned, htasks.known⟩
      exact hcounter.addPeer _ address typeConnect
  | ended hlabel htask => exact (htasks.complited _).mono hnext

theorem ManagerStep.next_eq (hstep : ManagerStep before label after) :
    before.next ≤ after.next ∧
      ∀ input, label = .managerTake input → after.next = before.next + 1 := by
  cases hstep with
  | take => exact ⟨Nat.le_succ _, fun _ _ => rfl⟩
  | send | disconnect => simp
  | _ => simp

theorem ManagerStep.dropsOnly (hstep : ManagerStep before label after)
    (hdrops : ∀ turn, before.manager = .running turn → DropsOnly turn) :
    ∀ turn, after.manager = .running turn → DropsOnly turn := by
  intro turn hturn
  cases hstep with
  | take | protocol | protocolClosed | peer | join =>
      cases hturn
      exact turn_dropsOnly _
  | send hmanager hopen hroom =>
      cases hturn
      exact (hdrops _ hmanager).resume true
  | sendClosed hmanager hclosed =>
      cases hturn
      exact (hdrops _ hmanager).resume false
  | _ => cases hturn

theorem RegistryInOrder.congr (horder : RegistryInOrder before)
    (hmanager : after.manager = before.manager)
    (hnext : after.next = before.next) : RegistryInOrder after where
  tasks := by
    rw [hmanager, hnext]
    exact horder.tasks
  drops := by
    rw [hmanager]
    exact horder.drops
  counter := by
    rw [hmanager]
    exact horder.counter

theorem RegistryInOrder.step (horder : RegistryInOrder before)
    (hstep : Step before label after) : RegistryInOrder after := by
  cases hstep with
  | manager hstep =>
      have hmove := hstep.registryMove horder.tasks horder.drops
      obtain ⟨hnext, hspawned⟩ := hstep.next_eq
      exact ⟨hmove.tasksKnown horder.tasks hnext hspawned,
        hstep.dropsOnly horder.drops, hmove.counter horder.counter⟩
  | handle hstep => exact horder.congr hstep.manager_eq hstep.peers_eq.2
  | peer hstep => exact horder.congr hstep.manager_eq hstep.peers_eq.1

end Steps

/-! ## Ids and decrements -/

/-- The counter as it is lowered when a peer cannot be created. -/
def failedCreation (socket : TcpStream) (typeConnect : TypeConnection)
    (self : PeerManager) : Option PeerId :=
  match Peer.create self.peerid socket typeConnect with
  | .ok _ => none
  | .error _ => some (self.peerid + 1)

/-- The value of the counter that a step lowers by one, if it lowers it. -/
def lowered : Label → PeerManager → Option PeerId
  | .managerTake (.incidentThreadNetwork (.ok socket)
      (some (.outgoingConnection _))), self =>
      failedCreation socket .outgoingConnection self
  | .managerTake (.incidentLooplisten
      (some (.incomingConnection socket _))), self =>
      failedCreation socket .incomingConnection self
  | .managerJoin _, self => some self.peerid
  | .managerDrain _, self => some self.peerid
  | _, _ => none

section Runs

variable {nonce : UInt64} {labels : List Label} {system after : System}
variable {label : Label}

theorem registryInOrder_of_run (run : Run Step (.initial nonce) labels system) :
    RegistryInOrder system :=
  run.invariant RegistryInOrder (.initial nonce) fun _ _ _ => .step

theorem failedCreation_eq {socket : TcpStream} {typeConnect : TypeConnection}
    {self : PeerManager} {value : PeerId}
    (hvalue : failedCreation socket typeConnect self = some value)
    (task : TaskId) (address : SocketAddr) :
    value = self.peerid + 1 ∧
      (self.newConnection task socket address typeConnect).state.peerid =
        value - 1 := by
  unfold failedCreation at hvalue
  cases hcreate : Peer.create self.peerid socket typeConnect with
  | ok created =>
      rw [hcreate] at hvalue
      cases hvalue
  | error reason =>
      rw [hcreate] at hvalue
      obtain rfl := Option.some.inj hvalue
      simp [PeerManager.newConnection, hcreate]

/-- A step that lowers the counter leaves it at the value before, less one. -/
theorem counter_of_lowered (horder : RegistryInOrder system)
    (hstep : Step system label after) {value : PeerId}
    (hvalue : lowered label system.manager.registry = some value) :
    after.manager.registry.peerid = value - 1 ∧
      ((value = system.manager.registry.peerid + 1 ∧
          ∃ input, label = .managerTake input) ∨
        value = system.manager.registry.peerid ∧
          system.manager.registry.setTaskPeers ≠ []) := by
  have hmanager : ManagerStep system label after := by
    cases hstep with
    | manager hstep => exact hstep
    | handle hstep => cases hstep <;> cases hvalue
    | peer hstep => cases hstep <;> cases hvalue
  have hjoined {task : TaskPeer}
      (hlabel : label = .managerJoin task ∨ label = .managerDrain task)
      (hvalue : some system.manager.registry.peerid = some value) :
      after.manager.registry.peerid = value - 1 ∧
        value = system.manager.registry.peerid ∧
          system.manager.registry.setTaskPeers ≠ [] := by
    obtain ⟨hmem, hself⟩ := hmanager.registry_joined hlabel horder.tasks
    obtain rfl := Option.some.inj hvalue
    rw [hself]
    exact ⟨rfl, rfl, List.ne_nil_of_mem hmem⟩
  unfold lowered at hvalue
  split at hvalue
  case h_1 socket address =>
    cases hmanager with
    | take hidle hexternal =>
        obtain rfl := registry_of_idle hidle
        obtain ⟨hraised, hafter⟩ := failedCreation_eq hvalue system.next address
        exact ⟨hafter, .inl ⟨hraised, _, rfl⟩⟩
  case h_2 socket address =>
    cases hmanager with
    | take hidle hexternal =>
        obtain rfl := registry_of_idle hidle
        obtain ⟨hraised, hafter⟩ := failedCreation_eq hvalue system.next address
        exact ⟨hafter, .inl ⟨hraised, _, rfl⟩⟩
  case h_3 task =>
    obtain ⟨hafter, hsame⟩ := hjoined (.inl rfl) hvalue
    exact ⟨hafter, .inr hsame⟩
  case h_4 task =>
    obtain ⟨hafter, hsame⟩ := hjoined (.inr rfl) hvalue
    exact ⟨hafter, .inr hsame⟩
  case h_5 => cases hvalue

theorem peerid_of_spawned {input : ManagerInput} {self : PeerManager} {peer : Peer}
    (hspawned : spawned input self = some peer) : peer.peerid = self.peerid := by
  unfold spawned at hspawned
  split at hspawned
  · exact (created_of_toOption hspawned).1
  · exact (created_of_toOption hspawned).1
  · cases hspawned

/-- In every state of every run with fewer than `2 ^ 64 - 1` tasks the counter
is one more than the number of tasks that are not joined yet, and no peer is
given the id 0.  The counter is lowered from 0 only when a peer cannot be
created while there are `2 ^ 64 - 2` tasks. -/
theorem counter_eq_tasks (run : Run Step (.initial nonce) labels system)
    (htasks : system.manager.registry.setTaskPeers.length < 2 ^ 64 - 1) :
    system.manager.registry.peerid.toNat =
        1 + system.manager.registry.setTaskPeers.length ∧
      (∀ input peer, spawned input system.manager.registry = some peer →
        peer.peerid ≠ 0) ∧
      ∀ label after value, Step system label after →
        lowered label system.manager.registry = some value →
          after.manager.registry.peerid = value - 1 ∧
            (value = 0 → (∃ input, label = .managerTake input) ∧
              system.manager.registry.setTaskPeers.length = 2 ^ 64 - 2) := by
  have horder := registryInOrder_of_run run
  have hcounter : system.manager.registry.peerid.toNat =
      1 + system.manager.registry.setTaskPeers.length := by
    rw [horder.counter, UInt64.toNat_ofNat']
    exact Nat.mod_eq_of_lt (by omega)
  refine ⟨hcounter, fun input peer hspawned hzero => ?_, ?_⟩
  · rw [peerid_of_spawned hspawned] at hzero
    have hnat := congrArg UInt64.toNat hzero
    rw [hcounter] at hnat
    simp at hnat
  · intro label after value hstep hvalue
    obtain ⟨hafter, hcases⟩ := counter_of_lowered horder hstep hvalue
    refine ⟨hafter, fun hzero => ?_⟩
    obtain ⟨hraised, htake⟩ | ⟨hsame, hsome⟩ := hcases
    · refine ⟨htake, ?_⟩
      have hwrapped := congrArg UInt64.toNat (hraised.symm.trans hzero)
      rw [UInt64.toNat_add, hcounter] at hwrapped
      simp at hwrapped
      omega
    · have hnat := congrArg UInt64.toNat (hsame.symm.trans hzero)
      rw [hcounter] at hnat
      simp at hnat

/-- Two connections, of which the first one has ended. -/
theorem counter_eq_tasks_survivor : ∃ labels system,
    Run Step (.initial 0) labels system ∧
      system.manager.registry.setTaskPeers = [{ id := 1, peerid := 2 }] ∧
      system.manager.registry.peerid.toNat = 2 ∧
      ∀ input peer, spawned input system.manager.registry = some peer →
        peer.peerid ≠ 0 := by
  obtain ⟨labels, system, self, run, hmanager, htasks, -⟩ := survivor_run
  have hset : system.manager.registry.setTaskPeers = [{ id := 1, peerid := 2 }] := by
    rw [hmanager]
    exact htasks
  obtain ⟨hcounter, hids, -⟩ := counter_eq_tasks run (by rw [hset]; decide)
  rw [hset] at hcounter
  exact ⟨_, _, run, hset, hcounter, hids⟩

end Runs

/-! ## Many peers -/

/-- Fewer tasks than there are ids, with the counter's own value left over. -/
def FewTasks (system : System) (_ : Label) : Prop :=
  system.manager.registry.setTaskPeers.length < 2 ^ 64 - 1

/-- Every peer in the tables connected to us. -/
def AllIncoming (tables : HandleMessage) : Prop :=
  ∀ peerid context, tables.setContextPeers.lookup peerid = some context →
    context.typeConnect = .incomingConnection

/-- The event of a peer that connected to us is handled without an answer. -/
theorem AllIncoming.newConnection {tables : HandleMessage}
    (hincoming : AllIncoming tables) (now : Except SystemTimeError UInt64)
    {context : StructContextConnection}
    (htype : context.typeConnection = .incomingConnection) :
    tables.newConnection now context = .done (tables.addPeer context) .next ∧
      AllIncoming (tables.addPeer context) := by
  have hadded : AllIncoming (tables.addPeer context) := by
    intro peerid found hfound
    simp only [HandleMessage.addPeer] at hfound
    split at hfound
    case isTrue => exact hincoming peerid found hfound
    case isFalse =>
      rw [lookup_insert_ite] at hfound
      split at hfound
      case isTrue =>
        rw [← Option.some.inj hfound]
        exact htype
      case isFalse => exact hincoming peerid found hfound
  refine ⟨?_, hadded⟩
  simp only [HandleMessage.newConnection]
  split
  case isFalse => rfl
  case isTrue hmem =>
    obtain ⟨found, hfound⟩ := mem_iff_lookup.mp hmem.1
    simp only [hfound, hadded _ _ hfound]

/-- A node with `count` peers that connected to it, whose events are handled. -/
structure Crowded (count : ℕ) (system : System) : Prop where
  idle : ∃ self, system.manager = .running (.done self .next) ∧
    self.setTaskPeers.length = count
  handled : ∃ tables, system.handle = .done tables .next ∧ AllIncoming tables
  drained : system.toProtocol = []

theorem Crowded.initial (nonce : UInt64) : Crowded 0 (System.initial nonce) where
  idle := ⟨_, rfl, rfl⟩
  handled := ⟨_, rfl, fun peerid context hcontext => by
    simp [HandleMessage.create] at hcontext⟩
  drained := rfl

/-- The manager has taken up a connection from the loopback address. -/
def System.accepting (system : System) (self : PeerManager) : System :=
  { system with
    manager := .running (PeerManager.turn system.next loopbackConnection self)
    managing := system.next
    peers := spawnPeer system.peers system.next (spawned loopbackConnection self)
    next := system.next + 1 }

/-- A peer connects to an idle node, which reports it. -/
theorem accepted_few {system : System} {self : PeerManager}
    (hmanager : system.manager = .running (.done self .next))
    (hopen : ¬ HasLeft system.handle) (hdrained : system.toProtocol = [])
    (hfew : self.setTaskPeers.length + 1 < 2 ^ 64 - 1) :
    ∃ labels after item context,
      Run (Restrict Step FewTasks) system labels after ∧
      after.manager = .running (.done (self.accepted system.next) .next) ∧
      after.handle = system.handle ∧ after.toProtocol = [item] ∧
      item.event = .incidentNewConnection context ∧
      context.typeConnection = .incomingConnection := by
  have hbefore : FewTasks system (.managerTake loopbackConnection) := by
    rw [FewTasks, registry_of_idle hmanager]
    omega
  have htake : Restrict Step FewTasks system (.managerTake loopbackConnection)
      (system.accepting self) := ⟨hbefore, .manager (.take hmanager trivial)⟩
  have hafter : FewTasks (system.accepting self) (.managerSend true) := by
    change ((self.accepted system.next).setTaskPeers).length < 2 ^ 64 - 1
    simpa [PeerManager.accepted, PeerManager.addPeer] using hfew
  have hroom : (system.accepting self).toProtocol.length < channelCapacity := by
    change system.toProtocol.length < channelCapacity
    rw [hdrained]
    exact Nat.zero_lt_succ _
  have hsend : ManagerStep (system.accepting self) (.managerSend true) _ :=
    .notified rfl hopen hroom
  refine ⟨_, _, _, _, ((Run.refl _).tail htake).tail ⟨hafter, .manager hsend⟩,
    rfl, rfl, congrArg (· ++ [_]) hdrained, rfl, rfl⟩

/-- A further peer connects and its event is handled. -/
theorem Crowded.connect {count : ℕ} {system : System}
    (hcrowded : Crowded count system) (hcount : count + 1 < 2 ^ 64 - 1) :
    ∃ labels after, Run (Restrict Step FewTasks) system labels after ∧
      Crowded (count + 1) after := by
  obtain ⟨⟨self, hmanager, hlength⟩, ⟨tables, hhandle, hincoming⟩, hdrained⟩ :=
    hcrowded
  have haccepted : (self.accepted system.next).setTaskPeers.length = count + 1 := by
    simp [PeerManager.accepted, PeerManager.addPeer, hlength]
  have hopen : ¬ HasLeft system.handle := by
    rw [hhandle]
    exact not_false
  obtain ⟨labels, after, item, context, run, hmanager', hhandle', hqueue, hevent,
    htype⟩ := accepted_few hmanager hopen hdrained (by rw [hlength]; exact hcount)
  have hfew : FewTasks after (.handlePeermanager (.ok 0)) := by
    rw [FewTasks, registry_of_idle hmanager', haccepted]
    exact hcount
  have hhandled := HandleStep.peermanager (hhandle'.trans hhandle) hqueue (.ok 0)
  obtain ⟨hturn, hincoming'⟩ := hincoming.newConnection (.ok 0) htype
  rw [hevent] at hhandled
  refine ⟨_, _, run.tail ⟨hfew, .handle hhandled⟩, ?_, ?_, rfl⟩
  · exact ⟨_, hmanager', haccepted⟩
  · exact ⟨_, hturn, hincoming'⟩

theorem crowded_run (count : ℕ) (hcount : count < 2 ^ 64 - 1) :
    ∃ labels system,
      Run (Restrict Step FewTasks) (.initial 0) labels system ∧
        Crowded count system := by
  induction count with
  | zero => exact ⟨_, _, .refl _, .initial 0⟩
  | succ count ih =>
      obtain ⟨labels, system, run, hcrowded⟩ := ih (Nat.lt_of_succ_lt hcount)
      obtain ⟨labels', after, run', hcrowded'⟩ := hcrowded.connect hcount
      exact ⟨_, _, run.trans run', hcrowded'⟩

/-- A connection whose peer cannot be created: the socket has no remote
address. -/
def brokenConnection : ManagerInput :=
  .incidentLooplisten (some (.incomingConnection
    { loopbackSocket with peerAddr := .error { code := 107 } } loopback))

/-- With `2 ^ 64 - 2` tasks, fewer than `2 ^ 64 - 1` all along, the counter
wraps when it is raised for a peer that cannot be created, and is lowered from
0. -/
theorem counter_lowered_from_zero :
    ∃ labels system after,
      Run (Restrict Step FewTasks) (.initial 0) labels system ∧
      system.manager.registry.setTaskPeers.length = 2 ^ 64 - 2 ∧
      Step system (.managerTake brokenConnection) after ∧
      lowered (.managerTake brokenConnection) system.manager.registry =
        some 0 := by
  obtain ⟨labels, system, run, hcrowded⟩ :=
    crowded_run (2 ^ 64 - 2) (by decide)
  obtain ⟨self, hmanager, hlength⟩ := hcrowded.idle
  have horder := registryInOrder_of_run run.of_restrict
  have hregistry := registry_of_idle hmanager
  have hcounter := horder.counter
  rw [hregistry, hlength] at hcounter
  refine ⟨_, _, _, run, ?_, .manager (.take hmanager trivial), ?_⟩
  · rw [hregistry, hlength]
  · rw [hregistry]
    change some (self.peerid + 1) = some 0
    rw [hcounter]
    decide

end P2PNetwork.Runtime
