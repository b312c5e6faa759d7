import P2PNetwork.Runtime.Ownership

/-!
# The connection of an event

Events name a peer by its id, and an id can be given out again.  What it means
that an event is handled with the records and the command channel of the
connection it belongs to, and the invariant that keeps it so.
-/

namespace P2PNetwork.Runtime

open P2PNetwork.EventLoop
open P2PNetwork.Events
open P2PNetwork.FiniteTable
open P2PNetwork.Handler
open P2PNetwork.Handshake
open P2PNetwork.Manager
open P2PNetwork.PeerActor
open P2PNetwork.Wire

/-! ## The property -/

namespace System

/-- The records with which `HandleMessage` would handle the next message were
made for the connection that the message was read from. -/
def RecordsAttributed (system : System) : Prop :=
  ∀ self item rest peerid message, system.handle = .done self .next →
    system.toProtocol = item :: rest →
    item.event = .readyMessage peerid message →
    peerid ∈ self.setContextPeers → peerid ∈ self.setStatePeers →
      system.owners.context peerid = some item.connection ∧
        system.owners.state peerid = some item.connection

/-- The manager sends into the command channel of the connection whose event it
is handling. -/
def SendsAttributed (system : System) : Prop :=
  ∀ self task command resume,
    system.manager = .running (.issue self (.toPeer task command) resume) →
      task = system.managing

/-- The event that the manager is about to send to `HandleMessage`. -/
def pendingReports (system : System) : List (Tagged EventsPeerManager) :=
  match system.manager.awaits with
  | some (.toProtocol event) =>
      [{ connection := system.managing, event := event }]
  | _ => []

/-- The events on their way to `HandleMessage`. -/
def reports (system : System) : List (Tagged EventsPeerManager) :=
  system.toProtocol ++ system.pendingReports

end System

/-- Nothing about a peer id is left, but perhaps the event of its end. -/
structure NoTrace (system : System) (peerid : PeerId) : Prop where
  tasks : ∀ task ∈ system.manager.registry.setTaskPeers, task.peerid ≠ peerid
  inbound : ∀ item ∈ system.fromPeers, ∀ message,
    item.event ≠ .readyLowMessage peerid message
  reports : ∀ item ∈ system.toProtocol, ¬ Concerns item.event peerid
  handling : ∀ self event resume, system.handle = .issue self event resume →
    event.peerid ≠ peerid
  answers : ∀ item ∈ system.fromProtocol, item.event.peerid ≠ peerid

/-- A connection is made a peer of only when nothing is left about the id that
the counter stands at. -/
def FreshConnection (system : System) : Label → Prop
  | .managerTake input =>
      Accepts input → NoTrace system system.manager.registry.peerid
  | _ => True

/-! ## The invariant -/

/-- The manager is in its loop. -/
def ManagerPhase.Serving : ManagerPhase → Prop
  | .running turn => ¬ HasLeft turn
  | _ => False

/-- A peer sends messages under its own id only. -/
def SpeaksFor (peerid : PeerId) (turn : PeerTurn) : Prop :=
  turn.Holds (fun ghost _ _ => ghost)
    (fun _ self send => self.peerid = peerid ∧ ∀ event,
      send = .toPeerManager event →
        ∃ message, event = .readyLowMessage peerid message)
    (fun _ self _ => self.peerid = peerid) ()

/-- `current` is the connection that an id was given to last.  Every task, entry
and peer with an id is that connection's. -/
structure Registry (current : PeerId → TaskId) (peers : TaskId → PeerPhase)
    (next : TaskId) (manager : PeerManager) : Prop where
  spawned : ∀ task ∈ manager.setTaskPeers, task.id < next
  known : ∀ task ∈ manager.setTaskPeers,
    manager.setIdPeers.lookup task.id = some task.peerid
  own : ∀ task ∈ manager.setTaskPeers, current task.peerid = task.id
  entry : ∀ peerid entry, manager.setAllPeers.lookup peerid = some entry →
    entry.txChannelPeermanagerToPeer = current peerid
  looping : ∀ task turn, peers task = .looping turn →
    ∃ spawned ∈ manager.setTaskPeers, spawned.id = task ∧
      SpeaksFor spawned.peerid turn

/-- Everything that is on its way about an id belongs to the connection that
the id was given to last, and so do the records when they are used. -/
structure Attributed (current : PeerId → TaskId)
    (owner : PeerId → Option TaskId) (system : System) : Prop where
  owners : system.owners = { context := owner, state := owner }
  registry : Registry current system.peers system.next system.manager.registry
  drops : ∀ turn, system.manager = .running turn → DropsOnly turn
  sends : system.SendsAttributed
  inbound : ∀ item ∈ system.fromPeers, ∀ peerid message,
    item.event = .readyLowMessage peerid message →
      item.connection = current peerid
  reports : ∀ item ∈ system.reports, ∀ peerid, Concerns item.event peerid →
    item.connection = current peerid
  answers : ∀ item ∈ system.fromProtocol,
    item.connection = current item.event.peerid
  handling : ∃ peerid, AnswersFor owner peerid system.handle ∧
    ∀ self event resume, system.handle = .issue self event resume →
      system.handling = current peerid
  settled : ¬ HasLeft system.handle → ReadySettled current owner system.reports
  final : ¬ HasLeft system.handle →
    ∀ peerid, ∀ holder ∈ replay owner system.reports peerid,
      holder = current peerid ∧ (system.manager.Serving →
        ∃ task ∈ system.manager.registry.setTaskPeers, task.peerid = peerid)

/-! ## The registry -/

section Registry

variable {current : PeerId → TaskId} {peers : TaskId → PeerPhase}
variable {next : TaskId} {self : PeerManager}

theorem turn_speaksFor {peerid : PeerId} {peer : Peer}
    (hpeer : peer.peerid = peerid) (input : PeerInput) :
    SpeaksFor peerid (PeerActor.turn input peer) := by
  subst hpeer
  unfold PeerActor.turn
  split
  case h_1 =>
    refine ⟨⟨rfl, nofun⟩, fun delivered => ?_⟩
    cases delivered <;> rfl
  case h_5 message =>
    refine ⟨⟨rfl, fun event hevent => ?_⟩, fun delivered => ?_⟩
    · cases hevent
      exact ⟨message, rfl⟩
    · cases delivered <;> rfl
  all_goals exact rfl

theorem Registry.create (nonce : UInt64) (current : PeerId → TaskId) :
    Registry current (fun _ => .absent) 0 (PeerManager.create nonce) where
  spawned := (TasksKnown.create 0 nonce).spawned
  known := (TasksKnown.create 0 nonce).known
  own task htask := by simp [PeerManager.create] at htask
  entry peerid entry hentry := by simp [PeerManager.create] at hentry
  looping task turn hturn := by cases hturn

theorem Registry.tasksKnown (hregistry : Registry current peers next self) :
    TasksKnown next self where
  spawned := hregistry.spawned
  known := hregistry.known

theorem Registry.removePeer (hregistry : Registry current peers next self)
    (peerid : PeerId) : Registry current peers next (self.removePeer peerid) :=
  { hregistry with
    entry := fun other entry hentry => by
      by_cases hother : other = peerid
      · subst hother
        simp [PeerManager.removePeer] at hentry
      · exact hregistry.entry other entry
          (by simpa [PeerManager.removePeer, hother] using hentry) }

/-- The end of a peer whose task has finished. -/
theorem Registry.complited (hregistry : Registry current peers next self)
    {task : TaskPeer} (hfinished : (peers task.id).HasFinished) :
    Registry current peers next
      ((self.takeTask task).complitedPeer task.peerid) where
  spawned := (hregistry.tasksKnown.complited task).spawned
  known := (hregistry.tasksKnown.complited task).known
  own other hother := hregistry.own other (List.mem_of_mem_erase hother)
  entry := (hregistry.removePeer task.peerid).entry
  looping other turn hturn := by
    obtain ⟨spawned, hspawned, hid, hspeaks⟩ :=
      hregistry.looping other turn hturn
    have hne : spawned ≠ task := by
      intro heq
      rw [← hid, heq] at hturn
      rw [hturn] at hfinished
      exact hfinished
    exact ⟨spawned, (List.mem_erase_of_ne hne).mpr hspawned, hid, hspeaks⟩

/-- A step of one peer that goes on speaking for itself. -/
theorem Registry.setPeer (hregistry : Registry current peers next self)
    {task : TaskId} {turn : PeerTurn} (hpeer : peers task = .looping turn)
    {peer : PeerPhase}
    (hspeaks : ∀ turn', peer = .looping turn' →
      ∀ peerid, SpeaksFor peerid turn → SpeaksFor peerid turn') :
    Registry current (Function.update peers task peer) next self :=
  { hregistry with
    looping := fun other turn' hturn => by
      by_cases hother : other = task
      · subst hother
        rw [Function.update_self] at hturn
        obtain ⟨spawned, hspawned, hid, hturn'⟩ :=
          hregistry.looping other turn hpeer
        exact ⟨spawned, hspawned, hid, hspeaks turn' hturn _ hturn'⟩
      · rw [Function.update_of_ne hother] at hturn
        exact hregistry.looping other turn' hturn }

/-- A peer takes up its next input. -/
theorem Registry.turnPeer (hregistry : Registry current peers next self)
    {task : TaskId} {peer : Peer} {flow : Flow EventsCriticalCompletion}
    (hpeer : peers task = .looping (.done peer flow)) (input : PeerInput) :
    Registry current
      (Function.update peers task (.looping (PeerActor.turn input peer)))
      next self := by
  apply hregistry.setPeer hpeer
  intro turn hturn peerid hspeaks
  cases hturn
  exact turn_speaksFor hspeaks input

/-- A send of a peer is answered. -/
theorem Registry.resumePeer (hregistry : Registry current peers next self)
    {task : TaskId} {peer : Peer} {send : PeerSend} {resume : Bool → PeerTurn}
    (hpeer : peers task = .looping (.issue peer send resume))
    (delivered : Bool) :
    Registry current (Function.update peers task (.looping (resume delivered)))
      next self := by
  apply hregistry.setPeer hpeer
  intro turn hturn peerid hspeaks
  cases hturn
  exact hspeaks.2 delivered

/-- A new peer gets an id that no task has. -/
theorem Registry.addPeer (hregistry : Registry current peers next self)
    (hfresh : ∀ task ∈ self.setTaskPeers, task.peerid ≠ self.peerid)
    {peer : Peer} (hpeer : peer.peerid = self.peerid) (address : SocketAddr)
    (typeConnect : TypeConnection) :
    Registry (Function.update current self.peerid next)
      (spawnPeer peers next (some peer)) (next + 1)
      ({ self with peerid := self.peerid + 1 }.addPeer next self.peerid address
        typeConnect) where
  spawned :=
    (hregistry.tasksKnown.addPeer self.peerid address typeConnect).spawned
  known := (hregistry.tasksKnown.addPeer self.peerid address typeConnect).known
  own task htask := by
    simp only [PeerManager.addPeer, List.mem_append, List.mem_singleton] at htask
    obtain htask | rfl := htask
    · rw [Function.update_of_ne (hfresh task htask)]
      exact hregistry.own task htask
    · exact Function.update_self ..
  entry peerid entry hentry := by
    simp only [PeerManager.addPeer, lookup_insert_ite] at hentry
    by_cases hpeerid : peerid = self.peerid
    · rw [if_pos hpeerid, Option.some.injEq] at hentry
      rw [hpeerid, Function.update_self, ← hentry]
    · rw [if_neg hpeerid] at hentry
      rw [Function.update_of_ne hpeerid]
      exact hregistry.entry peerid entry hentry
  looping task turn hturn := by
    simp only [PeerManager.addPeer, List.mem_append, List.mem_singleton]
    by_cases htask : task = next
    · subst htask
      simp only [spawnPeer, Function.update_self, PeerPhase.looping.injEq] at hturn
      exact ⟨_, .inr rfl, rfl, hturn ▸ hpeer⟩
    · simp only [spawnPeer, Function.update_of_ne htask] at hturn
      obtain ⟨spawned, hspawned, hid, hspeaks⟩ :=
        hregistry.looping task turn hturn
      exact ⟨spawned, .inl hspawned, hid, hspeaks⟩

end Registry

end P2PNetwork.Runtime
