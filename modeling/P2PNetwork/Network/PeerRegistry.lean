import P2PNetwork.Network.PeerManager

/-!
# The registry of peers

The manager's loop in an environment that decides which input comes next and
which peers have closed their command channels.  The id counter is lowered
when a peer ends, so it can come back to the id of a peer that still runs.  As
long as it does not, ids are distinct and every running peer's entry is its
own.
-/

namespace P2PNetwork.Manager

open P2PNetwork.EventLoop
open P2PNetwork.Events
open P2PNetwork.FiniteTable
open P2PNetwork.Handler
open P2PNetwork.PeerActor
open P2PNetwork.Wire

/-! ## The manager's loop -/

/-- `closed` holds the tasks that have closed their command channel, `next` is
the id of the next task. -/
structure World where
  manager : ManagerTurn
  closed : Set TaskId
  next : TaskId

def World.initial (nonce : UInt64) : World where
  manager := .done (PeerManager.create nonce) .next
  closed := ∅
  next := 0

inductive Label where
  | take (input : ManagerInput)
  | join (task : TaskPeer) (outcome : TaskOutcome)
  | answer (delivered : Bool)
  | close (task : TaskId)

/-- A send to a peer fails exactly when the peer has closed its channel. -/
def Answers (closed : Set TaskId) (delivered : Bool) : ManagerSend → Prop
  | .toProtocol _ => True
  | .toPeer task _ => delivered = true ↔ task ∉ closed

inductive Step : World → Label → World → Prop where
  | take {world : World} {self : PeerManager} {input : ManagerInput}
      (hidle : world.manager = .done self .next)
      (hinput : ∀ result, input ≠ .resultPeer result) :
      Step world (.take input)
        { world with
          manager := PeerManager.turn world.next input self
          next := world.next + 1 }
  | join {world : World} {self : PeerManager} {task : TaskPeer}
      {outcome : TaskOutcome} (hidle : world.manager = .done self .next)
      (htask : task ∈ self.setTaskPeers) (hclosed : task.id ∈ world.closed) :
      Step world (.join task outcome)
        { world with
          manager := PeerManager.turn world.next
            (.resultPeer (task.joined outcome)) (self.takeTask task) }
  | answer {world : World} {self : PeerManager} {send : ManagerSend}
      {resume : Bool → ManagerTurn} {delivered : Bool}
      (hissue : world.manager = .issue self send resume)
      (hanswer : Answers world.closed delivered send) :
      Step world (.answer delivered) { world with manager := resume delivered }
  | close {world : World} (task : TaskId) :
      Step world (.close task) { world with closed := insert task world.closed }

/-! ## The invariant -/

/-- Ids of running peers are distinct, the table of task ids knows them, and
the entry of every peer that has not closed its channel is its own. -/
structure Registered (closed : Set TaskId) (next : TaskId)
    (manager : PeerManager) : Prop where
  distinct : (manager.setTaskPeers.map TaskPeer.peerid).Nodup
  spawned : ∀ task ∈ manager.setTaskPeers, task.id < next
  known : ∀ task ∈ manager.setTaskPeers,
    manager.setIdPeers.lookup task.id = some task.peerid
  own : ∀ task ∈ manager.setTaskPeers, task.id ∉ closed →
    ∃ entry, manager.setAllPeers.lookup task.peerid = some entry ∧
      entry.txChannelPeermanagerToPeer = task.id

/-- A send that fails shows that its receiver is closed. -/
def noteClosed (closed : Set TaskId) : ManagerSend → Bool → Set TaskId
  | .toPeer task _, false => insert task closed
  | _, _ => closed

/-- The registry is in order at the stops of a turn and at its end. -/
def KeepsRegistered (closed : Set TaskId) (next : TaskId)
    (turn : ManagerTurn) : Prop :=
  turn.Holds noteClosed (fun closed self _ => Registered closed next self)
    (fun closed self _ => Registered closed next self) closed

section Turns

variable {closed : Set TaskId} {next : TaskId} {self : PeerManager}

theorem Registered.create (nonce : UInt64) :
    Registered closed next (PeerManager.create nonce) where
  distinct := List.nodup_nil
  spawned := (TasksKnown.create next nonce).spawned
  known := (TasksKnown.create next nonce).known
  own task htask := by simp [PeerManager.create] at htask

theorem Registered.tasksKnown (hregistered : Registered closed next self) :
    TasksKnown next self where
  spawned := hregistered.spawned
  known := hregistered.known

theorem Registered.close (hregistered : Registered closed next self)
    {closed' : Set TaskId} (hsubset : closed ⊆ closed') :
    Registered closed' next self :=
  { hregistered with
    own := fun task htask hopen =>
      hregistered.own task htask fun hclosed => hopen (hsubset hclosed) }

/-- The counter and the number of tasks spawned so far do not matter. -/
theorem Registered.counter (hregistered : Registered closed next self)
    {next' : TaskId} (hnext : next ≤ next') (peerid : PeerId) :
    Registered closed next' { self with peerid := peerid } :=
  { hregistered with
    spawned := fun task htask =>
      lt_of_lt_of_le (hregistered.spawned task htask) hnext }

theorem Registered.addPeer (hregistered : Registered closed next self)
    {peerid : PeerId}
    (hfresh : ∀ task ∈ self.setTaskPeers, task.peerid ≠ peerid)
    (address : SocketAddr) (typeConnect : TypeConnection) :
    Registered closed (next + 1)
      (self.addPeer next peerid address typeConnect) where
  distinct := by
    have hnotMem : peerid ∉ self.setTaskPeers.map TaskPeer.peerid := by
      simpa using hfresh
    simpa [PeerManager.addPeer, List.nodup_append] using
      ⟨hregistered.distinct, fun task htask => hfresh task htask⟩
  spawned := (hregistered.tasksKnown.addPeer peerid address typeConnect).spawned
  known := (hregistered.tasksKnown.addPeer peerid address typeConnect).known
  own task htask hopen := by
    simp only [PeerManager.addPeer, List.mem_append, List.mem_singleton] at htask
    obtain htask | rfl := htask
    · have hne := hfresh task htask
      simpa [PeerManager.addPeer, hne] using hregistered.own task htask hopen
    · simp [PeerManager.addPeer]

/-- The end of a peer takes its own task and entry and nobody else's. -/
theorem Registered.complited (hregistered : Registered closed next self)
    {task : TaskPeer} (htask : task ∈ self.setTaskPeers) :
    Registered closed next ((self.takeTask task).complitedPeer task.peerid) where
  distinct := hregistered.distinct.sublist (List.erase_sublist.map _)
  spawned := (hregistered.tasksKnown.complited task).spawned
  known := (hregistered.tasksKnown.complited task).known
  own other hother hopen := by
    have hnodup := hregistered.distinct.of_map
    have hmem := (hnodup.mem_erase_iff.mp hother).2
    have hne : other.peerid ≠ task.peerid := fun heq =>
      (hnodup.mem_erase_iff.mp hother).1
        (List.inj_on_of_nodup_map hregistered.distinct hmem htask heq)
    obtain ⟨entry, hentry, hown⟩ := hregistered.own other hmem hopen
    exact ⟨entry, by simpa [PeerManager.complitedPeer, PeerManager.removePeer,
      PeerManager.takeTask, hne] using hentry, hown⟩

/-- The entry whose channel was found closed is the entry of a closed peer. -/
theorem Registered.removePeer (hregistered : Registered closed next self)
    {peerid : PeerId} {entry : PeerSystemMetadata}
    (hentry : self.setAllPeers.lookup peerid = some entry) :
    Registered (insert entry.txChannelPeermanagerToPeer closed) next
      (self.removePeer peerid) :=
  { hregistered with
    own := fun task htask hopen => by
      obtain ⟨own, hlookup, hown⟩ := hregistered.own task htask
        fun hclosed => hopen (.inr hclosed)
      have hne : task.peerid ≠ peerid := by
        rintro rfl
        rw [hentry, Option.some.injEq] at hlookup
        exact hopen (.inl (by rw [← hown, hlookup]))
      exact ⟨own, by simpa [PeerManager.removePeer, hne] using hlookup, hown⟩ }

theorem notifyProtocol_keeps (hregistered : Registered closed next self)
    (event : EventsPeerManager) :
    KeepsRegistered closed next (self.notifyProtocol event) := by
  refine ⟨hregistered, fun delivered => ?_⟩
  cases delivered <;> exact hregistered

theorem ConnectTurn.keeps {peer : Option Peer} {turn : ManagerTurn}
    (hturn : ConnectTurn next self peer turn)
    (hregistered : Registered closed next self)
    (hfresh : ∀ spawned, peer = some spawned →
      ∀ task ∈ self.setTaskPeers, task.peerid ≠ self.peerid) :
    KeepsRegistered closed (next + 1) turn := by
  cases hturn with
  | idle flow => exact hregistered.counter (Nat.le_succ next) self.peerid
  | accepted hpeer hcontext address typeConnect =>
      apply notifyProtocol_keeps
      apply Registered.addPeer
      · exact hregistered.counter le_rfl (self.peerid + 1)
      · exact hfresh _ rfl

theorem protocolReadyMessage_keeps (hregistered : Registered closed next self)
    (peerid : PeerId) (message : MessagePayload) :
    KeepsRegistered closed next (self.protocolReadyMessage peerid message) := by
  unfold PeerManager.protocolReadyMessage PeerManager.sendEventsPeer
  cases hentry : self.setAllPeers.lookup peerid with
  | none => exact hregistered
  | some entry =>
      refine ⟨hregistered, fun delivered => ?_⟩
      cases delivered with
      | true => exact hregistered
      | false => exact hregistered.removePeer hentry

theorem violentComplitedPeer_keeps (hregistered : Registered closed next self)
    (peerid : PeerId) :
    KeepsRegistered closed next (self.violentComplitedPeer peerid) := by
  unfold PeerManager.violentComplitedPeer
  split
  case h_2 => exact hregistered
  case h_1 entry hentry =>
    refine ⟨hregistered, fun delivered => ?_⟩
    cases delivered with
    | true => exact hregistered
    | false => exact hregistered.close (Set.subset_insert _ _)

theorem joined_keeps (hregistered : Registered closed next self)
    {task : TaskPeer} (htask : task ∈ self.setTaskPeers)
    (outcome : TaskOutcome) :
    KeepsRegistered closed next (PeerManager.turn next
      (.resultPeer (task.joined outcome)) (self.takeTask task)) := by
  rw [turn_joined (hregistered.known task htask)]
  exact notifyProtocol_keeps (hregistered.complited htask) _

theorem turn_keeps (hregistered : Registered closed next self)
    {input : ManagerInput} (hinput : ∀ result, input ≠ .resultPeer result)
    (hfresh : Accepts input →
      ∀ task ∈ self.setTaskPeers, task.peerid ≠ self.peerid) :
    KeepsRegistered closed (next + 1) (PeerManager.turn next input self) := by
  have hnext : Registered closed (next + 1) self :=
    hregistered.counter (Nat.le_succ next) self.peerid
  have hexternal (hexternal : External input) :
      KeepsRegistered closed (next + 1) (PeerManager.turn next input self) :=
    (turn_external hexternal).keeps hregistered fun _ hspawned =>
      hfresh (accepts_of_spawned hspawned)
  cases input with
  | incidentThreadNetwork connect incident => exact hexternal trivial
  | incidentLooplisten incident => exact hexternal trivial
  | incidentProtocol incident =>
      cases incident with
      | none => exact hnext
      | some event =>
          cases event with
          | readyMessage peerid message =>
              exact protocolReadyMessage_keeps hnext peerid message
          | incidetViolentComplitedPeer peerid =>
              exact violentComplitedPeer_keeps hnext peerid
  | incidentPeer incident =>
      cases incident with
      | none => exact notifyProtocol_keeps hnext _
      | some event =>
          obtain hdone | ⟨_, _, -, hturn⟩ := @turn_peer self next event
          · rw [hdone]
            exact hnext
          · rw [hturn]
            exact notifyProtocol_keeps hnext _
  | resultPeer result => exact absurd rfl (hinput result)

end Turns

/-! ## Runs -/

/-- The counter does not stand at the id of a peer whose task is still in the
set when a connection is made a peer of. -/
def FreshId (world : World) : Label → Prop
  | .take input => Accepts input →
      ∀ task ∈ world.manager.state.setTaskPeers,
        task.peerid ≠ world.manager.state.peerid
  | _ => True

/-- A task that closes its channel stays closed. -/
theorem KeepsRegistered.close {closed closed' : Set TaskId} {next : TaskId}
    {turn : ManagerTurn} (hkeeps : KeepsRegistered closed next turn)
    (hsubset : closed ⊆ closed') : KeepsRegistered closed' next turn := by
  refine hkeeps.later hsubset ?_ ?_ ?_
  · intro before after send delivered hle
    cases send with
    | toProtocol event => exact hle
    | toPeer task event =>
        cases delivered with
        | true => exact hle
        | false => exact Set.insert_subset_insert hle
  · exact fun before after state send hle hregistered => hregistered.close hle
  · exact fun before after state value hle hregistered => hregistered.close hle

theorem Answers.noteClosed {closed : Set TaskId} {send : ManagerSend}
    {delivered : Bool} (hanswers : Answers closed delivered send) :
    noteClosed closed send delivered = closed := by
  cases send with
  | toProtocol event => rfl
  | toPeer task event =>
      cases delivered with
      | true => rfl
      | false =>
          have hclosed : task ∈ closed := by simpa [Answers] using hanswers
          exact Set.insert_eq_of_mem hclosed

theorem Step.keeps {world world' : World} {label : Label}
    (hstep : Step world label world') (hfresh : FreshId world label)
    (hkeeps : KeepsRegistered world.closed world.next world.manager) :
    KeepsRegistered world'.closed world'.next world'.manager := by
  cases hstep with
  | take hidle hinput =>
      rw [hidle] at hkeeps
      simp only [FreshId, hidle, Await.state_done] at hfresh
      exact turn_keeps hkeeps hinput hfresh
  | join hidle htask hclosed =>
      rw [hidle] at hkeeps
      exact joined_keeps hkeeps htask _
  | @answer _ send resume delivered hissue hanswer =>
      rw [hissue] at hkeeps
      have hrest := hkeeps.2 delivered
      rwa [hanswer.noteClosed] at hrest
  | close task => exact hkeeps.close (Set.subset_insert _ _)

theorem Registered.of_keeps {closed : Set TaskId} {next : TaskId}
    {turn : ManagerTurn} (hkeeps : KeepsRegistered closed next turn) :
    Registered closed next turn.state := by
  cases turn with
  | done self value => exact hkeeps
  | issue self send resume => exact hkeeps.1

/-- The ids of the tasks in the set are distinct, and the entry of every task
that has not closed its channel is its own. -/
def OwnEntries (closed : Set TaskId) (manager : PeerManager) : Prop :=
  (manager.setTaskPeers.map TaskPeer.peerid).Nodup ∧
    ∀ task ∈ manager.setTaskPeers, task.id ∉ closed →
      ∃ entry, manager.setAllPeers.lookup task.peerid = some entry ∧
        entry.txChannelPeermanagerToPeer = task.id

/-- While the counter gives out fresh ids, every peer keeps its own entry. -/
theorem ownEntries_of_fresh {nonce : UInt64} {labels : List Label}
    {world : World}
    (run : Run (Restrict Step FreshId) (World.initial nonce) labels world) :
    OwnEntries world.closed world.manager.state := by
  have hkeeps : KeepsRegistered world.closed world.next world.manager := by
    refine run.invariant (fun world =>
      KeepsRegistered world.closed world.next world.manager)
      (Registered.create nonce) ?_
    exact fun before label after hbefore hstep => hstep.2.keeps hstep.1 hbefore
  have hregistered := Registered.of_keeps hkeeps
  exact ⟨hregistered.distinct, hregistered.own⟩

/-- The tasks and the new one's id after a connection was made a peer of. -/
theorem newConnection_setTaskPeers {self : PeerManager} {task : TaskId}
    {socket : TcpStream} {remoteAddress localAddress : SocketAddr}
    (hpeer : socket.peerAddr = .ok remoteAddress)
    (hlocal : socket.localAddr = .ok localAddress) (address : SocketAddr)
    (typeConnect : TypeConnection) :
    (self.newConnection task socket address typeConnect).state.setTaskPeers =
      self.setTaskPeers ++ [{ id := task, peerid := self.peerid }] := by
  simp only [PeerManager.newConnection, Peer.create, hpeer, hlocal]
  rfl

/-- The condition is needed at every connection: an id that is not fresh is
the id of two tasks from then on. -/
theorem not_ownEntries_of_stale {world world' : World} {input : ManagerInput}
    (hstep : Step world (.take input) world') (hstale : ¬ FreshId world (.take input)) :
    ¬ OwnEntries world'.closed world'.manager.state := by
  rintro ⟨hdistinct, -⟩
  apply hstale
  intro haccepts task htask
  cases hstep with
  | @take self _ hidle hinput =>
      rw [hidle, Await.state_done] at htask ⊢
      have htasks : (PeerManager.turn world.next input self).state.setTaskPeers =
          self.setTaskPeers ++ [{ id := world.next, peerid := self.peerid }] := by
        obtain ⟨socket, hconnection, ⟨_, hpeer⟩, _, hlocal⟩ := haccepts
        obtain ⟨address, rfl⟩ | ⟨address, rfl⟩ := hconnection
        · exact newConnection_setTaskPeers hpeer hlocal _ _
        · exact newConnection_setTaskPeers hpeer hlocal _ _
      rw [htasks, List.map_append, List.nodup_append] at hdistinct
      exact hdistinct.2.2 _ (List.mem_map_of_mem htask) _ (by simp)

/-! ## Two short runs -/

/-- A connection from the loopback address is at the listener. -/
def loopbackConnection : ManagerInput :=
  .incidentLooplisten (some (.incomingConnection loopbackSocket loopback))

def accept : Label := .take loopbackConnection

/-- The registry after that connection was accepted. -/
def PeerManager.accepted (self : PeerManager) (task : TaskId) : PeerManager :=
  { self with peerid := self.peerid + 1 }.addPeer task self.peerid loopback
    .incomingConnection

/-- `HandleMessage` takes the event that a turn ends with. -/
theorem Step.notified {world : World} {self : PeerManager}
    {event : EventsPeerManager}
    (hissue : world.manager = self.notifyProtocol event) :
    Step world (.answer true) { world with manager := .done self .next } :=
  @Step.answer world self (.toProtocol event) _ true hissue trivial

theorem accept_run {world : World} {self : PeerManager}
    (hidle : world.manager = .done self .next) :
    Run Step world [accept, .answer true]
      { world with
        manager := .done (self.accepted world.next) .next
        next := world.next + 1 } := by
  have haccept : Step world accept _ := .take hidle nofun
  exact Run.tail (.tail (.refl _) haccept) (Step.notified rfl)

theorem accept_freshRun {world : World} {self : PeerManager}
    (hidle : world.manager = .done self .next)
    (hfresh : ∀ task ∈ self.setTaskPeers, task.peerid ≠ self.peerid) :
    Run (Restrict Step FreshId) world [accept, .answer true]
      { world with
        manager := .done (self.accepted world.next) .next
        next := world.next + 1 } := by
  have haccept : Restrict Step FreshId world accept _ :=
    ⟨fun _ => by simpa [hidle] using hfresh, .take hidle nofun⟩
  exact Run.tail (.tail (.refl _) haccept) ⟨trivial, Step.notified rfl⟩

theorem end_freshRun {world : World} {self : PeerManager} (task : TaskPeer)
    (hidle : world.manager = .done self .next)
    (htask : task ∈ self.setTaskPeers) (result : Except ErrorPeer SuccessPeer) :
    Run (Restrict Step FreshId) world
      [.close task.id, .join task (.returned result), .answer true]
      { world with
        manager := .done ((self.takeTask task).complitedPeer task.peerid) .next
        closed := insert task.id world.closed } := by
  have hclose : Restrict Step FreshId world (.close task.id) _ :=
    ⟨trivial, .close task.id⟩
  have hjoin : Restrict Step FreshId
      { world with closed := insert task.id world.closed }
      (.join task (.returned result)) _ :=
    ⟨trivial, .join hidle htask (Set.mem_insert _ _)⟩
  exact Run.tail (.tail (.tail (.refl _) hclose) hjoin)
    ⟨trivial, Step.notified rfl⟩

/-- The registry after two connections. -/
def twoPeers : PeerManager := ((PeerManager.create 0).accepted 0).accepted 1

theorem twoPeers_freshRun :
    Run (Restrict Step FreshId) (World.initial 0)
      [accept, .answer true, accept, .answer true]
      { manager := .done twoPeers .next, closed := ∅, next := 2 } :=
  (accept_freshRun rfl (by decide)).trans (accept_freshRun rfl (by decide))

/-- The peer that ends is the one that connected last. -/
theorem ownEntries_lastEnds : ∃ world labels,
    Run (Restrict Step FreshId) (World.initial 0) labels world ∧
      world.manager.state.setTaskPeers = [{ id := 0, peerid := 1 }] ∧
      OwnEntries world.closed world.manager.state := by
  have hended := twoPeers_freshRun.trans
    (end_freshRun { id := 1, peerid := 2 } rfl (by decide)
      (.ok .successfulTaskReadTaskWrite))
  exact ⟨_, _, hended, rfl, ownEntries_of_fresh hended⟩

/-- The first of two peers ends and lowers the counter, and the third
connection gets the id and the entry of the second. -/
theorem not_ownEntries_firstEnds : ∃ world self labels,
    Run Step (World.initial 0) labels world ∧
      world.manager = .done self .next ∧
      self.setTaskPeers = [{ id := 1, peerid := 2 }, { id := 2, peerid := 2 }] ∧
      1 ∉ world.closed ∧
      (self.setAllPeers.lookup 2).map
        PeerSystemMetadata.txChannelPeermanagerToPeer = some 2 ∧
      ¬ OwnEntries world.closed self := by
  have hended := (twoPeers_freshRun.trans
    (end_freshRun { id := 0, peerid := 1 } rfl (by decide)
      (.ok .successfulTaskReadTaskWrite))).mono
    fun before label after hstep => hstep.2
  refine ⟨_, _, _, hended.trans (accept_run rfl), rfl, rfl, ?_, rfl, ?_⟩
  · rintro (hclosed | hclosed) <;> cases hclosed
  · exact fun hown => absurd hown.1 (by decide)

end P2PNetwork.Manager
