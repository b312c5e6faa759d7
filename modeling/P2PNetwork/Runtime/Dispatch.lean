import P2PNetwork.Network.PeerFlush
import P2PNetwork.Protocol.HandshakeDialogue
import P2PNetwork.Runtime.ConnectionIds
import P2PNetwork.Runtime.ReportOrder

/-!
# From `HandleMessage` to the writers

A message of `HandleMessage` names a peer by its id.  It goes through the
channel to the manager, which finds the command channel of the id, and through
that channel to the peer, which hands it to its writer.  What has passed at
each of the three stations is recorded.
-/

namespace P2PNetwork.Runtime

open P2PNetwork.EventLoop
open P2PNetwork.Events
open P2PNetwork.FiniteTable
open P2PNetwork.Handler
open P2PNetwork.Handshake
open P2PNetwork.Manager
open P2PNetwork.PeerActor
open P2PNetwork.PeerOutbound (lowMessages lowMessages_append)
open P2PNetwork.Wire

/-! ## The record of a run -/

/-- What `HandleMessage` has sent, the messages that the command channels and
the writers have taken, and what the connections are. -/
structure Dispatch where
  sent : List (Tagged EventsHandleMessage)
  routed : TaskId → List MessagePayload
  written : TaskId → List MessagePayload
  accepted : TaskId → Option PeerContextMetadata

def Dispatch.empty : Dispatch where
  sent := []
  routed := fun _ => []
  written := fun _ => []
  accepted := fun _ => none

/-- The context of a peer on the socket. -/
def describe (nonce : UInt64) (socket : TcpStream) (address : SocketAddr)
    (typeConnect : TypeConnection) : Option PeerContextMetadata :=
  match socket.peerAddr, socket.localAddr with
  | .ok _, .ok localAddress =>
      some {
        typeConnect := typeConnect
        nonce := nonce
        localAddress := localAddress
        removeAddress := address }
  | _, _ => none

/-- The context of the peer that a turn makes of a connection, by the socket
and the address that it was dialled or accepted with. -/
def described (nonce : UInt64) : ManagerInput → Option PeerContextMetadata
  | .incidentThreadNetwork (.ok socket) (some (.outgoingConnection address)) =>
      describe nonce socket address .outgoingConnection
  | .incidentLooplisten (some (.incomingConnection socket address)) =>
      describe nonce socket address .incomingConnection
  | _ => none

/-- The event that `HandleMessage` is about to send. -/
def System.answering (system : System) : List (Tagged EventsHandleMessage) :=
  match system.handle with
  | .issue _ event _ => [{ connection := system.handling, event := event }]
  | .done _ _ => []

/-- The message of a send of the manager to the task. -/
def routes (task : TaskId) : ManagerSend → List MessagePayload
  | .toPeer other (.readyLowMessage message) =>
      if other = task then [message] else []
  | _ => []

/-- The message that the manager is about to send to the task. -/
def ManagerPhase.message (manager : ManagerPhase) (task : TaskId) :
    List MessagePayload :=
  (manager.awaits.map (routes task)).getD []

/-- The message of a send of a peer to its writer. -/
def hands : PeerSend → List MessagePayload
  | .toTaskWrite (.lowLevelMessage message) => [message]
  | _ => []

/-- The message that a peer is about to hand to its writer. -/
def PeerPhase.message : PeerPhase → List MessagePayload
  | .looping (.issue _ send _) => hands send
  | _ => []

/-- The record after a step from `system`. -/
def Dispatch.after (dispatch : Dispatch) (system : System) : Label → Dispatch
  | .managerTake input =>
      { dispatch with
        accepted := Function.update dispatch.accepted system.next
          (described system.manager.registry.nonce input) }
  | .handleSend true =>
      { dispatch with sent := dispatch.sent ++ system.answering }
  | .managerSend true =>
      { dispatch with
        routed := fun task =>
          dispatch.routed task ++ system.manager.message task }
  | .peerWrite task true =>
      { dispatch with
        written := Function.update dispatch.written task
          (dispatch.written task ++ (system.peers task).message) }
  | _ => dispatch

/-- The messages for a connection, in order. -/
def payloads (connection : TaskId) (items : List (Tagged EventsHandleMessage)) :
    List MessagePayload :=
  (ofConnection connection items).flatMap outgoing

/-! ## From the command channel to the writer -/

/-- With `queue` still in the command channel, the turn goes on to hand over all
that was routed to the peer; a turn that leaves the loop need not. -/
def HandsOver (queue routed written : List MessagePayload) (turn : PeerTurn) :
    Prop :=
  turn.Holds
    (fun written send delivered =>
      if delivered then written ++ hands send else written)
    (fun written _ send => written ++ hands send ++ queue = routed)
    (fun written _ flow => flow = .next → written ++ queue = routed) written

section Peers

variable {queue routed written : List MessagePayload}

theorem forward_handsOver {send : PeerSend}
    (hrouted : written ++ hands send ++ queue = routed)
    (closed : EventsCriticalCompletion) (self : Peer) :
    HandsOver queue routed written (forward send closed self) := by
  refine ⟨hrouted, fun delivered => ?_⟩
  cases delivered with
  | false => simp
  | true => exact fun _ => hrouted

/-- A peer takes up something else than a command. -/
theorem turn_handsOver {input : PeerInput} (hinput : FromSubtask input)
    (self : Peer) (hrouted : written ++ queue = routed) :
    HandsOver queue routed written (PeerActor.turn input self) := by
  unfold PeerActor.turn
  split
  case h_1 | h_2 | h_3 | h_4 => exact hinput.elim
  case h_5 =>
    apply forward_handsOver
    simpa [hands] using hrouted
  all_goals exact fun hnext => by cases hnext

/-- A peer takes a command from its channel. -/
theorem turn_command_handsOver {command : EventsPeerManager}
    {rest : List EventsPeerManager} (self : Peer)
    (hrouted : written ++ lowMessages (command :: rest) = routed) :
    HandsOver (lowMessages rest) routed written
      (PeerActor.turn (.incidentPeermanager (some command)) self) := by
  cases command with
  | readyLowMessage message =>
      apply forward_handsOver
      rw [hands, List.append_assoc]
      exact hrouted
  | shutdown => exact fun hnext => by cases hnext
  | _ => exact fun _ => hrouted

theorem HandsOver.delivered {self : Peer} {send : PeerSend}
    {resume : Bool → PeerTurn}
    (hturn : HandsOver queue routed written (.issue self send resume)) :
    HandsOver queue routed (written ++ hands send) (resume true) := hturn.2 true

theorem HandsOver.refused {self : Peer} {send : PeerSend}
    {resume : Bool → PeerTurn}
    (hturn : HandsOver queue routed written (.issue self send resume)) :
    HandsOver queue routed written (resume false) := hturn.2 false

/-- More is routed to the peer. -/
theorem HandsOver.append {turn : PeerTurn}
    (hturn : HandsOver queue routed written turn)
    (messages : List MessagePayload) :
    HandsOver (queue ++ messages) (routed ++ messages) written turn := by
  apply hturn.mono
  · intro written self send hrouted
    rw [← hrouted, List.append_assoc _ queue messages]
  · intro written self flow hrouted hnext
    rw [← hrouted hnext, List.append_assoc]

end Peers

/-- What is written was routed, in order and without gaps, and a peer in its
loop has what is missing in its channel or in its hands. -/
structure HandedOver (reached : System × Dispatch) : Prop where
  written : ∀ task, reached.2.written task <+: reached.2.routed task
  looping : ∀ task turn, reached.1.peers task = .looping turn →
    HandsOver (lowMessages (reached.1.commands task)) (reached.2.routed task)
      (reached.2.written task) turn
  absent : ∀ task, reached.1.peers task = .absent → reached.2.routed task = []

section Steps

variable {before after : System} {label : Label} {dispatch : Dispatch}

theorem HandedOver.initial (nonce : UInt64) :
    HandedOver (System.initial nonce, Dispatch.empty) where
  written task := List.prefix_rfl
  looping task turn hpeer := by cases hpeer
  absent task hpeer := rfl

/-- One peer starts or goes on. -/
theorem HandedOver.setPeer (hhanded : HandedOver (before, dispatch))
    {task : TaskId} {peer : PeerPhase} {dispatch' : Dispatch}
    (hpeers : after.peers = Function.update before.peers task peer)
    (hcommands : ∀ other, other ≠ task →
      after.commands other = before.commands other)
    (hrouted : dispatch'.routed = dispatch.routed)
    (hothers : ∀ other, other ≠ task →
      dispatch'.written other = dispatch.written other)
    (hpresent : peer ≠ .absent)
    (hwritten : dispatch'.written task <+: dispatch.routed task)
    (hloop : ∀ turn', peer = .looping turn' →
      HandsOver (lowMessages (after.commands task)) (dispatch.routed task)
        (dispatch'.written task) turn') : HandedOver (after, dispatch') where
  written other := by
    by_cases hother : other = task
    · rw [hother, hrouted]
      exact hwritten
    · rw [hothers other hother, hrouted]
      exact hhanded.written other
  looping other turn' hturn := by
    by_cases hother : other = task
    · subst hother
      rw [hpeers, Function.update_self] at hturn
      rw [hrouted]
      exact hloop turn' hturn
    · rw [hpeers, Function.update_of_ne hother] at hturn
      rw [hcommands other hother, hothers other hother, hrouted]
      exact hhanded.looping other turn' hturn
  absent other habsent := by
    rw [hrouted]
    by_cases hother : other = task
    · rw [hpeers, hother, Function.update_self] at habsent
      exact absurd habsent hpresent
    · rw [hpeers, Function.update_of_ne hother] at habsent
      exact hhanded.absent other habsent

/-- One peer goes on and hands nothing over. -/
theorem HandedOver.movePeer (hhanded : HandedOver (before, dispatch))
    {task : TaskId} {peer : PeerPhase} (hpresent : peer ≠ .absent)
    (hloop : ∀ turn', peer = .looping turn' →
      HandsOver (lowMessages (before.commands task)) (dispatch.routed task)
        (dispatch.written task) turn') :
    HandedOver (before.setPeer task peer, dispatch) :=
  hhanded.setPeer rfl (fun _ _ => rfl) rfl (fun _ _ => rfl) hpresent
    (hhanded.written task) hloop

theorem HandedOver.peerStep (hhanded : HandedOver (before, dispatch))
    (hstep : PeerStep before label after) :
    HandedOver (after, dispatch.after before label) := by
  cases hstep with
  | @command task self command rest hpeer hqueue =>
      have hrouted := hhanded.looping task _ hpeer rfl
      refine hhanded.setPeer rfl ?_ rfl (fun _ _ => rfl) (by simp)
        (hhanded.written task) ?_
      · intro other hother
        exact Function.update_of_ne hother _ _
      · rintro turn ⟨⟩
        simp only [Function.update_self]
        apply turn_command_handsOver
        rwa [← hqueue]
  | commandClosed =>
      refine hhanded.movePeer (by simp) ?_
      rintro turn ⟨⟩ hnext
      cases hnext
  | @subtask task self input hpeer hinput =>
      refine hhanded.movePeer (by simp) ?_
      rintro turn ⟨⟩
      exact turn_handsOver hinput self (hhanded.looping task _ hpeer rfl)
  | @send task self event resume hpeer =>
      refine hhanded.setPeer rfl (fun _ _ => rfl) rfl (fun _ _ => rfl)
        (by simp) (hhanded.written task) ?_
      rintro turn ⟨⟩
      have hresume := (hhanded.looping task _ hpeer).delivered
      rwa [show hands (.toPeerManager event) = [] from rfl, List.append_nil]
        at hresume
  | @sendClosed task self event resume hpeer =>
      refine hhanded.movePeer (by simp) ?_
      rintro turn ⟨⟩
      exact (hhanded.looping task _ hpeer).refused
  | @write task self event resume hpeer delivered =>
      have hturn := hhanded.looping task _ hpeer
      cases delivered with
      | false =>
          refine hhanded.movePeer (by simp) ?_
          rintro turn ⟨⟩
          exact hturn.refused
      | true =>
          have hwritten : (dispatch.after before (.peerWrite task true)).written
              task = dispatch.written task ++ hands (.toTaskWrite event) := by
            simp [Dispatch.after, hpeer, PeerPhase.message]
          refine hhanded.setPeer rfl (fun _ _ => rfl) rfl ?_ (by simp) ?_ ?_
          · intro other hother
            exact Function.update_of_ne hother _ _
          · rw [hwritten, ← hturn.1]
            exact List.prefix_append _ _
          · rintro turn ⟨⟩
            rw [hwritten]
            exact hturn.delivered
  | finish | panic =>
      exact hhanded.movePeer (by simp) fun turn hturn => by cases hturn

/-- The manager routes nothing. -/
theorem HandedOver.congr {dispatch' : Dispatch}
    (hhanded : HandedOver (before, dispatch)) (hpeers : after.peers = before.peers)
    (hcommands : ∀ task,
      lowMessages (after.commands task) = lowMessages (before.commands task))
    (hrouted : dispatch'.routed = dispatch.routed)
    (hwritten : dispatch'.written = dispatch.written) :
    HandedOver (after, dispatch') where
  written task := by
    rw [hrouted, hwritten]
    exact hhanded.written task
  looping task turn hturn := by
    rw [hpeers] at hturn
    rw [hcommands, hrouted, hwritten]
    exact hhanded.looping task turn hturn
  absent task habsent := by
    rw [hpeers] at habsent
    rw [hrouted]
    exact hhanded.absent task habsent

/-- What the channel of a peer takes from the manager is recorded. -/
theorem lowMessages_deliver (send : ManagerSend) (task : TaskId) :
    lowMessages ((before.deliver send).commands task) =
      lowMessages (before.commands task) ++ routes task send := by
  cases send with
  | toProtocol event => simp [System.deliver, routes]
  | toPeer other event =>
      by_cases hother : other = task
      · subst hother
        cases event <;> simp [System.deliver, routes, lowMessages]
      · have hother' : task ≠ other := Ne.symm hother
        cases event <;> simp [System.deliver, routes, hother, hother']

theorem HandedOver.managerStep (hhanded : HandedOver (before, dispatch))
    (hspawned : SpawnedOnly before) (hstep : ManagerStep before label after) :
    HandedOver (after, dispatch.after before label) := by
  cases hstep with
  | @take self input hmanager hexternal =>
      cases hspawn : spawned input self with
      | none => exact hhanded.congr rfl (fun _ => rfl) rfl rfl
      | some peer =>
          have habsent := hspawned.peers before.next le_rfl
          have hrouted := hhanded.absent before.next habsent
          have hwritten := hhanded.written before.next
          have hcommands := hspawned.commands before.next habsent
          refine hhanded.setPeer rfl (fun _ _ => rfl) rfl (fun _ _ => rfl) (by simp)
            hwritten ?_
          rintro turn ⟨⟩ -
          rw [hrouted] at hwritten ⊢
          change dispatch.written before.next ++ lowMessages (before.commands _) = []
          rw [List.prefix_nil.mp hwritten, hcommands]
          rfl
  | @send self send resume hmanager hopen hroom =>
      have hrouted (task : TaskId) :
          (dispatch.after before (.managerSend true)).routed task =
            dispatch.routed task ++ routes task send := by
        simp [Dispatch.after, ManagerPhase.message, hmanager,
          ManagerPhase.awaits]
      constructor
      · intro task
        rw [hrouted]
        exact (hhanded.written task).trans (List.prefix_append _ _)
      · intro task turn hturn
        simp only [System.peers_deliver] at hturn
        rw [hrouted, lowMessages_deliver]
        exact (hhanded.looping task turn hturn).append _
      · intro task habsent
        simp only [System.peers_deliver] at habsent
        rw [hrouted, hhanded.absent task habsent, List.nil_append]
        cases send with
        | toProtocol event => rfl
        | toPeer other event =>
            have hother : other ≠ task := by
              rintro rfl
              exact (hspawned.turn _ hmanager).awaited _ _ _ _ rfl habsent
            cases event <;> simp [routes, hother]
  | @disconnect self incident task rest hmanager hopen hroom =>
      refine hhanded.congr rfl (fun other => ?_) rfl rfl
      simp only [lowMessages_deliver, routes, List.append_nil]
  | _ => exact hhanded.congr rfl (fun _ => rfl) rfl rfl

theorem HandedOver.step (hhanded : HandedOver (before, dispatch))
    (hspawned : SpawnedOnly before) (hstep : Step before label after) :
    HandedOver (after, dispatch.after before label) := by
  cases hstep with
  | manager hstep => exact hhanded.managerStep hspawned hstep
  | handle hstep =>
      cases hstep <;> exact hhanded.congr rfl (fun _ => rfl) rfl rfl
  | peer hstep => exact hhanded.peerStep hstep

end Steps

/-! ## From `HandleMessage` to the command channel -/

/-- A message is sent to a peer that the manager has an entry for, and the entry
is dropped when the peer does not take it. -/
def SendsToEntry (turn : ManagerTurn) : Prop :=
  ∀ self task message resume,
    turn = .issue self (.toPeer task (.readyLowMessage message)) resume →
      ∃ peerid entry, self.setAllPeers.lookup peerid = some entry ∧
        entry.txChannelPeermanagerToPeer = task ∧
          resume false = .done (self.removePeer peerid) .next

section Turns

variable {self : PeerManager}

theorem notifyProtocol_sendsToEntry (event : EventsPeerManager) :
    SendsToEntry (self.notifyProtocol event) := by
  rintro self' task message resume ⟨⟩

theorem done_sendsToEntry (flow : Flow EventsCriticalCompletionPeerManager) :
    SendsToEntry (.done self flow) := by
  rintro self' task message resume ⟨⟩

theorem turn_sendsToEntry (task : TaskId) (input : ManagerInput)
    (self : PeerManager) : SendsToEntry (PeerManager.turn task input self) := by
  have hexternal (hexternal : External input) :
      SendsToEntry (PeerManager.turn task input self) := by
    have hturn := @turn_external self task input hexternal
    generalize PeerManager.turn task input self = turn at hturn
    generalize spawned input self = peer at hturn
    cases hturn with
    | idle flow => exact done_sendsToEntry flow
    | accepted => exact notifyProtocol_sendsToEntry _
  cases input with
  | incidentThreadNetwork connect incident => exact hexternal trivial
  | incidentLooplisten incident => exact hexternal trivial
  | incidentProtocol incident =>
      cases incident with
      | none => exact done_sendsToEntry _
      | some event =>
          intro self' task' message resume hissue
          cases event with
          | readyMessage peerid payload =>
              simp only [PeerManager.turn, PeerManager.protocolReadyMessage,
                PeerManager.sendEventsPeer] at hissue
              cases hentry : self.setAllPeers.lookup peerid with
              | none =>
                  rw [hentry] at hissue
                  cases hissue
              | some entry =>
                  rw [hentry] at hissue
                  cases hissue
                  exact ⟨peerid, entry, hentry, rfl, rfl⟩
          | incidetViolentComplitedPeer peerid =>
              simp only [PeerManager.turn, PeerManager.violentComplitedPeer]
                at hissue
              split at hissue <;> cases hissue
  | incidentPeer incident =>
      cases incident with
      | none => exact notifyProtocol_sendsToEntry _
      | some event =>
          obtain hdone | ⟨peerid, message, -, hturn⟩ := @turn_peer self task event
          · rw [hdone]
            exact done_sendsToEntry _
          · rw [hturn]
            exact notifyProtocol_sendsToEntry _
  | resultPeer result =>
      obtain hdone | ⟨peerid, hturn⟩ := @turn_result self task result
      · rw [hdone]
        exact done_sendsToEntry _
      · rw [hturn]
        exact notifyProtocol_sendsToEntry _

end Turns

/-- The messages for a connection are routed to it in order, and as long as
the manager has its entry, without gaps. -/
structure RoutedInOrder (reached : System × Dispatch) : Prop where
  sent : ∀ item ∈ reached.2.sent,
    reached.1.idOf item.connection = some item.event.peerid
  turn : ∀ turn, reached.1.manager = .running turn → SendsToEntry turn
  routed : ∀ connection,
    reached.2.routed connection ++ reached.1.manager.message connection <+:
      payloads connection reached.2.sent
  entries : ∀ peerid entry,
    reached.1.manager.registry.setAllPeers.lookup peerid = some entry →
      reached.2.routed entry.txChannelPeermanagerToPeer ++
          reached.1.manager.message entry.txChannelPeermanagerToPeer ++
          payloads entry.txChannelPeermanagerToPeer reached.1.fromProtocol =
        payloads entry.txChannelPeermanagerToPeer reached.2.sent

section Steps

variable {before after : System} {label : Label} {dispatch : Dispatch}
variable {current : PeerId → TaskId} {owner : PeerId → Option TaskId}

theorem payloads_eq_nil {connection : TaskId}
    {items : List (Tagged EventsHandleMessage)}
    (hitems : ∀ item ∈ items, item.connection ≠ connection) :
    payloads connection items = [] := by
  rw [payloads, ofConnection_eq_nil.mpr hitems]
  rfl

theorem mem_payloads {connection : TaskId}
    {items : List (Tagged EventsHandleMessage)} {message : MessagePayload} :
    message ∈ payloads connection items ↔
      ∃ item ∈ items, item.connection = connection ∧
        message ∈ outgoing item.event := by
  simp only [payloads, ofConnection, List.mem_flatMap, List.mem_map,
    List.mem_filter, decide_eq_true_eq]
  constructor
  · rintro ⟨event, ⟨item, ⟨hitem, hconnection⟩, rfl⟩, hmessage⟩
    exact ⟨item, hitem, hconnection, hmessage⟩
  · rintro ⟨item, hitem, hconnection, hmessage⟩
    exact ⟨item.event, ⟨item, ⟨hitem, hconnection⟩, rfl⟩, hmessage⟩

@[simp]
theorem payloads_append (connection : TaskId)
    (left right : List (Tagged EventsHandleMessage)) :
    payloads connection (left ++ right) =
      payloads connection left ++ payloads connection right := by
  simp [payloads]

theorem payloads_cons (connection : TaskId) (item : Tagged EventsHandleMessage)
    (items : List (Tagged EventsHandleMessage)) :
    payloads connection (item :: items) =
      (if item.connection = connection then outgoing item.event else []) ++
        payloads connection items := by
  simp only [payloads, ofConnection_cons]
  split
  · exact List.flatMap_cons
  · rfl

theorem RoutedInOrder.initial (nonce : UInt64) :
    RoutedInOrder (System.initial nonce, Dispatch.empty) where
  sent item hitem := by cases hitem
  turn turn hturn := by
    cases hturn
    exact done_sendsToEntry _
  routed connection := List.prefix_rfl
  entries peerid entry hentry := by cases hentry

/-- The manager takes no message of `HandleMessage`, and routes what it was
about to. -/
theorem RoutedInOrder.frame {dispatch' : Dispatch}
    (hrouted : RoutedInOrder (before, dispatch)) (hnamed : Named before)
    (hids : IdMove before label after)
    (hturn : ∀ turn, after.manager = .running turn → SendsToEntry turn)
    (hqueue : after.fromProtocol = before.fromProtocol)
    (hsent : dispatch'.sent = dispatch.sent)
    (hmessage : ∀ connection,
      dispatch'.routed connection ++ after.manager.message connection =
        dispatch.routed connection ++ before.manager.message connection) :
    RoutedInOrder (after, dispatch') where
  sent item hitem := by
    rw [hsent] at hitem
    exact hnamed.idOf_mono hids (hrouted.sent item hitem)
  turn := hturn
  routed connection := by
    rw [hmessage, hsent]
    exact hrouted.routed connection
  entries peerid entry hentry := by
    rw [hmessage, hsent, hqueue]
    cases hids with
    | kept hids hentries =>
        exact hrouted.entries peerid entry (hentries peerid entry hentry)
    | given hlabel hids hentries =>
        obtain ⟨rfl, hnew⟩ | hold := hentries peerid entry hentry
        · rw [hnew]
          have hnone := hnamed.below before.next le_rfl
          have hunsent : payloads before.next dispatch.sent = [] := by
            apply payloads_eq_nil
            rintro item hitem heq
            have hid := hrouted.sent item hitem
            rw [heq, hnone] at hid
            cases hid
          have hunqueued : payloads before.next before.fromProtocol = [] := by
            apply payloads_eq_nil
            rintro item hitem heq
            have hid := hnamed.answers item hitem
            rw [heq, hnone] at hid
            cases hid
          have hbegins := hrouted.routed before.next
          rw [hunsent] at hbegins
          rw [hunsent, hunqueued, List.append_nil]
          exact List.prefix_nil.mp hbegins
        · exact hrouted.entries peerid entry hold

@[simp]
theorem message_done (self : PeerManager)
    (flow : Flow EventsCriticalCompletionPeerManager) (task : TaskId) :
    (ManagerPhase.running (.done self flow)).message task = [] := rfl

@[simp]
theorem message_notify (self : PeerManager) (event : EventsPeerManager)
    (task : TaskId) :
    (ManagerPhase.running (self.notifyProtocol event)).message task = [] := rfl

@[simp]
theorem message_issue (self : PeerManager) (send : ManagerSend)
    (resume : Bool → ManagerTurn) (task : TaskId) :
    (ManagerPhase.running (.issue self send resume)).message task =
      routes task send := rfl

@[simp]
theorem message_disconnecting (incident : EventsCriticalCompletionPeerManager)
    (self : PeerManager) (rest : List TaskId) (task : TaskId) :
    (ManagerPhase.disconnecting incident self rest).message task = [] := by
  cases rest <;> rfl

theorem message_connect {next : TaskId} {self : PeerManager} {peer : Option Peer}
    {turn : ManagerTurn} (hturn : ConnectTurn next self peer turn)
    (task : TaskId) : (ManagerPhase.running turn).message task = [] := by
  cases hturn <;> rfl

theorem message_peer (next : TaskId) (self : PeerManager) (event : EventsPeer)
    (task : TaskId) :
    (ManagerPhase.running (PeerManager.turn next (.incidentPeer (some event))
      self)).message task = [] := by
  cases event <;> rfl

/-- What the manager is about to send after it has taken an event of
`HandleMessage` is the message of that event, if the connection of the event
still has its entry. -/
theorem message_protocol (hnamed : Named before)
    (hattributed : Attributed current owner before)
    {self : PeerManager} {item : Tagged EventsHandleMessage}
    {rest : List (Tagged EventsHandleMessage)}
    (hmanager : before.manager = .running (.done self .next))
    (hqueue : before.fromProtocol = item :: rest) (connection : TaskId) :
    let manager := ManagerPhase.running (PeerManager.turn before.next
      (.incidentProtocol (some item.event)) self)
    ((∃ peerid entry, self.setAllPeers.lookup peerid = some entry ∧
        entry.txChannelPeermanagerToPeer = connection) →
      manager.message connection ++ payloads connection rest =
        payloads connection before.fromProtocol) ∧
      (manager.message connection ≠ [] →
        ∃ peerid entry, self.setAllPeers.lookup peerid = some entry ∧
          entry.txChannelPeermanagerToPeer = connection) := by
  have hregistry : Registry current before.peers before.next self :=
    hattributed.registry_of_running hmanager
  have hself := registry_of_idle hmanager
  have hitem : item ∈ before.fromProtocol := hqueue ▸ List.mem_cons_self
  have hid := hnamed.answers item hitem
  have hcurrent := hattributed.answers item hitem
  have hentries := hnamed.entries
  rw [hself] at hentries
  obtain ⟨origin, event⟩ := item
  rw [hqueue, payloads_cons]
  cases event with
  | readyMessage peerid message =>
      simp only [PeerManager.turn, PeerManager.protocolReadyMessage,
        PeerManager.sendEventsPeer]
      cases hentry : self.setAllPeers.lookup peerid with
      | none =>
          refine ⟨?_, fun hmessage => absurd rfl hmessage⟩
          rintro ⟨other, entry, hother, rfl⟩
          have hne : origin ≠ entry.txChannelPeermanagerToPeer := by
            rintro rfl
            have hsame := (hentries other entry hother).symm.trans hid
            obtain rfl : other = peerid := Option.some.inj hsame
            rw [hentry] at hother
            cases hother
          simp [hne]
      | some entry =>
          have horigin : entry.txChannelPeermanagerToPeer = origin :=
            (hregistry.entry peerid entry hentry).trans hcurrent.symm
          simp only [Await.bind_issue, message_issue, routes, horigin]
          refine ⟨fun _ => by simp [outgoing], fun hmessage => ?_⟩
          obtain rfl : origin = connection := by
            by_contra hne
            exact hmessage (if_neg hne)
          exact ⟨peerid, entry, hentry, horigin⟩
  | incidetViolentComplitedPeer peerid =>
      have hnone (connection : TaskId) :
          (ManagerPhase.running (self.violentComplitedPeer peerid)).message
            connection = [] := by
        unfold PeerManager.violentComplitedPeer
        split <;> rfl
      exact ⟨fun _ => by simp [PeerManager.turn, hnone, outgoing],
        fun hmessage => absurd (hnone connection) hmessage⟩

/-- The manager takes an event of `HandleMessage` and looks the peer up. -/
theorem RoutedInOrder.protocol (hrouted : RoutedInOrder (before, dispatch))
    (hnamed : Named before) (hmanaged : ManagerReports before)
    (hattributed : Attributed current owner before)
    {self : PeerManager} {item : Tagged EventsHandleMessage}
    {rest : List (Tagged EventsHandleMessage)}
    (hmanager : before.manager = .running (.done self .next))
    (hqueue : before.fromProtocol = item :: rest) :
    RoutedInOrder
      ({ before with
          manager := .running (PeerManager.turn before.next
            (.incidentProtocol (some item.event)) self)
          managing := item.connection
          fromProtocol := rest }, dispatch) := by
  have hids := (ManagerStep.protocol hmanager hqueue).idMove hmanaged
  have hself := registry_of_idle hmanager
  have hmessage := message_protocol hnamed hattributed hmanager hqueue
  have hregistry := (@turn_protocol self before.next item.event).state_eq
  have hentries := hrouted.entries
  have hbegins := hrouted.routed
  simp only [hmanager, message_done, List.append_nil] at hentries hbegins
  -- what is sent next was the first of what is queued
  have hsplit {connection : TaskId} (hentry : ∃ peerid entry,
      self.setAllPeers.lookup peerid = some entry ∧
        entry.txChannelPeermanagerToPeer = connection) :
      dispatch.routed connection ++ (ManagerPhase.running (PeerManager.turn
          before.next (.incidentProtocol (some item.event)) self)).message
            connection ++ payloads connection rest =
        payloads connection dispatch.sent := by
    rw [List.append_assoc, (hmessage connection).1 hentry]
    obtain ⟨peerid, entry, hlookup, rfl⟩ := hentry
    exact hentries peerid entry hlookup
  constructor
  · intro other hother
    exact hnamed.idOf_mono hids (hrouted.sent other hother)
  · rintro turn ⟨⟩
    exact turn_sendsToEntry _ _ _
  · intro connection
    by_cases hnone : (ManagerPhase.running (PeerManager.turn before.next
        (.incidentProtocol (some item.event)) self)).message connection = []
    · simp only [hnone, List.append_nil]
      exact hbegins connection
    · exact ⟨_, hsplit ((hmessage connection).2 hnone)⟩
  · intro peerid entry hentry
    apply hsplit
    refine ⟨peerid, entry, ?_, rfl⟩
    rwa [← hregistry]

/-- A peer does not take a message any more, and its entry is dropped. -/
theorem RoutedInOrder.dropped (hrouted : RoutedInOrder (before, dispatch))
    (hnamed : Named before) (hids : IdMove before label after)
    {self : PeerManager} {task : TaskId} {message : MessagePayload}
    {resume : Bool → ManagerTurn}
    (hmanager : before.manager = .running
      (.issue self (.toPeer task (.readyLowMessage message)) resume))
    (hafter : after.manager = .running (resume false))
    (hqueue : after.fromProtocol = before.fromProtocol) :
    RoutedInOrder (after, dispatch) := by
  obtain ⟨peerid, entry, hentry, htask, hresume⟩ :=
    hrouted.turn _ hmanager _ _ _ _ rfl
  have hself : before.manager.registry = self := registry_of_running hmanager
  rw [hresume] at hafter
  constructor
  · intro item hitem
    exact hnamed.idOf_mono hids (hrouted.sent item hitem)
  · intro turn hturn
    rw [hafter] at hturn
    cases hturn
    exact done_sendsToEntry _
  · intro connection
    rw [hafter, message_done, List.append_nil]
    exact (List.prefix_append _ _).trans (hrouted.routed connection)
  · intro other entry' hother
    rw [hafter] at hother ⊢
    change (self.setAllPeers.erase peerid).lookup other = some entry' at hother
    rw [lookup_erase_ite] at hother
    split at hother
    case isTrue => cases hother
    case isFalse hne =>
      rw [← hself] at hentry hother
      have htx : task ≠ entry'.txChannelPeermanagerToPeer := by
        rintro rfl
        have hid := hnamed.entries peerid entry hentry
        rw [htask, hnamed.entries other entry' hother] at hid
        exact hne (Option.some.inj hid)
      have hold := hrouted.entries other entry' hother
      simp only [hmanager, message_issue, routes, if_neg htx] at hold
      simp only [message_done, hqueue]
      exact hold

theorem RoutedInOrder.managerStep (hrouted : RoutedInOrder (before, dispatch))
    (hnamed : Named before) (hmanaged : ManagerReports before)
    (hattributed : Attributed current owner before)
    (hstep : ManagerStep before label after) :
    RoutedInOrder (after, dispatch.after before label) := by
  have hids := hstep.idMove hmanaged
  cases hstep with
  | take hmanager hexternal =>
      refine hrouted.frame hnamed hids ?_ rfl rfl fun connection => ?_
      · rintro turn ⟨⟩
        exact turn_sendsToEntry _ _ _
      · simp only [hmanager, message_connect (turn_external hexternal), message_done]
        rfl
  | protocol hmanager hqueue =>
      exact hrouted.protocol hnamed hmanaged hattributed hmanager hqueue
  | protocolClosed hmanager =>
      refine hrouted.frame hnamed hids ?_ rfl rfl fun connection => ?_
      · rintro turn ⟨⟩
        exact turn_sendsToEntry _ _ _
      · simp only [hmanager]
        rfl
  | peer hmanager hqueue =>
      refine hrouted.frame hnamed hids ?_ rfl rfl fun connection => ?_
      · rintro turn ⟨⟩
        exact turn_sendsToEntry _ _ _
      · simp only [hmanager, message_peer, message_done]
        rfl
  | @join self task outcome hmanager htask hfinished =>
      have htasks := hmanaged.registry.tasks
      rw [registry_of_idle hmanager] at htasks
      refine hrouted.frame hnamed hids ?_ rfl rfl fun connection => ?_
      · rintro turn ⟨⟩
        exact turn_sendsToEntry _ _ _
      · simp only [hmanager, turn_joined (htasks.known task htask), message_notify,
          message_done]
        rfl
  | @send self send resume hmanager hopen hroom =>
      obtain ⟨self', flow, hdone, -⟩ := hmanaged.registry.drops _ hmanager true
      rw [hdone] at hids ⊢
      refine hrouted.frame hnamed hids ?_ ?_ rfl fun connection => ?_
      · rintro turn ⟨⟩
        exact done_sendsToEntry _
      · cases send <;> rfl
      · rw [message_done, List.append_nil]
        rfl
  | @sendClosed self send resume hmanager hclosed =>
      by_cases hsend : ∃ task message, send = .toPeer task (.readyLowMessage message)
      · obtain ⟨task, message, rfl⟩ := hsend
        exact hrouted.dropped hnamed hids hmanager rfl rfl
      obtain ⟨self', flow, hdone, -⟩ := hmanaged.registry.drops _ hmanager false
      rw [hdone] at hids ⊢
      refine hrouted.frame hnamed hids ?_ rfl rfl fun connection => ?_
      · rintro turn ⟨⟩
        exact done_sendsToEntry _
      · have hnone : routes connection send = [] := by
          unfold routes
          split
          · exact absurd ⟨_, _, rfl⟩ hsend
          · rfl
        simp only [hmanager, message_done, message_issue, hnone]
        rfl
  | leave hmanager | disconnectClosed hmanager | disconnected hmanager
  | drain hmanager | finish hmanager =>
      refine hrouted.frame hnamed hids (by simp) rfl rfl fun connection => ?_
      simp only [hmanager, message_done, message_disconnecting]
      rfl
  | disconnect hmanager =>
      refine hrouted.frame hnamed hids (by simp) rfl rfl fun connection => ?_
      simp only [hmanager, message_disconnecting]
      rfl

theorem RoutedInOrder.handleStep (hrouted : RoutedInOrder (before, dispatch))
    (hnamed : Named before) (hstep : HandleStep before label after) :
    RoutedInOrder (after, dispatch.after before label) := by
  cases hstep with
  | @send self event resume hhandle hopen hroom =>
      have hsent : (dispatch.after before (.handleSend true)).sent = dispatch.sent ++
          [{ connection := before.handling, event := event }] := by
        simp [Dispatch.after, System.answering, hhandle]
      constructor
      · intro item hitem
        rw [hsent, List.mem_append, List.mem_singleton] at hitem
        obtain hitem | rfl := hitem
        · exact hrouted.sent item hitem
        · exact hnamed.handling self event resume hhandle
      · exact hrouted.turn
      · intro connection
        rw [hsent, payloads_append]
        exact (hrouted.routed connection).trans (List.prefix_append _ _)
      · intro peerid entry hentry
        rw [hsent, payloads_append, payloads_append, ← List.append_assoc]
        exact congrArg (· ++ _) (hrouted.entries peerid entry hentry)
  | _ => exact ⟨hrouted.sent, hrouted.turn, hrouted.routed, hrouted.entries⟩

theorem RoutedInOrder.step (hrouted : RoutedInOrder (before, dispatch))
    (hfresh : Fresh before) (hstep : Step before label after) :
    RoutedInOrder (after, dispatch.after before label) := by
  obtain ⟨current, owner, hattributed⟩ := hfresh.attributed
  cases hstep with
  | manager hstep =>
      exact hrouted.managerStep hfresh.named hfresh.managed hattributed hstep
  | handle hstep => exact hrouted.handleStep hfresh.named hstep
  | peer hstep =>
      have hkept := hrouted
      cases hstep with
      | write hpeer delivered =>
          cases delivered <;>
            exact ⟨hkept.sent, hkept.turn, hkept.routed, hkept.entries⟩
      | _ => exact ⟨hkept.sent, hkept.turn, hkept.routed, hkept.entries⟩

end Steps

/-! ## Runs -/

/-- The steps of a node whose connections are fresh, with what passes on the way
from `HandleMessage` to the writers. -/
abbrev DispatchStep : System × Dispatch → Label → System × Dispatch → Prop :=
  Traced (Restrict Step FreshConnection) Dispatch.after

/-- What holds of the way from `HandleMessage` to the writers. -/
structure Dispatched (reached : System × Dispatch) : Prop where
  fresh : Fresh reached.1
  handed : HandedOver reached
  routed : RoutedInOrder reached

theorem Dispatched.initial (nonce : UInt64) :
    Dispatched (System.initial nonce, Dispatch.empty) :=
  ⟨.initial nonce, .initial nonce, .initial nonce⟩

theorem Dispatched.step {reached later : System × Dispatch} {label : Label}
    (hdispatched : Dispatched reached)
    (hstep : DispatchStep reached label later) : Dispatched later := by
  obtain ⟨before, dispatch⟩ := reached
  obtain ⟨after, dispatch'⟩ := later
  obtain ⟨hstep, htrace⟩ := hstep
  obtain rfl : dispatch' = _ := htrace
  exact {
    fresh := hdispatched.fresh.step hstep
    handed := hdispatched.handed.step hdispatched.fresh.spawned hstep.2
    routed := hdispatched.routed.step hdispatched.fresh hstep.2 }

/-- What a connection's writer has been handed are the first of the messages
that were sent for this connection. -/
theorem Dispatched.written_inOrder {system : System} {dispatch : Dispatch}
    (hdispatched : Dispatched (system, dispatch)) (connection : TaskId) :
    dispatch.written connection <+: dispatch.routed connection ∧
      dispatch.routed connection <+: payloads connection dispatch.sent :=
  ⟨hdispatched.handed.written connection,
    (List.prefix_append _ _).trans (hdispatched.routed.routed connection)⟩

section Runs

variable {nonce : UInt64} {labels : List Label} {system : System}
variable {dispatch : Dispatch}

/-- In every run in which the ids of new connections are fresh: what a
connection's writer has been handed are the first of the messages that the
command channel of its peer has taken, and these are the first of the messages
that `HandleMessage` has sent for this connection, all in order. -/
theorem written_prefix_sent
    (run : Run DispatchStep (.initial nonce, .empty) labels (system, dispatch))
    (connection : TaskId) :
    dispatch.written connection <+: dispatch.routed connection ∧
      dispatch.routed connection <+: payloads connection dispatch.sent := by
  have hdispatched := run.invariant Dispatched (.initial nonce) fun _ _ _ => .step
  exact hdispatched.written_inOrder connection

end Runs

/-! ## A connection that is dialled -/

theorem dispatchStep_of_fresh {before after : System} {label : Label}
    {dispatch : Dispatch} (hfresh : FreshConnection before label)
    (hstep : Step before label after) :
    DispatchStep (before, dispatch) label
      (after, dispatch.after before label) :=
  ⟨⟨hfresh, hstep⟩, rfl⟩

/-- Only new connections have to be fresh. -/
theorem dispatchStep_of_step {before after : System} {label : Label}
    {dispatch : Dispatch} (hstep : Step before label after)
    (hlabel : ∀ input, label ≠ .managerTake input) :
    DispatchStep (before, dispatch) label
      (after, dispatch.after before label) := by
  apply dispatchStep_of_fresh _ hstep
  cases label with
  | managerTake input => exact absurd rfl (hlabel input)
  | _ => trivial

/-- The node dials, and its version message reaches the writer. -/
theorem dialled_run : ∃ labels system dispatch version,
    Run DispatchStep (.initial 0, .empty) labels (system, dispatch) ∧
      dispatch.written 0 = [.version version] := by
  have hfresh : FreshConnection (System.initial 0) (.managerTake
      (.incidentThreadNetwork (.ok loopbackSocket)
        (some (.outgoingConnection loopback)))) := by
    intro accepts
    constructor <;> simp [System.initial, ManagerPhase.registry, PeerManager.create]
  have accepted : Run DispatchStep (.initial 0, .empty) _ _ :=
    .tail (.refl _)
      (dispatchStep_of_fresh hfresh (.manager (.take rfl trivial)))
  have announced := accepted.tail (dispatchStep_of_step
    (.manager (.send rfl not_false (Nat.zero_lt_succ _))) (by simp))
  have answering := announced.tail (dispatchStep_of_step
    (.handle (.peermanager rfl rfl (.ok 0))) (by simp))
  have sent := answering.tail (dispatchStep_of_step
    (.handle (.send rfl not_false (Nat.zero_lt_succ _))) (by simp))
  have taken := sent.tail (dispatchStep_of_step
    (.manager (.protocol rfl rfl)) (by simp))
  have routed := taken.tail (dispatchStep_of_step
    (.manager (.send rfl not_false (Nat.zero_lt_succ _))) (by simp))
  have commanded := routed.tail (dispatchStep_of_step
    (.peer (@PeerStep.command _ 0 _ _ _ rfl rfl)) (by simp))
  have written := commanded.tail (dispatchStep_of_step
    (.peer (@PeerStep.write _ 0 _ _ _ rfl true)) (by simp))
  exact ⟨_, _, _, _, written, rfl⟩

theorem written_prefix_sent_dialled : ∃ labels system dispatch version,
    Run DispatchStep (.initial 0, .empty) labels (system, dispatch) ∧
      [.version version] <+: dispatch.routed 0 ∧
      dispatch.routed 0 <+: payloads 0 dispatch.sent := by
  obtain ⟨labels, system, dispatch, version, run, hwritten⟩ := dialled_run
  have hinOrder := written_prefix_sent run 0
  rw [hwritten] at hinOrder
  exact ⟨labels, system, dispatch, version, run, hinOrder⟩

end P2PNetwork.Runtime
