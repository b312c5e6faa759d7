import P2PNetwork.Runtime.System

/-!
# Blocking cycles

The manager, `HandleMessage` and the peers send to each other from inside their
turns, over bounded channels.  Two of them block each other when both wait for
a free place in a channel that only the other one empties.  The steps that can
close such a cycle, and a flood of messages that does.
-/

namespace P2PNetwork.Runtime

open P2PNetwork.EventLoop
open P2PNetwork.Events
open P2PNetwork.Handler
open P2PNetwork.Handshake
open P2PNetwork.Manager
open P2PNetwork.PeerActor
open P2PNetwork.Wire

namespace System

/-- The manager waits for a place in the channel to `HandleMessage`. -/
def WaitsForProtocol (system : System) : Prop :=
  (∃ event, system.manager.awaits = some (.toProtocol event)) ∧
    channelCapacity ≤ system.toProtocol.length

/-- The manager waits for a place in the command channel of a peer. -/
def WaitsForPeer (system : System) (task : TaskId) : Prop :=
  (∃ command, system.manager.awaits = some (.toPeer task command)) ∧
    channelCapacity ≤ (system.commands task).length

/-- `HandleMessage` waits for a place in the channel to the manager. -/
def HandleWaits (system : System) : Prop :=
  (∃ self event resume, system.handle = .issue self event resume) ∧
    channelCapacity ≤ system.fromProtocol.length

/-- A peer waits for a place in the channel to the manager. -/
def PeerWaits (system : System) (task : TaskId) : Prop :=
  (∃ event, (system.peers task).Sends event) ∧
    channelCapacity ≤ system.fromPeers.length

/-- The manager and one of its partners wait for each other. -/
def BlockingCycle (system : System) : Prop :=
  system.WaitsForProtocol ∧ system.HandleWaits ∨
    ∃ task, system.WaitsForPeer task ∧ system.PeerWaits task

end System

/-- The steps with which the manager takes up something that it reports to
`HandleMessage`. -/
def Reports : Label → Prop
  | .managerTake input => Accepts input
  | .managerPeer | .managerJoin _ => True
  | _ => False

/-- `HandleMessage` is in the first of two sends of a turn. -/
def AnswersAgain (handle : HandleTurn) : Prop :=
  ∃ self event resume self' event' resume',
    handle = .issue self event resume ∧
      resume true = .issue self' event' resume'

/-- Nobody starts to wait for a party that already waits for it. -/
structure StartsNoCycle (system : System) (label : Label) : Prop where
  report : Reports label → channelCapacity ≤ system.toProtocol.length →
    ¬ system.HandleWaits
  protocol : label = .managerProtocol → ∀ item ∈ system.fromProtocol.head?,
    ∀ entry ∈ system.manager.registry.setAllPeers.lookup item.event.peerid,
      channelCapacity ≤
          (system.commands entry.txChannelPeermanagerToPeer).length →
        ¬ system.PeerWaits entry.txChannelPeermanagerToPeer
  leave : label = .managerLeave →
    ∀ task ∈ system.manager.registry.allTasks,
      channelCapacity ≤ (system.commands task).length →
        ¬ system.PeerWaits task
  disconnect : label = .managerDisconnect →
    ∀ incident self task task' rest,
      system.manager = .disconnecting incident self (task :: task' :: rest) →
        channelCapacity ≤
            ((system.deliver (.toPeer task .shutdown)).commands task').length →
          ¬ system.PeerWaits task'
  answer : label = .handleSend true → AnswersAgain system.handle →
    system.WaitsForProtocol → system.fromProtocol.length + 1 < channelCapacity
  read : ∀ task message,
    label = .peerSubtask task (.incidentTaskRead (some message)) →
      system.WaitsForPeer task → system.fromPeers.length < channelCapacity
  send : ∀ task other event, label = .peerSend task true → other ≠ task →
    system.WaitsForPeer other → (system.peers other).Sends event →
      system.fromPeers.length + 1 < channelCapacity

section Steps

variable {before after : System} {label : Label}

theorem awaits_of_singleSend {self : PeerManager} {send : ManagerSend}
    {resume : Bool → ManagerTurn}
    (hsingle : (Await.issue self send resume).SingleSend) (delivered : Bool) :
    (ManagerPhase.running (resume delivered)).awaits = none := by
  obtain ⟨self', flow, hdone⟩ := hsingle delivered
  rw [hdone]
  rfl

theorem HandleStep.not_cycle (horder : ManagerInOrder before)
    (hstart : StartsNoCycle before label) (hbefore : ¬ before.BlockingCycle)
    (hstep : HandleStep before label after) : ¬ after.BlockingCycle := by
  rintro (⟨hmanager, hhandle⟩ | ⟨task, hmanager, hpeer⟩)
  · obtain ⟨⟨self', event', resume', hissue⟩, hfull⟩ := hhandle
    cases hstep with
    | threadProtocol hidle incident =>
        rcases incident with _ | ⟨⟨⟩⟩ <;> cases hissue
    | peermanager hidle hqueue now =>
        have hbounded := horder.bounded
        have hrest := hmanager.2
        rw [hqueue, List.length_cons] at hbounded
        exact absurd hbounded (not_le.mpr (Nat.lt_succ_of_le hrest))
    | peermanagerClosed => cases hissue
    | send hsend hopen hroom =>
        have hlast := hstart.answer rfl ⟨_, _, _, _, _, _, hsend, hissue⟩ hmanager
        rw [List.length_append, List.length_singleton] at hfull
        omega
    | @sendClosed self event resume hsend hclosed =>
        obtain ⟨event, hawaits⟩ := hmanager.1
        have hnothing : before.manager.awaits = none := hclosed.awaits_eq
        rw [hnothing] at hawaits
        cases hawaits
  · cases hstep <;> exact hbefore (.inr ⟨task, hmanager, hpeer⟩)

/-- A peer that goes on without a send to the manager closes no cycle. -/
theorem not_cycle_setPeer {task other : TaskId} {peer : PeerPhase}
    {event : EventsPeer} (hbefore : ¬ before.BlockingCycle)
    (hquiet : ¬ peer.Sends event) (hmanager : before.WaitsForPeer other)
    (hfull : channelCapacity ≤ before.fromPeers.length)
    (hsends : ((before.setPeer task peer).peers other).Sends event) : False := by
  by_cases hother : other = task
  · subst hother
    exact hquiet (by simpa [System.setPeer] using hsends)
  · have hsends' : (before.peers other).Sends event := by
      simpa [System.setPeer, hother] using hsends
    exact hbefore (.inr ⟨other, hmanager, ⟨event, hsends'⟩, hfull⟩)

theorem PeerStep.not_cycle (horder : PeersInOrder before)
    (hstart : StartsNoCycle before label) (hbefore : ¬ before.BlockingCycle)
    (hstep : PeerStep before label after) : ¬ after.BlockingCycle := by
  rintro (⟨hmanager, hhandle⟩ | ⟨other, hmanager, ⟨event, hsends⟩, hfull⟩)
  · cases hstep <;> exact hbefore (.inl ⟨hmanager, hhandle⟩)
  cases hstep with
  | @command task self command rest hpeer hqueue =>
      have hmanager' : before.WaitsForPeer other := by
        refine ⟨hmanager.1, hmanager.2.trans ?_⟩
        by_cases hother : other = task
        · subst hother
          simp [hqueue]
        · simp [hother]
      refine not_cycle_setPeer hbefore (fun hturn => ?_) hmanager' hfull hsends
      obtain ⟨message, hinput⟩ := message_of_sends hturn
      cases hinput
  | commandClosed hpeer hqueue hclosed =>
      refine not_cycle_setPeer hbefore (fun hturn => ?_) hmanager hfull hsends
      obtain ⟨message, hinput⟩ := message_of_sends hturn
      cases hinput
  | @subtask task self input hpeer hinput =>
      by_cases hturn : (PeerPhase.looping (PeerActor.turn input self)).Sends event
      · obtain ⟨message, rfl⟩ := message_of_sends hturn
        by_cases hother : other = task
        · subst hother
          exact absurd hfull (not_le.mpr (hstart.read _ message rfl hmanager))
        · have hsends' : (before.peers other).Sends event := by
            simpa [System.setPeer, hother] using hsends
          exact hbefore (.inr ⟨other, hmanager, ⟨event, hsends'⟩, hfull⟩)
      · exact not_cycle_setPeer hbefore hturn hmanager hfull hsends
  | @send task self event' resume hpeer hopen hroom =>
      have hquiet := not_sends_of_singleSend (horder.single _ _ hpeer) true event
      have hother : other ≠ task := by
        rintro rfl
        exact hquiet (by simpa [System.setPeer] using hsends)
      have hsends' : (before.peers other).Sends event := by
        simpa [System.setPeer, hother] using hsends
      have hlast := hstart.send task other event rfl hother hmanager hsends'
      rw [List.length_append, List.length_singleton] at hfull
      omega
  | sendClosed hpeer hclosed =>
      exact not_cycle_setPeer hbefore
        (not_sends_of_singleSend (horder.single _ _ hpeer) false event)
        hmanager hfull hsends
  | write hpeer delivered =>
      exact not_cycle_setPeer hbefore
        (not_sends_of_singleSend (horder.single _ _ hpeer) delivered event)
        hmanager hfull hsends
  | finish hpeer read write =>
      exact not_cycle_setPeer hbefore (by rintro ⟨_, _, ⟨⟩⟩) hmanager hfull hsends
  | panic hpeer =>
      exact not_cycle_setPeer hbefore (by rintro ⟨_, _, ⟨⟩⟩) hmanager hfull hsends

/-! ## Steps of the manager -/

theorem awaits_connectTurn {task : TaskId} {self : PeerManager}
    {peer : Option Peer} {turn : ManagerTurn} {send : ManagerSend}
    (hturn : ConnectTurn task self peer turn)
    (hawaits : (ManagerPhase.running turn).awaits = some send) :
    (∃ spawned, peer = some spawned) ∧ ∃ event, send = .toProtocol event := by
  cases hturn with
  | idle => cases hawaits
  | accepted =>
      cases hawaits
      exact ⟨⟨_, rfl⟩, _, rfl⟩

theorem awaits_protocolTurn {self : PeerManager} {peerid : PeerId}
    {turn : ManagerTurn} {send : ManagerSend}
    (hturn : ProtocolTurn self peerid turn)
    (hawaits : (ManagerPhase.running turn).awaits = some send) :
    ∃ entry command, self.setAllPeers.lookup peerid = some entry ∧
      send = .toPeer entry.txChannelPeermanagerToPeer command := by
  cases hturn with
  | missing => cases hawaits
  | entry hentry hresume =>
      cases hawaits
      exact ⟨_, _, hentry, rfl⟩

theorem awaits_turn_peer {task : TaskId} {self : PeerManager}
    {event : EventsPeer} {send : ManagerSend}
    (hawaits : (ManagerPhase.running (PeerManager.turn task
      (.incidentPeer (some event)) self)).awaits = some send) :
    ∃ event, send = .toProtocol event := by
  obtain hdone | ⟨peerid, message, -, hturn⟩ := @turn_peer self task event
  · rw [hdone] at hawaits
    cases hawaits
  · rw [hturn] at hawaits
    cases hawaits
    exact ⟨_, rfl⟩

theorem awaits_turn_result {task : TaskId} {self : PeerManager}
    {result : ResultPeer} {send : ManagerSend}
    (hawaits : (ManagerPhase.running (PeerManager.turn task
      (.resultPeer result) self)).awaits = some send) :
    ∃ event, send = .toProtocol event := by
  obtain hdone | ⟨peerid, hturn⟩ := @turn_result self task result
  · rw [hdone] at hawaits
    cases hawaits
  · rw [hturn] at hawaits
    cases hawaits
    exact ⟨_, rfl⟩

theorem awaits_disconnecting {self : PeerManager}
    {incident : EventsCriticalCompletionPeerManager} {tasks : List TaskId}
    {send : ManagerSend}
    (hawaits : (ManagerPhase.disconnecting incident self tasks).awaits =
      some send) :
    ∃ task rest, tasks = task :: rest ∧ send = .toPeer task .shutdown := by
  cases tasks with
  | nil => cases hawaits
  | cons task rest =>
      cases hawaits
      exact ⟨task, rest, rfl, rfl⟩

theorem commands_le_deliver (system : System) (send : ManagerSend)
    (task : TaskId) :
    (system.commands task).length ≤
      ((system.deliver send).commands task).length := by
  cases send with
  | toProtocol event => exact le_rfl
  | toPeer other command =>
      by_cases htask : task = other
      · subst htask
        simp [System.deliver]
      · simp [System.deliver, htask]

/-- The manager waits for `HandleMessage` only after it has taken up
something that it reports. -/
theorem ManagerStep.not_protocolCycle (horder : ManagerInOrder before)
    (hstart : StartsNoCycle before label)
    (hstep : ManagerStep before label after)
    (hmanager : after.WaitsForProtocol) : ¬ after.HandleWaits := by
  intro hhandle
  obtain ⟨⟨event, hawaits⟩, hfull⟩ := hmanager
  cases hstep with
  | take hmanager hexternal =>
      obtain ⟨⟨spawned, hspawned⟩, -⟩ :=
        awaits_connectTurn (turn_external hexternal) hawaits
      exact hstart.report (accepts_of_spawned hspawned) hfull hhandle
  | protocol hmanager hqueue =>
      obtain ⟨_, _, -, hsend⟩ := awaits_protocolTurn (turn_protocol _) hawaits
      cases hsend
  | peer | join => exact hstart.report trivial hfull hhandle
  | send hmanager | sendClosed hmanager =>
      rw [awaits_of_singleSend (horder.single _ hmanager)] at hawaits
      cases hawaits
  | leave | disconnect | disconnectClosed =>
      obtain ⟨_, _, -, hsend⟩ := awaits_disconnecting hawaits
      cases hsend
  | _ => cases hawaits

/-- The manager waits for a peer only after it has taken up an event for it or
begun to tell it to shut down. -/
theorem ManagerStep.not_peerCycle (horder : ManagerInOrder before)
    (hstart : StartsNoCycle before label)
    (hstep : ManagerStep before label after) {task : TaskId}
    (hmanager : after.WaitsForPeer task) : ¬ after.PeerWaits task := by
  intro hpeer
  obtain ⟨⟨command, hawaits⟩, hfull⟩ := hmanager
  cases hstep with
  | take hmanager hexternal =>
      obtain ⟨-, _, hsend⟩ := awaits_connectTurn (turn_external hexternal) hawaits
      cases hsend
  | protocol hmanager hqueue =>
      obtain ⟨entry, _, hentry, hsend⟩ :=
        awaits_protocolTurn (turn_protocol _) hawaits
      cases hsend
      exact hstart.protocol rfl _ (by rw [hqueue]; rfl) entry
        (by rw [hmanager]; exact hentry) hfull hpeer
  | peer =>
      obtain ⟨_, hsend⟩ := awaits_turn_peer hawaits
      cases hsend
  | join =>
      obtain ⟨_, hsend⟩ := awaits_turn_result hawaits
      cases hsend
  | send hmanager | sendClosed hmanager =>
      rw [awaits_of_singleSend (horder.single _ hmanager)] at hawaits
      cases hawaits
  | leave hmanager htasks =>
      obtain ⟨task', rest, rfl, hsend⟩ := awaits_disconnecting hawaits
      cases hsend
      refine hstart.leave rfl task ?_ hfull hpeer
      rw [hmanager]
      exact htasks.mem_iff.mp List.mem_cons_self
  | disconnect hmanager hopen hroom =>
      obtain ⟨task', rest, rfl, hsend⟩ := awaits_disconnecting hawaits
      cases hsend
      exact hstart.disconnect rfl _ _ _ _ _ hmanager hfull hpeer
  | disconnectClosed hmanager hclosed =>
      obtain ⟨task', rest, rfl, hsend⟩ := awaits_disconnecting hawaits
      cases hsend
      exact hstart.disconnect rfl _ _ _ _ _ hmanager
        (le_trans hfull (commands_le_deliver before _ task)) hpeer
  | _ => cases hawaits

theorem ManagerStep.not_cycle (horder : ManagerInOrder before)
    (hstart : StartsNoCycle before label)
    (hstep : ManagerStep before label after) : ¬ after.BlockingCycle := by
  rintro (⟨hmanager, hhandle⟩ | ⟨task, hmanager, hpeer⟩)
  · exact hstep.not_protocolCycle horder hstart hmanager hhandle
  · exact hstep.not_peerCycle horder hstart hmanager hpeer

/-- A system whose channels and turns are in order and where nobody is in a
blocking cycle. -/
structure Unblocked (system : System) : Prop where
  peers : PeersInOrder system
  manager : ManagerInOrder system
  cycle : ¬ system.BlockingCycle

theorem Unblocked.initial (nonce : UInt64) : Unblocked (.initial nonce) where
  peers := .initial nonce
  manager := .initial nonce
  cycle := by
    rintro (⟨⟨⟨_, hawaits⟩, -⟩, -⟩ | ⟨_, ⟨⟨_, hawaits⟩, -⟩, -⟩) <;> cases hawaits

theorem Unblocked.step (hunblocked : Unblocked before)
    (hstart : StartsNoCycle before label) (hstep : Step before label after) :
    Unblocked after := by
  refine ⟨hunblocked.peers.step hstep, hunblocked.manager.step hstep, ?_⟩
  cases hstep with
  | manager hstep => exact hstep.not_cycle hunblocked.manager hstart
  | handle hstep =>
      exact hstep.not_cycle hunblocked.manager hstart hunblocked.cycle
  | peer hstep => exact hstep.not_cycle hunblocked.peers hstart hunblocked.cycle

/-- While nobody starts to wait for a party that waits for it, no blocking
cycle is reached. -/
theorem no_blockingCycle {nonce : UInt64} {labels : List Label}
    {system : System}
    (run : Run (Restrict Step StartsNoCycle) (.initial nonce) labels system) :
    ¬ system.BlockingCycle :=
  (run.invariant Unblocked (.initial nonce) fun _ _ _ hbefore hstep =>
    hbefore.step hstep.1 hstep.2).cycle

/-- With room in the channels any step is allowed. -/
theorem StartsNoCycle.of_room (htoProtocol : before.toProtocol.length < channelCapacity)
    (hfromProtocol : before.fromProtocol.length + 1 < channelCapacity)
    (hfromPeers : before.fromPeers.length + 1 < channelCapacity) :
    StartsNoCycle before label := by
  have hpeers (task : TaskId) : ¬ before.PeerWaits task := fun hwaits =>
    absurd hwaits.2 (not_le.mpr ((Nat.lt_succ_self _).trans hfromPeers))
  exact {
    report := fun _ hfull => absurd hfull (not_le.mpr htoProtocol)
    protocol := fun _ _ _ _ _ _ => hpeers _
    leave := fun _ _ _ _ => hpeers _
    disconnect := fun _ _ _ _ _ _ _ _ => hpeers _
    answer := fun _ _ _ => hfromProtocol
    read := fun _ _ _ _ => (Nat.lt_succ_self _).trans hfromPeers
    send := fun _ _ _ _ _ _ _ => hfromPeers }

end Steps

/-! ## Two runs -/

/-- A connected peer takes up a message. -/
theorem no_blockingCycle_oneMessage : ∃ system labels,
    Run (Restrict Step StartsNoCycle) (.initial 0) labels system ∧
      system.peers 0 = holdingVerack ∧ ¬ system.BlockingCycle := by
  have hconnected : Run (Restrict Step StartsNoCycle) (.initial 0) _ connected :=
    connected_restrict (.of_room (by decide) (by decide) (by decide)) fun _ =>
      { report := fun hreports => hreports.elim
        protocol := nofun
        leave := nofun
        disconnect := nofun
        answer := nofun
        read := nofun
        send := nofun }
  have hheld := hconnected.tail
    ⟨.of_room (by decide) (by decide) (by decide), read_verack rfl⟩
  exact ⟨_, _, hheld, rfl, no_blockingCycle hheld⟩

/-- `HandleMessage` after it has taken the event of the new connection. -/
def greetedTables : HandleMessage :=
  HandleMessage.create.addPeer {
    peerid := 1
    typeConnection := .incomingConnection
    nonce := 0
    localAddress := loopback
    removeAddress := loopback }

/-- The node once `HandleMessage` knows the connection, with `violations`
reports to the manager and `messages` stray veracks to `HandleMessage`. -/
def flooded (handle : HandleTurn) (violations messages : ℕ) : System :=
  { connected with
    handle := handle
    owners :=
      { context := Function.update (fun _ => none) 1 (some 0)
        state := Function.update (fun _ => none) 1 (some 0) }
    fromProtocol := List.replicate violations
      { connection := 0, event := .incidetViolentComplitedPeer 1 }
    toProtocol := List.replicate messages
      { connection := 0, event := .readyMessage 1 strayVerack } }

theorem greeted_run : ∃ labels,
    Run Step (.initial 0) labels (flooded (.done greetedTables .next) 0 0) := by
  have htake : Step connected (.handlePeermanager (.ok 0)) _ :=
    .handle (.peermanager rfl rfl (.ok 0))
  exact ⟨_, connected_run.tail htake⟩

/-- `HandleMessage` reports the peer for a stray verack. -/
def punishingTurn : HandleTurn :=
  HandleMessage.turn (.incidentPeermanager (.ok 0)
    (some (.readyMessage 1 strayVerack))) greetedTables

theorem punishingTurn_eq :
    punishingTurn = .issue greetedTables (.incidetViolentComplitedPeer 1)
      fun _ => .done greetedTables .next := by
  change Await.issue greetedTables
    (EventsHandleMessage.incidetViolentComplitedPeer 1) _ = _
  congr 1
  funext delivered
  cases delivered <;> rfl

theorem flooded_message_succ (handle : HandleTurn) (violations messages : ℕ) :
    flooded handle violations (messages + 1) =
      { flooded handle violations messages with
        toProtocol := (flooded handle violations messages).toProtocol ++
          [{ connection := 0, event := .readyMessage 1 strayVerack }] } := by
  simp [flooded, List.replicate_succ']

theorem flooded_violation_succ (handle : HandleTurn) (violations messages : ℕ) :
    flooded handle (violations + 1) messages =
      { flooded handle violations messages with
        fromProtocol := (flooded handle violations messages).fromProtocol ++
          [{ connection := 0, event := .incidetViolentComplitedPeer 1 }] } := by
  simp [flooded, List.replicate_succ']

/-- The manager has taken a stray verack from the peer. -/
def reporting (handle : HandleTurn) (violations messages : ℕ) : System :=
  { flooded handle violations messages with
    manager := .running (((PeerManager.create 0).accepted 0).notifyProtocol
      (.readyMessage 1 strayVerack)) }

theorem reporting_run (handle : HandleTurn) (violations messages : ℕ) :
    Run Step (flooded handle violations messages)
      [.peerSubtask 0 readVerack, .peerSend 0 true, .managerPeer]
      (reporting handle violations messages) := by
  have hqueued := @verack_run (flooded handle violations messages) rfl not_false
    (Nat.zero_lt_succ _)
  have htaken : Step
      { flooded handle violations messages with fromPeers := [queuedVerack] }
      .managerPeer _ := .manager (.peer rfl rfl)
  exact hqueued.tail htaken

/-- A stray verack goes from the peer into the channel to `HandleMessage`. -/
theorem message_run {handle : HandleTurn} (hopen : ¬ HasLeft handle)
    (violations : ℕ) {messages : ℕ} (hmessages : messages < channelCapacity) :
    Run Step (flooded handle violations messages)
      [.peerSubtask 0 readVerack, .peerSend 0 true, .managerPeer,
        .managerSend true] (flooded handle violations (messages + 1)) := by
  have hroom : (reporting handle violations messages).toProtocol.length <
      channelCapacity := by simpa [reporting, flooded] using hmessages
  have hsend := @ManagerStep.notified (reporting handle violations messages) _ _
    rfl hopen hroom
  rw [flooded_message_succ]
  exact (reporting_run handle violations messages).tail (.manager hsend)

theorem punish_run (violations : ℕ) :
    Run Step (flooded (.done greetedTables .next) violations 1)
      [.handlePeermanager (.ok 0)] (flooded punishingTurn violations 0) := by
  have htake : Step (flooded (.done greetedTables .next) violations 1)
      (.handlePeermanager (.ok 0)) _ := .handle (.peermanager rfl rfl (.ok 0))
  exact .tail (.refl _) htake

theorem report_run {violations : ℕ} (hviolations : violations < channelCapacity) :
    Run Step (flooded punishingTurn violations 0) [.handleSend true]
      (flooded (.done greetedTables .next) (violations + 1) 0) := by
  have hroom : (flooded punishingTurn violations 0).fromProtocol.length <
      channelCapacity := by simpa [flooded] using hviolations
  have hsend : Step (flooded punishingTurn violations 0) (.handleSend true) _ :=
    .handle (.send punishingTurn_eq not_false hroom)
  rw [flooded_violation_succ]
  exact .tail (.refl _) hsend

/-- The manager does not take the reports while the peer floods the node. -/
theorem violations_run {violations : ℕ}
    (hviolations : violations ≤ channelCapacity) :
    ∃ labels, Run Step (.initial 0) labels
      (flooded (.done greetedTables .next) violations 0) := by
  induction violations with
  | zero => exact greeted_run
  | succ violations ih =>
      obtain ⟨labels, run⟩ := ih (by omega)
      have hmessage := @message_run (.done greetedTables .next)
        not_false violations 0 (Nat.zero_lt_succ _)
      exact ⟨_, ((run.trans hmessage).trans (punish_run violations)).trans
        (report_run (by omega))⟩

theorem messages_run {messages : ℕ} (hmessages : messages ≤ channelCapacity) :
    ∃ labels, Run Step (.initial 0) labels
      (flooded punishingTurn channelCapacity messages) := by
  induction messages with
  | zero =>
      obtain ⟨labels, run⟩ := violations_run le_rfl
      have hmessage := @message_run (.done greetedTables .next)
        not_false channelCapacity 0 (Nat.zero_lt_succ _)
      exact ⟨_, (run.trans hmessage).trans (punish_run channelCapacity)⟩
  | succ messages ih =>
      obtain ⟨labels, run⟩ := ih (by omega)
      exact ⟨_, run.trans (@message_run punishingTurn not_false
        channelCapacity messages (by omega))⟩

/-- One peer floods the node with veracks until the manager and `HandleMessage`
wait for each other. -/
theorem blockingCycle_flood : ∃ system labels,
    Run Step (.initial 0) labels system ∧
      system = reporting punishingTurn channelCapacity channelCapacity ∧
      system.WaitsForProtocol ∧ system.HandleWaits ∧ system.BlockingCycle := by
  obtain ⟨labels, run⟩ := messages_run le_rfl
  have hmanager : (reporting punishingTurn channelCapacity
      channelCapacity).WaitsForProtocol :=
    ⟨⟨_, rfl⟩, by simp [reporting, flooded]⟩
  have hhandle : (reporting punishingTurn channelCapacity
      channelCapacity).HandleWaits :=
    ⟨⟨_, _, _, punishingTurn_eq⟩, by simp [reporting, flooded]⟩
  exact ⟨_, _, run.trans (reporting_run _ _ _), rfl, hmanager, hhandle,
    .inl ⟨hmanager, hhandle⟩⟩

end P2PNetwork.Runtime
