import P2PNetwork.Runtime.AttributionInvariant
import P2PNetwork.Runtime.Deadlock

/-!
# The steps that block

A step that does not meet the guards of `StartsNoCycle` can end in a blocking
cycle.  The guards therefore leave out exactly the steps with which a node that
has not blocked yet may block.
-/

namespace P2PNetwork.Runtime

open P2PNetwork.EventLoop
open P2PNetwork.Events
open P2PNetwork.Manager
open P2PNetwork.PeerActor

/-! ## What a report rests on -/

/-- The manager knows its tasks by their ids, and the peers pass on nothing but
messages. -/
structure Regular (system : System) : Prop where
  tasks : TasksKnown system.next system.manager.registry
  drops : ∀ turn, system.manager = .running turn → DropsOnly turn
  inbound : ∀ item ∈ system.fromPeers, ∃ peerid message,
    item.event = .readyLowMessage peerid message
  speaks : ∀ task turn, system.peers task = .looping turn →
    ∃ peerid, SpeaksFor peerid turn

section Regular

variable {before after : System} {label : Label} {self : PeerManager}

theorem Regular.initial (nonce : UInt64) : Regular (.initial nonce) where
  tasks := .create 0 nonce
  drops turn hturn := by
    cases hturn
    trivial
  inbound item hitem := by cases hitem
  speaks task turn hturn := by cases hturn

theorem Regular.setPeer (hregular : Regular before) (task : TaskId)
    {peer : PeerPhase}
    (hspeaks : ∀ turn, peer = .looping turn → ∃ peerid, SpeaksFor peerid turn) :
    Regular (before.setPeer task peer) :=
  { hregular with
    speaks := fun other turn hturn => by
      by_cases hother : other = task
      · subst hother
        exact hspeaks turn (by simpa [System.setPeer] using hturn)
      · exact hregular.speaks other turn
          (by simpa [System.setPeer, hother] using hturn) }

/-- A peer takes up its next input. -/
theorem Regular.turnPeer (hregular : Regular before) (task : TaskId)
    (input : PeerInput) (peer : Peer) :
    Regular (before.setPeer task (.looping (PeerActor.turn input peer))) := by
  apply hregular.setPeer task
  intro turn hturn
  cases hturn
  exact ⟨peer.peerid, turn_speaksFor rfl input⟩

/-- A send of a peer is answered. -/
theorem Regular.resumePeer (hregular : Regular before) {task : TaskId}
    {peer : Peer} {send : PeerSend} {resume : Bool → PeerTurn}
    (hpeer : before.peers task = .looping (.issue peer send resume))
    (delivered : Bool) :
    Regular (before.setPeer task (.looping (resume delivered))) := by
  apply hregular.setPeer task
  intro turn hturn
  cases hturn
  obtain ⟨peerid, hspeaks⟩ := hregular.speaks task _ hpeer
  exact ⟨peerid, hspeaks.2 delivered⟩

theorem Regular.peerStep (hregular : Regular before)
    (hstep : PeerStep before label after) : Regular after := by
  cases hstep with
  | command hpeer hqueue => exact { hregular.turnPeer _ _ _ with }
  | commandClosed hpeer hqueue hclosed => exact hregular.turnPeer _ _ _
  | subtask hpeer hinput => exact hregular.turnPeer _ _ _
  | @send task self event resume hpeer hopen hroom =>
      refine { hregular.resumePeer hpeer true with inbound := ?_ }
      intro item hitem
      rw [List.mem_append, List.mem_singleton] at hitem
      obtain hitem | rfl := hitem
      · exact hregular.inbound item hitem
      · obtain ⟨peerid, hspeaks⟩ := hregular.speaks task _ hpeer
        exact ⟨peerid, hspeaks.1.2 event rfl⟩
  | sendClosed hpeer hclosed => exact hregular.resumePeer hpeer false
  | write hpeer delivered => exact hregular.resumePeer hpeer delivered
  | finish hpeer read write => exact hregular.setPeer _ nofun
  | panic hpeer => exact hregular.setPeer _ nofun

theorem Regular.tasks_of (hregular : Regular before) {phase : ManagerPhase}
    (hmanager : before.manager = phase) :
    TasksKnown before.next phase.registry :=
  hmanager ▸ hregular.tasks

/-- A send of the manager is answered. -/
theorem Regular.resumed (hregular : Regular before) {send : ManagerSend}
    {resume : Bool → ManagerTurn}
    (hmanager : before.manager = .running (.issue self send resume))
    (delivered : Bool) :
    TasksKnown before.next (resume delivered).state ∧
      DropsOnly (resume delivered) := by
  have htasks := hregular.tasks_of hmanager
  have hdrops := hregular.drops _ hmanager
  refine ⟨?_, hdrops.resume delivered⟩
  apply hdrops.answered htasks
  exact fun _ => ⟨htasks.spawned, htasks.known⟩

theorem Regular.speaks_spawn (hregular : Regular before)
    (peer : Option Peer) (task : TaskId) (turn : PeerTurn)
    (hturn : spawnPeer before.peers before.next peer task = .looping turn) :
    ∃ peerid, SpeaksFor peerid turn := by
  cases peer with
  | none => exact hregular.speaks task turn hturn
  | some peer =>
      by_cases htask : task = before.next
      · subst htask
        simp only [spawnPeer, Function.update_self, PeerPhase.looping.injEq]
          at hturn
        exact ⟨peer.peerid, hturn ▸ rfl⟩
      · exact hregular.speaks task turn (by simpa [spawnPeer, htask] using hturn)

theorem Regular.managerStep (hregular : Regular before)
    (hstep : ManagerStep before label after) : Regular after := by
  have hdrops {next : TaskId} {input : ManagerInput} {self : PeerManager} :
      ∀ turn, ManagerPhase.running (PeerManager.turn next input self) =
        .running turn → DropsOnly turn := by
    intro turn hturn
    cases hturn
    exact turn_dropsOnly input
  cases hstep with
  | take hmanager hexternal =>
      have htasks := hregular.tasks_of hmanager
      exact { hregular with
        tasks := (turn_external hexternal).tasksKnown htasks
        drops := hdrops
        speaks := hregular.speaks_spawn _ }
  | protocol hmanager hqueue =>
      refine { hregular with tasks := ?_, drops := hdrops }
      simp only [ManagerPhase.registry, (turn_protocol _).state_eq]
      exact hregular.tasks_of hmanager
  | protocolClosed hmanager hqueue hclosed =>
      have htasks := hregular.tasks_of hmanager
      exact { hregular with tasks := htasks, drops := hdrops }
  | peer hmanager hqueue =>
      refine { hregular with tasks := ?_, drops := hdrops, inbound := ?_ }
      · simp only [ManagerPhase.registry, turn_peer_state]
        exact hregular.tasks_of hmanager
      · intro item hitem
        exact hregular.inbound item (hqueue ▸ List.mem_cons_of_mem _ hitem)
  | @join self task outcome hmanager htask hfinished =>
      have htasks : TasksKnown before.next self :=
        hregular.tasks_of hmanager
      refine { hregular with tasks := ?_, drops := hdrops }
      simp only [ManagerPhase.registry, turn_joined (htasks.known task htask)]
      exact htasks.complited task
  | send hmanager hopen hroom =>
      obtain ⟨htasks, hdrops⟩ := hregular.resumed hmanager true
      refine ⟨?_, ?_, ?_, ?_⟩
      · rw [System.next_deliver]
        exact htasks
      · rintro turn ⟨⟩
        exact hdrops
      · rw [System.fromPeers_deliver]
        exact hregular.inbound
      · rw [System.peers_deliver]
        exact hregular.speaks
  | sendClosed hmanager hclosed =>
      obtain ⟨htasks, hdrops⟩ := hregular.resumed hmanager false
      refine { hregular with tasks := htasks, drops := ?_ }
      rintro turn ⟨⟩
      exact hdrops
  | leave hmanager | disconnect hmanager | disconnectClosed hmanager
  | disconnected hmanager | finish hmanager =>
      have htasks := hregular.tasks_of hmanager
      exact { hregular with tasks := htasks, drops := nofun }
  | @drain self incident task outcome hmanager htask hfinished =>
      have htasks : TasksKnown before.next self := hregular.tasks_of hmanager
      refine { hregular with tasks := ?_, drops := nofun }
      simp only [ManagerPhase.registry, drainPeer_joined (htasks.known task htask)]
      exact htasks.complited task

theorem Regular.step (hregular : Regular before)
    (hstep : Step before label after) : Regular after := by
  cases hstep with
  | manager hstep => exact hregular.managerStep hstep
  | handle hstep => cases hstep <;> exact { hregular with }
  | peer hstep => exact hregular.peerStep hstep

end Regular

/-! ## Each guard -/

section Guards

variable {before after : System} {label : Label}

theorem connectTurn_awaits {task : TaskId} {self : PeerManager}
    {peer : Peer} {turn : ManagerTurn}
    (hturn : ConnectTurn task self (some peer) turn) :
    ∃ event, (ManagerPhase.running turn).awaits = some (.toProtocol event) := by
  cases hturn with
  | accepted => exact ⟨_, rfl⟩

theorem protocolTurn_awaits {self : PeerManager} {peerid : PeerId}
    {turn : ManagerTurn} (hturn : ProtocolTurn self peerid turn)
    {entry : PeerSystemMetadata}
    (hentry : self.setAllPeers.lookup peerid = some entry) :
    ∃ command, (ManagerPhase.running turn).awaits =
      some (.toPeer entry.txChannelPeermanagerToPeer command) := by
  cases hturn with
  | missing hmissing =>
      rw [hmissing] at hentry
      cases hentry
  | entry hentry' hresume =>
      rw [hentry', Option.some.injEq] at hentry
      exact ⟨_, by rw [← hentry]; rfl⟩

/-- A report into a full channel. -/
theorem Regular.report_blocks (hregular : Regular before)
    (hstep : Step before label after) (hreports : Reports label)
    (hfull : channelCapacity ≤ before.toProtocol.length)
    (hhandle : before.HandleWaits) : after.BlockingCycle := by
  cases hstep with
  | manager hstep =>
      cases hstep with
      | @take self input hmanager hexternal =>
          obtain ⟨peer, hspawned⟩ := spawned_of_accepts hreports self
          have hturn := @turn_external self before.next input hexternal
          rw [hspawned] at hturn
          exact .inl ⟨⟨connectTurn_awaits hturn, hfull⟩, hhandle⟩
      | @peer self item rest hmanager hqueue =>
          obtain ⟨peerid, message, hitem⟩ :=
            hregular.inbound item (hqueue ▸ List.mem_cons_self)
          rw [hitem]
          exact .inl ⟨⟨⟨_, rfl⟩, hfull⟩, hhandle⟩
      | @join self task outcome hmanager htask hfinished =>
          have hknown : self.setIdPeers.lookup task.id = some task.peerid :=
            (hregular.tasks_of hmanager).known task htask
          refine .inl ⟨⟨⟨.incidentCompletedPeer task.peerid, ?_⟩, hfull⟩, hhandle⟩
          simp only [turn_joined hknown]
          rfl
      | _ => exact hreports.elim
  | handle hstep => cases hstep <;> exact hreports.elim
  | peer hstep => cases hstep <;> exact hreports.elim

/-- An event for a peer whose command channel is full. -/
theorem protocol_blocks (hstep : Step before .managerProtocol after)
    {item : Tagged EventsHandleMessage} (hitem : item ∈ before.fromProtocol.head?)
    {entry : PeerSystemMetadata}
    (hentry : entry ∈
      before.manager.registry.setAllPeers.lookup item.event.peerid)
    (hfull : channelCapacity ≤
      (before.commands entry.txChannelPeermanagerToPeer).length)
    (hpeer : before.PeerWaits entry.txChannelPeermanagerToPeer) :
    after.BlockingCycle := by
  cases hstep with
  | manager hstep =>
      cases hstep with
      | protocol hmanager hqueue =>
          rw [hqueue] at hitem
          cases hitem
          rw [hmanager] at hentry
          exact .inr ⟨_, ⟨protocolTurn_awaits (turn_protocol _) hentry, hfull⟩,
            hpeer⟩
      | protocolClosed hmanager hqueue hclosed =>
          rw [hqueue] at hitem
          cases hitem
  | handle hstep => cases hstep
  | peer hstep => cases hstep

/-- `bulk_peer_disconnection` may begin with any peer. -/
theorem leave_blocks (hstep : Step before .managerLeave after) {task : TaskId}
    (htask : task ∈ before.manager.registry.allTasks)
    (hfull : channelCapacity ≤ (before.commands task).length)
    (hpeer : before.PeerWaits task) :
    ∃ after', Step before .managerLeave after' ∧ after'.BlockingCycle := by
  cases hstep with
  | manager hstep =>
      cases hstep with
      | leave hmanager htasks =>
          rw [hmanager] at htask
          have hfirst := (List.perm_cons_erase htask).symm
          exact ⟨_, .manager (.leave hmanager hfirst),
            .inr ⟨task, ⟨⟨_, rfl⟩, hfull⟩, hpeer⟩⟩
  | handle hstep => cases hstep
  | peer hstep => cases hstep

theorem not_closed_of_peerWaits {system : System} {task : TaskId}
    {command : EventsPeerManager} (hpeer : system.PeerWaits task) :
    ¬ system.Closed (.toPeer task command) := by
  obtain ⟨⟨event, self, resume, hphase⟩, -⟩ := hpeer
  simp [System.Closed, hphase, PeerPhase.HasFinished]

/-- The next peer that `bulk_peer_disconnection` tells to shut down waits. -/
theorem disconnect_blocks (hstep : Step before .managerDisconnect after)
    {incident : EventsCriticalCompletionPeerManager} {self : PeerManager}
    {task task' : TaskId} {rest : List TaskId}
    (hmanager : before.manager = .disconnecting incident self (task :: task' :: rest))
    (hfull : channelCapacity ≤
      ((before.deliver (.toPeer task .shutdown)).commands task').length)
    (hpeer : before.PeerWaits task') : after.BlockingCycle := by
  cases hstep with
  | manager hstep =>
      cases hstep with
      | disconnect hdisconnecting hopen hroom =>
          rw [hmanager] at hdisconnecting
          cases hdisconnecting
          exact .inr ⟨task', ⟨⟨_, rfl⟩, hfull⟩, hpeer⟩
      | disconnectClosed hdisconnecting hclosed =>
          rw [hmanager] at hdisconnecting
          cases hdisconnecting
          have hother : task' ≠ task := by
            rintro rfl
            exact not_closed_of_peerWaits hpeer hclosed
          simp only [System.deliver, Function.update_of_ne hother] at hfull
          exact .inr ⟨task', ⟨⟨_, rfl⟩, hfull⟩, hpeer⟩
      | disconnected hdisconnecting =>
          rw [hmanager] at hdisconnecting
          cases hdisconnecting
  | handle hstep => cases hstep
  | peer hstep => cases hstep

/-- The first of two answers takes the last place. -/
theorem answer_blocks (hstep : Step before (.handleSend true) after)
    (hagain : AnswersAgain before.handle) (hmanager : before.WaitsForProtocol)
    (hlast : channelCapacity ≤ before.fromProtocol.length + 1) :
    after.BlockingCycle := by
  obtain ⟨self, event, resume, self', event', resume', hissue, hresume⟩ := hagain
  cases hstep with
  | manager hstep => cases hstep
  | handle hstep =>
      cases hstep with
      | send hhandle hopen hroom =>
          rw [hissue] at hhandle
          cases hhandle
          refine .inl ⟨hmanager, ⟨_, _, _, hresume⟩, ?_⟩
          rw [List.length_append, List.length_singleton]
          exact hlast
  | peer hstep => cases hstep

/-- A message that the peer cannot pass on. -/
theorem read_blocks {task : TaskId} {message : EventsTaskRead}
    (hstep : Step before (.peerSubtask task (.incidentTaskRead (some message)))
      after)
    (hmanager : before.WaitsForPeer task)
    (hfull : channelCapacity ≤ before.fromPeers.length) :
    after.BlockingCycle := by
  cases hstep with
  | manager hstep => cases hstep
  | handle hstep => cases hstep
  | peer hstep =>
      cases hstep with
      | @subtask _ self _ hpeer hinput =>
          cases message with
          | lowRawMessage message =>
              refine .inr ⟨task, hmanager, ?_, hfull⟩
              simp only [System.setPeer, Function.update_self]
              exact ⟨.readyLowMessage self.peerid message, self, _, rfl⟩

/-- Another peer's event takes the last place. -/
theorem send_blocks {task other : TaskId} {event : EventsPeer}
    (hstep : Step before (.peerSend task true) after) (hother : other ≠ task)
    (hmanager : before.WaitsForPeer other)
    (hsends : (before.peers other).Sends event)
    (hlast : channelCapacity ≤ before.fromPeers.length + 1) :
    after.BlockingCycle := by
  cases hstep with
  | manager hstep => cases hstep
  | handle hstep => cases hstep
  | peer hstep =>
      cases hstep with
      | send hpeer hopen hroom =>
          refine .inr ⟨other, hmanager, ⟨event, ?_⟩, ?_⟩
          · simpa [System.setPeer, hother] using hsends
          · rw [List.length_append, List.length_singleton]
            exact hlast

/-- A step that no choice can take into a blocking cycle meets the guards. -/
theorem Regular.startsNoCycle (hregular : Regular before)
    (hstep : Step before label after)
    (hsafe : ∀ after', Step before label after' → ¬ after'.BlockingCycle) :
    StartsNoCycle before label where
  report hreports hfull hhandle :=
    hsafe after hstep (hregular.report_blocks hstep hreports hfull hhandle)
  protocol hlabel item hitem entry hentry hfull hpeer := by
    subst hlabel
    exact hsafe after hstep (protocol_blocks hstep hitem hentry hfull hpeer)
  leave hlabel task htask hfull hpeer := by
    subst hlabel
    obtain ⟨after', hleave, hcycle⟩ := leave_blocks hstep htask hfull hpeer
    exact hsafe after' hleave hcycle
  disconnect hlabel _ _ _ _ _ hmanager hfull hpeer := by
    subst hlabel
    exact hsafe after hstep (disconnect_blocks hstep hmanager hfull hpeer)
  answer hlabel hagain hmanager := by
    subst hlabel
    by_contra hlast
    exact hsafe after hstep
      (answer_blocks hstep hagain hmanager (not_lt.mp hlast))
  read _ _ hlabel hmanager := by
    subst hlabel
    by_contra hfull
    exact hsafe after hstep (read_blocks hstep hmanager (not_lt.mp hfull))
  send _ _ _ hlabel hother hmanager hsends := by
    subst hlabel
    by_contra hlast
    exact hsafe after hstep
      (send_blocks hstep hother hmanager hsends (not_lt.mp hlast))

end Guards

/-- In a reachable state without a blocking cycle, a step that can be taken
meets the guards exactly when it cannot end in a blocking cycle. -/
theorem startsNoCycle_iff {nonce : UInt64} {labels : List Label}
    {before after : System} {label : Label}
    (run : Run Step (.initial nonce) labels before)
    (hbefore : ¬ before.BlockingCycle) (hstep : Step before label after) :
    StartsNoCycle before label ↔
      ∀ after', Step before label after' → ¬ after'.BlockingCycle := by
  have hpeers : PeersInOrder before :=
    run.invariant PeersInOrder (.initial nonce) fun _ _ _ horder hstep =>
      horder.step hstep
  have hmanager : ManagerInOrder before :=
    run.invariant ManagerInOrder (.initial nonce) fun _ _ _ horder hstep =>
      horder.step hstep
  have hregular : Regular before :=
    run.invariant Regular (.initial nonce) fun _ _ _ hregular hstep =>
      hregular.step hstep
  have hunblocked : Unblocked before := ⟨hpeers, hmanager, hbefore⟩
  constructor
  · intro hstart after' hstep'
    exact (hunblocked.step hstart hstep').cycle
  · exact hregular.startsNoCycle hstep

end P2PNetwork.Runtime
