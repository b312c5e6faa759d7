import P2PNetwork.Runtime.Orphans

/-!
# A hang is for good

In a blocking cycle and in a stuck shutdown the parties wait for each other,
and nobody else gives way: neither an order to shut down nor the end of another
task frees them.  As long as no task panics the manager takes up nothing any
more and the process does not return.
-/

namespace P2PNetwork.Supervision

open P2PNetwork.EventLoop
open P2PNetwork.Events
open P2PNetwork.Manager
open P2PNetwork.Runtime (HandleStep HasLeft ManagerPhase ManagerStep PeerPhase
  PeerStep StuckShutdown System flooded greetedTables message_run punishingTurn
  punishingTurn_eq punish_run report_run reporting reporting_run)
open P2PNetwork.ThreadNetwork (EventsCriticalCompletionThreadNetwork)

/-- No task panics.  The task of a peer ends after it has left its loop. -/
def NoPanic (process : Process) : Label → Prop
  | .panicLooplisten | .panicPeermanager | .panicHandlemessage => False
  | .node (.peerEnd task) => (process.node.peers task).LeftLoop
  | _ => True

/-- The manager takes up something in its loop. -/
def TakesUp : Label → Prop
  | .node (.managerTake _) | .node .managerProtocol | .node .managerPeer
  | .node (.managerJoin _) => True
  | _ => False

/-- `LoopListen` has not panicked. -/
def LoopListenPhase.Calm : LoopListenPhase → Prop
  | .binding => True
  | .running turn => turn.Yields fun flow => flow ≠ .panicked

/-- The network thread is in its loop, or it waits for the manager to return. -/
def Process.NetworkHolds (process : Process) : Prop :=
  process.network = .supervising ∨ ∃ incident rest,
    process.network = .closing incident rest ∧
      .toPeermanager .shutdown ∈ ThreadNetwork.shutdownSends incident

/-- The protocol thread is in its loop, or it waits for `HandleMessage` to
return. -/
def Process.ProtocolHolds (process : Process) : Prop :=
  process.protocol = .supervising ∨ ∃ incident rest,
    process.protocol = .closing incident rest ∧
      .shutdown ∈ ThreadProtocol.shutdownSends incident

/-- The manager and one of its partners wait for each other. -/
inductive Hung (process : Process) : Prop where
  | protocol (hprotocol : process.ProtocolHolds)
      (hmanager : process.node.WaitsForProtocol)
      (hhandle : process.node.HandleWaits)
  | peer {task : TaskId} (hmanager : process.node.WaitsForPeer task)
      (hpeer : process.node.PeerWaits task)
  | shutdown {task : TaskPeer} (hmanager : process.node.manager.Closing)
      (htask : task ∈ process.node.manager.registry.setTaskPeers)
      (hpeer : process.node.PeerWaits task.id)

/-- A hang in a process whose network thread does not give the manager up. -/
structure Held (process : Process) : Prop where
  network : process.NetworkHolds
  looplisten : process.looplisten.Calm
  hung : Hung process

/-! ## The tasks of the node -/

section Node

variable {before after : System} {label : Runtime.Label}

theorem not_hasLeft_of_waits (hhandle : before.HandleWaits) :
    ¬ HasLeft before.handle := by
  obtain ⟨⟨self, event, resume, hissue⟩, -⟩ := hhandle
  rw [hissue]
  exact id

theorem not_hasFinished_of_sends {peer : PeerPhase} {event : EventsPeer}
    (hsends : peer.Sends event) : ¬ peer.HasFinished := by
  obtain ⟨self, resume, rfl⟩ := hsends
  exact id

/-- A manager in a send that nobody takes makes no step. -/
theorem not_managerStep_of_awaits {send : ManagerSend}
    (hawaits : before.manager.awaits = some send) (hopen : ¬ before.Closed send)
    (hfull : ¬ before.HasRoom send) : ¬ ManagerStep before label after := by
  intro hstep
  cases hstep with
  | send hmanager _ hroom | disconnect hmanager _ hroom =>
      rw [hmanager] at hawaits
      cases hawaits
      exact hfull hroom
  | sendClosed hmanager hclosed | disconnectClosed hmanager hclosed =>
      rw [hmanager] at hawaits
      cases hawaits
      exact hopen hclosed
  | take hmanager | protocol hmanager | protocolClosed hmanager | peer hmanager
  | join hmanager | leave hmanager | disconnected hmanager | drain hmanager
  | finish hmanager =>
      rw [hmanager] at hawaits
      cases hawaits

/-- `HandleMessage` in a send that nobody takes makes no step. -/
theorem not_handleStep_of_waits (hhandle : before.HandleWaits)
    (halive : ¬ before.manager.HasFinished) :
    ¬ HandleStep before label after := by
  intro hstep
  obtain ⟨⟨self, event, resume, hissue⟩, hfull⟩ := hhandle
  cases hstep with
  | send _ _ hroom => exact absurd hroom (not_lt.mpr hfull)
  | sendClosed _ hclosed => exact halive hclosed
  | threadProtocol hphase | peermanager hphase | peermanagerClosed hphase =>
      rw [hissue] at hphase
      cases hphase

/-- A peer in a send that nobody takes stays in it, whatever the other peers
do. -/
theorem PeerStep.peerWaits (hstep : PeerStep before label after) {task : TaskId}
    (hpeer : before.PeerWaits task) (halive : ¬ before.manager.HasFinished)
    (hends : label ≠ .peerEnd task) :
    after.PeerWaits task ∧ after.commands task = before.commands task := by
  obtain ⟨⟨event, self, resume, hphase⟩, hfull⟩ := hpeer
  have hset {other : TaskId} (peer : PeerPhase) (hother : task ≠ other) :
      (before.setPeer other peer).PeerWaits task := by
    refine ⟨⟨event, self, resume, ?_⟩, hfull⟩
    simpa [System.setPeer, hother] using hphase
  cases hstep with
  | @command other _ _ _ hturn =>
      have hother : task ≠ other := by
        rintro rfl
        rw [hphase] at hturn
        cases hturn
      exact ⟨hset _ hother, by simp [hother]⟩
  | @commandClosed other _ hturn | @subtask other _ _ hturn
  | @write other _ _ _ hturn =>
      have hother : task ≠ other := by
        rintro rfl
        rw [hphase] at hturn
        cases hturn
      exact ⟨hset _ hother, rfl⟩
  | @finish other | @panic other =>
      have hother : task ≠ other := by
        rintro rfl
        exact hends rfl
      exact ⟨hset _ hother, rfl⟩
  | send _ _ hroom => exact absurd hroom (not_lt.mpr hfull)
  | sendClosed _ hclosed => exact absurd hclosed halive

/-- A manager that shuts down does not free a peer in a send to it. -/
theorem closing_managerStep {task : TaskPeer} (hmanager : before.manager.Closing)
    (htask : task ∈ before.manager.registry.setTaskPeers)
    (hpeer : before.PeerWaits task.id)
    (hstep : ManagerStep before label after) :
    after.manager.Closing ∧ task ∈ after.manager.registry.setTaskPeers ∧
      after.PeerWaits task.id := by
  obtain ⟨⟨event, hsends⟩, hfull⟩ := hpeer
  cases hstep with
  | disconnect hphase =>
      rw [hphase] at htask
      exact ⟨trivial, htask, ⟨event, by simpa using hsends⟩, by simpa using hfull⟩
  | disconnectClosed hphase | disconnected hphase =>
      rw [hphase] at htask
      exact ⟨trivial, htask, ⟨event, hsends⟩, hfull⟩
  | @drain self incident other outcome hphase hother hfinished =>
      rw [hphase] at htask
      have hne : task ≠ other := by
        rintro rfl
        exact not_hasFinished_of_sends hsends (by rw [hfinished]; trivial)
      refine ⟨trivial, ?_, ⟨event, hsends⟩, hfull⟩
      simp only [ManagerPhase.registry, Runtime.drainPeer_tasks]
      exact (List.mem_erase_of_ne hne).mpr htask
  | finish hphase hnone =>
      rw [hphase] at htask
      simp [ManagerPhase.registry, hnone] at htask
  | take hphase | protocol hphase | protocolClosed hphase | peer hphase
  | join hphase | send hphase | sendClosed hphase | leave hphase =>
      rw [hphase] at hmanager
      exact hmanager.elim

theorem not_managerStep_protocolCycle (hmanager : before.WaitsForProtocol)
    (hhandle : before.HandleWaits) : ¬ ManagerStep before label after := by
  obtain ⟨⟨event, hawaits⟩, hfull⟩ := hmanager
  exact not_managerStep_of_awaits hawaits (not_hasLeft_of_waits hhandle)
    (not_lt.mpr hfull)

theorem not_managerStep_peerCycle {task : TaskId}
    (hmanager : before.WaitsForPeer task) (hpeer : before.PeerWaits task) :
    ¬ ManagerStep before label after := by
  obtain ⟨⟨command, hawaits⟩, hfull⟩ := hmanager
  obtain ⟨⟨event, hsends⟩, -⟩ := hpeer
  exact not_managerStep_of_awaits hawaits (not_hasFinished_of_sends hsends)
    (not_lt.mpr hfull)

/-- A manager that shuts down takes up nothing. -/
theorem not_takesUp_closing (hmanager : before.manager.Closing)
    (htakes : TakesUp (.node label)) : ¬ ManagerStep before label after := by
  intro hstep
  cases hstep with
  | take hphase | protocol hphase | protocolClosed hphase | peer hphase
  | join hphase =>
      rw [hphase] at hmanager
      exact hmanager
  | _ => exact htakes

/-- Only the manager takes up something. -/
theorem not_takesUp_handleStep (hstep : HandleStep before label after) :
    ¬ TakesUp (.node label) := by
  cases hstep <;> exact id

theorem not_takesUp_peerStep (hstep : PeerStep before label after) :
    ¬ TakesUp (.node label) := by
  cases hstep <;> exact id

theorem handleStep_frame (hstep : HandleStep before label after) :
    after.manager = before.manager ∧ after.peers = before.peers ∧
      after.commands = before.commands ∧ after.fromPeers = before.fromPeers := by
  cases hstep <;> exact ⟨rfl, rfl, rfl, rfl⟩

end Node

/-! ## The process -/

section Steps

variable {before after : Process} {label : Label}

theorem Hung.alive (hhung : Hung before) :
    ¬ before.node.manager.HasFinished := by
  cases hhung with
  | protocol _ hmanager =>
      obtain ⟨event, hawaits⟩ := hmanager.1
      exact not_hasFinished_of_awaits hawaits
  | peer hmanager =>
      obtain ⟨command, hawaits⟩ := hmanager.1
      exact not_hasFinished_of_awaits hawaits
  | shutdown hmanager => exact hmanager.not_hasFinished

theorem Hung.congr (hhung : Hung before) (hnode : after.node = before.node)
    (hprotocol : before.ProtocolHolds → after.ProtocolHolds) : Hung after := by
  cases hhung with
  | protocol hholds hmanager hhandle =>
      rw [← hnode] at hmanager hhandle
      exact .protocol (hprotocol hholds) hmanager hhandle
  | peer hmanager hpeer =>
      rw [← hnode] at hmanager hpeer
      exact .peer hmanager hpeer
  | shutdown hmanager htask hpeer =>
      rw [← hnode] at hmanager htask hpeer
      exact .shutdown hmanager htask hpeer

/-- A hung manager takes up nothing. -/
theorem Hung.not_takesUp (hhung : Hung before) {own : Runtime.Label}
    {node : System} (htakes : TakesUp (.node own)) :
    ¬ ManagerStep before.node own node := by
  cases hhung with
  | protocol _ hmanager hhandle =>
      exact not_managerStep_protocolCycle hmanager hhandle
  | peer hmanager hpeer => exact not_managerStep_peerCycle hmanager hpeer
  | shutdown hmanager => exact not_takesUp_closing hmanager htakes

theorem Hung.managerStep (hhung : Hung before) {own : Runtime.Label}
    (hstep : ManagerStep before.node own after.node) : Hung after := by
  cases hhung with
  | protocol _ hmanager hhandle =>
      exact (not_managerStep_protocolCycle hmanager hhandle hstep).elim
  | peer hmanager hpeer =>
      exact (not_managerStep_peerCycle hmanager hpeer hstep).elim
  | shutdown hmanager htask hpeer =>
      obtain ⟨hclosing, hmem, hwaits⟩ :=
        closing_managerStep hmanager htask hpeer hstep
      exact .shutdown hclosing hmem hwaits

theorem Hung.handleStep (hhung : Hung before) {own : Runtime.Label}
    (hstep : HandleStep before.node own after.node) : Hung after := by
  have halive := hhung.alive
  obtain ⟨hphase, hpeers, hcommands, hqueue⟩ := handleStep_frame hstep
  cases hhung with
  | protocol _ hmanager hhandle =>
      exact (not_handleStep_of_waits hhandle halive hstep).elim
  | @peer task hmanager hpeer =>
      refine @Hung.peer after task ?_ ?_
      · rw [System.WaitsForPeer, hphase, hcommands]
        exact hmanager
      · rw [System.PeerWaits, hpeers, hqueue]
        exact hpeer
  | @shutdown task hmanager htask hpeer =>
      refine @Hung.shutdown after task ?_ ?_ ?_
      · rw [hphase]
        exact hmanager
      · rw [hphase]
        exact htask
      · rw [System.PeerWaits, hpeers, hqueue]
        exact hpeer

theorem PeerStep.protocol_frame {system system' : System}
    {own : Runtime.Label} (hstep : PeerStep system own system') :
    system'.toProtocol = system.toProtocol ∧
      system'.fromProtocol = system.fromProtocol := by
  cases hstep <;> exact ⟨rfl, rfl⟩

theorem Hung.peerStep (hhung : Hung before) {own : Runtime.Label}
    (hstep : PeerStep before.node own after.node)
    (hprotocol : before.ProtocolHolds → after.ProtocolHolds)
    (hpanic : NoPanic before (.node own)) : Hung after := by
  have halive := hhung.alive
  have hends {task : TaskId} (hpeer : before.node.PeerWaits task) :
      own ≠ .peerEnd task := by
    rintro rfl
    obtain ⟨⟨event, self, resume, hphase⟩, -⟩ := hpeer
    simp only [NoPanic, hphase] at hpanic
    exact hpanic
  cases hhung with
  | protocol hholds hmanager hhandle =>
      obtain ⟨htoProtocol, hfromProtocol⟩ := PeerStep.protocol_frame hstep
      refine .protocol (hprotocol hholds) ?_ ?_
      · rw [System.WaitsForProtocol, hstep.manager_eq, htoProtocol]
        exact hmanager
      · rw [System.HandleWaits, hstep.handle_eq, hfromProtocol]
        exact hhandle
  | peer hmanager hpeer =>
      obtain ⟨hwaits, hcommands⟩ :=
        PeerStep.peerWaits hstep hpeer halive (hends hpeer)
      refine .peer ?_ hwaits
      rw [System.WaitsForPeer, hstep.manager_eq, hcommands]
      exact hmanager
  | shutdown hmanager htask hpeer =>
      obtain ⟨hwaits, -⟩ := PeerStep.peerWaits hstep hpeer halive (hends hpeer)
      refine .shutdown ?_ ?_ hwaits
      · rw [hstep.manager_eq]
        exact hmanager
      · rw [hstep.manager_eq]
        exact htask

/-! ## The threads -/

theorem ProtocolHolds.congr (hholds : before.ProtocolHolds)
    (hprotocol : after.protocol = before.protocol) : after.ProtocolHolds := by
  unfold Process.ProtocolHolds at hholds ⊢
  rwa [hprotocol]

theorem NetworkHolds.congr (hholds : before.NetworkHolds)
    (hnetwork : after.network = before.network) : after.NetworkHolds := by
  unfold Process.NetworkHolds at hholds ⊢
  rwa [hnetwork]

theorem joined_ok_of_calm {looplisten : LoopListenPhase}
    {result : ThreadNetwork.StateTaskLooplisten}
    (hjoined : LooplistenJoined looplisten result) (hcalm : looplisten.Calm) :
    ∃ value, result = .ok value := by
  obtain ⟨hturn⟩ := hjoined
  cases hturn with
  | ended state hends =>
      cases hends with
      | returned value => exact ⟨value, rfl⟩
      | panicked reason => exact absurd rfl hcalm

/-- A thread that has told the manager to shut down waits for it. -/
theorem hasFinished_of_complited
    {incident : EventsCriticalCompletionThreadNetwork}
    {result : Except ThreadNetwork.ErrorThreadNetwork Unit}
    (hsends : .toPeermanager .shutdown ∈ ThreadNetwork.shutdownSends incident)
    (hcomplited : ThreadNetwork.Complited (PeermanagerJoined before.node.manager)
      (LooplistenJoined before.looplisten) incident result) :
    before.node.manager.HasFinished := by
  cases hcomplited with
  | confirmationShutdown hpeermanager | channelInitClosed hpeermanager
  | complitedLoopListen hpeermanager => exact hpeermanager.hasFinished
  | complitedPeerManager | joinHandlePeerManager | joinHandleLoopListen =>
      simp [ThreadNetwork.shutdownSends] at hsends

theorem NetworkHolds.of_closing
    {incident : EventsCriticalCompletionThreadNetwork}
    {rest : List ThreadNetwork.ThreadNetworkSend} (hholds : before.NetworkHolds)
    (hclosing : before.network = .closing incident rest) :
    .toPeermanager .shutdown ∈ ThreadNetwork.shutdownSends incident := by
  obtain hsupervising | ⟨incident', rest', hphase, hsends⟩ := hholds
  · rw [hclosing] at hsupervising
    cases hsupervising
  · rw [hclosing] at hphase
    cases hphase
    exact hsends

/-- The network thread does not give up a manager that has not returned. -/
theorem NetworkStep.holds (hstep : NetworkStep before label after)
    (hholds : before.NetworkHolds) (hcalm : before.looplisten.Calm)
    (halive : ¬ before.node.manager.HasFinished) :
    after.NetworkHolds ∧ after.node = before.node ∧
      after.looplisten = before.looplisten := by
  cases hstep with
  | built hphase | buildFailed hphase | ended hphase =>
      simp [Process.NetworkHolds, hphase] at hholds
  | init | initClosed =>
      exact ⟨.inr ⟨_, _, rfl, List.mem_cons_self⟩, rfl, rfl⟩
  | peermanager hphase hjoined => exact absurd hjoined.hasFinished halive
  | looplisten hphase hjoined =>
      obtain ⟨value, rfl⟩ := joined_ok_of_calm hjoined hcalm
      exact ⟨.inr ⟨_, _, rfl, List.mem_cons_self⟩, rfl, rfl⟩
  | send hphase =>
      have hsends := NetworkHolds.of_closing hholds hphase
      exact ⟨.inr ⟨_, _, rfl, hsends⟩, by simp, by simp⟩
  | sendClosed hphase =>
      have hsends := NetworkHolds.of_closing hholds hphase
      exact ⟨.inr ⟨_, _, rfl, hsends⟩, rfl, rfl⟩
  | complited hphase hcomplited =>
      have hsends := NetworkHolds.of_closing hholds hphase
      exact absurd (hasFinished_of_complited hsends hcomplited) halive

/-- The protocol thread does not give up a `HandleMessage` in its loop. -/
theorem ProtocolStep.holds (hstep : ProtocolStep before label after)
    (hholds : before.ProtocolHolds) (hhandle : ¬ HasLeft before.node.handle) :
    after.ProtocolHolds ∧ after.node = before.node := by
  cases hstep with
  | built hphase | buildFailed hphase | ended hphase =>
      simp [Process.ProtocolHolds, hphase] at hholds
  | init | initClosed => exact ⟨.inr ⟨_, _, rfl, List.mem_cons_self⟩, rfl⟩
  | handlemessage hphase hjoined => exact absurd hjoined.hasLeft hhandle
  | send hphase | sendClosed hphase =>
      obtain hsupervising | ⟨incident, rest, hclosing, hsends⟩ := hholds
      · simp [hphase] at hsupervising
      · rw [hphase] at hclosing
        cases hclosing
        exact ⟨.inr ⟨_, _, rfl, hsends⟩, rfl⟩
  | complited hphase hcomplited =>
      obtain hsupervising | ⟨incident, rest, hclosing, hsends⟩ := hholds
      · simp [hphase] at hsupervising
      · rw [hphase] at hclosing
        cases hclosing
        cases hcomplited with
        | confirmationShutdown hjoined | channelInitClosed hjoined =>
            exact absurd hjoined.hasLeft hhandle
        | complitedHandleMessage | joinHandleHandleMessage =>
            simp [ThreadProtocol.shutdownSends] at hsends

/-- A step of the protocol thread frees nobody. -/
theorem Hung.protocolStep (hhung : Hung before)
    (hstep : ProtocolStep before label after) : Hung after := by
  cases hhung with
  | protocol hholds hmanager hhandle =>
      obtain ⟨hafter, hnode⟩ :=
        ProtocolStep.holds hstep hholds (not_hasLeft_of_waits hhandle)
      exact (Hung.protocol hholds hmanager hhandle).congr hnode fun _ => hafter
  | @peer task hmanager hpeer =>
      cases hstep <;> exact @Hung.peer _ task hmanager hpeer
  | @shutdown task hmanager htask hpeer =>
      cases hstep <;> exact @Hung.shutdown _ task hmanager htask hpeer

theorem LoopListenStep.calm (hstep : LoopListenStep before label after)
    (hcalm : before.looplisten.Calm) : after.looplisten.Calm := by
  cases hstep with
  | bind _ _ result => cases result <;> simp [LoopListenPhase.Calm, LoopListen.bound]
  | accept _ _ result =>
      cases result with
      | ok connection =>
          intro delivered
          cases delivered <;> simp
      | error reason => simp [LoopListenPhase.Calm, LoopListen.turn]
  | @thread event => cases event <;> simp [LoopListenPhase.Calm, LoopListen.turn]
  | send _ hphase | sendClosed _ hphase =>
      rw [hphase] at hcalm
      exact hcalm _

/-- As long as no task panics, a hang lasts. -/
theorem Held.step (hheld : Held before) (hpanic : NoPanic before label)
    (hstep : Step before label after) : Held after := by
  obtain ⟨hnetwork, hcalm, hhung⟩ := hheld
  cases hstep with
  | init hstep =>
      obtain ⟨hthread, hprotocol, hlooplisten, hnode⟩ := hstep.frame
      exact ⟨NetworkHolds.congr hnetwork hthread, hlooplisten ▸ hcalm,
        hhung.congr hnode fun hholds => ProtocolHolds.congr hholds hprotocol⟩
  | network hstep =>
      obtain ⟨hholds, hnode, hlooplisten⟩ :=
        NetworkStep.holds hstep hnetwork hcalm hhung.alive
      refine ⟨hholds, hlooplisten ▸ hcalm, hhung.congr hnode fun hprotocol => ?_⟩
      apply ProtocolHolds.congr hprotocol
      cases hstep with
      | send => simp
      | _ => rfl
  | protocol hstep =>
      refine ⟨?_, ?_, hhung.protocolStep hstep⟩
      · apply NetworkHolds.congr hnetwork
        cases hstep <;> rfl
      · cases hstep <;> exact hcalm
  | looplisten hstep =>
      refine ⟨?_, LoopListenStep.calm hstep hcalm, ?_⟩
      · apply NetworkHolds.congr hnetwork
        cases hstep <;> rfl
      · apply hhung.congr
        · cases hstep <;> rfl
        · intro hholds
          apply ProtocolHolds.congr hholds
          cases hstep <;> rfl
  | node hstep =>
      obtain ⟨hthread, hprotocol, hlooplisten⟩ := hstep.frame
      obtain ⟨own, rfl, htask⟩ := hstep.task_step
      refine ⟨NetworkHolds.congr hnetwork hthread, hlooplisten ▸ hcalm, ?_⟩
      cases htask with
      | manager _ hstep => exact hhung.managerStep hstep
      | peer _ hstep =>
          exact hhung.peerStep hstep
            (fun hholds => ProtocolHolds.congr hholds hprotocol) hpanic
      | handle _ hstep => exact hhung.handleStep hstep
  | panic hstep => cases hstep <;> exact hpanic.elim

theorem Held.not_takesUp (hheld : Held before) (hstep : Step before label after) :
    ¬ TakesUp label := by
  intro htakes
  cases hstep with
  | node hstep =>
      obtain ⟨own, rfl, htask⟩ := hstep.task_step
      cases htask with
      | manager _ hstep => exact hheld.hung.not_takesUp htakes hstep
      | peer _ hstep => exact not_takesUp_peerStep hstep htakes
      | handle _ hstep => exact not_takesUp_handleStep hstep htakes
  | init hstep => cases hstep <;> exact htakes
  | network hstep => cases hstep <;> exact htakes
  | protocol hstep => cases hstep <;> exact htakes
  | looplisten hstep => cases hstep <;> exact htakes
  | panic hstep => cases hstep <;> exact htakes

/-! ## What no panic breaks -/

/-- The task of a thread that is not in `block_on` is not in a send, and a thread
that closes has an order for its task, unless the task has ended. -/
structure Intact (process : Process) : Prop where
  looplisten : ¬ process.network.HasEnded → process.looplisten.Calm
  manager : ¬ process.network.Runs → process.node.manager.HasFinished ∨
    ∃ self, process.node.manager = .running (.done self .next)
  network : ∀ incident rest, process.network = .closing incident rest →
    process.node.manager.HasFinished ∨
      .toPeermanager .shutdown ∈ ThreadNetwork.shutdownSends incident
  handle : ¬ process.protocol.Runs → HasLeft process.node.handle ∨
    ∃ self, process.node.handle = .done self .next
  protocol : ∀ incident rest, process.protocol = .closing incident rest →
    HasLeft process.node.handle ∨
      .shutdown ∈ ThreadProtocol.shutdownSends incident

theorem Intact.initial (nonce : UInt64) : Intact (.initial nonce) where
  looplisten _ := trivial
  manager _ := .inr ⟨_, rfl⟩
  network incident rest hclosing := by cases hclosing
  handle _ := .inr ⟨_, rfl⟩
  protocol incident rest hclosing := by cases hclosing

theorem Intact.congr (hintact : Intact before)
    (hnetwork : after.network = before.network)
    (hprotocol : after.protocol = before.protocol)
    (hlooplisten : after.looplisten = before.looplisten)
    (hmanager : after.node.manager = before.node.manager)
    (hhandle : after.node.handle = before.node.handle) : Intact after where
  looplisten := by
    rw [hnetwork, hlooplisten]
    exact hintact.looplisten
  manager := by
    rw [hnetwork, hmanager]
    exact hintact.manager
  network := by
    rw [hnetwork, hmanager]
    exact hintact.network
  handle := by
    rw [hprotocol, hhandle]
    exact hintact.handle
  protocol := by
    rw [hprotocol, hhandle]
    exact hintact.protocol

theorem Intact.networkStep (hintact : Intact before)
    (hstep : NetworkStep before label after) : Intact after := by
  cases hstep with
  | built hphase =>
      exact { hintact with
        looplisten := fun _ => hintact.looplisten (by rw [hphase]; exact id)
        manager := fun hidle => absurd trivial hidle
        network := by rintro _ _ ⟨⟩ }
  | buildFailed hphase =>
      exact { hintact with
        looplisten := fun _ => hintact.looplisten (by rw [hphase]; exact id)
        manager := fun _ => hintact.manager (by rw [hphase]; exact id)
        network := by rintro _ _ ⟨⟩ }
  | init hphase | initClosed hphase =>
      exact { hintact with
        looplisten := fun _ => hintact.looplisten (by rw [hphase]; exact id)
        manager := fun hidle => absurd trivial hidle
        network := by
          rintro _ _ ⟨⟩
          exact .inr List.mem_cons_self }
  | peermanager hphase hjoined =>
      exact { hintact with
        looplisten := fun _ => hintact.looplisten (by rw [hphase]; exact id)
        manager := fun hidle => absurd trivial hidle
        network := fun _ _ _ => .inl hjoined.hasFinished }
  | looplisten hphase hjoined =>
      have hcalm := hintact.looplisten (by rw [hphase]; exact id)
      obtain ⟨value, rfl⟩ := joined_ok_of_calm hjoined hcalm
      exact { hintact with
        looplisten := fun _ => hcalm
        manager := fun hidle => absurd trivial hidle
        network := by
          rintro _ _ ⟨⟩
          exact .inr List.mem_cons_self }
  | send hphase =>
      have hcalm := hintact.looplisten (by rw [hphase]; exact id)
      have hsends := hintact.network _ _ hphase
      constructor
      · intro hopen
        simpa using hcalm
      · exact fun hidle => absurd trivial hidle
      · rintro _ _ ⟨⟩
        simpa using hsends
      · simpa using hintact.handle
      · simpa using hintact.protocol
  | sendClosed hphase =>
      exact { hintact with
        looplisten := fun _ => hintact.looplisten (by rw [hphase]; exact id)
        manager := fun hidle => absurd trivial hidle
        network := by
          rintro _ _ ⟨⟩
          exact hintact.network _ _ hphase }
  | complited hphase hcomplited =>
      have hfinished : before.node.manager.HasFinished := by
        obtain hfinished | hsends := hintact.network _ _ hphase
        · exact hfinished
        · exact hasFinished_of_complited hsends hcomplited
      exact { hintact with
        looplisten := fun _ => hintact.looplisten (by rw [hphase]; exact id)
        manager := fun _ => .inl hfinished
        network := by rintro _ _ ⟨⟩ }
  | ended =>
      exact { hintact with
        looplisten := fun hopen => absurd trivial hopen
        manager := fun _ => .inl (hasFinished_dropPeermanager _)
        network := by rintro _ _ ⟨⟩ }

theorem Intact.protocolStep (hintact : Intact before)
    (hstep : ProtocolStep before label after) : Intact after := by
  cases hstep with
  | built =>
      exact { hintact with
        handle := fun hidle => absurd trivial hidle
        protocol := by rintro _ _ ⟨⟩ }
  | buildFailed hphase =>
      exact { hintact with
        handle := fun _ => hintact.handle (by rw [hphase]; exact id)
        protocol := by rintro _ _ ⟨⟩ }
  | init | initClosed =>
      exact { hintact with
        handle := fun hidle => absurd trivial hidle
        protocol := by
          rintro _ _ ⟨⟩
          exact .inr List.mem_cons_self }
  | handlemessage hphase hjoined =>
      exact { hintact with
        handle := fun hidle => absurd trivial hidle
        protocol := fun _ _ _ => .inl hjoined.hasLeft }
  | send hphase | sendClosed hphase =>
      exact { hintact with
        handle := fun hidle => absurd trivial hidle
        protocol := by
          rintro _ _ ⟨⟩
          exact hintact.protocol _ _ hphase }
  | complited hphase hcomplited =>
      have hleft : HasLeft before.node.handle := by
        obtain hleft | hsends := hintact.protocol _ _ hphase
        · exact hleft
        · cases hcomplited with
          | confirmationShutdown hjoined | channelInitClosed hjoined =>
              exact hjoined.hasLeft
          | complitedHandleMessage | joinHandleHandleMessage =>
              simp [ThreadProtocol.shutdownSends] at hsends
      exact { hintact with
        handle := fun _ => .inl hleft
        protocol := by rintro _ _ ⟨⟩ }
  | ended =>
      exact { hintact with
        handle := fun _ => .inl (hasLeft_dropTurn _)
        protocol := by rintro _ _ ⟨⟩ }

theorem Intact.nodeStep (hintact : Intact before)
    (hstep : NodeStep before label after) : Intact after := by
  obtain ⟨hnetwork, hprotocol, hlooplisten⟩ := hstep.frame
  obtain ⟨own, -, htask⟩ := hstep.task_step
  cases htask with
  | manager hruns hstep =>
      constructor
      · rw [hnetwork, hlooplisten]
        exact hintact.looplisten
      · rw [hnetwork]
        exact fun hidle => absurd hruns hidle
      · intro incident rest hclosing
        obtain hfinished | hsends := hintact.network incident rest (hnetwork ▸ hclosing)
        · exact absurd hfinished hstep.not_finished
        · exact .inr hsends
      · rw [hprotocol, hstep.handle_eq]
        exact hintact.handle
      · rw [hprotocol, hstep.handle_eq]
        exact hintact.protocol
  | peer _ hstep =>
      exact hintact.congr hnetwork hprotocol hlooplisten hstep.manager_eq
        hstep.handle_eq
  | handle hruns hstep =>
      constructor
      · rw [hnetwork, hlooplisten]
        exact hintact.looplisten
      · rw [hnetwork, hstep.manager_eq]
        exact hintact.manager
      · rw [hnetwork, hstep.manager_eq]
        exact hintact.network
      · rw [hprotocol]
        exact fun hidle => absurd hruns hidle
      · intro incident rest hclosing
        obtain hleft | hsends := hintact.protocol incident rest (hprotocol ▸ hclosing)
        · exact absurd hleft (not_hasLeft_of_handleStep hstep)
        · exact .inr hsends

theorem Intact.step (hintact : Intact before) (hpanic : NoPanic before label)
    (hstep : Step before label after) : Intact after := by
  cases hstep with
  | init hstep =>
      obtain ⟨hnetwork, hprotocol, hlooplisten, hnode⟩ := hstep.frame
      exact hintact.congr hnetwork hprotocol hlooplisten (by rw [hnode])
        (by rw [hnode])
  | network hstep => exact hintact.networkStep hstep
  | protocol hstep => exact hintact.protocolStep hstep
  | looplisten hstep =>
      have hcalm (hopen : ¬ after.network.HasEnded) : after.looplisten.Calm := by
        apply LoopListenStep.calm hstep
        apply hintact.looplisten
        cases hstep <;> exact hopen
      cases hstep <;> exact { hintact with looplisten := hcalm }
  | node hstep => exact hintact.nodeStep hstep
  | panic hstep => cases hstep <;> exact hpanic.elim

theorem Intact.networkHolds (hintact : Intact before)
    (halive : ¬ before.node.manager.HasFinished)
    (hbusy : ∀ self, before.node.manager ≠ .running (.done self .next)) :
    before.NetworkHolds := by
  have hidle (hstopped : ¬ before.network.Runs) : False := by
    obtain hfinished | ⟨self, hmanager⟩ := hintact.manager hstopped
    · exact halive hfinished
    · exact hbusy self hmanager
  cases hnetwork : before.network with
  | supervising => exact .inl hnetwork
  | closing incident rest =>
      exact .inr ⟨incident, rest, hnetwork,
        (hintact.network incident rest hnetwork).resolve_left halive⟩
  | starting | leaving | ended => exact (hidle (by rw [hnetwork]; exact id)).elim

theorem Intact.protocolHolds (hintact : Intact before)
    (hhandle : before.node.HandleWaits) : before.ProtocolHolds := by
  have hopen := not_hasLeft_of_waits hhandle
  have hidle (hstopped : ¬ before.protocol.Runs) : False := by
    obtain hleft | ⟨self, hdone⟩ := hintact.handle hstopped
    · exact hopen hleft
    · obtain ⟨⟨_, _, _, hissue⟩, -⟩ := hhandle
      rw [hdone] at hissue
      cases hissue
  cases hprotocol : before.protocol with
  | supervising => exact .inl hprotocol
  | closing incident rest =>
      exact .inr ⟨incident, rest, hprotocol,
        (hintact.protocol incident rest hprotocol).resolve_left hopen⟩
  | starting | leaving | ended => exact (hidle (by rw [hprotocol]; exact id)).elim

theorem Intact.held (hintact : Intact before)
    (hbusy : ∀ self, before.node.manager ≠ .running (.done self .next))
    (hhung : Hung before) : Held before := by
  have hholds := hintact.networkHolds hhung.alive hbusy
  refine ⟨hholds, hintact.looplisten ?_, hhung⟩
  obtain hphase | ⟨incident, rest, hphase, -⟩ := hholds <;> rw [hphase] <;> exact id

end Steps

/-! ## Runs -/

section Runs

variable {nonce : UInt64} {labels later : List Label} {process last : Process}

theorem Held.not_returned (run : Run Step (.initial nonce) labels process)
    (hheld : Held process) : ¬ process.main.HasReturned := by
  intro hreturned
  have hjoined := (accounted_run run).main
  cases hmain : process.main with
  | returned result =>
      simp only [JoinedByMain, hmain] at hjoined
      obtain ⟨network, protocol, hended, -, -⟩ := hjoined
      have hnetwork := hheld.network
      simp [Process.NetworkHolds, hended] at hnetwork
  | _ => simp [hmain, MainPhase.HasReturned] at hreturned

/-- Without a panic every blocking cycle and every stuck shutdown that is reached
is held. -/
theorem held_of_hang (run : Run (Restrict Step NoPanic) (.initial nonce) labels process)
    (hhang : process.node.BlockingCycle ∨ StuckShutdown process.node) :
    Held process := by
  have hintact := run.invariant Intact (.initial nonce) fun _ _ _ hbefore hstep =>
    hbefore.step hstep.1 hstep.2
  have hbusy {send : ManagerSend}
      (hawaits : process.node.manager.awaits = some send) (self : PeerManager) :
      process.node.manager ≠ .running (.done self .next) := by
    intro hmanager
    rw [hmanager] at hawaits
    cases hawaits
  obtain (⟨hmanager, hhandle⟩ | ⟨task, hmanager, hpeer⟩) | ⟨hclosing, task, event,
    hsends, hfull⟩ := hhang
  · obtain ⟨_, hawaits⟩ := hmanager.1
    exact hintact.held (hbusy hawaits)
      (.protocol (hintact.protocolHolds hhandle) hmanager hhandle)
  · obtain ⟨_, hawaits⟩ := hmanager.1
    exact hintact.held (hbusy hawaits) (.peer hmanager hpeer)
  · obtain ⟨self, resume, hpeer⟩ := hsends
    have horphans := (noOrphans_run run.of_restrict).held task _ hpeer
    obtain ⟨handle, hhandle, rfl⟩ := List.mem_map.mp horphans
    refine hintact.held ?_
      (.shutdown hclosing hhandle ⟨⟨event, self, resume, hpeer⟩, hfull⟩)
    intro other hmanager
    rw [hmanager] at hclosing
    exact hclosing

/-- A reachable hang is for good: as long as no task panics, the process does
not return, and the manager takes up nothing any more. -/
theorem hang_forever (run : Run Step (.initial nonce) labels process)
    (hheld : Held process)
    (hlater : Run (Restrict Step NoPanic) process later last) :
    Held last ∧ ¬ last.main.HasReturned ∧ ∀ label ∈ later, ¬ TakesUp label := by
  have hlast := hlater.invariant Held hheld fun _ _ _ hbefore hstep =>
    hbefore.step hstep.1 hstep.2
  refine ⟨hlast, hlast.not_returned (run.trans hlater.of_restrict), ?_⟩
  exact hlater.forall_labels Held hheld
    (fun _ _ _ hbefore hstep => hbefore.step hstep.1 hstep.2)
    fun _ _ _ hbefore hstep => hbefore.not_takesUp hstep.2

end Runs

/-! ## A flood -/

/-- The node takes the step without a thread or `LoopListen`. -/
def Unaided : Runtime.Label → Prop
  | .managerTake _ | .handleThreadProtocol _ => False
  | _ => True

theorem atWork_run {system system' : System} {labels : List Runtime.Label}
    (run : Run Runtime.Step system labels system')
    (hunaided : ∀ label ∈ labels, Unaided label) :
    Run Step (atWork system) (labels.map .node) (atWork system') := by
  have hnetwork {system : System} : (atWork system).network.Runs := trivial
  have hprotocol {system : System} : (atWork system).protocol.Runs := trivial
  induction run with
  | refl => exact .refl _
  | @tail middle last labels label run hstep ih =>
      rw [List.map_append, List.map_singleton]
      have hlabel := hunaided label (by simp)
      refine (ih fun other hother => hunaided other (by simp [hother])).tail ?_
      cases hstep with
      | manager hstep =>
          refine .node (.manager hnetwork hstep ?_)
          rintro input rfl
          exact hlabel
      | handle hstep =>
          refine .node (.handle hprotocol hstep ?_)
          rintro incident rfl
          exact hlabel
      | peer hstep => exact .node (.peer hnetwork hstep)

theorem violations_atWork {violations : ℕ}
    (hviolations : violations ≤ channelCapacity) : ∃ labels,
      Run Step (.initial 0) labels
        (atWork (flooded (.done greetedTables .next) violations 0)) := by
  induction violations with
  | zero => exact greeted_run
  | succ violations ih =>
      obtain ⟨labels, run⟩ := ih (by omega)
      have hmessage := atWork_run (@message_run (.done greetedTables .next)
        not_false violations 0 (Nat.zero_lt_succ _)) (by simp [Unaided])
      have hpunished := atWork_run (punish_run violations) (by simp [Unaided])
      have hreported := atWork_run (@report_run violations (by omega))
        (by simp [Unaided])
      exact ⟨_, ((run.trans hmessage).trans hpunished).trans hreported⟩

theorem messages_atWork {messages : ℕ} (hmessages : messages ≤ channelCapacity) :
    ∃ labels, Run Step (.initial 0) labels
      (atWork (flooded punishingTurn channelCapacity messages)) := by
  induction messages with
  | zero =>
      obtain ⟨labels, run⟩ := violations_atWork le_rfl
      have hmessage := atWork_run (@message_run (.done greetedTables .next)
        not_false channelCapacity 0 (Nat.zero_lt_succ _)) (by simp [Unaided])
      have hpunished := atWork_run (punish_run channelCapacity)
        (by simp [Unaided])
      exact ⟨_, (run.trans hmessage).trans hpunished⟩
  | succ messages ih =>
      obtain ⟨labels, run⟩ := ih (by omega)
      have hmessage := atWork_run (@message_run punishingTurn not_false
        channelCapacity messages (by omega)) (by simp [Unaided])
      exact ⟨_, run.trans hmessage⟩

/-- One peer floods the listening node with veracks until the manager and
`HandleMessage` wait for each other, and from then on nothing but a panic ends the
process. -/
theorem hang_forever_flood : ∃ labels process,
    Run Step (.initial 0) labels process ∧
      process.network = .supervising ∧ process.protocol = .supervising ∧
      process.node.WaitsForProtocol ∧ process.node.HandleWaits ∧
      ∀ later last, Run (Restrict Step NoPanic) process later last →
        ¬ last.main.HasReturned ∧ ∀ label ∈ later, ¬ TakesUp label := by
  obtain ⟨labels, run⟩ := messages_atWork le_rfl
  have hflooded := run.trans (atWork_run (reporting_run punishingTurn
    channelCapacity channelCapacity) (by simp [Unaided]))
  have hmanager : (reporting punishingTurn channelCapacity
      channelCapacity).WaitsForProtocol :=
    ⟨⟨_, rfl⟩, by simp [reporting, flooded]⟩
  have hhandle : (reporting punishingTurn channelCapacity
      channelCapacity).HandleWaits :=
    ⟨⟨_, _, _, punishingTurn_eq⟩, by simp [reporting, flooded]⟩
  have hheld : Held (atWork (reporting punishingTurn channelCapacity
      channelCapacity)) :=
    ⟨.inl rfl, by simp [atWork, listening, LoopListenPhase.Calm],
      .protocol (.inl rfl) hmanager hhandle⟩
  exact ⟨_, _, hflooded, rfl, rfl, hmanager, hhandle, fun _ _ hlater =>
    (hang_forever hflooded hheld hlater).2⟩

end P2PNetwork.Supervision
