import P2PNetwork.Runtime.Process

/-!
# No waiting on a dead half

A failed build of a runtime and a panic of `HandleMessage` are not reported to
`main`.  The process still does not wait for a thread that has ended: its end
drops the ends of its channels, the task at the other end leaves its loop when
it finds them closed, and `main` finds its own channel closed when nobody is
left to report.
-/

namespace P2PNetwork.Supervision

open P2PNetwork.EventLoop
open P2PNetwork.Events
open P2PNetwork.Handler
open P2PNetwork.Handshake
open P2PNetwork.Manager
open P2PNetwork.Runtime (HandleStep HasLeft ManagerPhase ManagerStep System)

/-! ## Waiting on a dead half -/

/-- The steps that the node makes by itself.  What the subtasks of a peer do,
and how long the peer waits for them, is up to the outside world. -/
def NodeInternal : Runtime.Label → Prop
  | .peerSubtask _ _ | .peerWrite _ _ | .peerEnd _ => False
  | _ => True

/-- The steps that the process makes by itself: neither an answer of the
operating system nor a panic. -/
def Internal : Label → Prop
  | .init | .threadNetwork | .threadProtocol => True
  | .looplistenThread | .looplistenSend _ => True
  | .node label => NodeInternal label
  | _ => False

namespace Process

/-- No task and no thread is in a send to a full channel whose receiver is
alive. -/
structure Unsuspended (process : Process) : Prop where
  manager : ∀ send, process.node.manager.awaits = some send →
    ¬ process.node.Closed send → process.node.HasRoom send
  handle : ∀ self event resume, process.node.handle = .issue self event resume →
    ¬ process.node.manager.HasFinished →
      process.node.fromProtocol.length < channelCapacity
  peers : ∀ task event, (process.node.peers task).Sends event →
    ¬ process.node.manager.HasFinished →
      process.node.fromPeers.length < channelCapacity
  looplisten : ∀ event resume,
    process.looplisten = .running (.issue () event resume) →
      ¬ process.node.manager.HasFinished →
        process.looplistenToPeermanager.length < channelCapacity
  network : ∀ incident send rest,
    process.network = .closing incident (send :: rest) →
      ¬ process.Closed send → process.HasRoom send
  protocol : ∀ incident event rest,
    process.protocol = .closing incident (event :: rest) →
      ¬ HasLeft process.node.handle →
        process.protocolToHandlemessage.length < channelCapacity

/-- A task of the network thread is in its event loop.  The manager is not
draining its peers, which it is assumed to finish. -/
def NetworkInLoop (process : Process) : Prop :=
  (¬ process.node.manager.HasFinished ∨ ¬ process.looplisten.HasEnded) ∧
    ¬ process.node.manager.Closing

/-- `HandleMessage` is in its event loop. -/
def ProtocolInLoop (process : Process) : Prop := ¬ HasLeft process.node.handle

/-- One of the threads has ended while the other supervises a task in its event
loop, or `main` is in its receive loop and both have ended. -/
def WaitsOnDeadHalf (process : Process) : Prop :=
  (process.network.HasEnded ∧ process.protocol = .supervising ∧
      process.ProtocolInLoop) ∨
    (process.protocol.HasEnded ∧ process.network = .supervising ∧
      process.NetworkInLoop) ∨
    (process.network.HasEnded ∧ process.protocol.HasEnded ∧
      process.main = .receiving)

end Process

/-! ## The manager does not panic by itself -/

/-- However its sends are answered, the turn does not end in a panic. -/
def Calm (turn : ManagerTurn) : Prop :=
  turn.Holds (fun ghost _ _ => ghost) (fun _ _ _ => True)
    (fun _ _ flow => flow ≠ .panicked) ()

section Calm

variable {self : PeerManager} {task : TaskId}

theorem calm_next : Calm (.done self .next) := by simp [Calm]

theorem calm_leave (incident : EventsCriticalCompletionPeerManager) :
    Calm (.done self (.leave incident)) := by simp [Calm]

theorem notifyProtocol_calm (event : EventsPeerManager) :
    Calm (self.notifyProtocol event) := by
  refine ⟨trivial, fun delivered => ?_⟩
  cases delivered
  · exact calm_leave _
  · exact calm_next

theorem newConnection_calm (socket : TcpStream) (address : Wire.SocketAddr)
    (typeConnect : TypeConnection) :
    Calm (self.newConnection task socket address typeConnect) := by
  simp only [PeerManager.newConnection]
  split
  · exact notifyProtocol_calm _
  · exact calm_next

theorem protocolTurn_calm {peerid : PeerId} {turn : ManagerTurn}
    (hturn : ProtocolTurn self peerid turn) : Calm turn := by
  cases hturn with
  | missing => exact calm_next
  | entry hentry hresume =>
      refine ⟨trivial, fun delivered => ?_⟩
      obtain hdone | hdone := hresume delivered
      · exact hdone ▸ calm_next
      · exact hdone ▸ calm_next

theorem turn_calm (input : ManagerInput) :
    Calm (PeerManager.turn task input self) := by
  cases input with
  | incidentThreadNetwork connect incident =>
      rcases incident with _ | ⟨address⟩ | _
      · cases connect <;> exact calm_leave _
      · cases connect with
        | ok socket => exact newConnection_calm _ _ _
        | error reason => exact calm_next
      · cases connect <;> exact calm_leave _
  | incidentLooplisten incident =>
      cases incident with
      | none => exact calm_leave _
      | some event => exact newConnection_calm _ _ _
  | incidentProtocol incident =>
      cases incident with
      | none => exact calm_leave _
      | some event => exact protocolTurn_calm (turn_protocol event)
  | incidentPeer incident =>
      cases incident with
      | none => exact notifyProtocol_calm _
      | some event =>
          obtain hdone | ⟨_, _, -, hturn⟩ := turn_peer event
          · exact hdone ▸ calm_next
          · exact hturn ▸ notifyProtocol_calm _
  | resultPeer result =>
      obtain hdone | ⟨_, hturn⟩ := turn_result result
      · exact hdone ▸ calm_next
      · exact hturn ▸ notifyProtocol_calm _

end Calm

/-! ## What is gone when a thread has ended -/

/-- The tasks of a thread that has ended are gone, and with them the ends of
their channels. -/
structure EndsDropped (process : Process) : Prop where
  network : process.network.HasEnded →
    process.node.manager.HasFinished ∧ process.looplisten.HasEnded
  protocol : process.protocol.HasEnded → HasLeft process.node.handle
  calm : ∀ turn, process.node.manager = .running turn → Calm turn

theorem EndsDropped.initial (nonce : UInt64) : EndsDropped (.initial nonce) where
  network hended := hended.elim
  protocol hended := hended.elim
  calm := by
    rintro turn ⟨⟩
    exact calm_next

theorem hasLeft_dropTurn {σ ε ζ ρ : Type} (turn : Await σ ε ζ (Flow ρ)) :
    HasLeft (dropTurn turn) := by
  rcases turn with ⟨_, _ | _ | _⟩ | _ <;> trivial

theorem hasEnded_dropLooplisten (looplisten : LoopListenPhase) :
    (dropLooplisten looplisten).HasEnded := by
  cases looplisten with
  | binding => trivial
  | running turn => exact hasLeft_dropTurn turn

theorem hasFinished_dropPeermanager (manager : ManagerPhase) :
    (dropPeermanager manager).HasFinished := by
  cases manager <;> trivial

section Steps

variable {before after : Process} {label : Label}

theorem not_hasEnded_of_runs {incident send error : Type}
    {thread : ThreadPhase incident send error} (hruns : thread.Runs) :
    ¬ thread.HasEnded := by
  cases thread <;> simp_all [ThreadPhase.Runs, ThreadPhase.HasEnded]

theorem calm_dropPeermanager {manager : ManagerPhase} {turn : ManagerTurn}
    (hmanager : dropPeermanager manager = .running turn) : Calm turn := by
  cases manager <;> cases hmanager

theorem EndsDropped.networkStep (hdropped : EndsDropped before)
    (hstep : NetworkStep before label after) : EndsDropped after := by
  cases hstep with
  | ended hleaving =>
      exact {
        network := fun _ => ⟨hasFinished_dropPeermanager _,
          hasEnded_dropLooplisten _⟩
        protocol := hdropped.protocol
        calm := fun _ hmanager => calm_dropPeermanager hmanager }
  | send hclosing hopen hroom =>
      refine ⟨fun hended => hended.elim, ?_, ?_⟩
      · simpa using hdropped.protocol
      · simpa using hdropped.calm
  | _ =>
      exact ⟨fun hended => hended.elim, hdropped.protocol, hdropped.calm⟩

theorem EndsDropped.protocolStep (hdropped : EndsDropped before)
    (hstep : ProtocolStep before label after) : EndsDropped after := by
  cases hstep with
  | ended hleaving =>
      exact ⟨hdropped.network, fun _ => hasLeft_dropTurn _, hdropped.calm⟩
  | _ => exact ⟨hdropped.network, fun hended => hended.elim, hdropped.calm⟩

theorem EndsDropped.looplistenStep (hdropped : EndsDropped before)
    (hstep : LoopListenStep before label after) : EndsDropped after := by
  cases hstep <;>
    exact ⟨fun hended => absurd hended (not_hasEnded_of_runs (by assumption)),
      hdropped.protocol, hdropped.calm⟩

/-- An answered send of a calm turn leaves a calm rest. -/
theorem calm_managerStep {system system' : System} {label : Runtime.Label}
    (hcalm : ∀ turn, system.manager = .running turn → Calm turn)
    (hstep : ManagerStep system label system') :
    ∀ turn, system'.manager = .running turn → Calm turn := by
  cases hstep with
  | take | protocol | protocolClosed | peer | join =>
      rintro turn ⟨⟩
      exact turn_calm _
  | send hmanager hopen hroom =>
      rintro turn ⟨⟩
      exact (hcalm _ hmanager).2 true
  | sendClosed hmanager hclosed =>
      rintro turn ⟨⟩
      exact (hcalm _ hmanager).2 false
  | _ => exact fun _ hmanager => by cases hmanager

/-- A step of the manager in a runtime that runs. -/
theorem EndsDropped.managerStep (hdropped : EndsDropped before) {node : System}
    {label : Runtime.Label} (hruns : before.network.Runs)
    (hstep : ManagerStep before.node label node)
    (hnetwork : after.network = before.network)
    (hprotocol : after.protocol = before.protocol) (hnode : after.node = node) :
    EndsDropped after where
  network hended :=
    absurd (hnetwork ▸ hended) (not_hasEnded_of_runs hruns)
  protocol hended := by
    rw [hnode, hstep.handle_eq]
    exact hdropped.protocol (hprotocol ▸ hended)
  calm := by
    rw [hnode]
    exact calm_managerStep hdropped.calm hstep

/-- A step of `HandleMessage` in a runtime that runs. -/
theorem EndsDropped.handleStep (hdropped : EndsDropped before) {node : System}
    {label : Runtime.Label} (hruns : before.protocol.Runs)
    (hstep : HandleStep before.node label node)
    (hnetwork : after.network = before.network)
    (hlooplisten : after.looplisten = before.looplisten)
    (hprotocol : after.protocol = before.protocol) (hnode : after.node = node) :
    EndsDropped after where
  network hended := by
    rw [hnode, hlooplisten, hstep.manager_eq]
    exact hdropped.network (hnetwork ▸ hended)
  protocol hended :=
    absurd (hprotocol ▸ hended) (not_hasEnded_of_runs hruns)
  calm := by
    rw [hnode, hstep.manager_eq]
    exact hdropped.calm

theorem EndsDropped.nodeStep (hdropped : EndsDropped before)
    (hstep : NodeStep before label after) : EndsDropped after := by
  obtain ⟨hnetwork, hprotocol, hlooplisten⟩ := hstep.frame
  obtain ⟨own, -, htask⟩ := hstep.task_step
  cases htask with
  | manager hruns hstep =>
      exact hdropped.managerStep hruns hstep hnetwork hprotocol rfl
  | peer hruns hstep =>
      refine ⟨?_, ?_, ?_⟩
      · rw [hnetwork]
        exact fun hended => absurd hended (not_hasEnded_of_runs hruns)
      · rw [hprotocol, hstep.handle_eq]
        exact hdropped.protocol
      · rw [hstep.manager_eq]
        exact hdropped.calm
  | handle hruns hstep =>
      exact hdropped.handleStep hruns hstep hnetwork hlooplisten hprotocol rfl

theorem EndsDropped.panicStep (hdropped : EndsDropped before)
    (hstep : PanicStep before label after) : EndsDropped after := by
  cases hstep with
  | looplisten hruns hlooplisten =>
      exact ⟨fun hended => absurd hended (not_hasEnded_of_runs hruns),
        hdropped.protocol, hdropped.calm⟩
  | peermanager hruns hmanager =>
      exact ⟨fun hended => absurd hended (not_hasEnded_of_runs hruns),
        hdropped.protocol, fun _ hmanager => calm_dropPeermanager hmanager⟩
  | handlemessage hruns hhandle =>
      exact ⟨hdropped.network, fun _ => hasLeft_dropTurn _, hdropped.calm⟩

theorem EndsDropped.step (hdropped : EndsDropped before)
    (hstep : Step before label after) : EndsDropped after := by
  cases hstep with
  | init hstep =>
      obtain ⟨hnetwork, hprotocol, hlooplisten, hnode⟩ := hstep.frame
      refine ⟨?_, ?_, ?_⟩
      · rw [hnetwork, hlooplisten, hnode]
        exact hdropped.network
      · rw [hprotocol, hnode]
        exact hdropped.protocol
      · rw [hnode]
        exact hdropped.calm
  | network hstep => exact hdropped.networkStep hstep
  | protocol hstep => exact hdropped.protocolStep hstep
  | looplisten hstep => exact hdropped.looplistenStep hstep
  | node hstep => exact hdropped.nodeStep hstep
  | panic hstep => exact hdropped.panicStep hstep

theorem endsDropped_run {nonce : UInt64} {labels : List Label}
    {process : Process} (run : Run Step (.initial nonce) labels process) :
    EndsDropped process :=
  run.invariant EndsDropped (.initial nonce) fun _ _ _ hbefore hstep =>
    hbefore.step hstep

end Steps

/-! ## A process that waits for the outside world -/

/-- The process makes no step by itself, and nobody waits for a place in a
channel. -/
structure Waiting (process : Process) : Prop where
  quiescent : Quiescent Step Internal process
  unsuspended : process.Unsuspended

section Waiting

variable {process : Process}

/-- `HandleMessage` finds that the manager is gone. -/
theorem Waiting.handle_left (hwaiting : Waiting process)
    (hruns : process.protocol.Runs)
    (hgone : process.node.manager.HasFinished) :
    HasLeft process.node.handle := by
  have hstuck {label : Runtime.Label} {node : System}
      (hstep : HandleStep process.node label node)
      (hlabel : ∀ incident, label ≠ .handleThreadProtocol incident)
      (hinternal : NodeInternal label) : False :=
    hwaiting.quiescent (.node label) _ hinternal
      (.node (.handle hruns hstep hlabel))
  cases hhandle : process.node.handle with
  | done self flow =>
      cases flow with
      | next =>
          exfalso
          cases hqueue : process.node.toProtocol with
          | nil =>
              exact hstuck (.peermanagerClosed hhandle hqueue hgone (.ok 0))
                (by simp) trivial
          | cons item rest =>
              exact hstuck (.peermanager hhandle hqueue (.ok 0)) (by simp) trivial
      | leave | panicked => trivial
  | issue self event resume =>
      exact (hstuck (.sendClosed hhandle hgone) (by simp) trivial).elim

/-- The manager finds that `HandleMessage` is gone. -/
theorem Waiting.manager_left (hwaiting : Waiting process)
    (hdropped : EndsDropped process) (hruns : process.network.Runs)
    (hgone : HasLeft process.node.handle) :
    process.node.manager.HasFinished ∨ process.node.manager.Closing := by
  have hstuck {label : Runtime.Label} {node : System}
      (hstep : ManagerStep process.node label node)
      (hlabel : ∀ input, label ≠ .managerTake input)
      (hinternal : NodeInternal label) : False :=
    hwaiting.quiescent (.node label) _ hinternal
      (.node (.manager hruns hstep hlabel))
  cases hmanager : process.node.manager with
  | running turn =>
      exfalso
      cases turn with
      | done self flow =>
          cases flow with
          | next =>
              cases hqueue : process.node.fromProtocol with
              | nil =>
                  exact hstuck (.protocolClosed hmanager hqueue hgone) (by simp)
                    trivial
              | cons item rest =>
                  exact hstuck (.protocol hmanager hqueue) (by simp) trivial
          | leave incident =>
              exact hstuck (.leave hmanager (.refl _)) (by simp) trivial
          | panicked => exact hdropped.calm _ hmanager rfl
      | issue self send resume =>
          by_cases hclosed : process.node.Closed send
          · exact hstuck (.sendClosed hmanager hclosed) (by simp) trivial
          · have hroom := hwaiting.unsuspended.manager send
              (by rw [hmanager]; rfl) hclosed
            exact hstuck (.send hmanager hclosed hroom) (by simp) trivial
  | disconnecting | joining => exact .inr trivial
  | finished | dropped => exact .inl trivial

/-- The supervising protocol thread joins a task that has ended. -/
theorem Waiting.protocolInLoop (hwaiting : Waiting process)
    (hsupervising : process.protocol = .supervising) :
    process.ProtocolInLoop := by
  intro hleft
  obtain ⟨_, hjoined⟩ := joined_of_hasLeft hleft HandleMessage.criticalResult
  exact hwaiting.quiescent .threadProtocol _ trivial
    (.protocol (.handlemessage hsupervising hjoined))

theorem Waiting.manager_alive (hwaiting : Waiting process)
    (hsupervising : process.network = .supervising) :
    ¬ process.node.manager.HasFinished := by
  intro hfinished
  obtain ⟨_, hjoined⟩ := joined_of_hasFinished hfinished
  exact hwaiting.quiescent .threadNetwork _ trivial
    (.network (.peermanager hsupervising hjoined))

/-- `main` finds that nobody is left to report. -/
theorem Waiting.not_receiving (hwaiting : Waiting process)
    (hnetwork : process.network.HasEnded)
    (hprotocol : process.protocol.HasEnded) : process.main ≠ .receiving := by
  intro hmain
  cases hqueue : process.toInit with
  | nil =>
      exact hwaiting.quiescent .init _ trivial
        (.init (.closed hmain hqueue hnetwork hprotocol))
  | cons event rest =>
      exact hwaiting.quiescent .init _ trivial (.init (.receive hmain hqueue))

end Waiting

/-- In whatever order the tasks end and the builds fail, the process does not
come to rest waiting on a dead half. -/
theorem not_waitsOnDeadHalf {nonce : UInt64} {labels : List Label}
    {process : Process} (run : Run Step (.initial nonce) labels process)
    (hquiescent : Quiescent Step Internal process)
    (hunsuspended : process.Unsuspended) : ¬ process.WaitsOnDeadHalf := by
  have hdropped := endsDropped_run run
  have hwaiting : Waiting process := ⟨hquiescent, hunsuspended⟩
  rintro (⟨hnetwork, hprotocol, hloop⟩ | ⟨hprotocol, hnetwork, hloop⟩ |
    ⟨hnetwork, hprotocol, hmain⟩)
  · have hruns : process.protocol.Runs := by rw [hprotocol]; trivial
    exact hloop (hwaiting.handle_left hruns (hdropped.network hnetwork).1)
  · have hruns : process.network.Runs := by rw [hnetwork]; trivial
    obtain hfinished | hclosing :=
      hwaiting.manager_left hdropped hruns (hdropped.protocol hprotocol)
    · exact hwaiting.manager_alive hnetwork hfinished
    · exact hloop.2 hclosing
  · exact hwaiting.not_receiving hnetwork hprotocol hmain

/-! ## A build that fails -/

/-- When everything has ended, nothing moves. -/
theorem quiescent_of_returned {process : Process}
    (hnetwork : process.network.HasEnded) (hprotocol : process.protocol.HasEnded)
    (hmain : process.main.HasReturned) : Quiescent Step Internal process := by
  intro label next hinternal hstep
  cases hstep with
  | init hstep =>
      cases hstep <;> simp_all [MainPhase.HasReturned]
  | network hstep =>
      cases hstep <;> simp_all [ThreadPhase.HasEnded]
  | protocol hstep =>
      cases hstep <;> simp_all [ThreadPhase.HasEnded]
  | looplisten hstep =>
      cases hstep <;> exact not_hasEnded_of_runs (by assumption) hnetwork
  | node hstep =>
      cases hstep with
      | handle hruns | handleThread hruns =>
          exact not_hasEnded_of_runs hruns hprotocol
      | _ => exact not_hasEnded_of_runs (by assumption) hnetwork
  | panic hstep => cases hstep <;> exact hinternal

theorem EndsDropped.unsuspended {process : Process}
    (hdropped : EndsDropped process) (hnetwork : process.network.HasEnded)
    (hprotocol : process.protocol.HasEnded) : process.Unsuspended := by
  obtain ⟨hmanager, hlooplisten⟩ := hdropped.network hnetwork
  have hhandle := hdropped.protocol hprotocol
  exact {
    manager := by
      intro send hawaits
      rw [hmanager.awaits_eq] at hawaits
      cases hawaits
    handle := fun _ _ _ _ hopen => absurd hmanager hopen
    peers := fun _ _ _ hopen => absurd hmanager hopen
    looplisten := fun _ _ _ hopen => absurd hmanager hopen
    network := by
      intro incident send rest hclosing
      simp [hclosing, ThreadPhase.HasEnded] at hnetwork
    protocol := fun _ _ _ _ hopen => absurd hhandle hopen }

/-- The network thread has not got its runtime and is gone, which nobody has
reported. -/
def unbuilt : Process :=
  { Process.initial 0 with
    network := .ended (.error (.errorInputOutput { code := 24 }))
    looplisten := dropLooplisten .binding
    node := Process.dropManager (.initial 0) }

/-- `HandleMessage` finds its channel closed and the process ends. -/
theorem failedBuild_run : ∃ labels process,
    Run Step (.initial 0) labels process ∧
      process.network = .ended (.error (.errorInputOutput { code := 24 })) ∧
      process.protocol = .ended
        (.error (.errorHandleMessage .errorChannelPeerManagerClosed)) ∧
      process.main = .returned (.error (.errorThreadNetworkThreadProtocol
        (.ok (.errorInputOutput { code := 24 }))
        (.ok (.errorHandleMessage .errorChannelPeerManagerClosed)))) := by
  have hfailed : Step (.initial 0) (.buildNetwork (.error { code := 24 })) _ :=
    .network (.buildFailed rfl _)
  have hended : Run Step (.initial 0) _ unbuilt :=
    .tail (.tail (.refl _) hfailed) (.network (.ended rfl))
  have hbuilt := hended.tail (.protocol (.built rfl))
  have hgone : unbuilt.node.manager.HasFinished := trivial
  have hclosed : HandleStep unbuilt.node (.handlePeermanager (.ok 0)) _ :=
    .peermanagerClosed rfl rfl hgone (.ok 0)
  have hnoticed := hbuilt.tail (.node (.handle trivial hclosed (by simp)))
  have hjoined := hnoticed.tail
    (.protocol (.handlemessage rfl (.ended _ (.returned _))))
  have hreported := hjoined.tail
    (.protocol (.complited rfl .complitedHandleMessage))
  have hsettled := hreported.tail (.protocol (.ended rfl))
  have hreceived := hsettled.tail (.init (.receive rfl rfl))
  have hfirst := hreceived.tail (.init (.joinNetwork rfl rfl))
  have hsecond := hfirst.tail (.init (.joinProtocol rfl rfl))
  exact ⟨_, _, hsecond, rfl, rfl, rfl⟩

theorem not_waitsOnDeadHalf_failedBuild : ∃ labels process,
    Run Step (.initial 0) labels process ∧
      process.network = .ended (.error (.errorInputOutput { code := 24 })) ∧
      ¬ process.WaitsOnDeadHalf := by
  obtain ⟨labels, process, run, hnetwork, hprotocol, hmain⟩ := failedBuild_run
  have hnetworkEnded : process.network.HasEnded := by rw [hnetwork]; trivial
  have hprotocolEnded : process.protocol.HasEnded := by rw [hprotocol]; trivial
  have hreturned : process.main.HasReturned := by rw [hmain]; trivial
  exact ⟨labels, process, run, hnetwork, not_waitsOnDeadHalf run
    (quiescent_of_returned hnetworkEnded hprotocolEnded hreturned)
    ((endsDropped_run run).unsuspended hnetworkEnded hprotocolEnded)⟩

/-! ## The end of the network thread -/

section NetworkEnded

variable {process : Process}

theorem complited_of_joined {handlemessage : ThreadProtocol.StateHandlemessage → Prop}
    {state : ThreadProtocol.StateHandlemessage} (hstate : handlemessage state)
    (incident : ThreadProtocol.EventsCriticalCompletionThreadProtocol) :
    ∃ result reports,
      ThreadProtocol.Complited handlemessage incident result reports := by
  cases incident with
  | incidentConfirmationShutdown => exact ⟨_, _, .confirmationShutdown hstate⟩
  | incidentChannelInitClosed => exact ⟨_, _, .channelInitClosed hstate⟩
  | incidentComplitedHandleMessage result =>
      exact ⟨_, _, .complitedHandleMessage⟩
  | incidentJoinHandleHandleMessage reason =>
      exact ⟨_, _, .joinHandleHandleMessage⟩

/-- Once its runtime is built the protocol thread ends with `HandleMessage`. -/
theorem Waiting.protocol_ended (hwaiting : Waiting process)
    (hbuilt : process.protocol ≠ .starting)
    (hleft : process.protocol.Runs → HasLeft process.node.handle) :
    process.protocol.HasEnded := by
  cases hprotocol : process.protocol with
  | starting => exact absurd hprotocol hbuilt
  | supervising =>
      have hruns : process.protocol.Runs := by rw [hprotocol]; trivial
      exact absurd (hleft hruns) (hwaiting.protocolInLoop hprotocol)
  | closing incident rest =>
      have hgone : HasLeft process.node.handle := hleft (by rw [hprotocol]; trivial)
      exfalso
      cases rest with
      | nil =>
          obtain ⟨_, hjoined⟩ :=
            joined_of_hasLeft hgone HandleMessage.criticalResult
          obtain ⟨_, _, hcomplited⟩ := complited_of_joined hjoined incident
          exact hwaiting.quiescent .threadProtocol _ trivial
            (.protocol (.complited hprotocol hcomplited))
      | cons event rest =>
          exact hwaiting.quiescent .threadProtocol _ trivial
            (.protocol (.sendClosed hprotocol hgone))
  | leaving result =>
      exact (hwaiting.quiescent .threadProtocol _ trivial
        (.protocol (.ended hprotocol))).elim
  | ended result => trivial

theorem Waiting.main_returned (hwaiting : Waiting process)
    (hnetwork : process.network.HasEnded)
    (hprotocol : process.protocol.HasEnded) : process.main.HasReturned := by
  cases hmain : process.main with
  | receiving => exact absurd hmain (hwaiting.not_receiving hnetwork hprotocol)
  | joiningNetwork =>
      cases hphase : process.network with
      | ended result =>
          exact (hwaiting.quiescent .init _ trivial
            (.init (.joinNetwork hmain hphase))).elim
      | _ => simp [hphase, ThreadPhase.HasEnded] at hnetwork
  | joiningProtocol network =>
      cases hphase : process.protocol with
      | ended result =>
          exact (hwaiting.quiescent .init _ trivial
            (.init (.joinProtocol hmain hphase))).elim
      | _ => simp [hphase, ThreadPhase.HasEnded] at hprotocol
  | returned result => trivial

/-- When the network thread has ended, in whatever way, the process ends. -/
theorem returned_of_network_ended {nonce : UInt64} {labels : List Label}
    (run : Run Step (.initial nonce) labels process)
    (hquiescent : Quiescent Step Internal process)
    (hunsuspended : process.Unsuspended) (hnetwork : process.network.HasEnded)
    (hbuilt : process.protocol ≠ .starting) : process.main.HasReturned := by
  have hwaiting : Waiting process := ⟨hquiescent, hunsuspended⟩
  have hgone := ((endsDropped_run run).network hnetwork).1
  have hprotocol : process.protocol.HasEnded :=
    hwaiting.protocol_ended hbuilt fun hruns => hwaiting.handle_left hruns hgone
  exact hwaiting.main_returned hnetwork hprotocol

end NetworkEnded

end P2PNetwork.Supervision
