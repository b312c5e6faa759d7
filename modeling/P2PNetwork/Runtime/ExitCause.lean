import P2PNetwork.Runtime.ThreadResults

/-!
# Why the process ends

Nothing but a failure ends the process: nobody sends the first `Shutdown`, a
supervising thread leaves its loop for a task that has ended or on the word of
`main`, and `main` waits for the report of a thread.  Hence `main` does not
return `Ok`.
-/

namespace P2PNetwork.Supervision

open P2PNetwork.EventLoop
open P2PNetwork.Events
open P2PNetwork.Handler
open P2PNetwork.Handshake
open P2PNetwork.LoopListen
open P2PNetwork.Manager
open P2PNetwork.Runtime (HandleStep HasLeft ManagerPhase ManagerStep System)
open P2PNetwork.ThreadNetwork (ErrorThreadNetwork
  EventsCriticalCompletionThreadNetwork StateTaskLooplisten
  StateTaskPeermanager ThreadNetworkSend)
open P2PNetwork.ThreadProtocol (ErrorThreadProtocol
  EventsCriticalCompletionThreadProtocol StateHandlemessage)

/-! ## A turn does not return `Ok` by itself -/

/-- The turn does not end with a return of `Ok`. -/
def NotClean {ρ ε : Type} (result : ρ → Except ε Unit) : Flow ρ → Prop
  | .leave value => result value ≠ .ok ()
  | _ => True

section Turns

theorem notClean_next {ρ ε : Type} (result : ρ → Except ε Unit) :
    NotClean result .next := trivial

theorem notifyProtocol_yields {self : PeerManager} (event : EventsPeerManager) :
    (self.notifyProtocol event).Yields (NotClean PeerManager.criticalResult) := by
  intro delivered
  cases delivered
  · exact nofun
  · exact notClean_next _

theorem newConnection_yields {self : PeerManager} {task : TaskId}
    (socket : TcpStream) (address : Wire.SocketAddr)
    (typeConnect : TypeConnection) :
    (self.newConnection task socket address typeConnect).Yields
      (NotClean PeerManager.criticalResult) := by
  simp only [PeerManager.newConnection]
  split
  · exact notifyProtocol_yields _
  · exact notClean_next _

theorem protocolTurn_yields {self : PeerManager} {peerid : PeerId}
    {turn : ManagerTurn} (hturn : ProtocolTurn self peerid turn) :
    turn.Yields (NotClean PeerManager.criticalResult) := by
  cases hturn with
  | missing => exact notClean_next _
  | entry hentry hresume =>
      intro delivered
      obtain hdone | hdone := hresume delivered
      · exact hdone ▸ notClean_next _
      · exact hdone ▸ notClean_next _

/-- Only the `Shutdown` of the network thread makes the manager return `Ok`. -/
theorem managerTurn_yields {self : PeerManager} {task : TaskId}
    {input : ManagerInput}
    (hinput : ∀ connect,
      input ≠ .incidentThreadNetwork connect (some .shutdown)) :
    (PeerManager.turn task input self).Yields
      (NotClean PeerManager.criticalResult) := by
  cases input with
  | incidentThreadNetwork connect incident =>
      rcases incident with _ | ⟨address⟩ | _
      · cases connect <;> exact nofun
      · cases connect with
        | ok socket => exact newConnection_yields _ _ _
        | error reason => exact notClean_next _
      · exact absurd rfl (hinput connect)
  | incidentLooplisten incident =>
      cases incident with
      | none => exact nofun
      | some event => exact newConnection_yields _ _ _
  | incidentProtocol incident =>
      cases incident with
      | none => exact nofun
      | some event => exact protocolTurn_yields (turn_protocol event)
  | incidentPeer incident =>
      cases incident with
      | none => exact notifyProtocol_yields _
      | some event =>
          obtain hdone | ⟨_, _, -, hturn⟩ := turn_peer event
          · exact hdone ▸ notClean_next _
          · exact hturn ▸ notifyProtocol_yields _
  | resultPeer result =>
      obtain hdone | ⟨_, hturn⟩ := turn_result result
      · exact hdone ▸ notClean_next _
      · exact hturn ▸ notifyProtocol_yields _

/-- Only the `Shutdown` of the protocol thread makes `HandleMessage` return
`Ok`. -/
theorem handleTurn_yields {self : HandleMessage} {input : HandleInput}
    (hinput : input ≠ .incidentThreadProtocol (some .shutdown)) :
    (HandleMessage.turn input self).Yields
      (NotClean HandleMessage.criticalResult) := by
  cases input with
  | incidentThreadProtocol incident =>
      rcases incident with _ | _
      · exact nofun
      · exact absurd rfl hinput
  | incidentPeermanager now incident =>
      rcases incident with _ | ⟨peerid, message⟩ | _ | _ | context | _ | _
      · exact nofun
      · simp only [HandleMessage.turn, HandleMessage.readyMessage]
        split_ifs
        · split
          · apply Await.yields_bind
            intro self result
            cases result with
            | ok => simp only [HandleMessage.afterHandleMsg]; split_ifs <;> trivial
            | error => trivial
          · trivial
        · trivial
        · trivial
      · trivial
      · trivial
      · simp only [HandleMessage.turn, HandleMessage.newConnection]
        split_ifs
        · split
          · trivial
          · split
            · trivial
            · split
              · intro delivered
                cases delivered
                · exact nofun
                · trivial
              · trivial
        · trivial
      · trivial
      · trivial

/-- Only the `Shutdown` of the network thread makes `LoopListen` return
`Ok`. -/
theorem looplistenTurn_yields {input : LoopListenInput}
    (hinput : input ≠ .incidentThreadNetwork (some .shutdown)) :
    (LoopListen.turn input).Yields (NotClean id) := by
  rcases input with (reason | ⟨socket, address⟩) | (_ | _ | _)
  · trivial
  · intro delivered
    cases delivered
    · exact nofun
    · exact notClean_next _
  · exact nofun
  · trivial
  · exact absurd rfl hinput

end Turns

/-! ## Failures -/

/-- A task has ended otherwise than with `Ok`, or a thread could not build its
runtime. -/
inductive Failed (process : Process) : Prop where
  | peermanager {outcome : StateTaskPeermanager}
      (hjoined : PeermanagerJoined process.node.manager outcome)
      (hfailed : outcome ≠ .ok (.ok ()))
  | looplisten {outcome : StateTaskLooplisten}
      (hjoined : LooplistenJoined process.looplisten outcome)
      (hfailed : outcome ≠ .ok (.ok ()))
  | handlemessage {outcome : StateHandlemessage}
      (hjoined : HandlemessageJoined process.node.handle outcome)
      (hfailed : outcome ≠ .ok (.ok ()))
  | buildNetwork {reason : IoError}
      (hnetwork : process.network = .leaving (.error (.errorInputOutput reason)) ∨
        process.network = .ended (.error (.errorInputOutput reason)))
  | buildProtocol {reason : IoError}
      (hprotocol :
        process.protocol = .leaving (.error (.errorInputOutput reason)) ∨
          process.protocol = .ended (.error (.errorInputOutput reason)))

/-- The manager is not on its way to a return of `Ok`. -/
def ManagerUnconfirmed : ManagerPhase → Prop
  | .running turn => turn.Yields (NotClean PeerManager.criticalResult)
  | .disconnecting incident _ _ | .joining incident _ =>
      PeerManager.criticalResult incident ≠ .ok ()
  | .finished _ _ | .dropped _ => False

def LooplistenUnconfirmed : LoopListenPhase → Prop
  | .binding => True
  | .running turn => ¬ HasLeft turn ∧ turn.Yields (NotClean id)

/-- No shutdown is under way: the tasks are in their loops, or the manager
leaves for an error of its own, the threads have not left theirs, `main` waits,
and nothing has been reported or ordered. -/
structure Undisturbed (process : Process) : Prop where
  main : process.main = .receiving
  network : process.network = .starting ∨ process.network = .supervising
  protocol : process.protocol = .starting ∨ process.protocol = .supervising
  reports : process.toInit = []
  orders : process.initToNetwork = [] ∧ process.initToProtocol = []
  commands : process.networkToPeermanager = [] ∧
    process.networkToLooplisten = [] ∧ process.protocolToHandlemessage = []
  peermanager : ManagerUnconfirmed process.node.manager
  looplisten : LooplistenUnconfirmed process.looplisten
  handlemessage : ¬ HasLeft process.node.handle ∧
    process.node.handle.Yields (NotClean HandleMessage.criticalResult)

theorem Undisturbed.initial (nonce : UInt64) :
    Undisturbed (.initial nonce) where
  main := rfl
  network := .inl rfl
  protocol := .inl rfl
  reports := rfl
  orders := ⟨rfl, rfl⟩
  commands := ⟨rfl, rfl, rfl⟩
  peermanager := trivial
  looplisten := trivial
  handlemessage := ⟨id, trivial⟩

/-- A turn that does not end with a return of `Ok` goes on or has failed. -/
theorem failed_of_hasLeft {σ ε ζ ρ δ : Type} {result : ρ → Except δ Unit}
    {turn : Await σ ε ζ (Flow ρ)} (hleft : HasLeft turn)
    (hyields : turn.Yields (NotClean result)) :
    ∃ outcome, Joined result turn outcome ∧ outcome ≠ .ok (.ok ()) := by
  rcases turn with ⟨state, _ | value | _⟩ | _
  · exact hleft.elim
  · refine ⟨_, .ended state (.returned value), fun hok => hyields ?_⟩
    exact Except.ok.inj hok
  · exact ⟨_, .ended state (.panicked { id := 0 }), nofun⟩
  · exact hleft.elim

section Steps

variable {before after : Process} {label : Label}

theorem Failed.step (hfailed : Failed before) (hstep : Step before label after) :
    Failed after := by
  cases hfailed with
  | peermanager hjoined hfailed =>
      exact .peermanager (hstep.peermanager_joined hjoined) hfailed
  | looplisten hjoined hfailed =>
      exact .looplisten (hstep.looplisten_joined hjoined) hfailed
  | handlemessage hjoined hfailed =>
      exact .handlemessage (hstep.handlemessage_joined hjoined) hfailed
  | @buildNetwork reason hnetwork =>
      refine @Failed.buildNetwork _ reason ?_
      obtain hleaving | hended := hnetwork
      · obtain hstep | hnetwork := hstep.network_cases
        · cases hstep <;> simp_all
        · exact .inl (hnetwork.trans hleaving)
      · exact .inr (hstep.network_ended hended)
  | @buildProtocol reason hprotocol =>
      refine @Failed.buildProtocol _ reason ?_
      obtain hleaving | hended := hprotocol
      · obtain hstep | hprotocol := hstep.protocol_cases
        · cases hstep <;> simp_all
        · exact .inl (hprotocol.trans hleaving)
      · exact .inr (hstep.protocol_ended hended)

theorem Undisturbed.not_hasFinished (hquiet : Undisturbed before) :
    ¬ before.node.manager.HasFinished := by
  intro hfinished
  have hmanager := hquiet.peermanager
  cases hphase : before.node.manager with
  | finished | dropped => rw [hphase] at hmanager; exact hmanager
  | _ => rw [hphase] at hfinished; exact hfinished

theorem Undisturbed.not_hasEnded (hquiet : Undisturbed before) :
    ¬ before.looplisten.HasEnded := by
  have hlooplisten := hquiet.looplisten
  cases hphase : before.looplisten with
  | binding => exact id
  | running turn => rw [hphase] at hlooplisten; exact hlooplisten.1

theorem Undisturbed.initStep (hquiet : Undisturbed before)
    (hstep : InitStep before label after) : False := by
  cases hstep with
  | receive hmain hqueue => simp [hquiet.reports] at hqueue
  | closed hmain hqueue hnetwork hprotocol =>
      obtain hphase | hphase := hquiet.network <;>
        simp [hphase, ThreadPhase.HasEnded] at hnetwork
  | joinNetwork hmain => simp [hquiet.main] at hmain
  | joinProtocol hmain => simp [hquiet.main] at hmain

theorem Undisturbed.networkStep (hquiet : Undisturbed before)
    (hstep : NetworkStep before label after) :
    Undisturbed after ∨ Failed after := by
  have hphase := hquiet.network
  cases hstep with
  | built hstarting => exact .inl { hquiet with network := .inr rfl }
  | buildFailed hstarting reason => exact .inr (.buildNetwork (.inl rfl))
  | init hsupervising hqueue => simp [hquiet.orders.1] at hqueue
  | initClosed hsupervising hqueue hclosed =>
      simp [hquiet.main, MainPhase.HasReturned] at hclosed
  | peermanager hsupervising hjoined =>
      exact absurd hjoined.hasFinished hquiet.not_hasFinished
  | looplisten hsupervising hjoined =>
      exact absurd hjoined.hasEnded hquiet.not_hasEnded
  | send hclosing => simp [hclosing] at hphase
  | sendClosed hclosing => simp [hclosing] at hphase
  | complited hclosing => simp [hclosing] at hphase
  | ended hleaving => simp [hleaving] at hphase

theorem Undisturbed.protocolStep (hquiet : Undisturbed before)
    (hstep : ProtocolStep before label after) :
    Undisturbed after ∨ Failed after := by
  have hphase := hquiet.protocol
  cases hstep with
  | built hstarting => exact .inl { hquiet with protocol := .inr rfl }
  | buildFailed hstarting reason => exact .inr (.buildProtocol (.inl rfl))
  | init hsupervising hqueue => simp [hquiet.orders.2] at hqueue
  | initClosed hsupervising hqueue hclosed =>
      simp [hquiet.main, MainPhase.HasReturned] at hclosed
  | handlemessage hsupervising hjoined =>
      exact absurd hjoined.hasLeft hquiet.handlemessage.1
  | send hclosing => simp [hclosing] at hphase
  | sendClosed hclosing => simp [hclosing] at hphase
  | complited hclosing => simp [hclosing] at hphase
  | ended hleaving => simp [hleaving] at hphase

/-- `LoopListen` goes on with a turn that does not return `Ok`. -/
theorem undisturbed_turnLooplisten {turn : LoopListenTurn}
    (hyields : turn.Yields (NotClean id))
    (hafter : after.looplisten = .running turn)
    (hrest : LooplistenUnconfirmed after.looplisten → Undisturbed after) :
    Undisturbed after ∨ Failed after := by
  by_cases hleft : HasLeft turn
  · obtain ⟨outcome, hjoined, hfailed⟩ := failed_of_hasLeft hleft hyields
    exact .inr (.looplisten (hafter ▸ .ended hjoined) hfailed)
  · exact .inl (hrest (hafter ▸ ⟨hleft, hyields⟩))

theorem Undisturbed.looplistenStep (hquiet : Undisturbed before)
    (hstep : LoopListenStep before label after) :
    Undisturbed after ∨ Failed after := by
  have hturn := hquiet.looplisten
  cases hstep with
  | bind hruns hlooplisten result =>
      have hyields : (bound result).Yields (NotClean id) := by
        cases result
        · exact nofun
        · trivial
      apply undisturbed_turnLooplisten hyields rfl
      exact fun hunconfirmed => { hquiet with looplisten := hunconfirmed }
  | accept hruns hlooplisten result =>
      apply undisturbed_turnLooplisten (looplistenTurn_yields (by simp)) rfl
      exact fun hunconfirmed => { hquiet with looplisten := hunconfirmed }
  | thread hruns hlooplisten hqueue => simp [hquiet.commands.2.1] at hqueue
  | @send event resume hruns hlooplisten hopen hroom =>
      rw [hlooplisten] at hturn
      apply undisturbed_turnLooplisten (hturn.2 true) rfl
      exact fun hunconfirmed => { hquiet with looplisten := hunconfirmed }
  | @sendClosed event resume hruns hlooplisten hclosed =>
      rw [hlooplisten] at hturn
      apply undisturbed_turnLooplisten (hturn.2 false) rfl
      exact fun hunconfirmed => { hquiet with looplisten := hunconfirmed }

/-- A step of the manager that takes no `Shutdown` does not bring it on the way
to a return of `Ok`. -/
theorem managerUnconfirmed_step {system system' : System}
    {own : Runtime.Label} (hmanager : ManagerUnconfirmed system.manager)
    (hstep : ManagerStep system own system')
    (hown : ∀ connect,
      own ≠ .managerTake (.incidentThreadNetwork connect (some .shutdown))) :
    ManagerUnconfirmed system'.manager ∨
      ∃ outcome, PeermanagerJoined system'.manager outcome ∧
        outcome ≠ .ok (.ok ()) := by
  cases hstep with
  | take hphase hexternal =>
      refine .inl (managerTurn_yields fun connect hinput => ?_)
      exact hown connect (congrArg Runtime.Label.managerTake hinput)
  | protocol | protocolClosed | peer | join =>
      exact .inl (managerTurn_yields (by simp))
  | send hphase hopen hroom =>
      rw [hphase] at hmanager
      exact .inl (hmanager true)
  | sendClosed hphase hclosed =>
      rw [hphase] at hmanager
      exact .inl (hmanager false)
  | leave hphase htasks =>
      rw [hphase] at hmanager
      exact .inl hmanager
  | disconnect hphase | disconnectClosed hphase | disconnected hphase =>
      rw [hphase] at hmanager
      exact .inl hmanager
  | drain hphase =>
      rw [hphase] at hmanager
      exact .inl hmanager
  | finish hphase htasks =>
      rw [hphase] at hmanager
      refine .inr ⟨_, .returned _ _, fun hok => hmanager ?_⟩
      exact Except.ok.inj hok

theorem handleUnconfirmed_step {system system' : System}
    {own : Runtime.Label}
    (hhandle : system.handle.Yields (NotClean HandleMessage.criticalResult))
    (hstep : HandleStep system own system')
    (hown : own ≠ .handleThreadProtocol (some .shutdown)) :
    system'.handle.Yields (NotClean HandleMessage.criticalResult) := by
  cases hstep with
  | threadProtocol hphase incident =>
      refine handleTurn_yields fun hinput => hown ?_
      rw [HandleInput.incidentThreadProtocol.inj hinput]
  | peermanager => exact handleTurn_yields (by simp)
  | peermanagerClosed => exact nofun
  | send hphase hopen hroom =>
      rw [hphase] at hhandle
      exact hhandle true
  | sendClosed hphase hclosed =>
      rw [hphase] at hhandle
      exact hhandle false

theorem Undisturbed.managerStep (hquiet : Undisturbed before) {node : System}
    {own : Runtime.Label} (hstep : ManagerStep before.node own node)
    (hown : ∀ connect,
      own ≠ .managerTake (.incidentThreadNetwork connect (some .shutdown)))
    (hnode : after.node = node)
    (hrest : ManagerUnconfirmed after.node.manager →
      after.node.handle = before.node.handle → Undisturbed after) :
    Undisturbed after ∨ Failed after := by
  subst hnode
  obtain hmanager | ⟨outcome, hjoined, hfailed⟩ :=
    managerUnconfirmed_step hquiet.peermanager hstep hown
  · exact .inl (hrest hmanager hstep.handle_eq)
  · exact .inr (.peermanager hjoined hfailed)

theorem Undisturbed.nodeStep (hquiet : Undisturbed before)
    (hstep : NodeStep before label after) :
    Undisturbed after ∨ Failed after := by
  cases hstep with
  | manager hruns hstep hlabel =>
      apply hquiet.managerStep hstep (fun _ => hlabel _) rfl
      intro hmanager hhandle
      exact { hquiet with
        peermanager := hmanager
        handlemessage := by rw [hhandle]; exact hquiet.handlemessage }
  | managerThread hruns hqueue => simp [hquiet.commands.1] at hqueue
  | managerLooplisten hruns hqueue hstep =>
      apply hquiet.managerStep hstep (by simp) rfl
      intro hmanager hhandle
      exact { hquiet with
        peermanager := hmanager
        handlemessage := by rw [hhandle]; exact hquiet.handlemessage }
  | managerLooplistenClosed hruns hqueue hclosed hstep =>
      exact absurd hclosed hquiet.not_hasEnded
  | peer hruns hstep =>
      exact .inl { hquiet with
        peermanager := by rw [hstep.manager_eq]; exact hquiet.peermanager
        handlemessage := by rw [hstep.handle_eq]; exact hquiet.handlemessage }
  | @handle label node hruns hstep hlabel =>
      have hyields := handleUnconfirmed_step hquiet.handlemessage.2 hstep
        (hlabel _)
      by_cases hleft : HasLeft node.handle
      · obtain ⟨outcome, hjoined, hfailed⟩ := failed_of_hasLeft hleft hyields
        exact .inr (.handlemessage hjoined hfailed)
      · exact .inl { hquiet with
          peermanager := by rw [hstep.manager_eq]; exact hquiet.peermanager
          handlemessage := ⟨hleft, hyields⟩ }
  | handleThread hruns hqueue => simp [hquiet.commands.2.2] at hqueue

/-- What is dropped before it has ended has failed. -/
theorem PanicStep.failed (hstep : PanicStep before label after) :
    Failed after := by
  cases hstep with
  | looplisten hruns hended =>
      have hended' := hasEnded_dropLooplisten before.looplisten
      obtain ⟨outcome, hjoined⟩ := looplistenJoined_of_hasEnded hended'
      refine .looplisten hjoined ?_
      rintro rfl
      exact hended hjoined.of_drop.hasEnded
  | peermanager hruns hfinished =>
      have hfinished' := hasFinished_dropPeermanager before.node.manager
      obtain ⟨outcome, hjoined⟩ := joined_of_hasFinished hfinished'
      refine .peermanager hjoined ?_
      rintro rfl
      exact hfinished hjoined.of_drop.hasFinished
  | handlemessage hruns hleft =>
      have hleft' := hasLeft_dropTurn before.node.handle
      obtain ⟨outcome, hjoined⟩ :=
        joined_of_hasLeft hleft' HandleMessage.criticalResult
      refine .handlemessage hjoined ?_
      rintro rfl
      exact hleft hjoined.of_drop.hasLeft

theorem Undisturbed.step (hquiet : Undisturbed before)
    (hstep : Step before label after) : Undisturbed after ∨ Failed after := by
  cases hstep with
  | init hstep => exact (hquiet.initStep hstep).elim
  | network hstep => exact hquiet.networkStep hstep
  | protocol hstep => exact hquiet.protocolStep hstep
  | looplisten hstep => exact hquiet.looplistenStep hstep
  | node hstep => exact hquiet.nodeStep hstep
  | panic hstep => exact .inr hstep.failed

end Steps

/-! ## Why the process ends -/

section Runs

variable {nonce : UInt64} {labels : List Label} {process : Process}

theorem undisturbed_or_failed (run : Run Step (.initial nonce) labels process) :
    Undisturbed process ∨ Failed process := by
  refine run.invariant (fun reached => Undisturbed reached ∨ Failed reached)
    (.inl (.initial nonce)) fun before label after hbefore hstep => ?_
  obtain hquiet | hfailed := hbefore
  · exact hquiet.step hstep
  · exact .inr (hfailed.step hstep)

/-- As long as no task has failed and no build of a runtime, no thread leaves
its loop and nobody is told to shut down. -/
theorem undisturbed_of_not_failed
    (run : Run Step (.initial nonce) labels process)
    (hfailed : ¬ Failed process) : Undisturbed process :=
  (undisturbed_or_failed run).resolve_right hfailed

/-- The hypotheses are met by the node at work. -/
theorem undisturbed_at_work : ∃ labels process,
    Run Step (.initial 0) labels process ∧ process.network = .supervising ∧
      process.protocol = .supervising ∧ Undisturbed process := by
  have hnetwork : Step (.initial 0) (.buildNetwork (.ok ())) _ :=
    .network (.built rfl)
  have hrun := Run.tail (.tail (.refl _) hnetwork) (.protocol (.built rfl))
  refine ⟨_, _, hrun, rfl, rfl, undisturbed_of_not_failed hrun ?_⟩
  intro hfailed
  cases hfailed with
  | peermanager hjoined => exact hjoined.hasFinished
  | looplisten hjoined => exact hjoined.hasEnded
  | handlemessage hjoined => exact hjoined.hasLeft
  | buildNetwork hbuild => simp at hbuild
  | buildProtocol hbuild => simp at hbuild

/-- A failure makes one of the threads return an error. -/
theorem Failed.blamed (hfailed : Failed process)
    (haccounted : Accounted process)
    {network : Except ErrorThreadNetwork Unit}
    {protocol : Except ErrorThreadProtocol Unit}
    (hnetwork : process.network = .ended network)
    (hprotocol : process.protocol = .ended protocol) :
    network ≠ .ok () ∨ protocol ≠ .ok () := by
  have htasks := haccounted.network
  have htask := haccounted.protocol
  rw [hnetwork] at htasks
  rw [hprotocol] at htask
  cases hfailed with
  | peermanager hjoined hfailed =>
      left
      intro hok
      exact hfailed ((hjoined.ok_iff _).mp (htasks.mp hok).1)
  | looplisten hjoined hfailed =>
      left
      intro hok
      exact hfailed ((hjoined.ok_iff _).mp (htasks.mp hok).2)
  | handlemessage hjoined hfailed =>
      right
      intro hok
      exact hfailed ((Joined.ok_iff hjoined _).mp (htask.mp hok))
  | buildNetwork hbuild =>
      left
      rintro rfl
      simp [hnetwork] at hbuild
  | buildProtocol hbuild =>
      right
      rintro rfl
      simp [hprotocol] at hbuild

/-- `main` does not return `Ok`. -/
theorem returned_error (run : Run Step (.initial nonce) labels process)
    {result : Except ErrorInit Unit} (hmain : process.main = .returned result) :
    ∃ reason, result = .error reason := by
  obtain hquiet | hfailed := undisturbed_or_failed run
  · simp [hquiet.main] at hmain
  have haccounted := accounted_run run
  have hjoined := haccounted.main
  simp only [JoinedByMain, hmain] at hjoined
  obtain ⟨network, protocol, hnetwork, hprotocol, rfl⟩ := hjoined
  have hblamed := hfailed.blamed haccounted hnetwork hprotocol
  rcases network with _ | _ <;> rcases protocol with _ | _
  · exact ⟨_, rfl⟩
  · exact ⟨_, rfl⟩
  · exact ⟨_, rfl⟩
  · simp at hblamed

theorem returned_error_failedBuild : ∃ labels process result,
    Run Step (.initial 0) labels process ∧ process.main = .returned result ∧
      ∃ reason, result = .error reason := by
  obtain ⟨labels, process, run, -, -, hmain⟩ := failedBuild_run
  exact ⟨labels, process, _, run, hmain, returned_error run hmain⟩

end Runs

end P2PNetwork.Supervision
