import P2PNetwork.Runtime.DeadHalf

/-!
# What the threads return

A supervising thread returns `Ok` if all its tasks have, and only then, whatever
it has seen first and whatever it waits for after its loop.  `main` joins both
threads, so the error it returns names the thread in which a task has failed.
-/

namespace P2PNetwork.Supervision

open P2PNetwork.EventLoop
open P2PNetwork.Events
open P2PNetwork.Handler
open P2PNetwork.Handshake
open P2PNetwork.LoopListen
open P2PNetwork.Manager
open P2PNetwork.Runtime (HandleStep HasLeft ManagerPhase ManagerStep System)
open P2PNetwork.ThreadNetwork (ErrorThreadNetwork
  EventsCriticalCompletionThreadNetwork StateTaskLooplisten
  StateTaskPeermanager ThreadNetworkSend)
open P2PNetwork.ThreadProtocol (ErrorThreadProtocol
  EventsCriticalCompletionThreadProtocol StateHandlemessage)

/-! ## What a handle yields -/

theorem PeermanagerJoined.drop {manager : ManagerPhase}
    {outcome : StateTaskPeermanager}
    (hjoined : PeermanagerJoined manager outcome) :
    PeermanagerJoined (dropPeermanager manager) outcome := by
  cases hjoined with
  | returned result self => exact .returned result self
  | panicked self reason => exact .panicked self reason

theorem PeermanagerJoined.of_drop {manager : ManagerPhase}
    {result : Except ErrorPeerManager Unit}
    (hjoined : PeermanagerJoined (dropPeermanager manager) (.ok result)) :
    PeermanagerJoined manager (.ok result) := by
  cases manager with
  | finished result' self => exact hjoined
  | _ => cases hjoined

theorem Joined.drop {σ ε ζ ρ τ : Type} {result : ρ → τ}
    {turn : Await σ ε ζ (Flow ρ)} {outcome : Except JoinError τ}
    (hjoined : Joined result turn outcome) :
    Joined result (dropTurn turn) outcome := by
  obtain ⟨state, hends⟩ := hjoined
  cases hends with
  | returned value => exact .ended state (.returned value)
  | panicked reason => exact .ended state (.panicked reason)

theorem Joined.of_drop {σ ε ζ ρ τ : Type} {result : ρ → τ}
    {turn : Await σ ε ζ (Flow ρ)} {value : τ}
    (hjoined : Joined result (dropTurn turn) (.ok value)) :
    Joined result turn (.ok value) := by
  rcases turn with ⟨state, _ | returned | _⟩ | _
  case done.leave => exact hjoined
  all_goals
    generalize houtcome : (Except.ok value : Except JoinError τ) = outcome
      at hjoined
    rcases hjoined with ⟨_, ⟨⟩⟩
    cases houtcome

theorem LooplistenJoined.drop {looplisten : LoopListenPhase}
    {outcome : StateTaskLooplisten}
    (hjoined : LooplistenJoined looplisten outcome) :
    LooplistenJoined (dropLooplisten looplisten) outcome := by
  obtain ⟨hturn⟩ := hjoined
  exact .ended hturn.drop

theorem LooplistenJoined.of_drop {looplisten : LoopListenPhase}
    {result : Except ErrorLoopListen Unit}
    (hjoined : LooplistenJoined (dropLooplisten looplisten) (.ok result)) :
    LooplistenJoined looplisten (.ok result) := by
  cases looplisten with
  | binding =>
      obtain ⟨hturn⟩ := hjoined
      generalize houtcome : (Except.ok result : StateTaskLooplisten) = outcome
        at hturn
      rcases hturn with ⟨_, ⟨⟩⟩
      cases houtcome
  | running turn =>
      obtain ⟨hturn⟩ := hjoined
      exact .ended hturn.of_drop

/-! ## Tasks that have ended -/

section Steps

variable {before after : Process} {label : Label}

@[simp]
theorem Process.looplisten_deliver (process : Process)
    (send : ThreadNetworkSend) :
    (process.deliver send).looplisten = process.looplisten := by
  cases send <;> rfl

@[simp]
theorem Process.main_deliver (process : Process) (send : ThreadNetworkSend) :
    (process.deliver send).main = process.main := by
  cases send <;> rfl

/-- What a step does to the tasks of the network thread. -/
inductive NetworkTasksMove (before after : Process) : Prop where
  | unchanged (hmanager : after.node.manager = before.node.manager)
      (hlooplisten : after.looplisten = before.looplisten)
  | manager {own : Runtime.Label} (hruns : before.network.Runs)
      (hstep : ManagerStep before.node own after.node)
      (hlooplisten : after.looplisten = before.looplisten)
  | looplisten {own : Label} (hruns : before.network.Runs)
      (hstep : LoopListenStep before own after)
      (hmanager : after.node.manager = before.node.manager)
  | panicPeermanager (hruns : before.network.Runs)
      (hmanager : after.node.manager = dropPeermanager before.node.manager)
      (hlooplisten : after.looplisten = before.looplisten)
  | panicLooplisten (hruns : before.network.Runs)
      (hmanager : after.node.manager = before.node.manager)
      (hlooplisten : after.looplisten = dropLooplisten before.looplisten)
  | ended {result : Except ErrorThreadNetwork Unit}
      (hleaving : before.network = .leaving result)
      (hmanager : after.node.manager = dropPeermanager before.node.manager)
      (hlooplisten : after.looplisten = dropLooplisten before.looplisten)

theorem Step.networkTasks (hstep : Step before label after) :
    NetworkTasksMove before after := by
  cases hstep with
  | init hstep =>
      obtain ⟨-, -, hlooplisten, hnode⟩ := hstep.frame
      exact .unchanged (by rw [hnode]) hlooplisten
  | network hstep =>
      cases hstep with
      | ended hleaving => exact .ended hleaving rfl rfl
      | send => exact .unchanged (by simp) (by simp)
      | _ => exact .unchanged rfl rfl
  | protocol hstep => cases hstep <;> exact .unchanged rfl rfl
  | looplisten hstep =>
      have hruns : before.network.Runs := by cases hstep <;> assumption
      have hmanager : after.node.manager = before.node.manager := by
        cases hstep <;> rfl
      exact .looplisten hruns hstep hmanager
  | node hstep =>
      obtain ⟨-, -, hlooplisten⟩ := hstep.frame
      obtain ⟨own, -, htask⟩ := hstep.task_step
      cases htask with
      | manager hruns hstep => exact .manager hruns hstep hlooplisten
      | peer hruns hstep => exact .unchanged hstep.manager_eq hlooplisten
      | handle hruns hstep => exact .unchanged hstep.manager_eq hlooplisten
  | panic hstep =>
      cases hstep with
      | looplisten hruns => exact .panicLooplisten hruns rfl rfl
      | peermanager hruns => exact .panicPeermanager hruns rfl rfl
      | handlemessage => exact .unchanged rfl rfl

/-- What a step does to the task of the protocol thread. -/
inductive ProtocolTaskMove (before after : Process) : Prop where
  | unchanged (hhandle : after.node.handle = before.node.handle)
  | handle {own : Runtime.Label} (hruns : before.protocol.Runs)
      (hstep : HandleStep before.node own after.node)
  | panicHandlemessage (hruns : before.protocol.Runs)
      (hhandle : after.node.handle = dropTurn before.node.handle)
  | ended {result : Except ErrorThreadProtocol Unit}
      (hleaving : before.protocol = .leaving result)
      (hhandle : after.node.handle = dropTurn before.node.handle)

theorem Step.protocolTask (hstep : Step before label after) :
    ProtocolTaskMove before after := by
  cases hstep with
  | init hstep =>
      obtain ⟨-, -, -, hnode⟩ := hstep.frame
      exact .unchanged (by rw [hnode])
  | network hstep =>
      cases hstep with
      | send => exact .unchanged (by simp)
      | _ => exact .unchanged rfl
  | protocol hstep =>
      cases hstep with
      | ended hleaving => exact .ended hleaving rfl
      | _ => exact .unchanged rfl
  | looplisten hstep => cases hstep <;> exact .unchanged rfl
  | node hstep =>
      obtain ⟨own, -, htask⟩ := hstep.task_step
      cases htask with
      | manager hruns hstep => exact .unchanged hstep.handle_eq
      | peer hruns hstep => exact .unchanged hstep.handle_eq
      | handle hruns hstep => exact .handle hruns hstep
  | panic hstep =>
      cases hstep with
      | handlemessage hruns => exact .panicHandlemessage hruns rfl
      | _ => exact .unchanged rfl

/-- A manager that has ended does not move again. -/
theorem Step.peermanager_joined (hstep : Step before label after)
    {outcome : StateTaskPeermanager}
    (hjoined : PeermanagerJoined before.node.manager outcome) :
    PeermanagerJoined after.node.manager outcome := by
  cases hstep.networkTasks with
  | unchanged hmanager => rwa [hmanager]
  | manager hruns hstep => exact absurd hjoined.hasFinished hstep.not_finished
  | looplisten hruns hstep hmanager => rwa [hmanager]
  | panicPeermanager hruns hmanager => exact hmanager ▸ hjoined.drop
  | panicLooplisten hruns hmanager => rwa [hmanager]
  | ended hleaving hmanager => exact hmanager ▸ hjoined.drop

theorem Step.looplisten_joined (hstep : Step before label after)
    {outcome : StateTaskLooplisten}
    (hjoined : LooplistenJoined before.looplisten outcome) :
    LooplistenJoined after.looplisten outcome := by
  cases hstep.networkTasks with
  | unchanged hmanager hlooplisten => rwa [hlooplisten]
  | manager hruns hstep hlooplisten => rwa [hlooplisten]
  | looplisten hruns hstep hmanager =>
      have hended := hjoined.hasEnded
      cases hstep <;> simp_all [LoopListenPhase.HasEnded, HasLeft]
  | panicPeermanager hruns hmanager hlooplisten => rwa [hlooplisten]
  | panicLooplisten hruns hmanager hlooplisten =>
      exact hlooplisten ▸ hjoined.drop
  | ended hleaving hmanager hlooplisten => exact hlooplisten ▸ hjoined.drop

theorem Joined.hasLeft {σ ε ζ ρ τ : Type} {result : ρ → τ}
    {turn : Await σ ε ζ (Flow ρ)} {outcome : Except JoinError τ}
    (hjoined : Joined result turn outcome) : HasLeft turn := by
  obtain ⟨state, hends⟩ := hjoined
  cases hends <;> trivial

theorem not_hasLeft_of_handleStep {system system' : System}
    {own : Runtime.Label} (hstep : HandleStep system own system') :
    ¬ HasLeft system.handle := by
  cases hstep <;> simp_all [HasLeft]

theorem Step.handlemessage_joined (hstep : Step before label after)
    {outcome : StateHandlemessage}
    (hjoined : HandlemessageJoined before.node.handle outcome) :
    HandlemessageJoined after.node.handle outcome := by
  cases hstep.protocolTask with
  | unchanged hhandle => rwa [hhandle]
  | handle hruns hstep =>
      exact absurd hjoined.hasLeft (not_hasLeft_of_handleStep hstep)
  | panicHandlemessage hruns hhandle => exact hhandle ▸ hjoined.drop
  | ended hleaving hhandle => exact hhandle ▸ hjoined.drop

/-! ## What a thread returns -/

/-- Both tasks of the network thread have returned `Ok`. -/
def NetworkTasksOk (process : Process) : Prop :=
  PeermanagerJoined process.node.manager (.ok (.ok ())) ∧
    LooplistenJoined process.looplisten (.ok (.ok ()))

/-- `HandleMessage` has returned `Ok`. -/
def ProtocolTaskOk (process : Process) : Prop :=
  Joined HandleMessage.criticalResult process.node.handle (.ok (.ok ()))

/-- The end that the network thread has seen in its loop is one. -/
def SeenNetwork (process : Process) :
    EventsCriticalCompletionThreadNetwork → Prop
  | .incidentConfirmationShutdown | .incidentChannelInitClosed => True
  | .incidentComplitedPeerManager result =>
      PeermanagerJoined process.node.manager (.ok result)
  | .incidentComplitedLoopListen result =>
      LooplistenJoined process.looplisten (.ok result)
  | .incidentJoinHandlePeerManager reason =>
      PeermanagerJoined process.node.manager (.error reason)
  | .incidentJoinHandleLoopListen reason =>
      LooplistenJoined process.looplisten (.error reason)

def SeenProtocol (process : Process) :
    EventsCriticalCompletionThreadProtocol → Prop
  | .incidentConfirmationShutdown | .incidentChannelInitClosed => True
  | .incidentComplitedHandleMessage result =>
      HandlemessageJoined process.node.handle (.ok result)
  | .incidentJoinHandleHandleMessage reason =>
      HandlemessageJoined process.node.handle (.error reason)

/-- What a thread is about to return is `Ok` if its tasks have returned `Ok`,
and only then. -/
def ThreadPhase.Truthful {incident send error : Type} (tasksOk : Prop)
    (seen : incident → Prop) : ThreadPhase incident send error → Prop
  | .starting => ¬ tasksOk
  | .supervising => True
  | .closing reason _ => seen reason
  | .leaving result | .ended result => result = .ok () ↔ tasksOk

theorem ThreadPhase.Truthful.keep {incident send error : Type}
    {thread : ThreadPhase incident send error} {tasksOk tasksOk' : Prop}
    {seen seen' : incident → Prop} (htruthful : thread.Truthful tasksOk seen)
    (htasks : ¬ thread.Runs → (tasksOk' ↔ tasksOk))
    (hseen : ∀ reason, seen reason → seen' reason) :
    thread.Truthful tasksOk' seen' := by
  cases thread with
  | starting => exact fun hok => htruthful ((htasks id).mp hok)
  | supervising => trivial
  | closing reason rest => exact hseen reason htruthful
  | leaving result => exact Iff.trans htruthful (htasks id).symm
  | ended result => exact Iff.trans htruthful (htasks id).symm

theorem PeermanagerJoined.ok_iff {manager : ManagerPhase}
    {outcome : StateTaskPeermanager}
    (hjoined : PeermanagerJoined manager outcome)
    (result : Except ErrorPeerManager Unit) :
    PeermanagerJoined manager (.ok result) ↔ outcome = .ok result := by
  constructor
  · intro hok
    cases hjoined with
    | returned result' self => cases hok; rfl
    | panicked self reason => cases hok
  · rintro rfl
    exact hjoined

theorem Joined.ok_iff {σ ε ζ ρ τ : Type} {result : ρ → τ}
    {turn : Await σ ε ζ (Flow ρ)} {outcome : Except JoinError τ}
    (hjoined : Joined result turn outcome) (value : τ) :
    Joined result turn (.ok value) ↔ outcome = .ok value := by
  constructor
  · intro hok
    generalize hvalue : (Except.ok value : Except JoinError τ) = outcome' at hok
    obtain ⟨state, hends⟩ := hjoined
    obtain ⟨_, hends'⟩ := hok
    cases hends with
    | returned value' => cases hends'; rfl
    | panicked reason => cases hends'; cases hvalue
  · rintro rfl
    exact hjoined

theorem LooplistenJoined.ok_iff {looplisten : LoopListenPhase}
    {outcome : StateTaskLooplisten}
    (hjoined : LooplistenJoined looplisten outcome)
    (result : Except ErrorLoopListen Unit) :
    LooplistenJoined looplisten (.ok result) ↔ outcome = .ok result := by
  obtain ⟨hturn⟩ := hjoined
  rw [← hturn.ok_iff]
  exact ⟨fun ⟨hok⟩ => hok, .ended⟩

theorem resultTasks_eq_ok {peermanager : Except ErrorPeerManager Unit}
    {looplisten : Except ErrorLoopListen Unit} :
    ThreadNetwork.resultTasks peermanager looplisten = .ok () ↔
      peermanager = .ok () ∧ looplisten = .ok () := by
  rcases peermanager with _ | _ <;> rcases looplisten with _ | _ <;>
    simp [ThreadNetwork.resultTasks]

theorem resultStateTasks_eq_ok {peermanager : StateTaskPeermanager}
    {looplisten : StateTaskLooplisten} :
    ThreadNetwork.resultStateTasks peermanager looplisten = .ok () ↔
      peermanager = .ok (.ok ()) ∧ looplisten = .ok (.ok ()) := by
  rcases peermanager with _ | _ | _ <;> rcases looplisten with _ | _ | _ <;>
    simp [ThreadNetwork.resultStateTasks, ThreadNetwork.resultTasks]

theorem resultAfterPeermanager_eq_ok
    {peermanager : Except ErrorPeerManager Unit}
    {looplisten : StateTaskLooplisten} :
    ThreadNetwork.resultAfterPeermanager peermanager looplisten = .ok () ↔
      peermanager = .ok () ∧ looplisten = .ok (.ok ()) := by
  cases looplisten <;>
    simp [ThreadNetwork.resultAfterPeermanager, resultTasks_eq_ok]

theorem resultAfterLooplisten_eq_ok
    {looplisten : Except ErrorLoopListen Unit}
    {peermanager : StateTaskPeermanager} :
    ThreadNetwork.resultAfterLooplisten looplisten peermanager = .ok () ↔
      peermanager = .ok (.ok ()) ∧ looplisten = .ok () := by
  cases peermanager <;>
    simp [ThreadNetwork.resultAfterLooplisten, resultTasks_eq_ok]

/-- The network thread returns `Ok` if both tasks have, and only then. -/
theorem complited_network {process : Process}
    {incident : EventsCriticalCompletionThreadNetwork}
    {result : Except ErrorThreadNetwork Unit} (hseen : SeenNetwork process incident)
    (hcomplited : ThreadNetwork.Complited
      (PeermanagerJoined process.node.manager)
      (LooplistenJoined process.looplisten) incident result) :
    result = .ok () ↔ NetworkTasksOk process := by
  unfold NetworkTasksOk
  cases hcomplited with
  | confirmationShutdown hpeermanager hlooplisten =>
      rw [resultStateTasks_eq_ok, hpeermanager.ok_iff, hlooplisten.ok_iff]
  | channelInitClosed hpeermanager hlooplisten =>
      rw [resultStateTasks_eq_ok, hpeermanager.ok_iff, hlooplisten.ok_iff]
  | complitedPeerManager hlooplisten =>
      rw [resultAfterPeermanager_eq_ok, hseen.ok_iff, hlooplisten.ok_iff]
      simp
  | complitedLoopListen hpeermanager =>
      rw [resultAfterLooplisten_eq_ok, hpeermanager.ok_iff, hseen.ok_iff]
      simp
  | joinHandlePeerManager => simp [hseen.ok_iff]
  | joinHandleLoopListen => simp [hseen.ok_iff]

theorem complited_protocol {process : Process}
    {incident : EventsCriticalCompletionThreadProtocol}
    {result : Except ErrorThreadProtocol Unit}
    {reports : List EventsThreadNetworkProtocol}
    (hseen : SeenProtocol process incident)
    (hcomplited : ThreadProtocol.Complited
      (HandlemessageJoined process.node.handle) incident result reports) :
    result = .ok () ↔ ProtocolTaskOk process := by
  have hstate (state : StateHandlemessage) :
      ThreadProtocol.resultState state = .ok () ↔ state = .ok (.ok ()) := by
    rcases state with _ | _ | _ <;>
      simp [ThreadProtocol.resultState, ThreadProtocol.resultHandlemessage]
  unfold ProtocolTaskOk
  cases hcomplited with
  | confirmationShutdown hhandle => rw [hstate, Joined.ok_iff hhandle]
  | channelInitClosed hhandle => rw [hstate, Joined.ok_iff hhandle]
  | @complitedHandleMessage returned =>
      rw [Joined.ok_iff hseen]
      cases returned <;> simp [ThreadProtocol.resultHandlemessage]
  | joinHandleHandleMessage =>
      rw [Joined.ok_iff hseen]
      simp

theorem Step.networkTasksOk_iff (hstep : Step before label after)
    (hruns : ¬ before.network.Runs) :
    NetworkTasksOk after ↔ NetworkTasksOk before := by
  unfold NetworkTasksOk
  cases hstep.networkTasks with
  | unchanged hmanager hlooplisten => rw [hmanager, hlooplisten]
  | ended hleaving hmanager hlooplisten =>
      rw [hmanager, hlooplisten]
      exact and_congr ⟨.of_drop, .drop⟩ ⟨.of_drop, .drop⟩
  | _ => exact absurd (by assumption) hruns

theorem Step.protocolTaskOk_iff (hstep : Step before label after)
    (hruns : ¬ before.protocol.Runs) :
    ProtocolTaskOk after ↔ ProtocolTaskOk before := by
  unfold ProtocolTaskOk
  cases hstep.protocolTask with
  | unchanged hhandle => rw [hhandle]
  | ended hleaving hhandle =>
      rw [hhandle]
      exact ⟨.of_drop, .drop⟩
  | _ => exact absurd (by assumption) hruns

theorem Step.seenNetwork (hstep : Step before label after)
    (incident : EventsCriticalCompletionThreadNetwork)
    (hseen : SeenNetwork before incident) : SeenNetwork after incident := by
  cases incident with
  | incidentConfirmationShutdown | incidentChannelInitClosed => trivial
  | incidentComplitedPeerManager => exact hstep.peermanager_joined hseen
  | incidentJoinHandlePeerManager => exact hstep.peermanager_joined hseen
  | incidentComplitedLoopListen => exact hstep.looplisten_joined hseen
  | incidentJoinHandleLoopListen => exact hstep.looplisten_joined hseen

theorem Step.seenProtocol (hstep : Step before label after)
    (incident : EventsCriticalCompletionThreadProtocol)
    (hseen : SeenProtocol before incident) : SeenProtocol after incident := by
  cases incident with
  | incidentConfirmationShutdown | incidentChannelInitClosed => trivial
  | _ => exact hstep.handlemessage_joined hseen

theorem NetworkStep.truthful (hstep : NetworkStep before label after)
    (htruthful : before.network.Truthful (NetworkTasksOk before)
      (SeenNetwork before)) :
    after.network.Truthful (NetworkTasksOk after) (SeenNetwork after) := by
  have hwhole : Step before label after := .network hstep
  cases hstep with
  | built => trivial
  | buildFailed hstarting reason =>
      rw [hstarting] at htruthful
      exact iff_of_false nofun htruthful
  | @init event rest hsupervising hqueue => cases event; trivial
  | initClosed => trivial
  | @peermanager result hsupervising hjoined => cases result <;> exact hjoined
  | @looplisten result hsupervising hjoined => cases result <;> exact hjoined
  | send hclosing hopen hroom =>
      rw [hclosing] at htruthful
      exact hwhole.seenNetwork _ htruthful
  | sendClosed hclosing hclosed =>
      rw [hclosing] at htruthful
      exact hwhole.seenNetwork _ htruthful
  | complited hclosing hcomplited =>
      rw [hclosing] at htruthful
      exact complited_network htruthful hcomplited
  | ended hleaving =>
      have hruns : ¬ before.network.Runs := by rw [hleaving]; exact id
      rw [hleaving] at htruthful
      exact Iff.trans htruthful (hwhole.networkTasksOk_iff hruns).symm

theorem ProtocolStep.truthful (hstep : ProtocolStep before label after)
    (htruthful : before.protocol.Truthful (ProtocolTaskOk before)
      (SeenProtocol before)) :
    after.protocol.Truthful (ProtocolTaskOk after) (SeenProtocol after) := by
  have hwhole : Step before label after := .protocol hstep
  cases hstep with
  | built => trivial
  | buildFailed hstarting reason =>
      rw [hstarting] at htruthful
      exact iff_of_false nofun htruthful
  | @init event rest hsupervising hqueue => cases event; trivial
  | initClosed => trivial
  | @handlemessage result hsupervising hjoined => cases result <;> exact hjoined
  | send hclosing hopen hroom =>
      rw [hclosing] at htruthful
      exact hwhole.seenProtocol _ htruthful
  | sendClosed hclosing hclosed =>
      rw [hclosing] at htruthful
      exact hwhole.seenProtocol _ htruthful
  | complited hclosing hcomplited =>
      rw [hclosing] at htruthful
      exact complited_protocol htruthful hcomplited
  | ended hleaving =>
      have hruns : ¬ before.protocol.Runs := by rw [hleaving]; exact id
      rw [hleaving] at htruthful
      exact Iff.trans htruthful (hwhole.protocolTaskOk_iff hruns).symm

/-- Only its own steps move the network thread. -/
theorem Step.network_cases (hstep : Step before label after) :
    NetworkStep before label after ∨ after.network = before.network := by
  cases hstep with
  | init hstep => exact .inr hstep.frame.1
  | network hstep => exact .inl hstep
  | protocol hstep => cases hstep <;> exact .inr rfl
  | looplisten hstep => cases hstep <;> exact .inr rfl
  | node hstep => exact .inr hstep.frame.1
  | panic hstep => cases hstep <;> exact .inr rfl

theorem Step.protocol_cases (hstep : Step before label after) :
    ProtocolStep before label after ∨ after.protocol = before.protocol := by
  cases hstep with
  | init hstep => exact .inr hstep.frame.2.1
  | network hstep =>
      cases hstep with
      | send => exact .inr (by simp)
      | _ => exact .inr rfl
  | protocol hstep => exact .inl hstep
  | looplisten hstep => cases hstep <;> exact .inr rfl
  | node hstep => exact .inr hstep.frame.2.1
  | panic hstep => cases hstep <;> exact .inr rfl

theorem Step.main_cases (hstep : Step before label after) :
    InitStep before label after ∨ after.main = before.main := by
  cases hstep with
  | init hstep => exact .inl hstep
  | network hstep =>
      cases hstep with
      | send => exact .inr (by simp)
      | _ => exact .inr rfl
  | protocol hstep => cases hstep <;> exact .inr rfl
  | looplisten hstep => cases hstep <;> exact .inr rfl
  | node hstep => cases hstep <;> exact .inr rfl
  | panic hstep => cases hstep <;> exact .inr rfl

/-- An ended thread stays ended. -/
theorem Step.network_ended (hstep : Step before label after)
    {result : Except ErrorThreadNetwork Unit}
    (hended : before.network = .ended result) :
    after.network = .ended result := by
  obtain hstep | hnetwork := hstep.network_cases
  · cases hstep <;> simp_all
  · rw [hnetwork, hended]

theorem Step.protocol_ended (hstep : Step before label after)
    {result : Except ErrorThreadProtocol Unit}
    (hended : before.protocol = .ended result) :
    after.protocol = .ended result := by
  obtain hstep | hprotocol := hstep.protocol_cases
  · cases hstep <;> simp_all
  · rw [hprotocol, hended]

/-- What `main` has joined is what the threads have returned. -/
def JoinedByMain (process : Process) : Prop :=
  match process.main with
  | .receiving | .joiningNetwork => True
  | .joiningProtocol network =>
      ∃ result, process.network = .ended result ∧ network = .ok result
  | .returned result =>
      ∃ network protocol, process.network = .ended network ∧
        process.protocol = .ended protocol ∧
        result = resultInit (.ok network) (.ok protocol)

theorem JoinedByMain.step (hjoined : JoinedByMain before)
    (hstep : Step before label after) : JoinedByMain after := by
  obtain hinit | hmain := hstep.main_cases
  · cases hinit with
    | @receive event rest hmain hqueue => cases event <;> trivial
    | closed => trivial
    | joinNetwork hmain hnetwork => exact ⟨_, hnetwork, rfl⟩
    | joinProtocol hmain hprotocol =>
        simp only [JoinedByMain, hmain] at hjoined
        obtain ⟨result, hnetwork, rfl⟩ := hjoined
        exact ⟨result, _, hnetwork, hprotocol, rfl⟩
  · unfold JoinedByMain at hjoined ⊢
    rw [hmain]
    cases hphase : before.main with
    | receiving | joiningNetwork => trivial
    | joiningProtocol network =>
        simp only [hphase] at hjoined
        obtain ⟨result, hnetwork, hresult⟩ := hjoined
        exact ⟨result, hstep.network_ended hnetwork, hresult⟩
    | returned returned =>
        simp only [hphase] at hjoined
        obtain ⟨network, protocol, hnetwork, hprotocol, hresult⟩ := hjoined
        exact ⟨network, protocol, hstep.network_ended hnetwork,
          hstep.protocol_ended hprotocol, hresult⟩

/-- What the threads return and `main` joins tells how the tasks have ended. -/
structure Accounted (process : Process) : Prop where
  network : process.network.Truthful (NetworkTasksOk process)
    (SeenNetwork process)
  protocol : process.protocol.Truthful (ProtocolTaskOk process)
    (SeenProtocol process)
  main : JoinedByMain process

theorem Accounted.initial (nonce : UInt64) : Accounted (.initial nonce) where
  network hok := by cases hok.1
  protocol hok := hok.hasLeft
  main := trivial

theorem Accounted.step (haccounted : Accounted before)
    (hstep : Step before label after) : Accounted after where
  network := by
    obtain hnetwork | hnetwork := hstep.network_cases
    · exact hnetwork.truthful haccounted.network
    · rw [hnetwork]
      exact haccounted.network.keep hstep.networkTasksOk_iff hstep.seenNetwork
  protocol := by
    obtain hprotocol | hprotocol := hstep.protocol_cases
    · exact hprotocol.truthful haccounted.protocol
    · rw [hprotocol]
      exact haccounted.protocol.keep hstep.protocolTaskOk_iff hstep.seenProtocol
  main := haccounted.main.step hstep

theorem accounted_run {nonce : UInt64} {labels : List Label} {process : Process}
    (run : Run Step (.initial nonce) labels process) : Accounted process :=
  run.invariant Accounted (.initial nonce) fun _ _ _ hbefore hstep =>
    hbefore.step hstep

end Steps

/-! ## What `main` returns -/

section Runs

variable {nonce : UInt64} {labels : List Label} {process : Process}

/-- `main` returns an error of the network thread. -/
def BlamesNetwork : Except ErrorInit Unit → Prop
  | .error (.errorThreadNetwork _) => True
  | .error (.errorThreadNetworkThreadProtocol _ _) => True
  | _ => False

/-- `main` returns an error of the protocol thread. -/
def BlamesProtocol : Except ErrorInit Unit → Prop
  | .error (.errorThreadProtocol _) => True
  | .error (.errorThreadNetworkThreadProtocol _ _) => True
  | _ => False

theorem blamesNetwork_resultInit (network : Except ErrorThreadNetwork Unit)
    (protocol : Except ErrorThreadProtocol Unit) :
    BlamesNetwork (resultInit (.ok network) (.ok protocol)) ↔
      network ≠ .ok () := by
  cases network <;> cases protocol <;> simp [resultInit, BlamesNetwork]

theorem blamesProtocol_resultInit (network : Except ErrorThreadNetwork Unit)
    (protocol : Except ErrorThreadProtocol Unit) :
    BlamesProtocol (resultInit (.ok network) (.ok protocol)) ↔
      protocol ≠ .ok () := by
  cases network <;> cases protocol <;> simp [resultInit, BlamesProtocol]

/-- What `main` returns names a thread if a task of that thread has not
returned `Ok`, and only then. -/
theorem returned_blames (run : Run Step (.initial nonce) labels process)
    {result : Except ErrorInit Unit} (hmain : process.main = .returned result) :
    (BlamesNetwork result ↔ ¬ NetworkTasksOk process) ∧
      (BlamesProtocol result ↔ ¬ ProtocolTaskOk process) := by
  obtain ⟨hnetwork, hprotocol, hjoined⟩ := accounted_run run
  simp only [JoinedByMain, hmain] at hjoined
  obtain ⟨network, protocol, hphase, hphase', rfl⟩ := hjoined
  rw [hphase] at hnetwork
  rw [hphase'] at hprotocol
  rw [blamesNetwork_resultInit, blamesProtocol_resultInit]
  exact ⟨not_congr hnetwork, not_congr hprotocol⟩

theorem returned_blames_failedBuild : ∃ labels process result,
    Run Step (.initial 0) labels process ∧ process.main = .returned result ∧
      (BlamesNetwork result ↔ ¬ NetworkTasksOk process) ∧
      (BlamesProtocol result ↔ ¬ ProtocolTaskOk process) := by
  obtain ⟨labels, process, run, -, -, hmain⟩ := failedBuild_run
  exact ⟨labels, process, _, run, hmain, returned_blames run hmain⟩

end Runs

end P2PNetwork.Supervision
