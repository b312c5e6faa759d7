import P2PNetwork.Runtime.ShutdownOrders
import P2PNetwork.Runtime.Work

/-!
# The process comes to rest

Left to itself the process makes finitely many steps, however its threads and
tasks are scheduled: no two of them keep each other busy.  When the network
thread has ended, the place where the process comes to rest is its end.
-/

namespace P2PNetwork.Supervision

open P2PNetwork.EventLoop
open P2PNetwork.Events
open P2PNetwork.Handler
open P2PNetwork.Handshake
open P2PNetwork.LoopListen
open P2PNetwork.Runtime (HandleStep HasLeft ManagerPhase ManagerStep SpawnedOnly
  System)
open P2PNetwork.ThreadNetwork (ErrorThreadNetwork
  EventsCriticalCompletionThreadNetwork ThreadNetworkSend)
open P2PNetwork.ThreadProtocol (EventsCriticalCompletionThreadProtocol)

/-! ## What is left to do -/

def networkSendWork : ThreadNetworkSend → ℕ
  | .toPeermanager _ => 26
  | .toLooplisten _ => 2

/-- Until a thread has ended, it shuts its tasks down, reports and returns. -/
def networkWork : NetworkPhase → ℕ
  | .starting | .supervising => 32
  | .closing _ rest => (rest.map networkSendWork).sum + 3
  | .leaving _ => 1
  | .ended _ => 0

def protocolWork : ProtocolPhase → ℕ
  | .starting | .supervising => 6
  | .closing _ rest => 2 * rest.length + 3
  | .leaving _ => 1
  | .ended _ => 0

def MainPhase.work : MainPhase → ℕ
  | .receiving => 4
  | .joiningNetwork => 2
  | .joiningProtocol _ => 1
  | .returned _ => 0

/-- A connection that is being accepted. -/
def LoopListenPhase.work : LoopListenPhase → ℕ
  | .binding => 0
  | .running turn => turn.cost (fun _ => 26) fun _ _ => 0

def Process.work (process : Process) : ℕ :=
  process.main.work + networkWork process.network +
    protocolWork process.protocol + process.looplisten.work +
    process.node.work + process.initToNetwork.length +
    process.initToProtocol.length + process.toInit.length +
    25 * process.networkToPeermanager.length +
    process.networkToLooplisten.length +
    25 * process.looplistenToPeermanager.length +
    process.protocolToHandlemessage.length

/-! ## What is dropped -/

section Drops

theorem work_dropTurn_le (turn : HandleTurn) :
    Runtime.handleWork (dropTurn turn) = 0 := by
  rcases turn with ⟨_, _ | _ | _⟩ | _ <;> rfl

theorem work_dropLooplisten (looplisten : LoopListenPhase) :
    (dropLooplisten looplisten).work = 0 := by
  rcases looplisten with _ | ⟨_, _ | _ | _⟩ | _ <;> rfl

theorem work_dropPeermanager (manager : ManagerPhase) :
    (dropPeermanager manager).work = 0 := by
  cases manager <;> rfl

theorem work_dropPeer (peer : Runtime.PeerPhase) : (dropPeer peer).work = 0 := by
  cases peer <;> rfl

theorem work_dropManager_le (system : System) :
    (Process.dropManager system).work ≤ system.work := by
  have hpeers : (Process.dropManager system).peersWork = 0 := by
    apply Finset.sum_eq_zero
    intro task htask
    exact work_dropPeer _
  have hmanager : (Process.dropManager system).manager.work = 0 :=
    work_dropPeermanager system.manager
  have hcommands : (Process.dropManager system).commandsWork =
      system.commandsWork := rfl
  unfold System.work
  rw [hpeers, hmanager, hcommands]
  simp only [Process.dropManager]
  omega

theorem work_dropHandle_le (system : System) :
    (Process.dropHandle system).work ≤ system.work := by
  have hhandle : Runtime.handleWork (Process.dropHandle system).handle = 0 :=
    work_dropTurn_le system.handle
  have hpeers : (Process.dropHandle system).peersWork = system.peersWork := rfl
  have hcommands : (Process.dropHandle system).commandsWork =
      system.commandsWork := rfl
  unfold System.work
  rw [hhandle, hpeers, hcommands]
  simp only [Process.dropHandle]
  omega

theorem registry_dropPeermanager (manager : ManagerPhase) :
    (dropPeermanager manager).registry = manager.registry := by
  cases manager <;> rfl

theorem dropPeer_eq_absent {peer : Runtime.PeerPhase} :
    dropPeer peer = .absent ↔ peer = .absent := by
  cases peer <;> simp [dropPeer]

theorem spawnedOnly_dropManager {system : System} (hspawned : SpawnedOnly system) :
    SpawnedOnly (Process.dropManager system) where
  peers task htask := dropPeer_eq_absent.mpr (hspawned.peers task htask)
  commands task htask := hspawned.commands task (dropPeer_eq_absent.mp htask)
  entries := by
    simp only [Process.dropManager, registry_dropPeermanager]
    exact fun task htask habsent =>
      hspawned.entries task htask (dropPeer_eq_absent.mp habsent)
  turn turn hturn := by
    cases hmanager : system.manager <;>
      simp [Process.dropManager, hmanager, dropPeermanager] at hturn
  remaining incident self rest hrest := by
    cases hmanager : system.manager <;>
      simp [Process.dropManager, hmanager, dropPeermanager] at hrest

theorem spawnedOnly_dropHandle {system : System} (hspawned : SpawnedOnly system) :
    SpawnedOnly (Process.dropHandle system) :=
  { hspawned with }

end Drops

/-! ## Steps -/

section Steps

variable {before after : Process} {label : Label}

theorem Step.spawnedOnly (hstep : Step before label after)
    (hspawned : SpawnedOnly before.node) : SpawnedOnly after.node := by
  cases hstep with
  | init hstep =>
      obtain ⟨-, -, -, hnode⟩ := hstep.frame
      rwa [hnode]
  | network hstep =>
      cases hstep with
      | send => simpa using hspawned
      | ended hleaving => exact spawnedOnly_dropManager hspawned
      | _ => exact hspawned
  | protocol hstep =>
      cases hstep with
      | ended hleaving => exact spawnedOnly_dropHandle hspawned
      | _ => exact hspawned
  | looplisten hstep => cases hstep <;> exact hspawned
  | node hstep =>
      obtain ⟨own, -, hstep⟩ := hstep.node_step
      exact hspawned.step hstep
  | panic hstep =>
      cases hstep with
      | looplisten => exact hspawned
      | peermanager => exact spawnedOnly_dropManager hspawned
      | handlemessage => exact spawnedOnly_dropHandle hspawned

theorem InitStep.work_lt (hstep : InitStep before label after) :
    after.work < before.work := by
  cases hstep with
  | @receive event rest hmain hqueue =>
      cases event <;>
        simp only [Process.receive, Process.shutdownProtocol,
          Process.shutdownNetwork] <;>
        split <;>
        simp only [Process.work, MainPhase.work, hmain, hqueue,
          List.length_cons, List.length_append, List.length_nil] <;>
        omega
  | closed hmain hqueue hnetwork hprotocol =>
      simp only [Process.receive, Process.work, MainPhase.work, hmain]
      omega
  | joinNetwork hmain hnetwork =>
      simp only [Process.work, MainPhase.work, hmain]
      omega
  | joinProtocol hmain hprotocol =>
      simp only [Process.work, MainPhase.work, hmain]
      omega

theorem work_leaveNetwork_lt {process : Process}
    (hsupervising : process.network = .supervising)
    (incident : EventsCriticalCompletionThreadNetwork) :
    (process.leaveNetwork incident).work < process.work := by
  have hsends : ((ThreadNetwork.shutdownSends incident).map networkSendWork).sum ≤
      28 := by
    cases incident <;> simp [ThreadNetwork.shutdownSends, networkSendWork]
  simp only [Process.leaveNetwork, Process.work, networkWork, hsupervising]
  omega

theorem work_leaveProtocol_lt {process : Process}
    (hsupervising : process.protocol = .supervising)
    (incident : EventsCriticalCompletionThreadProtocol) :
    (process.leaveProtocol incident).work < process.work := by
  have hsends : (ThreadProtocol.shutdownSends incident).length ≤ 1 := by
    cases incident <;> simp [ThreadProtocol.shutdownSends]
  simp only [Process.leaveProtocol, Process.work, protocolWork, hsupervising]
  omega

theorem NetworkStep.work_lt (hstep : NetworkStep before label after)
    (hinternal : Internal label) : after.work < before.work := by
  cases hstep with
  | built | buildFailed => exact hinternal.elim
  | @init event rest hsupervising hqueue =>
      have hleft := @work_leaveNetwork_lt { before with initToNetwork := rest }
        hsupervising (ThreadNetwork.incidentInit (some event))
      refine hleft.trans ?_
      simp only [Process.work, hqueue, List.length_cons]
      omega
  | initClosed hsupervising => exact work_leaveNetwork_lt hsupervising _
  | peermanager hsupervising => exact work_leaveNetwork_lt hsupervising _
  | looplisten hsupervising => exact work_leaveNetwork_lt hsupervising _
  | @send incident send rest hclosing hopen hroom =>
      cases send <;>
        simp only [Process.deliver, Process.work, networkWork, networkSendWork,
          hclosing, List.map_cons, List.sum_cons, List.length_append,
          List.length_singleton] <;>
        omega
  | @sendClosed incident send rest hclosing hclosed =>
      have hpos : 0 < networkSendWork send := by
        cases send <;> simp [networkSendWork]
      simp only [Process.work, networkWork, hclosing, List.map_cons, List.sum_cons]
      omega
  | complited hclosing hcomplited =>
      simp only [Process.work, networkWork, hclosing, List.length_append,
        List.length_singleton, List.map_nil, List.sum_nil]
      omega
  | ended hleaving =>
      have hnode := work_dropManager_le before.node
      have hlooplisten := work_dropLooplisten before.looplisten
      simp only [Process.work, networkWork, hleaving]
      omega

theorem ProtocolStep.work_lt (hstep : ProtocolStep before label after)
    (hinternal : Internal label) : after.work < before.work := by
  cases hstep with
  | built | buildFailed => exact hinternal.elim
  | @init event rest hsupervising hqueue =>
      have hleft := @work_leaveProtocol_lt { before with initToProtocol := rest }
        hsupervising (ThreadProtocol.incidentInit (some event))
      refine hleft.trans ?_
      simp only [Process.work, hqueue, List.length_cons]
      omega
  | initClosed hsupervising => exact work_leaveProtocol_lt hsupervising _
  | handlemessage hsupervising => exact work_leaveProtocol_lt hsupervising _
  | send hclosing hopen hroom =>
      simp only [Process.work, protocolWork, hclosing, List.length_append,
        List.length_nil, List.length_cons]
      omega
  | sendClosed hclosing hclosed =>
      simp only [Process.work, protocolWork, hclosing, List.length_cons]
      omega
  | @complited incident result reports hclosing hcomplited =>
      have hreports : reports.length ≤ 1 := by cases hcomplited <;> simp
      simp only [Process.work, protocolWork, hclosing, List.length_append]
      omega
  | ended hleaving =>
      have hnode := work_dropHandle_le before.node
      simp only [Process.work, protocolWork, hleaving]
      omega

theorem LoopListenStep.work_lt (hstep : LoopListenStep before label after)
    (hinternal : Internal label) : after.work < before.work := by
  cases hstep with
  | bind | accept => exact hinternal.elim
  | @thread event rest hruns hlooplisten hqueue =>
      have hturn : (LoopListenPhase.running (LoopListen.turn
          (.incidentThreadNetwork (some event)))).work = 0 := by
        cases event <;> rfl
      have hidle : (LoopListenPhase.running (.done () .next)).work = 0 := rfl
      simp only [Process.work, hlooplisten, hqueue, List.length_cons]
      omega
  | @send event resume hruns hlooplisten hopen hroom =>
      have hprice := Await.cost_resume_le (fun _ : EventsLoopListen => 26)
        (fun (_ : Unit) (_ : Flow (Except ErrorLoopListen Unit)) => 0) () event
        resume true
      simp only [Process.work, LoopListenPhase.work, hlooplisten,
        List.length_append, List.length_singleton]
      omega
  | @sendClosed event resume hruns hlooplisten hclosed =>
      have hprice := Await.cost_resume_le (fun _ : EventsLoopListen => 26)
        (fun (_ : Unit) (_ : Flow (Except ErrorLoopListen Unit)) => 0) () event
        resume false
      simp only [Process.work, LoopListenPhase.work, hlooplisten]
      omega

theorem NodeStep.work_lt (hstep : NodeStep before label after)
    (hspawned : SpawnedOnly before.node) (hinternal : Internal label) :
    after.work < before.work := by
  cases hstep with
  | manager hruns hstep hlabel =>
      have hnode := hstep.work_lt hlabel
      simp only [Process.work]
      omega
  | managerThread hruns hqueue connect hstep =>
      have hnode := hstep.work_take hspawned
      simp only [Process.work, hqueue, List.length_cons]
      omega
  | managerLooplisten hruns hqueue hstep =>
      have hnode := hstep.work_take hspawned
      simp only [Process.work, hqueue, List.length_cons]
      omega
  | managerLooplistenClosed hruns hqueue hclosed hstep =>
      have hnode := hstep.work_takeClosed hspawned
      simp only [Process.work]
      omega
  | peer hruns hstep =>
      have hnode := hstep.work_lt hspawned hinternal
      simp only [Process.work]
      omega
  | handle hruns hstep hlabel =>
      have hnode := hstep.work_lt
      simp only [Process.work]
      omega
  | handleThread hruns hqueue hstep =>
      have hnode := hstep.work_lt
      simp only [Process.work, hqueue, List.length_cons]
      omega

/-- Every step that the process makes by itself takes from the work left. -/
theorem Step.work_lt (hstep : Step before label after)
    (hspawned : SpawnedOnly before.node) (hinternal : Internal label) :
    after.work < before.work := by
  cases hstep with
  | init hstep => exact hstep.work_lt
  | network hstep => exact hstep.work_lt hinternal
  | protocol hstep => exact hstep.work_lt hinternal
  | looplisten hstep => exact hstep.work_lt hinternal
  | node hstep => exact hstep.work_lt hspawned hinternal
  | panic hstep => cases hstep <;> exact hinternal.elim

end Steps

/-! ## Runs -/

/-- The runs of the process left to itself. -/
abbrev InternalRun (first : Process) (labels : List Label) (last : Process) :
    Prop :=
  Run (Restrict Step fun _ label => Internal label) first labels last

section Runs

variable {nonce : UInt64} {labels : List Label} {process : Process}

theorem spawnedOnly_run (run : Run Step (.initial nonce) labels process) :
    SpawnedOnly process.node :=
  run.invariant (fun reached => SpawnedOnly reached.node) (.initial nonce)
    fun _ _ _ hbefore hstep => hstep.spawnedOnly hbefore

theorem internalRun_length_le (run : Run Step (.initial nonce) labels process)
    {internal : List Label} {last : Process}
    (hinternal : InternalRun process internal last) :
    internal.length ≤ process.work := by
  have hlength := hinternal.length_le (fun reached => SpawnedOnly reached.node)
    Process.work (spawnedOnly_run run)
    (fun _ _ _ hbefore hstep => hstep.spawnedOnly hbefore)
    fun _ _ _ hbefore hkind hstep => hstep.work_lt hbefore hkind
  exact (Nat.le_add_left _ _).trans hlength

theorem exists_internalRun (run : Run Step (.initial nonce) labels process) :
    ∃ internal last, InternalRun process internal last ∧
      Quiescent Step Internal last :=
  exists_quiescent (fun reached => SpawnedOnly reached.node) Process.work
    (fun _ _ _ hbefore hstep => hstep.spawnedOnly hbefore)
    (fun _ _ _ hbefore hkind hstep => hstep.work_lt hbefore hkind) process
    (spawnedOnly_run run)

/-- Left to itself, the process makes no more steps than there is work left, in
whatever order, and it comes to rest. -/
theorem comes_to_rest (run : Run Step (.initial nonce) labels process) :
    (∀ internal last, InternalRun process internal last →
      internal.length ≤ process.work) ∧
    ∃ internal last, InternalRun process internal last ∧
      Quiescent Step Internal last :=
  ⟨fun _ _ => internalRun_length_le run, exists_internalRun run⟩

theorem comes_to_rest_unboundListener :
    (∀ internal last, InternalRun unboundListener internal last →
      internal.length ≤ 44) ∧
    ∃ internal last, InternalRun unboundListener internal last ∧
      Quiescent Step Internal last := by
  obtain ⟨labels, run⟩ := unboundListener_run
  have hwork : unboundListener.work = 44 := rfl
  exact hwork ▸ comes_to_rest run

/-! ## After the network thread -/

/-- When the manager is gone nobody waits for a place in a channel. -/
theorem unsuspended_of_network_ended
    (run : Run Step (.initial nonce) labels process)
    (hnetwork : process.network.HasEnded) : process.Unsuspended := by
  obtain ⟨hmanager, hlooplisten⟩ := (endsDropped_run run).network hnetwork
  have hordered := ordered_run run
  exact {
    manager := by
      intro send hawaits
      rw [hmanager.awaits_eq] at hawaits
      cases hawaits
    handle := fun _ _ _ _ hopen => absurd hmanager hopen
    peers := fun _ _ _ hopen => absurd hmanager hopen
    looplisten := fun _ _ _ hopen => absurd hmanager hopen
    network := fun _ _ _ hclosing _ => hordered.network_hasRoom hclosing
    protocol := fun _ _ _ hclosing _ => hordered.protocol_hasRoom hclosing }

theorem Step.not_starting {before after : Process} {label : Label}
    (hstep : Step before label after) (hbuilt : before.protocol ≠ .starting) :
    after.protocol ≠ .starting := by
  obtain hstep | hprotocol := hstep.protocol_cases
  · cases hstep <;> simp_all [Process.leaveProtocol]
  · rwa [hprotocol]

/-- What has ended or has been built stays so. -/
theorem Step.after_network {before after : Process} {label : Label}
    (hstep : Step before label after)
    (hbefore : before.network.HasEnded ∧ before.protocol ≠ .starting) :
    after.network.HasEnded ∧ after.protocol ≠ .starting := by
  obtain ⟨hnetwork, hbuilt⟩ := hbefore
  refine ⟨?_, hstep.not_starting hbuilt⟩
  cases hphase : before.network with
  | ended result =>
      rw [hstep.network_ended hphase]
      trivial
  | _ => simp [hphase, ThreadPhase.HasEnded] at hnetwork

/-- Once the network thread has ended, for whatever reason, and the protocol
thread has its runtime, the process ends by itself: `main` has returned wherever
it comes to rest. -/
theorem returns_after_network (run : Run Step (.initial nonce) labels process)
    (hnetwork : process.network.HasEnded) (hbuilt : process.protocol ≠ .starting) :
    (∀ internal last, InternalRun process internal last →
      Quiescent Step Internal last → last.main.HasReturned) ∧
    ∃ internal last, InternalRun process internal last ∧
      last.main.HasReturned := by
  have hreturned {internal : List Label} {last : Process}
      (hinternal : InternalRun process internal last)
      (hquiescent : Quiescent Step Internal last) : last.main.HasReturned := by
    have hwhole := run.trans hinternal.of_restrict
    obtain ⟨hended, hstarted⟩ := hinternal.of_restrict.invariant
      (fun reached => reached.network.HasEnded ∧ reached.protocol ≠ .starting)
      ⟨hnetwork, hbuilt⟩ fun _ _ _ hbefore hstep => hstep.after_network hbefore
    exact returned_of_network_ended hwhole hquiescent
      (unsuspended_of_network_ended hwhole hended) hended hstarted
  refine ⟨fun _ _ => hreturned, ?_⟩
  obtain ⟨internal, last, hinternal, hquiescent⟩ := exists_internalRun run
  exact ⟨internal, last, hinternal, hreturned hinternal hquiescent⟩

/-- The network thread has not got its runtime, and the protocol thread has. -/
theorem returns_after_network_failedBuild : ∃ labels process,
    Run Step (.initial 0) labels process ∧ process.main = .receiving ∧
      process.protocol = .supervising ∧
      ∃ internal last, InternalRun process internal last ∧
        last.main.HasReturned := by
  have hfailed : Step (.initial 0) (.buildNetwork (.error { code := 24 })) _ :=
    .network (.buildFailed rfl _)
  have hended : Run Step (.initial 0) _ unbuilt :=
    .tail (.tail (.refl _) hfailed) (.network (.ended rfl))
  have hbuilt := hended.tail (.protocol (.built rfl))
  exact ⟨_, _, hbuilt, rfl, rfl,
    (returns_after_network hbuilt trivial (by simp)).2⟩

end Runs

end P2PNetwork.Supervision
