import P2PNetwork.Runtime.PeerOrders
import P2PNetwork.Runtime.Termination

/-!
# Orders that arrive

A thread that leaves its loop tells its tasks to shut down.  Until a task has
left its own loop the order that it was given stays in its channel, and `main`
stops receiving only when a thread has nothing left to do.
-/

namespace P2PNetwork.Supervision

open P2PNetwork.EventLoop
open P2PNetwork.Events
open P2PNetwork.Handler
open P2PNetwork.LoopListen
open P2PNetwork.Manager
open P2PNetwork.Runtime (HandleStep HasLeft ManagerPhase ManagerStep PeersAnswer
  SpawnedOnly System)
open P2PNetwork.ThreadNetwork (EventsCriticalCompletionThreadNetwork
  ThreadNetworkSend)
open P2PNetwork.ThreadProtocol (EventsCriticalCompletionThreadProtocol)

/-! ## The tasks of the network thread -/

/-- The manager has left its loop, or its task is gone. -/
def ManagerLeft : ManagerPhase → Prop
  | .running turn => HasLeft turn
  | _ => True

theorem managerLeft_of_hasFinished {manager : ManagerPhase}
    (hfinished : manager.HasFinished) : ManagerLeft manager := by
  cases manager with
  | running => exact hfinished.elim
  | _ => trivial

/-- The order to shut down is on its way to the task, or the task needs none. -/
def Process.Heard (process : Process) : ThreadNetworkSend → Prop
  | .toPeermanager _ =>
      .shutdown ∈ process.networkToPeermanager ∨
        ManagerLeft process.node.manager
  | .toLooplisten _ =>
      .shutdown ∈ process.networkToLooplisten ∨ process.looplisten.HasEnded

/-- The order is on its way to `HandleMessage`, or it needs none. -/
def Process.HandleHeard (process : Process) : Prop :=
  process.protocolToHandlemessage ≠ [] ∨ HasLeft process.node.handle

section Steps

variable {before after : Process} {label : Label}

theorem managerLeft_managerStep {system system' : System}
    {label : Runtime.Label} (hstep : ManagerStep system label system')
    (hleft : ManagerLeft system.manager) : ManagerLeft system'.manager := by
  cases hstep with
  | take hmanager | protocol hmanager | protocolClosed hmanager | peer hmanager
  | join hmanager | send hmanager | sendClosed hmanager =>
      rw [hmanager] at hleft
      exact hleft.elim
  | _ => trivial

theorem Process.Heard.congr {send : ThreadNetworkSend} (hheard : before.Heard send)
    (hpeermanager : after.networkToPeermanager = before.networkToPeermanager)
    (hmanager : ManagerLeft before.node.manager → ManagerLeft after.node.manager)
    (hqueue : after.networkToLooplisten = before.networkToLooplisten)
    (hlooplisten : before.looplisten.HasEnded → after.looplisten.HasEnded) :
    after.Heard send := by
  cases send with
  | toPeermanager event =>
      obtain hqueued | hleft := hheard
      · exact .inl (hpeermanager ▸ hqueued)
      · exact .inr (hmanager hleft)
  | toLooplisten event =>
      obtain hqueued | hended := hheard
      · exact .inl (hqueue ▸ hqueued)
      · exact .inr (hlooplisten hended)

theorem heard_deliver {send other : ThreadNetworkSend}
    (hheard : before.Heard send) : (before.deliver other).Heard send := by
  cases other <;> cases send <;>
    simp only [Process.Heard, Process.deliver, List.mem_append] at hheard ⊢ <;>
    tauto

theorem managerLeft_dropPeermanager (manager : ManagerPhase) :
    ManagerLeft (dropPeermanager manager) := by
  cases manager <;> trivial

theorem LoopListenStep.heard {send : ThreadNetworkSend}
    (hstep : LoopListenStep before label after) (hheard : before.Heard send) :
    after.Heard send := by
  cases hstep with
  | bind hruns hlooplisten | accept hruns hlooplisten
  | send hruns hlooplisten | sendClosed hruns hlooplisten =>
      refine hheard.congr rfl id rfl ?_
      rw [hlooplisten]
      exact False.elim
  | @thread event rest hruns hlooplisten hqueue =>
      cases send with
      | toPeermanager => exact hheard
      | toLooplisten =>
          obtain hqueued | hended := hheard
          · rw [hqueue, List.mem_cons] at hqueued
            obtain rfl | hrest := hqueued
            · exact .inr trivial
            · exact .inl hrest
          · rw [hlooplisten] at hended
            exact hended.elim

theorem NodeStep.heard {send : ThreadNetworkSend}
    (hstep : NodeStep before label after) (hheard : before.Heard send) :
    after.Heard send := by
  cases hstep with
  | manager hruns hstep | managerLooplisten hruns hqueue hstep
  | managerLooplistenClosed hruns hqueue hclosed hstep =>
      exact hheard.congr rfl (managerLeft_managerStep hstep) rfl id
  | @managerThread node event rest hruns hqueue connect hstep =>
      cases send with
      | toPeermanager =>
          obtain hqueued | hleft := hheard
          · rw [hqueue, List.mem_cons] at hqueued
            obtain rfl | hrest := hqueued
            · right
              cases hstep
              cases connect <;> trivial
            · exact .inl hrest
          · exact .inr (managerLeft_managerStep hstep hleft)
      | toLooplisten => exact hheard
  | peer hruns hstep =>
      refine hheard.congr rfl ?_ rfl id
      rw [hstep.manager_eq]
      exact id
  | handle hruns hstep | handleThread hruns hqueue hstep =>
      refine hheard.congr rfl ?_ rfl id
      rw [hstep.manager_eq]
      exact id

/-- An order that has been given is not lost. -/
theorem Step.heard {send : ThreadNetworkSend} (hstep : Step before label after)
    (hheard : before.Heard send) : after.Heard send := by
  cases hstep with
  | init hstep =>
      cases hstep with
      | @receive event =>
          cases event <;>
            simp only [Process.receive, Process.shutdownProtocol,
              Process.shutdownNetwork] <;>
            split <;> exact hheard.congr rfl id rfl id
      | _ => exact hheard.congr rfl id rfl id
  | network hstep =>
      cases hstep with
      | send => exact (heard_deliver hheard).congr rfl id rfl id
      | ended =>
          exact hheard.congr rfl (fun _ => managerLeft_dropPeermanager _) rfl
            fun _ => hasEnded_dropLooplisten _
      | _ => exact hheard.congr rfl id rfl id
  | protocol hstep => cases hstep <;> exact hheard.congr rfl id rfl id
  | looplisten hstep => exact hstep.heard hheard
  | node hstep => exact hstep.heard hheard
  | panic hstep =>
      cases hstep with
      | looplisten =>
          exact hheard.congr rfl id rfl fun _ => hasEnded_dropLooplisten _
      | peermanager =>
          exact hheard.congr rfl (fun _ => managerLeft_dropPeermanager _) rfl id
      | handlemessage => exact hheard.congr rfl id rfl id

theorem Step.handleHeard (hstep : Step before label after)
    (hheard : before.HandleHeard) : after.HandleHeard := by
  cases hstep with
  | init hstep =>
      cases hstep with
      | @receive event =>
          cases event <;>
            simp only [Process.receive, Process.shutdownProtocol,
              Process.shutdownNetwork] <;>
            split <;> exact hheard
      | _ => exact hheard
  | network hstep =>
      cases hstep with
      | @send incident send => cases send <;> exact hheard
      | _ => exact hheard
  | protocol hstep =>
      cases hstep with
      | send => exact .inl (by simp)
      | ended => exact .inr (hasLeft_dropTurn _)
      | _ => exact hheard
  | looplisten hstep => cases hstep <;> exact hheard
  | node hstep =>
      cases hstep with
      | manager hruns hstep | managerThread hruns hqueue connect hstep
      | managerLooplisten hruns hqueue hstep
      | managerLooplistenClosed hruns hqueue hclosed hstep
      | peer hruns hstep =>
          refine hheard.imp_right fun hleft => ?_
          rwa [hstep.handle_eq]
      | handle hruns hstep =>
          exact hheard.imp_right fun hleft =>
            absurd hleft (not_hasLeft_of_handleStep hstep)
      | @handleThread node event rest hruns hqueue hstep =>
          right
          cases hstep
          cases event
          trivial
  | panic hstep =>
      cases hstep with
      | looplisten => exact hheard
      | peermanager => exact hheard
      | handlemessage => exact .inr (hasLeft_dropTurn _)

end Steps

/-! ## What has been ordered -/

/-- What the threads have told their tasks, and why `main` has stopped to
receive. -/
structure OrdersHeard (process : Process) : Prop where
  orders : ∀ incident rest, process.network = .closing incident rest →
    rest ⊆ ThreadNetwork.shutdownSends incident
  network : ∀ incident rest, process.network = .closing incident rest →
    ∀ send ∈ ThreadNetwork.shutdownSends incident,
      send ∈ rest ∨ process.Heard send
  protocol : ∀ incident rest, process.protocol = .closing incident rest →
    ∀ event ∈ ThreadProtocol.shutdownSends incident,
      event ∈ rest ∨ process.HandleHeard
  main : process.main ≠ .receiving →
    process.network.Past ∨ process.protocol.Past

theorem OrdersHeard.initial (nonce : UInt64) :
    OrdersHeard (.initial nonce) where
  orders incident rest hclosing := by cases hclosing
  network incident rest hclosing := by cases hclosing
  protocol incident rest hclosing := by cases hclosing
  main hmain := absurd rfl hmain

section Runs

variable {before after : Process} {label : Label}

/-- A thread tells its tasks to shut down and nothing else. -/
theorem order_eq {incident : EventsCriticalCompletionThreadNetwork}
    {send : ThreadNetworkSend}
    (hsend : send ∈ ThreadNetwork.shutdownSends incident) :
    send = .toPeermanager .shutdown ∨ send = .toLooplisten .shutdown := by
  cases incident <;> simp [ThreadNetwork.shutdownSends] at hsend <;> tauto

theorem heard_of_closed {send : ThreadNetworkSend}
    (hclosed : before.Closed send) : before.Heard send := by
  cases send with
  | toPeermanager => exact .inr (managerLeft_of_hasFinished hclosed)
  | toLooplisten => exact .inr hclosed

theorem NetworkStep.network_orders (hstep : NetworkStep before label after)
    (horders : OrdersHeard before)
    {incident : EventsCriticalCompletionThreadNetwork}
    {rest : List ThreadNetworkSend}
    (hclosing : after.network = .closing incident rest) :
    rest ⊆ ThreadNetwork.shutdownSends incident ∧
      ∀ send ∈ ThreadNetwork.shutdownSends incident,
        send ∈ rest ∨ after.Heard send := by
  cases hstep with
  | init | initClosed | peermanager | looplisten =>
      cases hclosing
      exact ⟨fun _ => id, fun _ => .inl⟩
  | @send _ send _ hbefore hopen hroom =>
      cases hclosing
      have hsubset := horders.orders _ _ hbefore
      refine ⟨(List.cons_subset.mp hsubset).2, fun other hother => ?_⟩
      obtain hleft | hheard := horders.network _ _ hbefore other hother
      · obtain rfl | hrest := List.mem_cons.mp hleft
        · right
          obtain rfl | rfl := order_eq hother
          · left
            simp [Process.deliver]
          · left
            simp [Process.deliver]
        · exact .inl hrest
      · exact .inr ((heard_deliver hheard).congr rfl id rfl id)
  | sendClosed hbefore hclosed =>
      cases hclosing
      have hsubset := horders.orders _ _ hbefore
      refine ⟨(List.cons_subset.mp hsubset).2, fun other hother => ?_⟩
      obtain hleft | hheard := horders.network _ _ hbefore other hother
      · obtain rfl | hrest := List.mem_cons.mp hleft
        · exact .inr ((heard_of_closed hclosed).congr rfl id rfl id)
        · exact .inl hrest
      · exact .inr (hheard.congr rfl id rfl id)
  | _ => cases hclosing

theorem ProtocolStep.protocol_orders (hstep : ProtocolStep before label after)
    {incident : EventsCriticalCompletionThreadProtocol}
    {rest : List EventsThreadProtocol}
    (hclosing : after.protocol = .closing incident rest) :
    ∀ event ∈ ThreadProtocol.shutdownSends incident,
      event ∈ rest ∨ after.HandleHeard := by
  cases hstep with
  | init | initClosed | handlemessage =>
      cases hclosing
      exact fun _ => .inl
  | send hbefore hopen hroom =>
      cases hclosing
      exact fun event hevent => .inr (.inl (by simp))
  | sendClosed hbefore hclosed =>
      cases hclosing
      exact fun event hevent => .inr (.inr hclosed)
  | _ => cases hclosing

theorem Step.network_past (hstep : Step before label after)
    (hpast : before.network.Past) : after.network.Past := by
  obtain hstep | hnetwork := hstep.network_cases
  · cases hstep with
    | ended => trivial
    | _ => simp_all [ThreadPhase.Past]
  · rwa [hnetwork]

theorem Step.protocol_past (hstep : Step before label after)
    (hpast : before.protocol.Past) : after.protocol.Past := by
  obtain hstep | hprotocol := hstep.protocol_cases
  · cases hstep with
    | ended => trivial
    | _ => simp_all [ThreadPhase.Past]
  · rwa [hprotocol]

theorem past_of_hasEnded {incident send error : Type}
    {thread : ThreadPhase incident send error} (hended : thread.HasEnded) :
    thread.Past := by
  cases thread with
  | ended => trivial
  | _ => exact hended.elim

/-- `main` stops to receive when a thread has reported or both have ended. -/
theorem InitStep.past (hstep : InitStep before label after)
    (hordered : Ordered before) : before.network.Past ∨ before.protocol.Past := by
  cases hstep with
  | @receive event rest hmain hqueue =>
      have hmem : event ∈ before.toInit := by rw [hqueue]; exact List.mem_cons_self
      cases event with
      | exitCompletionThreadNetwork =>
          exact .inl (past_of_reported hordered.reportNetwork hmem)
      | exitCompletionThreadProtocol =>
          exact .inr (past_of_reported hordered.reportProtocol hmem)
  | closed hmain hqueue hnetwork hprotocol => exact .inl (past_of_hasEnded hnetwork)
  | joinNetwork hmain hnetwork => exact .inl (by rw [hnetwork]; trivial)
  | joinProtocol hmain hprotocol => exact .inr (by rw [hprotocol]; trivial)

theorem OrdersHeard.step (horders : OrdersHeard before) (hordered : Ordered before)
    (hstep : Step before label after) : OrdersHeard after where
  orders incident rest hclosing := by
    obtain hnetwork | hnetwork := hstep.network_cases
    · exact (hnetwork.network_orders horders hclosing).1
    · exact horders.orders incident rest (hnetwork ▸ hclosing)
  network incident rest hclosing := by
    obtain hnetwork | hnetwork := hstep.network_cases
    · exact (hnetwork.network_orders horders hclosing).2
    · exact fun send hsend =>
        (horders.network incident rest (hnetwork ▸ hclosing) send hsend).imp_right
          hstep.heard
  protocol incident rest hclosing := by
    obtain hprotocol | hprotocol := hstep.protocol_cases
    · exact hprotocol.protocol_orders hclosing
    · exact fun event hevent =>
        (horders.protocol incident rest (hprotocol ▸ hclosing) event
          hevent).imp_right hstep.handleHeard
  main hmain := by
    obtain hinit | hsame := hstep.main_cases
    · exact (hinit.past hordered).imp hstep.network_past hstep.protocol_past
    · exact (horders.main (hsame ▸ hmain)).imp hstep.network_past
        hstep.protocol_past

variable {nonce : UInt64} {labels : List Label} {process : Process}

theorem ordersHeard_run (run : Run Step (.initial nonce) labels process) :
    OrdersHeard process := by
  have hboth := run.invariant
    (fun reached => OrdersHeard reached ∧ Ordered reached)
    ⟨.initial nonce, .initial nonce⟩ fun _ _ _ hbefore hstep =>
      ⟨hbefore.1.step hbefore.2 hstep, hbefore.2.step hstep⟩
  exact hboth.1

/-! ## The peers of the process -/

theorem peersAnswer_dropManager {system : System} (hpeers : PeersAnswer system) :
    PeersAnswer (Process.dropManager system) where
  steady task turn hturn := by
    cases hpeer : system.peers task <;>
      simp [Process.dropManager, hpeer, dropPeer] at hturn
  tasks := by
    simp only [Process.dropManager, registry_dropPeermanager]
    exact fun task htask habsent =>
      hpeers.tasks task htask (dropPeer_eq_absent.mp habsent)
  told task hdismissed := by
    cases hmanager : system.manager <;>
      simp [Process.dropManager, hmanager, dropPeermanager,
        ManagerPhase.Dismissed] at hdismissed

theorem Step.peersAnswer (hstep : Step before label after)
    (hpeers : PeersAnswer before.node) (hspawned : SpawnedOnly before.node) :
    PeersAnswer after.node := by
  cases hstep with
  | init hstep =>
      obtain ⟨-, -, -, hnode⟩ := hstep.frame
      rwa [hnode]
  | network hstep =>
      cases hstep with
      | send => simpa using hpeers
      | ended hleaving => exact peersAnswer_dropManager hpeers
      | _ => exact hpeers
  | protocol hstep =>
      cases hstep with
      | ended hleaving => exact { hpeers with }
      | _ => exact hpeers
  | looplisten hstep => cases hstep <;> exact hpeers
  | node hstep =>
      obtain ⟨own, -, hstep⟩ := hstep.node_step
      exact hpeers.step hspawned hstep
  | panic hstep =>
      cases hstep with
      | looplisten => exact hpeers
      | peermanager => exact peersAnswer_dropManager hpeers
      | handlemessage => exact { hpeers with }

theorem peersAnswer_run (run : Run Step (.initial nonce) labels process) :
    PeersAnswer process.node := by
  have hboth := run.invariant
    (fun reached => PeersAnswer reached.node ∧ SpawnedOnly reached.node)
    ⟨.initial nonce, .initial nonce⟩ fun _ _ _ hbefore hstep =>
      ⟨hstep.peersAnswer hbefore.1 hbefore.2, hstep.spawnedOnly hbefore.2⟩
  exact hboth.1

end Runs

end P2PNetwork.Supervision
