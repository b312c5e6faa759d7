import P2PNetwork.Runtime.ThreadResults

/-!
# The orders of a shutdown

The channels between `main` and the threads are unbounded, and those from a
thread to its tasks are shared with nobody.  Over a whole run each carries at
most one event: a thread reports once, `main` gives one order, and a thread
tells each of its tasks once.  So the former do not grow, and a thread does not
wait for a free place when it shuts its tasks down.
-/

namespace P2PNetwork.Supervision

open P2PNetwork.EventLoop
open P2PNetwork.Events
open P2PNetwork.ThreadNetwork (EventsCriticalCompletionThreadNetwork
  ThreadNetworkSend)
open P2PNetwork.ThreadProtocol (EventsCriticalCompletionThreadProtocol)

/-! ## What can still be sent -/

section Threads

variable {incident send error : Type}

/-- The thread has done all it does before it returns. -/
def ThreadPhase.Past : ThreadPhase incident send error → Prop
  | .leaving _ | .ended _ => True
  | _ => False

/-- The reports that a thread can still make. -/
def ThreadPhase.reportsLeft : ThreadPhase incident send error → ℕ
  | .leaving _ | .ended _ => 0
  | _ => 1

/-- The sends of one kind that a thread can still make, if it makes at most one
of them. -/
def ThreadPhase.sendsLeft (kind : send → Bool) :
    ThreadPhase incident send error → ℕ
  | .starting | .supervising => 1
  | .closing _ rest => rest.countP kind
  | .leaving _ | .ended _ => 0

/-- The orders that `main` can still give. -/
def MainPhase.ordersLeft : MainPhase → ℕ
  | .receiving => 1
  | _ => 0

theorem ThreadPhase.past_of_reportsLeft
    {thread : ThreadPhase incident send error}
    (hleft : thread.reportsLeft = 0) : thread.Past := by
  cases thread with
  | leaving | ended => trivial
  | _ => cases hleft

end Threads

def toPeermanager : ThreadNetworkSend → Bool
  | .toPeermanager _ => true
  | .toLooplisten _ => false

def toLooplisten : ThreadNetworkSend → Bool
  | .toPeermanager _ => false
  | .toLooplisten _ => true

/-- What is in a channel and what can still be sent into it. -/
structure Ordered (process : Process) : Prop where
  reportNetwork : process.toInit.count .exitCompletionThreadNetwork +
    process.network.reportsLeft ≤ 1
  reportProtocol : process.toInit.count .exitCompletionThreadProtocol +
    process.protocol.reportsLeft ≤ 1
  orders : process.initToNetwork.length + process.initToProtocol.length +
    process.main.ordersLeft ≤ 1
  orderNetwork : process.initToNetwork ≠ [] → process.protocol.Past
  orderProtocol : process.initToProtocol ≠ [] → process.network.Past
  peermanager : process.networkToPeermanager.length +
    process.network.sendsLeft toPeermanager ≤ 1
  looplisten : process.networkToLooplisten.length +
    process.network.sendsLeft toLooplisten ≤ 1
  handlemessage : process.protocolToHandlemessage.length +
    process.protocol.sendsLeft (fun _ => true) ≤ 1

theorem Ordered.initial (nonce : UInt64) : Ordered (.initial nonce) where
  reportNetwork := le_refl _
  reportProtocol := le_refl _
  orders := le_refl _
  orderNetwork hqueue := absurd rfl hqueue
  orderProtocol hqueue := absurd rfl hqueue
  peermanager := le_refl _
  looplisten := le_refl _
  handlemessage := le_refl _

/-! ## Steps -/

section Steps

variable {before after : Process} {label : Label}

/-- A step that moves no thread and at most takes something out of these
channels. -/
theorem Ordered.congr (hordered : Ordered before)
    (hnetwork : after.network = before.network)
    (hprotocol : after.protocol = before.protocol)
    (hmain : after.main = before.main)
    (hreports : after.toInit = before.toInit)
    (htoNetwork : after.initToNetwork.Sublist before.initToNetwork)
    (htoProtocol : after.initToProtocol.Sublist before.initToProtocol)
    (hpeermanager : after.networkToPeermanager.length ≤
      before.networkToPeermanager.length)
    (hlooplisten : after.networkToLooplisten.length ≤
      before.networkToLooplisten.length)
    (hhandlemessage : after.protocolToHandlemessage.length ≤
      before.protocolToHandlemessage.length) : Ordered after where
  reportNetwork := by rw [hreports, hnetwork]; exact hordered.reportNetwork
  reportProtocol := by rw [hreports, hprotocol]; exact hordered.reportProtocol
  orders := by
    rw [hmain]
    exact (Nat.add_le_add_right (Nat.add_le_add htoNetwork.length_le
      htoProtocol.length_le) _).trans hordered.orders
  orderNetwork hqueue := by
    rw [hprotocol]
    apply hordered.orderNetwork
    rintro hnone
    exact hqueue (List.sublist_nil.mp (hnone ▸ htoNetwork))
  orderProtocol hqueue := by
    rw [hnetwork]
    apply hordered.orderProtocol
    rintro hnone
    exact hqueue (List.sublist_nil.mp (hnone ▸ htoProtocol))
  peermanager := by
    rw [hnetwork]
    exact (Nat.add_le_add_right hpeermanager _).trans hordered.peermanager
  looplisten := by
    rw [hnetwork]
    exact (Nat.add_le_add_right hlooplisten _).trans hordered.looplisten
  handlemessage := by
    rw [hprotocol]
    exact (Nat.add_le_add_right hhandlemessage _).trans hordered.handlemessage

/-- `main` leaves its receive loop with at most one order given. -/
theorem Ordered.joining (hordered : Ordered before)
    {rest : List EventsThreadNetworkProtocol}
    (hrest : rest.Sublist before.toInit) {toNetwork toProtocol : List EventsInit}
    (horders : toNetwork.length + toProtocol.length ≤ 1)
    (hnetwork : toNetwork ≠ [] → before.protocol.Past)
    (hprotocol : toProtocol ≠ [] → before.network.Past) :
    Ordered { before with
      main := .joiningNetwork
      toInit := rest
      initToNetwork := toNetwork
      initToProtocol := toProtocol } :=
  { hordered with
    reportNetwork := (Nat.add_le_add_right (hrest.count_le _) _).trans
      hordered.reportNetwork
    reportProtocol := (Nat.add_le_add_right (hrest.count_le _) _).trans
      hordered.reportProtocol
    orders := horders
    orderNetwork := hnetwork
    orderProtocol := hprotocol }

theorem Ordered.nothingOrdered (hordered : Ordered before)
    (hmain : before.main = .receiving) :
    before.initToNetwork = [] ∧ before.initToProtocol = [] := by
  have horders := hordered.orders
  simp only [hmain, MainPhase.ordersLeft] at horders
  constructor <;> apply List.eq_nil_of_length_eq_zero <;> omega

/-- A thread whose report is under way has nothing left to do. -/
theorem past_of_reported {incident send error : Type}
    {thread : ThreadPhase incident send error}
    {event : EventsThreadNetworkProtocol}
    {reports : List EventsThreadNetworkProtocol}
    (hleft : reports.count event + thread.reportsLeft ≤ 1)
    (hmem : event ∈ reports) : thread.Past := by
  have hcount : 0 < reports.count event := List.count_pos_iff.mpr hmem
  exact ThreadPhase.past_of_reportsLeft (by omega)

theorem Ordered.initStep (hordered : Ordered before)
    (hstep : InitStep before label after) : Ordered after := by
  cases hstep with
  | @receive event rest hmain hqueue =>
      obtain ⟨hnetwork, hprotocol⟩ := hordered.nothingOrdered hmain
      have hmem : event ∈ before.toInit := by rw [hqueue]; exact List.mem_cons_self
      have hrest : rest.Sublist before.toInit := by
        rw [hqueue]
        exact List.sublist_cons_self _ _
      cases event with
      | exitCompletionThreadNetwork =>
          have hpast := past_of_reported hordered.reportNetwork hmem
          simp only [Process.receive, Process.shutdownProtocol]
          split <;> exact hordered.joining hrest (by simp [hnetwork, hprotocol])
            (by simp [hnetwork]) fun _ => hpast
      | exitCompletionThreadProtocol =>
          have hpast := past_of_reported hordered.reportProtocol hmem
          simp only [Process.receive, Process.shutdownNetwork]
          split <;> exact hordered.joining hrest (by simp [hnetwork, hprotocol])
            (fun _ => hpast) (by simp [hprotocol])
  | closed hmain hqueue hnetwork hprotocol =>
      obtain ⟨htoNetwork, htoProtocol⟩ := hordered.nothingOrdered hmain
      exact hordered.joining (.refl _) (by simp [htoNetwork, htoProtocol])
        (by simp [htoNetwork]) (by simp [htoProtocol])
  | joinNetwork hmain hended =>
      exact { hordered with
        orders := (Nat.add_le_add_left (Nat.zero_le _) _).trans hordered.orders }
  | joinProtocol hmain hended =>
      exact { hordered with
        orders := (Nat.add_le_add_left (Nat.zero_le _) _).trans hordered.orders }

/-- The network thread goes on with no more left to send. -/
theorem Ordered.withNetwork (hordered : Ordered before) {thread : NetworkPhase}
    (hreports : thread.reportsLeft ≤ before.network.reportsLeft)
    (hpast : before.network.Past → thread.Past)
    (hpeermanager : thread.sendsLeft toPeermanager ≤
      before.network.sendsLeft toPeermanager)
    (hlooplisten : thread.sendsLeft toLooplisten ≤
      before.network.sendsLeft toLooplisten) :
    Ordered { before with network := thread } :=
  { hordered with
    reportNetwork :=
      (Nat.add_le_add_left hreports _).trans hordered.reportNetwork
    orderProtocol := fun hqueue => hpast (hordered.orderProtocol hqueue)
    peermanager :=
      (Nat.add_le_add_left hpeermanager _).trans hordered.peermanager
    looplisten :=
      (Nat.add_le_add_left hlooplisten _).trans hordered.looplisten }

theorem Ordered.withProtocol (hordered : Ordered before)
    {thread : ProtocolPhase}
    (hreports : thread.reportsLeft ≤ before.protocol.reportsLeft)
    (hpast : before.protocol.Past → thread.Past)
    (hhandlemessage : thread.sendsLeft (fun _ => true) ≤
      before.protocol.sendsLeft fun _ => true) :
    Ordered { before with protocol := thread } :=
  { hordered with
    reportProtocol :=
      (Nat.add_le_add_left hreports _).trans hordered.reportProtocol
    orderNetwork := fun hqueue => hpast (hordered.orderNetwork hqueue)
    handlemessage :=
      (Nat.add_le_add_left hhandlemessage _).trans hordered.handlemessage }

/-- A thread that leaves its loop tells each task at most once. -/
theorem Ordered.leaveNetwork (hordered : Ordered before)
    (hsupervising : before.network = .supervising)
    (incident : EventsCriticalCompletionThreadNetwork) :
    Ordered (before.leaveNetwork incident) := by
  apply hordered.withNetwork <;> rw [hsupervising]
  · exact le_refl _
  · exact False.elim
  · cases incident <;> simp [ThreadPhase.sendsLeft, ThreadNetwork.shutdownSends,
      toPeermanager, List.countP_cons]
  · cases incident <;> simp [ThreadPhase.sendsLeft, ThreadNetwork.shutdownSends,
      toLooplisten, List.countP_cons]

theorem Ordered.leaveProtocol (hordered : Ordered before)
    (hsupervising : before.protocol = .supervising)
    (incident : EventsCriticalCompletionThreadProtocol) :
    Ordered (before.leaveProtocol incident) := by
  apply hordered.withProtocol <;> rw [hsupervising]
  · exact le_refl _
  · exact False.elim
  · cases incident <;>
      simp [ThreadPhase.sendsLeft, ThreadProtocol.shutdownSends]

theorem Ordered.networkStep (hordered : Ordered before)
    (hstep : NetworkStep before label after) : Ordered after := by
  cases hstep with
  | built hstarting =>
      apply hordered.withNetwork <;> rw [hstarting]
      · exact le_refl _
      · exact False.elim
      · exact le_refl _
      · exact le_refl _
  | buildFailed hstarting reason =>
      apply hordered.withNetwork <;> rw [hstarting]
      · exact Nat.zero_le _
      · exact False.elim
      · exact Nat.zero_le _
      · exact Nat.zero_le _
  | @init event rest hsupervising hqueue =>
      have htaken : Ordered { before with initToNetwork := rest } := by
        apply hordered.congr <;> try exact rfl
        · rw [hqueue]; exact List.sublist_cons_self _ _
        all_goals first | exact .refl _ | exact le_refl _
      exact htaken.leaveNetwork hsupervising _
  | initClosed hsupervising => exact hordered.leaveNetwork hsupervising _
  | peermanager hsupervising => exact hordered.leaveNetwork hsupervising _
  | looplisten hsupervising => exact hordered.leaveNetwork hsupervising _
  | @send incident send rest hclosing hopen hroom =>
      have hpeermanager := hordered.peermanager
      have hlooplisten := hordered.looplisten
      have hreport := hordered.reportNetwork
      simp only [hclosing, ThreadPhase.sendsLeft, List.countP_cons]
        at hpeermanager hlooplisten
      rw [hclosing] at hreport
      have hnone : before.initToProtocol = [] := by
        by_contra hqueue
        have hpast := hordered.orderProtocol hqueue
        rw [hclosing] at hpast
        exact hpast
      cases send with
      | toPeermanager event =>
          exact { hordered with
            reportNetwork := hreport
            orderProtocol := fun hqueue => absurd hnone hqueue
            peermanager := by
              simp [Process.deliver, ThreadPhase.sendsLeft, toPeermanager]
                at hpeermanager ⊢
              omega
            looplisten := by
              simpa [Process.deliver, ThreadPhase.sendsLeft, toLooplisten]
                using hlooplisten }
      | toLooplisten event =>
          exact { hordered with
            reportNetwork := hreport
            orderProtocol := fun hqueue => absurd hnone hqueue
            peermanager := by
              simpa [Process.deliver, ThreadPhase.sendsLeft, toPeermanager]
                using hpeermanager
            looplisten := by
              simp [Process.deliver, ThreadPhase.sendsLeft, toLooplisten]
                at hlooplisten ⊢
              omega }
  | sendClosed hclosing hclosed =>
      apply hordered.withNetwork <;> rw [hclosing]
      · exact le_refl _
      · exact False.elim
      · exact (List.sublist_cons_self _ _).countP_le
      · exact (List.sublist_cons_self _ _).countP_le
  | @complited incident result hclosing hcomplited =>
      have hreport := hordered.reportNetwork
      have hleft : Ordered { before with network := .leaving result } := by
        apply hordered.withNetwork <;> rw [hclosing]
        · exact Nat.zero_le _
        · exact False.elim
        · exact Nat.zero_le _
        · exact Nat.zero_le _
      rw [hclosing] at hreport
      exact { hleft with
        reportNetwork := by
          simp [ThreadPhase.reportsLeft] at hreport ⊢
          omega
        reportProtocol := by simpa using hleft.reportProtocol }
  | @ended result hleaving =>
      have hended : Ordered { before with network := .ended result } := by
        apply hordered.withNetwork <;> rw [hleaving] <;>
          first | exact le_refl _ | exact id
      exact { hended with }

theorem Ordered.protocolStep (hordered : Ordered before)
    (hstep : ProtocolStep before label after) : Ordered after := by
  cases hstep with
  | built hstarting =>
      apply hordered.withProtocol <;> rw [hstarting]
      · exact le_refl _
      · exact False.elim
      · exact le_refl _
  | buildFailed hstarting reason =>
      apply hordered.withProtocol <;> rw [hstarting]
      · exact Nat.zero_le _
      · exact False.elim
      · exact Nat.zero_le _
  | @init event rest hsupervising hqueue =>
      have htaken : Ordered { before with initToProtocol := rest } := by
        apply hordered.congr <;> try exact rfl
        · exact .refl _
        · rw [hqueue]; exact List.sublist_cons_self _ _
        all_goals exact le_refl _
      exact htaken.leaveProtocol hsupervising _
  | initClosed hsupervising => exact hordered.leaveProtocol hsupervising _
  | handlemessage hsupervising => exact hordered.leaveProtocol hsupervising _
  | @send incident event rest hclosing hopen hroom =>
      have hhandlemessage := hordered.handlemessage
      have hsent : Ordered { before with protocol := .closing incident rest } := by
        apply hordered.withProtocol <;> rw [hclosing]
        · exact le_refl _
        · exact False.elim
        · exact (List.sublist_cons_self _ _).countP_le
      rw [hclosing] at hhandlemessage
      exact { hsent with
        handlemessage := by
          simp [ThreadPhase.sendsLeft] at hhandlemessage ⊢
          omega }
  | sendClosed hclosing hclosed =>
      apply hordered.withProtocol <;> rw [hclosing]
      · exact le_refl _
      · exact False.elim
      · exact (List.sublist_cons_self _ _).countP_le
  | @complited incident result reports hclosing hcomplited =>
      have hreport := hordered.reportProtocol
      have hleft : Ordered { before with protocol := .leaving result } := by
        apply hordered.withProtocol <;> rw [hclosing]
        · exact Nat.zero_le _
        · exact False.elim
        · exact Nat.zero_le _
      have hreports : reports = [.exitCompletionThreadProtocol] ∨ reports = [] := by
        cases hcomplited with
        | joinHandleHandleMessage => exact .inr rfl
        | _ => exact .inl rfl
      rw [hclosing] at hreport
      obtain rfl | rfl := hreports
      · exact { hleft with
          reportNetwork := by simpa using hleft.reportNetwork
          reportProtocol := by
            simp [ThreadPhase.reportsLeft] at hreport ⊢
            omega }
      · simpa using hleft
  | @ended result hleaving =>
      have hended : Ordered { before with protocol := .ended result } := by
        apply hordered.withProtocol <;> rw [hleaving] <;>
          first | exact le_refl _ | exact id
      exact { hended with }

theorem Ordered.step (hordered : Ordered before)
    (hstep : Step before label after) : Ordered after := by
  cases hstep with
  | init hstep => exact hordered.initStep hstep
  | network hstep => exact hordered.networkStep hstep
  | protocol hstep => exact hordered.protocolStep hstep
  | looplisten hstep =>
      cases hstep with
      | @thread event rest hruns hlooplisten hqueue =>
          apply hordered.congr <;> try first | exact rfl | exact .refl _
          · exact le_refl _
          · rw [hqueue]; exact Nat.le_succ _
          · exact le_refl _
      | _ => exact { hordered with }
  | node hstep =>
      cases hstep with
      | managerThread hruns hqueue =>
          apply hordered.congr <;> try first | exact rfl | exact .refl _
          · rw [hqueue]; exact Nat.le_succ _
          · exact le_refl _
          · exact le_refl _
      | handleThread hruns hqueue =>
          apply hordered.congr <;> try first | exact rfl | exact .refl _
          · exact le_refl _
          · exact le_refl _
          · rw [hqueue]; exact Nat.le_succ _
      | _ => exact { hordered with }
  | panic hstep => cases hstep <;> exact { hordered with }

end Steps

/-- What is in the channel of a send that is still to be made is nothing. -/
theorem Ordered.network_hasRoom {process : Process} (hordered : Ordered process)
    {incident : EventsCriticalCompletionThreadNetwork} {send : ThreadNetworkSend}
    {rest : List ThreadNetworkSend}
    (hclosing : process.network = .closing incident (send :: rest)) :
    process.HasRoom send := by
  have hcapacity : 1 ≤ channelCapacity := by decide
  have hpeermanager := hordered.peermanager
  have hlooplisten := hordered.looplisten
  simp only [hclosing, ThreadPhase.sendsLeft, List.countP_cons]
    at hpeermanager hlooplisten
  cases send with
  | toPeermanager event =>
      simp only [toPeermanager, if_true] at hpeermanager
      simp only [Process.HasRoom]
      omega
  | toLooplisten event =>
      simp only [toLooplisten, if_true] at hlooplisten
      simp only [Process.HasRoom]
      omega

theorem Ordered.protocol_hasRoom {process : Process} (hordered : Ordered process)
    {incident : EventsCriticalCompletionThreadProtocol}
    {event : EventsThreadProtocol} {rest : List EventsThreadProtocol}
    (hclosing : process.protocol = .closing incident (event :: rest)) :
    process.protocolToHandlemessage.length < channelCapacity := by
  have hcapacity : 1 ≤ channelCapacity := by decide
  have hhandlemessage := hordered.handlemessage
  simp only [hclosing, ThreadPhase.sendsLeft, List.countP_cons, if_true]
    at hhandlemessage
  omega

/-! ## Runs -/

section Runs

variable {nonce : UInt64} {labels : List Label} {process : Process}

theorem ordered_run (run : Run Step (.initial nonce) labels process) :
    Ordered process :=
  run.invariant Ordered (.initial nonce) fun _ _ _ hbefore hstep =>
    hbefore.step hstep

/-- At any time each thread has at most one report on its way to `main`, `main`
at most one order on its way to the threads, and the other thread has left its
loop by then. -/
theorem orders_bounded (run : Run Step (.initial nonce) labels process) :
    process.toInit.Nodup ∧
      process.initToNetwork.length + process.initToProtocol.length ≤ 1 ∧
      (process.initToNetwork ≠ [] → process.protocol.Past) ∧
      (process.initToProtocol ≠ [] → process.network.Past) := by
  have hordered := ordered_run run
  refine ⟨?_, ?_, hordered.orderNetwork, hordered.orderProtocol⟩
  · rw [List.nodup_iff_count_le_one]
    intro event
    cases event with
    | exitCompletionThreadNetwork =>
        exact (Nat.le_add_right _ _).trans hordered.reportNetwork
    | exitCompletionThreadProtocol =>
        exact (Nat.le_add_right _ _).trans hordered.reportProtocol
  · exact (Nat.le_add_right _ _).trans hordered.orders

/-- A thread that shuts its tasks down never waits for a free place. -/
theorem closing_hasRoom (run : Run Step (.initial nonce) labels process) :
    (∀ incident send rest, process.network = .closing incident (send :: rest) →
      process.HasRoom send) ∧
    ∀ incident event rest, process.protocol = .closing incident (event :: rest) →
      process.protocolToHandlemessage.length < channelCapacity := by
  have hordered := ordered_run run
  exact ⟨fun _ _ _ => hordered.network_hasRoom,
    fun _ _ _ => hordered.protocol_hasRoom⟩

end Runs

/-! ## A listener that is not bound -/

/-- `LoopListen` could not bind its listener, and the network thread has seen
it end. -/
def unboundListener : Process :=
  { Process.initial 0 with
    network := .closing (.incidentComplitedLoopListen
      (.error (.errorInputOutput { code := 98 }))) [.toPeermanager .shutdown]
    protocol := .supervising
    looplisten := .running
      (.done () (.leave (.error (.errorInputOutput { code := 98 })))) }

theorem unboundListener_run : ∃ labels,
    Run Step (.initial 0) labels unboundListener := by
  have hbuilt := Run.tail (.refl (Process.initial 0)) (Step.network (.built rfl))
  have hboth := hbuilt.tail (Step.protocol (.built rfl))
  have hruns : ThreadPhase.Runs (.supervising : NetworkPhase) := trivial
  have hunbound := hboth.tail
    (Step.looplisten (.bind hruns rfl (.error { code := 98 })))
  have hseen := hunbound.tail
    (Step.network (.looplisten rfl (.ended (.ended () (.returned _)))))
  exact ⟨_, hseen⟩

theorem closing_hasRoom_unboundListener :
    unboundListener.HasRoom (.toPeermanager .shutdown) := by
  obtain ⟨labels, run⟩ := unboundListener_run
  exact (closing_hasRoom run).1 _ _ _ rfl

/-- The manager is told, the thread reports and `main` tells the protocol
thread. -/
theorem orders_bounded_unboundListener : ∃ labels process,
    Run Step (.initial 0) labels process ∧
      process.initToProtocol = [.shutdown] ∧
      process.protocol = .supervising ∧
      process.initToNetwork.length + process.initToProtocol.length ≤ 1 ∧
      process.network.Past := by
  obtain ⟨labels, run⟩ := unboundListener_run
  have hsent := run.tail (.network (.send rfl id (Nat.zero_lt_succ _)))
  have htold := hsent.tail (.node (.managerThread (by trivial) (by rfl)
    (.error { code := 0 }) (.take (by rfl) trivial)))
  have hleft := htold.tail
    (.node (.manager trivial (.leave rfl (.refl _)) (by simp)))
  have hjoining := hleft.tail
    (.node (.manager trivial (.disconnected rfl) (by simp)))
  have hfinished := hjoining.tail
    (.node (.manager trivial (.finish rfl rfl) (by simp)))
  have hreported := hfinished.tail
    (.network (.complited rfl (.complitedLoopListen (.returned _ _))))
  have hordered := hreported.tail (.init (.receive rfl rfl))
  obtain ⟨-, hsingle, -, hpast⟩ := orders_bounded hordered
  exact ⟨_, _, hordered, rfl, rfl, hsingle, hpast (List.cons_ne_nil _ _)⟩

end P2PNetwork.Supervision
