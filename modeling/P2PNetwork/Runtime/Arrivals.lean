import P2PNetwork.Runtime.ReportOrder

/-!
# From the peers to `HandleMessage`

The messages of all peers go through one channel to the manager, which reports
them to `HandleMessage` among the starts and ends of connections.  What the
peers have put into the first channel and what has been taken out of the second
is recorded.
-/

namespace P2PNetwork.Runtime

open P2PNetwork.EventLoop
open P2PNetwork.Events
open P2PNetwork.Handler
open P2PNetwork.Manager

/-! ## The record of a run -/

/-- The events that the channels have taken, and those that `HandleMessage` has
taken up. -/
structure Arrivals where
  record : Record
  handled : List (Tagged EventsPeerManager)

def Arrivals.empty : Arrivals where
  record := .empty
  handled := []

/-- The event that `HandleMessage` takes up. -/
def System.taking (system : System) : Label → List (Tagged EventsPeerManager)
  | .handlePeermanager _ => system.toProtocol.take 1
  | _ => []

/-- The record after a step from `system`. -/
def Arrivals.after (arrivals : Arrivals) (system : System) (label : Label) :
    Arrivals where
  record := arrivals.record.after system label
  handled := arrivals.handled ++ system.taking label

/-- The event brings a message of a peer. -/
def conveys (item : Tagged EventsPeerManager) : Bool :=
  match item.event with
  | .readyMessage _ _ => true
  | _ => false

/-- The messages of peers among the events. -/
def conveyed (items : List (Tagged EventsPeerManager)) :
    List (Tagged EventsPeerManager) :=
  items.filter conveys

@[simp]
theorem conveyed_append (left right : List (Tagged EventsPeerManager)) :
    conveyed (left ++ right) = conveyed left ++ conveyed right :=
  List.filter_append ..

theorem conveyed_singleton {item : Tagged EventsPeerManager} {peerid : PeerId}
    {message : Wire.MessagePayload} (hevent : item.event = .readyMessage peerid message) :
    conveyed [item] = [item] := by
  simp [conveyed, conveys, hevent]

/-! ## The invariant -/

/-- `HandleMessage` takes up what was reported, and while the manager serves
what it has not reported yet of the peers' messages is still queued. -/
structure ArrivesInOrder (reached : System × Arrivals) : Prop where
  managed : ManagerReports reached.1
  taken : reached.2.record.reported = reached.2.handled ++ reached.1.toProtocol
  serving : reached.1.manager.Serving →
    conveyed (announced (reached.1, reached.2.record)) ++
      forwards reached.1.fromPeers = forwards reached.2.record.enqueued
  past : conveyed reached.2.record.reported <+: forwards reached.2.record.enqueued

section Steps

variable {before after : System} {label : Label} {arrivals : Arrivals}

theorem ArrivesInOrder.initial (nonce : UInt64) :
    ArrivesInOrder (System.initial nonce, Arrivals.empty) where
  managed := .initial nonce
  taken := rfl
  serving _ := rfl
  past := List.prefix_rfl

/-- Only a manager that serves has something to report. -/
theorem pendingReports_of_not_serving (hserving : ¬ before.manager.Serving) :
    before.pendingReports = [] := by
  cases hmanager : before.manager with
  | running turn =>
      cases turn with
      | done self flow => exact pendingReports_of_idle hmanager
      | issue self send resume =>
          exact absurd (serving_of_running hmanager not_false) hserving
  | disconnecting incident self tasks =>
      cases tasks <;> simp [System.pendingReports, hmanager, ManagerPhase.awaits]
  | _ => simp [System.pendingReports, hmanager, ManagerPhase.awaits]

/-- What the channel takes is recorded. -/
theorem ManagerStep.reported (hstep : ManagerStep before label after)
    (record : Record) :
    ∃ news, after.toProtocol = before.toProtocol ++ news ∧
      (record.after before label).reported = record.reported ++ news ∧
      (news = [] ∨ news = before.pendingReports) := by
  cases hstep with
  | @send self send resume hmanager =>
      refine ⟨before.pendingReports, ?_, rfl, .inr rfl⟩
      cases send <;>
        simp [System.deliver, System.pendingReports, hmanager, ManagerPhase.awaits]
  | _ =>
      exact ⟨[], (List.append_nil _).symm, (List.append_nil _).symm, .inl rfl⟩

theorem ArrivesInOrder.managerStep (harrives : ArrivesInOrder (before, arrivals))
    (hstep : ManagerStep before label after) :
    ArrivesInOrder (after, arrivals.after before label) := by
  have henqueued := hstep.enqueued_eq arrivals.record
  obtain ⟨sent, hqueue, hreported, hsent⟩ := hstep.reported arrivals.record
  have htaken : arrivals.record.reported = arrivals.handled ++ before.toProtocol :=
    harrives.taken
  have htaking : before.taking label = [] := by
    cases hstep <;> rfl
  constructor
  · exact harrives.managed.step (.manager hstep)
  · simp only [Arrivals.after, htaking, List.append_nil, hreported, hqueue, htaken,
      List.append_assoc]
  · intro hserving
    obtain ⟨news, hnews, hannounced⟩ :=
      hstep.addsNews harrives.managed hserving arrivals.record
    have hbefore := harrives.serving (hstep.serving hserving)
    simp only [Arrivals.after, henqueued, ← hbefore, hannounced, conveyed_append,
      List.append_assoc]
    cases hnews with
    | quiet htasks hsame =>
        rw [hsame]
        rfl
    | connected hcontext htasks hsame =>
        rw [hsame]
        rfl
    | forwarded hevent htasks hforwards =>
        rw [conveyed_singleton hevent, hforwards]
        rfl
    | ended htask hfinished htasks hsame =>
        rw [hsame]
        rfl
  · simp only [Arrivals.after, henqueued, hreported]
    by_cases hserving : before.manager.Serving
    · obtain rfl | rfl := hsent
      · rw [List.append_nil]
        exact harrives.past
      · rw [← harrives.serving hserving]
        exact List.prefix_append _ _
    · rw [pendingReports_of_not_serving hserving, or_self] at hsent
      rw [hsent, List.append_nil]
      exact harrives.past

theorem ArrivesInOrder.handleStep (harrives : ArrivesInOrder (before, arrivals))
    (hstep : HandleStep before label after) :
    ArrivesInOrder (after, arrivals.after before label) := by
  have hrecord := hstep.record_eq arrivals.record
  have hannounced := hstep.announced_eq arrivals.record
  rw [hrecord] at hannounced
  have htaken : arrivals.record.reported = arrivals.handled ++ before.toProtocol :=
    harrives.taken
  have htaking : before.toProtocol = before.taking label ++ after.toProtocol := by
    cases hstep with
    | peermanager hhandle hqueue => simp [System.taking, hqueue]
    | peermanagerClosed hhandle hqueue => simp [System.taking, hqueue]
    | _ => rfl
  constructor
  · exact harrives.managed.step (.handle hstep)
  · simp only [Arrivals.after, hrecord, htaken, List.append_assoc, ← htaking]
  · rw [hstep.manager_eq]
    simp only [Arrivals.after, hrecord, hannounced, hstep.fromPeers_eq]
    exact harrives.serving
  · simp only [Arrivals.after, hrecord]
    exact harrives.past

theorem ArrivesInOrder.peerStep (harrives : ArrivesInOrder (before, arrivals))
    (hstep : PeerStep before label after) :
    ArrivesInOrder (after, arrivals.after before label) := by
  have hannounced := hstep.announced_eq arrivals.record
  have hreported := hstep.reported_eq arrivals.record
  obtain ⟨sent, hqueue, henqueued, -⟩ := hstep.queued arrivals.record
  have htaking : before.taking label = [] ∧
      after.toProtocol = before.toProtocol := by
    cases hstep <;> exact ⟨rfl, rfl⟩
  constructor
  · exact harrives.managed.step (.peer hstep)
  · simp only [Arrivals.after, hreported, htaking, List.append_nil]
    exact harrives.taken
  · intro hserving
    rw [hstep.manager_eq] at hserving
    simp only [Arrivals.after, hannounced, hqueue, henqueued, forwards_append,
      ← harrives.serving hserving, List.append_assoc]
  · simp only [Arrivals.after, hreported, henqueued, forwards_append]
    exact harrives.past.trans (List.prefix_append _ _)

theorem ArrivesInOrder.step (harrives : ArrivesInOrder (before, arrivals))
    (hstep : Step before label after) :
    ArrivesInOrder (after, arrivals.after before label) := by
  cases hstep with
  | manager hstep => exact harrives.managerStep hstep
  | handle hstep => exact harrives.handleStep hstep
  | peer hstep => exact harrives.peerStep hstep

/-- What has been taken up was reported. -/
theorem ArrivesInOrder.handled (harrives : ArrivesInOrder (before, arrivals)) :
    conveyed arrivals.handled <+: forwards arrivals.record.enqueued := by
  have hpast := harrives.past
  rw [harrives.taken, conveyed_append] at hpast
  exact (List.prefix_append _ _).trans hpast

end Steps

end P2PNetwork.Runtime
