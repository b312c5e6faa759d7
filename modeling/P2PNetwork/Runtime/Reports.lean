import P2PNetwork.Runtime.AttributionSteps
import P2PNetwork.Runtime.PeerCounter

/-!
# What the manager reports to `HandleMessage`

The events that the peers enqueued and those that the manager sent are recorded
along a run.  While the manager serves, every step of it adds at most one event
to what it has reported or is about to report: the start of a connection, a
message at the head of its queue, or the end of a peer it has joined.
-/

namespace P2PNetwork.Runtime

open P2PNetwork.EventLoop
open P2PNetwork.Events
open P2PNetwork.Handler
open P2PNetwork.Manager
open P2PNetwork.Wire

/-! ## The record of a run -/

/-- The events that `HandleMessage`'s channel and the manager's channel have
taken, from the start of the run. -/
structure Record where
  reported : List (Tagged EventsPeerManager)
  enqueued : List (Tagged EventsPeer)

def Record.empty : Record where
  reported := []
  enqueued := []

/-- The event that a peer is about to send to the manager. -/
def PeerPhase.offers (task : TaskId) : PeerPhase → List (Tagged EventsPeer)
  | .looping (.issue _ (.toPeerManager event) _) =>
      [{ connection := task, event := event }]
  | _ => []

/-- The record after a step from `system`. -/
def Record.after (record : Record) (system : System) : Label → Record
  | .managerSend true =>
      { record with reported := record.reported ++ system.pendingReports }
  | .peerSend task true =>
      { record with
        enqueued := record.enqueued ++ (system.peers task).offers task }
  | _ => record

/-- A step of the node, with the record of the run so far. -/
def RecordedStep (before : System × Record) (label : Label)
    (after : System × Record) : Prop :=
  Step before.1 label after.1 ∧ after.2 = before.2.after before.1 label

theorem Step.recorded {before after : System} {label : Label} {record : Record}
    (hstep : Step before label after) :
    RecordedStep (before, record) label (after, record.after before label) :=
  ⟨hstep, rfl⟩

/-- Every run of the node has a record. -/
theorem recorded_run {first last : System} {labels : List Label}
    (run : Run Step first labels last) (record : Record) :
    ∃ record', Run RecordedStep (first, record) labels (last, record') := by
  induction run with
  | refl => exact ⟨record, .refl _⟩
  | tail run last_step ih =>
      obtain ⟨reached, hrun⟩ := ih
      exact ⟨_, hrun.tail last_step.recorded⟩

/-- The events that the manager has sent or is about to send. -/
def announced (reached : System × Record) : List (Tagged EventsPeerManager) :=
  reached.2.reported ++ reached.1.pendingReports

/-- The reports that queued messages will become. -/
def forwards (queue : List (Tagged EventsPeer)) :
    List (Tagged EventsPeerManager) :=
  queue.filterMap fun item =>
    match item.event with
    | .readyLowMessage peerid message =>
        some { connection := item.connection
               event := .readyMessage peerid message }
    | _ => none

@[simp]
theorem forwards_append (left right : List (Tagged EventsPeer)) :
    forwards (left ++ right) = forwards left ++ forwards right :=
  List.filterMap_append

/-! ## Steps of a manager that serves -/

/-- What a step adds to the announced events, with what it does to the tasks
and to the queued messages. -/
inductive Announcement (before : System) : Label → System →
    List (Tagged EventsPeerManager) → Prop where
  | quiet {label : Label} {after : System}
      (htasks : after.manager.registry.setTaskPeers =
        before.manager.registry.setTaskPeers)
      (hqueue : forwards after.fromPeers = forwards before.fromPeers) :
      Announcement before label after []
  | connected {input : ManagerInput} {after : System}
      {context : StructContextConnection}
      (hcontext : context.peerid = before.manager.registry.peerid)
      (htasks : after.manager.registry.setTaskPeers =
        before.manager.registry.setTaskPeers ++
          [{ id := before.next, peerid := before.manager.registry.peerid }])
      (hqueue : after.fromPeers = before.fromPeers) :
      Announcement before (.managerTake input) after
        [{ connection := before.next, event := .incidentNewConnection context }]
  | forwarded {after : System} {item : Tagged EventsPeerManager}
      {peerid : PeerId} {message : MessagePayload}
      (hevent : item.event = .readyMessage peerid message)
      (htasks : after.manager.registry.setTaskPeers =
        before.manager.registry.setTaskPeers)
      (hqueue : forwards before.fromPeers = item :: forwards after.fromPeers) :
      Announcement before .managerPeer after [item]
  | ended {task : TaskPeer} {after : System}
      (htask : task ∈ before.manager.registry.setTaskPeers)
      (hfinished : (before.peers task.id).HasFinished)
      (htasks : after.manager.registry.setTaskPeers =
        before.manager.registry.setTaskPeers.erase task)
      (hqueue : after.fromPeers = before.fromPeers) :
      Announcement before (.managerJoin task) after
        [{ connection := task.id, event := .incidentCompletedPeer task.peerid }]

section Steps

variable {before after : System} {label : Label}

theorem pendingReports_of_idle {self : PeerManager}
    {flow : Flow EventsCriticalCompletionPeerManager}
    (hmanager : before.manager = .running (.done self flow)) :
    before.pendingReports = [] := by
  simp [System.pendingReports, hmanager, ManagerPhase.awaits]

theorem pendingReports_of_notify {self : PeerManager} {event : EventsPeerManager}
    (hmanager : before.manager = .running (self.notifyProtocol event)) :
    before.pendingReports =
      [{ connection := before.managing, event := event }] := by
  simp [System.pendingReports, hmanager, ManagerPhase.awaits,
    PeerManager.notifyProtocol]

/-- A manager that serves has served before. -/
theorem ManagerStep.serving (hstep : ManagerStep before label after)
    (hserving : after.manager.Serving) : before.manager.Serving := by
  cases hstep with
  | take hmanager | protocol hmanager | protocolClosed hmanager
  | peer hmanager | join hmanager | send hmanager | sendClosed hmanager =>
      exact serving_of_running hmanager not_false
  | _ => exact hserving.elim

/-- The manager leaves its loop when a report is refused. -/
def LeavesRefused : ManagerTurn → Prop
  | .issue _ (.toProtocol _) resume => HasLeft (resume false)
  | _ => True

theorem notifyProtocol_leavesRefused (self : PeerManager)
    (event : EventsPeerManager) : LeavesRefused (self.notifyProtocol event) :=
  trivial

theorem turn_leavesRefused (task : TaskId) (input : ManagerInput)
    (self : PeerManager) : LeavesRefused (PeerManager.turn task input self) := by
  have hexternal (hexternal : External input) :
      LeavesRefused (PeerManager.turn task input self) := by
    have hturn := @turn_external self task input hexternal
    generalize PeerManager.turn task input self = turn at hturn
    generalize spawned input self = peer at hturn
    cases hturn with
    | idle flow => trivial
    | accepted => exact notifyProtocol_leavesRefused _ _
  cases input with
  | incidentThreadNetwork connect incident => exact hexternal trivial
  | incidentLooplisten incident => exact hexternal trivial
  | incidentProtocol incident =>
      cases incident with
      | none => trivial
      | some event =>
          have hturn := @turn_protocol self task event
          generalize PeerManager.turn task (.incidentProtocol (some event)) self =
            turn at hturn
          cases hturn <;> trivial
  | incidentPeer incident =>
      cases incident with
      | none => exact notifyProtocol_leavesRefused _ _
      | some event =>
          cases event with
          | readyLowMessage peerid message =>
              exact notifyProtocol_leavesRefused _ _
          | _ => trivial
  | resultPeer result =>
      obtain hdone | ⟨peerid, hturn⟩ := @turn_result self task result
      · rw [hdone]
        trivial
      · rw [hturn]
        exact notifyProtocol_leavesRefused _ _

/-- The registry is in order, and a refused report ends the loop. -/
structure ManagerReports (system : System) : Prop where
  registry : RegistryInOrder system
  refused : ∀ turn, system.manager = .running turn → LeavesRefused turn

theorem ManagerReports.initial (nonce : UInt64) :
    ManagerReports (System.initial nonce) where
  registry := .initial nonce
  refused turn hturn := by
    cases hturn
    trivial

theorem ManagerReports.step (hreports : ManagerReports before)
    (hstep : Step before label after) : ManagerReports after where
  registry := hreports.registry.step hstep
  refused := by
    cases hstep with
    | handle hstep =>
        rw [hstep.manager_eq]
        exact hreports.refused
    | peer hstep =>
        rw [hstep.manager_eq]
        exact hreports.refused
    | manager hstep =>
        intro turn hturn
        cases hstep with
        | take | protocol | protocolClosed | peer | join =>
            cases hturn
            exact turn_leavesRefused _ _ _
        | send hmanager hopen hroom =>
            cases hturn
            obtain ⟨self', flow, hdone, -⟩ :=
              hreports.registry.drops _ hmanager true
            rw [hdone]
            trivial
        | sendClosed hmanager hclosed =>
            cases hturn
            obtain ⟨self', flow, hdone, -⟩ :=
              hreports.registry.drops _ hmanager false
            rw [hdone]
            trivial
        | _ => cases hturn

/-- The manager takes up a connection. -/
theorem announcement_take {self : PeerManager} {input : ManagerInput}
    (hmanager : before.manager = .running (.done self .next))
    (hexternal : External input)
    (hafter : after.manager =
      .running (PeerManager.turn before.next input self))
    (hmanaging : after.managing = before.next)
    (hqueue : after.fromPeers = before.fromPeers) :
    Announcement before (.managerTake input) after after.pendingReports := by
  have hregistry := registry_of_idle hmanager
  have hturn := @turn_external self before.next input hexternal
  generalize PeerManager.turn before.next input self = turn at hafter hturn
  generalize spawned input self = peer at hturn
  cases hturn with
  | idle flow =>
      rw [pendingReports_of_idle hafter]
      refine .quiet ?_ (by rw [hqueue])
      rw [hregistry, registry_of_idle hafter]
  | accepted hpeer hcontext address typeConnect =>
      rw [pendingReports_of_notify hafter, hmanaging]
      refine .connected ?_ ?_ hqueue
      · rw [hregistry]
        exact hcontext
      · rw [hregistry, registry_of_running hafter]
        rfl

/-- The manager takes up an answer of `HandleMessage`, which is no report. -/
theorem announcement_protocol {self : PeerManager} (event : EventsHandleMessage)
    (hmanager : before.manager = .running (.done self .next))
    (hafter : after.manager = .running
      (PeerManager.turn before.next (.incidentProtocol (some event)) self))
    (hqueue : after.fromPeers = before.fromPeers) :
    after.pendingReports = [] ∧ Announcement before label after [] := by
  have hturn := @turn_protocol self before.next event
  have hstate := hturn.state_eq
  generalize PeerManager.turn before.next (.incidentProtocol (some event)) self =
    turn at hafter hturn hstate
  refine ⟨?_, .quiet ?_ (by rw [hqueue])⟩
  · cases hturn <;>
      simp [System.pendingReports, hafter, ManagerPhase.awaits]
  · rw [registry_of_idle hmanager, registry_of_running hafter, hstate]

/-- The manager takes up an event of a peer. -/
theorem announcement_peer {self : PeerManager} {item : Tagged EventsPeer}
    {rest : List (Tagged EventsPeer)}
    (hmanager : before.manager = .running (.done self .next))
    (hqueue : before.fromPeers = item :: rest)
    (hafter : after.manager = .running
      (PeerManager.turn before.next (.incidentPeer (some item.event)) self))
    (hmanaging : after.managing = item.connection)
    (hrest : after.fromPeers = rest) :
    Announcement before .managerPeer after after.pendingReports := by
  have htasks : after.manager.registry.setTaskPeers =
      before.manager.registry.setTaskPeers := by
    rw [registry_of_idle hmanager, registry_of_running hafter, turn_peer_state]
  obtain ⟨connection, event⟩ := item
  cases event with
  | readyLowMessage peerid message =>
      rw [pendingReports_of_notify hafter, hmanaging]
      refine .forwarded rfl htasks ?_
      rw [hqueue, hrest]
      rfl
  | shutdown =>
      rw [pendingReports_of_idle hafter]
      refine .quiet htasks ?_
      rw [hqueue, hrest]
      rfl
  | lowLevelMessage message =>
      rw [pendingReports_of_idle hafter]
      refine .quiet htasks ?_
      rw [hqueue, hrest]
      rfl

/-- The manager joins a peer's task. -/
theorem announcement_join {self : PeerManager} {task : TaskPeer}
    {outcome : TaskOutcome} (htasks : TasksKnown before.next self)
    (hmanager : before.manager = .running (.done self .next))
    (htask : task ∈ self.setTaskPeers)
    (hfinished : before.peers task.id = .finished outcome)
    (hafter : after.manager = .running (PeerManager.turn before.next
      (.resultPeer (task.joined outcome)) (self.takeTask task)))
    (hmanaging : after.managing = task.id)
    (hqueue : after.fromPeers = before.fromPeers) :
    Announcement before (.managerJoin task) after after.pendingReports := by
  have hregistry := registry_of_idle hmanager
  rw [turn_joined (htasks.known task htask)] at hafter
  rw [pendingReports_of_notify hafter, hmanaging]
  refine .ended ?_ ?_ ?_ hqueue
  · rw [hregistry]
    exact htask
  · rw [hfinished]
    trivial
  · rw [hregistry, registry_of_running hafter]
    rfl

/-- A joined task is reported next. -/
theorem ManagerStep.pendingReports_join {task : TaskPeer}
    (hstep : ManagerStep before (.managerJoin task) after)
    (htasks : TasksKnown before.next before.manager.registry) :
    before.pendingReports = [] ∧
      after.pendingReports = [{
        connection := task.id
        event := .incidentCompletedPeer task.peerid }] ∧
      after.fromPeers = before.fromPeers := by
  cases hstep with
  | @join self _ outcome hmanager htask hfinished =>
      rw [registry_of_idle hmanager] at htasks
      refine ⟨pendingReports_of_idle hmanager, ?_, rfl⟩
      simp only [turn_joined (htasks.known task htask)]
      exact pendingReports_of_notify rfl

/-- A send of the manager is answered and it goes on serving: a report was
taken. -/
theorem announcement_answered {self : PeerManager} {send : ManagerSend}
    {resume : Bool → ManagerTurn} {delivered : Bool}
    (hmanager : before.manager = .running (.issue self send resume))
    (hdrops : DropsOnly (.issue self send resume))
    (hafter : after.manager = .running (resume delivered))
    (hqueue : after.fromPeers = before.fromPeers) :
    after.pendingReports = [] ∧ Announcement before label after [] := by
  obtain ⟨self', flow, hdone, hself⟩ := hdrops delivered
  rw [hdone] at hafter
  refine ⟨pendingReports_of_idle hafter, .quiet ?_ (by rw [hqueue])⟩
  rw [registry_of_running hmanager, registry_of_idle hafter]
  obtain rfl | ⟨peerid, rfl⟩ := hself
  · rfl
  · rfl

/-- The step adds its news to the announced events. -/
def AddsNews (before : System) (label : Label) (after : System)
    (record record' : Record) : Prop :=
  ∃ news, Announcement before label after news ∧
    announced (after, record') = announced (before, record) ++ news

theorem addsNews_turn {self : PeerManager} {record : Record}
    (hmanager : before.manager = .running (.done self .next))
    (hnews : Announcement before label after after.pendingReports) :
    AddsNews before label after record record := by
  refine ⟨_, hnews, ?_⟩
  simp only [announced, pendingReports_of_idle hmanager, List.append_nil]

theorem addsNews_quiet {record record' : Record}
    (hquiet : after.pendingReports = [] ∧ Announcement before label after [])
    (hrecord : record'.reported = record.reported ++ before.pendingReports) :
    AddsNews before label after record record' := by
  refine ⟨_, hquiet.2, ?_⟩
  simp only [announced, hquiet.1, hrecord, List.append_nil]

/-- Each step of the manager from which it goes on serving. -/
theorem ManagerStep.addsNews (hstep : ManagerStep before label after)
    (hreports : ManagerReports before) (hserving : after.manager.Serving)
    (record : Record) :
    AddsNews before label after record (record.after before label) := by
  cases hstep with
  | take hmanager hexternal =>
      exact addsNews_turn hmanager
        (announcement_take hmanager hexternal rfl rfl rfl)
  | @protocol self item rest hmanager hqueue =>
      refine addsNews_quiet (announcement_protocol item.event hmanager rfl rfl) ?_
      rw [pendingReports_of_idle hmanager, List.append_nil]
      rfl
  | protocolClosed hmanager hqueue hclosed => exact absurd trivial hserving
  | peer hmanager hqueue =>
      exact addsNews_turn hmanager
        (announcement_peer hmanager hqueue rfl rfl rfl)
  | join hmanager htask hfinished =>
      have htasks := hreports.registry.tasks
      rw [registry_of_idle hmanager] at htasks
      exact addsNews_turn hmanager
        (announcement_join htasks hmanager htask hfinished rfl rfl rfl)
  | send hmanager hopen hroom =>
      have hdrops := hreports.registry.drops _ hmanager
      exact addsNews_quiet
        (announcement_answered hmanager hdrops rfl (by simp)) rfl
  | @sendClosed self send resume hmanager hclosed =>
      have hdrops := hreports.registry.drops _ hmanager
      cases send with
      | toProtocol event => exact absurd (hreports.refused _ hmanager) hserving
      | toPeer task event =>
          refine addsNews_quiet
            (announcement_answered hmanager hdrops rfl rfl) ?_
          simp [System.pendingReports, hmanager, ManagerPhase.awaits, Record.after]
  | _ => exact hserving.elim

/-! ## Steps of the others -/

theorem HandleStep.record_eq (hstep : HandleStep before label after)
    (record : Record) : record.after before label = record := by
  cases hstep <;> rfl

theorem HandleStep.announced_eq (hstep : HandleStep before label after)
    (record : Record) :
    announced (after, record.after before label) = announced (before, record) := by
  cases hstep <;> rfl

theorem PeerStep.announced_eq (hstep : PeerStep before label after)
    (record : Record) :
    announced (after, record.after before label) = announced (before, record) := by
  cases hstep with
  | write hpeer delivered => cases delivered <;> rfl
  | _ => rfl

theorem PeerStep.reported_eq (hstep : PeerStep before label after)
    (record : Record) :
    (record.after before label).reported = record.reported := by
  cases hstep <;> rfl

theorem PeerStep.toProtocol_eq (hstep : PeerStep before label after) :
    after.toProtocol = before.toProtocol := by
  cases hstep <;> rfl

theorem HandleStep.fromPeers_eq (hstep : HandleStep before label after) :
    after.fromPeers = before.fromPeers := by
  cases hstep <;> rfl

/-- What a step puts into the manager's queue is recorded, and is sent by
looping peers. -/
theorem PeerStep.queued (hstep : PeerStep before label after) (record : Record) :
    ∃ sent : List (Tagged EventsPeer),
      after.fromPeers = before.fromPeers ++ sent ∧
      (record.after before label).enqueued = record.enqueued ++ sent ∧
      ∀ item ∈ sent, ∃ turn, before.peers item.connection = .looping turn := by
  cases hstep with
  | @send task self event resume hpeer hopen hroom =>
      refine ⟨[{ connection := task, event := event }], rfl, ?_, ?_⟩
      · simp [Record.after, hpeer, PeerPhase.offers]
      · simp [hpeer]
  | _ => exact ⟨[], by simp [System.setPeer], by simp [Record.after], by simp⟩

theorem ManagerStep.enqueued_eq (hstep : ManagerStep before label after)
    (record : Record) :
    (record.after before label).enqueued = record.enqueued := by
  cases hstep <;> rfl

end Steps

end P2PNetwork.Runtime
