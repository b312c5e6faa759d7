import P2PNetwork.Network.Connection
import P2PNetwork.Runtime.ConversationSteps

/-!
# A node with the ends of its connections

In the running node the subtasks of a peer and its socket are free.  Here each
peer has its reader, its writer and its socket.  The node and the tasks of a
peer move together wherever they share a channel or the peer itself, and apart
everywhere else.
-/

namespace P2PNetwork.Runtime

open P2PNetwork.ByteAccess
open P2PNetwork.Connection (Endpoint arriving)
open P2PNetwork.EventLoop
open P2PNetwork.Events
open P2PNetwork.Handler
open P2PNetwork.Manager
open P2PNetwork.PeerActor
open P2PNetwork.PeerInbound (Inbound)
open P2PNetwork.PeerOutbound (Outbound OutboundLabel OutboundStep lowMessages
  lowMessages_append)
open P2PNetwork.PeerSubtasks (PeerTasks)

/-- A node, with what is recorded of it, and the ends of its connections. -/
structure Host where
  recorded : Recorded
  ends : TaskId → Option Endpoint

def Host.system (host : Host) : System := host.recorded.1.1

def openEnd (peer : Peer) : Endpoint where
  outbound := .initial peer
  received := []

def Host.initial (nonce : UInt64) : Host where
  recorded := ((.initial nonce, .empty), .empty)
  ends := fun _ => none

/-- The ends after a step of the node, which may spawn a peer. -/
def Host.opened (host : Host) : Label → TaskId → Option Endpoint
  | .managerTake input =>
      match spawned input host.system.manager.registry with
      | some peer =>
          Function.update host.ends host.system.next (some (openEnd peer))
      | none => host.ends
  | _ => host.ends

/-! ## Steps -/

/-- A step of the node is a step of the tasks of a peer.  The manager puts
events into the command channel, and the peer takes up its next input or goes
on after a send. -/
inductive Meets (before after : System) (task : TaskId)
    (tasks tasks' : PeerTasks) : Label → OutboundLabel → Prop where
  | send {event : EventsPeerManager}
      (hmanager : before.manager.awaits = some (.toPeer task event)) :
      Meets before after task tasks tasks' (.managerSend true) (.enqueue event)
  | disconnect (hmanager : before.manager.awaits = some (.toPeer task .shutdown))
      (hopen : ¬ before.Closed (.toPeer task .shutdown)) :
      Meets before after task tasks tasks' .managerDisconnect (.enqueue .shutdown)
  | command {event : EventsPeerManager} {rest : List EventsPeerManager}
      (hqueue : before.commands task = event :: rest) :
      Meets before after task tasks tasks' (.peerCommand task)
        (.command (some event))
  | commandClosed (hqueue : before.commands task = []) :
      Meets before after task tasks tasks' (.peerCommand task) (.command none)
  | receive {event : EventsTaskRead} {rest : List EventsTaskRead}
      (hqueue : tasks.fromTaskRead = event :: rest) :
      Meets before after task tasks tasks'
        (.peerSubtask task (.incidentTaskRead (some event))) (.task .peerReceive)
  | receiveClosed :
      Meets before after task tasks tasks'
        (.peerSubtask task (.incidentTaskRead none)) (.task .peerReceiveClosed)
  | joinReader {result : Except JoinError TaskRead.ResultTaskRead}
      (hreader : tasks.reader = .ended result) :
      Meets before after task tasks tasks'
        (.peerSubtask task (.resultStateTaskRead result)) (.task .peerJoinReader)
  | joinWriter {result : Except JoinError TaskWrite.ResultTaskWrite}
      (hwriter : tasks.writer = .ended result) :
      Meets before after task tasks tasks'
        (.peerSubtask task (.resultStateTaskWrite result)) (.task .peerJoinWriter)
  | forward (delivered : Bool) :
      Meets before after task tasks tasks' (.peerSend task delivered)
        (.task (.peerSend delivered))
  | write (delivered : Bool) :
      Meets before after task tasks tasks' (.peerWrite task delivered)
        (.task (.peerSend delivered))
  | finish {result : Except ErrorPeer SuccessPeer}
      (hpeer : after.peers task = .finished (.returned result))
      (htasks : tasks'.peer = .returned result) :
      Meets before after task tasks tasks' (.peerEnd task) (.task .peerReturn)

/-- A step of the node that no peer's tasks take part in. -/
def Apart (before : System) (label : Label) (after : System) : Prop :=
  match label with
  | .managerSend true | .managerDisconnect =>
      ∀ task event, before.manager.awaits = some (.toPeer task event) →
        before.Closed (.toPeer task event)
  | .peerEnd task => after.peers task = .finished .panicked
  | .peerCommand _ | .peerSubtask _ _ | .peerSend _ _ | .peerWrite _ _ => False
  | _ => True

/-- A step of the reader or the writer. -/
def OfSubtask : PeerSubtasks.Label → Prop
  | .readerRead _ | .readerCommand | .readerSend | .readerEnd => True
  | .writerTake | .writerEnd => True
  | _ => False

/-- A step that the node does not see: of a subtask or the socket, of a peer
that has left its loop, or the drop of a sender that the manager no longer
holds. -/
inductive Inside (system : System) (task : TaskId) (tasks : PeerTasks) :
    OutboundLabel → Prop where
  | subtask {label : PeerSubtasks.Label} (hlabel : OfSubtask label) :
      Inside system task tasks (.task label)
  | accept (count : ℕ) : Inside system task tasks (.accept count)
  | write (result : Except IoError Unit) : Inside system task tasks (.write result)
  | leave : Inside system task tasks (.task .peerLeave)
  | closing {incident : EventsCriticalCompletion}
      {sends : Await Peer PeerSend Bool Unit}
      (hpeer : tasks.peer = .closing incident sends) (delivered : Bool) :
      Inside system task tasks (.task (.peerSend delivered))
  | dropSender (hsender : ¬ system.manager.HoldsSender task) :
      Inside system task tasks .dropSender

inductive HostLabel where
  | node (label : Label)
  | joint (label : Label) (task : TaskId) (own : OutboundLabel)
  | inside (task : TaskId) (own : OutboundLabel)

def Host.moveEnd (host : Host) (task : TaskId) (endpoint : Endpoint)
    (own : OutboundLabel) (outbound : Outbound) : TaskId → Option Endpoint :=
  Function.update host.ends task
    (some { outbound, received := endpoint.received ++ arriving own })

section Steps

variable (sha256 : Bytes → ByteArr 32)

/-- A step of the node alone, of the node with the tasks of a peer, or of these
tasks alone. -/
inductive HostStep (before : Host) : HostLabel → Host → Prop where
  | node {label : Label} {recorded : Recorded}
      (hstep : RecordedDispatch before.recorded label recorded)
      (hapart : Apart before.system label recorded.1.1) :
      HostStep before (.node label) { recorded, ends := before.opened label }
  | joint {label : Label} {recorded : Recorded} {task : TaskId}
      {own : OutboundLabel} {endpoint : Endpoint} {outbound : Outbound}
      (hstep : RecordedDispatch before.recorded label recorded)
      (hend : before.ends task = some endpoint)
      (hmove : OutboundStep sha256 endpoint.outbound own outbound)
      (hmeets : Meets before.system recorded.1.1 task endpoint.outbound.tasks
        outbound.tasks label own) :
      HostStep before (.joint label task own)
        { recorded, ends := before.moveEnd task endpoint own outbound }
  | inside {task : TaskId} {own : OutboundLabel} {endpoint : Endpoint}
      {outbound : Outbound} (hend : before.ends task = some endpoint)
      (hmove : OutboundStep sha256 endpoint.outbound own outbound)
      (hinside : Inside before.system task endpoint.outbound.tasks own) :
      HostStep before (.inside task own)
        { before with ends := before.moveEnd task endpoint own outbound }

end Steps

/-! ## Agreement -/

/-- The peer of the node is where its tasks are.  In the node a peer that waits
for its subtasks is still in the turn that it has left its loop with. -/
inductive SamePeer : PeerTurn → PeerSubtasks.PeerPhase → Prop where
  | looping (turn : PeerTurn) : SamePeer turn (.looping turn)
  | closing (self : Peer) (incident : EventsCriticalCompletion)
      (sends : Await Peer PeerSend Bool Unit) :
      SamePeer (.done self (.leave incident)) (.closing incident sends)

/-- An end that its own tasks have brought about, by what they have read. -/
structure EndPast (sha256 : Bytes → ByteArr 32) (endpoint : Endpoint) : Prop where
  past : ∃ peer own past,
    Run (OutboundStep sha256) (.initial peer) own endpoint.outbound ∧
      past.received = endpoint.received ∧
      Inbound sha256 peer past endpoint.outbound.tasks

/-- The node and the end of a connection agree. -/
structure EndAgrees (reached : Recorded) (task : TaskId) (endpoint : Endpoint) :
    Prop where
  commands : reached.1.1.commands task = endpoint.outbound.commands
  looping : ∀ turn, reached.1.1.peers task = .looping turn →
    SamePeer turn endpoint.outbound.tasks.peer
  routed : lowMessages endpoint.outbound.enqueued = reached.1.2.routed task
  forwarded : endpoint.outbound.tasks.forwarded =
    ofConnection task reached.2.record.enqueued

/-! ## What a step touches -/

/-- The step changes what the node holds of the connection. -/
def Touches (system : System) (label : Label) (task : TaskId) : Prop :=
  match label with
  | .managerTake _ => task = system.next
  | .managerSend true | .managerDisconnect =>
      ∃ event, system.manager.awaits = some (.toPeer task event) ∧
        ¬ system.Closed (.toPeer task event)
  | .peerCommand other | .peerSubtask other _ | .peerSend other _
  | .peerWrite other _ => other = task
  | _ => False

/-- What the node holds of the connection is as before, or its peer has
ended. -/
structure Untouched (before after : Recorded) (task : TaskId) : Prop where
  commands : after.1.1.commands task = before.1.1.commands task
  looping : ∀ turn, after.1.1.peers task = .looping turn →
    before.1.1.peers task = .looping turn
  routed : after.1.2.routed task = before.1.2.routed task
  enqueued : ofConnection task after.2.record.enqueued =
    ofConnection task before.2.record.enqueued

section Touching

variable {before after : System} {label : Label} {task : TaskId}
variable {dispatch : Dispatch} {arrivals : Arrivals}

/-- A step that has nothing to do with the connection's channels. -/
theorem untouched_of_eq {dispatch' : Dispatch} {arrivals' : Arrivals}
    (hcommands : after.commands task = before.commands task)
    (hpeers : after.peers task = before.peers task)
    (hrouted : dispatch'.routed task = dispatch.routed task)
    (henqueued : arrivals'.record.enqueued = arrivals.record.enqueued) :
    Untouched ((before, dispatch), arrivals) ((after, dispatch'), arrivals')
      task where
  commands := hcommands
  looping turn hturn := hpeers ▸ hturn
  routed := hrouted
  enqueued := by rw [henqueued]

theorem ManagerStep.untouched (hstep : ManagerStep before label after)
    (htask : ¬ Touches before label task) :
    Untouched ((before, dispatch), arrivals)
      ((after, dispatch.after before label), arrivals.after before label) task := by
  cases hstep with
  | @take self input hmanager hexternal =>
      refine untouched_of_eq rfl ?_ rfl rfl
      cases hspawn : spawned input self with
      | none => rfl
      | some peer => exact Function.update_of_ne htask _ _
  | @send self send resume hmanager hopen hroom =>
      have hrouted : (dispatch.after before (.managerSend true)).routed task =
          dispatch.routed task ++ routes task send := by
        simp [Dispatch.after, hmanager]
      cases send with
      | toProtocol event =>
          refine untouched_of_eq rfl rfl ?_ rfl
          simpa [routes] using hrouted
      | toPeer other event =>
          have hother : other ≠ task := by
            rintro rfl
            exact htask ⟨event, by rw [hmanager]; rfl, hopen⟩
          refine untouched_of_eq ?_ rfl ?_ rfl
          · exact Function.update_of_ne (Ne.symm hother) _ _
          · cases event <;> simpa [routes, hother] using hrouted
  | @disconnect self incident other rest hmanager hopen hroom =>
      have hother : task ≠ other := by
        rintro rfl
        exact htask ⟨.shutdown, by rw [hmanager]; rfl, hopen⟩
      exact untouched_of_eq (Function.update_of_ne hother _ _) rfl rfl rfl
  | _ => exact untouched_of_eq rfl rfl rfl rfl

theorem PeerStep.untouched (hstep : PeerStep before label after)
    (htask : ¬ Touches before label task) :
    Untouched ((before, dispatch), arrivals)
      ((after, dispatch.after before label), arrivals.after before label) task := by
  cases hstep with
  | command | commandClosed | subtask | sendClosed =>
      have hother := Ne.symm htask
      refine untouched_of_eq ?_ (Function.update_of_ne hother _ _) rfl rfl
      first
        | rfl
        | exact Function.update_of_ne hother _ _
  | @send other self event resume hpeer =>
      have hother : other ≠ task := htask
      refine ⟨rfl, fun turn hturn => ?_, rfl, ?_⟩
      · simpa [System.setPeer, Function.update_of_ne (Ne.symm hother)] using hturn
      · simp [Arrivals.after, Record.after, hpeer, PeerPhase.offers, hother]
  | @write other self event resume hpeer delivered =>
      refine untouched_of_eq rfl (Function.update_of_ne (Ne.symm htask) _ _) ?_ ?_
      · cases delivered <;> rfl
      · cases delivered <;> rfl
  | @finish other | @panic other =>
      refine ⟨rfl, fun turn hturn => ?_, rfl, rfl⟩
      by_cases hother : task = other
      · simp [System.setPeer, hother] at hturn
      · simpa [System.setPeer, Function.update_of_ne hother] using hturn

theorem untouched (hstep : Step before label after)
    (htask : ¬ Touches before label task) :
    Untouched ((before, dispatch), arrivals)
      ((after, dispatch.after before label), arrivals.after before label) task := by
  cases hstep with
  | manager hstep => exact hstep.untouched htask
  | handle hstep =>
      cases hstep <;> exact untouched_of_eq rfl rfl rfl rfl
  | peer hstep => exact hstep.untouched htask

theorem Apart.not_touches (hapart : Apart before label after)
    (htask : ∀ input, label = .managerTake input → task ≠ before.next) :
    ¬ Touches before label task := by
  cases label with
  | managerTake input => exact htask input rfl
  | managerSend delivered =>
      cases delivered with
      | false => exact not_false
      | true =>
          rintro ⟨event, hawaits, hopen⟩
          exact hopen (hapart task event hawaits)
  | managerDisconnect =>
      rintro ⟨event, hawaits, hopen⟩
      exact hopen (hapart task event hawaits)
  | peerCommand | peerSubtask | peerSend | peerWrite => exact hapart.elim
  | _ => exact not_false

/-- Only the end that takes part is touched. -/
theorem Meets.not_touches {tasks tasks' : PeerTasks} {own : OutboundLabel}
    {other : TaskId} (hmeets : Meets before after task tasks tasks' label own)
    (hother : other ≠ task) : ¬ Touches before label other := by
  have hawaited {event : EventsPeerManager}
      (hmanager : before.manager.awaits = some (.toPeer task event)) :
      ¬ ∃ event, before.manager.awaits = some (.toPeer other event) ∧
        ¬ before.Closed (.toPeer other event) := by
    rintro ⟨event', hawaits, -⟩
    rw [hmanager] at hawaits
    cases hawaits
    exact hother rfl
  cases hmeets with
  | send hmanager => exact hawaited hmanager
  | disconnect hmanager => exact hawaited hmanager
  | finish => exact not_false
  | _ => exact Ne.symm hother

theorem EndAgrees.untouched {reached later : Recorded} {endpoint : Endpoint}
    (hagrees : EndAgrees reached task endpoint)
    (huntouched : Untouched reached later task) : EndAgrees later task endpoint where
  commands := huntouched.commands.trans hagrees.commands
  looping turn hturn := hagrees.looping turn (huntouched.looping turn hturn)
  routed := hagrees.routed.trans huntouched.routed.symm
  forwarded := hagrees.forwarded.trans huntouched.enqueued.symm

end Touching

/-! ## Joint steps -/

/-- A peer that has not left its loop is in the same turn. -/
theorem SamePeer.phase_eq {turn : PeerTurn} {phase : PeerSubtasks.PeerPhase}
    (hsame : SamePeer turn phase)
    (hturn : ∀ self incident, turn ≠ .done self (.leave incident)) :
    phase = .looping turn := by
  cases hsame with
  | looping => rfl
  | closing self incident sends => exact absurd rfl (hturn self incident)

section Joint

variable {sha256 : Bytes → ByteArr 32} {before after : System} {label : Label}
variable {dispatch : Dispatch} {arrivals : Arrivals} {task : TaskId}
variable {endpoint : Endpoint} {outbound : Outbound} {own : OutboundLabel}

/-- The manager puts an event into the command channel. -/
theorem EndAgrees.enqueue {event : EventsPeerManager} {received : Bytes}
    (hagrees : EndAgrees ((before, dispatch), arrivals) task endpoint)
    (hmove : OutboundStep sha256 endpoint.outbound (.enqueue event) outbound)
    {dispatch' : Dispatch} {arrivals' : Arrivals}
    (hcommands : after.commands task = before.commands task ++ [event])
    (hpeers : after.peers task = before.peers task)
    (hrouted : dispatch'.routed task = dispatch.routed task ++ lowMessages [event])
    (henqueued : arrivals'.record.enqueued = arrivals.record.enqueued) :
    EndAgrees ((after, dispatch'), arrivals') task { outbound, received } := by
  cases hmove with
  | enqueue =>
      constructor
      · exact hcommands.trans (congrArg (· ++ [event]) hagrees.commands)
      · intro turn hturn
        exact hagrees.looping turn (hpeers ▸ hturn)
      · rw [lowMessages_append, hrouted]
        exact congrArg (· ++ _) hagrees.routed
      · rw [henqueued]
        exact hagrees.forwarded

/-- The peer goes on, and nothing goes to the manager. -/
theorem EndAgrees.advance {turn : PeerTurn} {received : Bytes}
    (hagrees : EndAgrees ((before, dispatch), arrivals) task endpoint)
    {dispatch' : Dispatch} {arrivals' : Arrivals}
    (hpeer : after.peers task = .looping turn)
    (hphase : outbound.tasks.peer = .looping turn)
    (hcommands : after.commands task = outbound.commands)
    (hqueued : outbound.enqueued = endpoint.outbound.enqueued)
    (hforwarded : outbound.tasks.forwarded = endpoint.outbound.tasks.forwarded)
    (hrouted : dispatch'.routed = dispatch.routed)
    (henqueued : arrivals'.record.enqueued = arrivals.record.enqueued) :
    EndAgrees ((after, dispatch'), arrivals') task { outbound, received } where
  commands := hcommands
  looping turn' hturn := by
    cases hpeer.symm.trans hturn
    exact hphase ▸ .looping turn
  routed := by
    simp only [hqueued, hrouted]
    exact hagrees.routed
  forwarded := by
    simp only [hforwarded, henqueued]
    exact hagrees.forwarded

theorem EndAgrees.phase {reached : Recorded}
    (hagrees : EndAgrees reached task endpoint) {turn : PeerTurn}
    (hpeer : reached.1.1.peers task = .looping turn)
    (hturn : ∀ self incident, turn ≠ .done self (.leave incident)) :
    endpoint.outbound.tasks.peer = .looping turn :=
  (hagrees.looping turn hpeer).phase_eq hturn

/-- The peer takes up an input. -/
theorem PeerStep.takes {input : PeerInput}
    (hstep : PeerStep before (.peerSubtask task input) after) :
    ∃ self, before.peers task = .looping (.done self .next) ∧
      after = before.setPeer task (.looping (PeerActor.turn input self)) := by
  cases hstep with
  | subtask hpeer => exact ⟨_, hpeer, rfl⟩

/-- The tasks of a peer take up an input that the node has taken up. -/
theorem EndAgrees.subtask {input : PeerInput} {own : PeerSubtasks.Label}
    {received : Bytes}
    (hagrees : EndAgrees ((before, dispatch), arrivals) task endpoint)
    (hstep : PeerStep before (.peerSubtask task input) after)
    (hmove : OutboundStep sha256 endpoint.outbound (.task own) outbound)
    (htakes : ∀ self tasks,
      endpoint.outbound.tasks.peer = .looping (.done self .next) →
      PeerSubtasks.Step sha256 endpoint.outbound.tasks own tasks →
        tasks.peer = .looping (PeerActor.turn input self) ∧
          tasks.forwarded = endpoint.outbound.tasks.forwarded) :
    EndAgrees
      ((after, dispatch.after before (.peerSubtask task input)),
        arrivals.after before (.peerSubtask task input)) task
      { outbound, received } := by
  obtain ⟨self, hpeer, rfl⟩ := hstep.takes
  have hphase := hagrees.phase hpeer (by simp)
  cases hmove with
  | task hcommand hwrite hstep =>
      obtain ⟨hturn, hforwarded⟩ := htakes self _ hphase hstep
      exact hagrees.advance (Function.update_self ..) hturn hagrees.commands rfl
        hforwarded rfl rfl

/-- The peer is given a command, in the node and by the tasks. -/
theorem commandStep_of_peer {self : Peer} {incident : Option EventsPeerManager}
    {tasks later : PeerTasks} (hphase : tasks.peer = .looping (.done self .next))
    (hstep : PeerSubtasks.Step sha256 tasks (.peerCommand incident) later) :
    later = { tasks with
      peer := .looping (PeerActor.turn (.incidentPeermanager incident) self) } := by
  cases hstep with
  | reader hstep | writer hstep => cases hstep
  | peer hstep =>
      cases hstep with
      | command hpeer =>
          rw [hphase] at hpeer
          cases hpeer
          rfl

theorem EndAgrees.command {incident : Option EventsPeerManager}
    {received : Bytes}
    (hagrees : EndAgrees ((before, dispatch), arrivals) task endpoint)
    (hstep : PeerStep before (.peerCommand task) after)
    (hmove : OutboundStep sha256 endpoint.outbound (.command incident) outbound) :
    EndAgrees
      ((after, dispatch.after before (.peerCommand task)),
        arrivals.after before (.peerCommand task)) task { outbound, received } := by
  have hcommands : before.commands task = endpoint.outbound.commands :=
    hagrees.commands
  cases hstep with
  | @command _ self event rest hpeer hqueue =>
      have hphase := hagrees.phase hpeer (by simp)
      cases hmove with
      | command hqueue' hstep =>
          rw [hqueue, hqueue'] at hcommands
          cases hcommands
          obtain rfl := commandStep_of_peer hphase hstep
          exact hagrees.advance (Function.update_self ..) rfl
            (Function.update_self ..) rfl rfl rfl rfl
      | commandClosed hqueue' =>
          rw [hqueue, hqueue'] at hcommands
          cases hcommands
  | @commandClosed _ self hpeer hqueue =>
      have hphase := hagrees.phase hpeer (by simp)
      cases hmove with
      | command hqueue' =>
          rw [hqueue, hqueue'] at hcommands
          cases hcommands
      | commandClosed hqueue' hsender hstep =>
          obtain rfl := commandStep_of_peer hphase hstep
          exact hagrees.advance (Function.update_self ..) rfl hagrees.commands rfl
            rfl rfl rfl

/-- The peer is answered, in the node and by the tasks. -/
theorem sendStep_of_peer {self : Peer} {send : PeerSend}
    {resume : Bool → PeerTurn} {delivered : Bool}
    (hphase : endpoint.outbound.tasks.peer = .looping (.issue self send resume))
    (hmove : OutboundStep sha256 endpoint.outbound (.task (.peerSend delivered))
      outbound) :
    ∃ tasks, PeerSubtasks.SendStep endpoint.outbound.tasks send delivered tasks ∧
      outbound = { endpoint.outbound with
        tasks := { tasks with peer := .looping (resume delivered) } } := by
  cases hmove with
  | task hcommand hwrite hstep =>
      cases hstep with
      | reader hstep | writer hstep => cases hstep
      | peer hstep =>
          cases hstep with
          | send hpeer hsend =>
              rw [hphase] at hpeer
              cases hpeer
              exact ⟨_, hsend, rfl⟩
          | shutdown hpeer =>
              rw [hphase] at hpeer
              cases hpeer

theorem EndAgrees.forward {delivered : Bool} {received : Bytes}
    (hagrees : EndAgrees ((before, dispatch), arrivals) task endpoint)
    (hstep : PeerStep before (.peerSend task delivered) after)
    (hmove : OutboundStep sha256 endpoint.outbound (.task (.peerSend delivered))
      outbound) :
    EndAgrees
      ((after, dispatch.after before (.peerSend task delivered)),
        arrivals.after before (.peerSend task delivered)) task
      { outbound, received } := by
  cases hstep with
  | @send _ self event resume hpeer hopen hroom =>
      obtain ⟨tasks, hsend, rfl⟩ :=
        sendStep_of_peer (hagrees.phase hpeer (by simp)) hmove
      cases hsend with
      | toPeerManager =>
          constructor
          · exact hagrees.commands
          · intro turn hturn
            cases (Function.update_self ..).symm.trans hturn
            exact .looping _
          · exact hagrees.routed
          · have henqueued :
                (arrivals.after before (.peerSend task true)).record.enqueued =
                  arrivals.record.enqueued ++
                    [{ connection := task, event := event }] := by
              simp [Arrivals.after, Record.after, hpeer, PeerPhase.offers]
            have hforwarded : endpoint.outbound.tasks.forwarded =
                ofConnection task arrivals.record.enqueued := hagrees.forwarded
            simp only [henqueued, hforwarded, ofConnection_append, ofConnection_cons,
              if_true, ofConnection_nil]
  | @sendClosed _ self event resume hpeer hclosed =>
      obtain ⟨tasks, hsend, rfl⟩ :=
        sendStep_of_peer (hagrees.phase hpeer (by simp)) hmove
      cases hsend with
      | toPeerManagerClosed =>
          exact hagrees.advance (Function.update_self ..) rfl hagrees.commands rfl
            rfl rfl rfl

theorem EndAgrees.write {delivered : Bool} {received : Bytes}
    (hagrees : EndAgrees ((before, dispatch), arrivals) task endpoint)
    (hstep : PeerStep before (.peerWrite task delivered) after)
    (hmove : OutboundStep sha256 endpoint.outbound (.task (.peerSend delivered))
      outbound) :
    EndAgrees
      ((after, dispatch.after before (.peerWrite task delivered)),
        arrivals.after before (.peerWrite task delivered)) task
      { outbound, received } := by
  have hrouted : (dispatch.after before (.peerWrite task delivered)).routed =
      dispatch.routed := by
    cases delivered <;> rfl
  have henqueued : (arrivals.after before
      (.peerWrite task delivered)).record.enqueued = arrivals.record.enqueued := by
    cases delivered <;> rfl
  cases hstep with
  | @write _ self event resume hpeer =>
      obtain ⟨tasks, hsend, rfl⟩ :=
        sendStep_of_peer (hagrees.phase hpeer (by simp)) hmove
      cases hsend with
      | toTaskWrite | toTaskWriteClosed =>
          exact hagrees.advance (Function.update_self ..) rfl hagrees.commands rfl
            rfl hrouted henqueued

/-- The tasks take up what the node takes up. -/
theorem Meets.takes {tasks tasks' later : PeerTasks} {input : PeerInput}
    {own : PeerSubtasks.Label} {self : Peer}
    (hmeets : Meets before after task tasks tasks' (.peerSubtask task input)
      (.task own))
    (hphase : tasks.peer = .looping (.done self .next))
    (hstep : PeerSubtasks.Step sha256 tasks own later) :
    later.peer = .looping (PeerActor.turn input self) ∧
      later.forwarded = tasks.forwarded := by
  cases hstep with
  | reader hstep => cases hstep <;> cases hmeets
  | writer hstep => cases hstep <;> cases hmeets
  | peer hstep =>
      cases hmeets with
      | receive hqueue =>
          cases hstep with
          | receive hpeer hqueue' =>
              rw [hqueue] at hqueue'
              rw [hphase] at hpeer
              cases hqueue'
              cases hpeer
              exact ⟨rfl, rfl⟩
      | receiveClosed =>
          cases hstep with
          | receiveClosed hpeer =>
              rw [hphase] at hpeer
              cases hpeer
              exact ⟨rfl, rfl⟩
      | joinReader hreader =>
          cases hstep with
          | joinReader hpeer hreader' =>
              rw [hreader] at hreader'
              rw [hphase] at hpeer
              cases hreader'
              cases hpeer
              exact ⟨rfl, rfl⟩
      | joinWriter hwriter =>
          cases hstep with
          | joinWriter hpeer hwriter' =>
              rw [hwriter] at hwriter'
              rw [hphase] at hpeer
              cases hwriter'
              cases hpeer
              exact ⟨rfl, rfl⟩

/-- The peer has ended. -/
theorem EndAgrees.finish {received : Bytes} {outcome : TaskOutcome}
    (hagrees : EndAgrees ((before, dispatch), arrivals) task endpoint)
    (hstep : PeerStep before (.peerEnd task) after)
    (hmove : OutboundStep sha256 endpoint.outbound (.task .peerReturn) outbound)
    (hpeer : after.peers task = .finished outcome) :
    EndAgrees
      ((after, dispatch.after before (.peerEnd task)),
        arrivals.after before (.peerEnd task)) task { outbound, received } := by
  have hagrees := hagrees.untouched
    (hstep.untouched (show ¬ Touches before (.peerEnd task) task from not_false))
  cases hmove with
  | task hcommand hwrite hstep =>
      cases hstep with
      | reader hstep | writer hstep => cases hstep
      | peer hstep =>
          cases hstep with
          | finish =>
              refine ⟨hagrees.commands, fun turn hturn => ?_, hagrees.routed,
                hagrees.forwarded⟩
              cases hpeer.symm.trans hturn

/-- A joint step keeps the agreement. -/
theorem EndAgrees.joint {received : Bytes}
    (hagrees : EndAgrees ((before, dispatch), arrivals) task endpoint)
    (hstep : Step before label after)
    (hmove : OutboundStep sha256 endpoint.outbound own outbound)
    (hmeets : Meets before after task endpoint.outbound.tasks outbound.tasks label
      own) :
    EndAgrees
      ((after, dispatch.after before label), arrivals.after before label) task
      { outbound, received } := by
  have hkept := hmeets
  cases hmeets with
  | @send event hmanager =>
      cases hstep with
      | handle hstep | peer hstep => cases hstep
      | manager hstep =>
          cases hstep with
          | @send self send resume hrunning hopen hroom =>
              rw [hrunning] at hmanager
              cases hmanager
              refine hagrees.enqueue hmove (Function.update_self ..) rfl ?_ rfl
              cases event <;>
                simp [Dispatch.after, hrunning, routes, lowMessages]
  | disconnect hmanager hopen =>
      cases hstep with
      | handle hstep | peer hstep => cases hstep
      | manager hstep =>
          cases hstep with
          | disconnect hrunning =>
              rw [hrunning] at hmanager
              cases hmanager
              exact hagrees.enqueue hmove (Function.update_self ..) rfl
                (List.append_nil _).symm rfl
          | disconnectClosed hrunning hclosed =>
              rw [hrunning] at hmanager
              cases hmanager
              exact absurd hclosed hopen
          | disconnected hrunning =>
              rw [hrunning] at hmanager
              cases hmanager
  | command | commandClosed =>
      cases hstep with
      | manager hstep | handle hstep => cases hstep
      | peer hstep => exact hagrees.command hstep hmove
  | receive | receiveClosed | joinReader | joinWriter =>
      cases hstep with
      | manager hstep | handle hstep => cases hstep
      | peer hstep => exact hagrees.subtask hstep hmove fun _ _ => hkept.takes
  | forward =>
      cases hstep with
      | manager hstep | handle hstep => cases hstep
      | peer hstep => exact hagrees.forward hstep hmove
  | write =>
      cases hstep with
      | manager hstep | handle hstep => cases hstep
      | peer hstep => exact hagrees.write hstep hmove
  | finish hpeer =>
      cases hstep with
      | manager hstep | handle hstep => cases hstep
      | peer hstep => exact hagrees.finish hstep hmove hpeer

end Joint

end P2PNetwork.Runtime
