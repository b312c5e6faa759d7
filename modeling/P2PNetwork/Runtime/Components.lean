import P2PNetwork.Network.PeerTasks
import P2PNetwork.Protocol.HandshakeSafety
import P2PNetwork.Protocol.Links
import P2PNetwork.Runtime.System

/-!
# The components of the node

Whatever the rest of the node does, `HandleMessage` runs its own loop there,
and so does every node of a network of links.  What holds of every run of the
loop therefore holds inside both models: the tables of all peers stay in
agreement with their histories, and no lookup panics.  A peer with its subtasks
does nothing that a peer of the node, whose subtasks are the environment, could
not do.
-/

namespace P2PNetwork.Runtime

open P2PNetwork.EventLoop
open P2PNetwork.Events
open P2PNetwork.Handler
open P2PNetwork.Handshake
open P2PNetwork.Links
open P2PNetwork.Manager
open P2PNetwork.PeerActor
open P2PNetwork.PeerSubtasks (PeerTasks)
open P2PNetwork.ByteAccess

/-- A loop of `HandleMessage` that has just been started. -/
def startedHandle : HandleTurn × History :=
  (.done HandleMessage.create .next, fun _ => [])

/-- `turn` is reached by a run of the loop of `HandleMessage`. -/
def HandleReached (turn : HandleTurn) : Prop :=
  ∃ labels history,
    Run (LoopStep HandleMessage.turn record) startedHandle labels (turn, history)

theorem HandleReached.started :
    HandleReached (.done HandleMessage.create .next) :=
  ⟨[], _, .refl _⟩

theorem HandleReached.take {self : HandleMessage}
    (hreached : HandleReached (.done self .next)) (input : HandleInput) :
    HandleReached (HandleMessage.turn input self) := by
  obtain ⟨labels, history, run⟩ := hreached
  exact ⟨_, _, run.tail (.take input)⟩

theorem HandleReached.answer {self : HandleMessage}
    {event : EventsHandleMessage} {resume : Bool → HandleTurn}
    (hreached : HandleReached (.issue self event resume)) (delivered : Bool) :
    HandleReached (resume delivered) := by
  obtain ⟨labels, history, run⟩ := hreached
  exact ⟨_, _, run.tail (.answer delivered)⟩

/-- The tables agree with some history, and the task has not panicked. -/
theorem HandleReached.safe {turn : HandleTurn} (hreached : HandleReached turn) :
    (∃ history, Safe turn.state history) ∧
      turn ≠ .done turn.state .panicked := by
  obtain ⟨labels, history, run⟩ := hreached
  have hkeeps := keepsSafe_of_run run
  exact ⟨⟨history, hkeeps.safe⟩, hkeeps.not_panicked⟩

/-! ## In the node -/

theorem HandleStep.reached {before after : System} {label : Label}
    (hstep : HandleStep before label after)
    (hreached : HandleReached before.handle) : HandleReached after.handle := by
  cases hstep with
  | threadProtocol hhandle incident =>
      rw [hhandle] at hreached
      exact hreached.take (.incidentThreadProtocol incident)
  | peermanager hhandle hqueue now =>
      rw [hhandle] at hreached
      exact hreached.take (.incidentPeermanager now _)
  | peermanagerClosed hhandle hqueue hfinished now =>
      rw [hhandle] at hreached
      exact hreached.take (.incidentPeermanager now none)
  | send hhandle hopen hroom =>
      rw [hhandle] at hreached
      exact hreached.answer true
  | sendClosed hhandle hclosed =>
      rw [hhandle] at hreached
      exact hreached.answer false

/-- In every reachable state of the node `HandleMessage` has run its loop. -/
theorem handle_reached {nonce : UInt64} {labels : List Label} {system : System}
    (run : Run Step (.initial nonce) labels system) :
    HandleReached system.handle := by
  apply run.invariant fun system => HandleReached system.handle
  · exact .started
  · intro before label after hbefore hstep
    cases hstep with
    | manager hstep => exact hstep.handle_eq ▸ hbefore
    | handle hstep => exact hstep.reached hbefore
    | peer hstep => exact hstep.handle_eq ▸ hbefore

/-- In the node no lookup of `HandleMessage` panics, and the flags of every
peer agree with a history. -/
theorem handle_agrees {nonce : UInt64} {labels : List Label} {system : System}
    (run : Run Step (.initial nonce) labels system) :
    (∃ history, Safe system.handle.state history) ∧
      system.handle ≠ .done system.handle.state .panicked :=
  (handle_reached run).safe

/-! ## In a network of links -/

section Network

variable {Node Link : Type} [DecidableEq Node] [DecidableEq Link]
variable {topology : Topology Node Link}

/-- The turn of one node is replaced and the others stay as they are. -/
theorem handleReached_update {turn : Node → HandleTurn} {node : Node}
    {turn' : HandleTurn} (hothers : ∀ other, HandleReached (turn other))
    (hnode : HandleReached turn') (other : Node) :
    HandleReached (Function.update turn node turn' other) := by
  by_cases hother : other = node
  · subst hother
    rw [Function.update_self]
    exact hnode
  · rw [Function.update_of_ne hother]
    exact hothers other

theorem linkStep_reached {before after : World Node Link}
    {label : Links.Label Node Link}
    (hstep : Links.Step topology before label after)
    (hreached : ∀ node, HandleReached (before.turn node)) :
    ∀ node, HandleReached (after.turn node) := by
  cases hstep with
  | connect endpoint now hidle hfresh =>
      apply handleReached_update hreached
      have hself := hreached (topology.node endpoint)
      rw [hidle] at hself
      exact hself.take _
  | deliver endpoint now hidle hconnected hinbox =>
      apply handleReached_update hreached
      have hself := hreached (topology.node endpoint)
      rw [hidle] at hself
      exact hself.take _
  | send node hturn =>
      apply handleReached_update hreached
      have hself := hreached node
      rw [hturn] at hself
      exact hself.answer true

/-- Every node of a network of links runs the loop of `HandleMessage`. -/
theorem links_agree {labels : List (Links.Label Node Link)}
    {world : World Node Link}
    (run : Run (Links.Step topology) World.initial labels world) (node : Node) :
    (∃ history, Safe (world.turn node).state history) ∧
      world.turn node ≠ .done (world.turn node).state .panicked := by
  have hreached : ∀ node, HandleReached (world.turn node) := by
    apply run.invariant fun world => ∀ node, HandleReached (world.turn node)
    · exact fun _ => .started
    · intro before label after hbefore hstep
      exact linkStep_reached hstep hbefore
  exact (hreached node).safe

end Network

/-! ## Peers with their subtasks -/

/-- A turn of the loop has no send to the reader. -/
def LeavesReader (turn : PeerTurn) : Prop :=
  turn.Holds (fun ghost _ _ => ghost)
    (fun _ _ send => ∀ event, send ≠ .toTaskRead event) (fun _ _ _ => True) ()

theorem turn_leavesReader (input : PeerInput) (self : Peer) :
    LeavesReader (PeerActor.turn input self) := by
  unfold PeerActor.turn
  split
  case h_1 | h_5 =>
    refine ⟨nofun, fun delivered => ?_⟩
    cases delivered <;> trivial
  all_goals trivial

/-- What the node sees of a peer: while the peer tells its subtasks to shut
down and waits for them it has left its loop. -/
inductive Shows : PeerSubtasks.PeerPhase → PeerPhase → Prop where
  | looping {turn : PeerTurn} (hturn : LeavesReader turn) :
      Shows (.looping turn) (.looping turn)
  | closing (self : Peer) (incident : EventsCriticalCompletion)
      (sends : Await Peer PeerSend Bool Unit) :
      Shows (.closing incident sends) (.looping (.done self (.leave incident)))
  | returned (result : Except ErrorPeer SuccessPeer) :
      Shows (.returned result) (.finished (.returned result))

/-- The channels between the node and the peer `task` let the peer take the
step. -/
def Permits (system : System) (task : TaskId) (tasks : PeerTasks) :
    PeerSubtasks.Label → Prop
  | .peerCommand (some event) => ∃ rest, system.commands task = event :: rest
  | .peerCommand none =>
      system.commands task = [] ∧ ¬ system.manager.HoldsSender task
  | .peerSend delivered => ∀ self event resume,
      tasks.peer = .looping (.issue self (.toPeerManager event) resume) →
        if delivered then
          ¬ system.manager.HasFinished ∧
            system.fromPeers.length < channelCapacity
        else system.manager.HasFinished
  | _ => True

section Subtasks

variable {sha256 : Bytes → ByteArr 32} {system : System} {task : TaskId}
variable {before after : PeerTasks} {label : PeerSubtasks.Label}

/-- The node can follow a step of the peer without touching anything else of
the tasks. -/
def Follows (system : System) (task : TaskId)
    (peer : PeerSubtasks.PeerPhase) : Prop :=
  ∃ labels system', Run Step system labels system' ∧
    Shows peer (system'.peers task) ∧ system'.manager = system.manager ∧
    system'.handle = system.handle ∧
    ∀ other, other ≠ task → system'.peers other = system.peers other

theorem follows_stutter {peer : PeerSubtasks.PeerPhase}
    (hshows : Shows peer (system.peers task)) : Follows system task peer :=
  ⟨[], system, .refl _, hshows, rfl, rfl, fun _ _ => rfl⟩

/-- One step of the node's peer. -/
theorem follows_step {peer : PeerSubtasks.PeerPhase} {label : Label}
    {phase : PeerPhase} {system' : System}
    (hstep : PeerStep system label system')
    (hpeers : system'.peers = Function.update system.peers task phase)
    (hshows : Shows peer phase) : Follows system task peer := by
  refine ⟨[label], system', .tail (.refl _) (.peer hstep), ?_,
    hstep.manager_eq, hstep.handle_eq, ?_⟩
  · rw [hpeers, Function.update_self]
    exact hshows
  · intro other hother
    rw [hpeers, Function.update_of_ne hother]

/-- The node's peer takes up an input of its subtasks. -/
theorem follows_subtask {self : Peer} {input : PeerInput}
    (hphase : system.peers task = .looping (.done self .next))
    (hinput : FromSubtask input) :
    Follows system task (.looping (PeerActor.turn input self)) :=
  follows_step (.subtask hphase hinput) rfl
    (.looping (turn_leavesReader input self))

theorem Shows.of_looping {peer : PeerSubtasks.PeerPhase} {phase : PeerPhase}
    {turn : PeerTurn} (hshows : Shows peer phase) (hpeer : peer = .looping turn) :
    phase = .looping turn ∧ LeavesReader turn := by
  subst hpeer
  cases hshows with
  | looping hturn => exact ⟨rfl, hturn⟩

theorem Shows.of_closing {peer : PeerSubtasks.PeerPhase} {phase : PeerPhase}
    {incident : EventsCriticalCompletion}
    {sends : Await Peer PeerSend Bool Unit} (hshows : Shows peer phase)
    (hpeer : peer = .closing incident sends) :
    ∃ self, phase = .looping (.done self (.leave incident)) := by
  subst hpeer
  cases hshows
  exact ⟨_, rfl⟩

/-- A peer with its subtasks takes a step that the channels permit: the node's
peer takes it too, or it is a step between the peer and its subtasks. -/
theorem Shows.peerStep (hshows : Shows before.peer (system.peers task))
    (hpermits : Permits system task before label)
    (hstep : PeerSubtasks.PeerStep before label after) :
    Follows system task after.peer := by
  cases hstep with
  | @command self incident hpeer =>
      obtain ⟨hphase, -⟩ := hshows.of_looping hpeer
      have hturn := turn_leavesReader (.incidentPeermanager incident) self
      cases incident with
      | none =>
          exact follows_step (.commandClosed hphase hpermits.1 hpermits.2) rfl
            (.looping hturn)
      | some event =>
          obtain ⟨rest, hqueue⟩ := hpermits
          exact follows_step (.command hphase hqueue) rfl (.looping hturn)
  | receive hpeer | receiveClosed hpeer | joinReader hpeer | joinWriter hpeer =>
      obtain ⟨hphase, -⟩ := hshows.of_looping hpeer
      exact follows_subtask hphase trivial
  | @send _ self send resume delivered hpeer hsend =>
      obtain ⟨hphase, hstop, hrest⟩ := hshows.of_looping hpeer
      have hturn : Shows (.looping (resume delivered)) _ :=
        .looping (hrest delivered)
      cases hsend with
      | toTaskRead | toTaskReadClosed => exact absurd rfl (hstop _)
      | toTaskWrite => exact follows_step (.write hphase true) rfl hturn
      | toTaskWriteClosed => exact follows_step (.write hphase false) rfl hturn
      | toPeerManager =>
          obtain ⟨hopen, hroom⟩ := hpermits _ _ _ hpeer
          exact follows_step (.send hphase hopen hroom) rfl hturn
      | toPeerManagerClosed =>
          have hclosed : system.manager.HasFinished := hpermits _ _ _ hpeer
          exact follows_step (.sendClosed hphase hclosed) rfl hturn
  | leave hpeer =>
      apply follows_stutter
      rw [(hshows.of_looping hpeer).1]
      exact .closing _ _ _
  | shutdown hpeer hsend =>
      obtain ⟨self, hphase⟩ := hshows.of_closing hpeer
      apply follows_stutter
      rw [hphase]
      exact .closing _ _ _
  | finish hpeer hread hwrite =>
      obtain ⟨self, hphase⟩ := hshows.of_closing hpeer
      exact follows_step (.finish hphase _ _) rfl (.returned _)

/-- Steps of the reader and of the writer do not show in the node. -/
theorem Shows.step (hshows : Shows before.peer (system.peers task))
    (hpermits : Permits system task before label)
    (hstep : PeerSubtasks.Step sha256 before label after) :
    Follows system task after.peer := by
  cases hstep with
  | reader hstep => exact follows_stutter (hstep.peer_eq ▸ hshows)
  | writer hstep => exact follows_stutter (hstep.frame.1 ▸ hshows)
  | peer hstep => exact hshows.peerStep hpermits hstep

end Subtasks

end P2PNetwork.Runtime
