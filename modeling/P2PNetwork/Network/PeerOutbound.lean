import P2PNetwork.Network.PeerTasks

/-!
# Messages on their way to the socket

A message for the remote side goes from `PeerManager` through the channel of
the peer, the hands of the peer and the channel of the writer to the socket,
which accepts the bytes of a write a few at a time.  The channel from
`PeerManager` and the bytes on the socket are added to the tasks of a peer.
-/

namespace P2PNetwork.PeerOutbound

open P2PNetwork.ByteAccess
open P2PNetwork.Events
open P2PNetwork.Handler
open P2PNetwork.PeerActor
open P2PNetwork.PeerSubtasks
open P2PNetwork.TaskWrite

/-- A peer, the channel that `PeerManager` sends it events through and the
socket it writes to.  What was put into the channel and what was taken out of
it is recorded. -/
structure Outbound where
  tasks : PeerTasks
  commands : List EventsPeerManager
  senderDropped : Bool
  enqueued : List EventsPeerManager
  taken : List EventsPeerManager
  /-- the bytes on the socket -/
  written : Bytes
  /-- how many bytes of the writer's current write are among them -/
  progress : ℕ

def Outbound.initial (peer : Peer) : Outbound where
  tasks := .initial peer
  commands := []
  senderDropped := false
  enqueued := []
  taken := []
  written := []
  progress := 0

inductive OutboundLabel where
  | enqueue (event : EventsPeerManager)
  | dropSender
  | command (incident : Option EventsPeerManager)
  | accept (count : ℕ)
  | write (result : Except IoError Unit)
  | task (label : Label)

section Steps

variable (sha256 : Bytes → ByteArr 32)

inductive OutboundStep (before : Outbound) : OutboundLabel → Outbound → Prop where
  | enqueue {event : EventsPeerManager}
      (hsender : before.senderDropped = false) (hreceiver : ¬before.tasks.gone)
      (hroom : before.commands.length < channelCapacity) :
      OutboundStep before (.enqueue event)
        { before with
          commands := before.commands ++ [event]
          enqueued := before.enqueued ++ [event] }
  | dropSender :
      OutboundStep before .dropSender { before with senderDropped := true }
  | command {event : EventsPeerManager} {rest : List EventsPeerManager}
      {tasks : PeerTasks} (hqueue : before.commands = event :: rest)
      (hstep : Step sha256 before.tasks (.peerCommand (some event)) tasks) :
      OutboundStep before (.command (some event))
        { before with
          tasks
          commands := rest
          taken := before.taken ++ [event] }
  | commandClosed {tasks : PeerTasks} (hqueue : before.commands = [])
      (hsender : before.senderDropped = true)
      (hstep : Step sha256 before.tasks (.peerCommand none) tasks) :
      OutboundStep before (.command none) { before with tasks }
  | accept {piece : Bytes} {resume : Except IoError Unit → WriteTurn}
      {count : ℕ}
      (hwriter : before.tasks.writer = .running (.issue () piece resume))
      (hcount : before.progress + count ≤ piece.length) :
      OutboundStep before (.accept count)
        { before with
          written := before.written ++ (piece.drop before.progress).take count
          progress := before.progress + count }
  | write {piece : Bytes} {resume : Except IoError Unit → WriteTurn}
      {tasks : PeerTasks}
      (hwriter : before.tasks.writer = .running (.issue () piece resume))
      (hwhole : before.progress = piece.length)
      (hstep : Step sha256 before.tasks (.writerWrite (.ok ())) tasks) :
      OutboundStep before (.write (.ok ())) { before with tasks, progress := 0 }
  | writeFail {reason : IoError} {tasks : PeerTasks}
      (hstep : Step sha256 before.tasks (.writerWrite (.error reason)) tasks) :
      OutboundStep before (.write (.error reason))
        { before with tasks, progress := 0 }
  | task {label : Label} {tasks : PeerTasks}
      (hcommand : ∀ incident, label ≠ .peerCommand incident)
      (hwrite : ∀ result, label ≠ .writerWrite result)
      (hstep : Step sha256 before.tasks label tasks) :
      OutboundStep before (.task label) { before with tasks }

end Steps

/-! ## The phases of the peer -/

/-- The writer has left its loop. -/
inductive Stopped :
    Subtask Unit Bytes (Except IoError Unit) ResultTaskWrite → Prop where
  | leaving (result : ResultTaskWrite) :
      Stopped (.running (.done () (.leave result)))
  | ended (result : Except JoinError ResultTaskWrite) : Stopped (.ended result)

/-- The peer sends nothing to the writer any more. -/
inductive DoneSending : PeerPhase → Prop where
  | closing (self : Peer) (incident : EventsCriticalCompletion) :
      DoneSending (.closing incident (.done self ()))
  | returned (result : Except ErrorPeer SuccessPeer) :
      DoneSending (.returned result)

/-- What a peer sends after its loop, at most. -/
def closingSends : List PeerSend :=
  [.toTaskRead .shutdown, .toTaskWrite .shutdown]

/-- Where the peer stands, given the events it has taken. -/
inductive Phase (taken : List EventsPeerManager) : PeerPhase → Prop where
  | idle (self : Peer) (htaken : .shutdown ∉ taken) :
      Phase taken (.looping (.done self .next))
  | sending (self : Peer) (send : PeerSend) (closed : EventsCriticalCompletion)
      (htaken : .shutdown ∉ taken)
      (hsend : ∀ event, send = .toTaskWrite event →
        ∃ message, event = .lowLevelMessage message) :
      Phase taken (.looping (forward send closed self))
  | leaving (self : Peer) (incident : EventsCriticalCompletion)
      (htaken : .shutdown ∈ taken → incident = .incidentConfirmationShutdown) :
      Phase taken (.looping (.done self (.leave incident)))
  | closing (self : Peer) (incident : EventsCriticalCompletion)
      (sends : List PeerSend)
      (htaken : .shutdown ∈ taken → incident = .incidentConfirmationShutdown)
      (hsends : sends.Sublist closingSends) :
      Phase taken (.closing incident (sendAll self sends))
  | returned (result : Except ErrorPeer SuccessPeer) :
      Phase taken (.returned result)

/-- What holds of the control flow in every reachable state. -/
structure Controlled (state : Outbound) : Prop where
  queue : state.enqueued = state.taken ++ state.commands
  last : .shutdown ∈ state.taken →
    ∃ front, state.taken = front ++ [.shutdown] ∧ .shutdown ∉ front
  phase : Phase state.taken state.tasks.peer
  ended : .shutdown ∈ state.taken → state.tasks.gone →
    state.tasks.writer.hasEnded

/-! ## The control flow -/

section Control

variable {sha256 : Bytes → ByteArr 32} {taken : List EventsPeerManager}

theorem phase_command {self : Peer} (htaken : .shutdown ∉ taken)
    (event : EventsPeerManager) :
    Phase (taken ++ [event])
      (.looping (turn (.incidentPeermanager (some event)) self)) := by
  have hother (hevent : .shutdown ≠ event) :
      EventsPeerManager.shutdown ∉ taken ++ [event] := by
    rw [List.mem_append, List.mem_singleton, not_or]
    exact ⟨htaken, hevent⟩
  cases event with
  | readyLowMessage message =>
      refine .sending self _ _ (hother nofun) ?_
      rintro event ⟨⟩
      exact ⟨message, rfl⟩
  | shutdown => exact .leaving self _ fun _ => rfl
  | _ => exact .idle self (hother nofun)

/-- Any other input of the loop. -/
theorem phase_turn {self : Peer} (htaken : .shutdown ∉ taken) (input : PeerInput)
    (hinput : ∀ event, input ≠ .incidentPeermanager (some event)) :
    Phase taken (.looping (turn input self)) := by
  have hleave (incident : EventsCriticalCompletion) :
      Phase taken (.looping (.done self (.leave incident))) :=
    .leaving self incident fun hshutdown => absurd hshutdown htaken
  cases input with
  | incidentPeermanager incident =>
      cases incident with
      | none => exact hleave _
      | some event => exact absurd rfl (hinput event)
  | incidentTaskRead incident =>
      cases incident with
      | none => exact hleave _
      | some event =>
          obtain ⟨message⟩ := event
          exact .sending self _ _ htaken nofun
  | resultStateTaskRead result => cases result <;> exact hleave _
  | resultStateTaskWrite result => cases result <;> exact hleave _

theorem closingSends_sublist (incident : EventsCriticalCompletion) :
    ((if incident.awaitsTaskRead then [PeerSend.toTaskRead .shutdown] else []) ++
      if incident.awaitsTaskWrite then [PeerSend.toTaskWrite .shutdown]
      else []).Sublist closingSends := by
  cases incident <;> simp [EventsCriticalCompletion.awaitsTaskRead,
    EventsCriticalCompletion.awaitsTaskWrite, closingSends]

theorem Phase.peerStep {before after : PeerTasks} {label : Label}
    (hphase : Phase taken before.peer) (hstep : PeerStep before label after)
    (hlabel : ∀ event, label ≠ .peerCommand (some event)) :
    Phase taken after.peer := by
  cases hstep with
  | @command self incident hpeer =>
      rw [hpeer] at hphase
      cases hphase with
      | idle _ htaken =>
          refine phase_turn htaken _ ?_
          rintro event ⟨⟩
          exact hlabel event rfl
  | receive hpeer =>
      rw [hpeer] at hphase
      cases hphase with
      | idle _ htaken => exact phase_turn htaken _ nofun
  | receiveClosed hpeer =>
      rw [hpeer] at hphase
      cases hphase with
      | idle _ htaken => exact phase_turn htaken _ nofun
  | joinReader hpeer =>
      rw [hpeer] at hphase
      cases hphase with
      | idle _ htaken => exact phase_turn htaken _ nofun
  | joinWriter hpeer =>
      rw [hpeer] at hphase
      cases hphase with
      | idle _ htaken => exact phase_turn htaken _ nofun
  | @send after self send resume delivered hpeer hsend =>
      rw [hpeer] at hphase
      cases hphase with
      | sending _ _ closed htaken =>
          cases delivered with
          | true => exact .idle self htaken
          | false =>
              exact .leaving self closed fun hshutdown =>
                absurd hshutdown htaken
  | leave hpeer =>
      rw [hpeer] at hphase
      cases hphase with
      | leaving _ _ htaken =>
          exact .closing _ _ _ htaken (closingSends_sublist _)
  | shutdown hpeer hsend =>
      rw [hpeer] at hphase
      generalize hsends : Await.issue _ _ _ = tree at hphase
      cases hphase with
      | closing _ _ sends htaken hlist =>
          cases sends with
          | nil => cases hsends
          | cons first rest =>
              cases hsends
              exact .closing _ _ rest htaken
                ((List.sublist_cons_self _ _).trans hlist)
  | finish hpeer => exact .returned _

/-- A peer that has taken `Shutdown` returns after its writer has ended. -/
theorem Phase.ended_of_return {before after : PeerTasks} {label : Label}
    (hphase : Phase taken before.peer) (hstep : PeerStep before label after)
    (hshutdown : .shutdown ∈ taken) (hgone : after.gone) :
    after.writer.hasEnded := by
  obtain ⟨result, hreturned⟩ := hgone
  cases hstep with
  | @finish self incident read write hpeer hread hwrite =>
      rw [hpeer] at hphase
      generalize hsends : Await.done self () = tree at hphase
      cases hphase with
      | closing _ _ sends htaken =>
          obtain rfl := htaken hshutdown
          rw [hwrite rfl]
          trivial
  | _ => cases hreturned

theorem ReaderStep.outbound_frame {before after : PeerTasks} {label : Label}
    (hstep : ReaderStep sha256 before label after) :
    after.peer = before.peer ∧ after.writer = before.writer ∧
      after.toTaskWrite = before.toTaskWrite := by
  cases hstep <;> exact ⟨rfl, rfl, rfl⟩

/-- Any step of the peer and its subtasks but taking an event. -/
theorem Controlled.taskStep {before : Outbound} {tasks : PeerTasks}
    {label : Label} (hbefore : Controlled before)
    (hlabel : ∀ event, label ≠ .peerCommand (some event))
    (hstep : Step sha256 before.tasks label tasks) (written : Bytes)
    (progress : ℕ) :
    Controlled { before with tasks, written, progress } := by
  cases hstep with
  | reader hstep =>
      obtain ⟨hpeer, hwriter, -⟩ := ReaderStep.outbound_frame hstep
      refine ⟨hbefore.queue, hbefore.last, ?_, ?_⟩
      · rw [hpeer]
        exact hbefore.phase
      · rw [PeerTasks.gone, hpeer, hwriter]
        exact hbefore.ended
  | writer hstep =>
      have hpeer := hstep.frame.1
      refine ⟨hbefore.queue, hbefore.last, ?_, fun hshutdown hgone => ?_⟩
      · rw [hpeer]
        exact hbefore.phase
      · rw [PeerTasks.gone, hpeer] at hgone
        exact absurd (hbefore.ended hshutdown hgone) hstep.not_ended
  | peer hstep =>
      exact ⟨hbefore.queue, hbefore.last, hbefore.phase.peerStep hstep hlabel,
        hbefore.phase.ended_of_return hstep⟩

theorem Controlled.step {before after : Outbound} {label : OutboundLabel}
    (hbefore : Controlled before) (hstep : OutboundStep sha256 before label after) :
    Controlled after := by
  cases hstep with
  | enqueue =>
      refine ⟨?_, hbefore.last, hbefore.phase, hbefore.ended⟩
      simp only [hbefore.queue, List.append_assoc]
  | dropSender =>
      exact ⟨hbefore.queue, hbefore.last, hbefore.phase, hbefore.ended⟩
  | @command event rest tasks hqueue hstep =>
      cases hstep with
      | reader hstep => cases hstep
      | writer hstep => cases hstep
      | peer hstep =>
          cases hstep with
          | command hpeer =>
              have hphase := hbefore.phase
              rw [hpeer] at hphase
              cases hphase with
              | idle self htaken =>
                  refine ⟨?_, fun hshutdown => ⟨before.taken, ?_, htaken⟩,
                    phase_command htaken event, ?_⟩
                  · simp only [hbefore.queue, hqueue, List.append_assoc,
                      List.singleton_append]
                  · rw [List.mem_append, List.mem_singleton] at hshutdown
                    rw [hshutdown.resolve_left htaken]
                  · rintro - ⟨result, hreturned⟩
                    cases hreturned
  | commandClosed hqueue hsender hstep =>
      exact hbefore.taskStep (by simp) hstep _ _
  | accept hwriter hcount =>
      exact ⟨hbefore.queue, hbefore.last, hbefore.phase, hbefore.ended⟩
  | write hwriter hwhole hstep => exact hbefore.taskStep (by simp) hstep _ _
  | writeFail hstep => exact hbefore.taskStep (by simp) hstep _ _
  | task hcommand hwrite hstep =>
      exact hbefore.taskStep (fun event => hcommand _) hstep _ _

end Control

end P2PNetwork.PeerOutbound
