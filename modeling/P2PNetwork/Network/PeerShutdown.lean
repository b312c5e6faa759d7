import P2PNetwork.Network.PeerTasks

/-!
# Waiting for the reader

After most incidents a peer waits for the end of its reader while it still
owns the receiving end of the reader's channel.  If that channel is full and
the reader is inside a send, neither ever moves again.  This module shows that
it happens, and that it does not when the reader finds room at the shutdown
and for every message it completes afterwards.
-/

namespace P2PNetwork.PeerSubtasks

open P2PNetwork.ByteAccess
open P2PNetwork.Events
open P2PNetwork.EventLoop
open P2PNetwork.Framing
open P2PNetwork.Handler
open P2PNetwork.PeerActor
open P2PNetwork.TaskRead

/-- The peer has left its loop with an incident after which it waits for
`state_task_read`. -/
def AwaitsReader (tasks : PeerTasks) : Prop :=
  ∃ incident sends, tasks.peer = .closing incident sends ∧
    incident.awaitsTaskRead = true

/-- The reader is inside its send to the peer and the channel is full. -/
def ReaderBlocked (tasks : PeerTasks) : Prop :=
  (∃ storageBuffer event resume,
      tasks.reader = .running (.issue storageBuffer event resume)) ∧
    channelCapacity ≤ tasks.fromTaskRead.length

section Steps

variable {sha256 : Bytes → ByteArr 32}
variable {before after : PeerTasks} {label : Label}

/-- The reader is inside its send in every continuation. -/
def SuspendedForever (sha256 : Bytes → ByteArr 32) (tasks : PeerTasks) : Prop :=
  ∀ labels later, Run (Step sha256) tasks labels later →
    later.reader = tasks.reader ∧ ReaderBlocked later

/-! ## A blocked reader stays blocked -/

theorem not_gone_of_awaitsReader (hawaits : AwaitsReader before) :
    ¬before.gone := by
  rintro ⟨result, hreturned⟩
  obtain ⟨incident, sends, hclosing, -⟩ := hawaits
  simp [hclosing] at hreturned

theorem blocked_step (hawaits : AwaitsReader before)
    (hblocked : ReaderBlocked before) (hstep : Step sha256 before label after) :
    AwaitsReader after ∧ ReaderBlocked after ∧ after.reader = before.reader := by
  have hgone := not_gone_of_awaitsReader hawaits
  obtain ⟨incident, sends, hclosing, hincident⟩ := hawaits
  obtain ⟨⟨storageBuffer, event, resume, hreader⟩, hfull⟩ := hblocked
  cases hstep with
  | reader hstep =>
      cases hstep with
      | send _ _ hroom => exact absurd hfull (Nat.not_le.mpr hroom)
      | sendClosed _ hgone' => exact absurd hgone' hgone
      | read hidle => simp [hreader] at hidle
      | command hidle => simp [hreader] at hidle
      | commandClosed hidle => simp [hreader] at hidle
      | finish hdone => simp [hreader] at hdone
  | writer hstep =>
      obtain ⟨hpeer, hreader', hqueue, -⟩ := hstep.frame
      exact ⟨⟨incident, sends, hpeer.trans hclosing, hincident⟩,
        ⟨⟨_, _, _, hreader'.trans hreader⟩, hqueue ▸ hfull⟩, hreader'⟩
  | peer hstep =>
      have hreader' := hstep.reader_eq
      refine ⟨?_, ⟨⟨_, _, _, hreader'.trans hreader⟩,
        (hstep.fromTaskRead_eq hclosing) ▸ hfull⟩, hreader'⟩
      obtain ⟨self, send, resume', delivered, sent, -, -, rfl⟩ |
        ⟨read, result, hread, rfl⟩ := hstep.of_closing hclosing
      · exact ⟨incident, _, rfl, hincident⟩
      · simp [hread hincident] at hreader

/-- While the peer waits for its reader, being blocked once is being blocked
for ever. -/
theorem suspendedForever_iff (hawaits : AwaitsReader before) :
    SuspendedForever sha256 before ↔ ReaderBlocked before := by
  constructor
  · exact fun hforever => (hforever [] before (.refl before)).2
  · intro hblocked labels later run
    have hinvariant := run.invariant
      (fun reached => AwaitsReader reached ∧ ReaderBlocked reached ∧
        reached.reader = before.reader) ⟨hawaits, hblocked, rfl⟩ ?_
    · exact ⟨hinvariant.2.2, hinvariant.2.1⟩
    · intro middle label after ⟨hawaits', hblocked', hreader⟩ hstep
      obtain ⟨hawaits'', hblocked'', hreader'⟩ :=
        blocked_step hawaits' hblocked' hstep
      exact ⟨hawaits'', hblocked'', hreader'.trans hreader⟩

/-! ## When the reader finds room -/

/-- The reader is not blocked when the peer leaves its loop to wait for it,
and completes a message afterwards only with room in its channel. -/
def FindsRoom (sha256 : Bytes → ByteArr 32) (tasks : PeerTasks)
    (label : Label) : Prop :=
  (label = .peerLeave → ¬ReaderBlocked tasks) ∧
    ∀ read storageBuffer message length,
      label = .readerRead (.ok read) →
        tasks.reader = .running (.done storageBuffer .next) →
          rawByteProcessing sha256 (storageBuffer ++ read) =
              .ok (some (message, length)) →
            AwaitsReader tasks →
              tasks.fromTaskRead.length < channelCapacity

/-- A turn of the reader has at most one send, and a reader the peer waits for
is not blocked. -/
structure ReaderFree (tasks : PeerTasks) : Prop where
  single : ∀ turn, tasks.reader = .running turn → turn.SingleSend
  free : AwaitsReader tasks → ¬ReaderBlocked tasks

theorem ReaderFree.initial (peer : Peer) : ReaderFree (.initial peer) where
  single turn hturn := by
    cases hturn
    trivial
  free hawaits := by
    obtain ⟨incident, sends, hclosing, -⟩ := hawaits
    cases hclosing

theorem ReaderFree.of_turn {turn : ReadTurn}
    (hreader : after.reader = .running turn) (hsingle : turn.SingleSend)
    (hfree : AwaitsReader after → ¬ReaderBlocked after) : ReaderFree after where
  single turn' hturn := by
    rw [hreader] at hturn
    cases hturn
    exact hsingle
  free := hfree

/-- Between two turns the reader is in no send. -/
theorem ReaderFree.of_done {storageBuffer : Bytes} {flow : Flow ResultTaskRead}
    (hreader : after.reader = .running (.done storageBuffer flow)) :
    ReaderFree after := by
  apply ReaderFree.of_turn hreader trivial
  rintro - ⟨⟨_, _, _, hissue⟩, -⟩
  rw [hreader] at hissue
  cases hissue

/-- A command of the peer makes the reader send nothing. -/
theorem ReaderFree.of_command {storageBuffer : Bytes}
    {incident : Option EventsPeer}
    (hreader : after.reader = .running
      (startTaskReadTurn sha256 (.incidentPeer incident) storageBuffer)) :
    ReaderFree after := by
  apply ReaderFree.of_turn hreader (startTaskReadTurn_singleSend _ _ _)
  rintro - ⟨⟨_, _, _, hissue⟩, -⟩
  rw [hreader] at hissue
  obtain ⟨read, message, length, hread, -⟩ :=
    startTaskReadTurn_of_issue sha256 (Subtask.running.inj hissue)
  cases hread

theorem ReaderFree.readerStep (hfree : ReaderFree before)
    (hroom : FindsRoom sha256 before label)
    (hstep : ReaderStep sha256 before label after) : ReaderFree after := by
  have hpeer := hstep.peer_eq
  cases hstep with
  | @read storageBuffer result hidle =>
      apply ReaderFree.of_turn rfl (startTaskReadTurn_singleSend _ _ _)
      rintro hawaits ⟨⟨remaining, event, resume, hissue⟩, hfull⟩
      obtain ⟨read, message, length, hread, hparse⟩ :=
        startTaskReadTurn_of_issue sha256 (Subtask.running.inj hissue)
      cases hread
      have hlt := hroom.2 read storageBuffer message length rfl hidle hparse
        (by rwa [AwaitsReader, hpeer] at hawaits)
      exact absurd hfull (Nat.not_le.mpr hlt)
  | command => exact .of_command rfl
  | commandClosed => exact .of_command rfl
  | send hreader =>
      obtain ⟨state, flow, hdone⟩ := hfree.single _ hreader true
      exact .of_done (congrArg Subtask.running hdone)
  | sendClosed hreader =>
      obtain ⟨state, flow, hdone⟩ := hfree.single _ hreader false
      exact .of_done (congrArg Subtask.running hdone)
  | finish hreader =>
      refine ⟨nofun, ?_⟩
      rintro - ⟨⟨_, _, _, hissue⟩, -⟩
      cases hissue

theorem ReaderFree.step (hfree : ReaderFree before)
    (hroom : FindsRoom sha256 before label)
    (hstep : Step sha256 before label after) : ReaderFree after := by
  cases hstep with
  | reader hstep => exact hfree.readerStep hroom hstep
  | writer hstep =>
      obtain ⟨hpeer, hreader, hqueue, -⟩ := hstep.frame
      refine ⟨by rw [hreader]; exact hfree.single, ?_⟩
      rw [AwaitsReader, ReaderBlocked, hpeer, hreader, hqueue]
      exact hfree.free
  | peer hstep =>
      have hreader := hstep.reader_eq
      refine ⟨by rw [hreader]; exact hfree.single, ?_⟩
      rintro ⟨incident, sends, hclosing, hincident⟩ hblocked
      cases hstep with
      | leave hpeer => exact hroom.1 rfl hblocked
      | shutdown hpeer hsend =>
          cases hclosing
          obtain ⟨-, hsent, hqueue, -⟩ := hsend.frame
          refine hfree.free ⟨_, _, hpeer, hincident⟩ ?_
          simpa [ReaderBlocked, hsent, hqueue] using hblocked
      | _ => cases hclosing

/-- In every run in which the reader finds room, no peer waits for a reader
that is suspended for ever. -/
theorem reader_released {peer : Peer} {labels : List Label}
    {last : PeerTasks}
    (run : Run (Restrict (Step sha256) (FindsRoom sha256)) (.initial peer)
      labels last) (hawaits : AwaitsReader last) :
    ¬SuspendedForever sha256 last := by
  have hfree : ReaderFree last :=
    run.invariant ReaderFree (.initial peer)
      fun _ _ _ hbefore hstep => hbefore.step hstep.1 hstep.2
  rw [suspendedForever_iff hawaits]
  exact hfree.free hawaits

end Steps

/-! ## A backlog at the shutdown -/

/-- A peer that is shut down while `queued` messages wait for it and its reader
sends one more. -/
def shutdownBehind (peer : Peer) (queued : ℕ) : PeerTasks :=
  { backlog peer queued with
    peer := .closing .incidentConfirmationShutdown
      (shutdownSubtasks peer .incidentConfirmationShutdown)
    reader := .running (deliverTurn (.version plainVersion)) }

/-- As long as the peer is in its loop, every other step is fine. -/
theorem findsRoom_of_looping {sha256 : Bytes → ByteArr 32} {tasks : PeerTasks}
    {label : Label} {turn : PeerTurn} (hlooping : tasks.peer = .looping turn)
    (hlabel : label ≠ .peerLeave) : FindsRoom sha256 tasks label := by
  refine ⟨fun hleave => absurd hleave hlabel, ?_⟩
  rintro read storageBuffer message length - - - ⟨incident, sends, hclosing, -⟩
  rw [hlooping] at hclosing
  cases hclosing

/-- One message waits for the peer and its reader is in the next send, with room
left in the channel, when the peer is shut down. -/
theorem reader_released_shutdownBehind :
    AwaitsReader (shutdownBehind loopbackPeer 1) ∧
      (∃ storageBuffer event resume, (shutdownBehind loopbackPeer 1).reader =
        .running (.issue storageBuffer event resume)) ∧
      ¬SuspendedForever zeroDigest (shutdownBehind loopbackPeer 1) := by
  have hawaits : AwaitsReader (shutdownBehind loopbackPeer 1) := ⟨_, _, rfl, rfl⟩
  have hread (queued : ℕ) : Restrict (Step zeroDigest) (FindsRoom zeroDigest)
      (backlog loopbackPeer queued) (.readerRead (.ok plainFrame)) _ :=
    ⟨findsRoom_of_looping rfl nofun, read_plainFrame rfl⟩
  have hsend : Restrict (Step zeroDigest) (FindsRoom zeroDigest) _ .readerSend _ :=
    ⟨findsRoom_of_looping rfl nofun, send_backlog loopbackPeer 0 (by decide)⟩
  have hsending := (((Run.refl _).tail (hread 0)).tail hsend).tail (hread 1)
  have hcommand : Run (Restrict (Step zeroDigest) (FindsRoom zeroDigest))
      (backlog loopbackPeer 0) (_ ++ [.peerCommand (some .shutdown)]) _ :=
    hsending.tail ⟨findsRoom_of_looping rfl nofun, .peer (.command rfl)⟩
  have run : Run (Restrict (Step zeroDigest) (FindsRoom zeroDigest))
      (.initial loopbackPeer) _ (shutdownBehind loopbackPeer 1) :=
    hcommand.tail ⟨⟨fun _ hblocked => absurd hblocked.2 (by decide), by simp⟩,
      .peer (.leave rfl)⟩
  exact ⟨hawaits, ⟨_, _, _, rfl⟩, reader_released run hawaits⟩

/-- One more frame read and a `Shutdown` from `PeerManager`. -/
def stuckTasks (peer : Peer) : PeerTasks := shutdownBehind peer channelCapacity

/-- After 1024 messages that the peer has not taken and one more in the
reader's hands, a `Shutdown` leaves the peer waiting for a reader that never
moves again. -/
theorem stuckTasks_suspended :
    (∃ labels, Run (Step zeroDigest) (.initial loopbackPeer) labels
      (stuckTasks loopbackPeer)) ∧
    AwaitsReader (stuckTasks loopbackPeer) ∧
    SuspendedForever zeroDigest (stuckTasks loopbackPeer) := by
  have hawaits : AwaitsReader (stuckTasks loopbackPeer) := ⟨_, _, rfl, rfl⟩
  refine ⟨?_, hawaits, ?_⟩
  · obtain ⟨labels, run⟩ := backlog_run loopbackPeer (le_refl channelCapacity)
    have hread := run.tail (read_plainFrame rfl)
    have hshutdown : Run (Step zeroDigest) _ (_ ++ [.peerCommand (some .shutdown)])
        _ := hread.tail (.peer (.command rfl))
    exact ⟨_, hshutdown.tail (.peer (.leave rfl))⟩
  · rw [suspendedForever_iff hawaits]
    exact ⟨⟨_, _, _, rfl⟩, by simp [stuckTasks, shutdownBehind, backlog]⟩

end P2PNetwork.PeerSubtasks
