import P2PNetwork.Network.PeerDelivery

/-!
# The verdict of a peer

Six of the eight incidents that end the loop of a peer make the same result of
the ends of its two subtasks.  The other two, where a channel of a subtask was
found closed, wait only for the subtask at the other end and report an error in
any case.  A subtask that ends closes its channel and completes its handle at
once, so `select!` decides which of the two results is returned.
-/

namespace P2PNetwork.PeerSubtasks

open P2PNetwork.ByteAccess
open P2PNetwork.Events
open P2PNetwork.EventLoop
open P2PNetwork.Framing
open P2PNetwork.PeerActor
open P2PNetwork.TaskRead
open P2PNetwork.TaskWrite

/-! ## The result of two known ends -/

/-- A result that says how the subtasks ended: it is a success exactly when
both were, and reports the end of the file exactly when the reader did. -/
structure Verdict (read : Except JoinError ResultTaskRead)
    (write : Except JoinError ResultTaskWrite)
    (result : Except ErrorPeer SuccessPeer) : Prop where
  ok_iff : (∃ success, result = .ok success) ↔
    (∃ successRead, read = .ok (.ok successRead)) ∧
      ∃ successWrite, write = .ok (.ok successWrite)
  endOfFile : ∀ success, result = .ok success →
    (success = .successfulTaskReadBrokenPipeTaskWriteSuccessful ↔
      read = .ok (.ok .successfulEOF))

theorem verdict_resultSubtasks (read : Except JoinError ResultTaskRead)
    (write : Except JoinError ResultTaskWrite) :
    Verdict read write (resultSubtasks read write) where
  ok_iff := by
    have hsuccess : Nonempty SuccessTaskWrite := ⟨.successful⟩
    rcases read with _ | _ | _ | _ <;> rcases write with _ | _ | _ <;>
      simp_all [resultSubtasks]
  endOfFile success hsuccess := by
    rcases read with _ | _ | _ | _ <;> rcases write with _ | _ | _ <;>
      simp [resultSubtasks] at hsuccess <;> simp [← hsuccess]

/-- A subtask's channel was found closed. -/
def ByChannel : EventsCriticalCompletion → Prop
  | .incidentChannelTaskReadClosed | .incidentChannelTaskWriteClosed => True
  | _ => False

/-- What an incident says of the subtasks, beyond what the peer then waits
for. -/
def Tells (tasks : PeerTasks) : EventsCriticalCompletion → Prop
  | .incidentConfirmationShutdown | .incidentChannelPeerManagerClosed => True
  | .incidentChannelTaskReadClosed => tasks.reader.hasEnded
  | .incidentChannelTaskWriteClosed => tasks.writer.hasEnded
  | .incidentComplitedTaskRead result => tasks.reader = .ended (.ok result)
  | .incidentComplitedTaskWrite result => tasks.writer = .ended (.ok result)
  | .incidentJoinHandleTaskRead reason => tasks.reader = .ended (.error reason)
  | .incidentJoinHandleTaskWrite reason =>
      tasks.writer = .ended (.error reason)

section Results

variable {tasks : PeerTasks} {incident : EventsCriticalCompletion}
variable {read : Except JoinError ResultTaskRead}
variable {write : Except JoinError ResultTaskWrite}

/-- A peer that returns made its result of the ends of both subtasks. -/
theorem Tells.ends (htells : Tells tasks incident)
    (hread : incident.awaitsTaskRead → tasks.reader = .ended read)
    (hwrite : incident.awaitsTaskWrite → tasks.writer = .ended write) :
    ∃ read' write', tasks.reader = .ended read' ∧
      tasks.writer = .ended write' ∧
      spawnResult incident read write = spawnResult incident read' write' := by
  cases incident with
  | incidentConfirmationShutdown =>
      exact ⟨read, write, hread rfl, hwrite rfl, rfl⟩
  | incidentChannelPeerManagerClosed =>
      exact ⟨read, write, hread rfl, hwrite rfl, rfl⟩
  | incidentChannelTaskReadClosed =>
      obtain ⟨read', hended⟩ := Subtask.hasEnded_iff.mp htells
      exact ⟨read', write, hended, hwrite rfl, rfl⟩
  | incidentChannelTaskWriteClosed =>
      obtain ⟨write', hended⟩ := Subtask.hasEnded_iff.mp htells
      exact ⟨read, write', hread rfl, hended, rfl⟩
  | incidentComplitedTaskRead | incidentJoinHandleTaskRead =>
      exact ⟨_, write, htells, hwrite rfl, rfl⟩
  | incidentComplitedTaskWrite | incidentJoinHandleTaskWrite =>
      exact ⟨read, _, hread rfl, htells, rfl⟩

/-- The result is that of the two ends, unless a closed channel was noticed
first. -/
theorem spawnResult_eq_iff (htells : Tells tasks incident)
    (hread : tasks.reader = .ended read)
    (hwrite : tasks.writer = .ended write) :
    spawnResult incident read write = resultSubtasks read write ↔
      ¬ByChannel incident := by
  cases incident with
  | incidentChannelTaskReadClosed =>
      rcases read with _ | _ | _ | _ <;> rcases write with _ | _ | _ <;>
        simp [spawnResult, resultChannelTaskReadClosed, resultSubtasks,
          ByChannel]
  | incidentChannelTaskWriteClosed =>
      rcases read with _ | _ | _ | _ <;> rcases write with _ | _ | _ <;>
        simp [spawnResult, resultChannelTaskWriteClosed, resultSubtasks,
          ByChannel]
  | incidentConfirmationShutdown => simp [spawnResult, ByChannel]
  | incidentChannelPeerManagerClosed => simp [spawnResult, ByChannel]
  | _ => simp_all [Tells, spawnResult, ByChannel]

end Results

/-! ## The loop -/

/-- The peer is in its loop and has not decided to leave it. -/
def InLoop (phase : PeerPhase) : Prop :=
  ∃ self, phase = .looping (.done self .next) ∨
    (∃ event, phase = .looping (forward (.toTaskWrite event)
      .incidentChannelTaskWriteClosed self)) ∨
    ∃ event, phase = .looping (forward (.toPeerManager event)
      .incidentChannelPeerManagerClosed self)

/-- The peer has left its loop, or is about to, with an incident. -/
structure Left (incident : EventsCriticalCompletion) (tasks : PeerTasks) :
    Prop where
  tells : Tells tasks incident
  phase : (∃ self, tasks.peer = .looping (.done self (.leave incident))) ∨
    (∃ sends, tasks.peer = .closing incident sends) ∨
    ∃ read write, tasks.peer = .returned (spawnResult incident read write) ∧
      tasks.reader = .ended read ∧ tasks.writer = .ended write

/-- The peer finds a channel of a subtask closed: it receives the end of the
reader's, or a message for the writer could not be sent. -/
def NoticesChannel (before : PeerTasks) : Label → Prop
  | .peerReceiveClosed => True
  | .peerSend false => ∃ self event resume,
      before.peer = .looping (.issue self (.toTaskWrite event) resume)
  | _ => False

section Steps

variable {sha256 : Bytes → ByteArr 32}
variable {before after : PeerTasks} {label : Label}
variable {incident : EventsCriticalCompletion}

/-- What an incident says stays true. -/
theorem Tells.step (htells : Tells before incident)
    (hstep : Step sha256 before label after) : Tells after incident := by
  cases incident with
  | incidentConfirmationShutdown | incidentChannelPeerManagerClosed =>
      trivial
  | incidentChannelTaskReadClosed =>
      rw [Tells, hstep.reader_eq htells]
      exact htells
  | incidentChannelTaskWriteClosed =>
      rw [Tells, hstep.writer_eq htells]
      exact htells
  | incidentComplitedTaskRead | incidentJoinHandleTaskRead =>
      exact (hstep.reader_eq (Subtask.hasEnded_iff.mpr ⟨_, htells⟩)).trans htells
  | incidentComplitedTaskWrite | incidentJoinHandleTaskWrite =>
      exact (hstep.writer_eq (Subtask.hasEnded_iff.mpr ⟨_, htells⟩)).trans htells

/-- A turn stays in the loop or leaves it at once, with a closed channel only
when the reader's channel was found closed. -/
theorem turn_inLoop (self : Peer) (input : PeerInput) :
    (InLoop (.looping (turn input self)) ∧ input ≠ .incidentTaskRead none) ∨
      ∃ incident, turn input self = .done self (.leave incident) ∧
        (ByChannel incident ↔ input = .incidentTaskRead none) := by
  unfold turn
  split
  case h_1 => exact .inl ⟨⟨self, .inr (.inl ⟨_, rfl⟩)⟩, by simp⟩
  case h_3 => exact .inl ⟨⟨self, .inl rfl⟩, by simp⟩
  case h_5 => exact .inl ⟨⟨self, .inr (.inr ⟨_, rfl⟩)⟩, by simp⟩
  all_goals exact .inr ⟨_, rfl, by simp [ByChannel]⟩

/-- A peer between two turns takes an input. -/
theorem left_or_inLoop_of_turn {self : Peer} {input : PeerInput}
    (hpeer : after.peer = .looping (turn input self))
    (htells : ∀ incident, turn input self = .done self (.leave incident) →
      Tells after incident)
    (hnotices : NoticesChannel before label ↔ input = .incidentTaskRead none) :
    (InLoop after.peer ∧ ¬NoticesChannel before label) ∨
      ∃ incident, Left incident after ∧
        (ByChannel incident ↔ NoticesChannel before label) := by
  rw [hpeer, hnotices]
  obtain hloop | ⟨incident, hleave, hchannel⟩ := turn_inLoop self input
  · exact .inl hloop
  · exact .inr ⟨incident, ⟨htells incident hleave,
      .inl ⟨self, by rw [hpeer, hleave]⟩⟩, hchannel⟩

/-- The answer of the one send of a turn. -/
theorem InLoop.send (hloop : InLoop before.peer) {self : Peer}
    {send : PeerSend} {resume : Bool → PeerTurn} {delivered : Bool}
    (hpeer : before.peer = .looping (.issue self send resume))
    (hsend : SendStep before send delivered after) :
    (InLoop (.looping (resume delivered)) ∧
        ¬NoticesChannel before (.peerSend delivered)) ∨
      ∃ incident, Left incident
          { after with peer := .looping (resume delivered) } ∧
        (ByChannel incident ↔ NoticesChannel before (.peerSend delivered)) := by
  obtain ⟨peer, hidle | ⟨event, hforward⟩ | ⟨event, hforward⟩⟩ := hloop
  · simp [hidle] at hpeer
  · rw [hforward] at hpeer
    cases hpeer
    cases hsend with
    | toTaskWrite => exact .inl ⟨⟨_, .inl rfl⟩, by simp [NoticesChannel]⟩
    | toTaskWriteClosed hended =>
        refine .inr ⟨.incidentChannelTaskWriteClosed,
          ⟨hended, .inl ⟨_, rfl⟩⟩, ?_⟩
        simp [ByChannel, NoticesChannel, hforward, forward]
  · rw [hforward] at hpeer
    cases hpeer
    cases hsend with
    | toPeerManager => exact .inl ⟨⟨_, .inl rfl⟩, by simp [NoticesChannel]⟩
    | toPeerManagerClosed =>
        refine .inr ⟨.incidentChannelPeerManagerClosed,
          ⟨trivial, .inl ⟨_, rfl⟩⟩, ?_⟩
        simp [ByChannel, NoticesChannel, hforward, forward]

/-- A step of a peer in its loop.  It is left with a closed channel exactly
when one was noticed. -/
theorem InLoop.peerStep (hloop : InLoop before.peer)
    (hstep : PeerStep before label after) :
    (InLoop after.peer ∧ ¬NoticesChannel before label) ∨
      ∃ incident, Left incident after ∧
        (ByChannel incident ↔ NoticesChannel before label) := by
  have hidle {self : Peer} {incident : EventsCriticalCompletion}
      (hleave : before.peer = .looping (.done self (.leave incident))) :
      False := by
    simp [InLoop, hleave, forward] at hloop
  cases hstep with
  | @command self incident hpeer =>
      apply left_or_inLoop_of_turn rfl
      · rcases incident with _ | _ | _ <;> simp [turn, forward, Tells]
      · simp [NoticesChannel]
  | receive hpeer =>
      apply left_or_inLoop_of_turn rfl
      · simp [turn, forward]
      · simp [NoticesChannel]
  | receiveClosed hpeer hqueue hended =>
      apply left_or_inLoop_of_turn rfl
      · simp [turn, Tells, hended]
      · simp [NoticesChannel]
  | @joinReader self result hpeer hreader =>
      apply left_or_inLoop_of_turn rfl
      · cases result <;> simp [turn, Tells, hreader]
      · simp [NoticesChannel]
  | @joinWriter self result hpeer hwriter =>
      apply left_or_inLoop_of_turn rfl
      · cases result <;> simp [turn, Tells, hwriter]
      · simp [NoticesChannel]
  | send hpeer hsend => exact hloop.send hpeer hsend
  | leave hpeer => exact (hidle hpeer).elim
  | shutdown hpeer => simp [InLoop, hpeer] at hloop
  | finish hpeer => simp [InLoop, hpeer] at hloop

theorem InLoop.step (hloop : InLoop before.peer)
    (hstep : Step sha256 before label after) :
    (InLoop after.peer ∧ ¬NoticesChannel before label) ∨
      ∃ incident, Left incident after ∧
        (ByChannel incident ↔ NoticesChannel before label) := by
  cases hstep with
  | reader hstep =>
      refine .inl ⟨hstep.peer_eq ▸ hloop, ?_⟩
      cases hstep <;> simp [NoticesChannel]
  | writer hstep =>
      refine .inl ⟨hstep.frame.1 ▸ hloop, ?_⟩
      cases hstep <;> simp [NoticesChannel]
  | peer hstep => exact hloop.peerStep hstep

/-- A closed channel is noticed in the loop only. -/
theorem Step.looping_of_notices (hstep : Step sha256 before label after)
    (hnotices : NoticesChannel before label) :
    ∃ turn, before.peer = .looping turn ∧
      ∀ self incident, turn ≠ .done self (.leave incident) := by
  cases label with
  | peerReceiveClosed =>
      obtain hstep | hstep | hstep := hstep <;> cases hstep
      exact ⟨_, by assumption, by simp⟩
  | peerSend delivered =>
      cases delivered with
      | true => exact hnotices.elim
      | false =>
          obtain ⟨self, event, resume, hpeer⟩ := hnotices
          exact ⟨_, hpeer, by simp⟩
  | _ => exact hnotices.elim

theorem Left.not_notices (hleft : Left incident before)
    (hstep : Step sha256 before label after) :
    ¬NoticesChannel before label := by
  intro hnotices
  obtain ⟨turn, hpeer, hstays⟩ := hstep.looping_of_notices hnotices
  obtain ⟨self, hleave⟩ | ⟨sends, hclosing⟩ | ⟨read, write, hreturned, -⟩ :=
    hleft.phase
  · rw [hleave] at hpeer
    exact hstays self incident (PeerPhase.looping.inj hpeer).symm
  · simp [hclosing] at hpeer
  · simp [hreturned] at hpeer

/-- A peer that has left its loop keeps to its incident. -/
theorem Left.step (hleft : Left incident before)
    (hstep : Step sha256 before label after) : Left incident after := by
  refine ⟨hleft.tells.step hstep, ?_⟩
  have hother (hpeer : after.peer = before.peer) :
      (∃ self, after.peer = .looping (.done self (.leave incident))) ∨
        (∃ sends, after.peer = .closing incident sends) ∨
        ∃ read write, after.peer = .returned (spawnResult incident read write) ∧
          after.reader = .ended read ∧ after.writer = .ended write := by
    rw [hpeer]
    obtain hleave | hclosing | ⟨read, write, hreturned, hread, hwrite⟩ :=
      hleft.phase
    · exact .inl hleave
    · exact .inr (.inl hclosing)
    · refine .inr (.inr ⟨read, write, hreturned, ?_, ?_⟩)
      · rw [hstep.reader_eq (Subtask.hasEnded_iff.mpr ⟨_, hread⟩), hread]
      · rw [hstep.writer_eq (Subtask.hasEnded_iff.mpr ⟨_, hwrite⟩), hwrite]
  cases hstep with
  | reader hstep => exact hother hstep.peer_eq
  | writer hstep => exact hother hstep.frame.1
  | peer hstep =>
      obtain ⟨self, hleave⟩ | ⟨sends, hclosing⟩ | ⟨read, write, hreturned, -⟩ :=
        hleft.phase
      · obtain rfl := hstep.of_leave hleave
        exact .inr (.inl ⟨_, rfl⟩)
      · cases hstep with
        | shutdown hpeer hsend =>
            rw [hpeer] at hclosing
            cases hclosing
            exact .inr (.inl ⟨_, rfl⟩)
        | finish hpeer hread hwrite =>
            rw [hpeer] at hclosing
            cases hclosing
            obtain ⟨read', write', hread', hwrite', hresult⟩ :=
              hleft.tells.ends hread hwrite
            exact .inr (.inr ⟨read', write', by rw [hresult], hread', hwrite'⟩)
        | _ => simp_all
      · exact absurd ⟨_, hreturned⟩ hstep.not_gone

/-! ## Runs -/

/-- No closed channel of a subtask is noticed. -/
def ChannelsOpen (before : PeerTasks) (label : Label) : Prop :=
  ¬NoticesChannel before label

theorem left_of_channelsOpen {peer : Peer} {labels : List Label}
    (run : Run (Restrict (Step sha256) ChannelsOpen) (.initial peer) labels
      after) :
    InLoop after.peer ∨ ∃ incident, Left incident after ∧ ¬ByChannel incident := by
  apply run.invariant fun tasks => InLoop tasks.peer ∨
    ∃ incident, Left incident tasks ∧ ¬ByChannel incident
  · exact .inl ⟨peer, .inl rfl⟩
  · rintro before label after (hloop | ⟨incident, hleft, hchannel⟩)
      ⟨hopen, hstep⟩
    · obtain ⟨hloop, -⟩ | ⟨incident, hleft, hchannel⟩ := hloop.step hstep
      · exact .inl hloop
      · exact .inr ⟨incident, hleft, hchannel.not.mpr hopen⟩
    · exact .inr ⟨incident, hleft.step hstep, hchannel⟩

/-- A run that notices a closed channel has left the loop with it. -/
theorem channelsOpen_or_left {peer : Peer} {labels : List Label}
    (run : Run (Step sha256) (.initial peer) labels after) :
    Run (Restrict (Step sha256) ChannelsOpen) (.initial peer) labels after ∨
      ∃ incident, Left incident after ∧ ByChannel incident := by
  generalize hfirst : PeerTasks.initial peer = first at run
  induction run with
  | refl => exact .inl (.refl _)
  | @tail before after labels label run last_step ih =>
      obtain hopen | ⟨incident, hleft, hchannel⟩ := ih
      -- the first notice finds the peer in its loop
      · subst hfirst
        by_cases hnotices : NoticesChannel before label
        · obtain hloop | ⟨incident, hleft, -⟩ := left_of_channelsOpen hopen
          · obtain ⟨-, hquiet⟩ | ⟨incident, hleft, hchannel⟩ :=
              hloop.step last_step
            · exact absurd hnotices hquiet
            · exact .inr ⟨incident, hleft, hchannel.mpr hnotices⟩
          · exact absurd hnotices (hleft.not_notices last_step)
        · exact .inl (hopen.tail ⟨hnotices, last_step⟩)
      · exact .inr ⟨incident, hleft.step last_step, hchannel⟩

/-- What a peer that has returned made its result of. -/
theorem Left.result (hleft : Left incident after)
    {result : Except ErrorPeer SuccessPeer}
    (hreturned : after.peer = .returned result) :
    ∃ read write, after.reader = .ended read ∧ after.writer = .ended write ∧
      result = spawnResult incident read write := by
  obtain ⟨self, hleave⟩ | ⟨sends, hclosing⟩ |
    ⟨read, write, hresult, hread, hwrite⟩ := hleft.phase
  · simp [hleave] at hreturned
  · simp [hclosing] at hreturned
  · rw [hresult] at hreturned
    exact ⟨read, write, hread, hwrite, (PeerPhase.returned.inj hreturned).symm⟩

section Verdicts

variable {peer : Peer} {labels : List Label} {last : PeerTasks}
variable {result : Except ErrorPeer SuccessPeer}
variable {read : Except JoinError ResultTaskRead}
variable {write : Except JoinError ResultTaskWrite}

/-- A peer that has returned has the ends of both subtasks behind it, and its
result is that of the two ends exactly if it noticed no closed channel. -/
theorem result_eq_iff (run : Run (Step sha256) (.initial peer) labels last)
    (hreturned : last.peer = .returned result)
    (hread : last.reader = .ended read)
    (hwrite : last.writer = .ended write) :
    result = resultSubtasks read write ↔
      Run (Restrict (Step sha256) ChannelsOpen) (.initial peer) labels last := by
  have hresult {incident : EventsCriticalCompletion}
      (hleft : Left incident last) :
      result = resultSubtasks read write ↔ ¬ByChannel incident := by
    obtain ⟨read', write', hread', hwrite', rfl⟩ := hleft.result hreturned
    rw [hread] at hread'
    rw [hwrite] at hwrite'
    cases hread'
    cases hwrite'
    exact spawnResult_eq_iff hleft.tells hread hwrite
  constructor
  · intro heq
    apply (channelsOpen_or_left run).resolve_right
    rintro ⟨incident, hleft, hchannel⟩
    exact (hresult hleft).mp heq hchannel
  · intro hopen
    obtain ⟨self, hloop⟩ | ⟨incident, hleft, hchannel⟩ :=
      left_of_channelsOpen hopen
    · simp [hreturned] at hloop
    · exact (hresult hleft).mpr hchannel

/-- The remote side has closed the connection and nothing else happened. -/
def endedReader (peer : Peer) : PeerTasks :=
  { PeerTasks.initial peer with reader := .ended (.ok (.ok .successfulEOF)) }

theorem endedReader_run (peer : Peer) :
    Run (Step zeroDigest) (.initial peer) [.readerRead (.ok []), .readerEnd]
      (endedReader peer) := by
  have hbound : ∀ read, (.ok [] : Except IoError Bytes) = .ok read →
      read.length ≤ temporaryBufferSize := by
    intro read hread
    simp [← Except.ok.inj hread]
  have hread : Step zeroDigest (.initial peer) (.readerRead (.ok [])) _ :=
    .reader (.read rfl hbound)
  exact (Run.tail (.refl _) hread).tail (.reader (.finish rfl (.returned _)))

/-- The peer takes the end of its reader through the handle. -/
theorem joined_run (peer : Peer) :
    ∃ labels last,
      Run (Restrict (Step zeroDigest) ChannelsOpen) (.initial peer) labels
          last ∧
        last.peer = .returned
          (.ok .successfulTaskReadBrokenPipeTaskWriteSuccessful) ∧
        last.reader = .ended (.ok (.ok .successfulEOF)) ∧
        last.writer = .ended (.ok (.ok .successful)) := by
  have hnotice : Step zeroDigest (endedReader peer) .peerJoinReader _ :=
    .peer (.joinReader rfl rfl)
  have run := (endedReader_run peer).trans (.head hnotice
    (returnAfterReader_run rfl rfl rfl rfl rfl (.ok (.ok .successful))))
  refine ⟨_, _, run.restrict ?_, rfl, rfl, rfl⟩
  simp [returnAfterReader, ChannelsOpen, NoticesChannel]

/-- Where no closed channel of a subtask is noticed, the result of a peer is a
verdict on the ends of its subtasks and depends on nothing else. -/
theorem verdict_of_ends
    (run : Run (Restrict (Step sha256) ChannelsOpen) (.initial peer) labels last)
    (hreturned : last.peer = .returned result)
    (hread : last.reader = .ended read)
    (hwrite : last.writer = .ended write) :
    Verdict read write result ∧
      ∀ (sha256' : Bytes → ByteArr 32) (peer' : Peer) (labels' : List Label)
        (last' : PeerTasks) (result' : Except ErrorPeer SuccessPeer),
        Run (Restrict (Step sha256') ChannelsOpen) (.initial peer') labels'
            last' →
          last'.peer = .returned result' → last'.reader = .ended read →
          last'.writer = .ended write → result' = result := by
  have hresult := (result_eq_iff run.of_restrict hreturned hread hwrite).mpr run
  refine ⟨hresult ▸ verdict_resultSubtasks read write, ?_⟩
  intro sha256' peer' labels' last' result' run' hreturned' hread' hwrite'
  calc
    result' = resultSubtasks read write :=
      (result_eq_iff run'.of_restrict hreturned' hread' hwrite').mpr run'
    _ = result := hresult.symm

theorem verdict_of_ends_joined :
    ∃ labels last result,
      Run (Restrict (Step zeroDigest) ChannelsOpen) (.initial loopbackPeer)
          labels last ∧
        last.peer = .returned result ∧
        Verdict (.ok (.ok .successfulEOF)) (.ok (.ok .successful)) result := by
  obtain ⟨labels, last, run, hreturned, hread, hwrite⟩ :=
    joined_run loopbackPeer
  exact ⟨labels, last, _, run, hreturned,
    (verdict_of_ends run hreturned hread hwrite).1⟩

/-- The remote side closes the connection and both subtasks end well.  The
peer returns a success if it takes the handle of the reader and an error if it
takes the end of the reader's channel. -/
theorem verdict_depends_on_race :
    ∃ labels labels' last last',
      Run (Step zeroDigest) (.initial loopbackPeer) labels last ∧
      Run (Step zeroDigest) (.initial loopbackPeer) labels' last' ∧
      last.reader = .ended (.ok (.ok .successfulEOF)) ∧
      last'.reader = last.reader ∧
      last.writer = .ended (.ok (.ok .successful)) ∧
      last'.writer = last.writer ∧
      last'.peer = .returned
        (.ok .successfulTaskReadBrokenPipeTaskWriteSuccessful) ∧
      last.peer = .returned (.error (.errorSuccessTaskWrite .successful)) ∧
      ¬Verdict (.ok (.ok .successfulEOF)) (.ok (.ok .successful))
        (.error (.errorSuccessTaskWrite .successful)) := by
  obtain ⟨labels', last', run', hreturned', hread', hwrite'⟩ :=
    joined_run loopbackPeer
  have hnotice : Step zeroDigest (endedReader loopbackPeer) .peerReceiveClosed _ :=
    .peer (.receiveClosed rfl rfl trivial)
  have run := (endedReader_run loopbackPeer).trans (.head hnotice
    (returnAfterReader_run rfl rfl rfl rfl rfl (.ok (.ok .successfulEOF))))
  refine ⟨_, labels', _, last', run, run'.of_restrict, rfl, hread', rfl, hwrite',
    hreturned', rfl, fun hverdict => ?_⟩
  obtain ⟨success, herror⟩ := hverdict.ok_iff.mpr ⟨⟨_, rfl⟩, ⟨_, rfl⟩⟩
  cases herror

end Verdicts

end Steps

end P2PNetwork.PeerSubtasks
