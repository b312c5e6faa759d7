import P2PNetwork.Network.PeerOutbound

/-!
# What reaches the socket

As long as no write fails, every byte of a message that the peer has taken is
on the socket, in the writer, in the writer's channel or in the hands of the
peer, in this order.  A failed write stops the writer for good.
-/

namespace P2PNetwork.PeerOutbound

open P2PNetwork.ByteAccess
open P2PNetwork.EventLoop
open P2PNetwork.Events
open P2PNetwork.Framing
open P2PNetwork.Handler
open P2PNetwork.PeerActor
open P2PNetwork.PeerSubtasks
open P2PNetwork.TaskWrite
open P2PNetwork.Wire

/-! ## What is on its way -/

/-- The messages among the events from `PeerManager`. -/
def lowMessages (events : List EventsPeerManager) : List MessagePayload :=
  events.filterMap fun
    | .readyLowMessage message => some message
    | _ => none

/-- The messages among the events for the writer. -/
def lowLevelMessages (events : List EventsPeer) : List MessagePayload :=
  events.filterMap fun
    | .lowLevelMessage message => some message
    | _ => none

/-- The message the peer is about to hand to the writer. -/
def inHand : PeerPhase → List MessagePayload
  | .looping (.issue _ (.toTaskWrite (.lowLevelMessage message)) _) => [message]
  | _ => []

/-- What is left to write of the writer's current message. -/
def unwritten (progress : ℕ) :
    Subtask Unit Bytes (Except IoError Unit) ResultTaskWrite → Bytes
  | .running turn => (turn.runWith fun _ => .ok ()).1.flatten.drop progress
  | .ended _ => []

@[simp]
theorem runWith_writeAll (pieces : List Bytes) :
    (writeAll pieces).runWith (fun _ => .ok ()) = (pieces, (), .next) := by
  induction pieces with
  | nil => rfl
  | cons piece pieces ih => simp [writeAll, ih]

@[simp]
theorem lowMessages_append (left right : List EventsPeerManager) :
    lowMessages (left ++ right) = lowMessages left ++ lowMessages right :=
  List.filterMap_append

@[simp]
theorem lowLevelMessages_append (left right : List EventsPeer) :
    lowLevelMessages (left ++ right) =
      lowLevelMessages left ++ lowLevelMessages right :=
  List.filterMap_append

@[simp]
theorem stream_append (sha256 : Bytes → ByteArr 32)
    (left right : List MessagePayload) :
    stream sha256 (left ++ right) = stream sha256 left ++ stream sha256 right :=
  List.flatMap_append

/-- Every byte of a message that was taken is on the socket, in the writer, in
its channel or in the hands of the peer, in this order. -/
structure Flowing (sha256 : Bytes → ByteArr 32) (state : Outbound) : Prop where
  writer : (∃ pieces, state.tasks.writer = .running (writeAll pieces) ∧
    (pieces = [] → state.progress = 0)) ∨ Stopped state.tasks.writer
  queue : ∃ (messages : List MessagePayload) (tail : List EventsPeer),
    state.tasks.toTaskWrite = messages.map .lowLevelMessage ++ tail ∧
      (tail = [] ∨ tail = [.shutdown])
  done : Stopped state.tasks.writer ∨ .shutdown ∈ state.tasks.toTaskWrite →
    DoneSending state.tasks.peer
  drained : Stopped state.tasks.writer → state.tasks.toTaskWrite = []
  bytes : state.written ++ (unwritten state.progress state.tasks.writer ++
      stream sha256 (lowLevelMessages state.tasks.toTaskWrite ++
        inHand state.tasks.peer)) = stream sha256 (lowMessages state.taken)

/-- A write has failed: nothing is written any more. -/
structure Broken (sha256 : Bytes → ByteArr 32) (state : Outbound) : Prop where
  stopped : Stopped state.tasks.writer
  bytes : state.written <+: stream sha256 (lowMessages state.taken)

/-! ## Steps of the peer -/

section Steps

variable {sha256 : Bytes → ByteArr 32}

/-- As long as the peer may send to the writer, the writer works and has not
been told to stop. -/
theorem Flowing.active {state : Outbound} (hflowing : Flowing sha256 state)
    (hactive : ¬DoneSending state.tasks.peer) :
    ¬Stopped state.tasks.writer ∧ .shutdown ∉ state.tasks.toTaskWrite :=
  ⟨fun hstopped => hactive (hflowing.done (.inl hstopped)),
    fun hshutdown => hactive (hflowing.done (.inr hshutdown))⟩

/-- A send of the peer leaves the writer and its channel alone, or puts an event
into the channel of a writer that works. -/
theorem sendStep_cases {tasks after : PeerTasks} {send : PeerSend}
    {delivered : Bool} (hsend : SendStep tasks send delivered after)
    (hactive : ¬Stopped tasks.writer) :
    ((∀ event, send ≠ .toTaskWrite event) ∧ after.writer = tasks.writer ∧
        after.toTaskWrite = tasks.toTaskWrite) ∨
      ∃ event, send = .toTaskWrite event ∧
        after = { tasks with toTaskWrite := tasks.toTaskWrite ++ [event] } := by
  cases hsend with
  | toTaskRead => exact .inl ⟨by simp, rfl, rfl⟩
  | toTaskReadClosed => exact .inl ⟨by simp, rfl, rfl⟩
  | toPeerManager => exact .inl ⟨by simp, rfl, rfl⟩
  | toPeerManagerClosed => exact .inl ⟨by simp, rfl, rfl⟩
  | toTaskWriteClosed hended =>
      obtain ⟨result, hwriter⟩ := Subtask.hasEnded_iff.mp hended
      exact absurd (hwriter ▸ .ended result) hactive
  | toTaskWrite => exact .inr ⟨_, rfl, rfl⟩

/-- A channel without `Shutdown` holds messages only. -/
theorem Flowing.queue_of_open {state : Outbound} (hflowing : Flowing sha256 state)
    (hopen : .shutdown ∉ state.tasks.toTaskWrite) :
    ∃ messages : List MessagePayload,
      state.tasks.toTaskWrite = messages.map .lowLevelMessage := by
  obtain ⟨messages, tail, hqueue, rfl | rfl⟩ := hflowing.queue
  · exact ⟨messages, by simpa using hqueue⟩
  · exact absurd (by simp [hqueue]) hopen

theorem not_stopped_writeAll (pieces : List Bytes) :
    ¬Stopped (.running (writeAll pieces)) := by
  intro hstopped
  cases pieces <;> cases hstopped

theorem not_doneSending_looping (turn : PeerTurn) :
    ¬DoneSending (.looping turn) := nofun

/-- A step that moves only the peer, with the same message in hand. -/
theorem Flowing.movePeer {before : Outbound} {tasks : PeerTasks}
    (hflowing : Flowing sha256 before)
    (hwriter : tasks.writer = before.tasks.writer)
    (hqueue : tasks.toTaskWrite = before.tasks.toTaskWrite)
    (hhand : inHand tasks.peer = inHand before.tasks.peer)
    (hdone : DoneSending before.tasks.peer → DoneSending tasks.peer) :
    Flowing sha256 { before with tasks } where
  writer := by
    rw [hwriter]
    exact hflowing.writer
  queue := by
    rw [hqueue]
    exact hflowing.queue
  done := by
    rw [hwriter, hqueue]
    exact fun hstopped => hdone (hflowing.done hstopped)
  drained := by
    rw [hwriter, hqueue]
    exact hflowing.drained
  bytes := by
    rw [hwriter, hqueue, hhand]
    exact hflowing.bytes

/-- What goes elsewhere is not for the writer. -/
theorem inHand_forward {send : PeerSend} {closed : EventsCriticalCompletion}
    {self : Peer} (hother : ∀ event, send ≠ .toTaskWrite event) :
    inHand (.looping (forward send closed self)) = [] := by
  cases send with
  | toTaskWrite event => exact absurd rfl (hother event)
  | toTaskRead event => rfl
  | toPeerManager event => rfl

theorem inHand_turn {input : PeerInput} {self : Peer}
    (hinput : ∀ event, input ≠ .incidentPeermanager (some event)) :
    inHand (.looping (turn input self)) = [] := by
  cases input with
  | incidentPeermanager incident =>
      cases incident with
      | none => rfl
      | some event => exact absurd rfl (hinput event)
  | incidentTaskRead incident => cases incident <;> rfl
  | resultStateTaskRead result => cases result <;> rfl
  | resultStateTaskWrite result => cases result <;> rfl

/-- The peer takes an input that is not an event from `PeerManager`. -/
theorem Flowing.turn {before : Outbound} {self : Peer} {tasks : PeerTasks}
    {input : PeerInput} (hflowing : Flowing sha256 before)
    (hpeer : before.tasks.peer = .looping (.done self .next))
    (hinput : ∀ event, input ≠ .incidentPeermanager (some event))
    (hafter : tasks.peer = .looping (PeerActor.turn input self))
    (hwriter : tasks.writer = before.tasks.writer)
    (hqueue : tasks.toTaskWrite = before.tasks.toTaskWrite) :
    Flowing sha256 { before with tasks } := by
  apply hflowing.movePeer hwriter hqueue
  · rw [hafter, hpeer, inHand_turn hinput]
    rfl
  · rw [hpeer]
    exact fun hdone => absurd hdone (not_doneSending_looping _)

theorem Flowing.command {before : Outbound} {event : EventsPeerManager}
    {rest : List EventsPeerManager} {tasks : PeerTasks}
    (hflowing : Flowing sha256 before)
    (hstep : Step sha256 before.tasks (.peerCommand (some event)) tasks) :
    Flowing sha256 { before with
      tasks
      commands := rest
      taken := before.taken ++ [event] } := by
  cases hstep with
  | reader hstep => cases hstep
  | writer hstep => cases hstep
  | peer hstep =>
      cases hstep with
      | command hpeer =>
          have hactive := hflowing.active
            (by rw [hpeer]; exact not_doneSending_looping _)
          refine ⟨hflowing.writer, hflowing.queue, fun hstopped => ?_,
            hflowing.drained, ?_⟩
          · exact absurd hstopped (not_or.mpr hactive)
          · have hbytes := hflowing.bytes
            rw [hpeer] at hbytes
            cases event with
            | readyLowMessage message =>
                simp only [lowMessages_append, stream_append, ← hbytes]
                simp [inHand, forward, PeerActor.turn, lowMessages]
            | _ => simpa [inHand, PeerActor.turn, lowMessages] using hbytes

theorem Flowing.sendStep {before : Outbound} {self : Peer} {send : PeerSend}
    {closed : EventsCriticalCompletion} {delivered : Bool} {after : PeerTasks}
    (hflowing : Flowing sha256 before)
    (hpeer : before.tasks.peer = .looping (forward send closed self))
    (hsend : SendStep before.tasks send delivered after)
    (hlow : ∀ event, send = .toTaskWrite event →
      ∃ message, event = .lowLevelMessage message)
    {flow : Flow EventsCriticalCompletion} :
    Flowing sha256 { before with
      tasks := { after with peer := .looping (.done self flow) } } := by
  have hactive := hflowing.active
    (by rw [hpeer]; exact not_doneSending_looping _)
  have hdone : DoneSending before.tasks.peer →
      DoneSending (.looping (.done self flow)) := by
    rw [hpeer]
    exact fun hdone => absurd hdone (not_doneSending_looping _)
  obtain ⟨hother, hwriter, hqueue⟩ | ⟨event, rfl, rfl⟩ :=
    sendStep_cases hsend hactive.1
  · refine hflowing.movePeer hwriter hqueue ?_ hdone
    rw [hpeer]
    exact (inHand_forward hother).symm
  · obtain ⟨message, rfl⟩ := hlow _ rfl
    obtain ⟨messages, hqueue⟩ := hflowing.queue_of_open hactive.2
    refine ⟨hflowing.writer, ⟨messages ++ [message], [], ?_, .inl rfl⟩,
      fun hstopped => ?_, fun hstopped => absurd hstopped hactive.1, ?_⟩
    · simp [hqueue]
    · refine absurd hstopped (not_or.mpr ⟨hactive.1, ?_⟩)
      simp [hactive.2]
    · have hbytes := hflowing.bytes
      rw [hpeer] at hbytes
      simpa [inHand, forward, lowLevelMessages] using hbytes

/-- The peer's sends after its loop. -/
theorem Flowing.closingStep {before : Outbound} {self : Peer}
    {incident : EventsCriticalCompletion} {first : PeerSend}
    {rest : List PeerSend} {delivered : Bool} {after : PeerTasks}
    (hflowing : Flowing sha256 before)
    (hpeer : before.tasks.peer = .closing incident (sendAll self (first :: rest)))
    (hsend : SendStep before.tasks first delivered after)
    (hlist : (first :: rest).Sublist closingSends) :
    Flowing sha256 { before with
      tasks := { after with peer := .closing incident (sendAll self rest) } } := by
  have hactive := hflowing.active (by rw [hpeer]; exact nofun)
  have hdone : DoneSending before.tasks.peer →
      DoneSending (.closing incident (sendAll self rest)) := by
    rw [hpeer]
    exact nofun
  obtain ⟨-, hwriter, hqueue⟩ | ⟨event, rfl, rfl⟩ :=
    sendStep_cases hsend hactive.1
  · refine hflowing.movePeer hwriter hqueue ?_ hdone
    rw [hpeer]
    rfl
  · obtain ⟨rfl, rfl⟩ : event = .shutdown ∧ rest = [] := by
      have hmem := hlist.subset (List.mem_cons_self)
      obtain rfl : event = .shutdown := by simpa [closingSends] using hmem
      refine ⟨rfl, ?_⟩
      cases hlist with
      | cons _ hlist =>
          have hlength := hlist.length_le
          simp at hlength
          exact hlength
    obtain ⟨messages, hqueue⟩ := hflowing.queue_of_open hactive.2
    refine ⟨hflowing.writer, ⟨messages, [.shutdown], ?_, .inr rfl⟩,
      fun _ => .closing self incident,
      fun hstopped => absurd hstopped hactive.1, ?_⟩
    · rw [hqueue]
    · have hbytes := hflowing.bytes
      rw [hpeer] at hbytes
      simpa [inHand, sendAll, lowLevelMessages] using hbytes

theorem Flowing.peerStep {before : Outbound} {label : Label} {tasks : PeerTasks}
    (hflowing : Flowing sha256 before)
    (hphase : Phase before.taken before.tasks.peer)
    (hlabel : ∀ event, label ≠ .peerCommand (some event))
    (hstep : PeerStep before.tasks label tasks) :
    Flowing sha256 { before with tasks } := by
  cases hstep with
  | @command self incident hpeer =>
      refine hflowing.turn hpeer ?_ rfl rfl rfl
      rintro event ⟨⟩
      exact hlabel event rfl
  | receive hpeer => exact hflowing.turn hpeer (by simp) rfl rfl rfl
  | receiveClosed hpeer => exact hflowing.turn hpeer (by simp) rfl rfl rfl
  | joinReader hpeer => exact hflowing.turn hpeer (by simp) rfl rfl rfl
  | joinWriter hpeer => exact hflowing.turn hpeer (by simp) rfl rfl rfl
  | @send after self send resume delivered hpeer hsend =>
      rw [hpeer] at hphase
      cases hphase with
      | sending _ _ closed htaken hlow =>
          cases delivered with
          | true => exact hflowing.sendStep hpeer hsend hlow
          | false => exact hflowing.sendStep hpeer hsend hlow
  | leave hpeer =>
      refine hflowing.movePeer rfl rfl ?_ ?_
      · rw [hpeer]
        rfl
      · rw [hpeer]
        exact fun hdone => absurd hdone (not_doneSending_looping _)
  | @shutdown after self send incident resume delivered hpeer hsend =>
      rw [hpeer] at hphase
      generalize hsends : Await.issue self send resume = tree at hphase
      cases hphase with
      | closing _ _ sends htaken hlist =>
          cases sends with
          | nil => cases hsends
          | cons first rest =>
              cases hsends
              exact hflowing.closingStep hpeer hsend hlist
  | finish hpeer =>
      refine hflowing.movePeer rfl rfl ?_ fun _ => .returned _
      rw [hpeer]
      rfl

/-! ## Steps of the writer -/

/-- The writer takes from its channel or ends. -/
theorem Flowing.writerStep {before : Outbound} {label : Label}
    {tasks : PeerTasks} (hflowing : Flowing sha256 before)
    (hlabel : ∀ result, label ≠ .writerWrite result)
    (hstep : WriterStep sha256 before.tasks label tasks) :
    Flowing sha256 { before with tasks } := by
  have hbytes := hflowing.bytes
  have hidle (hwriter : before.tasks.writer = .running (.done () .next)) :
      before.progress = 0 := by
    obtain ⟨pieces, hpieces, hprogress⟩ | hstopped := hflowing.writer
    · rw [hwriter] at hpieces
      cases pieces with
      | nil => exact hprogress rfl
      | cons piece pieces => cases hpieces
    · rw [hwriter] at hstopped
      cases hstopped
  cases hstep with
  | @take event rest hwriter hqueue =>
      have hprogress := hidle hwriter
      obtain ⟨messages, tail, hshape, htail⟩ := hflowing.queue
      rw [hwriter, hqueue] at hbytes
      rw [hqueue] at hshape
      cases messages with
      | cons message messages =>
          obtain ⟨rfl, rfl⟩ := List.cons.inj hshape
          refine ⟨.inl ⟨_, rfl, nofun⟩, ⟨messages, tail, rfl, htail⟩,
            fun hstopped => ?_, nofun, ?_⟩
          · refine hflowing.done (.inr ?_)
            rw [hqueue]
            exact List.mem_cons_of_mem _ (hstopped.resolve_left nofun)
          · rw [hprogress] at hbytes ⊢
            rw [← hbytes]
            simp [unwritten, startTaskWriteTurn, lowLevelMessages, frame]
      | nil =>
          obtain rfl : tail = [.shutdown] := htail.resolve_left (by
            rintro rfl
            cases hshape)
          obtain ⟨rfl, rfl⟩ := List.cons.inj hshape
          refine ⟨.inr (.leaving _), ⟨[], [], rfl, .inl rfl⟩, fun _ => ?_,
            fun _ => rfl, ?_⟩
          · exact hflowing.done (.inr (by rw [hqueue]; exact List.mem_cons_self))
          · simpa [unwritten, startTaskWriteTurn, lowLevelMessages] using hbytes
  | takeClosed hwriter hqueue hgone =>
      obtain ⟨result, hreturned⟩ := hgone
      rw [hwriter] at hbytes
      refine ⟨.inr (.leaving _), hflowing.queue, fun _ => ?_, fun _ => hqueue, ?_⟩
      · rw [hreturned]
        exact .returned result
      · simpa [unwritten, startTaskWriteTurn] using hbytes
  | write => exact absurd rfl (hlabel _)
  | @finish flow result hwriter hends =>
      have hstopped : Stopped before.tasks.writer := by
        refine hflowing.writer.resolve_left ?_
        rintro ⟨pieces, hpieces, -⟩
        rw [hwriter] at hpieces
        cases pieces with
        | nil =>
            cases hpieces
            cases hends
        | cons piece pieces => cases hpieces
      rw [hwriter] at hbytes
      exact ⟨.inr (.ended _), hflowing.queue,
        fun _ => hflowing.done (.inl hstopped),
        fun _ => hflowing.drained hstopped,
        by simpa [unwritten] using hbytes⟩

/-- The pieces left of the writer's current message. -/
theorem Flowing.pieces {state : Outbound} {piece : Bytes}
    {resume : Except IoError Unit → WriteTurn} (hflowing : Flowing sha256 state)
    (hwriter : state.tasks.writer = .running (.issue () piece resume)) :
    ∃ pieces, state.tasks.writer = .running (writeAll (piece :: pieces)) := by
  obtain ⟨pieces, hpieces, -⟩ | hstopped := hflowing.writer
  · rw [hwriter] at hpieces
    cases pieces with
    | nil => cases hpieces
    | cons first pieces =>
        cases hpieces
        exact ⟨pieces, hwriter⟩
  · rw [hwriter] at hstopped
    cases hstopped

/-- The socket accepts a part of the current write. -/
theorem Flowing.accept {before : Outbound} {piece : Bytes}
    {resume : Except IoError Unit → WriteTurn} {count : ℕ}
    (hflowing : Flowing sha256 before)
    (hwriter : before.tasks.writer = .running (.issue () piece resume))
    (hcount : before.progress + count ≤ piece.length) :
    Flowing sha256 { before with
      written := before.written ++ (piece.drop before.progress).take count
      progress := before.progress + count } := by
  obtain ⟨pieces, hpieces⟩ := hflowing.pieces hwriter
  refine ⟨.inl ⟨_, hpieces, nofun⟩, hflowing.queue, hflowing.done,
    hflowing.drained, ?_⟩
  have hsplit : (piece.drop before.progress).take count ++
      (piece.drop (before.progress + count) ++ pieces.flatten) =
        piece.drop before.progress ++ pieces.flatten := by
    rw [← List.append_assoc, ← List.drop_drop, List.take_append_drop]
  have hdrop {progress : ℕ} (hprogress : progress ≤ piece.length) :
      unwritten progress before.tasks.writer =
        piece.drop progress ++ pieces.flatten := by
    rw [hpieces, unwritten, runWith_writeAll, List.flatten_cons,
      List.drop_append_of_le_length hprogress]
  rw [← hflowing.bytes, hdrop hcount, hdrop (by omega), ← hsplit]
  simp only [List.append_assoc]

/-- The current write is over. -/
theorem Flowing.write {before : Outbound} {piece : Bytes}
    {resume : Except IoError Unit → WriteTurn} {tasks : PeerTasks}
    (hflowing : Flowing sha256 before)
    (hwriter : before.tasks.writer = .running (.issue () piece resume))
    (hwhole : before.progress = piece.length)
    (hstep : Step sha256 before.tasks (.writerWrite (.ok ())) tasks) :
    Flowing sha256 { before with tasks, progress := 0 } := by
  obtain ⟨pieces, hpieces⟩ := hflowing.pieces hwriter
  cases hstep with
  | reader hstep => cases hstep
  | peer hstep => cases hstep
  | writer hstep =>
      cases hstep with
      | write hwriter' =>
          rw [hpieces] at hwriter'
          cases hwriter'
          have hbytes := hflowing.bytes
          rw [hpieces, unwritten, runWith_writeAll, hwhole, List.flatten_cons,
            List.drop_left] at hbytes
          have hworking := not_stopped_writeAll pieces
          refine ⟨.inl ⟨pieces, rfl, fun _ => rfl⟩, hflowing.queue,
            fun hstopped => ?_, fun hstopped => absurd hstopped hworking, ?_⟩
          · exact hflowing.done (.inr (hstopped.resolve_left hworking))
          · rw [← hbytes, unwritten, runWith_writeAll, List.drop_zero]

/-! ## A failed write -/

theorem Flowing.fail {before : Outbound} {reason : IoError} {tasks : PeerTasks}
    (hflowing : Flowing sha256 before)
    (hstep : Step sha256 before.tasks (.writerWrite (.error reason)) tasks) :
    Broken sha256 { before with tasks, progress := 0 } := by
  cases hstep with
  | reader hstep => cases hstep
  | peer hstep => cases hstep
  | writer hstep =>
      cases hstep with
      | write hwriter =>
          obtain ⟨pieces, hpieces⟩ := hflowing.pieces hwriter
          rw [hwriter] at hpieces
          cases hpieces
          exact ⟨.leaving _, _, hflowing.bytes⟩

/-- A writer that has left its loop does not write. -/
theorem Stopped.step {before after : PeerTasks} {label : Label}
    (hstopped : Stopped before.writer) (hstep : Step sha256 before label after) :
    Stopped after.writer ∧ ∀ result, label ≠ .writerWrite result := by
  cases hstep with
  | reader hstep =>
      rw [(ReaderStep.outbound_frame hstep).2.1]
      refine ⟨hstopped, ?_⟩
      rintro result rfl
      cases hstep
  | peer hstep =>
      rw [PeerStep.writer_eq hstep]
      refine ⟨hstopped, ?_⟩
      rintro result rfl
      cases hstep
  | writer hstep =>
      cases hstep with
      | take hwriter => rw [hwriter] at hstopped; cases hstopped
      | takeClosed hwriter => rw [hwriter] at hstopped; cases hstopped
      | write hwriter => rw [hwriter] at hstopped; cases hstopped
      | finish => exact ⟨.ended _, by simp⟩

theorem Broken.step {before after : Outbound} {label : OutboundLabel}
    (hbroken : Broken sha256 before)
    (hstep : OutboundStep sha256 before label after) :
    Broken sha256 after := by
  obtain ⟨hstopped, hbytes⟩ := hbroken
  cases hstep with
  | enqueue => exact ⟨hstopped, hbytes⟩
  | dropSender => exact ⟨hstopped, hbytes⟩
  | command hqueue hstep =>
      refine ⟨(hstopped.step hstep).1, hbytes.trans ?_⟩
      rw [lowMessages_append, stream_append]
      exact List.prefix_append _ _
  | commandClosed hqueue hsender hstep =>
      exact ⟨(hstopped.step hstep).1, hbytes⟩
  | accept hwriter => rw [hwriter] at hstopped; cases hstopped
  | write hwriter hwhole hstep =>
      exact absurd rfl ((hstopped.step hstep).2 _)
  | writeFail hstep => exact absurd rfl ((hstopped.step hstep).2 _)
  | task hcommand hwrite hstep => exact ⟨(hstopped.step hstep).1, hbytes⟩

/-! ## Runs -/

theorem Flowing.step {before after : Outbound} {label : OutboundLabel}
    (hflowing : Flowing sha256 before) (hcontrolled : Controlled before)
    (hlabel : ∀ reason, label ≠ .write (.error reason))
    (hstep : OutboundStep sha256 before label after) :
    Flowing sha256 after := by
  cases hstep with
  | enqueue | dropSender =>
      exact ⟨hflowing.writer, hflowing.queue, hflowing.done, hflowing.drained,
        hflowing.bytes⟩
  | command hqueue hstep => exact hflowing.command hstep
  | commandClosed hqueue hsender hstep =>
      cases hstep with
      | reader hstep => cases hstep
      | writer hstep => cases hstep
      | peer hstep => exact hflowing.peerStep hcontrolled.phase (by simp) hstep
  | accept hwriter hcount => exact hflowing.accept hwriter hcount
  | write hwriter hwhole hstep => exact hflowing.write hwriter hwhole hstep
  | writeFail => exact absurd rfl (hlabel _)
  | task hcommand hwrite hstep =>
      cases hstep with
      | reader hstep =>
          obtain ⟨hpeer, hwriter, hqueue⟩ := ReaderStep.outbound_frame hstep
          exact hflowing.movePeer hwriter hqueue (by rw [hpeer])
            (by rw [hpeer]; exact id)
      | writer hstep => exact hflowing.writerStep hwrite hstep
      | peer hstep =>
          exact hflowing.peerStep hcontrolled.phase (fun _ => hcommand _) hstep

theorem Controlled.initial (peer : Peer) : Controlled (.initial peer) where
  queue := rfl
  last := nofun
  phase := .idle peer nofun
  ended := nofun

theorem Flowing.initial (peer : Peer) : Flowing sha256 (.initial peer) where
  writer := .inl ⟨[], rfl, fun _ => rfl⟩
  queue := ⟨[], [], rfl, .inl rfl⟩
  done := by
    rintro (hstopped | hshutdown)
    · exact absurd hstopped (not_stopped_writeAll [])
    · cases hshutdown
  drained hstopped := absurd hstopped (not_stopped_writeAll [])
  bytes := rfl

theorem controlled_run {peer : Peer} {last : Outbound}
    {labels : List OutboundLabel}
    (run : Run (OutboundStep sha256) (.initial peer) labels last) :
    Controlled last :=
  run.invariant Controlled (.initial peer) fun _ _ _ hbefore hstep =>
    hbefore.step hstep

/-- Only a failed write makes bytes disappear. -/
theorem flowing_or_broken {peer : Peer} {last : Outbound}
    {labels : List OutboundLabel}
    (run : Run (OutboundStep sha256) (.initial peer) labels last) :
    Flowing sha256 last ∨
      Broken sha256 last ∧ ∃ reason, .write (.error reason) ∈ labels := by
  induction run with
  | refl => exact .inl (.initial peer)
  | @tail middle last labels label run last_step ih =>
      obtain hflowing | ⟨hbroken, reason, hreason⟩ := ih
      · by_cases hlabel : ∀ reason, label ≠ .write (.error reason)
        · exact .inl (hflowing.step (controlled_run run) hlabel last_step)
        · simp only [not_forall, not_not] at hlabel
          obtain ⟨reason, rfl⟩ := hlabel
          cases last_step with
          | writeFail hstep =>
              exact .inr ⟨hflowing.fail hstep, reason, by simp⟩
      · exact .inr ⟨hbroken.step last_step, reason, by simp [hreason]⟩

/-- The events before the first `Shutdown`. -/
def beforeShutdown (events : List EventsPeerManager) : List EventsPeerManager :=
  events.takeWhile (· ≠ .shutdown)

theorem lowMessages_beforeShutdown {front rest : List EventsPeerManager}
    (hfront : .shutdown ∉ front) :
    lowMessages (beforeShutdown (front ++ .shutdown :: rest)) =
      lowMessages (front ++ [.shutdown]) := by
  have hall : ∀ event ∈ front, decide (event ≠ .shutdown) = true := by
    intro event hevent
    apply decide_eq_true
    rintro rfl
    exact hfront hevent
  rw [beforeShutdown, List.takeWhile_append_of_pos hall]
  simp [lowMessages]

/-- The bytes on the socket begin the stream of the messages put into the
peer's channel.  When a peer that has taken `Shutdown` has returned and no
write has failed, they are the stream of the messages put there before the
first `Shutdown`. -/
theorem written_enqueued {peer : Peer} {last : Outbound}
    {labels : List OutboundLabel}
    (run : Run (OutboundStep sha256) (.initial peer) labels last) :
    last.written <+: stream sha256 (lowMessages last.enqueued) ∧
      ∀ result, last.tasks.peer = .returned result → .shutdown ∈ last.taken →
        (∀ reason, .write (.error reason) ∉ labels) →
          last.written =
            stream sha256 (lowMessages (beforeShutdown last.enqueued)) := by
  have hcontrolled := controlled_run run
  have hrun := flowing_or_broken run
  have htaken : stream sha256 (lowMessages last.taken) <+:
      stream sha256 (lowMessages last.enqueued) := by
    rw [hcontrolled.queue, lowMessages_append, stream_append]
    exact List.prefix_append _ _
  refine ⟨?_, fun result hreturned hshutdown hwrites => ?_⟩
  · obtain hflowing | ⟨hbroken, -⟩ := hrun
    · exact List.IsPrefix.trans ⟨_, hflowing.bytes⟩ htaken
    · exact hbroken.bytes.trans htaken
  · have hflowing := hrun.resolve_right
      fun ⟨_, reason, hreason⟩ => hwrites reason hreason
    have hended := hcontrolled.ended hshutdown ⟨result, hreturned⟩
    obtain ⟨front, hlast, hfront⟩ := hcontrolled.last hshutdown
    obtain ⟨writerEnd, hwriter⟩ := Subtask.hasEnded_iff.mp hended
    have hdrained := hflowing.drained (by rw [hwriter]; exact .ended _)
    have hbytes := hflowing.bytes
    rw [hwriter, hdrained, hreturned] at hbytes
    rw [hcontrolled.queue, hlast, List.append_assoc, List.singleton_append,
      lowMessages_beforeShutdown hfront, ← hlast, ← hbytes]
    simp [unwritten, lowLevelMessages, inHand]

end Steps

/-- A verack message, `Shutdown` and one more verack message: the peer returns
with the first message on the socket. -/
theorem written_enqueued_verack :
    ∃ labels last, Run (OutboundStep zeroDigest) (.initial loopbackPeer)
        labels last ∧
      last.enqueued = [.readyLowMessage (.verack {}), .shutdown,
        .readyLowMessage (.verack {})] ∧
      last.written = stream zeroDigest (lowMessages [.readyLowMessage
        (.verack {})]) := by
  have hopen : ¬(PeerTasks.initial loopbackPeer).gone := by
    rintro ⟨result, hreturned⟩
    cases hreturned
  have hqueued := ((((Run.refl (Outbound.initial loopbackPeer)).tail
    (@OutboundStep.enqueue zeroDigest _ (.readyLowMessage (.verack {})) rfl
      hopen (by decide))).tail
    (.enqueue rfl hopen (by decide) : OutboundStep _ _ (.enqueue .shutdown) _)).tail
    (@OutboundStep.enqueue zeroDigest _ (.readyLowMessage (.verack {})) rfl
      hopen (by decide)))
  have hsent := ((hqueued.tail (.command rfl (.peer (.command rfl)))).tail
    (.task (by simp) (by simp) (.peer (.send rfl
      (.toTaskWrite id (by decide))))))
  have hshutdown := ((((hsent.tail (.command rfl (.peer (.command rfl)))).tail
    (.task (by simp) (by simp) (.peer (.leave rfl)))).tail
    (.task (by simp) (by simp) (.peer (.shutdown rfl
      (.toTaskRead id (by decide)))))).tail
    (.task (by simp) (by simp) (.peer (.shutdown rfl
      (.toTaskWrite id (by decide))))))
  have hread := (hshutdown.tail
    (.task (by simp) (by simp) (.reader (.command rfl rfl)))).tail
    (.task (by simp) (by simp) (.reader (.finish rfl (.returned _))))
  have hheader := ((hread.tail
    (.task (by simp) (by simp) (.writer (.take rfl rfl)))).tail
    (.accept rfl (Nat.zero_add _).le)).tail
    (.write rfl (Nat.zero_add _) (.writer (.write rfl)))
  have hpayload := (hheader.tail (.accept rfl (Nat.zero_add _).le)).tail
    (.write rfl (Nat.zero_add _) (.writer (.write rfl)))
  have hwrite := (hpayload.tail
    (.task (by simp) (by simp) (.writer (.take rfl rfl)))).tail
    (.task (by simp) (by simp) (.writer (.finish rfl (.returned _))))
  have run := hwrite.tail (.task (by simp) (by simp)
    (.peer (.finish rfl (fun _ => rfl) fun _ => rfl)))
  exact ⟨_, _, run, rfl, (written_enqueued run).2 _ rfl (by decide) (by simp)⟩

end P2PNetwork.PeerOutbound
