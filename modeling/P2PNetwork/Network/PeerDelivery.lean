import P2PNetwork.Network.PeerTasks

/-!
# Messages that a peer passes on

What the reader has produced is at any time what the peer has passed on, the
message in its hands and what is still in the channel.  A peer that notices
the end of its reader takes nothing out of the channel any more, so exactly
the messages that are there at that moment are lost.
-/

namespace P2PNetwork.PeerSubtasks

open P2PNetwork.ByteAccess
open P2PNetwork.Events
open P2PNetwork.EventLoop
open P2PNetwork.Framing
open P2PNetwork.Handler
open P2PNetwork.PeerActor
open P2PNetwork.TaskRead

/-- The event that passes a message of the reader on. -/
def passOn (peerid : PeerId) : EventsTaskRead → EventsPeer
  | .lowRawMessage message => .readyLowMessage peerid message

/-- The event a peer is about to send to `PeerManager`. -/
def inHand : PeerPhase → List EventsPeer
  | .looping (.issue _ (.toPeerManager event) _) => [event]
  | _ => []

/-! ## The loop -/

/-- A turn of the loop ends at once or is a single send, whose failure is
reported by the incident of its channel. -/
def LoopTurn (peer : Peer) (turn : PeerTurn) : Prop :=
  (∃ flow, turn = .done peer flow ∧
    flow ≠ .leave .incidentChannelPeerManagerClosed) ∨
  ∃ send closed, turn = forward send closed peer ∧
    ∀ event, send = .toPeerManager event →
      closed = .incidentChannelPeerManagerClosed

theorem turn_loopTurn (peer : Peer) (input : PeerInput) :
    LoopTurn peer (turn input peer) := by
  unfold turn
  split
  case h_1 => exact .inr ⟨_, _, rfl, by simp⟩
  case h_5 => exact .inr ⟨_, _, rfl, by simp⟩
  all_goals exact .inl ⟨_, rfl, by simp⟩

/-- While the peer is in its loop every message is accounted for, unless the
peer is about to leave because `PeerManager` is gone. -/
structure Accounted (peer : Peer) (tasks : PeerTasks) : Prop where
  turns : ∀ turn, tasks.peer = .looping turn →
    LoopTurn peer turn ∨
      turn = .done peer (.leave .incidentChannelPeerManagerClosed)
  account : ∀ turn, tasks.peer = .looping turn → LoopTurn peer turn →
    tasks.produced.map (passOn peer.peerid) =
      tasks.forwarded ++ inHand tasks.peer ++
        tasks.fromTaskRead.map (passOn peer.peerid)

theorem Accounted.initial (peer : Peer) : Accounted peer (.initial peer) where
  turns turn hturn := by
    cases hturn
    exact .inl (.inl ⟨_, rfl, by simp⟩)
  account turn _ _ := rfl

section Steps

variable {sha256 : Bytes → ByteArr 32} {peer : Peer}
variable {before after : PeerTasks} {label : Label}

theorem LoopTurn.idle {self : Peer}
    {flow : Flow EventsCriticalCompletion}
    (hturn : LoopTurn peer (.done self flow)) :
    self = peer ∧ flow ≠ .leave .incidentChannelPeerManagerClosed := by
  obtain ⟨flow', hdone, hflow⟩ | ⟨send, closed, hforward, -⟩ := hturn
  · cases hdone
    exact ⟨rfl, hflow⟩
  · cases hforward

theorem Accounted.readerStep (haccounted : Accounted peer before)
    (hstep : ReaderStep sha256 before label after) : Accounted peer after := by
  cases hstep with
  | send hreader hopen hroom =>
      refine ⟨haccounted.turns, fun turn hturn hloop => ?_⟩
      have haccount := haccounted.account turn hturn hloop
      simp [haccount]
  | _ => exact ⟨haccounted.turns, haccounted.account⟩

/-- What a turn takes into the peer's hands. -/
def taken (peerid : PeerId) : PeerInput → List EventsPeer
  | .incidentTaskRead (some event) => [passOn peerid event]
  | _ => []

theorem inHand_turn (input : PeerInput) :
    inHand (.looping (turn input peer)) = taken peer.peerid input := by
  unfold turn taken
  split <;> rfl

/-- A peer between two turns takes an input. -/
theorem Accounted.take (haccounted : Accounted peer before) {self : Peer}
    (hpeer : before.peer = .looping (.done self .next)) {input : PeerInput}
    {rest : List EventsTaskRead}
    (hqueue : before.fromTaskRead.map (passOn peer.peerid) =
      taken peer.peerid input ++ rest.map (passOn peer.peerid)) :
    Accounted peer { before with
      peer := .looping (turn input self)
      fromTaskRead := rest } := by
  have hloop : LoopTurn peer (.done self .next) :=
    (haccounted.turns _ hpeer).resolve_right (by simp)
  obtain ⟨rfl, -⟩ := hloop.idle
  have haccount := haccounted.account _ hpeer hloop
  have hidle : inHand before.peer = [] := by rw [hpeer]; rfl
  refine ⟨?_, fun turn _ _ => ?_⟩
  · rintro turn ⟨⟩
    exact .inl (turn_loopTurn _ _)
  · simp [haccount, hidle, inHand_turn, hqueue]

theorem Accounted.send (haccounted : Accounted peer before) {self : Peer}
    {send : PeerSend} {resume : Bool → PeerTurn} {delivered : Bool}
    (hpeer : before.peer = .looping (.issue self send resume))
    (hsend : SendStep before send delivered after) :
    Accounted peer { after with peer := .looping (resume delivered) } := by
  have hloop : LoopTurn peer (.issue self send resume) :=
    (haccounted.turns _ hpeer).resolve_right (by simp)
  have haccount := haccounted.account _ hpeer hloop
  rw [hpeer] at haccount
  obtain ⟨flow, hdone, -⟩ | ⟨send', closed, hforward, hclosed⟩ := hloop
  · cases hdone
  cases hforward
  have hnext : LoopTurn peer (.done peer .next) := .inl ⟨_, rfl, by simp⟩
  have hleave : LoopTurn peer (.done peer (.leave closed)) ∨
      Await.done peer (Flow.leave closed) =
        (.done peer (.leave .incidentChannelPeerManagerClosed) : PeerTurn) := by
    by_cases heq : closed = .incidentChannelPeerManagerClosed
    · exact .inr (by rw [heq])
    · exact .inl (.inl ⟨_, rfl, by simpa using heq⟩)
  cases hsend with
  | toTaskRead | toTaskWrite | toPeerManager =>
      refine ⟨?_, fun turn _ _ => by simpa [inHand] using haccount⟩
      rintro turn ⟨⟩
      exact .inl hnext
  | toTaskReadClosed | toTaskWriteClosed =>
      refine ⟨?_, fun turn _ _ => by simpa [inHand] using haccount⟩
      rintro turn ⟨⟩
      exact hleave
  | toPeerManagerClosed =>
      refine ⟨?_, ?_⟩
      · rintro turn ⟨⟩
        exact hleave
      · rintro turn ⟨⟩ hloop
        exact absurd (hclosed _ rfl ▸ rfl) hloop.idle.2

theorem Accounted.peerStep (haccounted : Accounted peer before)
    (hstep : PeerStep before label after) : Accounted peer after := by
  have houtside {tasks : PeerTasks}
      (hleft : ∀ turn, tasks.peer ≠ .looping turn) : Accounted peer tasks :=
    ⟨fun turn hturn => absurd hturn (hleft turn),
      fun turn hturn => absurd hturn (hleft turn)⟩
  cases hstep with
  | command hpeer => exact haccounted.take hpeer rfl
  | receive hpeer hqueue => exact haccounted.take hpeer (by rw [hqueue]; rfl)
  | receiveClosed hpeer => exact haccounted.take hpeer rfl
  | joinReader hpeer => exact haccounted.take hpeer rfl
  | joinWriter hpeer => exact haccounted.take hpeer rfl
  | send hpeer hsend => exact haccounted.send hpeer hsend
  | leave hpeer => exact houtside fun turn => by simp
  | shutdown hpeer => exact houtside fun turn => by simp
  | finish hpeer => exact houtside fun turn => by simp

theorem Accounted.step (haccounted : Accounted peer before)
    (hstep : Step sha256 before label after) : Accounted peer after := by
  cases hstep with
  | reader hstep => exact haccounted.readerStep hstep
  | writer hstep =>
      obtain ⟨hpeer, -, hqueue, hproduced, hforwarded⟩ := hstep.frame
      refine ⟨by rw [hpeer]; exact haccounted.turns, ?_⟩
      rw [hpeer, hqueue, hproduced, hforwarded]
      exact haccounted.account
  | peer hstep => exact haccounted.peerStep hstep

/-! ## After the end of the reader was noticed -/

/-- The reader has ended and the peer is on its way out; nothing is produced
or passed on any more. -/
structure Settled (peer : Peer) (reference tasks : PeerTasks) : Prop where
  ended : tasks.reader.hasEnded
  phase : (∃ incident, tasks.peer = .looping (.done peer (.leave incident))) ∨
    (∃ incident sends, tasks.peer = .closing incident (sendAll peer sends) ∧
      ∀ event, .toPeerManager event ∉ sends) ∨
    tasks.gone
  produced : tasks.produced = reference.produced
  forwarded : tasks.forwarded = reference.forwarded

/-- The peer takes the end of its reader: through its handle, or through the
drained channel. -/
def NoticesReader (label : Label) : Prop :=
  label = .peerJoinReader ∨ label = .peerReceiveClosed

theorem settled_of_notice (hlabel : NoticesReader label)
    (hstep : Step sha256 before label after)
    (haccounted : Accounted peer before) : Settled peer before after := by
  have hself {self : Peer}
      (hpeer : before.peer = .looping (.done self .next)) : self = peer :=
    ((haccounted.turns _ hpeer).resolve_right (by simp)).idle.1
  obtain rfl | rfl := hlabel
  · cases hstep with
    | reader hstep => cases hstep
    | writer hstep => cases hstep
    | peer hstep =>
        cases hstep with
        | @joinReader self result hpeer hreader =>
            obtain rfl := hself hpeer
            refine ⟨by rw [hreader]; trivial, .inl ?_, rfl, rfl⟩
            cases result <;> exact ⟨_, rfl⟩
  · cases hstep with
    | reader hstep => cases hstep
    | writer hstep => cases hstep
    | peer hstep =>
        cases hstep with
        | receiveClosed hpeer hqueue hended =>
            obtain rfl := hself hpeer
            exact ⟨hended, .inl ⟨_, rfl⟩, rfl, rfl⟩

theorem Settled.step {reference : PeerTasks}
    (hsettled : Settled peer reference before)
    (hstep : Step sha256 before label after) :
    Settled peer reference after := by
  obtain ⟨hended, hphase, hproduced, hforwarded⟩ := hsettled
  cases hstep with
  | reader hstep => exact absurd hended hstep.not_ended
  | writer hstep =>
      obtain ⟨hpeer, hreader, -, hproduced', hforwarded'⟩ := hstep.frame
      refine ⟨hreader ▸ hended, ?_, hproduced'.trans hproduced,
        hforwarded'.trans hforwarded⟩
      rwa [hpeer, PeerTasks.gone, hpeer]
  | peer hstep =>
      have hended' : after.reader.hasEnded := hstep.reader_eq ▸ hended
      obtain ⟨incident, hleave⟩ | ⟨incident, sends, hclosing, hsends⟩ |
        hgone := hphase
      · obtain rfl := hstep.of_leave hleave
        refine ⟨hended', .inr (.inl ⟨incident, _, rfl, fun event => ?_⟩),
          hproduced, hforwarded⟩
        cases incident <;> simp [EventsCriticalCompletion.awaitsTaskRead,
          EventsCriticalCompletion.awaitsTaskWrite]
      · obtain ⟨self, send, resume, delivered, sent, htree, hsend, rfl⟩ |
          ⟨read, result, -, rfl⟩ := hstep.of_closing hclosing
        · cases sends with
          | nil => cases htree
          | cons first rest =>
              cases htree
              obtain ⟨-, -, -, hproduced'⟩ := hsend.frame
              refine ⟨hended', .inr (.inl ⟨incident, rest, rfl, fun event hmem =>
                hsends event (List.mem_cons_of_mem _ hmem)⟩),
                hproduced'.trans hproduced, ?_⟩
              rw [← hforwarded]
              cases hsend with
              | toPeerManager => exact absurd List.mem_cons_self (hsends _)
              | _ => rfl
        · exact ⟨hended', .inr (.inr ⟨result, rfl⟩), hproduced, hforwarded⟩
      · exact absurd hgone hstep.not_gone

/-- A peer that stops because its reader has finished has passed on exactly
what the reader produced, in order, if and only if nothing was left in the
channel when it noticed. -/
theorem forwarded_eq_produced_iff {last : PeerTasks}
    {labels later : List Label}
    (run : Run (Step sha256) (.initial peer) labels before)
    (hlabel : NoticesReader label) (hnotice : Step sha256 before label after)
    (hrest : Run (Step sha256) after later last) :
    last.forwarded = last.produced.map (passOn peer.peerid) ↔
      before.fromTaskRead = [] := by
  have haccounted : Accounted peer before :=
    run.invariant (Accounted peer) (.initial peer)
      fun _ _ _ hbefore hstep => hbefore.step hstep
  have hsettled : Settled peer before last :=
    hrest.invariant (Settled peer before)
      (settled_of_notice hlabel hnotice haccounted)
      fun _ _ _ hbefore hstep => hbefore.step hstep
  have haccount : before.produced.map (passOn peer.peerid) =
      before.forwarded ++ before.fromTaskRead.map (passOn peer.peerid) := by
    have hidle : ∃ self, before.peer = .looping (.done self .next) := by
      obtain rfl | rfl := hlabel
      · obtain hstep | hstep | hstep := hnotice <;> cases hstep
        exact ⟨_, by assumption⟩
      · obtain hstep | hstep | hstep := hnotice <;> cases hstep
        exact ⟨_, by assumption⟩
    obtain ⟨self, hpeer⟩ := hidle
    have hloop := (haccounted.turns _ hpeer).resolve_right (by simp)
    simpa [hpeer, inHand] using haccounted.account _ hpeer hloop
  rw [hsettled.forwarded, hsettled.produced, haccount,
    List.self_eq_append_right, List.map_eq_nil_iff]

end Steps

/-- The reader has ended and its one message was passed on before. -/
def passedOn (peer : Peer) : PeerTasks :=
  { PeerTasks.initial peer with
    reader := .ended (.ok (.ok .successfulEOF))
    produced := [.lowRawMessage (.version plainVersion)]
    forwarded := [.readyLowMessage peer.peerid (.version plainVersion)] }

theorem forwarded_eq_produced_passedOn :
    (passedOn loopbackPeer).forwarded =
      (passedOn loopbackPeer).produced.map (passOn loopbackPeer.peerid) := by
  have hread : Run (Step zeroDigest) (.initial loopbackPeer)
      [.readerRead (.ok plainFrame), .readerSend] (backlog loopbackPeer 1) :=
    .tail (.tail (.refl _) (read_plainFrame rfl))
      (send_backlog loopbackPeer 0 (by decide))
  have hended : Run (Step zeroDigest) (.initial loopbackPeer)
      [.readerRead (.ok plainFrame), .readerSend, .peerReceive, .peerSend true,
        .readerRead (.ok []), .readerEnd] (passedOn loopbackPeer) := by
    refine .tail (.tail (.tail (hread.tail (.peer (.receive rfl rfl)))
      (.peer (.send rfl .toPeerManager))) (.reader (.read rfl ?_)))
      (.reader (.finish rfl (.returned _)))
    rintro read ⟨⟩
    simp
  have hnotice : Step zeroDigest (passedOn loopbackPeer) .peerJoinReader _ :=
    .peer (.joinReader rfl rfl)
  exact (forwarded_eq_produced_iff hended (.inl rfl) hnotice (.refl _)).mpr rfl

/-- The steps up to the end of a reader that has read one frame. -/
def endOfReader : List Label :=
  [.readerRead (.ok plainFrame), .readerSend, .readerRead (.ok []), .readerEnd]

/-- The reader has ended and its one message is still in the channel. -/
def finishedReader (peer : Peer) : PeerTasks :=
  { backlog peer 1 with reader := .ended (.ok (.ok .successfulEOF)) }

theorem finishedReader_run :
    Run (Step zeroDigest) (.initial loopbackPeer) endOfReader
      (finishedReader loopbackPeer) := by
  have hread : Run (Step zeroDigest) (.initial loopbackPeer)
      [.readerRead (.ok plainFrame)] _ :=
    .tail (.refl _) (read_plainFrame rfl)
  have hsent : Run (Step zeroDigest) (.initial loopbackPeer)
      [.readerRead (.ok plainFrame), .readerSend] (backlog loopbackPeer 1) :=
    hread.tail (send_backlog loopbackPeer 0 (by decide))
  refine .tail (hsent.tail (.reader (.read rfl ?_))) (.reader (.finish rfl ?_))
  · rintro read ⟨⟩
    simp
  · exact .returned _

/-- The steps of a peer from noticing the end of its reader to its return. -/
def returnAfterReader : List Label :=
  [.peerLeave, .peerSend true, .writerTake, .writerEnd, .peerReturn]

/-- A peer that knows the end of its reader shuts an idle writer down and
returns. -/
theorem returnAfterReader_run {tasks : PeerTasks} {self : Peer}
    {incident : EventsCriticalCompletion}
    (hreader : incident.awaitsTaskRead = false)
    (hwriter : incident.awaitsTaskWrite = true)
    (hpeer : tasks.peer = .looping (.done self (.leave incident)))
    (hidle : tasks.writer = .running (.done () .next))
    (hqueue : tasks.toTaskWrite = []) (read : Except JoinError ResultTaskRead) :
    Run (Step zeroDigest) tasks returnAfterReader
      { tasks with
        peer := .returned (spawnResult incident read (.ok (.ok .successful)))
        writer := .ended (.ok (.ok .successful)) } := by
  have hleave := PeerStep.leave hpeer
  have hsends : shutdownSubtasks self incident =
      sendAll self [.toTaskWrite .shutdown] := by
    simp [shutdownSubtasks, hreader, hwriter]
  rw [hsends] at hleave
  obtain ⟨peer, reader, writer, toTaskRead, toTaskWrite, fromTaskRead, produced,
    forwarded⟩ := tasks
  subst hidle hqueue
  have hroom : 0 < channelCapacity := by decide
  have hleft : Step zeroDigest _ _ _ := .peer hleave
  have hshutdown := Run.tail (.tail (.refl _) hleft)
    (.peer (.shutdown rfl (.toTaskWrite id hroom)))
  have hended := Run.tail (hshutdown.tail (.writer (.take rfl rfl)))
    (.writer (.finish rfl (.returned _)))
  refine hended.tail (.peer (.finish rfl (fun hawaits => ?_) fun _ => rfl))
  rw [hreader] at hawaits
  cases hawaits

/-- The peer notices the end of its reader before it takes the message out of
the channel, and returns without having passed it on. -/
theorem forwarded_ne_produced :
    ∃ last, Run (Step zeroDigest) (.initial loopbackPeer)
        (endOfReader ++ .peerJoinReader :: returnAfterReader) last ∧
      last.peer = .returned
        (.ok .successfulTaskReadBrokenPipeTaskWriteSuccessful) ∧
      last.produced = [.lowRawMessage (.version plainVersion)] ∧
      last.forwarded = [] ∧
      last.forwarded ≠ last.produced.map (passOn loopbackPeer.peerid) := by
  have hnotice : Step zeroDigest (finishedReader loopbackPeer) .peerJoinReader _ :=
    .peer (.joinReader rfl rfl)
  have run := finishedReader_run.trans (.head hnotice
    (returnAfterReader_run rfl rfl rfl rfl rfl (.ok (.ok .successful))))
  exact ⟨_, run, rfl, rfl, rfl, fun hlost => by cases hlost⟩

end P2PNetwork.PeerSubtasks
