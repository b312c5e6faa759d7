import P2PNetwork.Network.PeerDelivery
import P2PNetwork.Network.StreamSoundness

/-!
# From the socket to PeerManager

A peer with the bytes that its reader has read.  What it has passed on to
`PeerManager` are the first of the messages that its reader has produced, and
these are the first of the messages in the stream.
-/

namespace P2PNetwork.PeerInbound

open P2PNetwork.ByteAccess
open P2PNetwork.EventLoop
open P2PNetwork.Events
open P2PNetwork.Handler
open P2PNetwork.PeerActor
open P2PNetwork.PeerSubtasks (Accounted Label LoopTurn PeerStep PeerTasks ReaderStep
  SendStep Step Subtask passOn)
open P2PNetwork.StreamSoundness
open P2PNetwork.TaskRead
open P2PNetwork.Wire

/-- The bytes that a step reads from the socket. -/
def bytesRead : Label → Bytes
  | .readerRead (.ok read) => read
  | _ => []

section Peers

variable (sha256 : Bytes → ByteArr 32)

/-- Where the reader stands, given its history. -/
def ReaderAt (past : History) :
    Subtask Bytes EventsTaskRead Bool ResultTaskRead → Prop
  | .running turn =>
      turn.Holds (history sha256).answer (Sending sha256) (Settled sha256) past
  | .ended _ => ∃ inHand storageBuffer, Aligned sha256 past inHand storageBuffer

/-- The reader has produced the messages that the peer has taken from it, and
the first of these have been passed on. -/
structure Inbound (peer : Peer) (past : History) (tasks : PeerTasks) : Prop where
  reader : ReaderAt sha256 past tasks.reader
  delivered : past.delivered = tasks.produced.map messageOf
  accounted : Accounted peer tasks
  closing : ∀ incident sends, tasks.peer = .closing incident sends →
    ∃ self rest, sends = sendAll self rest ∧ ∀ event, .toPeerManager event ∉ rest
  passedOn : tasks.forwarded <+: tasks.produced.map (passOn peer.peerid)

variable {sha256} {peer : Peer} {past : History}

theorem ReaderAt.aligned
    {reader : Subtask Bytes EventsTaskRead Bool ResultTaskRead}
    (hreader : ReaderAt sha256 past reader) :
    ∃ inHand storageBuffer, Aligned sha256 past inHand storageBuffer := by
  rcases reader with (⟨storageBuffer, flow⟩ | ⟨storageBuffer, event, resume⟩) | result
  · exact ⟨hreader.choose, storageBuffer, hreader.choose_spec.1⟩
  · exact ⟨_, storageBuffer, hreader.1⟩
  · exact hreader

/-- What the reader has delivered is found in every stream that its bytes
begin. -/
theorem Inbound.delivered_prefix {tasks : PeerTasks}
    (hinbound : Inbound sha256 peer past tasks) {stream : Bytes}
    (hstream : past.received <+: stream) :
    tasks.produced.map messageOf <+: (decodeFrames sha256 stream).1 := by
  obtain ⟨rest, rfl⟩ := hstream
  obtain ⟨inHand, storageBuffer, haligned⟩ := hinbound.reader.aligned
  rw [← hinbound.delivered, haligned.decoded rest]
  exact List.prefix_append _ _

theorem passOn_eq (peerid : PeerId) :
    passOn peerid = EventsPeer.readyLowMessage peerid ∘ messageOf := by
  funext event
  rfl

/-- What the peer has passed on is found in every stream that its bytes
begin. -/
theorem Inbound.forwarded_prefix {tasks : PeerTasks}
    (hinbound : Inbound sha256 peer past tasks) {stream : Bytes}
    (hstream : past.received <+: stream) :
    tasks.forwarded <+:
      (decodeFrames sha256 stream).1.map (.readyLowMessage peer.peerid) := by
  apply hinbound.passedOn.trans
  rw [passOn_eq, ← List.map_map]
  exact (hinbound.delivered_prefix hstream).map _

/-! ## Steps -/

theorem Inbound.initial (peer : Peer) :
    Inbound sha256 peer {} (.initial peer) where
  reader := aligned_empty.settled _
  delivered := rfl
  accounted := .initial peer
  closing := by simp [PeerTasks.initial]
  passedOn := List.prefix_rfl

variable {before after : PeerTasks} {label : Label}

/-- A reader between two turns takes an input. -/
theorem ReaderAt.take {storageBuffer : Bytes}
    (hreader : ReaderAt sha256 past (.running (.done storageBuffer .next)))
    (input : ReadInput) :
    ReaderAt sha256 ((history sha256).take past storageBuffer input)
      (.running (startTaskReadTurn sha256 input storageBuffer)) := by
  obtain ⟨inHand, haligned, hnext⟩ := hreader
  rw [hnext rfl] at haligned
  exact startTaskReadTurn_holds haligned input

theorem take_result (storageBuffer : Bytes) (result : Except IoError Bytes) :
    ((history sha256).take past storageBuffer (.resultRead result)).received =
        past.received ++ bytesRead (.readerRead result) ∧
      ((history sha256).take past storageBuffer (.resultRead result)).delivered =
        past.delivered := by
  rcases result with reason | (_ | ⟨byte, bytes⟩)
  · exact ⟨(List.append_nil _).symm, rfl⟩
  · exact ⟨(List.append_nil _).symm, rfl⟩
  · exact ⟨rfl, rfl⟩

theorem Inbound.readerStep (hinbound : Inbound sha256 peer past before)
    (hstep : ReaderStep sha256 before label after) :
    ∃ past', Inbound sha256 peer past' after ∧
      past'.received = past.received ++ bytesRead label := by
  have hat := hinbound.reader
  have haccounted := hinbound.accounted.readerStep hstep
  have hidle {storageBuffer : Bytes} {input : ReadInput}
      (hinput : (history sha256).take past storageBuffer input = past)
      (hreader : before.reader = .running (.done storageBuffer .next)) :
      ReaderAt sha256 past
        (.running (startTaskReadTurn sha256 input storageBuffer)) := by
    rw [hreader] at hat
    exact hinput ▸ hat.take input
  cases hstep with
  | @read storageBuffer result hreader hbound =>
      rw [hreader] at hat
      obtain ⟨hreceived, hdelivered⟩ := take_result storageBuffer result
      exact ⟨_, ⟨hat.take _, hdelivered.trans hinbound.delivered, haccounted,
        hinbound.closing, hinbound.passedOn⟩, hreceived⟩
  | command hreader hcommand =>
      exact ⟨past, ⟨hidle rfl hreader, hinbound.delivered, haccounted,
        hinbound.closing, hinbound.passedOn⟩, (List.append_nil _).symm⟩
  | commandClosed hreader hcommand hgone =>
      exact ⟨past, ⟨hidle rfl hreader, hinbound.delivered, haccounted,
        hinbound.closing, hinbound.passedOn⟩, (List.append_nil _).symm⟩
  | @send storageBuffer event resume hreader hopen hroom =>
      rw [hreader] at hat
      have hdelivered : past.delivered ++ [messageOf event] =
          (before.produced ++ [event]).map messageOf := by
        rw [List.map_append, hinbound.delivered, List.map_singleton]
      have hpassedOn : before.forwarded <+:
          (before.produced ++ [event]).map (passOn peer.peerid) := by
        rw [List.map_append]
        exact hinbound.passedOn.trans (List.prefix_append _ _)
      exact ⟨_, ⟨hat.2 true, hdelivered, haccounted, hinbound.closing, hpassedOn⟩,
        (List.append_nil _).symm⟩
  | sendClosed hreader hgone =>
      rw [hreader] at hat
      exact ⟨past, ⟨hat.2 false, hinbound.delivered, haccounted,
        hinbound.closing, hinbound.passedOn⟩, (List.append_nil _).symm⟩
  | finish hreader hends =>
      exact ⟨past, ⟨hat.aligned, hinbound.delivered, haccounted,
        hinbound.closing, hinbound.passedOn⟩, (List.append_nil _).symm⟩

/-- The peer passes on what it has in its hands, and only in its loop. -/
theorem Inbound.passedOn_peerStep (hinbound : Inbound sha256 peer past before)
    (hstep : PeerStep before label after) :
    after.forwarded <+: before.produced.map (passOn peer.peerid) := by
  cases hstep with
  | @send sent self send resume delivered hpeer hsend =>
      cases hsend with
      | @toPeerManager event =>
          have hloop : LoopTurn peer (.issue self (.toPeerManager event) resume) :=
            (hinbound.accounted.turns _ hpeer).resolve_right (by simp)
          rw [hinbound.accounted.account _ hpeer hloop, hpeer]
          exact List.prefix_append _ _
      | _ => exact hinbound.passedOn
  | @shutdown sent self send incident resume delivered hpeer hsend =>
      obtain ⟨_, rest, hrest, habsent⟩ := hinbound.closing _ _ hpeer
      cases rest with
      | nil => simp [sendAll] at hrest
      | cons first rest =>
          cases hrest
          cases hsend with
          | toPeerManager => exact absurd List.mem_cons_self (habsent _)
          | _ => exact hinbound.passedOn
  | _ => exact hinbound.passedOn

theorem Inbound.closing_peerStep (hinbound : Inbound sha256 peer past before)
    (hstep : PeerStep before label after) (incident : EventsCriticalCompletion)
    (sends : Await Peer PeerSend Bool Unit)
    (hclosing : after.peer = .closing incident sends) :
    ∃ self rest, sends = sendAll self rest ∧
      ∀ event, .toPeerManager event ∉ rest := by
  cases hstep with
  | @leave self incident hpeer =>
      cases hclosing
      refine ⟨self, _, rfl, fun event => ?_⟩
      cases incident <;> simp [EventsCriticalCompletion.awaitsTaskRead,
        EventsCriticalCompletion.awaitsTaskWrite]
  | @shutdown sent self send _ resume delivered hpeer hsend =>
      cases hclosing
      obtain ⟨_, rest, hrest, habsent⟩ := hinbound.closing _ _ hpeer
      cases rest with
      | nil => simp [sendAll] at hrest
      | cons first rest =>
          cases hrest
          exact ⟨_, rest, rfl, fun event hmem =>
            habsent event (List.mem_cons_of_mem _ hmem)⟩
  | _ => cases hclosing

theorem Inbound.step (hinbound : Inbound sha256 peer past before)
    (hstep : Step sha256 before label after) :
    ∃ past', Inbound sha256 peer past' after ∧
      past'.received = past.received ++ bytesRead label := by
  have haccounted := hinbound.accounted.step hstep
  cases hstep with
  | reader hstep => exact hinbound.readerStep hstep
  | writer hstep =>
      obtain ⟨hpeer, hreader, -, hproduced, hforwarded⟩ := hstep.frame
      have hread : bytesRead label = [] := by cases hstep <;> rfl
      refine ⟨past, ⟨?_, ?_, haccounted, ?_, ?_⟩, by rw [hread, List.append_nil]⟩
      · rw [hreader]
        exact hinbound.reader
      · rw [hproduced]
        exact hinbound.delivered
      · rw [hpeer]
        exact hinbound.closing
      · rw [hforwarded, hproduced]
        exact hinbound.passedOn
  | peer hstep =>
      have hread : bytesRead label = [] := by cases hstep <;> rfl
      have hproduced : after.produced = before.produced := by
        cases hstep with
        | send hpeer hsend => exact hsend.frame.2.2.2
        | shutdown hpeer hsend => exact hsend.frame.2.2.2
        | _ => rfl
      refine ⟨past, ⟨?_, ?_, haccounted, hinbound.closing_peerStep hstep, ?_⟩,
        by rw [hread, List.append_nil]⟩
      · rw [hstep.reader_eq]
        exact hinbound.reader
      · rw [hproduced]
        exact hinbound.delivered
      · rw [hproduced]
        exact hinbound.passedOn_peerStep hstep

end Peers

end P2PNetwork.PeerInbound
