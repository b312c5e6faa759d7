import P2PNetwork.Network.FrameParser

/-!
# What the reader delivers

Whatever the segmentation of the stream, the reader delivers messages that are
in the stream: the same parser, applied over and over to the whole stream,
finds the same messages in the same order.  The reader may stop earlier.
-/

namespace P2PNetwork.StreamSoundness

open P2PNetwork.ByteAccess
open P2PNetwork.EventLoop
open P2PNetwork.Events
open P2PNetwork.FrameParser
open P2PNetwork.Framing
open P2PNetwork.Handler
open P2PNetwork.TaskRead
open P2PNetwork.Wire

variable (sha256 : Bytes → ByteArr 32)

/-! ## The reference decoder -/

section Reference

variable {sha256} {buffer : Bytes} {message : MessagePayload} {length : ℕ}

/-- The reference decoder takes an accepted frame off the front. -/
theorem decodeFrames_of_frame
    (hframe : FrameAtFront sha256 buffer message length) :
    decodeFrames sha256 buffer =
      (message ::
          (decodeFrames sha256 (buffer.drop (lenHeaderMessage + length))).1,
        (decodeFrames sha256 (buffer.drop (lenHeaderMessage + length))).2) := by
  have hsplit := List.take_append_drop (lenHeaderMessage + length) buffer
  have hfront : (buffer.take (lenHeaderMessage + length)).length =
      lenHeaderMessage + length := by
    rw [List.length_take, min_eq_left hframe.length_le]
  have hparse := rawByteProcessing_some_iff.mpr hframe
  rw [← hsplit] at hparse
  have hdecode := decodeFrames_append hfront hparse
  rwa [hsplit] at hdecode

/-- A frame accepted in the buffer of the reader is what the reference decoder
finds there in the whole stream. -/
theorem decodeFrames_frame_append
    (hframe : FrameAtFront sha256 buffer message length) (rest : Bytes) :
    (decodeFrames sha256 (buffer ++ rest)).1 =
      message :: (decodeFrames sha256
        (buffer.drop (lenHeaderMessage + length) ++ rest)).1 := by
  rw [decodeFrames_of_frame (hframe.append rest),
    List.drop_append_of_le_length hframe.length_le]

end Reference

/-! ## The history of a reader -/

/-- What has happened to the reader so far. -/
structure History where
  /-- the bytes read from the socket -/
  received : Bytes := []
  /-- the bytes drained from the buffer -/
  drained : Bytes := []
  /-- the messages the peer has taken -/
  delivered : List MessagePayload := []

/-- How many bytes the reader drains from its buffer after a read. -/
def drainRange (storageBuffer : Bytes) : ℕ :=
  match rawByteProcessing sha256 storageBuffer with
  | .ok (some (_, length)) => lenHeaderMessage + length
  | _ => 0

/-- The message of an event for the peer. -/
def messageOf : EventsTaskRead → MessagePayload
  | .lowRawMessage message => message

/-- Reads and drains are recorded when they happen, a message when the peer
has taken it. -/
def history : Ghost History Bytes ReadInput EventsTaskRead Bool where
  take past storageBuffer input :=
    match input with
    | .resultRead (.ok (byte :: bytes)) =>
        let storageBuffer := storageBuffer ++ byte :: bytes
        { past with
          received := past.received ++ byte :: bytes
          drained := past.drained ++
            storageBuffer.take (drainRange sha256 storageBuffer) }
    | _ => past
  answer past event reply :=
    if reply then { past with delivered := past.delivered ++ [messageOf event] }
    else past

@[simp]
theorem history_take_read {past : History} {storageBuffer read : Bytes}
    (hread : read ≠ []) :
    (history sha256).take past storageBuffer (.resultRead (.ok read)) =
      { past with
        received := past.received ++ read
        drained := past.drained ++ (storageBuffer ++ read).take
          (drainRange sha256 (storageBuffer ++ read)) } := by
  obtain ⟨byte, bytes, rfl⟩ := List.exists_cons_of_ne_nil hread
  rfl

/-! ## The invariant -/

/-- The bytes received are those drained and those in the buffer, and the
reference decoder, on whatever the stream goes on with, finds the messages
delivered, those in hand, and then what it finds from the buffer on. -/
structure Aligned (past : History) (inHand : List MessagePayload)
    (storageBuffer : Bytes) : Prop where
  conserved : past.drained ++ storageBuffer = past.received
  decoded : ∀ rest, (decodeFrames sha256 (past.received ++ rest)).1 =
    past.delivered ++
      (inHand ++ (decodeFrames sha256 (storageBuffer ++ rest)).1)

/-- At the send of a turn its message is in hand. -/
def Sending (past : History) (storageBuffer : Bytes) (event : EventsTaskRead) :
    Prop :=
  Aligned sha256 past [messageOf event] storageBuffer

/-- At the end of a turn a message is in hand only when the loop ends, because
the peer has not taken it. -/
def Settled (past : History) (storageBuffer : Bytes)
    (flow : Flow ResultTaskRead) : Prop :=
  ∃ inHand, Aligned sha256 past inHand storageBuffer ∧
    (flow = .next → inHand = [])

variable {sha256}

theorem aligned_empty : Aligned sha256 {} [] [] where
  conserved := rfl
  decoded _ := rfl

theorem drainRange_le (storageBuffer : Bytes) :
    drainRange sha256 storageBuffer ≤ storageBuffer.length := by
  unfold drainRange
  split
  case h_1 message length hparse =>
    exact (rawByteProcessing_some_iff.mp hparse).length_le
  case h_2 => exact Nat.zero_le _

theorem drainRange_of_frame {storageBuffer : Bytes} {message : MessagePayload}
    {length : ℕ} (hframe : FrameAtFront sha256 storageBuffer message length) :
    drainRange sha256 storageBuffer = lenHeaderMessage + length := by
  rw [drainRange, rawByteProcessing_some_iff.mpr hframe]

/-- A read that drains nothing. -/
theorem Aligned.append {past : History} {inHand : List MessagePayload}
    {storageBuffer : Bytes} (haligned : Aligned sha256 past inHand storageBuffer)
    (read : Bytes) :
    Aligned sha256 { past with received := past.received ++ read } inHand
      (storageBuffer ++ read) where
  conserved := by rw [← List.append_assoc, haligned.conserved]
  decoded rest := by
    rw [List.append_assoc, List.append_assoc]
    exact haligned.decoded (read ++ rest)

/-- Draining the frame at the front of the buffer takes its message in
hand. -/
theorem Aligned.drain {past : History} {storageBuffer : Bytes}
    {message : MessagePayload} {length : ℕ}
    (haligned : Aligned sha256 past [] storageBuffer)
    (hframe : FrameAtFront sha256 storageBuffer message length) :
    Aligned sha256
      { past with drained := past.drained ++
          storageBuffer.take (lenHeaderMessage + length) }
      [message] (storageBuffer.drop (lenHeaderMessage + length)) where
  conserved := by
    rw [List.append_assoc, List.take_append_drop, haligned.conserved]
  decoded rest := by
    rw [haligned.decoded rest, List.nil_append,
      decodeFrames_frame_append hframe rest]
    rfl

theorem Aligned.deliver {past : History} {message : MessagePayload}
    {storageBuffer : Bytes}
    (haligned : Aligned sha256 past [message] storageBuffer) :
    Aligned sha256 { past with delivered := past.delivered ++ [message] } []
      storageBuffer where
  conserved := haligned.conserved
  decoded rest := by
    rw [haligned.decoded rest, List.append_assoc, List.nil_append]

theorem Aligned.settled {past : History} {storageBuffer : Bytes}
    (haligned : Aligned sha256 past [] storageBuffer)
    (flow : Flow ResultTaskRead) :
    Settled sha256 past storageBuffer flow :=
  ⟨[], haligned, fun _ => rfl⟩

/-- One turn of the reader, at its send and at its end. -/
theorem startTaskReadTurn_holds {past : History} {storageBuffer : Bytes}
    (haligned : Aligned sha256 past [] storageBuffer) (input : ReadInput) :
    (startTaskReadTurn sha256 input storageBuffer).Holds
      (history sha256).answer (Sending sha256) (Settled sha256)
      ((history sha256).take past storageBuffer input) := by
  rcases input with (reason | (_ | ⟨byte, bytes⟩)) | incident
  · exact haligned.settled _
  · exact haligned.settled _
  · have hread := haligned.append (byte :: bytes)
    have hidle (hparse : ∀ message length,
        rawByteProcessing sha256 (storageBuffer ++ byte :: bytes) ≠
          .ok (some (message, length))) (flow : Flow ResultTaskRead) :
        Settled sha256 ((history sha256).take past storageBuffer
          (.resultRead (.ok (byte :: bytes))))
          (storageBuffer ++ byte :: bytes) flow := by
      have hrange : drainRange sha256 (storageBuffer ++ byte :: bytes) = 0 := by
        unfold drainRange
        split
        case h_1 message length hsome => exact absurd hsome (hparse _ _)
        case h_2 => rfl
      simp only [history, hrange, List.take_zero, List.append_nil]
      exact hread.settled flow
    simp only [startTaskReadTurn]
    split
    case h_1 message length hparse =>
      have hframe := rawByteProcessing_some_iff.mp hparse
      have hdrained := hread.drain hframe
      rw [if_pos hframe.length_le, Await.holds_issue]
      simp only [history, drainRange_of_frame hframe]
      refine ⟨hdrained, fun delivered => ?_⟩
      cases delivered with
      | true => exact hdrained.deliver.settled _
      | false =>
          refine ⟨[message], hdrained, fun hnext => ?_⟩
          cases hnext
    all_goals
      rename_i hparse
      refine hidle (fun message length hsome => ?_) _
      rw [hparse] at hsome
      cases hsome
  · cases incident with
    | none => exact haligned.settled _
    | some event => cases event <;> exact haligned.settled _

/-! ## Every segmentation -/

/-- In every run of the reader, whatever the reads and whenever the peer
interferes: the bytes drained and the buffer are the bytes received, the next
drain stays inside the buffer, and the messages delivered are the first ones
that the reference decoder finds in any stream the bytes received begin. -/
theorem delivered_prefix_reference
    {labels : List (LoopLabel ReadInput EventsTaskRead Bool)}
    {last : ReadTurn × History}
    (run : Run (LoopStep (startTaskReadTurn sha256) (history sha256))
      (.done [] .next, {}) labels last) :
    last.2.drained ++ last.1.state = last.2.received ∧
      (∀ read, drainRange sha256 (last.1.state ++ read) ≤
        (last.1.state ++ read).length) ∧
      ∀ stream, last.2.received <+: stream →
        last.2.delivered <+: (decodeFrames sha256 stream).1 := by
  have hturn (past : History) (storageBuffer : Bytes) (input : ReadInput)
      (hsettled : Settled sha256 past storageBuffer .next) :
      (startTaskReadTurn sha256 input storageBuffer).Holds
        (history sha256).answer (Sending sha256) (Settled sha256)
        ((history sha256).take past storageBuffer input) := by
    obtain ⟨inHand, haligned, hnext⟩ := hsettled
    rw [hnext rfl] at haligned
    exact startTaskReadTurn_holds haligned input
  have hlast := LoopStep.holds_run hturn (aligned_empty.settled .next) run
  obtain ⟨inHand, haligned⟩ :
      ∃ inHand, Aligned sha256 last.2 inHand last.1.state := by
    generalize last.1 = turn at hlast
    cases turn with
    | done storageBuffer flow => exact ⟨hlast.choose, hlast.choose_spec.1⟩
    | issue storageBuffer event resume => exact ⟨_, hlast.1⟩
  refine ⟨haligned.conserved, fun read => drainRange_le _, ?_⟩
  rintro _ ⟨rest, rfl⟩
  rw [haligned.decoded rest]
  exact List.prefix_append _ _

/-- The frame of `plainVersion` in one read: the message is delivered. -/
theorem delivered_plainFrame :
    ∃ labels, ∃ last : ReadTurn × History,
      Run (LoopStep (startTaskReadTurn zeroDigest) (history zeroDigest))
          (.done [] .next, {}) labels last ∧
        last.2.delivered = [.version plainVersion] ∧
        last.2.delivered <+: (decodeFrames zeroDigest plainFrame).1 := by
  have hturn := startTaskReadTurn_frame zeroDigest
    (sendable_plainVersion plainVersion rfl)
  have htake : LoopStep (startTaskReadTurn zeroDigest) (history zeroDigest)
      (.done [] .next, {}) (.take (.resultRead (.ok plainFrame)))
      (deliverTurn (.version plainVersion),
        (history zeroDigest).take {} [] (.resultRead (.ok plainFrame))) := by
    rw [← hturn]
    exact .take _
  have run := ((Run.refl _).tail htake).tail (LoopStep.answer true)
  have hframe : plainFrame ≠ [] :=
    List.ne_nil_of_length_pos (by rw [length_plainFrame]; decide)
  have hread := @history_take_read zeroDigest {} [] plainFrame hframe
  rw [hread] at run
  refine ⟨_, _, run, rfl, (delivered_prefix_reference run).2.2 plainFrame ?_⟩
  exact List.prefix_rfl

end P2PNetwork.StreamSoundness
