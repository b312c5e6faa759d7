import P2PNetwork.Network.TaskRead
import P2PNetwork.Network.TaskWrite
import P2PNetwork.Network.WireRoundTrip

/-!
# Framing of a stream

The parser applied to a stream of frames the writer produced.  A version frame
is read back whole, with nothing left over.  A verack frame is announced with
length zero and written with one payload byte: the parser drains the header
and the byte stays at the front of the buffer, where no frame starts with it.
-/

namespace P2PNetwork.Framing

open P2PNetwork.ByteAccess
open P2PNetwork.Endian
open P2PNetwork.Wire
open P2PNetwork.WireRoundTrip
open P2PNetwork.TaskRead
open P2PNetwork.TaskWrite

variable (sha256 : Bytes → ByteArr 32)

/-! ## The header in front of a buffer -/

section Header

variable {ε : Type} {mismatch : ε}

theorem readArray_header_magic (header : HeaderMessage) (rest : Bytes) :
    readArray 4 mismatch (header.serializeHeaderMessage ++ rest) 0 =
      .ok (u32ToLeBytes header.magicBytes) := by
  simp [HeaderMessage.serializeHeaderMessage]

theorem readArray_header_command (header : HeaderMessage) (rest : Bytes) :
    readArray 12 mismatch (header.serializeHeaderMessage ++ rest) 4 =
      .ok header.command := by
  simp [HeaderMessage.serializeHeaderMessage, readArray_skip]

theorem readArray_header_length (header : HeaderMessage) (rest : Bytes) :
    readArray 4 mismatch (header.serializeHeaderMessage ++ rest) 16 =
      .ok (u32ToLeBytes header.length) := by
  simp [HeaderMessage.serializeHeaderMessage, readArray_skip]

theorem readArray_header_checksum (header : HeaderMessage) (rest : Bytes) :
    readArray 4 mismatch (header.serializeHeaderMessage ++ rest) 20 =
      .ok header.checksum := by
  simp [HeaderMessage.serializeHeaderMessage, readArray_skip]

theorem sliceFrom_header (header : HeaderMessage) (rest : Bytes) :
    (sliceFrom (header.serializeHeaderMessage ++ rest) 24 :
      Fallible ε Bytes) = .ok rest := by
  simp [sliceFrom_skip]

end Header

/-- Behind a header with the network's magic bytes the parser goes to the
branch of the header's command. -/
theorem rawByteProcessing_header {header : HeaderMessage} {rest : Bytes}
    (hmagic : header.magicBytes = Wire.magicBytes) :
    rawByteProcessing sha256 (header.serializeHeaderMessage ++ rest) =
      match messageTypeDefinition header.command with
      | .versionMessage =>
          versionProcessing sha256 (header.serializeHeaderMessage ++ rest)
      | .verackMessage =>
          verackProcessing sha256 (header.serializeHeaderMessage ++ rest)
      | .uncertainMessage => fail .invalidCommand := by
  cases hcommand : messageTypeDefinition header.command <;>
    simp only [rawByteProcessing, Nat.not_lt_zero, if_false,
      readArray_header_magic, readArray_header_command, ok_bind,
      u32FromLeBytes_u32ToLeBytes, hmagic, ne_eq, not_true_eq_false, hcommand]

/-! ## Frames of the writer -/

theorem toNat_lengthVersionMessage (version : VersionMessage)
    (hsize : version.serializeVersionMessage.length ≤ maxSizePayload) :
    version.lengthVersionMessage.toNat =
      version.serializeVersionMessage.length := by
  have hbound : version.serializeVersionMessage.length < 2 ^ 32 :=
    lt_of_le_of_lt hsize (by decide)
  rw [VersionMessage.lengthVersionMessage, UInt32.toNat_ofNat',
    Nat.mod_eq_of_lt hbound]

/-- A version frame is parsed back to its message, whatever follows it. -/
theorem rawByteProcessing_version_frame (version : VersionMessage)
    (rest : Bytes)
    (hsize : version.serializeVersionMessage.length ≤ maxSizePayload) :
    rawByteProcessing sha256 (frame sha256 (.version version) ++ rest) =
      .ok (some (.version version, version.serializeVersionMessage.length)) := by
  have hlength := toNat_lengthVersionMessage version hsize
  have hdecode := unserializeVersionMessage_serializeVersionMessage version
    rest (lt_of_le_of_lt hsize (by decide))
  rw [frame_eq, List.append_assoc, rawByteProcessing_header sha256 rfl]
  simp only [createHeaderMessage, HeaderMessage.createHeaderMessage,
    messageTypeDefinition, if_true, versionProcessing,
    readArray_header_length, readArray_header_checksum, sliceFrom_header,
    payloadBytes, ok_bind, u32FromLeBytes_u32ToLeBytes, hlength, hdecode,
    mapError_ok]
  simp [lenHeaderMessage, hsize]

/-- As long as the payload of a version frame has not arrived whole, the
parser asks for more bytes, provided the header has arrived. -/
theorem rawByteProcessing_partial_frame (version : VersionMessage)
    {payload : Bytes}
    (hsize : version.serializeVersionMessage.length ≤ maxSizePayload)
    (hincomplete : payload.length < version.serializeVersionMessage.length) :
    rawByteProcessing sha256
        ((createHeaderMessage sha256 (.version version)).serializeHeaderMessage ++
          payload) = .ok none := by
  have hlength := toNat_lengthVersionMessage version hsize
  rw [rawByteProcessing_header sha256 rfl]
  simp only [createHeaderMessage, HeaderMessage.createHeaderMessage,
    messageTypeDefinition, if_true, versionProcessing,
    readArray_header_length, readArray_header_checksum, ok_bind,
    u32FromLeBytes_u32ToLeBytes, hlength]
  simp [lenHeaderMessage, hincomplete]

/-- A verack frame is parsed from its header alone: the parser reports length
zero whatever follows the header. -/
theorem rawByteProcessing_verack_header (rest : Bytes) :
    rawByteProcessing sha256
        ((createHeaderMessage sha256 (.verack {})).serializeHeaderMessage ++
          rest) = .ok (some (.verack {}, 0)) := by
  have hcommand : messageTypeDefinition bytesVerack = .verackMessage := by
    decide
  rw [rawByteProcessing_header sha256 rfl]
  simp only [createHeaderMessage, HeaderMessage.createHeaderMessage, hcommand,
    verackProcessing, readArray_header_length, readArray_header_checksum,
    ok_bind, VerackMessage.unserializeVerackMessage]
  simp [lenHeaderMessage]

/-- A buffer too short for the magic bytes makes the parser panic. -/
theorem rawByteProcessing_short {buffer : Bytes} (hshort : buffer.length < 4) :
    rawByteProcessing sha256 buffer = .error .panic := by
  have hread : readArray 4 (ErrorParsing.conversionError {}) buffer 0 =
      .error .panic := readArray_eq_panic (by omega)
  simp [rawByteProcessing, hread]

/-- No frame starts with a zero byte: the parser panics or returns an error. -/
theorem rawByteProcessing_zero (rest : Bytes) :
    ∃ reason, rawByteProcessing sha256 (0 :: rest) = .error reason := by
  match rest with
  | [] | [_] | [_, _] =>
      exact ⟨.panic, rawByteProcessing_short sha256 (by simp)⟩
  | second :: third :: fourth :: rest =>
      let head : ByteArr 4 := ⟨[0, second, third, fourth], rfl⟩
      have hread : readArray 4 (ErrorParsing.conversionError {})
          (0 :: second :: third :: fourth :: rest) 0 = .ok head :=
        readArray_front head
      have hmagic : u32FromLeBytes head ≠ magicBytes := by
        intro heq
        have hvalue := congrArg UInt32.toNat heq
        simp [u32FromLeBytes, head, fromLittleEndian, magicBytes] at hvalue
        omega
      refine ⟨.error .invalidMagicBytes, ?_⟩
      simp [rawByteProcessing, hread, hmagic, fail]

/-! ## The reader's turn -/

/-- Delivering the message of a frame, with nothing left in the buffer. -/
def deliverTurn (message : MessagePayload) : ReadTurn :=
  .issue [] (.lowRawMessage message) fun delivered =>
    if delivered then .done [] .next
    else .done [] (.leave (.error .errorChannelPeerClosed))

/-- A read of exactly one version frame delivers its message. -/
theorem startTaskReadTurn_frame {version : VersionMessage}
    (hsize : version.serializeVersionMessage.length ≤ maxSizePayload) :
    startTaskReadTurn sha256
      (.resultRead (.ok (frame sha256 (.version version)))) [] =
        deliverTurn (.version version) := by
  have hparse := rawByteProcessing_version_frame sha256 version [] hsize
  rw [List.append_nil] at hparse
  have hlength : (frame sha256 (.version version)).length =
      lenHeaderMessage + version.serializeVersionMessage.length := by
    simp [frame_eq, payloadBytes, lenHeaderMessage]
  have hnonempty : frame sha256 (.version version) ≠ [] := by
    apply List.ne_nil_of_length_pos
    rw [hlength, lenHeaderMessage]
    omega
  have hdrained := List.drop_eq_nil_of_le hlength.le
  rw [← List.nil_append (frame _ _)] at hparse hlength hdrained
  rw [startTaskReadTurn_of_some sha256 hnonempty hparse hlength.ge hdrained,
    deliverTurn]

/-! ## Streams -/

/-- A message whose payload the reader accepts: a verack message, or a version
message of at most `MAX_SIZE_PAYLOAD` bytes. -/
def Sendable (message : MessagePayload) : Prop :=
  ∀ version, message = .version version →
    version.serializeVersionMessage.length ≤ maxSizePayload

theorem decodeFrames_version_frame (version : VersionMessage) (rest : Bytes)
    (hsize : version.serializeVersionMessage.length ≤ maxSizePayload) :
    decodeFrames sha256 (frame sha256 (.version version) ++ rest) =
      (.version version :: (decodeFrames sha256 rest).1,
        (decodeFrames sha256 rest).2) := by
  apply decodeFrames_append ?_
    (rawByteProcessing_version_frame sha256 version rest hsize)
  simp [frame_eq, payloadBytes, lenHeaderMessage]

/-- Behind a verack frame's header its payload byte is left, and decoding
stops there with the fault of the parser. -/
theorem decodeFrames_verack_frame {rest : Bytes} {reason : Fault ErrorParsing}
    (hfault : rawByteProcessing sha256 (0 :: rest) = .error reason) :
    decodeFrames sha256 (frame sha256 (.verack {}) ++ rest) =
      ([.verack {}], .fault reason) := by
  have hstop := decodeFrames_of_error (List.cons_ne_nil 0 rest) hfault
  have hframe : frame sha256 (.verack {}) ++ rest =
      (createHeaderMessage sha256 (.verack {})).serializeHeaderMessage ++
        (0 :: rest) := by
    simp [frame_eq, payloadBytes, VerackMessage.serializeVerackMessage]
  rw [hframe, decodeFrames_append (by simp [lenHeaderMessage])
    (rawByteProcessing_verack_header sha256 (0 :: rest)), hstop]

/-- The stream of a list of messages is read back as exactly that list, with
an empty buffer at the end, if and only if there is no verack in the list. -/
theorem decodeFrames_stream_iff (messages : List MessagePayload)
    (hsendable : ∀ message ∈ messages, Sendable message) :
    decodeFrames sha256 (stream sha256 messages) = (messages, .empty) ↔
      ∀ verack, .verack verack ∉ messages := by
  induction messages with
  | nil => simp
  | cons message messages ih =>
      have htail := ih fun other hother =>
        hsendable other (List.mem_cons_of_mem _ hother)
      cases message with
      | version version =>
          have hsize := hsendable _ List.mem_cons_self version rfl
          rw [stream_cons, decodeFrames_version_frame sha256 version _ hsize]
          simp only [List.cons.injEq, true_and, List.mem_cons, reduceCtorEq,
            false_or, ← htail, Prod.ext_iff]
      | verack verack =>
          obtain ⟨reason, hfault⟩ :=
            rawByteProcessing_zero sha256 (stream sha256 messages)
          rw [stream_cons, decodeFrames_verack_frame sha256 hfault]
          constructor
          · intro heq
            simp at heq
          · intro hnone
            exact absurd List.mem_cons_self (hnone verack)

/-- A digest for concrete runs. -/
def zeroDigest : Bytes → ByteArr 32 := fun _ => ⟨List.replicate 32 0, rfl⟩

/-- A version message with every field at its smallest value. -/
def plainVersion : VersionMessage where
  version := 0
  services := 0
  timestamp := 0
  netAddrTo := ⟨0, ⟨List.replicate 16 0, rfl⟩, 0⟩
  netAddrFrom := ⟨0, ⟨List.replicate 16 0, rfl⟩, 0⟩
  nonce := 0
  userAgent := ⟨""⟩
  startHeight := 0
  relay := false

theorem sendable_plainVersion : Sendable (.version plainVersion) := by
  intro version heq
  cases heq
  rw [length_serializeVersionMessage, length_serializeUseragent]
  decide

/-- The frame of `plainVersion`. -/
def plainFrame : Bytes := frame zeroDigest (.version plainVersion)

theorem length_plainFrame : plainFrame.length = 117 := by
  rw [plainFrame, frame_eq, payloadBytes, List.length_append,
    HeaderMessage.length_serializeHeaderMessage]
  rfl

theorem decodeFrames_stream_plainVersion :
    decodeFrames zeroDigest
        (stream zeroDigest [.version plainVersion, .version plainVersion]) =
      ([.version plainVersion, .version plainVersion], .empty) :=
  (decodeFrames_stream_iff zeroDigest _ (by simp [sendable_plainVersion])).mpr
    (by simp)

/-- One verack frame is enough: its payload byte makes the parser panic. -/
theorem decodeFrames_stream_verack :
    (∀ message ∈ [MessagePayload.verack {}], Sendable message) ∧
      decodeFrames zeroDigest (stream zeroDigest [.verack {}]) =
        ([.verack {}], .fault .panic) ∧
      decodeFrames zeroDigest (stream zeroDigest [.verack {}]) ≠
        ([.verack {}], .empty) := by
  have hrun : decodeFrames zeroDigest (stream zeroDigest [.verack {}]) =
      ([.verack {}], .fault .panic) :=
    decodeFrames_verack_frame zeroDigest
      (rawByteProcessing_short zeroDigest (by simp))
  refine ⟨?_, hrun, ?_⟩
  · intro message hmessage version heq
    simp [heq] at hmessage
  · rw [hrun]
    simp

end P2PNetwork.Framing
