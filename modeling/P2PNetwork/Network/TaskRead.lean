import P2PNetwork.Core.EventLoop
import P2PNetwork.Network.Events

/-!
# The reader

`raw_byte_processing` looks for one frame at the front of the receive buffer.
Every slice of it is a checked one, so the model panics exactly where the
code does.  `start_task_read` collects the bytes of the socket in the buffer
and hands the parsed messages to the peer.
-/

namespace P2PNetwork.TaskRead

open P2PNetwork.ByteAccess
open P2PNetwork.Endian
open P2PNetwork.Events
open P2PNetwork.Handler
open P2PNetwork.Wire

inductive ErrorParsing where
  | conversionError (reason : TryFromSliceError)
  | invalidMagicBytes
  | invalidCommand
  | largePayloadSize
  | invalidCheckSum
  | errorLowLevelParsing (reason : ErrorLowLevelParsing)
  deriving DecidableEq

inductive TypeCommandMessage where
  | versionMessage
  | verackMessage
  | uncertainMessage
  deriving DecidableEq

def lenHeaderMessage : ℕ := 24

def maxSizePayload : ℕ := 4 <<< 20

def messageTypeDefinition (command : ByteArr 12) : TypeCommandMessage :=
  if command = bytesVersion then .versionMessage
  else if command = bytesVerack then .verackMessage
  else .uncertainMessage

section Parser

variable (sha256 : Bytes → ByteArr 32)

/-- The branch of a `version` frame, from the length field on. -/
def versionProcessing (storageBuffer : Bytes) :
    Fallible ErrorParsing (Option (MessagePayload × ℕ)) := do
  let bytesLength ← readArray 4 (.conversionError {}) storageBuffer 16
  let checksum ← readArray 4 (.conversionError {}) storageBuffer 20
  if storageBuffer.length <
      lenHeaderMessage + (u32FromLeBytes bytesLength).toNat then
    return none
  else
    -- The payload decoder is given everything behind the header, not only the
    -- announced number of bytes.
    let payload ← sliceFrom storageBuffer 24
    let (versionMessage, lengthMessage) ← mapError .errorLowLevelParsing
      (VersionMessage.unserializeVersionMessage payload)
    if lengthMessage > maxSizePayload then fail .largePayloadSize
    else if checksum ≠
        checksumCalculate sha256 versionMessage.serializeVersionMessage then
      fail .invalidCheckSum
    else return some (.version versionMessage, lengthMessage)

/-- The branch of a `verack` frame, from the length field on; the length it
reads is not used. -/
def verackProcessing (storageBuffer : Bytes) :
    Fallible ErrorParsing (Option (MessagePayload × ℕ)) := do
  let _bytesLength ← readArray 4 (.conversionError {}) storageBuffer 16
  let checksum ← readArray 4 (.conversionError {}) storageBuffer 20
  if storageBuffer.length < lenHeaderMessage + 0 then return none
  else
    let (verackMessage, lengthMessage) := VerackMessage.unserializeVerackMessage
    if lengthMessage > maxSizePayload then fail .largePayloadSize
    else if checksum ≠
        checksumCalculate sha256 [verackMessage.serializeVerackMessage] then
      fail .invalidCheckSum
    else return some (.verack verackMessage, lengthMessage)

def rawByteProcessing (storageBuffer : Bytes) :
    Fallible ErrorParsing (Option (MessagePayload × ℕ)) :=
  -- The source's guard: no length is below zero.
  if storageBuffer.length < 0 then .ok none
  else do
    let bytesMagicBytes ← readArray 4 (.conversionError {}) storageBuffer 0
    if u32FromLeBytes bytesMagicBytes ≠ magicBytes then fail .invalidMagicBytes
    else
      let command ← readArray 12 (.conversionError {}) storageBuffer 4
      match messageTypeDefinition command with
      | .versionMessage => versionProcessing sha256 storageBuffer
      | .verackMessage => verackProcessing sha256 storageBuffer
      | .uncertainMessage => fail .invalidCommand

/-! ## The event loop -/

inductive ErrorTaskRead where
  | errorInputOutput (reason : IoError)
  | errorChannelPeerClosed
  | errorParsing (reason : ErrorParsing)
  deriving DecidableEq

inductive SuccessTaskRead where
  | successful
  | successfulEOF
  deriving DecidableEq

abbrev ResultTaskRead := Except ErrorTaskRead SuccessTaskRead

/-- Size of `temporary_buffer`, which bounds what one read yields. -/
def temporaryBufferSize : ℕ := 4096

/-- What `select!` finds ready: the answer of a read of the socket, or the
peer's command channel. -/
inductive ReadInput where
  | resultRead (result : Except IoError Bytes)
  | incidentPeer (incident : Option EventsPeer)

/-- A turn, or the rest of one, of `start_task_read`. -/
abbrev ReadTurn := Await Bytes EventsTaskRead Bool (Flow ResultTaskRead)

/-- A turn of `start_task_read`; its state is `storage_buffer`. -/
def startTaskReadTurn : ReadInput → Bytes → ReadTurn
  | .resultRead (.error reason), storageBuffer =>
      .done storageBuffer (.leave (.error (.errorInputOutput reason)))
  | .resultRead (.ok []), storageBuffer =>
      .done storageBuffer (.leave (.ok .successfulEOF))
  | .resultRead (.ok temporaryBuffer), storageBuffer =>
      let storageBuffer := storageBuffer ++ temporaryBuffer
      -- Every arm of the inner loop leaves it, so its body runs once.
      match rawByteProcessing sha256 storageBuffer with
      | .ok (some (message, length)) =>
          if lenHeaderMessage + length ≤ storageBuffer.length then
            let storageBuffer := storageBuffer.drop (lenHeaderMessage + length)
            .issue storageBuffer (.lowRawMessage message) fun delivered =>
              if delivered then .done storageBuffer .next
              else .done storageBuffer (.leave (.error .errorChannelPeerClosed))
          else .done storageBuffer .panicked
      | .ok none => .done storageBuffer .next
      | .error .panic => .done storageBuffer .panicked
      | .error (.error reason) =>
          .done storageBuffer (.leave (.error (.errorParsing reason)))
  | .incidentPeer (some .shutdown), storageBuffer =>
      .done storageBuffer (.leave (.ok .successful))
  | .incidentPeer (some _), storageBuffer => .done storageBuffer .next
  | .incidentPeer none, storageBuffer =>
      .done storageBuffer (.leave (.error .errorChannelPeerClosed))

/-- A read behind which the parser waits for more. -/
theorem startTaskReadTurn_of_none {storageBuffer read : Bytes}
    (hread : read ≠ [])
    (hwait : rawByteProcessing sha256 (storageBuffer ++ read) = .ok none) :
    startTaskReadTurn sha256 (.resultRead (.ok read)) storageBuffer =
      .done (storageBuffer ++ read) .next := by
  obtain ⟨byte, bytes, rfl⟩ := List.exists_cons_of_ne_nil hread
  simp only [startTaskReadTurn, hwait]

/-- A read behind which a frame stands at the front. -/
theorem startTaskReadTurn_of_some {storageBuffer read remaining : Bytes}
    {message : MessagePayload} {length : ℕ} (hread : read ≠ [])
    (hparse : rawByteProcessing sha256 (storageBuffer ++ read) =
      .ok (some (message, length)))
    (hlength : lenHeaderMessage + length ≤ (storageBuffer ++ read).length)
    (hremaining : (storageBuffer ++ read).drop (lenHeaderMessage + length) =
      remaining) :
    startTaskReadTurn sha256 (.resultRead (.ok read)) storageBuffer =
      .issue remaining (.lowRawMessage message) fun delivered =>
        if delivered then .done remaining .next
        else .done remaining (.leave (.error .errorChannelPeerClosed)) := by
  obtain ⟨byte, bytes, rfl⟩ := List.exists_cons_of_ne_nil hread
  simp only [startTaskReadTurn, hparse, hlength, if_true, hremaining]

/-- A turn delivers at most one message. -/
theorem startTaskReadTurn_singleSend (input : ReadInput)
    (storageBuffer : Bytes) :
    (startTaskReadTurn sha256 input storageBuffer).SingleSend := by
  unfold startTaskReadTurn
  split
  case h_3 =>
    simp only
    split
    case h_1 =>
      split
      case isTrue =>
        intro delivered
        cases delivered <;> exact ⟨_, _, rfl⟩
      case isFalse => trivial
    all_goals trivial
  all_goals trivial

/-- The end of a read completes a message, which the turn delivers. -/
theorem startTaskReadTurn_of_issue {input : ReadInput}
    {storageBuffer remaining : Bytes} {event : EventsTaskRead}
    {resume : Bool → ReadTurn}
    (hissue : startTaskReadTurn sha256 input storageBuffer =
      .issue remaining event resume) :
    ∃ read message length, input = .resultRead (.ok read) ∧
      rawByteProcessing sha256 (storageBuffer ++ read) =
        .ok (some (message, length)) := by
  unfold startTaskReadTurn at hissue
  split at hissue
  case h_3 read _ =>
    simp only at hissue
    split at hissue
    case h_1 message length hparse => exact ⟨_, message, length, rfl, hparse⟩
    all_goals simp at hissue
  all_goals simp at hissue

/-- How the reader's task ends. -/
inductive TaskEnd (ρ : Type) where
  | returned (result : ρ)
  | panicked
  deriving DecidableEq

/-- The run of the reader over the given answers of the socket, with the
peer's channel open and no command from the peer: the messages delivered, and
the end of the task unless it still waits for the socket. -/
def startTaskRead (storageBuffer : Bytes) :
    List (Except IoError Bytes) →
      List EventsTaskRead × Option (TaskEnd ResultTaskRead)
  | [] => ([], none)
  | read :: reads =>
      match (startTaskReadTurn sha256 (.resultRead read)
          storageBuffer).runWith fun _ => true with
      | (sent, storageBuffer, .next) =>
          let rest := startTaskRead storageBuffer reads
          (sent ++ rest.1, rest.2)
      | (sent, _, .leave result) => (sent, some (.returned result))
      | (sent, _, .panicked) => (sent, some .panicked)

/-! ## Reading frames off a buffer -/

/-- Why the repeated application of the parser to a buffer stopped. -/
inductive DecodeEnd where
  | empty
  | incomplete
  | fault (reason : Fault ErrorParsing)
  deriving DecidableEq

/-- Apply the parser to the remaining buffer and drain
`LEN_HEADER_MESSAGE + length` bytes after each message, until the buffer is
empty or the parser yields no message. -/
def decodeFrames (buffer : Bytes) : List MessagePayload × DecodeEnd :=
  if _hempty : buffer = [] then ([], .empty)
  else
    match rawByteProcessing sha256 buffer with
    | .error reason => ([], .fault reason)
    | .ok none => ([], .incomplete)
    | .ok (some (message, length)) =>
        if lenHeaderMessage + length ≤ buffer.length then
          let rest := decodeFrames (buffer.drop (lenHeaderMessage + length))
          (message :: rest.1, rest.2)
        else ([], .fault .panic)
termination_by buffer.length
decreasing_by
  have hpos := List.length_pos_of_ne_nil _hempty
  simp only [List.length_drop, lenHeaderMessage]
  omega

variable {sha256}

@[simp]
theorem decodeFrames_nil : decodeFrames sha256 [] = ([], .empty) := by
  rw [decodeFrames, dif_pos rfl]

theorem decodeFrames_of_error {buffer : Bytes} {reason : Fault ErrorParsing}
    (hempty : buffer ≠ [])
    (hresult : rawByteProcessing sha256 buffer = .error reason) :
    decodeFrames sha256 buffer = ([], .fault reason) := by
  rw [decodeFrames, dif_neg hempty, hresult]

/-- A message at the front of the buffer is decoded first, and decoding goes
on behind it. -/
theorem decodeFrames_append {front rest : Bytes} {message : MessagePayload}
    {length : ℕ} (hlength : front.length = lenHeaderMessage + length)
    (hresult : rawByteProcessing sha256 (front ++ rest) =
      .ok (some (message, length))) :
    decodeFrames sha256 (front ++ rest) =
      (message :: (decodeFrames sha256 rest).1, (decodeFrames sha256 rest).2) := by
  have hempty : front ++ rest ≠ [] := by
    intro hnil
    have := congrArg List.length hnil
    simp [hlength, lenHeaderMessage] at this
  rw [decodeFrames, dif_neg hempty, hresult]
  simp [← hlength]

end Parser

end P2PNetwork.TaskRead
