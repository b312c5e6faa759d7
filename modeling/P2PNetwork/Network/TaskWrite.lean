import P2PNetwork.Core.Handler
import P2PNetwork.Network.Events

/-!
# The writer's frames

`start_task_write` answers every message of its channel with two writes to the
socket: the serialized header that `create_header_message` builds, then the
payload bytes.
-/

namespace P2PNetwork.TaskWrite

open P2PNetwork.ByteAccess
open P2PNetwork.Events
open P2PNetwork.Handler
open P2PNetwork.Wire

inductive ErrorTaskWrite where
  | errorInputOutput (reason : IoError)
  | errorChannelPeerClosed
  deriving DecidableEq

inductive SuccessTaskWrite where
  | successful
  deriving DecidableEq

abbrev ResultTaskWrite := Except ErrorTaskWrite SuccessTaskWrite

/-- A turn, or the rest of one, of `start_task_write`.  Its operations are the
writes to the socket. -/
abbrev WriteTurn :=
  Await Unit Bytes (Except IoError Unit) (Flow ResultTaskWrite)

section Frames

variable (sha256 : Bytes → ByteArr 32)

def createHeaderMessage : MessagePayload → HeaderMessage
  | .version version =>
      HeaderMessage.createHeaderMessage bytesVersion
        version.lengthVersionMessage
        (checksumCalculate sha256 version.serializeVersionMessage)
  | .verack verack =>
      HeaderMessage.createHeaderMessage bytesVerack
        verack.lengthVerackMessage
        (checksumCalculate sha256 [verack.serializeVerackMessage])

/-- The bytes of the second write. -/
def payloadBytes : MessagePayload → Bytes
  | .version version => version.serializeVersionMessage
  | .verack verack => [verack.serializeVerackMessage]

/-- What `start_task_write` puts on the socket for one message, write by
write. -/
def frameWrites (message : MessagePayload) : List Bytes :=
  [(createHeaderMessage sha256 message).serializeHeaderMessage,
    payloadBytes message]

def frame (message : MessagePayload) : Bytes :=
  (frameWrites sha256 message).flatten

/-- `write_all` of one piece after the other, up to the first that fails. -/
def writeAll : List Bytes → WriteTurn
  | [] => .done () .next
  | piece :: pieces => .issue () piece fun
      | .ok _ => writeAll pieces
      | .error reason => .done () (.leave (.error (.errorInputOutput reason)))

/-- A turn of `start_task_write`, given what the channel yields. -/
def startTaskWriteTurn : Option EventsPeer → WriteTurn
  | some (.lowLevelMessage message) => writeAll (frameWrites sha256 message)
  | some .shutdown => .done () (.leave (.ok .successful))
  | some _ => .done () .next
  | none => .done () (.leave (.error .errorChannelPeerClosed))

/-- The bytes of a whole sequence of messages. -/
def stream (messages : List MessagePayload) : Bytes :=
  messages.flatMap (frame sha256)

theorem frame_eq (message : MessagePayload) :
    frame sha256 message =
      (createHeaderMessage sha256 message).serializeHeaderMessage ++
        payloadBytes message := by
  simp [frame, frameWrites]

@[simp]
theorem stream_nil : stream sha256 [] = [] := rfl

@[simp]
theorem stream_cons (message : MessagePayload) (messages : List MessagePayload) :
    stream sha256 (message :: messages) =
      frame sha256 message ++ stream sha256 messages := rfl

end Frames

end P2PNetwork.TaskWrite
