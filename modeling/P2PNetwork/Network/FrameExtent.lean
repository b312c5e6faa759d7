import P2PNetwork.Network.FrameParser
import P2PNetwork.Network.VersionLayout

/-!
# Where a frame ends

A version message is read back from its frame with nothing left over.  In
general the reader drains what the payload decoder took, and the length that
the header declares only says how long to wait: the two agree for the frames
that declare what their own payload takes.
-/

namespace P2PNetwork.FrameExtent

open P2PNetwork.ByteAccess
open P2PNetwork.FrameParser
open P2PNetwork.Framing
open P2PNetwork.TaskRead
open P2PNetwork.TaskWrite
open P2PNetwork.Wire
open P2PNetwork.WireRoundTrip

/-! ## Round trip -/

/-- `isize::MAX`: no slice and no `Vec` has more bytes. -/
def isizeMax : ℕ := 2 ^ 63 - 1

/-- The bytes of any version message are decoded to it, whatever follows them,
and a frame made of them is parsed to it and drained exactly. -/
theorem version_roundtrip (sha256 : Bytes → ByteArr 32)
    (message : VersionMessage) (rest : Bytes) :
    (message.serializeVersionMessage.length ≤ isizeMax →
      VersionMessage.unserializeVersionMessage
          (message.serializeVersionMessage ++ rest) =
        .ok (message, message.serializeVersionMessage.length)) ∧
      ∀ buffer, buffer = (createHeaderMessage sha256
            (.version message)).serializeHeaderMessage ++
          (message.serializeVersionMessage ++ rest) →
        message.serializeVersionMessage.length ≤ maxSizePayload →
          rawByteProcessing sha256 buffer = .ok (some
            (.version message, message.serializeVersionMessage.length)) ∧
          buffer.drop
            (lenHeaderMessage + message.serializeVersionMessage.length) =
              rest := by
  constructor
  · intro hvec
    apply unserializeVersionMessage_serializeVersionMessage
    rw [isizeMax] at hvec
    omega
  · rintro buffer rfl hpayload
    have hparse := rawByteProcessing_version_frame sha256 message rest hpayload
    rw [frame_eq, List.append_assoc] at hparse
    refine ⟨hparse, ?_⟩
    rw [← List.append_assoc, List.drop_left']
    simp [lenHeaderMessage]

theorem version_roundtrip_plainVersion :
    VersionMessage.unserializeVersionMessage
        (plainVersion.serializeVersionMessage ++ [7]) =
        .ok (plainVersion, 93) ∧
      rawByteProcessing zeroDigest (plainFrame ++ [7]) =
        .ok (some (.version plainVersion, 93)) := by
  have hroundtrip := version_roundtrip zeroDigest plainVersion [7]
  have hbuffer : plainFrame ++ [7] = (createHeaderMessage zeroDigest
      (.version plainVersion)).serializeHeaderMessage ++
        (plainVersion.serializeVersionMessage ++ [7]) := by
    rw [plainFrame, frame_eq, List.append_assoc]
    rfl
  exact ⟨hroundtrip.1 (by decide), (hroundtrip.2 _ hbuffer (by decide)).1⟩

/-! ## Declared and consumed length -/

/-- The header declares as many bytes as its payload takes. -/
inductive DeclaresExtent (header : HeaderMessage) (payload : Bytes) : Prop where
  | version (hcommand : header.command = bytesVersion)
      (hlength : header.length.toNat = 93 + userAgentLength payload)
  | verack (hcommand : header.command = bytesVerack)
      (hlength : header.length = 0)

/-- A frame of `length` payload bytes is drained up to the end of the payload
that its header declares. -/
structure DrainsDeclared (header : HeaderMessage) (payload : Bytes)
    (length : ℕ) : Prop where
  extent : length = header.length.toNat
  drained : (header.serializeHeaderMessage ++ payload).take
      (lenHeaderMessage + length) =
    header.serializeHeaderMessage ++ payload.take header.length.toNat

theorem drainsDeclared_iff {header : HeaderMessage} {payload : Bytes}
    {length : ℕ} :
    DrainsDeclared header payload length ↔ length = header.length.toNat := by
  constructor
  · exact DrainsDeclared.extent
  · rintro rfl
    refine ⟨rfl, ?_⟩
    have hheader : header.serializeHeaderMessage.length = lenHeaderMessage := by
      simp [lenHeaderMessage]
    rw [← hheader, List.take_length_add_append]

variable {sha256 : Bytes → ByteArr 32} {buffer : Bytes}
  {message : MessagePayload} {length : ℕ}

/-- An accepted frame ends where its header says exactly when the header
declares what the payload takes by its own fields. -/
theorem drainsDeclared_iff_declaresExtent
    (hparse : rawByteProcessing sha256 buffer =
      .ok (some (message, length))) :
    ∃ header : HeaderMessage, ∃ payload,
      buffer = header.serializeHeaderMessage ++ payload ∧
        (DrainsDeclared header payload length ↔
          DeclaresExtent header payload) := by
  cases rawByteProcessing_some_iff.mp hparse with
  | @version header payload version length harrived hdecode =>
      refine ⟨header, payload, harrived.eq, ?_⟩
      rw [drainsDeclared_iff, (length_unserializeVersionMessage hdecode).1]
      constructor
      · exact fun hlength => .version harrived.command hlength.symm
      · intro hdeclares
        cases hdeclares with
        | version hcommand hlength => exact hlength.symm
        | verack hcommand =>
            rw [harrived.command] at hcommand
            exact absurd hcommand (by decide)
  | @verack header payload heq hmagic hcommand =>
      refine ⟨header, payload, heq, ?_⟩
      rw [drainsDeclared_iff]
      constructor
      · intro hlength
        exact .verack hcommand (UInt32.toNat_inj.mp hlength.symm)
      · intro hdeclares
        cases hdeclares with
        | version hversion =>
            rw [hcommand] at hversion
            exact absurd hversion (by decide)
        | verack _ hlength =>
            rw [hlength]
            rfl

theorem drainsDeclared_iff_plainFrame :
    ∃ header : HeaderMessage, ∃ payload,
      plainFrame = header.serializeHeaderMessage ++ payload ∧
        (DrainsDeclared header payload 93 ↔
          DeclaresExtent header payload) := by
  have hparse := rawByteProcessing_version_frame zeroDigest plainVersion []
    (by decide)
  rw [List.append_nil, ← plainFrame] at hparse
  exact drainsDeclared_iff_declaresExtent hparse

/-- A version frame that declares length 0 and is drained for 93 bytes, and a
verack frame that declares length 5 and is drained for none. -/
theorem drained_ne_declared :
    (∃ header : HeaderMessage, header.length = 0 ∧
      rawByteProcessing zeroDigest (header.serializeHeaderMessage ++
          plainVersion.serializeVersionMessage) =
        .ok (some (.version plainVersion, 93))) ∧
      ∃ header : HeaderMessage, header.length = 5 ∧
        rawByteProcessing zeroDigest (header.serializeHeaderMessage ++
            List.replicate 5 0) =
          .ok (some (.verack {}, 0)) := by
  constructor
  · refine ⟨.createHeaderMessage bytesVersion 0 ⟨[0, 0, 0, 0], rfl⟩, rfl, ?_⟩
    have hdecode := unserializeVersionMessage_serializeVersionMessage
      plainVersion [] (by decide)
    rw [List.append_nil] at hdecode
    rw [rawByteProcessing_version rfl rfl, hdecode]
    rfl
  · refine ⟨.createHeaderMessage bytesVerack 5 ⟨[0, 0, 0, 0], rfl⟩, rfl, ?_⟩
    rw [rawByteProcessing_verack rfl rfl]
    rfl

end P2PNetwork.FrameExtent
