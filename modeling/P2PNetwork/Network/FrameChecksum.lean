import P2PNetwork.Network.FrameExtent

/-!
# What the checksum is compared with

The parser recomputes the checksum from the message it has read and not from
the bytes it has received.  For an arbitrary digest the two agree exactly on
the frames whose payload is what the serializer writes.
-/

namespace P2PNetwork.FrameChecksum

open P2PNetwork.ByteAccess
open P2PNetwork.FrameParser
open P2PNetwork.Framing
open P2PNetwork.TaskRead
open P2PNetwork.VersionLayout
open P2PNetwork.Wire

/-! ## Digests that tell two inputs apart -/

/-- A digest other than two given inputs. -/
theorem exists_ne_ne (left right : Bytes) :
    ∃ digest : ByteArr 32, digest.toList ≠ left ∧ digest.toList ≠ right := by
  have hcard : ({left.head?, right.head?} : Finset (Option UInt8)).card <
      ({some 0, some 1, some 2} : Finset (Option UInt8)).card :=
    lt_of_le_of_lt Finset.card_le_two (by decide)
  obtain ⟨head, hhead, hnot⟩ := Finset.exists_mem_notMem_of_card_lt_card hcard
  obtain ⟨byte, rfl⟩ : ∃ byte, head = some byte := by
    apply Option.ne_none_iff_exists'.mp
    rintro rfl
    simp at hhead
  simp only [Finset.mem_insert, Finset.mem_singleton, not_or] at hnot
  refine ⟨⟨List.replicate 32 byte, List.length_replicate⟩, ?_, ?_⟩
  · rintro rfl
    exact hnot.1 rfl
  · rintro rfl
    exact hnot.2 rfl

/-- The digest whose first bytes are the given checksum. -/
def digestOf (checksum : ByteArr 4) : ByteArr 32 :=
  ⟨checksum.toList ++ List.replicate 28 0, by simp⟩

theorem checksumCalculate_of_digest {sha256 : Bytes → ByteArr 32}
    {bytes : Bytes} {checksum : ByteArr 4}
    (hdigest : sha256 (sha256 bytes).toList = digestOf checksum) :
    checksumCalculate sha256 bytes = checksum := by
  apply List.Vector.eq
  calc
    _ = (sha256 (sha256 bytes).toList).toList.take 4 := rfl
    _ = checksum.toList := by
      rw [hdigest]
      simp [digestOf]

/-- Some digest gives the first input the checksum `target` and the second one
another. -/
theorem exists_digest (target : ByteArr 4) {left right : Bytes}
    (hne : right ≠ left) (hlength : left.length ≠ 32) :
    ∃ sha256 : Bytes → ByteArr 32,
      checksumCalculate sha256 left = target ∧
        checksumCalculate sha256 right ≠ target := by
  obtain ⟨other, hother⟩ : ∃ other : ByteArr 4, other ≠ target := by
    by_contra hall
    push Not at hall
    have heq := (hall (.replicate 4 0)).trans (hall (.replicate 4 1)).symm
    exact absurd (congrArg List.Vector.toList heq) (by decide)
  obtain ⟨middle, hright, hlast⟩ := exists_ne_ne right (digestOf other).toList
  have hdigest (digest : ByteArr 32) : digest.toList ≠ left := by
    rintro rfl
    exact hlength digest.toList_length
  -- `left` goes to `target` by way of `middle`, all other inputs to `other`.
  let sha256 (bytes : Bytes) : ByteArr 32 :=
    if bytes = left then middle
    else if bytes = middle.toList then digestOf target
    else digestOf other
  have hleft : sha256 (sha256 left).toList = digestOf target := by
    simp [sha256, hdigest middle]
  have hfar : sha256 (sha256 right).toList = digestOf other := by
    simp [sha256, hne, hright.symm, hdigest, hlast.symm]
  refine ⟨sha256, checksumCalculate_of_digest hleft, ?_⟩
  rw [checksumCalculate_of_digest hfar]
  exact hother

/-! ## The bytes behind the checksum -/

section Frames

variable {sha256 : Bytes → ByteArr 32} {header : HeaderMessage}
  {payload bytes : Bytes}

/-- The parser compares the header's checksum with the checksum of `bytes`. -/
inductive ComparedWith (header : HeaderMessage) (payload : Bytes) :
    Bytes → Prop where
  | version {message : VersionMessage} {length : ℕ}
      (hcommand : header.command = bytesVersion)
      (hwhole : header.length.toNat ≤ payload.length)
      (hdecode : VersionMessage.unserializeVersionMessage payload =
        .ok (message, length))
      (hsize : length ≤ maxSizePayload) :
      ComparedWith header payload message.serializeVersionMessage
  | verack (hcommand : header.command = bytesVerack) :
      ComparedWith header payload [0]

/-- The bytes that have arrived of the payload the header declares. -/
def receivedPayload (header : HeaderMessage) (payload : Bytes) : Bytes :=
  payload.take header.length.toNat

theorem ComparedWith.length_ne (hcompared : ComparedWith header payload bytes) :
    bytes.length ≠ 32 := by
  cases hcompared with
  | version =>
      rw [WireRoundTrip.length_serializeVersionMessage]
      omega
  | verack => simp

theorem ComparedWith.accepted (hmagic : header.magicBytes = Wire.magicBytes)
    (hcompared : ComparedWith header payload bytes)
    (hchecksum : header.checksum = checksumCalculate sha256 bytes) :
    ∃ message length,
      rawByteProcessing sha256 (header.serializeHeaderMessage ++ payload) =
        .ok (some (message, length)) := by
  cases hcompared with
  | @version message length hcommand hwhole hdecode hsize =>
      exact ⟨.version message, length, rawByteProcessing_some_iff.mpr
        (.version ⟨rfl, hmagic, hcommand, hwhole⟩ hdecode hsize hchecksum)⟩
  | verack hcommand =>
      exact ⟨.verack {}, 0, rawByteProcessing_some_iff.mpr
        (.verack rfl hmagic hcommand hchecksum)⟩

theorem ComparedWith.refused (hmagic : header.magicBytes = Wire.magicBytes)
    (hcompared : ComparedWith header payload bytes)
    (hchecksum : header.checksum ≠ checksumCalculate sha256 bytes) :
    rawByteProcessing sha256 (header.serializeHeaderMessage ++ payload) =
      fail .invalidCheckSum := by
  cases hcompared with
  | version hcommand hwhole hdecode hsize =>
      rw [rawByteProcessing_version hmagic hcommand, hdecode]
      simp [not_lt.mpr hwhole, not_lt.mpr hsize, hchecksum]
  | verack hcommand =>
      rw [rawByteProcessing_verack hmagic hcommand, if_neg hchecksum]

/-- What the parser answers after it has compared checksums. -/
def Verdict (answer : Fallible ErrorParsing (Option (MessagePayload × ℕ))) :
    Prop :=
  answer = fail .invalidCheckSum ∨
    ∃ message length, answer = .ok (some (message, length))

theorem exists_comparedWith (hverdict : Verdict (rawByteProcessing sha256
      (header.serializeHeaderMessage ++ payload))) :
    header.magicBytes = Wire.magicBytes ∧
      ∃ bytes, ComparedWith header payload bytes := by
  by_cases hmagic : header.magicBytes = Wire.magicBytes
  swap
  · rw [rawByteProcessing_of_not_magic (by simp; omega)
      ((startsMagic_header header payload).not.mpr hmagic)] at hverdict
    simp [Verdict, fail] at hverdict
  refine ⟨hmagic, ?_⟩
  obtain (hversion | hverack) | huncertain := known_or_uncertain header.command
  · rw [rawByteProcessing_version hmagic hversion] at hverdict
    split at hverdict
    case isTrue => simp [Verdict, fail] at hverdict
    case isFalse hwhole =>
      cases hdecode : VersionMessage.unserializeVersionMessage payload with
      | error fault =>
          rw [hdecode] at hverdict
          cases fault <;> simp [Verdict, mapError, fail, abort] at hverdict
      | ok decoded =>
          obtain ⟨message, length⟩ := decoded
          rw [hdecode] at hverdict
          simp only [mapError_ok, ok_bind] at hverdict
          split at hverdict
          case isTrue => simp [Verdict, fail] at hverdict
          case isFalse hsize =>
            exact ⟨_, .version hversion (not_lt.mp hwhole) hdecode
              (not_lt.mp hsize)⟩
  · exact ⟨[0], .verack hverack⟩
  · rw [rawByteProcessing_header sha256 hmagic, huncertain] at hverdict
    simp [Verdict, fail] at hverdict

end Frames

/-! ## Frames whose checksum protects them -/

/-- The payload behind the header parses, with `length` bytes taken. -/
inductive PayloadParses (header : HeaderMessage) (payload : Bytes) (length : ℕ) :
    Prop where
  | version (hcommand : header.command = bytesVersion) {message : VersionMessage}
      (hdecode : VersionMessage.unserializeVersionMessage payload =
        .ok (message, length))
  | verack (hcommand : header.command = bytesVerack)
      (hlength : length = VerackMessage.unserializeVerackMessage.2)

/-- Whatever the digest is, the frame is accepted only with the checksum of the
received payload, and is not refused for its checksum if that is the one it has
and the payload parses with the declared length. -/
structure ChecksumProtects (header : HeaderMessage) (payload : Bytes) :
    Prop where
  checked : ∀ sha256 message length,
    rawByteProcessing sha256 (header.serializeHeaderMessage ++ payload) =
        .ok (some (message, length)) →
      header.checksum =
        checksumCalculate sha256 (receivedPayload header payload)
  kept : ∀ sha256, PayloadParses header payload header.length.toNat →
    header.checksum =
        checksumCalculate sha256 (receivedPayload header payload) →
      rawByteProcessing sha256 (header.serializeHeaderMessage ++ payload) ≠
        fail .invalidCheckSum

/-- The declared payload of a version frame is one that the serializer writes,
and that of a verack frame is the zero byte that the verack's serializer
writes. -/
structure CanonicalPayload (header : HeaderMessage) (payload : Bytes) :
    Prop where
  version : header.command = bytesVersion →
    header.length.toNat ≤ payload.length → ∀ message length,
      VersionMessage.unserializeVersionMessage payload =
          .ok (message, length) → length ≤ maxSizePayload →
        header.length.toNat = 93 + userAgentLength payload ∧
          ∀ relay, payload[92 + userAgentLength payload]? = some relay →
            relay ≤ 1
  verack : header.command = bytesVerack → receivedPayload header payload = [0]

section Protects

variable {header : HeaderMessage} {payload : Bytes}

/-- What the serializer writes for a decoded message is what was received
exactly when the whole payload was declared and the relay byte is its own. -/
theorem take_eq_serializeVersionMessage_iff {message : VersionMessage}
    {length declared : ℕ} (hwhole : declared ≤ payload.length)
    (hdecode : VersionMessage.unserializeVersionMessage payload =
      .ok (message, length)) :
    payload.take declared = message.serializeVersionMessage ↔
      declared = 93 + userAgentLength payload ∧
        ∀ relay, payload[92 + userAgentLength payload]? = some relay →
          relay ≤ 1 := by
  obtain ⟨hextent, hbound⟩ := length_unserializeVersionMessage hdecode
  have hwritten : message.serializeVersionMessage.length = length := by
    obtain ⟨relay, rest, -, -, hlength⟩ := exists_relay hdecode
    rw [WireRoundTrip.serializeVersionMessage_eq, List.length_append, hlength,
      List.length_singleton]
  have hindex : 92 + userAgentLength payload = length - 1 := by omega
  obtain ⟨relay, hrelay⟩ : ∃ relay, payload[length - 1]? = some relay :=
    ⟨_, List.getElem?_eq_getElem (by omega)⟩
  have hcanonical := serializeVersionMessage_eq_take_iff hdecode hrelay
  have hone : (∀ other, payload[length - 1]? = some other → other ≤ 1) ↔
      relay ≤ 1 := by
    simp [hrelay]
  rw [hindex, hone, ← hextent, ← hcanonical]
  constructor
  · intro hreceived
    have hdeclared : declared = length := by
      rw [← hwritten, ← hreceived, List.length_take, min_eq_left hwhole]
    exact ⟨hdeclared, by rw [← hreceived, hdeclared]⟩
  · rintro ⟨rfl, hreceived⟩
    exact hreceived.symm

/-- The bytes compared are those received exactly on canonical payloads. -/
theorem canonicalPayload_iff :
    CanonicalPayload header payload ↔
      ∀ bytes, ComparedWith header payload bytes →
        receivedPayload header payload = bytes := by
  constructor
  · intro hcanonical bytes hcompared
    cases hcompared with
    | version hcommand hwhole hdecode hsize =>
        apply (take_eq_serializeVersionMessage_iff hwhole hdecode).mpr
        exact hcanonical.version hcommand hwhole _ _ hdecode hsize
    | verack hcommand => exact hcanonical.verack hcommand
  · intro hreceived
    constructor
    · intro hcommand hwhole message length hdecode hsize
      apply (take_eq_serializeVersionMessage_iff hwhole hdecode).mp
      exact hreceived _ (.version hcommand hwhole hdecode hsize)
    · exact fun hcommand => hreceived [0] (.verack hcommand)

/-- The checksum protects the bytes received exactly on the frames of the
network whose payload is canonical. -/
theorem checksumProtects_iff (header : HeaderMessage) (payload : Bytes) :
    ChecksumProtects header payload ↔
      (header.magicBytes = Wire.magicBytes →
        CanonicalPayload header payload) := by
  rw [canonicalPayload_iff]
  constructor
  · intro hprotects hmagic bytes hcompared
    by_contra hne
    obtain ⟨sha256, hchecksum, hother⟩ :=
      exists_digest header.checksum hne hcompared.length_ne
    obtain ⟨message, length, hparse⟩ := hcompared.accepted hmagic hchecksum.symm
    exact hother (hprotects.checked sha256 message length hparse).symm
  · intro hcanonical
    constructor
    · intro sha256 message length hparse
      obtain ⟨hmagic, bytes, hcompared⟩ :=
        exists_comparedWith (.inr ⟨message, length, hparse⟩)
      rw [hcanonical hmagic bytes hcompared]
      by_contra hchecksum
      rw [hcompared.refused hmagic hchecksum] at hparse
      cases hparse
    · intro sha256 _ hchecksum hrefused
      obtain ⟨hmagic, bytes, hcompared⟩ := exists_comparedWith (.inl hrefused)
      rw [hcanonical hmagic bytes hcompared] at hchecksum
      obtain ⟨message, length, hparse⟩ := hcompared.accepted hmagic hchecksum
      rw [hparse] at hrefused
      cases hrefused

end Protects

/-! ## Frames with a checksum of their own payload -/

/-- A digest that repeats the last byte. -/
def lastDigest (bytes : Bytes) : ByteArr 32 :=
  List.Vector.replicate 32 (bytes.getLastD 7)

/-- A version payload with the relay byte 2. -/
def relayTwo : Bytes := List.replicate 92 0 ++ [2]

def relayTwoHeader (checksum : ByteArr 4) : HeaderMessage :=
  HeaderMessage.createHeaderMessage bytesVersion 93 checksum

theorem comparedWith_relayTwo (checksum : ByteArr 4) :
    ComparedWith (relayTwoHeader checksum) relayTwo
      relayingVersion.serializeVersionMessage :=
  .version rfl (le_of_eq rfl)
    (unserializeVersionMessage_zeros (by decide : (2 : UInt8) ≠ 0)) (by decide)

theorem checksum_relayTwo_ne :
    checksumCalculate lastDigest relayTwo ≠
      checksumCalculate lastDigest relayingVersion.serializeVersionMessage := by
  intro heq
  exact absurd (congrArg List.Vector.toList heq) (by decide)

/-- A version frame whose relay byte is 2 is refused with the checksum of what
was received and accepted with another one, and a verack frame of length zero
is refused with the checksum of the empty payload. -/
theorem not_checksumProtects :
    ¬ChecksumProtects
        (relayTwoHeader (checksumCalculate lastDigest relayTwo)) relayTwo ∧
      rawByteProcessing lastDigest ((relayTwoHeader (checksumCalculate lastDigest
          relayTwo)).serializeHeaderMessage ++ relayTwo) =
        fail .invalidCheckSum ∧
      (∃ checksum message length,
        checksum ≠ checksumCalculate lastDigest relayTwo ∧
          rawByteProcessing lastDigest ((relayTwoHeader
              checksum).serializeHeaderMessage ++ relayTwo) =
            .ok (some (message, length))) ∧
      rawByteProcessing lastDigest ((HeaderMessage.createHeaderMessage
          bytesVerack 0
          (checksumCalculate lastDigest [])).serializeHeaderMessage ++ []) =
        fail .invalidCheckSum := by
  have hrefused := (comparedWith_relayTwo _).refused rfl checksum_relayTwo_ne
  refine ⟨fun hprotects => ?_, hrefused, ?_, ?_⟩
  · have hdecode := unserializeVersionMessage_zeros (by decide : (2 : UInt8) ≠ 0)
    exact hprotects.kept lastDigest (.version rfl hdecode) rfl hrefused
  · obtain ⟨message, length, hparse⟩ :=
      (comparedWith_relayTwo _).accepted rfl rfl
    exact ⟨_, message, length, checksum_relayTwo_ne.symm, hparse⟩
  · apply ComparedWith.refused rfl (.verack rfl)
    intro heq
    exact absurd (congrArg List.Vector.toList heq) (by decide)

end P2PNetwork.FrameChecksum
