import P2PNetwork.Network.Framing
import P2PNetwork.Network.VersionDecoder

/-!
# The payloads that decode

A payload is decoded to a version message exactly when it begins with the bytes
that the serializer writes for that message, except that any nonzero byte may
stand for a true `relay`.  The last section compares the decoders with ones that
return an error on every slice that is too short.
-/

namespace P2PNetwork.VersionLayout

open P2PNetwork.ByteAccess
open P2PNetwork.Endian
open P2PNetwork.Framing
open P2PNetwork.Wire
open P2PNetwork.WireRoundTrip

/-! ## Layout of the accepted payloads -/

section Layout

variable {bytes : Bytes} {message : VersionMessage} {length : ℕ}

/-- The bytes begin with those of the message, `relay` standing for its
relay flag. -/
structure BeginsWith (bytes : Bytes) (message : VersionMessage)
    (relay : UInt8) : Prop where
  flag : message.relay = (relay != 0)
  front : beforeRelay message ++ [relay] <+: bytes

/-- The decoder accepts the bytes of a message and nothing else. -/
theorem unserializeVersionMessage_ok_iff :
    VersionMessage.unserializeVersionMessage bytes = .ok (message, length) ↔
      message.userAgent.serializeUseragent.length < 2 ^ 64 ∧
        length = (beforeRelay message).length + 1 ∧
        ∃ relay, BeginsWith bytes message relay := by
  constructor
  · intro hdecode
    have houtcome := unserializeVersionMessage_outcome bytes
    rw [hdecode] at houtcome
    cases houtcome with
    | @message hfits message relay rest hbytes hrelay hlength =>
        have hagent := length_beforeRelay message
        have haddressable := hfits.addressable
        refine ⟨by omega, by omega, relay, hrelay, rest, ?_⟩
        rw [List.append_assoc, List.singleton_append]
        exact hbytes.symm
  · rintro ⟨hsize, rfl, relay, hrelay, rest, rfl⟩
    rw [List.append_assoc]
    exact unserializeVersionMessage_beforeRelay message hrelay rest hsize

theorem exists_relay
    (hdecode : VersionMessage.unserializeVersionMessage bytes =
      .ok (message, length)) :
    ∃ relay rest, message.relay = (relay != 0) ∧
      bytes = beforeRelay message ++ relay :: rest ∧
      length = (beforeRelay message).length + 1 := by
  obtain ⟨-, hlength, relay, hflag, rest, hbytes⟩ :=
    unserializeVersionMessage_ok_iff.mp hdecode
  refine ⟨relay, rest, hflag, ?_, hlength⟩
  rw [← hbytes, List.append_assoc, List.singleton_append]

/-- A byte stands for its own flag exactly when it is 0 or 1. -/
theorem toUInt8_bne_eq_self_iff (relay : UInt8) :
    (relay != 0).toUInt8 = relay ↔ relay ≤ 1 := by
  by_cases hzero : relay = 0
  · subst hzero
    decide
  · have hflag : (relay != 0) = true := bne_iff_ne.mpr hzero
    rw [hflag]
    simp only [Bool.toUInt8]
    grind

/-- A decoded message is written as the bytes it was read from exactly when
the relay byte is one that the serializer writes. -/
theorem serializeVersionMessage_eq_take_iff
    (hdecode : VersionMessage.unserializeVersionMessage bytes =
      .ok (message, length)) {relay : UInt8}
    (hrelay : bytes[length - 1]? = some relay) :
    message.serializeVersionMessage = bytes.take length ↔ relay ≤ 1 := by
  obtain ⟨byte, rest, hflag, rfl, rfl⟩ := exists_relay hdecode
  have hbyte : byte = relay := by simpa using hrelay
  subst hbyte
  have hpayload : (beforeRelay message ++ byte :: rest).take
      ((beforeRelay message).length + 1) = beforeRelay message ++ [byte] := by
    rw [List.take_length_add_append, List.take_one]
    rfl
  rw [serializeVersionMessage_eq, hflag, hpayload, List.append_cancel_left_eq,
    List.cons.injEq]
  simpa using toUInt8_bne_eq_self_iff byte

/-- Encoding undoes decoding except in the relay byte, for which any nonzero
byte is accepted and 1 is written; two payloads with the same message are the
same but for that byte. -/
theorem serializeVersionMessage_unserializeVersionMessage
    (hdecode : VersionMessage.unserializeVersionMessage bytes =
      .ok (message, length)) :
    ∃ relay, bytes[length - 1]? = some relay ∧
      message.serializeVersionMessage =
        bytes.take (length - 1) ++ [if relay = 0 then 0 else 1] ∧
      (message.serializeVersionMessage = bytes.take length ↔ relay ≤ 1) ∧
      ∀ other otherLength,
        VersionMessage.unserializeVersionMessage other =
            .ok (message, otherLength) →
          otherLength = length ∧
            other.take (length - 1) = bytes.take (length - 1) := by
  obtain ⟨relay, rest, hflag, rfl, rfl⟩ := exists_relay hdecode
  have hbyte : (beforeRelay message ++ relay :: rest)[
      (beforeRelay message).length + 1 - 1]? = some relay := by simp
  refine ⟨relay, hbyte, ?_,
    serializeVersionMessage_eq_take_iff hdecode hbyte, ?_⟩
  · have hwritten : (relay != 0).toUInt8 = if relay = 0 then 0 else 1 := by
      by_cases hzero : relay = 0 <;> simp [hzero, Bool.toUInt8]
    rw [serializeVersionMessage_eq, hflag, hwritten, Nat.add_sub_cancel,
      List.take_left]
  · intro other otherLength hother
    obtain ⟨otherRelay, otherRest, -, rfl, rfl⟩ := exists_relay hother
    rw [Nat.add_sub_cancel, List.take_left, List.take_left]
    exact ⟨rfl, rfl⟩

end Layout

/-- A version message that asks for relayed transactions, every other field at
its smallest value. -/
def relayingVersion : VersionMessage := { plainVersion with relay := true }

theorem beforeRelay_relayingVersion :
    beforeRelay relayingVersion = List.replicate 92 0 := rfl

theorem unserializeVersionMessage_zeros {relay : UInt8} (hrelay : relay ≠ 0) :
    VersionMessage.unserializeVersionMessage (List.replicate 92 0 ++ [relay]) =
      .ok (relayingVersion, 93) := by
  have hflag : relayingVersion.relay = (relay != 0) :=
    (bne_iff_ne.mpr hrelay).symm
  have hdecode := unserializeVersionMessage_beforeRelay relayingVersion hflag []
    (by decide)
  rwa [beforeRelay_relayingVersion] at hdecode

theorem serializeVersionMessage_unserializeVersionMessage_one :
    relayingVersion.serializeVersionMessage =
      List.replicate 92 0 ++ [1] := by
  have hdecode := unserializeVersionMessage_zeros (by decide : (1 : UInt8) ≠ 0)
  obtain ⟨relay, hbyte, hbytes, -⟩ :=
    serializeVersionMessage_unserializeVersionMessage hdecode
  have hrelay : relay = 1 := (Option.some.inj hbyte).symm
  rw [hbytes, hrelay]
  rfl

/-- The relay bytes 1 and 2 stand for the same message, and the second one is
not written back. -/
theorem serializeVersionMessage_relayTwo :
    VersionMessage.unserializeVersionMessage (List.replicate 92 0 ++ [2]) =
        .ok (relayingVersion, 93) ∧
      relayingVersion.serializeVersionMessage ≠
        (List.replicate 92 0 ++ [(2 : UInt8)]).take 93 ∧
      VersionMessage.unserializeVersionMessage (List.replicate 92 0 ++ [1]) =
        .ok (relayingVersion, 93) := by
  refine ⟨unserializeVersionMessage_zeros (by decide), ?_,
    unserializeVersionMessage_zeros (by decide)⟩
  rw [serializeVersionMessage_eq, beforeRelay_relayingVersion]
  decide

/-! ## Slices that are too short -/

section Totality

variable {α : Type}

/-- On these bytes the decoder returns a value or an error, the error being
`NotEnoughBytes` if they are too short, and what it consumes lies inside
them. -/
structure DecodesTotally
    (decode : Bytes → Fallible ErrorLowLevelParsing (α × ℕ))
    (tooShort : Bytes → Prop) (bytes : Bytes) : Prop where
  noPanic : decode bytes ≠ .error .panic
  notEnough : tooShort bytes → decode bytes = fail .notEnoughBytes
  inside : ∀ value length, decode bytes = .ok (value, length) →
    length ≤ bytes.length

/-- Fewer bytes than a user agent of the announced length takes. -/
def UseragentTooShort (bytes : Bytes) : Prop :=
  bytes.length < 8 + fromLittleEndian (bytes.take 8)

/-- Fewer bytes than the fields of a version message take, with a user agent
of the announced length. -/
def VersionTooShort (bytes : Bytes) : Prop :=
  bytes.length < 93 + userAgentLength bytes

/-- The user agent lies inside the bytes. -/
structure UseragentWhole (bytes : Bytes) : Prop where
  announced : 8 ≤ bytes.length
  addressable : 8 + fromLittleEndian (bytes.take 8) < 2 ^ 64
  data : 8 + fromLittleEndian (bytes.take 8) ≤ bytes.length

/-- All fields but the relay byte lie inside the bytes, and it is missing only
behind a user agent that is a text. -/
structure VersionWhole (bytes : Bytes) : Prop where
  addressable : 8 + userAgentLength bytes < 2 ^ 64
  startHeight : 92 + userAgentLength bytes ≤ bytes.length
  relay : bytes.length = 92 + userAgentLength bytes →
    ∃ text, fromUtf8 (userAgentBytes bytes) = .ok text

theorem unserializeUseragent_total_iff (bytes : Bytes) :
    DecodesTotally UserAgent.unserializeUseragent UseragentTooShort bytes ↔
      UseragentWhole bytes := by
  by_cases hannounced : 8 ≤ bytes.length
  swap
  · have hpanic : UserAgent.unserializeUseragent bytes = .error .panic := by
      rw [UserAgent.unserializeUseragent, readArray_eq_panic (by omega),
        error_bind]
    exact ⟨fun htotal => absurd hpanic htotal.noPanic,
      fun hwhole => absurd hwhole.announced hannounced⟩
  have hresult := unserializeUseragent_result hannounced
  constructor
  · intro htotal
    have hpanic := htotal.noPanic
    generalize UserAgent.unserializeUseragent bytes = result at hresult hpanic
    cases hresult with
    | overrun => exact absurd rfl hpanic
    | invalid hsize hbound => exact ⟨hannounced, hsize, hbound⟩
    | text hsize hbound => exact ⟨hannounced, hsize, hbound⟩
  · intro hwhole
    have hlong : ¬UseragentTooShort bytes := not_lt.mpr hwhole.data
    constructor
    · generalize UserAgent.unserializeUseragent bytes = result at hresult ⊢
      cases hresult with
      | overrun houtside =>
          exact absurd ⟨hwhole.addressable, hwhole.data⟩ houtside
      | invalid => simp [fail]
      | text => simp
    · exact fun hshort => absurd hshort hlong
    · intro value length hdecode
      rw [hdecode] at hresult
      cases hresult with
      | text hsize hbound => exact hbound

theorem unserializeVersionMessage_total_iff (bytes : Bytes) :
    DecodesTotally VersionMessage.unserializeVersionMessage VersionTooShort
        bytes ↔ VersionWhole bytes := by
  have houtcome := unserializeVersionMessage_outcome bytes
  constructor
  · rintro ⟨hpanic, hshort, -⟩
    generalize VersionMessage.unserializeVersionMessage bytes = result
      at houtcome hpanic hshort
    cases houtcome with
    | overrun => exact absurd rfl hpanic
    | @invalid hfits reason hdata =>
        have hlong : ¬VersionTooShort bytes := by
          intro htooShort
          have herror := hshort htooShort
          simp [fail] at herror
        have hlength := not_lt.mp hlong
        exact ⟨hfits.addressable, by omega, by omega⟩
    | @noRelay hfits text hdata hlength =>
        exact ⟨hfits.addressable, hlength.ge, fun _ => ⟨text, hdata⟩⟩
    | message hfits hbytes hflag hlength =>
        have hwhole := congrArg List.length hbytes
        rw [List.length_append, List.length_cons, hlength] at hwhole
        exact ⟨hfits.addressable, by omega, by omega⟩
  · intro hwhole
    have hheight := hwhole.startHeight
    have hfits : VersionFits bytes :=
      ⟨by omega, hwhole.addressable, by omega, fun _ => hheight⟩
    constructor
    · exact fun hpanic =>
        (unserializeVersionMessage_panic_iff bytes).mp hpanic hfits
    · intro hshort
      have hlength : bytes.length = 92 + userAgentLength bytes := by
        have := Nat.lt_iff_add_one_le.mp hshort
        omega
      obtain ⟨text, htext⟩ := hwhole.relay hlength
      generalize VersionMessage.unserializeVersionMessage bytes = result
        at houtcome ⊢
      cases houtcome with
      | overrun houtside => exact absurd hfits houtside
      | invalid hfits hdata =>
          rw [htext] at hdata
          cases hdata
      | noRelay => rfl
      | message hfits hbytes hflag hbefore =>
          have hlong := congrArg List.length hbytes
          rw [List.length_append, List.length_cons, hbefore] at hlong
          omega
    · exact fun message length hdecode =>
        (length_unserializeVersionMessage hdecode).2

/-- The payload decoders treat every slice as a total decoder would exactly
when the fields before the last one lie inside it. -/
theorem decoders_total_iff (bytes : Bytes) :
    (DecodesTotally VersionMessage.unserializeVersionMessage VersionTooShort
        bytes ↔ VersionWhole bytes) ∧
      (DecodesTotally UserAgent.unserializeUseragent UseragentTooShort bytes ↔
        UseragentWhole bytes) :=
  ⟨unserializeVersionMessage_total_iff bytes,
    unserializeUseragent_total_iff bytes⟩

/-- The payload of a version frame that announces length zero, and a user agent
that announces 2^64 - 1 bytes. -/
theorem decoders_not_total :
    VersionMessage.unserializeVersionMessage [] = .error .panic ∧
      UserAgent.unserializeUseragent (List.replicate 8 0xff) =
        .error .panic ∧
      ¬DecodesTotally VersionMessage.unserializeVersionMessage
        VersionTooShort [] ∧
      ¬DecodesTotally UserAgent.unserializeUseragent UseragentTooShort
        (List.replicate 8 0xff) := by
  have hversion : VersionMessage.unserializeVersionMessage [] =
      .error .panic := by
    apply needs_unserializeVersionMessage
    decide
  have huseragent : UserAgent.unserializeUseragent (List.replicate 8 0xff) =
      .error .panic := by
    decide
  exact ⟨hversion, huseragent, fun htotal => htotal.noPanic hversion,
    fun htotal => htotal.noPanic huseragent⟩

end Totality

end P2PNetwork.VersionLayout
