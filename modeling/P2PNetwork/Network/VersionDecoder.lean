import P2PNetwork.Core.Readers
import P2PNetwork.Network.WireRoundTrip

/-!
# The decoder of version messages

What `unserialize_version_message` does on arbitrary bytes: a success does not
depend on the bytes behind it and lies inside the buffer, and it is known which
buffers make one of the slices go out of range.
-/

namespace P2PNetwork.Wire

open P2PNetwork.ByteAccess
open P2PNetwork.Endian
open P2PNetwork.WireRoundTrip

/-! ## Bytes that arrive later -/

theorem stable_unserializeUseragent : Stable UserAgent.unserializeUseragent := by
  refine (stable_readArray _ _ _).bind fun bytesLength => ?_
  refine (stable_const _).bind fun stop => ?_
  exact (stable_slice _ _).bind fun bytesData => stable_const _

/-- A decoded version message stays the same when more bytes arrive. -/
theorem stable_unserializeVersionMessage :
    Stable VersionMessage.unserializeVersionMessage := by
  refine (stable_readArray _ _ _).bind fun bytesVersion => ?_
  refine (stable_readArray _ _ _).bind fun bytesServices => ?_
  refine (stable_readArray _ _ _).bind fun bytesTimestamp => ?_
  refine (stable_slice _ _).bind fun partTo => ?_
  refine (stable_const _).bind fun netAddrTo => ?_
  refine (stable_slice _ _).bind fun partFrom => ?_
  refine (stable_const _).bind fun netAddrFrom => ?_
  refine (stable_readArray _ _ _).bind fun bytesNonce => ?_
  refine stable_unserializeUseragent.sliceFrom 80 ?_
  rintro ⟨userAgent, lengthUseragent⟩
  refine (stable_readArray _ _ _).bind fun bytesStartHeight => ?_
  exact stable_getElem? _ (fun _ => by rintro ⟨⟩) _

/-! ## The user agent -/

/-- What the decoder of the user agent does on at least eight bytes, the first
eight of which announce `length` more. -/
inductive UseragentResult (bytes : Bytes) (length : ℕ) :
    Fallible ErrorLowLevelParsing (UserAgent × ℕ) → Prop where
  | overrun (houtside : ¬(8 + length < 2 ^ 64 ∧ 8 + length ≤ bytes.length)) :
      UseragentResult bytes length (.error .panic)
  | invalid (hsize : 8 + length < 2 ^ 64) (hbound : 8 + length ≤ bytes.length)
      {reason : FromUtf8Error}
      (hdata : fromUtf8 ((bytes.drop 8).take length) = fail reason) :
      UseragentResult bytes length (fail (.errorParseUtf8 reason))
  | text (hsize : 8 + length < 2 ^ 64) (hbound : 8 + length ≤ bytes.length)
      {text : String} (hdata : fromUtf8 ((bytes.drop 8).take length) = .ok text) :
      UseragentResult bytes length (.ok ({ data := text }, 8 + length))

theorem unserializeUseragent_result {bytes : Bytes} (hlength : 8 ≤ bytes.length) :
    UseragentResult bytes (fromLittleEndian (bytes.take 8))
      (UserAgent.unserializeUseragent bytes) := by
  obtain ⟨bytesLength, hread, hfield⟩ :=
    exists_readArray (ErrorLowLevelParsing.conversionError {})
      (by omega : 0 + 8 ≤ bytes.length)
  rw [UserAgent.unserializeUseragent, hread]
  simp only [ok_bind, toNat_u64FromLeBytes, hfield, List.drop_zero]
  generalize fromLittleEndian (bytes.take 8) = length
  by_cases hsize : 8 + length < 2 ^ 64
  swap
  · have hadd : (usizeAdd 8 length : Fallible ErrorLowLevelParsing ℕ) = abort :=
      if_neg hsize
    simp only [hadd, abort, error_bind]
    exact .overrun fun hinside => hsize hinside.1
  have hadd : (usizeAdd 8 length : Fallible ErrorLowLevelParsing ℕ) =
      .ok (8 + length) := if_pos hsize
  simp only [hadd, ok_bind]
  by_cases hbound : 8 + length ≤ bytes.length
  swap
  · rw [slice_eq_panic (not_le.mp hbound), error_bind]
    exact .overrun fun hinside => hbound hinside.2
  rw [slice_eq_ok (Nat.le_add_right 8 length) hbound, ok_bind,
    Nat.add_sub_cancel_left]
  cases hdata : fromUtf8 ((bytes.drop 8).take length) with
  | ok text => exact .text hsize hbound hdata
  | error fault =>
      cases fault with
      | error reason => exact .invalid hsize hbound hdata
      | panic =>
          unfold fromUtf8 at hdata
          split at hdata <;> cases hdata

/-! ## The extent of a message -/

/-- The length that the bytes of a version message announce for the user
agent. -/
def userAgentLength (bytes : Bytes) : ℕ :=
  fromLittleEndian ((bytes.drop 80).take 8)

def userAgentBytes (bytes : Bytes) : Bytes :=
  (bytes.drop 88).take (userAgentLength bytes)

/-- The slices of the decoder stay inside the bytes. -/
structure VersionFits (bytes : Bytes) : Prop where
  fixed : 88 ≤ bytes.length
  addressable : 8 + userAgentLength bytes < 2 ^ 64
  userAgent : 88 + userAgentLength bytes ≤ bytes.length
  startHeight : (∃ text, fromUtf8 (userAgentBytes bytes) = .ok text) →
    92 + userAgentLength bytes ≤ bytes.length

/-- What the decoder of version messages does. -/
inductive VersionResult (bytes : Bytes) :
    Fallible ErrorLowLevelParsing (VersionMessage × ℕ) → Prop where
  | overrun (houtside : ¬VersionFits bytes) :
      VersionResult bytes (.error .panic)
  | refused (hfits : VersionFits bytes) (reason : ErrorLowLevelParsing) :
      VersionResult bytes (fail reason)
  | message (hfits : VersionFits bytes) (message : VersionMessage)
      (hbound : 93 + userAgentLength bytes ≤ bytes.length) :
      VersionResult bytes (.ok (message, 93 + userAgentLength bytes))

theorem errorFree_unserializeNetaddr : ErrorFree NetAddr.unserializeNetaddr :=
  (errorFree_readArray _ _ _).bind fun _ =>
    (errorFree_readArray _ _ _).bind fun _ =>
      (errorFree_readArray _ _ _).bind fun _ => errorFree_ok _

theorem exists_netaddr {bytes : Bytes} (hlength : bytes.length = 26) :
    ∃ netaddr, NetAddr.unserializeNetaddr bytes = .ok netaddr ∧
      netaddr.serializeNetaddr = bytes := by
  have hread {size start : ℕ} (hbound : start + size ≤ bytes.length) :=
    exists_readArray (ErrorLowLevelParsing.conversionError {}) hbound
  obtain ⟨services, hservices, hfront⟩ := hread (by omega : 0 + 8 ≤ bytes.length)
  obtain ⟨ip, hip, hmiddle⟩ := hread (by omega : 8 + 16 ≤ bytes.length)
  obtain ⟨port, hport, hback⟩ := hread (by omega : 24 + 2 ≤ bytes.length)
  rw [NetAddr.unserializeNetaddr, hservices]
  simp only [ok_bind, hip, hport, pure_eq_ok]
  refine ⟨_, rfl, ?_⟩
  simp only [NetAddr.serializeNetaddr, u64ToLeBytes_u64FromLeBytes,
    u16ToBeBytes_u16FromBeBytes, hfront, hmiddle, hback]
  rw [take_drop_append bytes 8 16 2, take_drop_append bytes 0 8 18]
  simp [← hlength]

/-- The fields before the user agent make the decoder need 88 bytes. -/
theorem needs_unserializeVersionMessage :
    Needs 88 VersionMessage.unserializeVersionMessage := by
  refine .bind (errorFree_readArray _ _ _) fun bytesVersion => ?_
  refine .bind (errorFree_readArray _ _ _) fun bytesServices => ?_
  refine .bind (errorFree_readArray _ _ _) fun bytesTimestamp => ?_
  refine .bind (errorFree_slice _ _) fun partTo => ?_
  refine .bind (fun _ => errorFree_unserializeNetaddr partTo) fun netAddrTo => ?_
  refine .bind (errorFree_slice _ _) fun partFrom => ?_
  refine .bind (fun _ => errorFree_unserializeNetaddr partFrom)
    fun netAddrFrom => ?_
  refine .bind (errorFree_readArray _ _ _) fun bytesNonce => ?_
  intro bytes hshort
  by_cases hbound : 80 ≤ bytes.length
  · have hpanic : UserAgent.unserializeUseragent (bytes.drop 80) =
        .error .panic := by
      rw [UserAgent.unserializeUseragent, readArray_eq_panic (by simp; omega),
        error_bind]
    simp only [sliceFrom_eq_ok hbound, ok_bind, hpanic, error_bind]
  · have hpanic : (sliceFrom bytes 80 : Fallible ErrorLowLevelParsing Bytes) =
        .error .panic := if_neg fun hrange => hbound hrange.1
    simp only [hpanic, error_bind]

/-- The part of the decoder behind the user agent. -/
def behindUseragent (bytes : Bytes) (fields : VersionMessage)
    (userAgent : UserAgent) (lengthUseragent : ℕ) :
    Fallible ErrorLowLevelParsing (VersionMessage × ℕ) := do
  let bytesStartHeight ←
    readArray 4 (.conversionError {}) bytes (80 + lengthUseragent)
  let relay ← match bytes[84 + lengthUseragent]? with
    | none => fail .notEnoughBytes
    | some byte => .ok (byte != 0)
  return (
    { fields with
      userAgent
      startHeight := i32FromLeBytes bytesStartHeight
      relay },
    85 + lengthUseragent)

/-- Behind the fields at fixed offsets the decoder goes on with the user
agent, and the fields it has read are written as they stand in the bytes. -/
theorem exists_fields {bytes : Bytes} (hfixed : 80 ≤ bytes.length) :
    ∃ fields : VersionMessage, fixedFields fields = bytes.take 80 ∧
      VersionMessage.unserializeVersionMessage bytes =
        UserAgent.unserializeUseragent (bytes.drop 80) >>=
          fun (userAgent, lengthUseragent) =>
            behindUseragent bytes fields userAgent lengthUseragent := by
  have hread {size start : ℕ} (hbound : start + size ≤ bytes.length) :=
    exists_readArray (ErrorLowLevelParsing.conversionError {}) hbound
  obtain ⟨version, hversion, hversion'⟩ :=
    hread (by omega : 0 + 4 ≤ bytes.length)
  obtain ⟨services, hservices, hservices'⟩ :=
    hread (by omega : 4 + 8 ≤ bytes.length)
  obtain ⟨timestamp, htimestamp, htimestamp'⟩ :=
    hread (by omega : 12 + 8 ≤ bytes.length)
  obtain ⟨nonce, hnonce, hnonce'⟩ := hread (by omega : 72 + 8 ≤ bytes.length)
  obtain ⟨netAddrTo, hto, hto'⟩ := @exists_netaddr ((bytes.drop 20).take 26)
    (by simp; omega)
  obtain ⟨netAddrFrom, hfrom, hfrom'⟩ := @exists_netaddr ((bytes.drop 46).take 26)
    (by simp; omega)
  refine ⟨{
    version := u32FromLeBytes version
    services := u64FromLeBytes services
    timestamp := u64FromLeBytes timestamp
    netAddrTo
    netAddrFrom
    nonce := u64FromLeBytes nonce
    userAgent := { data := "" }
    startHeight := 0
    relay := false }, ?_, ?_⟩
  · simp only [fixedFields, u32ToLeBytes_u32FromLeBytes,
      u64ToLeBytes_u64FromLeBytes, hversion', hservices', htimestamp', hto',
      hfrom', hnonce']
    rw [take_drop_append bytes 46 26 8, take_drop_append bytes 20 26 34,
      take_drop_append bytes 12 8 60, take_drop_append bytes 4 8 68,
      take_drop_append bytes 0 4 76, List.drop_zero]
  · rw [VersionMessage.unserializeVersionMessage, hversion]
    simp only [hservices, htimestamp, hnonce, ok_bind,
      slice_eq_ok (by omega : 20 ≤ 46) (by omega : 46 ≤ bytes.length), hto,
      slice_eq_ok (by omega : 46 ≤ 72) (by omega : 72 ≤ bytes.length), hfrom,
      sliceFrom_eq_ok (by omega : 80 ≤ bytes.length), Nat.reduceSub]
    rfl

/-- A text is decoded from its own bytes only. -/
theorem asBytes_of_fromUtf8 {bytes : Bytes} {text : String}
    (hdata : fromUtf8 bytes = .ok text) : asBytes text = bytes := by
  unfold fromUtf8 at hdata
  split at hdata
  case h_1 text' hdecode =>
    have htext : text' = text := Except.ok.inj hdata
    subst htext
    unfold String.fromUTF8? at hdecode
    split at hdecode
    case isTrue hvalid =>
      rw [← Option.some.inj hdecode]
      rfl
    case isFalse => cases hdecode
  case h_2 => cases hdata

/-- What the decoder of version messages does, with what it has found. -/
inductive VersionOutcome (bytes : Bytes) :
    Fallible ErrorLowLevelParsing (VersionMessage × ℕ) → Prop where
  | overrun (houtside : ¬VersionFits bytes) :
      VersionOutcome bytes (.error .panic)
  | invalid (hfits : VersionFits bytes) {reason : FromUtf8Error}
      (hdata : fromUtf8 (userAgentBytes bytes) = fail reason) :
      VersionOutcome bytes (fail (.errorParseUtf8 reason))
  | noRelay (hfits : VersionFits bytes) {text : String}
      (hdata : fromUtf8 (userAgentBytes bytes) = .ok text)
      (hlength : bytes.length = 92 + userAgentLength bytes) :
      VersionOutcome bytes (fail .notEnoughBytes)
  | message (hfits : VersionFits bytes) {message : VersionMessage}
      {relay : UInt8} {rest : Bytes}
      (hbytes : bytes = beforeRelay message ++ relay :: rest)
      (hrelay : message.relay = (relay != 0))
      (hlength : (beforeRelay message).length = 92 + userAgentLength bytes) :
      VersionOutcome bytes (.ok (message, 93 + userAgentLength bytes))

/-- The bytes of a message whose fields stand in the buffer. -/
theorem beforeRelay_eq {bytes : Bytes} {fields : VersionMessage} {text : String}
    {startHeight : ByteArr 4} {relay : Bool}
    (hfixed : 88 ≤ bytes.length)
    (hfields : fixedFields fields = bytes.take 80)
    (hdata : fromUtf8 (userAgentBytes bytes) = .ok text)
    (hagent : 88 + userAgentLength bytes ≤ bytes.length)
    (hheight : startHeight.toList =
      (bytes.drop (88 + userAgentLength bytes)).take 4) :
    beforeRelay { fields with
        userAgent := { data := text }
        startHeight := i32FromLeBytes startHeight
        relay } = bytes.take (92 + userAgentLength bytes) := by
  obtain ⟨prefixLength, -, hprefixBytes⟩ :=
    exists_readArray (ErrorLowLevelParsing.conversionError {})
      (by omega : 80 + 8 ≤ bytes.length)
  have hannounced : userAgentLength bytes =
      (u64FromLeBytes prefixLength).toNat := by
    rw [toNat_u64FromLeBytes, hprefixBytes, userAgentLength]
  have hlength : (userAgentBytes bytes).length = userAgentLength bytes := by
    simp [userAgentBytes]
    omega
  have huserAgent : UserAgent.serializeUseragent { data := text } =
      (bytes.drop 80).take (8 + userAgentLength bytes) := by
    rw [UserAgent.serializeUseragent, asBytes_of_fromUtf8 hdata, hlength,
      hannounced, UInt64.ofNat_toNat, u64ToLeBytes_u64FromLeBytes, hprefixBytes,
      ← hannounced, userAgentBytes]
    exact take_drop_append bytes 80 8 (userAgentLength bytes)
  calc
    _ = fixedFields fields ++
        (UserAgent.serializeUseragent { data := text } ++
          startHeight.toList) := by
      simp [beforeRelay, fixedFields]
    _ = bytes.take 80 ++ ((bytes.drop 80).take (8 + userAgentLength bytes) ++
        (bytes.drop (80 + (8 + userAgentLength bytes))).take 4) := by
      rw [hfields, huserAgent, hheight, ← Nat.add_assoc]
    _ = bytes.take (92 + userAgentLength bytes) := by
      rw [take_drop_append, ← List.take_add]
      congr 1
      omega

theorem unserializeVersionMessage_outcome (bytes : Bytes) :
    VersionOutcome bytes (VersionMessage.unserializeVersionMessage bytes) := by
  by_cases hfixed : 88 ≤ bytes.length
  swap
  · rw [needs_unserializeVersionMessage bytes (not_le.mp hfixed)]
    exact .overrun fun hfits => hfixed hfits.fixed
  obtain ⟨fields, hfields, hdecode⟩ := exists_fields (by omega : 80 ≤ bytes.length)
  have hagent := @unserializeUseragent_result (bytes.drop 80) (by simp; omega)
  rw [← userAgentLength] at hagent
  rw [hdecode]
  generalize UserAgent.unserializeUseragent (bytes.drop 80) = result at hagent ⊢
  have hbytes : (bytes.drop 80).length = bytes.length - 80 := List.length_drop
  have hdata : ((bytes.drop 80).drop 8).take (userAgentLength bytes) =
      userAgentBytes bytes := by
    rw [List.drop_drop, userAgentBytes]
  cases hagent with
  | overrun houtside =>
      refine .overrun fun hfits => houtside ⟨hfits.addressable, ?_⟩
      have := hfits.userAgent
      omega
  | invalid hsize hbound hutf8 =>
      rw [hdata] at hutf8
      refine .invalid ⟨hfixed, hsize, by omega, ?_⟩ hutf8
      rintro ⟨text, htext⟩
      rw [htext] at hutf8
      cases hutf8
  | @text hsize hbound text hutf8 =>
      rw [hdata] at hutf8
      simp only [ok_bind, behindUseragent]
      have hoffset : 80 + (8 + userAgentLength bytes) =
          88 + userAgentLength bytes := by omega
      by_cases hheight : 92 + userAgentLength bytes ≤ bytes.length
      swap
      · rw [readArray_eq_panic (by omega), error_bind]
        exact .overrun fun hfits => hheight (hfits.startHeight ⟨text, hutf8⟩)
      have hfits : VersionFits bytes :=
        ⟨hfixed, hsize, by omega, fun _ => hheight⟩
      obtain ⟨startHeight, hstart, hstart'⟩ :=
        exists_readArray (ErrorLowLevelParsing.conversionError {})
          (by omega : 80 + (8 + userAgentLength bytes) + 4 ≤ bytes.length)
      rw [hoffset] at hstart'
      rw [hstart, ok_bind]
      have hrelayOffset : 84 + (8 + userAgentLength bytes) =
          92 + userAgentLength bytes := by omega
      rw [hrelayOffset]
      cases hrelay : bytes[92 + userAgentLength bytes]? with
      | none =>
          have hend := List.getElem?_eq_none_iff.mp hrelay
          exact .noRelay hfits hutf8 (by omega)
      | some byte =>
          obtain ⟨hbound, hbyte⟩ := List.getElem?_eq_some_iff.mp hrelay
          have hlength : 85 + (8 + userAgentLength bytes) =
              93 + userAgentLength bytes := by omega
          have hbefore := @beforeRelay_eq bytes fields text startHeight
            (byte != 0) hfixed hfields hutf8 (by omega) hstart'
          have hsplit : bytes = bytes.take (92 + userAgentLength bytes) ++
              byte :: bytes.drop (92 + userAgentLength bytes + 1) := by
            rw [← hbyte, List.getElem_cons_drop, List.take_append_drop]
          rw [← hbefore] at hsplit
          simp only [pure_eq_ok, hlength]
          refine .message hfits hsplit rfl ?_
          rw [hbefore, List.length_take]
          omega

theorem unserializeVersionMessage_result (bytes : Bytes) :
    VersionResult bytes (VersionMessage.unserializeVersionMessage bytes) := by
  have houtcome := unserializeVersionMessage_outcome bytes
  generalize VersionMessage.unserializeVersionMessage bytes = result at houtcome ⊢
  cases houtcome with
  | overrun houtside => exact .overrun houtside
  | invalid hfits => exact .refused hfits _
  | noRelay hfits => exact .refused hfits .notEnoughBytes
  | message hfits hbytes hrelay hlength =>
      refine .message hfits _ ?_
      have hwhole := congrArg List.length hbytes
      simp only [List.length_append, List.length_cons, hlength] at hwhole
      omega

/-- A decoded message lies inside the bytes. -/
theorem length_unserializeVersionMessage {bytes : Bytes}
    {message : VersionMessage} {length : ℕ}
    (hdecode : VersionMessage.unserializeVersionMessage bytes =
      .ok (message, length)) :
    length = 93 + userAgentLength bytes ∧ length ≤ bytes.length := by
  have hresult := unserializeVersionMessage_result bytes
  rw [hdecode] at hresult
  cases hresult with
  | message hfits message hbound => exact ⟨rfl, hbound⟩

theorem unserializeVersionMessage_panic_iff (bytes : Bytes) :
    VersionMessage.unserializeVersionMessage bytes = .error .panic ↔
      ¬VersionFits bytes := by
  have hresult := unserializeVersionMessage_result bytes
  generalize VersionMessage.unserializeVersionMessage bytes = result at hresult ⊢
  cases hresult with
  | overrun houtside => exact ⟨fun _ => houtside, fun _ => rfl⟩
  | refused hfits => exact ⟨nofun, absurd hfits⟩
  | message hfits => exact ⟨nofun, absurd hfits⟩

end P2PNetwork.Wire
