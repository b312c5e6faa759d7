import P2PNetwork.Network.Wire

/-!
# Decoding undoes encoding

Each decoder, run on what the matching serializer wrote followed by arbitrary
further bytes, gives the value back and reports exactly the serialized length.
The only restriction is that the user agent's length, with its eight-byte
prefix, is addressable.
-/

namespace P2PNetwork.WireRoundTrip

open P2PNetwork.ByteAccess
open P2PNetwork.Endian
open P2PNetwork.Wire

@[simp]
theorem fromUtf8_asBytes (text : String) : fromUtf8 (asBytes text) = .ok text := by
  have hbytes : (⟨(asBytes text).toArray⟩ : ByteArray) = text.toByteArray := by
    simp [asBytes]
  have hdecode : String.fromUTF8? text.toByteArray = some text := by
    rw [String.fromUTF8?, dif_pos text.isValidUTF8]
    rfl
  rw [fromUtf8, hbytes, hdecode]

@[simp]
theorem unserializeNetaddr_serializeNetaddr (address : NetAddr) :
    NetAddr.unserializeNetaddr address.serializeNetaddr = .ok address := by
  simp [NetAddr.unserializeNetaddr, NetAddr.serializeNetaddr, readArray_skip]

@[simp]
theorem length_serializeUseragent (userAgent : UserAgent) :
    userAgent.serializeUseragent.length =
      8 + (asBytes userAgent.data).length := by
  simp [UserAgent.serializeUseragent]

theorem unserializeUseragent_serializeUseragent (userAgent : UserAgent)
    (rest : Bytes)
    (hsize : userAgent.serializeUseragent.length < 2 ^ 64) :
    UserAgent.unserializeUseragent (userAgent.serializeUseragent ++ rest) =
      .ok (userAgent, userAgent.serializeUseragent.length) := by
  obtain ⟨text⟩ := userAgent
  rw [length_serializeUseragent] at hsize
  have hlength : (UInt64.ofNat (asBytes text).length).toNat =
      (asBytes text).length := by
    rw [UInt64.toNat_ofNat', Nat.mod_eq_of_lt]
    simp only at hsize
    omega
  have hadd : (usizeAdd 8 (asBytes text).length :
      Fallible ErrorLowLevelParsing ℕ) = .ok (8 + (asBytes text).length) :=
    if_pos hsize
  simp [UserAgent.unserializeUseragent, UserAgent.serializeUseragent, hlength,
    hadd, slice_skip, slice_front]

theorem length_serializeVersionMessage (message : VersionMessage) :
    message.serializeVersionMessage.length =
      85 + message.userAgent.serializeUseragent.length := by
  simp [VersionMessage.serializeVersionMessage]
  omega

/-- The fields of a version message that stand at fixed offsets, before the
user agent. -/
def fixedFields (message : VersionMessage) : Bytes :=
  (u32ToLeBytes message.version).toList ++
    ((u64ToLeBytes message.services).toList ++
    ((u64ToLeBytes message.timestamp).toList ++
    (message.netAddrTo.serializeNetaddr ++
    (message.netAddrFrom.serializeNetaddr ++
    (u64ToLeBytes message.nonce).toList))))

@[simp]
theorem length_fixedFields (message : VersionMessage) :
    (fixedFields message).length = 80 := by
  simp [fixedFields]

/-- The bytes of a version message up to its relay byte. -/
def beforeRelay (message : VersionMessage) : Bytes :=
  fixedFields message ++ (message.userAgent.serializeUseragent ++
    (i32ToLeBytes message.startHeight).toList)

@[simp]
theorem length_beforeRelay (message : VersionMessage) :
    (beforeRelay message).length =
      84 + message.userAgent.serializeUseragent.length := by
  simp [beforeRelay]
  omega

theorem serializeVersionMessage_eq (message : VersionMessage) :
    message.serializeVersionMessage =
      beforeRelay message ++ [message.relay.toUInt8] := by
  simp [VersionMessage.serializeVersionMessage, beforeRelay, fixedFields]

@[simp]
theorem toUInt8_bne_zero (relay : Bool) : (relay.toUInt8 != 0) = relay := by
  cases relay <;> rfl

/-- The decoder reads back every field of a version message from its bytes,
whatever nonzero byte stands for a true `relay` and whatever follows. -/
theorem unserializeVersionMessage_beforeRelay (message : VersionMessage)
    {relay : UInt8} (hrelay : message.relay = (relay != 0)) (rest : Bytes)
    (hsize : message.userAgent.serializeUseragent.length < 2 ^ 64) :
    VersionMessage.unserializeVersionMessage
        (beforeRelay message ++ relay :: rest) =
      .ok (message, (beforeRelay message).length + 1) := by
  rw [length_beforeRelay]
  generalize hagent : message.userAgent.serializeUseragent = agent at hsize ⊢
  let tail := (i32ToLeBytes message.startHeight).toList ++ relay :: rest
  have hbytes : beforeRelay message ++ relay :: rest =
      fixedFields message ++ (agent ++ tail) := by
    simp [beforeRelay, hagent, tail]
  have huserAgent : UserAgent.unserializeUseragent (agent ++ tail) =
      .ok (message.userAgent, agent.length) := by
    subst hagent
    exact unserializeUseragent_serializeUseragent _ _ hsize
  have hheight : readArray 4 (ErrorLowLevelParsing.conversionError {})
      (fixedFields message ++ (agent ++ tail)) (80 + agent.length) =
        .ok (i32ToLeBytes message.startHeight) := by
    simp [readArray_skip, tail]
  have hbyte : (fixedFields message ++ (agent ++ tail))[84 + agent.length]? =
      some relay := by
    rw [List.getElem?_append_right (by simp; omega),
      List.getElem?_append_right (by simp; omega),
      List.getElem?_append_right (by simp; omega)]
    have hindex : 84 + agent.length - 80 - agent.length - 4 = 0 := by omega
    simp [hindex]
  have hfrom : (sliceFrom (fixedFields message ++ (agent ++ tail)) 80 :
      Fallible ErrorLowLevelParsing Bytes) = .ok (agent ++ tail) := by
    simp [sliceFrom_skip]
  have hlength : 85 + agent.length = 84 + agent.length + 1 := by omega
  rw [hbytes, VersionMessage.unserializeVersionMessage]
  simp only [hfrom, ok_bind, huserAgent, hheight, hbyte, ← hrelay, hlength]
  simp [fixedFields, readArray_skip, slice_skip, slice_front]

theorem unserializeVersionMessage_serializeVersionMessage
    (message : VersionMessage) (rest : Bytes)
    (hsize : message.serializeVersionMessage.length < 2 ^ 64) :
    VersionMessage.unserializeVersionMessage
        (message.serializeVersionMessage ++ rest) =
      .ok (message, message.serializeVersionMessage.length) := by
  rw [length_serializeVersionMessage] at hsize
  rw [serializeVersionMessage_eq, List.append_assoc, List.length_append]
  exact unserializeVersionMessage_beforeRelay message
    (toUInt8_bne_zero message.relay).symm rest (by omega)

end P2PNetwork.WireRoundTrip
