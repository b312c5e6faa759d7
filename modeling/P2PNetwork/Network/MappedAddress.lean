import P2PNetwork.Network.WireRoundTrip

/-!
# IP addresses on the wire

Both address families share sixteen bytes.  A reader tells them apart by the
IPv4-mapped form: ten zero bytes, two bytes 0xff and the IPv4 address.  The
builder of version messages writes one of the two bytes as zero, so that an
IPv4 address is read back as an IPv6 address.
-/

namespace P2PNetwork.MappedAddress

open P2PNetwork.ByteAccess
open P2PNetwork.Wire
open P2PNetwork.WireRoundTrip

/-- What the first twelve bytes of an IPv4-mapped address are. -/
def mappedPrefix : Bytes := List.replicate 10 0 ++ [0xff, 0xff]

/-- The address that sixteen bytes stand for by the IPv4-mapped rule. -/
def readMapped (ip : ByteArr 16) : IpAddr :=
  if ip.toList.take 12 = mappedPrefix then .v4 ⟨ip.toList.drop 12, by simp⟩
  else .v6 ip

/-- An IPv6 address that is IPv4-mapped counts as its IPv4 address. -/
def canonicalIp : IpAddr → IpAddr
  | .v4 octets => .v4 octets
  | .v6 octets => readMapped octets

def IsV6 (address : SocketAddr) : Prop :=
  ∃ octets, address.ip = .v6 octets

/-- The network address that the builder makes of an endpoint. -/
def netAddrOf (address : SocketAddr) : NetAddr where
  services := 1
  ip := VersionMessage.addressBytes address.ip
  port := address.port

/-- The network address read back is that of the endpoint. -/
structure ReadsBack (netaddr : NetAddr) (address : SocketAddr) : Prop where
  ip : readMapped netaddr.ip = canonicalIp address.ip
  port : netaddr.port = address.port

/-- The message built for two endpoints is parsed back from its bytes with the
addresses and ports of both. -/
def AddressesSurvive (timestamp : UInt64)
    (localAddress removeAddress : SocketAddr) (nonce : UInt64) : Prop :=
  ∃ message parsed length,
    VersionMessage.buildVersionMessage (.ok timestamp) localAddress
        removeAddress nonce = .ok message ∧
      VersionMessage.unserializeVersionMessage
          message.serializeVersionMessage = .ok (parsed, length) ∧
      ReadsBack parsed.netAddrTo removeAddress ∧
      ReadsBack parsed.netAddrFrom localAddress

/-- The builder's form of an IPv4 address is not the mapped one. -/
theorem readMapped_addressBytes_v4 (octets : ByteArr 4) :
    readMapped (VersionMessage.addressBytes (.v4 octets)) =
      .v6 (VersionMessage.addressBytes (.v4 octets)) := by
  have hfirst : (VersionMessage.addressBytes (.v4 octets)).toList.take 12 =
      List.replicate 10 0 ++ [0x00, 0xff] := by
    simp [VersionMessage.addressBytes]
  apply if_neg
  rw [hfirst]
  decide

theorem readsBack_netAddrOf_iff (address : SocketAddr) :
    ReadsBack (netAddrOf address) address ↔ IsV6 address := by
  constructor
  · intro hread
    cases haddress : address.ip with
    | v4 octets =>
        have hip := hread.ip
        rw [netAddrOf, haddress, readMapped_addressBytes_v4] at hip
        cases hip
    | v6 octets => exact ⟨octets, haddress⟩
  · rintro ⟨octets, haddress⟩
    refine ⟨?_, rfl⟩
    rw [netAddrOf, haddress]
    rfl

theorem length_builtVersion {timestamp nonce : UInt64}
    {localAddress removeAddress : SocketAddr} {message : VersionMessage}
    (hbuild : VersionMessage.buildVersionMessage (.ok timestamp) localAddress
      removeAddress nonce = .ok message) :
    message.serializeVersionMessage.length = 114 := by
  have huserAgent : message.userAgent = { data := userAgentName } := by
    rw [← Except.ok.inj hbuild]
  rw [length_serializeVersionMessage, length_serializeUseragent, huserAgent]
  decide

/-- The message a node builds is parsed back to itself. -/
theorem unserializeVersionMessage_built {timestamp nonce : UInt64}
    {localAddress removeAddress : SocketAddr} {message : VersionMessage}
    (hbuild : VersionMessage.buildVersionMessage (.ok timestamp) localAddress
      removeAddress nonce = .ok message) :
    VersionMessage.unserializeVersionMessage message.serializeVersionMessage =
      .ok (message, 114) := by
  have hlength := length_builtVersion hbuild
  have hdecode := unserializeVersionMessage_serializeVersionMessage message []
    (by omega)
  rwa [List.append_nil, hlength] at hdecode

theorem addressesSurvive_iff_readsBack (timestamp : UInt64)
    (localAddress removeAddress : SocketAddr) (nonce : UInt64) :
    AddressesSurvive timestamp localAddress removeAddress nonce ↔
      ReadsBack (netAddrOf removeAddress) removeAddress ∧
        ReadsBack (netAddrOf localAddress) localAddress := by
  constructor
  · rintro ⟨message, parsed, length, hbuild, hparse, hto, hfrom⟩
    rw [unserializeVersionMessage_built hbuild] at hparse
    obtain ⟨rfl, -⟩ := Prod.mk.inj (Except.ok.inj hparse)
    obtain rfl := Except.ok.inj hbuild
    exact ⟨hto, hfrom⟩
  · rintro ⟨hto, hfrom⟩
    exact ⟨_, _, _, rfl, unserializeVersionMessage_built rfl, hto, hfrom⟩

/-- Both endpoints survive exactly when both are IPv6 addresses, and two IPv6
endpoints are never encoded alike. -/
theorem addressesSurvive_iff (timestamp : UInt64)
    (localAddress removeAddress : SocketAddr) (nonce : UInt64) :
    (AddressesSurvive timestamp localAddress removeAddress nonce ↔
      IsV6 localAddress ∧ IsV6 removeAddress) ∧
      ∀ first second : SocketAddr, IsV6 first → IsV6 second →
        (netAddrOf first).serializeNetaddr =
            (netAddrOf second).serializeNetaddr →
          first = second := by
  constructor
  · rw [addressesSurvive_iff_readsBack, readsBack_netAddrOf_iff,
      readsBack_netAddrOf_iff, and_comm]
  · rintro ⟨ip, port⟩ ⟨otherIp, otherPort⟩ ⟨octets, rfl⟩ ⟨otherOctets, rfl⟩ heq
    have hdecode := congrArg NetAddr.unserializeNetaddr heq
    rw [unserializeNetaddr_serializeNetaddr,
      unserializeNetaddr_serializeNetaddr] at hdecode
    obtain ⟨-, hip, hport⟩ := NetAddr.mk.inj (Except.ok.inj hdecode)
    obtain rfl : octets = otherOctets := hip
    obtain rfl : port = otherPort := hport
    rfl

/-- The IPv6 endpoint `[::1]:8080`. -/
def loopbackV6 : SocketAddr where
  ip := .v6 ⟨List.replicate 15 0 ++ [1], rfl⟩
  port := 8080

theorem addressesSurvive_loopbackV6 :
    AddressesSurvive 0 loopbackV6 loopbackV6 0 := by
  have hv6 : IsV6 loopbackV6 := ⟨_, rfl⟩
  exact (addressesSurvive_iff 0 loopbackV6 loopbackV6 0).1.mpr ⟨hv6, hv6⟩

/-- The endpoint whose address is the sixteen bytes that the builder writes
for 127.0.0.1. -/
def collidingV6 : SocketAddr where
  ip := .v6 (VersionMessage.addressBytes loopback.ip)
  port := 8080

/-- 127.0.0.1:8080 does not survive, and an IPv6 endpoint is encoded like
it. -/
theorem loopback_lost :
    ¬AddressesSurvive 0 loopback loopback 0 ∧
      canonicalIp collidingV6.ip ≠ canonicalIp loopback.ip ∧
      (netAddrOf collidingV6).serializeNetaddr =
        (netAddrOf loopback).serializeNetaddr := by
  refine ⟨?_, ?_, rfl⟩
  · rw [addressesSurvive_iff_readsBack, readsBack_netAddrOf_iff]
    rintro ⟨⟨octets, haddress⟩, -⟩
    cases haddress
  · intro heq
    have hlost : canonicalIp collidingV6.ip = collidingV6.ip :=
      readMapped_addressBytes_v4 _
    rw [hlost] at heq
    cases heq

end P2PNetwork.MappedAddress
