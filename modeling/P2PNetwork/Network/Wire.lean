import P2PNetwork.Core.Endian

/-!
# Messages and their bytes

The message types of the node with their serializers, decoders, builder and
validation, and the message header.  SHA-256 enters only through
`checksumCalculate` and is an arbitrary function of the bytes.
-/

namespace P2PNetwork.Wire

open P2PNetwork.ByteAccess
open P2PNetwork.Endian

/-! ## Errors -/

/-- `std::array::TryFromSliceError`. -/
structure TryFromSliceError where
  deriving DecidableEq

/-- `std::string::FromUtf8Error`, which owns the bytes it rejected. -/
structure FromUtf8Error where
  bytes : Bytes
  deriving DecidableEq

/-- `std::time::SystemTimeError`: how far the clock stands before the
epoch. -/
structure SystemTimeError where
  seconds : UInt64
  deriving DecidableEq

inductive ErrorLowLevelParsing where
  | conversionError (reason : TryFromSliceError)
  | errorParseUtf8 (reason : FromUtf8Error)
  | notEnoughBytes
  deriving DecidableEq

inductive ErrorCreateVersionMessage where
  | errorTimestamp (reason : SystemTimeError)
  deriving DecidableEq

/-! ## Addresses -/

/-- `std::net::IpAddr`, by its octets. -/
inductive IpAddr where
  | v4 (octets : ByteArr 4)
  | v6 (octets : ByteArr 16)
  deriving DecidableEq

structure SocketAddr where
  ip : IpAddr
  port : UInt16
  deriving DecidableEq

/-- 127.0.0.1:8080, the address the node listens on. -/
def loopback : SocketAddr where
  ip := .v4 ⟨[127, 0, 0, 1], rfl⟩
  port := 8080

/-! ## Constants -/

def magicBytes : UInt32 := 0xf9beb4d9

/-- `b"version\0\0\0\0\0"`. -/
def bytesVersion : ByteArr 12 :=
  ⟨[0x76, 0x65, 0x72, 0x73, 0x69, 0x6f, 0x6e, 0, 0, 0, 0, 0], rfl⟩

/-- `b"verack\0\0\0\0\0\0"`. -/
def bytesVerack : ByteArr 12 :=
  ⟨[0x76, 0x65, 0x72, 0x61, 0x63, 0x6b, 0, 0, 0, 0, 0, 0], rfl⟩

def userAgentName : String := "/BitcoinCenter:0.0.1/"

/-! ## Header -/

structure HeaderMessage where
  magicBytes : UInt32
  command : ByteArr 12
  length : UInt32
  checksum : ByteArr 4
  deriving DecidableEq

def HeaderMessage.serializeHeaderMessage (self : HeaderMessage) : Bytes :=
  (u32ToLeBytes self.magicBytes).toList ++ (self.command.toList ++
    ((u32ToLeBytes self.length).toList ++ self.checksum.toList))

def HeaderMessage.createHeaderMessage (command : ByteArr 12) (length : UInt32)
    (checksum : ByteArr 4) : HeaderMessage :=
  { magicBytes := Wire.magicBytes, command, length, checksum }

@[simp]
theorem HeaderMessage.length_serializeHeaderMessage (self : HeaderMessage) :
    self.serializeHeaderMessage.length = 24 := by
  simp [serializeHeaderMessage]

/-! ## Network address -/

structure NetAddr where
  services : UInt64
  ip : ByteArr 16
  port : UInt16
  deriving DecidableEq

def NetAddr.serializeNetaddr (self : NetAddr) : Bytes :=
  (u64ToLeBytes self.services).toList ++ (self.ip.toList ++
    (u16ToBeBytes self.port).toList)

def NetAddr.unserializeNetaddr (bytes : Bytes) :
    Fallible ErrorLowLevelParsing NetAddr := do
  let bytesServices ← readArray 8 (.conversionError {}) bytes 0
  let ip ← readArray 16 (.conversionError {}) bytes 8
  let bytesPort ← readArray 2 (.conversionError {}) bytes 24
  return {
    services := u64FromLeBytes bytesServices
    ip
    port := u16FromBeBytes bytesPort }

@[simp]
theorem NetAddr.length_serializeNetaddr (self : NetAddr) :
    self.serializeNetaddr.length = 26 := by
  simp [serializeNetaddr]

/-! ## User agent -/

structure UserAgent where
  data : String
  deriving DecidableEq

/-- `String::as_bytes`. -/
def asBytes (text : String) : Bytes := text.toByteArray.data.toList

/-- `String::from_utf8`. -/
def fromUtf8 (bytes : Bytes) : Fallible FromUtf8Error String :=
  match String.fromUTF8? ⟨bytes.toArray⟩ with
  | some text => .ok text
  | none => fail ⟨bytes⟩

/-- Addition of two `usize` values, which aborts on overflow. -/
def usizeAdd {ε : Type} (left right : ℕ) : Fallible ε ℕ :=
  if left + right < 2 ^ 64 then .ok (left + right) else abort

def UserAgent.serializeUseragent (self : UserAgent) : Bytes :=
  (u64ToLeBytes (UInt64.ofNat (asBytes self.data).length)).toList ++
    asBytes self.data

def UserAgent.unserializeUseragent (bytes : Bytes) :
    Fallible ErrorLowLevelParsing (UserAgent × ℕ) := do
  let bytesLength ← readArray 8 (.conversionError {}) bytes 0
  let length := (u64FromLeBytes bytesLength).toNat
  let stop ← usizeAdd 8 length
  let bytesData ← slice bytes 8 stop
  let stringUseragent ← mapError .errorParseUtf8 (fromUtf8 bytesData)
  return ({ data := stringUseragent }, stop)

/-! ## Version message -/

structure VersionMessage where
  version : UInt32
  services : UInt64
  timestamp : UInt64
  netAddrTo : NetAddr
  netAddrFrom : NetAddr
  nonce : UInt64
  userAgent : UserAgent
  startHeight : Int32
  relay : Bool
  deriving DecidableEq

namespace VersionMessage

def serializeVersionMessage (self : VersionMessage) : Bytes :=
  (u32ToLeBytes self.version).toList ++
    ((u64ToLeBytes self.services).toList ++
    ((u64ToLeBytes self.timestamp).toList ++
    (self.netAddrTo.serializeNetaddr ++
    (self.netAddrFrom.serializeNetaddr ++
    ((u64ToLeBytes self.nonce).toList ++
    (self.userAgent.serializeUseragent ++
    ((i32ToLeBytes self.startHeight).toList ++
    [self.relay.toUInt8])))))))

/-- The offsets are those the decoder has after each fixed-size field; from
the user agent on they depend on the length it announces. -/
def unserializeVersionMessage (bytes : Bytes) :
    Fallible ErrorLowLevelParsing (VersionMessage × ℕ) := do
  let bytesVersion ← readArray 4 (.conversionError {}) bytes 0
  let bytesServices ← readArray 8 (.conversionError {}) bytes 4
  let bytesTimestamp ← readArray 8 (.conversionError {}) bytes 12
  let netAddrTo ← NetAddr.unserializeNetaddr (← slice bytes 20 46)
  let netAddrFrom ← NetAddr.unserializeNetaddr (← slice bytes 46 72)
  let bytesNonce ← readArray 8 (.conversionError {}) bytes 72
  let (userAgent, lengthUseragent) ←
    UserAgent.unserializeUseragent (← sliceFrom bytes 80)
  let bytesStartHeight ←
    readArray 4 (.conversionError {}) bytes (80 + lengthUseragent)
  let relay ← match bytes[84 + lengthUseragent]? with
    | none => fail .notEnoughBytes
    | some byte => .ok (byte != 0)
  return (
    { version := u32FromLeBytes bytesVersion
      services := u64FromLeBytes bytesServices
      timestamp := u64FromLeBytes bytesTimestamp
      netAddrTo
      netAddrFrom
      nonce := u64FromLeBytes bytesNonce
      userAgent
      startHeight := i32FromLeBytes bytesStartHeight
      relay },
    85 + lengthUseragent)

def lengthVersionMessage (self : VersionMessage) : UInt32 :=
  UInt32.ofNat self.serializeVersionMessage.length

/-- The sixteen address bytes that the builder writes for an IP address: an
IPv4 address in the last four bytes, `0x00 0xff` before it. -/
def addressBytes : IpAddr → ByteArr 16
  | .v4 octets =>
      ⟨List.replicate 10 0 ++ [0x00, 0xff] ++ octets.toList, by simp⟩
  | .v6 octets => octets

/-- `now` is what `SystemTime::now().duration_since(UNIX_EPOCH)` returns, in
seconds. -/
def buildVersionMessage (now : Except SystemTimeError UInt64)
    (localAddress removeAddress : SocketAddr) (nonce : UInt64) :
    Except ErrorCreateVersionMessage VersionMessage :=
  match now with
  | .error reason => .error (.errorTimestamp reason)
  | .ok newTimestamp => .ok {
      version := 70001
      services := 1
      timestamp := newTimestamp
      netAddrTo := {
        services := 1
        ip := addressBytes removeAddress.ip
        port := removeAddress.port }
      netAddrFrom := {
        services := 1
        ip := addressBytes localAddress.ip
        port := localAddress.port }
      nonce
      userAgent := { data := userAgentName }
      startHeight := 0
      relay := true }

def validationVersionMessage (self : VersionMessage) : Bool :=
  if self.version < 70000 then false
  else if self.relay != true then false
  else true

/-- Every message the builder makes passes the check the other side runs. -/
theorem validationVersionMessage_of_build
    {now : Except SystemTimeError UInt64}
    {localAddress removeAddress : SocketAddr} {nonce : UInt64}
    {message : VersionMessage}
    (hbuild : buildVersionMessage now localAddress removeAddress nonce =
      .ok message) :
    message.validationVersionMessage = true := by
  cases now with
  | error reason => simp [buildVersionMessage] at hbuild
  | ok newTimestamp =>
      simp only [buildVersionMessage, Except.ok.injEq] at hbuild
      subst message
      rfl

end VersionMessage

/-! ## Verack message -/

structure VerackMessage where
  deriving DecidableEq

namespace VerackMessage

def serializeVerackMessage (_self : VerackMessage) : UInt8 := 0

def unserializeVerackMessage : VerackMessage × ℕ := ({}, 0)

def lengthVerackMessage (_self : VerackMessage) : UInt32 := 0

def buildVerackMessage : VerackMessage := {}

end VerackMessage

/-! ## Payloads and checksum -/

inductive MessagePayload where
  | version (message : VersionMessage)
  | verack (message : VerackMessage)
  deriving DecidableEq

/-- The first four bytes of the double SHA-256. -/
def checksumCalculate (sha256 : Bytes → ByteArr 32) (rawBytes : Bytes) :
    ByteArr 4 :=
  ⟨(sha256 (sha256 rawBytes).toList).toList.take 4, by simp⟩

end P2PNetwork.Wire
