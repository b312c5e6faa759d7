import P2PNetwork.Core.ByteAccess

/-!
# Fixed-width integers as bytes

The byte layouts of `to_le_bytes`, `from_le_bytes`, `to_be_bytes` and
`from_be_bytes`: an unsigned integer of `width` bytes, least significant byte
first or last, and a signed one through its two's-complement bit pattern.
Encoding and decoding are inverse in both directions.
-/

namespace P2PNetwork.Endian

open P2PNetwork.ByteAccess

/-- The `width` little-endian bytes of a natural number. -/
def littleEndian : (width value : ℕ) → Bytes
  | 0, _ => []
  | width + 1, value =>
      UInt8.ofNat (value % 256) :: littleEndian width (value / 256)

/-- The natural number with the given little-endian bytes. -/
def fromLittleEndian : Bytes → ℕ
  | [] => 0
  | byte :: bytes => byte.toNat + 256 * fromLittleEndian bytes

@[simp]
theorem length_littleEndian (width value : ℕ) :
    (littleEndian width value).length = width := by
  induction width generalizing value with
  | zero => rfl
  | succ width ih => simp [littleEndian, ih]

theorem fromLittleEndian_littleEndian (width value : ℕ) :
    fromLittleEndian (littleEndian width value) = value % 256 ^ width := by
  induction width generalizing value with
  | zero => simp [littleEndian, fromLittleEndian, Nat.mod_one]
  | succ width ih =>
      have hbyte : (UInt8.ofNat (value % 256)).toNat = value % 256 := by
        simp
      rw [littleEndian, fromLittleEndian, ih, hbyte, pow_succ', Nat.mod_mul]

theorem fromLittleEndian_lt (bytes : Bytes) :
    fromLittleEndian bytes < 256 ^ bytes.length := by
  induction bytes with
  | nil => simp [fromLittleEndian]
  | cons byte bytes ih =>
      have hbyte := byte.toNat_lt
      simp only [fromLittleEndian, List.length_cons, pow_succ]
      omega

theorem littleEndian_fromLittleEndian (bytes : Bytes) :
    littleEndian bytes.length (fromLittleEndian bytes) = bytes := by
  induction bytes with
  | nil => rfl
  | cons byte bytes ih =>
      have hbyte := byte.toNat_lt
      have hhead : (byte.toNat + 256 * fromLittleEndian bytes) % 256 =
          byte.toNat := by omega
      have htail : (byte.toNat + 256 * fromLittleEndian bytes) / 256 =
          fromLittleEndian bytes := by omega
      simp only [fromLittleEndian, List.length_cons, littleEndian, hhead,
        htail, ih, UInt8.ofNat_toNat]

/-! ## The machine integers -/

def leArr (width value : ℕ) : ByteArr width :=
  ⟨littleEndian width value, length_littleEndian width value⟩

def u16ToBeBytes (value : UInt16) : ByteArr 2 :=
  ⟨(littleEndian 2 value.toNat).reverse, by simp⟩

def u16FromBeBytes (bytes : ByteArr 2) : UInt16 :=
  UInt16.ofNat (fromLittleEndian bytes.toList.reverse)

def u32ToLeBytes (value : UInt32) : ByteArr 4 := leArr 4 value.toNat

def u32FromLeBytes (bytes : ByteArr 4) : UInt32 :=
  UInt32.ofNat (fromLittleEndian bytes.toList)

def u64ToLeBytes (value : UInt64) : ByteArr 8 := leArr 8 value.toNat

def u64FromLeBytes (bytes : ByteArr 8) : UInt64 :=
  UInt64.ofNat (fromLittleEndian bytes.toList)

/-- A signed integer travels as its two's-complement bit pattern. -/
def i32ToLeBytes (value : Int32) : ByteArr 4 := u32ToLeBytes value.toUInt32

def i32FromLeBytes (bytes : ByteArr 4) : Int32 :=
  ⟨u32FromLeBytes bytes⟩

@[simp]
theorem u16FromBeBytes_u16ToBeBytes (value : UInt16) :
    u16FromBeBytes (u16ToBeBytes value) = value := by
  have hlt := value.toNat_lt
  apply UInt16.toNat_inj.mp
  simp only [u16FromBeBytes, u16ToBeBytes, List.Vector.toList_mk,
    List.reverse_reverse, fromLittleEndian_littleEndian]
  simp

@[simp]
theorem u32FromLeBytes_u32ToLeBytes (value : UInt32) :
    u32FromLeBytes (u32ToLeBytes value) = value := by
  apply UInt32.toNat_inj.mp
  simp only [u32FromLeBytes, u32ToLeBytes, leArr, List.Vector.toList_mk,
    fromLittleEndian_littleEndian]
  simp

/-- What is read from an array is written as that array. -/
theorem littleEndian_of_array {width : ℕ} (bytes : ByteArr width) :
    littleEndian width (fromLittleEndian bytes.toList) = bytes.toList := by
  have hbytes := littleEndian_fromLittleEndian bytes.toList
  rwa [List.Vector.toList_length] at hbytes

@[simp]
theorem u32ToLeBytes_u32FromLeBytes (bytes : ByteArr 4) :
    u32ToLeBytes (u32FromLeBytes bytes) = bytes := by
  have hlt : fromLittleEndian bytes.toList < 2 ^ 32 := by
    simpa using fromLittleEndian_lt bytes.toList
  apply List.Vector.eq
  simp only [u32ToLeBytes, u32FromLeBytes, leArr, List.Vector.toList_mk,
    UInt32.toNat_ofNat']
  rw [Nat.mod_eq_of_lt hlt, littleEndian_of_array]

@[simp]
theorem u64FromLeBytes_u64ToLeBytes (value : UInt64) :
    u64FromLeBytes (u64ToLeBytes value) = value := by
  apply UInt64.toNat_inj.mp
  simp only [u64FromLeBytes, u64ToLeBytes, leArr, List.Vector.toList_mk,
    fromLittleEndian_littleEndian]
  simp

theorem toNat_u64FromLeBytes (bytes : ByteArr 8) :
    (u64FromLeBytes bytes).toNat = fromLittleEndian bytes.toList := by
  have hlt := fromLittleEndian_lt bytes.toList
  rw [List.Vector.toList_length] at hlt
  rw [u64FromLeBytes, UInt64.toNat_ofNat']
  exact Nat.mod_eq_of_lt hlt

@[simp]
theorem i32FromLeBytes_i32ToLeBytes (value : Int32) :
    i32FromLeBytes (i32ToLeBytes value) = value := by
  simp [i32FromLeBytes, i32ToLeBytes]

@[simp]
theorem u64ToLeBytes_u64FromLeBytes (bytes : ByteArr 8) :
    u64ToLeBytes (u64FromLeBytes bytes) = bytes := by
  apply List.Vector.eq
  rw [u64ToLeBytes, leArr, List.Vector.toList_mk, toNat_u64FromLeBytes,
    littleEndian_of_array]

@[simp]
theorem i32ToLeBytes_i32FromLeBytes (bytes : ByteArr 4) :
    i32ToLeBytes (i32FromLeBytes bytes) = bytes := by
  apply u32ToLeBytes_u32FromLeBytes

@[simp]
theorem u16ToBeBytes_u16FromBeBytes (bytes : ByteArr 2) :
    u16ToBeBytes (u16FromBeBytes bytes) = bytes := by
  have hlength : bytes.toList.reverse.length = 2 := by simp
  have hlt : fromLittleEndian bytes.toList.reverse < 2 ^ 16 := by
    simpa using fromLittleEndian_lt bytes.toList.reverse
  have hbytes := littleEndian_fromLittleEndian bytes.toList.reverse
  rw [hlength] at hbytes
  apply List.Vector.eq
  simp only [u16ToBeBytes, u16FromBeBytes, List.Vector.toList_mk,
    UInt16.toNat_ofNat']
  rw [Nat.mod_eq_of_lt hlt, hbytes, List.reverse_reverse]

end P2PNetwork.Endian
