import Mathlib.Data.Vector.Basic
import Mathlib.Tactic

/-!
# Checked byte access

A slice expression of a bounds-checked language either yields the bytes it
names or aborts the running task; a conversion yields a value or an error that
the caller can return.  `Fallible` keeps the two failures apart, and the
readers below are the slices and fixed-size reads that a byte-level decoder is
written with.
-/

namespace P2PNetwork.ByteAccess

/-- How a computation can fail: by aborting the task, or by returning an
error. -/
inductive Fault (ε : Type) where
  | panic
  | error (reason : ε)
  deriving DecidableEq

abbrev Fallible (ε α : Type) := Except (Fault ε) α

variable {ε δ α β : Type}

/-- Return an error. -/
def fail (reason : ε) : Fallible ε α := .error (.error reason)

/-- Abort the running task. -/
def abort : Fallible ε α := .error .panic

/-- Rename the returned error; a panic stays a panic. -/
def mapError (rename : ε → δ) : Fallible ε α → Fallible δ α
  | .ok value => .ok value
  | .error .panic => abort
  | .error (.error reason) => fail (rename reason)

@[simp]
theorem mapError_ok (rename : ε → δ) (value : α) :
    mapError rename (.ok value : Fallible ε α) = .ok value := rfl

@[simp]
theorem ok_bind (value : α) (next : α → Fallible ε β) :
    ((.ok value : Fallible ε α) >>= next) = next value := rfl

@[simp]
theorem error_bind (fault : Fault ε) (next : α → Fallible ε β) :
    ((.error fault : Fallible ε α) >>= next) = .error fault := rfl

@[simp]
theorem pure_eq_ok (value : α) : (pure value : Fallible ε α) = .ok value := rfl

/-- A sequence succeeds exactly when both of its halves do. -/
theorem bind_eq_ok_iff {first : Fallible ε α} {next : α → Fallible ε β}
    {result : β} :
    first >>= next = .ok result ↔
      ∃ value, first = .ok value ∧ next value = .ok result := by
  cases first with
  | error fault => simp
  | ok value => simp

abbrev Bytes := List UInt8

/-- A fixed-size array of bytes. -/
abbrev ByteArr (size : ℕ) := List.Vector UInt8 size

/-- `bytes[start..stop]`: the slice, or a panic when it is out of range. -/
def slice (bytes : Bytes) (start stop : ℕ) : Fallible ε Bytes :=
  if start ≤ stop ∧ stop ≤ bytes.length then
    .ok ((bytes.drop start).take (stop - start))
  else abort

/-- `bytes[start..]`. -/
def sliceFrom (bytes : Bytes) (start : ℕ) : Fallible ε Bytes :=
  slice bytes start bytes.length

/-- Conversion of a slice into an array, which fails on any other length. -/
def tryInto (size : ℕ) (mismatch : ε) (bytes : Bytes) :
    Fallible ε (ByteArr size) :=
  if h : bytes.length = size then .ok ⟨bytes, h⟩ else fail mismatch

/-- `bytes[start..start + size].try_into()`. -/
def readArray (size : ℕ) (mismatch : ε) (bytes : Bytes) (start : ℕ) :
    Fallible ε (ByteArr size) := do
  let part ← slice bytes start (start + size)
  tryInto size mismatch part

theorem slice_eq_ok {bytes : Bytes} {start stop : ℕ}
    (horder : start ≤ stop) (hbound : stop ≤ bytes.length) :
    (slice bytes start stop : Fallible ε Bytes) =
      .ok ((bytes.drop start).take (stop - start)) :=
  if_pos ⟨horder, hbound⟩

theorem slice_eq_panic {bytes : Bytes} {start stop : ℕ}
    (hbound : bytes.length < stop) :
    (slice bytes start stop : Fallible ε Bytes) = .error .panic :=
  if_neg fun h => absurd h.2 (by omega)

theorem sliceFrom_eq_ok {bytes : Bytes} {start : ℕ}
    (hbound : start ≤ bytes.length) :
    (sliceFrom bytes start : Fallible ε Bytes) = .ok (bytes.drop start) := by
  rw [sliceFrom, slice_eq_ok hbound le_rfl, List.take_of_length_le (by simp)]

/-- A read inside the slice never reports a length mismatch. -/
theorem readArray_eq_ok {size : ℕ} {mismatch : ε} {bytes : Bytes} {start : ℕ}
    (hbound : start + size ≤ bytes.length) :
    readArray size mismatch bytes start =
      .ok ⟨(bytes.drop start).take size, by simp; omega⟩ := by
  have hlength : ((bytes.drop start).take size).length = size := by
    simp
    omega
  simp [readArray, slice_eq_ok (Nat.le_add_right start size) hbound, tryInto,
    hlength]

theorem readArray_eq_panic {size : ℕ} {mismatch : ε} {bytes : Bytes}
    {start : ℕ} (hbound : bytes.length < start + size) :
    readArray size mismatch bytes start = .error .panic := by
  simp [readArray, slice_eq_panic hbound]

/-! ## Reading from a concatenation

A reader that starts behind the first part of a buffer does not look at it, so
a field in the middle of a layout is reached by dropping the parts before it
one at a time. -/

theorem readArray_skip {size : ℕ} {mismatch : ε} {front rest : Bytes}
    {start : ℕ} (hstart : front.length ≤ start) :
    readArray size mismatch (front ++ rest) start =
      readArray size mismatch rest (start - front.length) := by
  obtain ⟨offset, rfl⟩ := Nat.exists_eq_add_of_le hstart
  by_cases hbound : offset + size ≤ rest.length
  · rw [readArray_eq_ok (by simp; omega), readArray_eq_ok (by omega)]
    congr 1
    apply List.Vector.eq
    simp [List.drop_append, List.drop_eq_nil_of_le hstart]
  · rw [readArray_eq_panic (by simp; omega), readArray_eq_panic (by omega)]

@[simp]
theorem readArray_front {size : ℕ} {mismatch : ε} {rest : Bytes}
    (field : ByteArr size) :
    readArray size mismatch (field.toList ++ rest) 0 = .ok field := by
  rw [readArray_eq_ok (by simp)]
  congr 1
  apply List.Vector.eq
  simp

@[simp]
theorem readArray_whole {size : ℕ} {mismatch : ε} (field : ByteArr size) :
    readArray size mismatch field.toList 0 = .ok field := by
  simpa using @readArray_front ε size mismatch [] field

theorem slice_skip {front rest : Bytes} {start stop : ℕ}
    (hstart : front.length ≤ start) (horder : start ≤ stop) :
    (slice (front ++ rest) start stop : Fallible ε Bytes) =
      slice rest (start - front.length) (stop - front.length) := by
  obtain ⟨offset, rfl⟩ := Nat.exists_eq_add_of_le hstart
  obtain ⟨width, rfl⟩ := Nat.exists_eq_add_of_le horder
  by_cases hbound : offset + width ≤ rest.length
  · rw [slice_eq_ok horder (by simp; omega),
      slice_eq_ok (by omega) (by omega)]
    congr 2
    · omega
    · simp [List.drop_append]
  · rw [slice_eq_panic (by simp; omega), slice_eq_panic (by omega)]

theorem slice_front {front rest : Bytes} {stop : ℕ}
    (hstop : front.length = stop) :
    (slice (front ++ rest) 0 stop : Fallible ε Bytes) = .ok front := by
  subst hstop
  rw [slice_eq_ok (Nat.zero_le _) (by simp)]
  simp

theorem sliceFrom_skip {front rest : Bytes} {start : ℕ}
    (hstart : front.length ≤ start) :
    (sliceFrom (front ++ rest) start : Fallible ε Bytes) =
      sliceFrom rest (start - front.length) := by
  by_cases hbound : start ≤ (front ++ rest).length
  · have hrest : start - front.length ≤ rest.length := by
      simp at hbound
      omega
    rw [sliceFrom_eq_ok hbound, sliceFrom_eq_ok hrest, List.drop_append]
    simp [hstart]
  · have hrest : ¬start - front.length ≤ rest.length := by
      simp at hbound
      omega
    simp only [sliceFrom, slice, hbound, hrest, false_and, if_false]

@[simp]
theorem sliceFrom_zero (bytes : Bytes) :
    (sliceFrom bytes 0 : Fallible ε Bytes) = .ok bytes :=
  sliceFrom_eq_ok (Nat.zero_le _)

end P2PNetwork.ByteAccess
