import P2PNetwork.Core.ByteAccess

/-!
# Readers of a growing buffer

A decoder is run again and again on a buffer that grows at its end.  A reader
is stable when later bytes do not change a success of it, and it needs a number
of bytes when it aborts on fewer.
-/

namespace P2PNetwork.ByteAccess

variable {ε α β : Type}

theorem slice_eq_ok_iff {bytes part : Bytes} {start stop : ℕ} :
    (slice bytes start stop : Fallible ε Bytes) = .ok part ↔
      start ≤ stop ∧ stop ≤ bytes.length ∧
        part = (bytes.drop start).take (stop - start) := by
  unfold slice
  split
  case isTrue hrange => simp [hrange, eq_comm]
  case isFalse hrange =>
    constructor
    · intro hslice
      cases hslice
    · rintro ⟨horder, hbound, -⟩
      exact absurd ⟨horder, hbound⟩ hrange

/-- A read inside the buffer yields the bytes that stand there. -/
theorem exists_readArray {size start : ℕ} (mismatch : ε) {bytes : Bytes}
    (hbound : start + size ≤ bytes.length) :
    ∃ field : ByteArr size, readArray size mismatch bytes start = .ok field ∧
      field.toList = (bytes.drop start).take size :=
  ⟨_, readArray_eq_ok hbound, rfl⟩

/-- Two parts of a buffer that stand one behind the other. -/
theorem take_drop_append (bytes : Bytes) (start size more : ℕ) :
    (bytes.drop start).take size ++ (bytes.drop (start + size)).take more =
      (bytes.drop start).take (size + more) := by
  rw [List.take_add, List.drop_drop]

/-! ## Stability -/

/-- Later bytes do not change a success of the reader. -/
def Stable (read : Bytes → Fallible ε α) : Prop :=
  ∀ bytes rest value, read bytes = .ok value → read (bytes ++ rest) = .ok value

theorem stable_const (result : Fallible ε α) : Stable fun _ => result :=
  fun _ _ _ hread => hread

theorem Stable.bind {read : Bytes → Fallible ε α}
    {next : α → Bytes → Fallible ε β} (hread : Stable read)
    (hnext : ∀ value, Stable (next value)) :
    Stable fun bytes => read bytes >>= fun value => next value bytes := by
  intro bytes rest result hresult
  obtain ⟨value, hvalue, hrest⟩ := bind_eq_ok_iff.mp hresult
  exact bind_eq_ok_iff.mpr
    ⟨value, hread bytes rest value hvalue, hnext value bytes rest result hrest⟩

theorem stable_slice (start stop : ℕ) :
    Stable fun bytes => (slice bytes start stop : Fallible ε Bytes) := by
  intro bytes rest part hpart
  obtain ⟨horder, hbound, rfl⟩ := slice_eq_ok_iff.mp hpart
  refine slice_eq_ok_iff.mpr ⟨horder, ?_, ?_⟩
  · rw [List.length_append]
    exact hbound.trans (Nat.le_add_right _ _)
  · have hdrop : (bytes ++ rest).drop start = bytes.drop start ++ rest :=
      List.drop_append_of_le_length (horder.trans hbound)
    rw [hdrop, List.take_append_of_le_length]
    rw [List.length_drop]
    omega

theorem stable_readArray (size : ℕ) (mismatch : ε) (start : ℕ) :
    Stable fun bytes => readArray size mismatch bytes start :=
  (stable_slice start (start + size)).bind fun _ => stable_const _

/-- A read of one byte that fails when the byte is not there. -/
theorem stable_getElem? (index : ℕ) {missing : Fallible ε α}
    (hmissing : ∀ value, missing ≠ .ok value) (found : UInt8 → Fallible ε α) :
    Stable fun bytes => match bytes[index]? with
      | none => missing
      | some byte => found byte := by
  intro bytes rest value hvalue
  cases hbyte : bytes[index]? with
  | none =>
      simp only [hbyte] at hvalue
      exact absurd hvalue (hmissing value)
  | some byte =>
      obtain ⟨hbound, -⟩ := List.getElem?_eq_some_iff.mp hbyte
      simp only [hbyte] at hvalue
      simp only [List.getElem?_append_left hbound, hbyte, hvalue]

/-- A stable reader behind an offset, followed by one from the start. -/
theorem Stable.sliceFrom {read : Bytes → Fallible ε α}
    {next : α → Bytes → Fallible ε β} (hread : Stable read) (start : ℕ)
    (hnext : ∀ value, Stable (next value)) :
    Stable fun bytes => sliceFrom bytes start >>= fun part =>
      read part >>= fun value => next value bytes := by
  intro bytes rest result hresult
  obtain ⟨part, hpart, hread'⟩ := bind_eq_ok_iff.mp hresult
  obtain ⟨value, hvalue, hrest⟩ := bind_eq_ok_iff.mp hread'
  obtain ⟨hbound, -, rfl⟩ := slice_eq_ok_iff.mp hpart
  have hslice : (ByteAccess.sliceFrom (bytes ++ rest) start : Fallible ε Bytes) =
      .ok (bytes.drop start ++ rest) := by
    rw [sliceFrom_eq_ok (by simp; omega), List.drop_append_of_le_length hbound]
  rw [List.take_of_length_le (by simp)] at hvalue
  simp only [hslice, ok_bind, hread _ rest value hvalue]
  exact hnext value bytes rest result hrest

/-! ## Short buffers -/

/-- The reader succeeds or aborts, and never returns an error. -/
def ErrorFree (read : Bytes → Fallible ε α) : Prop :=
  ∀ bytes, read bytes = .error .panic ∨ ∃ value, read bytes = .ok value

/-- The reader aborts on fewer than `size` bytes. -/
def Needs (size : ℕ) (read : Bytes → Fallible ε α) : Prop :=
  ∀ bytes, bytes.length < size → read bytes = .error .panic

theorem errorFree_slice (start stop : ℕ) :
    ErrorFree fun bytes => (slice bytes start stop : Fallible ε Bytes) := by
  intro bytes
  by_cases hrange : start ≤ stop ∧ stop ≤ bytes.length
  · exact .inr ⟨_, slice_eq_ok hrange.1 hrange.2⟩
  · exact .inl (if_neg hrange)

theorem errorFree_readArray (size : ℕ) (mismatch : ε) (start : ℕ) :
    ErrorFree fun bytes => readArray size mismatch bytes start := by
  intro bytes
  by_cases hbound : start + size ≤ bytes.length
  · exact .inr ⟨_, readArray_eq_ok hbound⟩
  · exact .inl (readArray_eq_panic (not_le.mp hbound))

theorem ErrorFree.bind {read : Bytes → Fallible ε α}
    {next : α → Bytes → Fallible ε β} (hread : ErrorFree read)
    (hnext : ∀ value, ErrorFree (next value)) :
    ErrorFree fun bytes => read bytes >>= fun value => next value bytes := by
  intro bytes
  obtain hpanic | ⟨value, hvalue⟩ := hread bytes
  · exact .inl (by simp only [hpanic, error_bind])
  · simp only [hvalue, ok_bind]
    exact hnext value bytes

theorem errorFree_ok (value : α) : ErrorFree fun _ => (.ok value : Fallible ε α) :=
  fun _ => .inr ⟨value, rfl⟩

/-- A reader aborts when what follows its error-free first part does. -/
theorem Needs.bind {size : ℕ} {read : Bytes → Fallible ε α}
    {next : α → Bytes → Fallible ε β} (hread : ErrorFree read)
    (hnext : ∀ value, Needs size (next value)) :
    Needs size fun bytes => read bytes >>= fun value => next value bytes := by
  intro bytes hshort
  obtain hpanic | ⟨value, hvalue⟩ := hread bytes
  · simp only [hpanic, error_bind]
  · simp only [hvalue, ok_bind]
    exact hnext value bytes hshort

end P2PNetwork.ByteAccess
