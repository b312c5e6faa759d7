import Mathlib.Tactic

/-!
# A queue that is served once a batch

Items end in batches, and one of them is served after every batch.  What is left
behind is known from the batches alone: the most by which, in the batches from
some point on, the items that end outnumber the batches.
-/

namespace P2PNetwork.Backlog

variable {α : Type} (count : List α → ℕ)

/-- The items that end in the batches from `start` on, beyond one a batch. -/
def excess (batches : List (List α)) (start : ℕ) : ℕ :=
  count batches.flatten - count (batches.take start).flatten -
    (batches.length - start)

/-- The items left behind after the last batch. -/
def backlog (batches : List (List α)) : ℕ :=
  (Finset.range (batches.length + 1)).sup (excess count batches)

/-- From no point on do more items end than there are batches. -/
def KeepsUp (batches : List (List α)) : Prop :=
  ∀ start ≤ batches.length,
    count batches.flatten ≤
      count (batches.take start).flatten + (batches.length - start)

variable {count}

@[simp]
theorem backlog_nil : backlog count [] = 0 := by
  simp [backlog, excess]

theorem backlog_le_count (batches : List (List α)) :
    backlog count batches ≤ count batches.flatten := by
  refine Finset.sup_le fun start _ => ?_
  exact (Nat.sub_le _ _).trans (Nat.sub_le _ _)

theorem excess_le_backlog {batches : List (List α)} {start : ℕ}
    (hstart : start ≤ batches.length) :
    excess count batches start ≤ backlog count batches :=
  Finset.le_sup (Finset.mem_range.mpr (Nat.lt_succ_of_le hstart))

theorem exists_excess_eq_backlog (batches : List (List α)) :
    ∃ start ≤ batches.length,
      excess count batches start = backlog count batches := by
  obtain ⟨start, hstart, heq⟩ := Finset.exists_mem_eq_sup
    (Finset.range (batches.length + 1)) ⟨0, by simp⟩ (excess count batches)
  exact ⟨start, Nat.lt_succ_iff.mp (Finset.mem_range.mp hstart), heq.symm⟩

theorem backlog_eq_zero_iff {batches : List (List α)} :
    backlog count batches = 0 ↔ KeepsUp count batches := by
  constructor
  · intro hnone start hstart
    have hexcess := @excess_le_backlog α count _ _ hstart
    rw [hnone, excess] at hexcess
    omega
  · intro hkeeps
    refine Nat.le_zero.mp (Finset.sup_le fun start hstart => ?_)
    have hbound := hkeeps start (Nat.lt_succ_iff.mp (Finset.mem_range.mp hstart))
    rw [excess]
    omega

theorem keepsUp_nil : KeepsUp count [] :=
  backlog_eq_zero_iff.mp backlog_nil

section Append

variable (hmono : ∀ items more, count items ≤ count (items ++ more))
include hmono

theorem excess_append {batches : List (List α)} {batch : List α} {start : ℕ}
    (hstart : start ≤ batches.length) :
    excess count (batches ++ [batch]) start =
      count batches.flatten - count (batches.take start).flatten +
          (count (batches.flatten ++ batch) - count batches.flatten) -
        (batches.length - start + 1) := by
  have htake : (batches ++ [batch]).take start = batches.take start :=
    List.take_append_of_le_length hstart
  have hearlier : count (batches.take start).flatten ≤ count batches.flatten := by
    have hsplit := congrArg List.flatten (List.take_append_drop start batches)
    rw [List.flatten_append] at hsplit
    rw [← hsplit]
    exact hmono _ _
  have hlater := hmono batches.flatten batch
  rw [excess, htake, List.flatten_append, List.length_append, List.flatten_singleton,
    List.length_singleton]
  omega

/-- A batch adds what ends in it, and one item is served. -/
theorem backlog_append (batches : List (List α)) (batch : List α) :
    backlog count (batches ++ [batch]) =
      backlog count batches +
          (count (batches.flatten ++ batch) - count batches.flatten) - 1 := by
  apply le_antisymm
  · refine Finset.sup_le fun start hstart => ?_
    rw [Finset.mem_range, List.length_append, List.length_singleton] at hstart
    obtain hearlier | rfl : start ≤ batches.length ∨ start = batches.length + 1 := by
      omega
    · have hexcess := @excess_le_backlog α count _ _ hearlier
      rw [excess_append hmono hearlier]
      rw [excess] at hexcess
      omega
    · have hwhole : (batches ++ [batch]).take (batches.length + 1) =
          batches ++ [batch] := List.take_of_length_le (by simp)
      rw [excess, hwhole, Nat.sub_self, Nat.zero_sub]
      exact Nat.zero_le _
  · obtain ⟨start, hstart, heq⟩ := @exists_excess_eq_backlog α count batches
    by_cases hnone : backlog count batches = 0
    · -- the last batch alone
      have hlast := @excess_le_backlog α count (batches ++ [batch]) batches.length
        (by simp)
      rw [excess_append hmono le_rfl, List.take_length] at hlast
      omega
    · have hexcess := @excess_le_backlog α count (batches ++ [batch]) start
        (hstart.trans (by simp))
      rw [excess_append hmono hstart] at hexcess
      rw [excess] at heq
      omega

/-- Batches of at most one item each leave nothing behind. -/
theorem keepsUp_of_forall {batches : List (List α)}
    (hsingle : ∀ front batch rest, batches = front ++ batch :: rest →
      count (front.flatten ++ batch) ≤ count front.flatten + 1) :
    KeepsUp count batches := by
  rw [← backlog_eq_zero_iff]
  induction batches using List.reverseRecOn with
  | nil => exact backlog_nil
  | append_singleton batches batch ih =>
      have hearlier := ih fun front other rest heq =>
        hsingle front other (rest ++ [batch]) (by rw [heq]; simp)
      have hlast := hsingle batches batch [] rfl
      rw [backlog_append hmono, hearlier]
      omega

end Append

end P2PNetwork.Backlog
