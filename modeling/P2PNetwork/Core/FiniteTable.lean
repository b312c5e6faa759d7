import Mathlib.Data.List.AList

/-!
# Finite tables

A hash map seen as a finite association of keys and values.  The two lemmas
say what a lookup finds after an update, without a case distinction in the
lemma that uses them.
-/

namespace P2PNetwork.FiniteTable

/-- A finite map from `κ` to `β`. -/
abbrev Table (κ β : Type) := AList fun _ : κ => β

variable {κ β : Type} [DecidableEq κ]

theorem lookup_insert_ite (key other : κ) (value : β) (table : Table κ β) :
    (table.insert key value).lookup other =
      if other = key then some value else table.lookup other := by
  by_cases heq : other = key
  · subst other
    simp
  · simp [heq, AList.lookup_insert_ne heq]

theorem lookup_erase_ite (key other : κ) (table : Table κ β) :
    (table.erase key).lookup other =
      if other = key then none else table.lookup other := by
  by_cases heq : other = key
  · subst other
    simp
  · simp [heq, AList.lookup_erase_ne heq]

theorem mem_iff_lookup {key : κ} {table : Table κ β} :
    key ∈ table ↔ ∃ value, table.lookup key = some value := by
  rw [← AList.lookup_isSome, Option.isSome_iff_exists]

end P2PNetwork.FiniteTable
