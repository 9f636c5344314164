/-
# What the texts of numbers and instants are made of

Texts that `as_text` makes of numbers and timestamps.

| text | characters beside digits |
| --- | --- |
| a natural number | none |
| an integer | `-` |
| an instant | `-`, `+`, `:`, `.` and `T` |
-/

import Inventory.Timestamp
import Mathlib.Data.List.Basic

namespace Inventory

variable {c : Char}

namespace Text

/-- The digits of a number are digits. -/
theorem notMem_toDigits (hc : c.isDigit = false) (n : Nat) : c ∉ Nat.toDigits 10 n := by
  intro hmem
  rw [Nat.isDigit_of_mem_toDigits (by decide) (by decide) hmem] at hc
  cases hc

/-- The text of a natural number has digits only. -/
theorem notMem_toString_nat (hc : c.isDigit = false) (n : Nat) : c ∉ (toString n).toList := by
  rw [Nat.toString_eq_ofList_toDigits, String.toList_ofList]
  exact notMem_toDigits hc n

/-- The text of an integer has digits and at most a minus. -/
theorem notMem_toString_int (hc : c.isDigit = false) (hminus : c ≠ '-') (n : Int) :
    c ∉ (toString n).toList := by
  cases n with
  | ofNat k => simpa [Int.toString_eq_repr, Int.repr_eq_if] using notMem_toDigits hc k
  | negSucc k =>
    simpa [Int.toString_eq_repr, Int.repr_eq_if, hminus] using notMem_toDigits hc (k + 1)

end Text

namespace Timestamp

/-- A padded number has digits only. -/
theorem notMem_padded (hc : c.isDigit = false) (width n : Nat) : c ∉ padded width n := by
  have hzero : c ≠ '0' := fun h => by simp [h] at hc
  rw [padded, List.mem_append, List.mem_replicate, not_or]
  exact ⟨fun h => hzero h.2, Text.notMem_toDigits hc n⟩

/-- The text of an instant has digits and its marks only. -/
theorem notMem_rfc3339 (hc : c.isDigit = false) (hother : c ∉ "-+:.T".toList) (t : Timestamp) :
    c ∉ t.rfc3339.toList := by
  have hpadded := notMem_padded hc
  have hothers : c ≠ '-' ∧ c ≠ '+' ∧ c ≠ ':' ∧ c ≠ '.' ∧ c ≠ 'T' := by simpa using hother
  obtain ⟨hminus, hplus, hcolon, hpoint, hletter⟩ := hothers
  have hyear : c ∉ yearText t.date.year := by
    rw [yearText]
    split
    · exact hpadded _ _
    · split <;> simp [hminus, hplus, hpadded]
  have hfraction : c ∉ fractionText t.fraction := by
    rw [fractionText]
    split
    · exact List.not_mem_nil
    · repeat' split
      all_goals simp [hpoint, hpadded]
  have hzero : c ≠ '0' := fun h => by simp [h] at hc
  simp [rfc3339, localText, dateText, clockText, hyear, hfraction, hpadded, hminus, hplus, hcolon,
    hletter, hzero]

end Timestamp
end Inventory
