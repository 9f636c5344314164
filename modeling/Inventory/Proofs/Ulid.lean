/-
# The text of an identifier determines it

The text of the identifier of a record.

The digit at a position carries five of the 128 bits, and the 26 positions together
carry all of them. So two identifiers with the same text are the same
(`Ulid.toText_injective`).
-/

import Inventory.Ulid
import Mathlib.Data.List.Basic
import Mathlib.Data.List.Nodup

namespace Inventory
namespace Ulid

theorem nodup_alphabet : alphabet.Nodup := by decide

/-- The digit at a position is that of its five bits. -/
theorem digitAt_eq (id : Ulid) (i : Nat) :
    ∃ h : (id.bits.toNat >>> (5 * i)) % 32 < alphabet.length,
      id.digitAt i = alphabet[(id.bits.toNat >>> (5 * i)) % 32] := by
  have h : (id.bits.toNat >>> (5 * i)) % 32 < alphabet.length := Nat.mod_lt _ (by decide)
  exact ⟨h, (List.getElem_eq_getD '0').symm⟩

/-- A digit is one of the alphabet. -/
theorem digitAt_mem (id : Ulid) (i : Nat) : id.digitAt i ∈ alphabet := by
  obtain ⟨h, hdigit⟩ := id.digitAt_eq i
  rw [hdigit]
  exact List.getElem_mem h

/-- A digit is the five bits at its position. -/
theorem testBit_eq_of_digitAt_eq {a b : Ulid} {i : Nat} (h : a.digitAt i = b.digitAt i) {k : Nat}
    (hk : k < 5) : a.bits.toNat.testBit (5 * i + k) = b.bits.toNat.testBit (5 * i + k) := by
  obtain ⟨ha, hdigitA⟩ := a.digitAt_eq i
  obtain ⟨hb, hdigitB⟩ := b.digitAt_eq i
  rw [hdigitA, hdigitB, nodup_alphabet.getElem_inj_iff] at h
  have hfive (n : Nat) : (n % 32).testBit k = n.testBit k := by
    have hmod := Nat.testBit_mod_two_pow n 5 k
    rwa [decide_eq_true hk, Bool.true_and] at hmod
  rw [← Nat.testBit_shiftRight, ← Nat.testBit_shiftRight, ← hfive, ← hfive (b.bits.toNat >>> _), h]

/-- Identifiers with the same digits are the same. -/
theorem eq_of_digitAt_eq {a b : Ulid} (h : ∀ i < 26, a.digitAt i = b.digitAt i) : a = b := by
  have hbits : a.bits.toNat = b.bits.toNat := by
    refine Nat.eq_of_testBit_eq fun j => ?_
    by_cases hj : j < 128
    · have hsplit : 5 * (j / 5) + j % 5 = j := Nat.div_add_mod j 5
      rw [← hsplit]
      exact testBit_eq_of_digitAt_eq (h (j / 5) (by omega)) (Nat.mod_lt j (by decide))
    · have hzero (id : Ulid) : id.bits.toNat.testBit j = false :=
        Nat.testBit_lt_two_pow (Nat.lt_of_lt_of_le id.bits.isLt
          (Nat.pow_le_pow_right (by decide) (Nat.le_of_not_lt hj)))
      rw [hzero, hzero]
  obtain ⟨bits⟩ := a
  obtain ⟨bits'⟩ := b
  exact congrArg Ulid.mk (BitVec.eq_of_toNat_eq hbits)

/-- **The text of an identifier determines it.** -/
theorem toText_injective : Function.Injective toText := by
  intro a b h
  have hdigits := List.map_inj_left.1 (String.ofList_injective h)
  refine eq_of_digitAt_eq fun i hi => hdigits i ?_
  rw [List.mem_reverse, List.mem_range]
  exact hi

/-- The text of an identifier consists of digits. -/
theorem mem_alphabet_of_mem_toText {id : Ulid} {c : Char} (h : c ∈ id.toText.toList) :
    c ∈ alphabet := by
  rw [toText, String.toList_ofList] at h
  obtain ⟨i, -, rfl⟩ := List.mem_map.1 h
  exact id.digitAt_mem i

end Ulid
end Inventory
