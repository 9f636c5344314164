/-
# Lower case of a piece of a text

The lower case that `matches` compares texts in.

Lower case looks around a character only at `Σ`, and only as far as the next character on
either side that case detection does not skip. A piece of a text has the same lower case
wherever it stands when no `Σ` of it looks past an end of the piece (`Settled`):

| before the `Σ`, in the piece | after it, in the piece | the `Σ` alone | in a text it may become |
| --- | --- | --- | --- |
| cased | nothing but skipped characters | `ς` | `σ`, when a cased letter follows |
| nothing but skipped characters | not cased | `σ` | `ς`, when a cased letter precedes |
| any other | any other | as in every text | |

So a piece is found again in the lower case of every text that has it exactly when it is settled
(`foundInAll_iff_settled`).
-/

import Inventory.Text.Lowercase
import Mathlib.Data.List.Basic

namespace Inventory
namespace Text

variable {before after rest s t : List Char} {c : Char}

/-- A text occurs in another one when it is a piece of it. -/
theorem occursIn_iff_isInfix {needle s : List Char} : occursIn needle s = true ↔ needle <:+: s := by
  rw [occursIn_iff]
  exact exists_congr fun _ => exists_congr fun _ => eq_comm

/-! ### A piece within a text -/

/-- Lower case of one character between others; those before it stand nearest first. -/
def lowerChar (before after : List Char) (c : Char) : List Char :=
  if c = 'Σ' then [if startsCased before && !startsCased after then 'ς' else 'σ']
  else if c = 'İ' then ['i', Char.ofNat 0x307]
  else [simpleLower c]

/-- Lower case of a piece between others; those before it stand nearest first. -/
def lowerWithin (before after : List Char) : List Char → List Char
  | [] => []
  | c :: rest => lowerChar before (rest ++ after) c ++ lowerWithin (c :: before) after rest

/-- Lower case behind a text is lower case within it, with nothing behind. -/
theorem lowerAfter_eq_lowerWithin (before s : List Char) :
    lowerAfter before s = lowerWithin before [] s := by
  induction s generalizing before with
  | nil => rfl
  | cons c rest ih =>
    rw [lowerWithin, List.append_nil, ← ih]
    rfl

/-- Lower case of a whole text is lower case within nothing. -/
theorem lower_eq_lowerWithin (s : List Char) : lower s = lowerWithin [] [] s :=
  lowerAfter_eq_lowerWithin [] s

/-- Lower case of two texts is that of each within the other. -/
theorem lowerWithin_append (before after s t : List Char) :
    lowerWithin before after (s ++ t)
      = lowerWithin before (t ++ after) s ++ lowerWithin (s.reverse ++ before) after t := by
  induction s generalizing before with
  | nil => rfl
  | cons c rest ih =>
    rw [List.cons_append, lowerWithin, lowerWithin, ih, List.append_assoc, List.append_assoc,
      List.reverse_cons, List.append_assoc]
    rfl

/-- **The lower case of a text** holds that of each piece, between the other pieces. -/
theorem lower_eq_append (before s after : List Char) :
    lower (before ++ s ++ after)
      = lowerWithin [] (s ++ after) before ++ lowerWithin before.reverse after s
        ++ lowerWithin (s.reverse ++ before.reverse) [] after := by
  simp [lower_eq_lowerWithin, lowerWithin_append]

/-! ### What a character looks at -/

/-- A cased letter comes first when it does in the first text, or is all ignored there. -/
theorem startsCased_append (s t : List Char) :
    startsCased (s ++ t) = if s.all isCaseIgnorable then startsCased t else startsCased s := by
  induction s with
  | nil => rfl
  | cons c rest ih =>
    by_cases hc : isCaseIgnorable c
    · simpa [startsCased, hc] using ih
    · simp [startsCased, hc]

/-- Where all is ignored no cased letter comes. -/
theorem startsCased_of_all (h : s.all isCaseIgnorable = true) : startsCased s = false := by
  simpa [h, startsCased] using startsCased_append s []

/-- A `Σ` between `before`, nearest first, and `after` becomes the same in every text. -/
def SettledAt (before after : List Char) : Prop :=
  (before.all isCaseIgnorable = true → startsCased after = true)
    ∧ (after.all isCaseIgnorable = true → startsCased before = false)

instance (before after : List Char) : Decidable (SettledAt before after) :=
  inferInstanceAs (Decidable (_ ∧ _))

/-- Where a `Σ` is settled, more text around it does not matter. -/
theorem lowerChar_of_settledAt (h : c = 'Σ' → SettledAt before after) (before' after' : List Char) :
    lowerChar (before ++ before') (after ++ after') c = lowerChar before after c := by
  by_cases hc : c = 'Σ'
  · obtain ⟨hbefore, hafter⟩ := h hc
    simp only [lowerChar, hc, if_true, startsCased_append]
    by_cases hb : before.all isCaseIgnorable = true
    · have ha : after.all isCaseIgnorable ≠ true := fun ha => by
        simpa [startsCased_of_all ha] using hbefore hb
      simp [hb, ha, hbefore hb]
    · by_cases ha : after.all isCaseIgnorable = true
      · simp [hb, ha, hafter ha]
      · simp [hb, ha]
  · simp only [lowerChar, hc, if_false]

/-- Every `Σ` of a piece becomes the same in every text, given what stands before the piece. -/
def SettledAfter (before : List Char) : List Char → Prop
  | [] => True
  | c :: rest => (c = 'Σ' → SettledAt before rest) ∧ SettledAfter (c :: before) rest

/-- Every `Σ` of a piece becomes the same in every text. -/
def Settled (s : List Char) : Prop := SettledAfter [] s

instance decidableSettledAfter (before : List Char) :
    (s : List Char) → Decidable (SettledAfter before s)
  | [] => inferInstanceAs (Decidable True)
  | c :: rest =>
    have := decidableSettledAfter (c :: before) rest
    inferInstanceAs (Decidable (_ ∧ _))

instance (s : List Char) : Decidable (Settled s) := decidableSettledAfter [] s

/-- Without `Σ` a text is settled. -/
theorem settledAfter_of_notMem (h : 'Σ' ∉ s) (before : List Char) : SettledAfter before s := by
  induction s generalizing before with
  | nil => trivial
  | cons c rest ih =>
    rw [List.mem_cons, not_or] at h
    obtain ⟨hc, hrest⟩ := h
    exact ⟨fun heq => absurd heq.symm hc, ih hrest _⟩

/-- A piece without `Σ` is settled. -/
theorem settled_of_notMem (h : 'Σ' ∉ s) : Settled s := settledAfter_of_notMem h []

/-- A text that is not settled has a `Σ` that is not. -/
theorem exists_of_not_settledAfter (h : ¬ SettledAfter before s) :
    ∃ u v, s = u ++ 'Σ' :: v ∧ ¬ SettledAt (u.reverse ++ before) v := by
  induction s generalizing before with
  | nil => exact absurd trivial h
  | cons c rest ih =>
    by_cases hrest : SettledAfter (c :: before) rest
    · obtain ⟨rfl, hc⟩ : c = 'Σ' ∧ ¬ SettledAt before rest := by
        by_contra hnot
        exact h ⟨fun heq => not_not.1 fun hsettled => hnot ⟨heq, hsettled⟩, hrest⟩
      exact ⟨[], rest, rfl, hc⟩
    · obtain ⟨u, v, rfl, hv⟩ := ih hrest
      refine ⟨c :: u, v, rfl, ?_⟩
      rwa [List.reverse_cons, List.append_assoc]

/-! ### Settled pieces are found -/

/-- **A settled text** has one lower case wherever it stands. -/
theorem lowerWithin_of_settledAfter (h : SettledAfter before s) (before' after : List Char) :
    lowerWithin (before ++ before') after s = lowerWithin before [] s := by
  induction s generalizing before with
  | nil => rfl
  | cons c rest ih =>
    rw [lowerWithin, lowerChar_of_settledAt h.1, lowerWithin, List.append_nil]
    exact congrArg _ (ih h.2)

/-- **A settled piece** has the same lower case in every text. -/
theorem lower_infix_of_settled (h : Settled s) (hst : s <:+: t) : lower s <:+: lower t := by
  obtain ⟨before, after, rfl⟩ := hst
  have hs : lowerWithin before.reverse after s = lower s := by
    rw [lower_eq_lowerWithin]
    exact lowerWithin_of_settledAfter h before.reverse after
  exact ⟨_, _, hs ▸ (lower_eq_append before s after).symm⟩

/-! ### Pieces that are not settled are lost -/

/-- Where more letters around each character make for fewer `d`, they do so for the piece. -/
theorem count_lowerWithin_le {d : Char} {before' after' : List Char}
    (h : ∀ before after c, (lowerChar (before ++ before') (after ++ after') c).count d
      ≤ (lowerChar before after c).count d) (before after s : List Char) :
    (lowerWithin (before ++ before') (after ++ after') s).count d
      ≤ (lowerWithin before after s).count d := by
  induction s generalizing before with
  | nil => exact Nat.le_refl _
  | cons c rest ih =>
    rw [lowerWithin, lowerWithin, List.count_append, List.count_append, ← List.append_assoc]
    exact Nat.add_le_add (h before (rest ++ after) c) (ih (c :: before))

/-- One `Σ` that is no longer `d` makes fewer of them. -/
theorem count_lowerWithin_lt {d : Char} {before' after' u v : List Char}
    (h : ∀ before after c, (lowerChar (before ++ before') (after ++ after') c).count d
      ≤ (lowerChar before after c).count d)
    (hlost : (lowerChar (u.reverse ++ before') (v ++ after') 'Σ').count d
      < (lowerChar u.reverse v 'Σ').count d) :
    (lowerWithin before' after' (u ++ 'Σ' :: v)).count d
      < (lowerWithin [] [] (u ++ 'Σ' :: v)).count d := by
  have hu := count_lowerWithin_le h [] ('Σ' :: v) u
  have hv := count_lowerWithin_le h ('Σ' :: u.reverse) [] v
  simp only [List.nil_append, List.cons_append] at hu hv
  rw [lowerWithin_append, lowerWithin_append, lowerWithin, lowerWithin]
  simp only [List.count_append, List.append_nil, List.cons_append]
  omega

theorem startsCased_alpha (after : List Char) : startsCased ('α' :: after) = true := by
  have hletter : isCaseIgnorable 'α' = false ∧ isCased 'α' = true := by decide +kernel
  simp [startsCased, hletter]

theorem lowerChar_alpha (before after : List Char) : lowerChar before after 'α' = ['α'] := by
  rw [lowerChar, if_neg (by decide), if_neg (by decide)]
  decide +kernel

/-- A cased letter behind a piece takes away final forms. -/
theorem count_final_le (before after : List Char) (c : Char) :
    (lowerChar (before ++ []) (after ++ ['α']) c).count 'ς'
      ≤ (lowerChar before after c).count 'ς' := by
  by_cases hc : c = 'Σ'
  · simp only [lowerChar, hc, if_true, List.append_nil, startsCased_append, startsCased_alpha]
    by_cases ha : after.all isCaseIgnorable = true
    · simp [ha, startsCased_of_all ha]
    · simp [ha]
  · simp only [lowerChar, hc, if_false]
    exact Nat.le_refl _

/-- A cased letter before a piece takes away forms that are not final. -/
theorem count_medial_le (before after : List Char) (c : Char) :
    (lowerChar (before ++ ['α']) (after ++ []) c).count 'σ'
      ≤ (lowerChar before after c).count 'σ' := by
  by_cases hc : c = 'Σ'
  · simp only [lowerChar, hc, if_true, List.append_nil, startsCased_append, startsCased_alpha]
    by_cases hb : before.all isCaseIgnorable = true
    · cases startsCased after <;> simp [hb, startsCased_of_all hb]
    · simp [hb]
  · simp only [lowerChar, hc, if_false]
    exact Nat.le_refl _

/-- A piece with fewer `d` in a text than alone is not found there, when there are none around. -/
theorem not_lower_infix_of_count_lt {d : Char} {before after : List Char}
    (hbefore : (lowerWithin [] (s ++ after) before).count d = 0)
    (hafter : (lowerWithin (s.reverse ++ before.reverse) [] after).count d = 0)
    (hlt : (lowerWithin before.reverse after s).count d < (lowerWithin [] [] s).count d) :
    ¬ lower s <:+: lower (before ++ s ++ after) := by
  intro hfound
  have hle := hfound.sublist.count_le d
  rw [lower_eq_append, List.count_append, List.count_append, lower_eq_lowerWithin] at hle
  omega

/-- **A piece that is not settled** is lost in some text that has it. -/
theorem exists_lost_of_not_settled (h : ¬ Settled s) :
    ∃ t, s <:+: t ∧ ¬ lower s <:+: lower t := by
  obtain ⟨u, v, rfl, hat⟩ := exists_of_not_settledAfter h
  rw [List.append_nil] at hat
  by_cases hfirst : u.reverse.all isCaseIgnorable = true → startsCased v = true
  · -- The form is final alone. A cased letter at the end makes it another.
    obtain ⟨hv, hu⟩ : v.all isCaseIgnorable = true ∧ startsCased u.reverse = true := by
      by_contra hnot
      refine hat ⟨hfirst, fun hv => ?_⟩
      exact Bool.eq_false_iff.2 fun hu => hnot ⟨hv, hu⟩
    refine ⟨[] ++ (u ++ 'Σ' :: v) ++ ['α'], ⟨[], ['α'], rfl⟩, ?_⟩
    refine not_lower_infix_of_count_lt (d := 'ς') rfl ?_ (count_lowerWithin_lt count_final_le ?_)
    · rw [lowerWithin, lowerChar_alpha]
      rfl
    · have hlast : startsCased v = false := startsCased_of_all hv
      simp [lowerChar, startsCased_append, startsCased_alpha, hv, hu, hlast]
  · -- The form is not final alone. A cased letter at the start makes it so.
    obtain ⟨hu, hv⟩ : u.reverse.all isCaseIgnorable = true ∧ startsCased v = false := by
      by_contra hnot
      refine hfirst fun hu => ?_
      exact not_not.1 fun hv => hnot ⟨hu, Bool.eq_false_iff.2 hv⟩
    refine ⟨['α'] ++ (u ++ 'Σ' :: v) ++ [], ⟨['α'], [], rfl⟩, ?_⟩
    refine not_lower_infix_of_count_lt (d := 'σ') ?_ rfl (count_lowerWithin_lt count_medial_le ?_)
    · rw [lowerWithin, lowerChar_alpha]
      rfl
    · have hnone : startsCased u.reverse = false := startsCased_of_all hu
      simp [lowerChar, startsCased_append, startsCased_alpha, hu, hv, hnone]

/-- **Which pieces are found** in the lower case of every text that has them. -/
theorem foundInAll_iff_settled {s : List Char} :
    (∀ t, s <:+: t → occursIn (lower s) (lower t) = true) ↔ Settled s := by
  simp only [occursIn_iff_isInfix]
  constructor
  · intro h
    by_contra hnot
    obtain ⟨t, hst, hlost⟩ := exists_lost_of_not_settled hnot
    exact hlost (h t hst)
  · exact fun h t hst => lower_infix_of_settled h hst

/-- A word is not settled when it ends in `Σ`, nor when it is a lone one before no letter. -/
example : Settled "ΣΑΣΑ".toList ∧ ¬ Settled "ΑΣ".toList ∧ ¬ Settled "Σ 1".toList := by
  decide +kernel

end Text
end Inventory
