/-
# The text of an instant stands for one instant

The text that `as_text` makes of a timestamp.

A text of digits ends at the first other character (`digits_append_inj`), so a text that is
put together of numbers and marks is taken apart from its front:

| part | is known by |
| --- | --- |
| year | its sign, if it has one, and its digits |
| month, day, hours, minutes, seconds | their digits |
| fraction | its digits and how many they are |

Numbers with zeros in front are known by their digits whatever the width is
(`padded_injective`). Together the parts are those of one instant (`eq_of_localText_append`).
-/

import Inventory.Proofs.Json.RoundTrip
import Inventory.Proofs.Timestamp.Calendar

namespace Inventory
namespace Timestamp

variable {c c' : Char} {s s' : List Char}

/-! ### Numbers with zeros in front -/

/-- A padded number has digits only. -/
theorem isDigit_of_mem_padded {width n : Nat} (h : c ∈ padded width n) : c.isDigit = true := by
  rcases List.mem_append.1 h with h | h
  · rw [(List.mem_replicate.1 h).2]
    rfl
  · exact Nat.isDigit_of_mem_toDigits (by decide) (by decide) h

/-- The zeros in front do not change the number. -/
theorem ofDigitChars_padded (width n : Nat) : Nat.ofDigitChars 10 (padded width n) 0 = n := by
  rw [padded, Nat.ofDigitChars_append, Nat.ofDigitChars_replicate_zero, Nat.mul_zero,
    Nat.ofDigitChars_ten_toDigits]

/-- Numbers that are padded alike are told apart. -/
theorem padded_injective (width : Nat) : Function.Injective (padded width) := fun n n' h => by
  rw [← ofDigitChars_padded width n, h, ofDigitChars_padded]

/-- A number that is not too long is padded to the width. -/
theorem length_padded {width n : Nat} (h : (Nat.toDigits 10 n).length ≤ width) :
    (padded width n).length = width := by
  rw [padded, List.length_append, List.length_replicate]
  omega

/-- A padded number has some digit. -/
theorem padded_ne_nil (width n : Nat) : padded width n ≠ [] := by
  simp [padded]

/-! ### Numbers and marks -/

/-- Digits end at the first character that is none. -/
theorem digits_append_inj {digits digits' : List Char} (hdigits : ∀ d ∈ digits, d.isDigit = true)
    (hdigits' : ∀ d ∈ digits', d.isDigit = true) (hc : c.isDigit = false)
    (hc' : c'.isDigit = false) (h : digits ++ c :: s = digits' ++ c' :: s') :
    digits = digits' ∧ c = c' ∧ s = s' := by
  have hread := Json.readDigits_append (s := c :: s) hdigits (by simpa using hc)
  rw [h, Json.readDigits_append hdigits' (by simpa using hc')] at hread
  obtain ⟨hfront, hrest⟩ := Prod.mk.inj hread
  obtain ⟨hmark, hrest⟩ := List.cons.inj hrest
  exact ⟨hfront.symm, hmark.symm, hrest.symm⟩

/-- A padded number ends where its digits end. -/
theorem padded_append_inj {width n n' : Nat} (hc : c.isDigit = false) (hc' : c'.isDigit = false)
    (h : padded width n ++ c :: s = padded width n' ++ c' :: s') : n = n' ∧ c = c' ∧ s = s' := by
  obtain ⟨hdigits, hrest⟩ := digits_append_inj (fun _ => isDigit_of_mem_padded)
    (fun _ => isDigit_of_mem_padded) hc hc' h
  exact ⟨padded_injective width hdigits, hrest⟩

/-- A part that is not negative is known by its natural number. -/
theorem padded_toNat_append_inj {width : Nat} {i i' : Int} (hi : 0 ≤ i) (hi' : 0 ≤ i')
    (hc : c.isDigit = false) (hc' : c'.isDigit = false)
    (h : padded width i.toNat ++ c :: s = padded width i'.toNat ++ c' :: s') :
    i = i' ∧ c :: s = c' :: s' := by
  obtain ⟨hnat, rfl, rfl⟩ := padded_append_inj hc hc' h
  exact ⟨by omega, rfl⟩

/-! ### Years -/

/-- The sign of a year. -/
def yearSign (year : Int) : Char := if year < 0 then '-' else '+'

/-- The sign of a year is no digit. -/
theorem isDigit_yearSign (year : Int) : (yearSign year).isDigit = false := by
  unfold yearSign
  split <;> rfl

/-- Years have one sign when both are before the year 0, or neither. -/
theorem yearSign_eq_iff {year year' : Int} :
    yearSign year = yearSign year' ↔ (year < 0 ↔ year' < 0) := by
  by_cases h : year < 0 <;> by_cases h' : year' < 0 <;> simp [yearSign, h, h']

/-- A year has four digits, or a sign and at least four. -/
theorem yearText_cases (year : Int) :
    0 ≤ year ∧ year ≤ 9999 ∧ yearText year = padded 4 year.toNat
      ∨ (year < 0 ∨ 9999 < year) ∧ yearText year = yearSign year :: padded 4 year.natAbs := by
  unfold yearText yearSign
  split
  · exact .inl ⟨by omega, by omega, rfl⟩
  · exact .inr ⟨by omega, rfl⟩

/-- A year of four digits does not begin with a sign. -/
theorem padded_append_ne {width n : Nat} (hc : c.isDigit = false) :
    padded width n ++ s ≠ c :: s' := by
  obtain ⟨d, digits, hpadded⟩ := List.exists_cons_of_ne_nil (padded_ne_nil width n)
  have hd : d.isDigit = true := isDigit_of_mem_padded (hpadded ▸ List.mem_cons_self)
  rw [hpadded]
  intro h
  rw [(List.cons.inj h).1, hc] at hd
  cases hd

/-- **A year is known by its text.** -/
theorem yearText_append_inj {year year' : Int}
    (h : yearText year ++ '-' :: s = yearText year' ++ '-' :: s') : year = year' ∧ s = s' := by
  rcases yearText_cases year with ⟨h₀, h₁, hyear⟩ | ⟨hyear, htext⟩ <;>
    rcases yearText_cases year' with ⟨h₀', h₁', hyear'⟩ | ⟨hyear', htext'⟩
  · rw [hyear, hyear'] at h
    obtain ⟨hnat, -, hrest⟩ := padded_append_inj rfl rfl h
    exact ⟨by omega, hrest⟩
  · rw [hyear, htext'] at h
    exact absurd h (padded_append_ne (isDigit_yearSign year'))
  · rw [htext, hyear'] at h
    exact absurd h.symm (padded_append_ne (isDigit_yearSign year))
  · rw [htext, htext'] at h
    obtain ⟨hsign, h⟩ := List.cons.inj h
    obtain ⟨hnat, -, hrest⟩ := padded_append_inj rfl rfl h
    have hnegative := yearSign_eq_iff.1 hsign
    exact ⟨by omega, hrest⟩

/-! ### Fractions -/

/-- The nanoseconds in one unit of a fraction with so many digits. -/
def fractionUnit (width : Nat) : Nat :=
  if width = 3 then 1000000 else if width = 6 then 1000 else 1

/-- A fraction is written with as many digits as it takes to be exact, or not at all. -/
theorem fractionText_cases {n : Nat} (hn : n < 1000000000) :
    n = 0 ∧ fractionText n = []
      ∨ ∃ width k, fractionText n = '.' :: padded width k ∧ (padded width k).length = width
        ∧ k * fractionUnit width = n := by
  unfold fractionText
  split
  · exact .inl ⟨‹_›, rfl⟩
  refine .inr ?_
  split
  · rename_i hmillis
    have hlength : (Nat.toDigits 10 (n / 1000000)).length ≤ 3 :=
      (Nat.length_toDigits_le_iff (by decide) (by decide)).2 (by omega)
    exact ⟨3, n / 1000000, rfl, length_padded hlength,
      Nat.div_mul_cancel (Nat.dvd_of_mod_eq_zero hmillis)⟩
  split
  · rename_i hmicros
    have hlength : (Nat.toDigits 10 (n / 1000)).length ≤ 6 :=
      (Nat.length_toDigits_le_iff (by decide) (by decide)).2 (by omega)
    exact ⟨6, n / 1000, rfl, length_padded hlength,
      Nat.div_mul_cancel (Nat.dvd_of_mod_eq_zero hmicros)⟩
  · have hlength : (Nat.toDigits 10 n).length ≤ 9 :=
      (Nat.length_toDigits_le_iff (by decide) (by decide)).2 hn
    exact ⟨9, n, rfl, length_padded hlength, Nat.mul_one n⟩

/-- What follows the seconds begins with no digit. -/
theorem exists_fractionText_append {n : Nat} (hn : n < 1000000000) (hc : c.isDigit = false)
    (s : List Char) : ∃ c' s', fractionText n ++ c :: s = c' :: s' ∧ c'.isDigit = false := by
  rcases fractionText_cases hn with ⟨-, htext⟩ | ⟨width, k, htext, -⟩
  · exact ⟨c, s, by rw [htext]; rfl, hc⟩
  · exact ⟨'.', _, by rw [htext]; rfl, rfl⟩

/-- **A fraction is known by its text.** -/
theorem fractionText_append_inj {n n' : Nat} (hn : n < 1000000000) (hn' : n' < 1000000000)
    (hc : c.isDigit = false) (hpoint : c ≠ '.')
    (h : fractionText n ++ c :: s = fractionText n' ++ c :: s') : n = n' := by
  rcases fractionText_cases hn with ⟨hzero, htext⟩ | ⟨width, k, htext, hlength, hvalue⟩ <;>
    rcases fractionText_cases hn' with ⟨hzero', htext'⟩ |
      ⟨width', k', htext', hlength', hvalue'⟩ <;>
    rw [htext, htext'] at h
  · rw [hzero, hzero']
  · exact absurd (List.cons.inj h).1 hpoint
  · exact absurd (List.cons.inj h).1.symm hpoint
  · obtain ⟨hdigits, -⟩ := digits_append_inj (fun _ => isDigit_of_mem_padded)
      (fun _ => isDigit_of_mem_padded) hc hc (List.cons.inj h).2
    obtain rfl : width = width' := by rw [← hlength, hdigits, hlength']
    rw [← hvalue, padded_injective width hdigits, hvalue']

/-! ### Instants -/

variable {t t' : Timestamp}

/-- The text before the offset, part by part. -/
theorem localText_append (t : Timestamp) (s : List Char) :
    t.localText ++ s = yearText t.date.year ++ '-' :: (padded 2 t.date.month.toNat
      ++ '-' :: (padded 2 t.date.day.toNat ++ 'T' :: (padded 2 t.clock.1.toNat
      ++ ':' :: (padded 2 t.clock.2.1.toNat ++ ':' :: (padded 2 t.clock.2.2.toNat
      ++ (fractionText t.fraction ++ s)))))) := by
  simp [localText, dateText, clockText]

/-- **An instant is known by its date, time of day and fraction in writing,** before any offset
that begins with neither a digit nor a point. -/
theorem eq_of_localText_append (hc : c.isDigit = false) (hpoint : c ≠ '.')
    (h : t.localText ++ c :: s = t'.localText ++ c :: s) : t = t' := by
  have hdate := Date.inBounds_ofDays (t.seconds / 86400)
  have hdate' := Date.inBounds_ofDays (t'.seconds / 86400)
  obtain ⟨hhours, hminutes, hseconds⟩ := clock_bounds t
  obtain ⟨hhours', hminutes', hseconds'⟩ := clock_bounds t'
  obtain ⟨d, rest, htail, hd⟩ := exists_fractionText_append t.fraction_lt hc s
  obtain ⟨d', rest', htail', hd'⟩ := exists_fractionText_append t'.fraction_lt hc s
  rw [localText_append, localText_append] at h
  obtain ⟨hyear, h⟩ := yearText_append_inj h
  obtain ⟨hmonth, h⟩ := padded_toNat_append_inj (Int.le_trans (by decide) hdate.one_le_month)
    (Int.le_trans (by decide) hdate'.one_le_month) rfl rfl h
  obtain ⟨hday, h⟩ := padded_toNat_append_inj (Int.le_trans (by decide) hdate.one_le_day)
    (Int.le_trans (by decide) hdate'.one_le_day) rfl rfl (List.cons.inj h).2
  obtain ⟨hhour, h⟩ := padded_toNat_append_inj hhours hhours' rfl rfl (List.cons.inj h).2
  obtain ⟨hminute, h⟩ := padded_toNat_append_inj hminutes hminutes' rfl rfl (List.cons.inj h).2
  have htails := (List.cons.inj h).2
  rw [htail, htail'] at htails
  obtain ⟨hsecond, h⟩ := padded_toNat_append_inj hseconds hseconds' hd hd' htails
  rw [← htail, ← htail'] at h
  have hdates : t.date = t'.date := Date.ext hyear hmonth hday
  have hdays : t.seconds / 86400 = t'.seconds / 86400 := Date.ofDays_injective hdates
  have hclock : t.clock = t'.clock := Prod.ext hhour (Prod.ext hminute hsecond)
  exact eq_of_clock hdays hclock (fractionText_append_inj t.fraction_lt t'.fraction_lt hc hpoint h)

/-- **The text of an instant is the text of no other.** -/
theorem rfc3339_injective : Function.Injective rfc3339 := fun _ _ h =>
  eq_of_localText_append (s := "00:00".toList) (by decide) (by decide) (String.ofList_injective h)

/-- A leap second and the second before it, and years with a sign. -/
example : [(1483228799, 0), (1483228799, 1000000000), (-377673580801, 0), (253402300800, 0)].map
      (fun unix => (ofUnix? unix.1 unix.2).map rfc3339)
    = [some "2016-12-31T23:59:59+00:00", some "2016-12-31T23:59:60+00:00",
      some "-9999-12-31T23:59:59+00:00", some "+10000-01-01T00:00:00+00:00"] := by
  decide +kernel

end Timestamp
end Inventory
