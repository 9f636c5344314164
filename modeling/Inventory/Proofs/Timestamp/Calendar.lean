/-
# Dates and times of day stand for one instant

Timestamps by date and time of day.

The date of a count of days has that count (`Date.toDays_ofDays`), so no two days have one
date. Years are counted from March in eras of 400 years:

| | from | to |
| --- | --- | --- |
| day of the era | 0 | 146096 |
| year of the era | 0 | 399 |
| day of the year | 0 | 365 |
| month from March | 0 | 11 |

The time of day with the fraction has one second of the day and one count of nanoseconds
(`eq_of_clock`): only a leap second is shown as the sixtieth.
-/

import Inventory.Timestamp

namespace Inventory

attribute [ext] Timestamp Timestamp.Date

namespace Timestamp

/-! ### Days -/

namespace Date

/-- The year of its era to which a day of the era belongs. -/
def yearOfEra (dayOfEra : Int) : Int :=
  (dayOfEra - dayOfEra / 1460 + dayOfEra / 36524 - dayOfEra / 146096) / 365

/-- The day of its year that a day of the era is. -/
def dayOfYear (dayOfEra : Int) : Int :=
  dayOfEra - (365 * yearOfEra dayOfEra + yearOfEra dayOfEra / 4 - yearOfEra dayOfEra / 100)

/-- The month in which a day of the year lies. -/
def monthFromMarch (dayOfYear : Int) : Int := (5 * dayOfYear + 2) / 153

/-- The number of days before a year that is counted from March. -/
def daysBefore (year : Int) : Int := 365 * year + year / 4 - year / 100 + year / 400

/-- The number of days from 1970-01-01 to a date. -/
def toDays (d : Date) : Int :=
  let year := if d.month ≤ 2 then d.year - 1 else d.year
  let month := if d.month ≤ 2 then d.month + 9 else d.month - 3
  daysBefore year + ((153 * month + 2) / 5 + d.day - 1) - 719468

/-- Every era has the same number of days. -/
theorem daysBefore_add_era (year era : Int) :
    daysBefore (year + era * 400) = daysBefore year + era * 146097 := by
  unfold daysBefore
  omega

variable {e : Int}

/-- An era has 400 years. -/
theorem yearOfEra_bounds (h₀ : 0 ≤ e) (h₁ : e < 146097) :
    0 ≤ yearOfEra e ∧ yearOfEra e < 400 := by
  unfold yearOfEra
  omega

/-- Up to the last day of the era, which would begin a fifth one, the century of a day is that
of its year. -/
theorem yearOfEra_div_hundred (h₀ : 0 ≤ e) (h₁ : e < 146097) :
    yearOfEra e / 100 = e / 36524 - e / 146096 := by
  have hcentury : e / 36524 = 0 ∨ e / 36524 = 1 ∨ e / 36524 = 2 ∨ e / 36524 = 3
      ∨ e / 36524 = 4 := by omega
  unfold yearOfEra
  -- within one century all the quotients but one are linear in the day
  rcases hcentury with h | h | h | h | h <;> rw [h] <;> omega

/-- A year has up to 366 days. -/
theorem dayOfYear_bounds (h₀ : 0 ≤ e) (h₁ : e < 146097) :
    0 ≤ dayOfYear e ∧ dayOfYear e ≤ 365 := by
  have hcentury := yearOfEra_div_hundred h₀ h₁
  unfold dayOfYear
  rw [hcentury]
  unfold yearOfEra
  omega

/-- A year has twelve months. -/
theorem monthFromMarch_bounds {day : Int} (h₀ : 0 ≤ day) (h₁ : day ≤ 365) :
    0 ≤ monthFromMarch day ∧ monthFromMarch day ≤ 11 := by
  unfold monthFromMarch
  omega

/-- The three parts of a date by the day of the era. -/
theorem ofDays_eq (days : Int) :
    let day := dayOfYear ((days + 719468) % 146097)
    let month := if monthFromMarch day < 10 then monthFromMarch day + 3 else monthFromMarch day - 9
    ofDays days = {
      year := yearOfEra ((days + 719468) % 146097) + (days + 719468) / 146097 * 400
        + if month ≤ 2 then 1 else 0
      month
      day := day - (153 * monthFromMarch day + 2) / 5 + 1 } := rfl

/-- A month from March begins and ends within these days of the year. -/
theorem dayOfMonth_bounds (day : Int) :
    0 ≤ day - (153 * monthFromMarch day + 2) / 5
      ∧ day - (153 * monthFromMarch day + 2) / 5 ≤ 30 := by
  unfold monthFromMarch
  omega

/-- The bounds of the parts of a date that are written with two digits. -/
structure InBounds (d : Date) : Prop where
  one_le_month : 1 ≤ d.month
  month_le : d.month ≤ 12
  one_le_day : 1 ≤ d.day
  day_le : d.day ≤ 31

/-- Months and days of a date are within their bounds. -/
theorem inBounds_ofDays (days : Int) : (ofDays days).InBounds := by
  have h₀ : 0 ≤ (days + 719468) % 146097 := by omega
  have h₁ : (days + 719468) % 146097 < 146097 := by omega
  obtain ⟨hday₀, hday₁⟩ := dayOfYear_bounds h₀ h₁
  obtain ⟨hmonth₀, hmonth₁⟩ := monthFromMarch_bounds hday₀ hday₁
  have hday := dayOfMonth_bounds (dayOfYear ((days + 719468) % 146097))
  rw [ofDays_eq]
  exact {
    one_le_month := by dsimp only; split <;> omega
    month_le := by dsimp only; split <;> omega
    one_le_day := by dsimp only; omega
    day_le := by dsimp only; omega }

/-- The days before a year of the era and the day of the year make up the day of the era. -/
theorem daysBefore_yearOfEra (h₀ : 0 ≤ e) (h₁ : e < 146097) :
    daysBefore (yearOfEra e) + dayOfYear e = e := by
  obtain ⟨hyear₀, hyear₁⟩ := yearOfEra_bounds h₀ h₁
  unfold daysBefore dayOfYear
  omega

/-- **The date of a day has the count of that day.** -/
theorem toDays_ofDays (days : Int) : (ofDays days).toDays = days := by
  have h₀ : 0 ≤ (days + 719468) % 146097 := by omega
  have h₁ : (days + 719468) % 146097 < 146097 := by omega
  have hday := daysBefore_yearOfEra h₀ h₁
  obtain ⟨hday₀, hday₁⟩ := dayOfYear_bounds h₀ h₁
  obtain ⟨hmonth₀, hmonth₁⟩ := monthFromMarch_bounds hday₀ hday₁
  rw [ofDays_eq, toDays]
  generalize yearOfEra ((days + 719468) % 146097) = year at *
  generalize dayOfYear ((days + 719468) % 146097) = day at *
  generalize monthFromMarch day = month at *
  have hera := daysBefore_add_era year ((days + 719468) / 146097)
  dsimp only
  by_cases hmonth : month < 10
  · rw [if_pos hmonth, if_neg (by omega), if_neg (by omega), if_neg (by omega), Int.add_zero, hera,
      Int.add_sub_cancel]
    omega
  · rw [if_neg hmonth, if_pos (by omega), if_pos (by omega), if_pos (by omega), Int.add_sub_cancel,
      hera, Int.sub_add_cancel]
    omega

/-- **No two days** have one date. -/
theorem ofDays_injective : Function.Injective ofDays := fun a b h => by
  rw [← toDays_ofDays a, h, toDays_ofDays]

end Date

/-! ### Times of day -/

variable {t t' : Timestamp}

/-- The bounds of the parts of a time of day. -/
theorem clock_bounds (t : Timestamp) :
    0 ≤ t.clock.1 ∧ 0 ≤ t.clock.2.1 ∧ 0 ≤ t.clock.2.2 := by
  unfold clock
  dsimp only
  refine ⟨by omega, by omega, ?_⟩
  split <;> omega

/-- A fraction is less than a second. -/
theorem fraction_lt (t : Timestamp) : t.fraction < 1000000000 := Nat.mod_lt _ (by decide)

/-- A time of day shows the sixtieth second exactly in a leap second. -/
theorem clock_second_eq_sixty_iff (t : Timestamp) :
    t.clock.2.2 = 60 ↔ 1000000000 ≤ t.nanos := by
  have hleap := t.leap_minute
  unfold clock
  dsimp only
  split <;> omega

/-- **An instant is known by its day, its time of day and its fraction.** -/
theorem eq_of_clock (hday : t.seconds / 86400 = t'.seconds / 86400)
    (hclock : t.clock = t'.clock) (hfraction : t.fraction = t'.fraction) : t = t' := by
  have hleap : 1000000000 ≤ t.nanos ↔ 1000000000 ≤ t'.nanos := by
    rw [← clock_second_eq_sixty_iff, ← clock_second_eq_sixty_iff, hclock]
  have hnanos : t.nanos = t'.nanos := by
    have hlt := t.nanos_lt
    have hlt' := t'.nanos_lt
    unfold fraction at hfraction
    omega
  have hseconds : t.seconds = t'.seconds := by
    unfold clock at hclock
    simp only [hleap, Prod.mk.injEq] at hclock
    omega
  exact Timestamp.ext hseconds hnanos

end Timestamp
end Inventory
