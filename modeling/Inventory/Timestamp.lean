/-
# Instants of universal time

The timestamps of field values, as `as_text` and documents write them.

An instant is a count of seconds since 1970-01-01 00:00:00 and the nanoseconds
into that second. In a leap second the count stays on the 59th second of its
minute and the nanoseconds run on, from one to two thousand millions.

Exchanging the second or the nanoseconds of an instant (`with_second`,
`with_nanosecond` of the calendar library) could put a leap second on another
second than the 59th. Such instants are left out: nothing here exchanges parts of an
instant, and neither counting seconds (`from_timestamp`, here `ofUnix?`) nor reading
a text of RFC 3339 makes one.

| text | form |
| --- | --- |
| `rfc3339` | `2024-05-01T12:00:00.123+00:00` |
| `iso` | `2024-05-01T12:00:00.123Z` |
| `display` | `2024-05-01 12:00:00 UTC` |

The fraction has 3, 6 or 9 digits, the fewest that are exact, and is left out
when it is zero. Years are those of the Gregorian calendar extended in both
directions; outside 0 to 9999 they carry a sign and at least four digits.
-/

namespace Inventory

/-- An instant of universal time. -/
structure Timestamp where
  seconds : Int
  nanos : Nat
  nanos_lt : nanos < 2000000000
  /-- A leap second is counted on the 59th second; on others see the head of the module. -/
  leap_minute : 1000000000 ≤ nanos → seconds % 60 = 59
  deriving DecidableEq, Repr

namespace Timestamp

/-- The instant of a second count and nanoseconds, if there is one. -/
def ofUnix? (seconds : Int) (nanos : Nat) : Option Timestamp :=
  if h : nanos < 2000000000 ∧ (1000000000 ≤ nanos → seconds % 60 = 59) then
    some ⟨seconds, nanos, h.1, h.2⟩
  else none

/-- The instant from which seconds are counted. -/
def epoch : Timestamp := ⟨0, 0, by decide, by decide⟩

/-- Earlier instants come first; within a second the nanoseconds decide. -/
def compare (a b : Timestamp) : Ordering :=
  (Ord.compare a.seconds b.seconds).then (Ord.compare a.nanos b.nanos)

/-! ## The calendar -/

/-- A date of the Gregorian calendar. -/
structure Date where
  year : Int
  month : Int
  day : Int
  deriving DecidableEq, Repr

/-- The date so many days after 1970-01-01. Years are counted from the first of
March, so that the day a leap year adds comes last; 146097 days are 400 years. -/
def Date.ofDays (days : Int) : Date :=
  let shifted := days + 719468
  let era := shifted / 146097
  let dayOfEra := shifted % 146097
  let yearOfEra := (dayOfEra - dayOfEra / 1460 + dayOfEra / 36524 - dayOfEra / 146096) / 365
  let dayOfYear := dayOfEra - (365 * yearOfEra + yearOfEra / 4 - yearOfEra / 100)
  let monthFromMarch := (5 * dayOfYear + 2) / 153
  let day := dayOfYear - (153 * monthFromMarch + 2) / 5 + 1
  let month := if monthFromMarch < 10 then monthFromMarch + 3 else monthFromMarch - 9
  let year := yearOfEra + era * 400 + if month ≤ 2 then 1 else 0
  ⟨year, month, day⟩

/-- The date of an instant. -/
def date (t : Timestamp) : Date := Date.ofDays (t.seconds / 86400)

/-- Hours, minutes and seconds of the day; a leap second is the 60th second. -/
def clock (t : Timestamp) : Int × Int × Int :=
  let s := t.seconds % 86400
  (s / 3600, s % 3600 / 60, s % 60 + if 1000000000 ≤ t.nanos then 1 else 0)

/-- The nanoseconds into the second shown by `clock`. -/
def fraction (t : Timestamp) : Nat := t.nanos % 1000000000

/-! ## Texts -/

/-- A number with zeros in front up to a width. -/
def padded (width : Nat) (n : Nat) : List Char :=
  let digits := Nat.toDigits 10 n
  List.replicate (width - digits.length) '0' ++ digits

/-- A year: four digits from 0 to 9999, a sign and at least four digits elsewhere. -/
def yearText (year : Int) : List Char :=
  if 0 ≤ year ∧ year ≤ 9999 then padded 4 year.toNat
  else (if year < 0 then '-' else '+') :: padded 4 year.natAbs

/-- Year, month and day. -/
def dateText (t : Timestamp) : List Char :=
  let d := t.date
  yearText d.year ++ '-' :: padded 2 d.month.toNat ++ '-' :: padded 2 d.day.toNat

/-- Hours, minutes and seconds. -/
def clockText (t : Timestamp) : List Char :=
  let (h, m, s) := t.clock
  padded 2 h.toNat ++ ':' :: padded 2 m.toNat ++ ':' :: padded 2 s.toNat

/-- The fraction of the second with its point, nothing when it is zero. -/
def fractionText (nanos : Nat) : List Char :=
  if nanos = 0 then []
  else if nanos % 1000000 = 0 then '.' :: padded 3 (nanos / 1000000)
  else if nanos % 1000 = 0 then '.' :: padded 6 (nanos / 1000)
  else '.' :: padded 9 nanos

/-- Date and time of day with the fraction, before the offset. -/
def localText (t : Timestamp) : List Char :=
  t.dateText ++ 'T' :: t.clockText ++ fractionText t.fraction

/-- The text with the offset written `+00:00`. -/
def rfc3339 (t : Timestamp) : String := String.ofList (t.localText ++ "+00:00".toList)

/-- The text with the offset written `Z`. -/
def iso (t : Timestamp) : String := String.ofList (t.localText ++ ['Z'])

/-- The text shown to readers, without the fraction. -/
def display (t : Timestamp) : String :=
  String.ofList (t.dateText ++ ' ' :: t.clockText ++ " UTC".toList)

end Timestamp
end Inventory
