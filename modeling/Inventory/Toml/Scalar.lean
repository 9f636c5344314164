/-
# Numbers, dates and times of TOML

The characters of a number or a date are taken as one word and then recognised:

| kind | written |
| --- | --- |
| integer | decimal with a sign, or `0x`, `0o`, `0b` and digits; 64 bits |
| real | an integer part, then a fraction or an exponent or both; `inf`, `nan` |
| date, time | `2024-05-01`, `12:30:00.5`, both with `T` or a space between, then an offset |

Single underscores may stand between digits; decimal numbers have no leading
zeros. Dates and times keep their text, like reals.
-/

import Inventory.Binary64
import Inventory.Data
import Inventory.Text.Hexadecimal
import Inventory.Width

namespace Inventory
namespace Toml

/-- A character of a number, a date or a time. -/
def isWordChar (c : Char) : Bool := c.isAlphanum || "_+-.:".toList.contains c

/-- Digits without the underscores that stand between two of them. -/
def withoutUnderscores (isDigit : Char → Bool) : List Char → Option (List Char)
  | [] => some []
  | [c] => if isDigit c then some [c] else none
  | c :: '_' :: d :: rest =>
    if isDigit c && isDigit d then (withoutUnderscores isDigit (d :: rest)).map (c :: ·) else none
  | c :: rest => if isDigit c then (withoutUnderscores isDigit rest).map (c :: ·) else none

/-- The number that digits of a base write. -/
def natural? (base : Nat) (s : List Char) : Option Nat :=
  let isDigit (c : Char) : Bool := (Text.hexValue? c).any (· < base)
  (withoutUnderscores isDigit s).bind (Text.natInBase? base)

/-- Decimal digits without leading zeros. -/
def isDecimal (s : List Char) : Bool :=
  match s with
  | [] => false
  | ['0'] => true
  | c :: _ => c ≠ '0' && (withoutUnderscores Char.isDigit s).isSome

/-- Decimal digits. -/
def areDigits (s : List Char) : Bool :=
  !s.isEmpty && (withoutUnderscores Char.isDigit s).isSome

/-- A word without its sign, and whether that is a minus. -/
def signed : List Char → Bool × List Char
  | '-' :: rest => (true, rest)
  | '+' :: rest => (false, rest)
  | s => (false, s)

/-- The integer that a word writes. -/
def integer? (word : List Char) : Option Int :=
  let value : Option Int := match word with
    | '0' :: 'x' :: digits => (natural? 16 digits).map Int.ofNat
    | '0' :: 'o' :: digits => (natural? 8 digits).map Int.ofNat
    | '0' :: 'b' :: digits => (natural? 2 digits).map Int.ofNat
    | _ =>
      let (negative, digits) := signed word
      if isDecimal digits then
        (natural? 10 digits).map fun n => if negative then -(n : Int) else n
      else none
  value.filter (Width.holdsSigned 64)

/-- Whether a word is the exponent of a real, or nothing. -/
def isExponent : List Char → Bool
  | [] => true
  | e :: rest => (e = 'e' || e = 'E') && areDigits (signed rest).2

/-- Whether a word writes a real. The only ones too large to be read are positive. -/
def isReal (word : List Char) : Bool :=
  let (negative, rest) := signed word
  if String.ofList rest = "inf" ∨ String.ofList rest = "nan" then true
  else
    let isMark (c : Char) : Bool := c = '.' || c = 'e' || c = 'E'
    let whole := rest.takeWhile (!isMark ·)
    let form := match rest.dropWhile (!isMark ·) with
      | '.' :: rest =>
        let fraction := rest.takeWhile (!isMark ·)
        areDigits fraction && isExponent (rest.drop fraction.length)
      | [] => false
      | exponent => isExponent exponent
    isDecimal whole && form
      && (negative || Binary64.isFiniteNumeral (word.filter (· ≠ '_')))

/-- The number that `count` decimal digits write, and what follows them. -/
def digits? (count : Nat) (s : List Char) : Option (Nat × List Char) :=
  let digits := s.take count
  if digits.length = count ∧ digits.all Char.isDigit then
    (Text.natInBase? 10 digits).map (·, s.drop count)
  else none

/-- What follows a character, if the text starts with it. -/
def after? (c : Char) : List Char → Option (List Char)
  | [] => none
  | d :: rest => if c = d then some rest else none

/-- How many days a month has. -/
def daysIn (year month : Nat) : Nat :=
  if month = 2 then
    if year % 4 = 0 ∧ (year % 100 ≠ 0 ∨ year % 400 = 0) then 29 else 28
  else if month ∈ [4, 6, 9, 11] then 30 else 31

/-- What follows a date. -/
def afterDate? (s : List Char) : Option (List Char) := do
  let (year, s) ← digits? 4 s
  let (month, s) ← digits? 2 (← after? '-' s)
  let (day, s) ← digits? 2 (← after? '-' s)
  if 1 ≤ month ∧ month ≤ 12 ∧ 1 ≤ day ∧ day ≤ daysIn year month then some s else none

/-- What follows a time of day. -/
def afterTime? (s : List Char) : Option (List Char) := do
  let (hour, s) ← digits? 2 s
  let (minute, s) ← digits? 2 (← after? ':' s)
  let (second, s) ← digits? 2 (← after? ':' s)
  if 23 < hour ∨ 59 < minute ∨ 60 < second then none
  else match s with
    | '.' :: rest =>
      let fraction := rest.takeWhile Char.isDigit
      if fraction = [] then none else some (rest.drop fraction.length)
    | s => some s

/-- What follows an offset from universal time, which may be missing. -/
def afterOffset? : List Char → Option (List Char)
  | [] => some []
  | c :: rest =>
    if c = 'Z' ∨ c = 'z' then some rest
    else if c = '+' ∨ c = '-' then do
      let (hour, s) ← digits? 2 rest
      let (minute, s) ← digits? 2 (← after? ':' s)
      if hour ≤ 23 ∧ minute ≤ 59 then some s else none
    else none

/-- Whether a word writes a date, a time, or both. -/
def isDateTime (word : List Char) : Bool :=
  match afterDate? word with
  | some [] => true
  | some (c :: rest) =>
    (c = 'T' || c = 't' || c = ' ') && ((afterTime? rest).bind afterOffset?) == some []
  | none => afterTime? word == some []

/-- The word at the start of a text. A date takes a space and a time with it. -/
def takeWord (s : List Char) : List Char × List Char :=
  let word := s.takeWhile isWordChar
  match s.drop word.length with
  | ' ' :: rest =>
    if afterDate? word = some [] ∧ rest.head?.any Char.isDigit then
      let time := rest.takeWhile isWordChar
      (word ++ ' ' :: time, rest.drop time.length)
    else (word, ' ' :: rest)
  | rest => (word, rest)

/-- The value that a word writes. -/
def wordValue? (word : List Char) : Option Data :=
  if word = "true".toList then some (.bool true)
  else if word = "false".toList then some (.bool false)
  else match integer? word with
    | some n => some (.int n)
    | none =>
      if isReal word || isDateTime word then some (.real (String.ofList word)) else none

end Toml
end Inventory
