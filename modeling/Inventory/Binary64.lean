/-
# Decimal numbers as binary64

The numbers that `FieldValue.compare` compares in a column with numeric order.

A decimal numeral is read, rounded to the nearest binary64 value (a tie goes to
the even significand) and represented by its *rank*: the number of non-negative
binary64 values below its magnitude, with the sign in front. Ranks order like
the values they stand for, and both zeros have rank 0.

| rank of a magnitude | value |
| ---: | --- |
| `0` | zero |
| `1` | the least positive value, `2 ^ -1074` |
| `2 ^ 52` | the least value of full precision, `2 ^ -1022` |
| `2047 * 2 ^ 52` | infinity |

A numeral is an optional sign, digits with an optional point among, before or
after them, and an optional exponent; or an optional sign and one of `inf`,
`infinity`, `nan` in any case.
-/

namespace Inventory
namespace Binary64

/-- The rank of infinity. -/
def infinityRank : Nat := 2047 <<< 52

/-- The quotient rounded to the nearest integer, a tie to the even one. -/
def roundQuotient (num den : Nat) : Nat :=
  let q := num / den
  let twice := 2 * (num % den)
  if twice < den then q else if den < twice then q + 1 else q + q % 2

/-- The rank of `num / den`, both positive: the significand in units of the
power of two that leaves it 53 bits, counted from the least exponent. -/
def rankOfQuotient (num den : Nat) : Nat :=
  let t : Int := (Nat.log2 num : Int) - Nat.log2 den
  let reaches :=
    if 0 ≤ t then decide (den <<< t.toNat ≤ num) else decide (den ≤ num <<< (-t).toNat)
  let exponent : Int := if reaches then t else t - 1
  let unit : Int := max (exponent - 52) (-1074)
  let significand :=
    if 0 ≤ unit then roundQuotient num (den <<< unit.toNat)
    else roundQuotient (num <<< (-unit).toNat) den
  min infinityRank ((unit + 1074).toNat <<< 52 + significand)

/-- The rank of `coefficient * 10 ^ exponent`. Far out of range the answer needs
no arithmetic. -/
def rank (coefficient : Nat) (exponent : Int) : Nat :=
  if coefficient = 0 then 0
  else
    let scale := exponent + (Nat.toDigits 10 coefficient).length
    if 400 < scale then infinityRank
    else if scale < -400 then 0
    else if 0 ≤ exponent then rankOfQuotient (coefficient * Nat.pow 10 exponent.toNat) 1
    else rankOfQuotient coefficient (Nat.pow 10 (-exponent).toNat)

/-- What a numeral stands for. -/
inductive Reading where
  | number (rank : Int)
  | notANumber
  deriving DecidableEq, Repr

/-- The number that decimal digits write. -/
def digitsValue (digits : List Char) : Nat :=
  digits.foldl (fun n c => n * 10 + (c.toNat - 48)) 0

/-- The exponent that ends a numeral: nothing, or `e`, an optional sign and digits. -/
def readExponent : List Char → Option Int
  | [] => some 0
  | e :: rest =>
    if e = 'e' ∨ e = 'E' then
      let (negative, digits) := match rest with
        | '-' :: digits => (true, digits)
        | '+' :: digits => (false, digits)
        | digits => (false, digits)
      if digits ≠ [] ∧ digits.all Char.isDigit then
        let n : Int := digitsValue digits
        some (if negative then -n else n)
      else none
    else none

/-- The magnitude of a numeral without its sign. -/
def readMagnitude (s : List Char) : Option Nat :=
  let (whole, rest) := s.span Char.isDigit
  let (fraction, rest) := match rest with
    | '.' :: rest => rest.span Char.isDigit
    | rest => ([], rest)
  if whole = [] ∧ fraction = [] then none
  else (readExponent rest).map fun exponent =>
    rank (digitsValue (whole ++ fraction)) (exponent - fraction.length)

/-- A numeral as binary64. -/
def read (s : List Char) : Option Reading :=
  let (negative, rest) := match s with
    | '-' :: rest => (true, rest)
    | '+' :: rest => (false, rest)
    | rest => (false, rest)
  let signed (r : Nat) : Reading := .number (if negative then -(r : Int) else r)
  let word := rest.map Char.toLower
  if word = "nan".toList then some .notANumber
  else if word = "inf".toList ∨ word = "infinity".toList then some (signed infinityRank)
  else (readMagnitude rest).map signed

/-- The order of two readings. What is not a number ties with everything. -/
def Reading.compare : Reading → Reading → Ordering
  | .number a, .number b => Ord.compare a b
  | _, _ => .eq

/-- Whether a numeral is read as a number short of infinity. -/
def isFiniteNumeral (s : List Char) : Bool :=
  match read s with
  | some (.number r) => r.natAbs < infinityRank
  | _ => false

end Binary64
end Inventory
