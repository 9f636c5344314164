/-
# Hexadecimal digits

Digits are read in either case and written in lower case. Escapes write a
character as the digits of its code point; surrogates are no characters.
-/

namespace Inventory
namespace Text

/-- The value of a hexadecimal digit of either case. -/
def hexValue? (c : Char) : Option Nat :=
  if '0' ≤ c ∧ c ≤ '9' then some (c.toNat - 48)
  else if 'a' ≤ c ∧ c ≤ 'f' then some (c.toNat - 87)
  else if 'A' ≤ c ∧ c ≤ 'F' then some (c.toNat - 55)
  else none

/-- The lower-case hexadecimal digit of a number below 16. -/
def hexDigit (n : Nat) : Char :=
  if n < 10 then Char.ofNat (48 + n) else Char.ofNat (87 + n)

/-- The number that digits of a base up to 16 write, at least one of them. -/
def natInBase? (base : Nat) (digits : List Char) : Option Nat :=
  if digits = [] then none
  else (digits.mapM fun c => (hexValue? c).filter (· < base)).map fun values =>
    values.foldl (fun n d => n * base + d) 0

/-- The character of a code point. -/
def charOfCode? (n : Nat) : Option Char :=
  if n < 0xD800 ∨ (0xE000 ≤ n ∧ n < 0x110000) then some (Char.ofNat n) else none

/-- The character whose code point the first `width` characters write. -/
def charOfHex? (width : Nat) (s : List Char) : Option Char :=
  let digits := s.take width
  if digits.length < width then none else (natInBase? 16 digits).bind charOfCode?

end Text
end Inventory
