/-
# Record identifiers

The identifiers of records, as keys of pages and of stashed blobs write them.

An identifier is 128 bits, written as 26 digits of base 32, most significant
first. The digits are `0` to `9` and the capital letters without `I`, `L`, `O`
and `U`; small letters are read like capitals. The first digit carries three
bits only, so of its value the rest is dropped.
-/

namespace Inventory

/-- A 128-bit identifier. -/
structure Ulid where
  bits : BitVec 128
  deriving DecidableEq, Repr

namespace Ulid

/-- The identifier whose bits are all zero. -/
def nil : Ulid := ⟨0⟩

instance : Inhabited Ulid := ⟨nil⟩

/-- The digits in the order of their values. -/
def alphabet : List Char := "0123456789ABCDEFGHJKMNPQRSTVWXYZ".toList

/-- The value of a digit of either case. -/
def digitValue? (c : Char) : Option Nat := alphabet.idxOf? c.toUpper

/-- The digit at a position counted from the least significant one. -/
def digitAt (id : Ulid) (i : Nat) : Char :=
  alphabet.getD ((id.bits.toNat >>> (5 * i)) % 32) '0'

/-- The 26 digits of an identifier. -/
def toText (id : Ulid) : String := String.ofList ((List.range 26).reverse.map id.digitAt)

/-- The identifier that 26 digits write. -/
def ofText? (text : String) : Option Ulid :=
  let digits := text.toList
  if digits.length = 26 then
    (digits.mapM digitValue?).map fun values =>
      ⟨BitVec.ofNat 128 (values.foldl (fun n d => n * 32 + d) 0)⟩
  else none

end Ulid
end Inventory
