/-
# White space

The characters with the Unicode property `White_Space`:

| code points | |
| --- | --- |
| U+0009 to U+000D | tab, line feed, line tabulation, form feed, carriage return |
| U+0020, U+0085, U+00A0 | space, next line, no-break space |
| U+1680, U+2000 to U+200A, U+202F, U+205F, U+3000 | other spaces |
| U+2028, U+2029 | line and paragraph separator |
-/

namespace Inventory
namespace Text

/-- A character with the property `White_Space`. -/
def isWhiteSpace (c : Char) : Bool :=
  let n := c.toNat
  decide (9 ≤ n ∧ n ≤ 13) || n == 0x20 || n == 0x85 || n == 0xA0 || n == 0x1680
    || decide (0x2000 ≤ n ∧ n ≤ 0x200A) || n == 0x2028 || n == 0x2029 || n == 0x202F
    || n == 0x205F || n == 0x3000

/-- The text without white space at either end. -/
def trim (s : List Char) : List Char :=
  ((s.dropWhile isWhiteSpace).reverse.dropWhile isWhiteSpace).reverse

/-- Whether the text has no character other than white space. -/
def isBlank (s : List Char) : Bool := s.all isWhiteSpace

end Text
end Inventory
