/-
# Characters of YAML

| class | characters |
| --- | --- |
| line breaks | line feed, carriage return (a pair of both is one break), U+0085, U+2028, U+2029 |
| blanks | space, tab |
| allowed in a document | those written without an escape, tab, carriage return, U+0085, U+FEFF |
| written without an escape | line feed, U+0020 to U+007E, all from U+00A0 on but a few |

The few are U+FEFF, U+FFFE and U+FFFF. Of the line breaks all but U+2028 and U+2029 are read
as a line feed.
-/

namespace Inventory
namespace Yaml

/-- A character that ends a line. -/
def isBreak (c : Char) : Bool :=
  c = '\n' || c = '\r' || c.toNat == 0x85 || c.toNat == 0x2028 || c.toNat == 0x2029

/-- A space or a tab. -/
def isBlank (c : Char) : Bool := c = ' ' || c = '\t'

/-- A blank, a line break, or the end of the text. -/
def isBlankBreakOrEnd : Option Char → Bool
  | none => true
  | some c => isBlank c || isBreak c

/-- A line break or the end of the text. -/
def isBreakOrEnd : Option Char → Bool
  | none => true
  | some c => isBreak c

/-- A line break as it is read. -/
def breakRead (c : Char) : Char :=
  if c.toNat = 0x2028 ∨ c.toNat = 0x2029 then c else '\n'

/-- A character that may occur in a document. -/
def isAllowed (c : Char) : Bool :=
  let n := c.toNat
  n == 0x09 || n == 0x0A || n == 0x0D || decide (0x20 ≤ n ∧ n ≤ 0x7E) || n == 0x85
    || (decide (0xA0 ≤ n) && n != 0xFFFE && n != 0xFFFF)

/-- A character that may stand unescaped. -/
def isPrintable (c : Char) : Bool :=
  let n := c.toNat
  n == 0x0A || decide (0x20 ≤ n ∧ n ≤ 0x7E)
    || (decide (0xA0 ≤ n) && n != 0xFEFF && n != 0xFFFE && n != 0xFFFF)

/-- Whether a line of its own starts or ends a document here. -/
def isDocumentMark : List Char → Bool
  | '-' :: '-' :: '-' :: rest | '.' :: '.' :: '.' :: rest => isBlankBreakOrEnd rest.head?
  | _ => false

end Yaml
end Inventory
