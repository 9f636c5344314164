/-
# The text of scalars

A scalar is written plain, between single or double quotes, or as a block of
lines below its indicator. Here each form is read from the characters after its
first mark; the answer is the text and what follows the scalar.

Where a plain or quoted text goes on in another line, the blanks around the line
break are dropped, a single break becomes a space, and of several the first is
dropped. In a block the breaks stay (`|`) or are folded likewise between lines
that do not start with a blank (`>`); the breaks at its end are dropped (`-`),
kept (`+`), or reduced to one.
-/

import Inventory.Text.Hexadecimal
import Inventory.Yaml.Character

namespace Inventory
namespace Yaml

/-! ## Gaps between words -/

/-- The blanks and line breaks between two words: the blanks up to the first
break, the breaks, and how many blanks follow the last break. -/
structure Gap where
  blanks : List Char := []
  breaks : List Char := []
  column : Nat := 0
  deriving DecidableEq, Repr

/-- What a gap stands for when a text goes on behind it. -/
def Gap.text (g : Gap) : List Char :=
  match g.breaks with
  | [] => g.blanks
  | ['\n'] => [' ']
  | '\n' :: more => more
  | breaks => breaks

/-- The gap at the start of a text. `column` counts the characters since the last
line break of the gap; a tab before the column `indent` is refused. -/
def readGap (indent : Nat) (column : Option Nat) : List Char → Option (Gap × List Char)
  | '\r' :: '\n' :: rest =>
    (readGap indent (some 0) rest).map fun (g, r) =>
      ({ g with blanks := [], breaks := '\n' :: g.breaks }, r)
  | c :: rest =>
    if isBlank c then
      match column with
      | none =>
        (readGap indent none rest).map fun (g, r) => ({ g with blanks := c :: g.blanks }, r)
      | some n =>
        if c = '\t' ∧ n < indent then none else readGap indent (some (n + 1)) rest
    else if isBreak c then
      (readGap indent (some 0) rest).map fun (g, r) =>
        ({ g with blanks := [], breaks := breakRead c :: g.breaks }, r)
    else some ({ column := column.getD 0 }, c :: rest)
  | [] => some ({ column := column.getD 0 }, [])

/-! ## Plain texts -/

/-- The characters that end a plain text inside brackets. -/
def flowIndicators : List Char := [',', '[', ']', '\x7b', '\x7d']

/-- A word of a plain text, up to a blank, a line break, or a character that ends
the text. Inside brackets a colon may not touch an indicator. -/
def plainWord (flow : Bool) : List Char → Option (List Char × List Char)
  | [] => some ([], [])
  | c :: rest =>
    if isBlank c || isBreak c then some ([], c :: rest)
    else if flow && c = ':' && rest.head?.any (fun d => d = '?' || flowIndicators.contains d) then
      none
    else if c = ':' && isBlankBreakOrEnd rest.head? || flow && flowIndicators.contains c then
      some ([], c :: rest)
    else (plainWord flow rest).map fun (word, r) => (c :: word, r)

/-- The rest of a plain text after a word, and whether a line break follows it. -/
def plainWords (flow : Bool) (indent : Nat) :
    Nat → List Char → Option (List Char × Bool × List Char)
  | 0, _ => none
  | fuel + 1, s => do
    let (gap, rest) ← readGap indent none s
    let atBreak := !gap.breaks.isEmpty
    if atBreak && (!flow && decide (gap.column < indent)
        || gap.column == 0 && isDocumentMark rest) then
      return ([], true, rest)
    if rest.head? = some '#' then return ([], atBreak, rest)
    let (word, after) ← plainWord flow rest
    if word = [] then return ([], atBreak, rest)
    let (more, atBreak, rest) ← plainWords flow indent fuel after
    return (gap.text ++ word ++ more, atBreak, rest)

/-- A plain text in lines that are indented to a column, and whether a line break
follows it. -/
def readPlain (flow : Bool) (indent : Nat) (s : List Char) :
    Option (List Char × Bool × List Char) :=
  plainWords flow indent (s.length + 1) s

/-! ## Quoted texts -/

/-- The character that a backslash and another character stand for. -/
def unescape? : Char → Option Char
  | '0' => some '\x00'
  | 'a' => some '\x07'
  | 'b' => some '\x08'
  | 't' | '\t' => some '\t'
  | 'n' => some '\n'
  | 'v' => some '\x0b'
  | 'f' => some '\x0c'
  | 'r' => some '\r'
  | 'e' => some '\x1b'
  | ' ' => some ' '
  | '"' => some '"'
  | '/' => some '/'
  | '\\' => some '\\'
  | 'N' => some '\u0085'
  | '_' => some '\u00a0'
  | 'L' => some '\u2028'
  | 'P' => some '\u2029'
  | _ => none

/-- How many hexadecimal digits follow the letter of a numeric escape. -/
def hexWidth? : Char → Option Nat
  | 'x' => some 2
  | 'u' => some 4
  | 'U' => some 8
  | _ => none

/-- How a word between quotes ended: before a blank, a break, a quote or the end
of the document; or with an escaped line break. -/
inductive WordEnd where
  | open
  | escapedBreak
  deriving DecidableEq, Repr

/-- A word between single quotes. A doubled quote stands for one. -/
def singleWord : List Char → List Char × List Char
  | '\'' :: '\'' :: rest =>
    let (word, r) := singleWord rest
    ('\'' :: word, r)
  | c :: rest =>
    if c = '\'' || isBlank c || isBreak c then ([], c :: rest)
    else
      let (word, r) := singleWord rest
      (c :: word, r)
  | [] => ([], [])

/-- A word between double quotes, escapes resolved. -/
def doubleWord (s : List Char) : Option (List Char × WordEnd × List Char) :=
  match s with
  | [] => some ([], .open, [])
  | '\\' :: '\r' :: '\n' :: rest => some ([], .escapedBreak, rest)
  | '\\' :: c :: rest =>
    if isBreak c then some ([], .escapedBreak, rest)
    else match hexWidth? c with
      | some width => do
        let d ← Text.charOfHex? width rest
        let (word, e, r) ← doubleWord (rest.drop width)
        return (d :: word, e, r)
      | none => do
        let d ← unescape? c
        let (word, e, r) ← doubleWord rest
        return (d :: word, e, r)
  | c :: rest =>
    if c = '"' || isBlank c || isBreak c then some ([], .open, c :: rest)
    else if c = '\\' then none
    else do
      let (word, e, r) ← doubleWord rest
      return (c :: word, e, r)
termination_by s.length
decreasing_by all_goals simp only [List.length_cons, List.length_drop]; omega

/-- The rest of a quoted text up to its closing quote. A document may not start or
end inside quotes. -/
def quotedWords (quote : Char) (word? : List Char → Option (List Char × WordEnd × List Char)) :
    Nat → List Char → Option (List Char × List Char)
  | 0, _ => none
  | fuel + 1, s => do
    let (word, ending, rest) ← word? s
    if ending = .open ∧ rest.head? = some quote then return (word, rest.drop 1)
    let start := if ending = .escapedBreak then some 0 else none
    let (gap, rest) ← readGap 0 start rest
    let atBreak := ending = .escapedBreak || !gap.breaks.isEmpty
    if rest.isEmpty || (atBreak && gap.column == 0 && isDocumentMark rest) then none
    let between := if ending = .escapedBreak then gap.breaks else gap.text
    let (more, rest) ← quotedWords quote word? fuel rest
    return (word ++ between ++ more, rest)

/-- A text between single quotes, after the first of them. -/
def readSingleQuoted (s : List Char) : Option (List Char × List Char) :=
  let word? (s : List Char) :=
    let (word, rest) := singleWord s
    some (word, WordEnd.open, rest)
  quotedWords '\'' word? (s.length + 1) s

/-- A text between double quotes, after the first of them. -/
def readDoubleQuoted (s : List Char) : Option (List Char × List Char) :=
  quotedWords '"' doubleWord (s.length + 1) s

/-! ## Blocks -/

/-- What becomes of the line breaks at the end of a block. -/
inductive Chomping where
  | strip
  | clip
  | keep
  deriving DecidableEq, Repr

/-- The chomping that a character asks for. -/
def Chomping.ofChar? : Char → Option Chomping
  | '-' => some .strip
  | '+' => some .keep
  | _ => none

/-- The indentation that a digit other than zero asks for. -/
def indentHint? (c : Char) : Option Nat :=
  if '1' ≤ c ∧ c ≤ '9' then some (c.toNat - 48) else none

/-- The marks behind a block indicator, in either order. -/
def blockMarks (s : List Char) : Chomping × Option Nat × List Char :=
  match s with
  | [] => (.clip, none, [])
  | c :: rest =>
    match Chomping.ofChar? c, indentHint? c with
    | some chomping, _ =>
      match rest.head?.bind indentHint? with
      | some n => (chomping, some n, rest.drop 1)
      | none => (chomping, none, rest)
    | none, some n =>
      match rest.head?.bind Chomping.ofChar? with
      | some chomping => (chomping, some n, rest.drop 1)
      | none => (.clip, some n, rest)
    | none, none => (.clip, none, s)

/-- What follows the line break at the start of a text, if there is one. -/
def afterBreak : List Char → List Char
  | '\r' :: '\n' :: rest => rest
  | c :: rest => if isBreak c then rest else c :: rest
  | [] => []

/-- What follows the line of a block indicator: blanks and a comment may stand
there. -/
def afterIndicatorLine (s : List Char) : Option (List Char) :=
  let rest := s.dropWhile isBlank
  let rest := if rest.head? = some '#' then rest.dropWhile (!isBreak ·) else rest
  if isBreakOrEnd rest.head? then some (afterBreak rest) else none

/-- The line breaks in front of the next line of a block, the widest indentation
among the lines that were passed, and the column where the next line starts.
Blanks beyond the indentation belong to the line; tabs before it are refused. -/
structure Indentation where
  breaks : List Char := []
  widest : Nat := 0
  column : Nat := 0

/-- Pass empty lines and the indentation of the next line. Without a limit every
space is indentation. -/
def readIndentation (limit : Option Nat) (column widest : Nat) :
    List Char → Option (Indentation × List Char)
  | '\r' :: '\n' :: rest =>
    (readIndentation limit 0 widest rest).map fun (i, r) =>
      ({ i with breaks := '\n' :: i.breaks }, r)
  | c :: rest =>
    let inside := match limit with
      | some n => decide (column < n)
      | none => true
    if inside && c = ' ' then readIndentation limit (column + 1) (max widest (column + 1)) rest
    else if inside && c = '\t' then none
    else if isBreak c then
      (readIndentation limit 0 widest rest).map fun (i, r) =>
        ({ i with breaks := breakRead c :: i.breaks }, r)
    else some ({ widest, column }, c :: rest)
  | [] => some ({ widest, column }, [])

/-- What a block holds so far: its text, the break that ended the last line, the
empty lines after it, and whether that line started with a blank. -/
structure BlockLines where
  text : List Char := []
  ending : List Char := []
  empties : List Char := []
  startedBlank : Bool := false

/-- Add a line. Folding turns the break before it into a space, or drops it when
empty lines follow, unless one of the two lines starts with a blank. -/
def BlockLines.add (literal : Bool) (b : BlockLines) (line ending empties : List Char) :
    BlockLines :=
  let startsBlank := line.head?.any isBlank
  let folds := !literal && b.ending.head? == some '\n' && !b.startedBlank && !startsBlank
  let between :=
    if folds then (if b.empties.isEmpty then [' '] else []) else b.ending
  { text := b.text ++ between ++ b.empties ++ line
    ending
    empties
    startedBlank := startsBlank }

/-- The line break at the start of a text, as it is read. -/
def endingRead : List Char → List Char
  | c :: _ => if isBreak c then [breakRead c] else []
  | [] => []

/-- The lines of a block that start at its column. -/
def blockLines (literal : Bool) (indent : Nat) :
    Nat → BlockLines → Nat → List Char → Option (BlockLines × List Char)
  | 0, _, _, _ => none
  | fuel + 1, b, column, s =>
    if column ≠ indent ∨ s = [] then some (b, s)
    else do
      let line := s.takeWhile (!isBreak ·)
      let rest := s.dropWhile (!isBreak ·)
      let (next, after) ← readIndentation (some indent) 0 0 (afterBreak rest)
      blockLines literal indent fuel (b.add literal line (endingRead rest) next.breaks)
        next.column after

/-- The text of a block after its indicator, inside an indentation. -/
def readBlock (literal : Bool) (outer : Int) (s : List Char) : Option (List Char × List Char) := do
  let (chomping, hint, rest) := blockMarks s
  let rest ← afterIndicatorLine rest
  let limit := hint.map fun n => (max outer 0).toNat + n
  let (first, rest) ← readIndentation limit 0 0 rest
  let indent := limit.getD (max first.widest (max (outer + 1) 1).toNat)
  let (b, rest) ← blockLines literal indent (rest.length + 1) { empties := first.breaks }
    first.column rest
  let tail := match chomping with
    | .strip => []
    | .clip => b.ending
    | .keep => b.ending ++ b.empties
  return (b.text ++ tail, rest)

end Yaml
end Inventory
