/-
# Tokens of YAML

A document is cut into tokens from left to right. In block context the column of
a token decides where collections start and end: a deeper entry or key opens one,
a token further left closes those it leaves.

A key without `?` is only known as such at its colon. So the place in front of
every token that could be one is remembered as a candidate, and the colon puts
the key mark there, as long as it stands on the same line and within 1024
characters. Where the indentation asks for a key, it is an error to find none.
-/

import Inventory.Yaml.ScalarText

namespace Inventory
namespace Yaml

/-- A token. Scalars say whether they are plain. Of tags and directives only
their presence matters. -/
inductive Token where
  | directive
  | documentStart
  | documentEnd
  | blockSequenceStart
  | blockMappingStart
  | blockEnd
  | flowSequenceStart
  | flowSequenceEnd
  | flowMappingStart
  | flowMappingEnd
  | blockEntry
  | flowEntry
  | key
  | value
  | anchor (name : String)
  | alias (name : String)
  | tag
  | scalar (plain : Bool) (text : String)
  deriving DecidableEq, Repr, Inhabited

/-- Where a token starts: characters so far, lines so far, and characters so far
on the line. -/
structure Position where
  index : Nat := 0
  line : Nat := 0
  column : Nat := 0
  deriving DecidableEq, Repr

/-- The position after some characters. -/
def Position.after (p : Position) : List Char → Position
  | '\r' :: '\n' :: rest => Position.after ⟨p.index + 2, p.line + 1, 0⟩ rest
  | c :: rest =>
    if isBreak c then Position.after ⟨p.index + 1, p.line + 1, 0⟩ rest
    else Position.after ⟨p.index + 1, p.line, p.column + 1⟩ rest
  | [] => p

/-- A place where a key may have started: how many tokens stand before it, and
whether the indentation asks for a key there. -/
structure KeyCandidate where
  tokensBefore : Nat
  position : Position
  required : Bool
  deriving DecidableEq, Repr

/-- How far a document is cut into tokens. Tokens are kept newest first; outside
all collections the indentation is -1. Each level of brackets has its own
candidate for a key, the innermost is `candidate`. -/
structure Scanner where
  rest : List Char
  position : Position := {}
  tokens : List Token := []
  count : Nat := 0
  indent : Int := -1
  outerIndents : List Int := []
  keyAllowed : Bool := true
  candidate : Option KeyCandidate := none
  outerCandidates : List (Option KeyCandidate) := []

namespace Scanner

/-- Whether the scanner is inside brackets. -/
def inFlow (s : Scanner) : Bool := !s.outerCandidates.isEmpty

/-- Go on to a later point of the text. -/
def goTo (s : Scanner) (rest : List Char) : Scanner :=
  { s with rest, position := s.position.after (s.rest.take (s.rest.length - rest.length)) }

/-- Add a token. -/
def emit (s : Scanner) (t : Token) : Scanner :=
  { s with tokens := t :: s.tokens, count := s.count + 1 }

/-- Put a token in front of those after the first `n`. -/
def emitAt (s : Scanner) (n : Nat) (t : Token) : Scanner :=
  { s with tokens := s.tokens.insertIdx (s.count - n) t, count := s.count + 1 }

/-- Open a block collection at a column, unless the current one is as deep. -/
def openBlock (s : Scanner) (column tokensBefore : Nat) (t : Token) : Scanner :=
  if !s.inFlow && decide (s.indent < column) then
    { s.emitAt tokensBefore t with indent := column, outerIndents := s.indent :: s.outerIndents }
  else s

/-- Close the block collections that are deeper than a column. -/
def closeBlocks (s : Scanner) (column : Int) : Scanner :=
  if s.inFlow then s else go s s.outerIndents
where
  /-- Close one collection after another. -/
  go (s : Scanner) : List Int → Scanner
    | [] => s
    | outer :: rest =>
      if column < s.indent then
        go { s.emit .blockEnd with indent := outer, outerIndents := rest } rest
      else s

/-- Give up the candidate for a key. -/
def dropCandidate (s : Scanner) : Option Scanner :=
  if s.candidate.any (·.required) then none else some { s with candidate := none }

/-- Whether a candidate is out of reach of a colon. -/
def isStale (p : Position) (k : KeyCandidate) : Bool :=
  decide (k.position.line < p.line) || decide (k.position.index + 1024 < p.index)

/-- Give up candidates that are out of reach, at every level of brackets. -/
def dropStale (s : Scanner) : Option Scanner :=
  let stale (k : Option KeyCandidate) : Bool := k.any (isStale s.position)
  let drop (k : Option KeyCandidate) : Option KeyCandidate := if stale k then none else k
  if (s.candidate :: s.outerCandidates).any fun k => stale k && k.any (·.required) then none
  else some { s with candidate := drop s.candidate, outerCandidates := s.outerCandidates.map drop }

/-- Remember this place as one where a key may start. -/
def noteCandidate (s : Scanner) : Option Scanner :=
  if s.keyAllowed then
    s.dropCandidate.map fun s =>
      { s with candidate := some {
          tokensBefore := s.count
          position := s.position
          required := !s.inFlow && decide (s.indent = s.position.column) } }
  else some s

/-- What stands before the next token: blanks, comments and line breaks. After a
line break in block context a key may start. A tab counts as blank only where no
key may start. -/
def skipToToken (flow : Bool) (keyAllowed comment : Bool) : List Char → Bool × List Char
  | '\r' :: '\n' :: rest => skipToToken flow (keyAllowed || !flow) false rest
  | c :: rest =>
    if isBreak c then skipToToken flow (keyAllowed || !flow) false rest
    else if comment then skipToToken flow keyAllowed true rest
    else if c = '#' then skipToToken flow keyAllowed true rest
    else if c = ' ' || (c = '\t' && (flow || !keyAllowed)) then
      skipToToken flow keyAllowed false rest
    else (keyAllowed, c :: rest)
  | [] => (keyAllowed, [])

/-- Go to the next token. A byte order mark at the very start takes a column. -/
def toToken (s : Scanner) : Scanner :=
  let start := match s.rest with
    | c :: rest => if s.position.index = 0 ∧ c.toNat = 0xFEFF then rest else c :: rest
    | [] => []
  let (keyAllowed, rest) := skipToToken s.inFlow s.keyAllowed false start
  { s.goTo rest with keyAllowed }

/-- A token of one character. -/
def indicator (s : Scanner) (t : Token) : Scanner := (s.goTo (s.rest.drop 1)).emit t

/-- A token that may start a key: the text after it, and the token itself. -/
def keyToken (s : Scanner) (read : Option (Token × List Char)) : Option Scanner := do
  let s ← s.noteCandidate
  let (t, rest) ← read
  return { (s.goTo rest).emit t with keyAllowed := false }

/-- The start of a document or the end of one. -/
def documentMark (s : Scanner) (t : Token) : Option Scanner := do
  let s ← (s.closeBlocks (-1)).dropCandidate
  return { (s.goTo (s.rest.drop 3)).emit t with keyAllowed := false }

/-- The directives there are. -/
def directiveNames : List String := ["%YAML", "%TAG"]

/-- A directive: everything up to the end of the line. -/
def directive (s : Scanner) : Option Scanner := do
  let s ← (s.closeBlocks (-1)).dropCandidate
  let name := s.rest.takeWhile fun c => !isBlank c && !isBreak c
  if directiveNames.contains (String.ofList name) then
    return { (s.goTo (s.rest.dropWhile (!isBreak ·))).emit .directive with keyAllowed := false }
  else none

/-- An opening bracket. -/
def openFlow (s : Scanner) (t : Token) : Option Scanner := do
  let s ← s.noteCandidate
  return { s.indicator t with
    keyAllowed := true, candidate := none, outerCandidates := s.candidate :: s.outerCandidates }

/-- A closing bracket. -/
def closeFlow (s : Scanner) (t : Token) : Option Scanner := do
  let s ← s.dropCandidate
  let s := { s.indicator t with keyAllowed := false }
  match s.outerCandidates with
  | [] => return s
  | candidate :: outerCandidates => return { s with candidate, outerCandidates }

/-- A comma between brackets. -/
def flowEntry (s : Scanner) : Option Scanner := do
  let s ← s.dropCandidate
  return { s.indicator .flowEntry with keyAllowed := true }

/-- A dash before an item. -/
def blockEntry (s : Scanner) : Option Scanner := do
  if !s.inFlow && !s.keyAllowed then none
  let s := s.openBlock s.position.column s.count .blockSequenceStart
  let s ← s.dropCandidate
  return { s.indicator .blockEntry with keyAllowed := true }

/-- A question mark before a key. -/
def keyMark (s : Scanner) : Option Scanner := do
  if !s.inFlow && !s.keyAllowed then none
  let s := s.openBlock s.position.column s.count .blockMappingStart
  let s ← s.dropCandidate
  return { s.indicator .key with keyAllowed := !s.inFlow }

/-- A colon before a value. When there is a candidate, it was a key. -/
def valueMark (s : Scanner) : Option Scanner :=
  match s.candidate with
  | some k =>
    let s := (s.emitAt k.tokensBefore .key).openBlock k.position.column k.tokensBefore
      .blockMappingStart
    some { s.indicator .value with candidate := none, keyAllowed := false }
  | none =>
    if !s.inFlow && !s.keyAllowed then none
    else
      let s := s.openBlock s.position.column s.count .blockMappingStart
      some { s.indicator .value with keyAllowed := !s.inFlow }

/-- Characters of an anchor's name. -/
def isNameChar (c : Char) : Bool := c.isAlphanum || c = '_' || c = '-'

/-- The name of an anchor or alias after its mark. -/
def readName (s : List Char) : Option (String × List Char) :=
  let name := s.takeWhile isNameChar
  let rest := s.dropWhile isNameChar
  let ends := isBlankBreakOrEnd rest.head? || rest.head?.any ("?:,]\x7d%@`".toList.contains ·)
  if name = [] ∨ !ends then none else some (String.ofList name, rest)

/-- A tag after its mark. -/
def readTag (flow : Bool) (s : List Char) : Option (List Char) :=
  let rest := match s with
    | '<' :: rest => (rest.dropWhile fun c => !isBlank c && !isBreak c && c ≠ '>').drop 1
    | s => s.dropWhile fun c => !isBlank c && !isBreak c && !flowIndicators.contains c
  if isBlankBreakOrEnd rest.head? || (flow && rest.head? = some ',') then some rest else none

/-- A plain scalar. A key may start after the line break that ends it. -/
def plain (s : Scanner) : Option Scanner := do
  let s ← s.noteCandidate
  let (text, atBreak, rest) ← readPlain s.inFlow (s.indent + 1).toNat s.rest
  return { (s.goTo rest).emit (.scalar true (String.ofList text)) with keyAllowed := atBreak }

/-- A block scalar after its indicator. -/
def block (s : Scanner) (literal : Bool) : Option Scanner := do
  let s ← s.dropCandidate
  let (text, rest) ← readBlock literal s.indent (s.rest.drop 1)
  return { (s.goTo rest).emit (.scalar false (String.ofList text)) with keyAllowed := true }

/-- Whether a plain scalar may start with these characters. -/
def startsPlain (flow : Bool) : List Char → Bool
  | [] => false
  | c :: rest =>
    if c = '-' then !isBlankBreakOrEnd rest.head?
    else if c = '?' || c = ':' then !flow && !isBlankBreakOrEnd rest.head?
    else !isBlank c && !isBreak c && !(",[]\x7b\x7d#&*!|>'\"%@`".toList.contains c)

/-- The token that starts here. -/
def token (s : Scanner) (c : Char) (after : List Char) : Option Scanner :=
  let separated := isBlankBreakOrEnd after.head?
  let atLineStart := decide (s.position.column = 0)
  if atLineStart && c = '%' then s.directive
  else if atLineStart && isDocumentMark s.rest then
    s.documentMark (if c = '-' then .documentStart else .documentEnd)
  else match c with
    | '[' => s.openFlow .flowSequenceStart
    | '\x7b' => s.openFlow .flowMappingStart
    | ']' => s.closeFlow .flowSequenceEnd
    | '\x7d' => s.closeFlow .flowMappingEnd
    | ',' => s.flowEntry
    | '*' => s.keyToken ((readName after).map fun (name, r) => (.alias name, r))
    | '&' => s.keyToken ((readName after).map fun (name, r) => (.anchor name, r))
    | '!' => s.keyToken ((readTag s.inFlow after).map (.tag, ·))
    | '\'' => s.keyToken ((readSingleQuoted after).map fun (t, r) =>
        (.scalar false (String.ofList t), r))
    | '"' => s.keyToken ((readDoubleQuoted after).map fun (t, r) =>
        (.scalar false (String.ofList t), r))
    | _ =>
      if c = '-' && separated then s.blockEntry
      else if c = '?' && (s.inFlow || separated) then s.keyMark
      else if c = ':' && (s.inFlow || separated) then s.valueMark
      else if c = '|' && !s.inFlow then s.block true
      else if c = '>' && !s.inFlow then s.block false
      else if startsPlain s.inFlow s.rest then s.plain
      else none

/-- The end of the text: every block collection ends here. -/
def finish (s : Scanner) : Option Scanner := (s.closeBlocks (-1)).dropCandidate

/-- Cut the rest of the text, one token at a time. -/
def run : Nat → Scanner → Option Scanner
  | 0, _ => none
  | fuel + 1, s => do
    let s ← s.toToken.dropStale
    let s := s.closeBlocks s.position.column
    match s.rest with
    | [] => s.finish
    | c :: after => run fuel (← s.token c after)

end Scanner

/-- The tokens of a document. Every token takes a character. -/
def Token.scan (s : List Char) : Option (List Token) :=
  if s.all isAllowed then
    (Scanner.run (s.length + 1) { rest := s }).map fun s => s.tokens.reverse
  else none

end Yaml
end Inventory
