/-! Places in the text of a YAML document. -/
namespace CodeAgent.Yaml

/-- Why a document has no value. -/
inductive Flaw where
  /-- The text does not follow the grammar, or its tags do not fit. -/
  | malformed
  /-- A scalar is no numeral or no date of its type. -/
  | badNumeral
  /-- A numeral without digits. -/
  | emptyNumeral
  /-- A word that is no truth value. -/
  | badTruth
  /-- An escape for a number that no character has. -/
  | badCharacter
  /-- An escape for a number that no machine word has. -/
  | largeCharacter
  /-- A text that is no point in time. -/
  | badMoment
  /-- A node that contains itself, or nodes too deep in each other. -/
  | tooNested
  deriving DecidableEq, Repr

/-- A flaw in words. -/
def Flaw.text : Flaw → String
  | malformed => "malformed document"
  | badNumeral => "bad numeral"
  | emptyNumeral => "empty numeral"
  | badTruth => "bad truth value"
  | badCharacter | largeCharacter => "bad character number"
  | badMoment => "bad point in time"
  | tooNested => "nesting too deep"

/-- What is read at the end of a text. -/
def endMark : Char := '\x00'

/-- The mark of the byte order, which counts for no column. -/
def orderMark : Char := '\ufeff'

/-- A character that ends a line. -/
def isBreak (c : Char) : Bool :=
  c == '\n' || c == '\r' || c == '\x85' || c == '\u2028' || c == '\u2029'

/-- The end of a line or of the text. -/
def isBreakOrEnd (c : Char) : Bool := isBreak c || c == endMark

/-- A space, or the end of a line or of the text. -/
def isSpaceOrEnd (c : Char) : Bool := c == ' ' || isBreakOrEnd c

/-- A space, a tab, or the end of a line or of the text. -/
def isBlankOrEnd (c : Char) : Bool := c == '\t' || isSpaceOrEnd c

/-- A character that documents may hold. -/
def isPrintable (c : Char) : Bool :=
  c == '\t' || c == '\n' || c == '\r' || (' ' ≤ c && c ≤ '~') || c == '\x85' ||
    ('\xa0' ≤ c && c ≤ '\ud7ff') || ('\ue000' ≤ c && c ≤ '\ufffd') || 0x10000 ≤ c.toNat

/-- A place in a text: what is left of it, and how many characters, lines and columns are behind. -/
structure Cursor where
  rest : List Char
  index : Nat := 0
  line : Nat := 0
  column : Nat := 0

namespace Cursor

/-- The character some way ahead. -/
def peek (c : Cursor) (n : Nat := 0) : Char := c.rest.getD n endMark

/-- The place after the next character. A return that a line feed follows ends no line. -/
def next (c : Cursor) : Cursor :=
  match c.rest with
  | [] => c
  | ch :: rest =>
    if isBreak ch && !(ch == '\r' && rest.head? == some '\n') then ⟨rest, c.index + 1, c.line + 1, 0⟩
    else ⟨rest, c.index + 1, c.line, if ch == orderMark then c.column else c.column + 1⟩

/-- The place some characters ahead. -/
def skip (c : Cursor) : Nat → Cursor
  | 0 => c
  | n + 1 => c.next.skip n

/-- The characters up to the first that fails a test, and the place of that one. -/
def span (c : Cursor) (test : Char → Bool) : List Char × Cursor :=
  let run := c.rest.takeWhile test
  (run, c.skip run.length)

/-- The place of the first character that fails a test. -/
def skipWhile (c : Cursor) (test : Char → Bool) : Cursor := (c.span test).2

/-- The place of the next character that is no space. -/
def skipSpaces (c : Cursor) : Cursor := c.skipWhile (· == ' ')

/-- The place of the end of the line. -/
def skipLine (c : Cursor) : Cursor := c.skipWhile (!isBreakOrEnd ·)

/-- The break at a place, as a line feed unless it is a separator of its own, and the next line. -/
def lineBreak? (c : Cursor) : Option (Char × Cursor) :=
  match c.rest with
  | '\r' :: '\n' :: _ => some ('\n', c.skip 2)
  | ch :: _ =>
    if ch == '\u2028' || ch == '\u2029' then some (ch, c.next)
    else if isBreak ch then some ('\n', c.next)
    else none
  | [] => none

/-- The marks `---` or `...` stand at a place. -/
def atDocumentMark (c : Cursor) : Bool :=
  (("---".toList.isPrefixOf c.rest) || ("...".toList.isPrefixOf c.rest)) && isBlankOrEnd (c.peek 3)

/-- The rest of a line that holds nothing more but a comment, gone over. -/
def endLine (c : Cursor) : Except Flaw Cursor :=
  let d := c.skipSpaces
  let d := if d.peek == '#' then d.skipLine else d
  if isBreakOrEnd d.peek then .ok ((d.lineBreak?.map (·.2)).getD d) else .error .malformed

end Cursor
end CodeAgent.Yaml
