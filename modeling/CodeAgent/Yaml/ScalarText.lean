import CodeAgent.Yaml.Cursor

/-! The texts of YAML scalars: plain, quoted, and in blocks. -/
namespace CodeAgent.Yaml

/-- Line breaks inside a flowing text: one alone is a space, and of several the first goes. -/
def fold (first : Char) (more : List Char) : List Char :=
  if first != '\n' then first :: more else if more.isEmpty then [' '] else more

/-- A plain scalar that was read, and whether its end lies on a later line than its last word. -/
structure PlainText where
  text : List Char
  crossed : Bool
  after : Cursor

namespace Cursor

private def plainBreaks : Nat → Cursor → List Char → Option (List Char) × Cursor
  | 0, c, _ => (none, c)
  | steps + 1, c, breaks =>
    if c.peek == ' ' then plainBreaks steps c.next breaks
    else match c.lineBreak? with
      | none => (some breaks.reverse, c)
      | some (b, d) =>
        if d.atDocumentMark then (none, d) else plainBreaks steps d (b :: breaks)

/-- The gap after a word of a plain scalar: nothing at the end of the scalar, and whether it goes
over lines. -/
def plainGap (c : Cursor) : List Char × Bool × Cursor :=
  let (spaces, d) := c.span (· == ' ')
  match d.lineBreak? with
  | none => (spaces, false, d)
  | some (b, e) =>
    if e.atDocumentMark then ([], true, e)
    else match plainBreaks (e.rest.length + 1) e [] with
      | (some more, f) => (fold b more, true, f)
      | (none, f) => ([], true, f)

/-- The characters of a plain scalar up to the next gap or sign. -/
def plainWord (inFlow : Bool) : List Char → List Char
  | [] => []
  | c :: cs =>
    let next := cs.headD endMark
    let isFlowSign (d : Char) : Bool :=
      inFlow && (d == ',' || d == '[' || d == ']' || d == '{' || d == '}')
    if isBlankOrEnd c || (c == ':' && (isBlankOrEnd next || isFlowSign next)) || isFlowSign c ||
        (inFlow && c == '?') then []
    else c :: plainWord inFlow cs

private def plainFrom (inFlow : Bool) (indent : Nat) :
    Nat → Cursor → (text gap : List Char) → Bool → PlainText
  | 0, c, text, _, crossed => ⟨text, crossed, c⟩
  | steps + 1, c, text, gap, crossed =>
    let word := plainWord inFlow c.rest
    if c.peek == '#' || word.isEmpty then ⟨text, crossed, c⟩
    else
      let text := text ++ gap ++ word
      let (gap, crossed, d) := plainGap (c.skip word.length)
      if gap.isEmpty || d.peek == '#' || (!inFlow && d.column < indent) then ⟨text, crossed, d⟩
      else plainFrom inFlow indent steps d text gap crossed

/-- The plain scalar at a place: words, and gaps between them, on lines that are indented enough. -/
def plain (c : Cursor) (inFlow : Bool) (indent : Nat) : PlainText :=
  plainFrom inFlow indent (c.rest.length + 1) c [] [] false

private def quotedBreaks : Nat → Cursor → List Char → Except Flaw (List Char × Cursor)
  | 0, _, _ => .error .malformed
  | steps + 1, c, breaks =>
    if c.atDocumentMark then .error .malformed
    else
      let d := c.skipWhile fun ch => ch == ' ' || ch == '\t'
      match d.lineBreak? with
      | some (b, e) => quotedBreaks steps e (b :: breaks)
      | none => .ok (breaks.reverse, d)

/-- The white space in a quoted scalar, with its line breaks folded. -/
def quotedGap (c : Cursor) : Except Flaw (List Char × Cursor) := do
  let (spaces, d) := c.span fun ch => ch == ' ' || ch == '\t'
  match d.lineBreak? with
  | some (b, e) =>
    let (more, f) ← quotedBreaks (e.rest.length + 1) e []
    return (fold b more, f)
  | none => if d.rest.isEmpty then throw .malformed else return (spaces, d)

/-- The character that a letter stands for after a backslash. -/
def escape? : Char → Option Char
  | '0' => some '\x00' | 'a' => some '\x07' | 'b' => some '\x08' | 't' => some '\t'
  | '\t' => some '\t' | 'n' => some '\n' | 'v' => some '\x0b' | 'f' => some '\x0c'
  | 'r' => some '\r' | 'e' => some '\x1b' | ' ' => some ' ' | '"' => some '"'
  | '\\' => some '\\' | '/' => some '/' | 'N' => some '\x85' | '_' => some '\xa0'
  | 'L' => some '\u2028' | 'P' => some '\u2029'
  | _ => none

/-- How many hexadecimal digits follow a letter after a backslash. -/
def escapeWidth? : Char → Option Nat
  | 'x' => some 2 | 'u' => some 4 | 'U' => some 8
  | _ => none

/-- The value of a hexadecimal digit. -/
def hexValue? (c : Char) : Option Nat :=
  if '0' ≤ c && c ≤ '9' then some (c.toNat - '0'.toNat)
  else if 'a' ≤ c && c ≤ 'f' then some (c.toNat - 'a'.toNat + 10)
  else if 'A' ≤ c && c ≤ 'F' then some (c.toNat - 'A'.toNat + 10)
  else none

/-- The number that hexadecimal digits write. -/
def hexNumber? (cs : List Char) : Option Nat :=
  cs.foldlM (fun n c => (hexValue? c).map (n * 16 + ·)) 0

/-- The character of a number. -/
def characterOf (n : Nat) : Except Flaw Char :=
  if n < 0x110000 then .ok (Char.ofNat n)
  else .error (if n < 0x80000000 then .badCharacter else .largeCharacter)

/-- What a backslash and the characters after it stand for. -/
def escaped (c : Cursor) : Except Flaw (List Char × Cursor) :=
  match escape? c.peek, escapeWidth? c.peek with
  | some ch, _ => .ok ([ch], c.next)
  | none, some width =>
    let digits := c.next.rest.take width
    match hexNumber? digits with
    | some n => if digits.length == width then
        (characterOf n).map fun ch => ([ch], c.next.skip width)
      else .error .malformed
    | none => .error .malformed
  | none, none => match c.lineBreak? with
    | some (_, d) => quotedBreaks (d.rest.length + 1) d []
    | none => .error .malformed

private def quotedFrom (quote : Char) : Nat → Cursor → List Char → Except Flaw (List Char × Cursor)
  | 0, _, _ => .error .malformed
  | steps + 1, c, text =>
    let ch := c.peek
    let isDouble := quote == '"'
    if c.rest.isEmpty then .error .malformed
    else if !isDouble && ch == quote && c.peek 1 == quote then
      quotedFrom quote steps (c.skip 2) (quote :: text)
    else if ch == quote then .ok (text.reverse, c.next)
    else if isDouble && ch == '\\' then do
      let (cs, d) ← c.next.escaped
      quotedFrom quote steps d (cs.reverse ++ text)
    else if isBlankOrEnd ch then do
      let (cs, d) ← c.quotedGap
      quotedFrom quote steps d (cs.reverse ++ text)
    else quotedFrom quote steps c.next (ch :: text)

/-- The quoted scalar at a place, from its quote on. -/
def quoted (c : Cursor) : Except Flaw (List Char × Cursor) :=
  quotedFrom c.peek (c.rest.length + 1) c.next []

end Cursor

/-- What becomes of the line breaks at the end of a block. -/
inductive Chomping where
  | clip
  | strip
  | keep
  deriving DecidableEq, Repr

/-- The first line of a block: what becomes of its last breaks, and the indentation if it is given. -/
structure BlockHeader where
  chomping : Chomping := .clip
  indent : Option Nat := none

namespace Cursor

private def chomping? : Char → Option Chomping
  | '+' => some .keep
  | '-' => some .strip
  | _ => none

private def digit? (c : Char) : Option Nat :=
  if '0' ≤ c && c ≤ '9' then some (c.toNat - '0'.toNat) else none

/-- The header of a block, in either order. -/
def blockHeader (c : Cursor) : Except Flaw (BlockHeader × Cursor) := do
  let (header, d) : BlockHeader × Cursor := match chomping? c.peek with
    | some chomping => match digit? (c.peek 1) with
      | some n => ({ chomping, indent := some n }, c.skip 2)
      | none => ({ chomping }, c.next)
    | none => match digit? c.peek with
      | some n => match chomping? (c.peek 1) with
        | some chomping => ({ chomping, indent := some n }, c.skip 2)
        | none => ({ indent := some n }, c.next)
      | none => ({}, c)
  if header.indent == some 0 || !isSpaceOrEnd d.peek then throw .malformed
  return (header, ← d.endLine)

/-- The empty lines at the start of a block, and the widest indentation among them and of the line
after them. -/
def blockStart : Nat → Cursor → List Char → Nat → List Char × Nat × Cursor
  | 0, c, breaks, width => (breaks.reverse, width, c)
  | steps + 1, c, breaks, width =>
    if c.peek == ' ' then blockStart steps c.next breaks (Nat.max width c.next.column)
    else match c.lineBreak? with
      | some (b, d) => blockStart steps d (b :: breaks) width
      | none => (breaks.reverse, width, c)

/-- Go over spaces, up to an indentation. -/
def skipIndent (c : Cursor) (indent : Nat) : Cursor :=
  c.skip ((c.rest.take (indent - c.column)).takeWhile (· == ' ')).length

/-- The empty lines inside a block, and the start of the line after them. -/
def blockBreaks (indent : Nat) : Nat → Cursor → List Char → List Char × Cursor
  | 0, c, breaks => (breaks.reverse, c)
  | steps + 1, c, breaks =>
    let d := c.skipIndent indent
    match d.lineBreak? with
    | some (b, e) => blockBreaks indent steps e (b :: breaks)
    | none => (breaks.reverse, d)

private def isInset (c : Char) : Bool := c == ' ' || c == '\t'

private def blockLines (folded : Bool) (chomping : Chomping) (indent : Nat) :
    Nat → Cursor → List Char → List Char → List Char × Cursor
  | 0, c, text, _ => (text, c)
  | steps + 1, c, text, breaks =>
    let (line, d) := c.span (!isBreakOrEnd ·)
    let text := text ++ breaks ++ line
    let (ending, d) := match d.lineBreak? with
      | some (b, e) => ([b], e)
      | none => ([], d)
    let (breaks, d) := blockBreaks indent (d.rest.length + 1) d []
    if d.column == indent && !d.rest.isEmpty then
      if folded && ending == ['\n'] && !isInset c.peek && !isInset d.peek then
        blockLines folded chomping indent steps d
          (text ++ if breaks.isEmpty then [' '] else []) breaks
      else blockLines folded chomping indent steps d (text ++ ending) breaks
    else
      (text ++ (if chomping == .strip then [] else ending) ++
        (if chomping == .keep then breaks else []), d)

/-- The block at a place, from its sign on, below a node of some indentation. In a folded block a
single break between lines that are not indented further is a space. -/
def block (c : Cursor) (least : Nat) : Except Flaw (List Char × Cursor) := do
  let (header, d) ← c.next.blockHeader
  let least := Nat.max 1 least
  let (breaks, indent, d) : List Char × Nat × Cursor := match header.indent with
    | none =>
      let (breaks, width, e) := blockStart (d.rest.length + 1) d [] 0
      (breaks, Nat.max least width, e)
    | some n =>
      let indent := least + n - 1
      let (breaks, e) := blockBreaks indent (d.rest.length + 1) d []
      (breaks, indent, e)
  if d.column == indent && !d.rest.isEmpty then
    return blockLines (c.peek == '>') header.chomping indent (d.rest.length + 1) d [] breaks
  return (if header.chomping == .keep then breaks else [], d)

end Cursor
end CodeAgent.Yaml
