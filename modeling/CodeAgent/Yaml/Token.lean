import CodeAgent.Yaml.ScalarText

/-! The tokens of YAML documents. Indentation shows as tokens that open and close blocks. -/
namespace CodeAgent.Yaml

/-- A part of a document. -/
inductive Token where
  | version (major : Nat)
  | tagRule (handle : String) (start : String)
  | otherRule
  | documentStart
  | documentEnd
  | listBlock
  | mapBlock
  | blockEnd
  | listOpen
  | listClose
  | mapOpen
  | mapClose
  | item
  | comma
  | key
  | value
  | reference (name : String)
  | anchor (name : String)
  | tag (handle : Option String) (ending : String)
  | scalar (text : String) (plain : Bool)
  deriving DecidableEq, Repr

/-- A place where a key may turn out to start: the number of its token, and where it is. It is needed
if the line can hold nothing else. -/
structure KeyPlace where
  token : Nat
  needed : Bool
  index : Nat
  line : Nat
  column : Nat

/-- A reader between two tokens: the tokens so far in reverse, the keys found among them (each with
whether it opens a block), the open blocks by their columns, the possible keys by open bracket, and
whether a key may start here. -/
structure Scan where
  cursor : Cursor
  tokens : List Token := []
  count : Nat := 0
  keys : List (Nat × Bool) := []
  blocks : List Nat := []
  keyPlaces : List (Option KeyPlace) := [none]
  keyAllowed : Bool := true

namespace Scan

/-- The longest key that stands without a sign of its own. -/
def maxKeyLength : Nat := 1024

/-- There are open brackets. -/
def inFlow (s : Scan) : Bool := 1 < s.keyPlaces.length

/-- The column of the innermost block, or nothing outside of blocks. -/
def column? (s : Scan) : Option Nat := s.blocks.head?

/-- The least indentation of lines inside the innermost block. -/
def indent (s : Scan) : Nat := match s.column? with
  | some n => n + 1
  | none => 0

/-- Add a token. -/
def push (s : Scan) (t : Token) : Scan := { s with tokens := t :: s.tokens, count := s.count + 1 }

/-- Add a token and go on at another place. -/
def pushAt (s : Scan) (t : Token) (c : Cursor) : Scan := { s.push t with cursor := c }

/-- Give up a possible key; one that is needed cannot be given up. -/
def forget (p : KeyPlace) : Except Flaw (Option KeyPlace) :=
  if p.needed then .error .malformed else .ok none

/-- Give up the possible keys that the reader has left behind. -/
def dropOldKeys (s : Scan) : Except Flaw Scan := do
  let keyPlaces ← s.keyPlaces.mapM fun
    | none => pure none
    | some p =>
      if p.line != s.cursor.line || maxKeyLength < s.cursor.index - p.index then forget p
      else pure (some p)
  return { s with keyPlaces }

/-- Give up the possible key inside the innermost bracket. -/
def dropKey (s : Scan) : Except Flaw Scan :=
  match s.keyPlaces with
  | some p :: places => (forget p).map fun q => { s with keyPlaces := q :: places }
  | _ => .ok s

/-- The next token may be a key. -/
def markKey (s : Scan) : Except Flaw Scan := do
  let c := s.cursor
  let needed := !s.inFlow && s.column? == some c.column
  if s.keyAllowed then
    let s ← s.dropKey
    let place : KeyPlace := ⟨s.count, needed, c.index, c.line, c.column⟩
    return { s with keyPlaces := some place :: s.keyPlaces.drop 1 }
  return s

/-- Close the blocks that are indented further than a column. -/
def closeBlocks (s : Scan) (least : Nat) : Scan :=
  if s.inFlow then s
  else
    let (closed, blocks) := s.blocks.span (least ≤ ·)
    { closed.foldl (fun s _ => s.push .blockEnd) s with blocks }

/-- A block may open at a column: it is further than the innermost block. -/
def opensBlock (s : Scan) (column : Nat) : Bool := match s.column? with
  | some n => n < column
  | none => true

/-- Open a block at a column, unless the innermost one is there already. -/
def openBlock (s : Scan) (t : Token) (column : Nat) : Scan :=
  if s.opensBlock column then { s.push t with blocks := column :: s.blocks } else s

/-- Go over white space, line breaks and comments. Outside of brackets a key may start a line. -/
def skipBlank : Nat → Scan → Scan
  | 0, s => s
  | steps + 1, s =>
    let c := if s.cursor.index == 0 && s.cursor.peek == orderMark then s.cursor.next else s.cursor
    let c := c.skipSpaces
    let c := if c.peek == '#' then c.skipLine else c
    match c.lineBreak? with
    | some (_, d) => skipBlank steps { s with cursor := d, keyAllowed := s.keyAllowed || !s.inFlow }
    | none => { s with cursor := c }

/-- A sign that stands alone outside of brackets, and anywhere inside. -/
def standsAlone (s : Scan) : Bool := s.inFlow || isBlankOrEnd (s.cursor.peek 1)

/-- A character of names. -/
def isNameChar (c : Char) : Bool := c.isAlphanum || c == '-' || c == '_'

/-- The name of an anchor after its sign. -/
def anchorName (c : Cursor) : Except Flaw (String × Cursor) :=
  let (name, d) := c.next.span isNameChar
  let isEnd := isBlankOrEnd d.peek || "?:,]\x7d%@\x60".toList.contains d.peek
  if name.isEmpty || !isEnd then .error .malformed else .ok (String.ofList name, d)

private def isTagChar (c : Char) : Bool :=
  c.isAlphanum || "-;/?:@&=+$,_.!~*'()[]%".toList.contains c

private def tagBytes : List Char → Except Flaw (List UInt8)
  | [] => .ok []
  | '%' :: a :: b :: cs => match Cursor.hexNumber? [a, b] with
    | some n => (tagBytes cs).map (UInt8.ofNat n :: ·)
    | none => .error .malformed
  | c :: cs =>
    if c == '%' then .error .malformed else (tagBytes cs).map (UInt8.ofNat c.toNat :: ·)

/-- The ending of a tag, with its escapes undone. -/
def tagText (c : Cursor) : Except Flaw (String × Cursor) := do
  let (text, d) := c.span isTagChar
  if text.isEmpty then throw .malformed
  match String.fromUTF8? ⟨(← tagBytes text).toArray⟩ with
  | some t => return (t, d)
  | none => throw .malformed

/-- The handle of a tag: an exclamation mark, or a name between two of them. -/
def tagHandle (c : Cursor) : Except Flaw (String × Cursor) :=
  if c.peek != '!' then .error .malformed
  else if c.peek 1 == ' ' then .ok ("!", c.next)
  else
    let (name, d) := c.next.span isNameChar
    if d.peek == '!' then .ok ("!" ++ String.ofList name ++ "!", d.next)
    else if name.isEmpty then .ok ("!", c.next)
    else .error .malformed

/-- The tag at a place. -/
def tagToken (c : Cursor) : Except Flaw (Token × Cursor) := do
  let (t, d) ←
    if c.peek 1 == '<' then do
      let (text, d) ← tagText (c.skip 2)
      if d.peek != '>' then throw .malformed
      pure (Token.tag none text, d.next)
    else if isBlankOrEnd (c.peek 1) then pure (Token.tag none "!", c.next)
    else do
      let named := (c.next.rest.takeWhile (!isSpaceOrEnd ·)).contains '!'
      let (handle, d) ← if named then tagHandle c else pure ("!", c.next)
      let (text, d) ← tagText d
      pure (Token.tag (some handle) text, d)
  if isSpaceOrEnd d.peek then return (t, d) else throw .malformed

private def number? (c : Cursor) : Option (Nat × Cursor) :=
  let (digits, d) := c.span Char.isDigit
  if digits.isEmpty then none
  else some (digits.foldl (fun n c => n * 10 + (c.toNat - '0'.toNat)) 0, d)

/-- The rule for the document at a place, from its sign on. -/
def ruleToken (c : Cursor) : Except Flaw (Token × Cursor) := do
  let (name, d) := c.next.span isNameChar
  if name.isEmpty || !isSpaceOrEnd d.peek then throw .malformed
  let (t, d) ← match String.ofList name with
    | "YAML" => do
      let some (major, e) := number? d.skipSpaces | throw .malformed
      if e.peek != '.' then throw .malformed
      let some (_, f) := number? e.next | throw .malformed
      if isSpaceOrEnd f.peek then pure (Token.version major, f) else throw .malformed
    | "TAG" => do
      let (handle, e) ← tagHandle d.skipSpaces
      if e.peek != ' ' then throw .malformed
      let (start, f) ← tagText e.skipSpaces
      if isSpaceOrEnd f.peek then pure (Token.tagRule handle start, f) else throw .malformed
    | _ => pure (Token.otherRule, d.skipLine)
  return (t, ← d.endLine)

/-- Read a sign for a list item. -/
def readItem (s : Scan) : Except Flaw Scan := do
  let c := s.cursor
  if !s.inFlow && !s.keyAllowed then throw .malformed
  let s := if s.inFlow then s else s.openBlock .listBlock c.column
  let s ← s.dropKey
  return { s.pushAt .item c.next with keyAllowed := true }

/-- Read a sign for a key. -/
def readKey (s : Scan) : Except Flaw Scan := do
  let c := s.cursor
  if !s.inFlow && !s.keyAllowed then throw .malformed
  let s := if s.inFlow then s else s.openBlock .mapBlock c.column
  let s ← s.dropKey
  return { s.pushAt .key c.next with keyAllowed := !s.inFlow }

/-- Read a sign for a value. It makes the possible key before it a key. -/
def readValue (s : Scan) : Except Flaw Scan := do
  let next := s.cursor.next
  match s.keyPlaces with
  | some p :: places =>
    let opens := !s.inFlow && s.opensBlock p.column
    let s := { s with
      keyPlaces := none :: places, keys := (p.token, opens) :: s.keys, keyAllowed := false
      blocks := if opens then p.column :: s.blocks else s.blocks }
    return s.pushAt .value next
  | _ =>
    if !s.inFlow && !s.keyAllowed then throw .malformed
    let s := if s.inFlow then s else s.openBlock .mapBlock s.cursor.column
    return { s.pushAt .value next with keyAllowed := !s.inFlow }

/-- Read a token that may be a key. -/
def readNode (s : Scan) (read : Cursor → Except Flaw (Token × Cursor)) : Except Flaw Scan := do
  let s ← s.markKey
  let (t, c) ← read s.cursor
  return { s.pushAt t c with keyAllowed := false }

/-- Read an opening bracket. -/
def openBracket (s : Scan) (t : Token) : Except Flaw Scan := do
  let s ← s.markKey
  return { s.pushAt t s.cursor.next with keyPlaces := none :: s.keyPlaces, keyAllowed := true }

/-- Read a closing bracket, which must close one. -/
def closeBracket (s : Scan) (t : Token) : Except Flaw Scan := do
  let s ← s.dropKey
  if !s.inFlow then throw .malformed
  return { s.pushAt t s.cursor.next with keyPlaces := s.keyPlaces.drop 1, keyAllowed := false }

/-- Read what ends all blocks. -/
def readOutside (s : Scan) (read : Cursor → Except Flaw (Token × Cursor)) : Except Flaw Scan := do
  let s ← (s.closeBlocks 0).dropKey
  let (t, c) ← read s.cursor
  return { s.pushAt t c with keyAllowed := false }

private def plainToken (s : Scan) : Except Flaw Scan := do
  let s ← s.markKey
  let p := s.cursor.plain s.inFlow s.indent
  return { s.pushAt (.scalar (String.ofList p.text) true) p.after with keyAllowed := p.crossed }

private def blockToken (s : Scan) : Except Flaw Scan := do
  let s ← s.dropKey
  let (text, d) ← s.cursor.block s.indent
  return { s.pushAt (.scalar (String.ofList text) false) d with keyAllowed := true }

private def quotedToken (c : Cursor) : Except Flaw (Token × Cursor) :=
  c.quoted.map fun (text, d) => (.scalar (String.ofList text) false, d)

/-- A character that can start a plain scalar. -/
def startsPlain (s : Scan) : Bool :=
  let c := s.cursor.peek
  if isBlankOrEnd c then false
  else if "-?:,[]\x7b\x7d#&*!|>'\"%@\x60".toList.contains c then
    !isBlankOrEnd (s.cursor.peek 1) && (c == '-' || (!s.inFlow && (c == '?' || c == ':')))
  else true

/-- Read the token at a place that is not blank. -/
def read (s : Scan) : Except Flaw Scan :=
  let c := s.cursor
  let ch := c.peek
  if c.column == 0 && ch == '%' then s.readOutside ruleToken
  else if c.column == 0 && c.atDocumentMark then
    let t : Token := if ch == '-' then .documentStart else .documentEnd
    s.readOutside fun c => .ok (t, c.skip 3)
  else if ch == '[' then s.openBracket .listOpen
  else if ch == '{' then s.openBracket .mapOpen
  else if ch == ']' then s.closeBracket .listClose
  else if ch == '}' then s.closeBracket .mapClose
  else if ch == ',' then s.dropKey.map fun s => { s.pushAt .comma c.next with keyAllowed := true }
  else if ch == '-' && isBlankOrEnd (c.peek 1) then s.readItem
  else if ch == '?' && s.standsAlone then s.readKey
  else if ch == ':' && s.standsAlone then s.readValue
  else if ch == '*' then s.readNode fun c => (anchorName c).map fun (n, d) => (.reference n, d)
  else if ch == '&' then s.readNode fun c => (anchorName c).map fun (n, d) => (.anchor n, d)
  else if ch == '!' then s.readNode tagToken
  else if (ch == '|' || ch == '>') && !s.inFlow then s.blockToken
  else if ch == '\'' || ch == '"' then s.readNode quotedToken
  else if s.startsPlain then s.plainToken
  else .error .malformed

/-- Read the tokens up to the end of the text. -/
def readAll : Nat → Scan → Except Flaw Scan
  | 0, _ => .error .malformed
  | steps + 1, s => do
    let s ← (skipBlank (s.cursor.rest.length + 1) s).dropOldKeys
    let s := s.closeBlocks (s.cursor.column + 1)
    if s.cursor.rest.isEmpty then (s.closeBlocks 0).dropKey else readAll steps (← s.read)

/-- The tokens, with the signs of keys in front of the tokens that turned out to start them. -/
def allTokens (s : Scan) : List Token :=
  (s.tokens.reverse.zipIdx).flatMap fun (t, i) => match s.keys.find? (·.1 == i) with
    | some (_, opens) => (if opens then [.mapBlock, .key] else [.key]) ++ [t]
    | none => [t]

end Scan

/-- The tokens of a text. -/
def tokens (text : String) : Except Flaw (List Token) :=
  let cs := text.toList
  if !cs.all isPrintable then .error .malformed
  else (Scan.readAll (cs.length + 1) { cursor := ⟨cs, 0, 0, 0⟩ }).map Scan.allTokens

end CodeAgent.Yaml
