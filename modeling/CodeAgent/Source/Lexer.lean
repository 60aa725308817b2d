import CodeAgent.Source.Literal
import CodeAgent.Text.Identifier
import CodeAgent.Text.Line
import CodeAgent.Text.Search

/-! Python source as tokens: words, numerals, literals and signs, and the layout of lines. -/
namespace CodeAgent.Source
open CodeAgent.Text

/-- The width of an indentation, with tabs to every eighth column, and with tabs as single columns;
two lines agree only if both widths do. -/
structure Indentation where
  width : Nat := 0
  plain : Nat := 0
  deriving DecidableEq, Repr

/-- A lexer between two tokens: the characters left, the number of the line, the open blocks, and the
open brackets. -/
structure LexState where
  rest : List Char
  line : Nat := 1
  blocks : List Indentation := []
  brackets : List Char := []

/-- The most blocks that can be open at a time. -/
def maxBlocks : Nat := 99

/-- The signs of three, two and one characters. -/
def signs : List (List Char) :=
  ["**=", "//=", ">>=", "<<=", "...", "!=", "%=", "&=", "**", "*=", "+=", "-=", "->", "//", "/=",
    ":=", "<<", "<=", "<>", "==", ">=", ">>", "@=", "^=", "|=", "%", "&", "(", ")", "*", "+", ",",
    "-", ".", "/", ":", ";", "<", "=", ">", "@", "[", "]", "^", "\x7b", "|", "\x7d", "~"].map String.toList
where
  /-- The first sign of a list that some characters start with, and the rest. -/
  first? (cs : List Char) : List (List Char) → Option (List Char × List Char)
    | [] => none
    | s :: ss => match dropStart? s cs with
      | some rest => some (s, rest)
      | none => first? cs ss

namespace LexState

/-- The innermost block. -/
def block (s : LexState) : Indentation := s.blocks.head?.getD {}

/-- What follows a backslash at the end of a line, which joins the next line to it. -/
def joined? (s : LexState) (cs : List Char) : Option LexState :=
  match cs with
  | '\n' :: c :: rest => some { s with rest := c :: rest, line := s.line + 1 }
  | _ => none

/-- Go over the indentation of a line. Of an indentation over joined lines the part before the first
backslash counts, unless it is empty. -/
def indentation? (s : LexState) : Nat → Indentation → (fixed : Nat) →
    Option (Indentation × LexState)
  | 0, _, _ => none
  | steps + 1, i, fixed =>
    match s.rest with
    | ' ' :: cs => indentation? { s with rest := cs } steps ⟨i.width + 1, i.plain + 1⟩ fixed
    | '\t' :: cs =>
      indentation? { s with rest := cs } steps ⟨(i.width / 8 + 1) * 8, i.plain + 1⟩ fixed
    | '\x0c' :: cs => indentation? { s with rest := cs } steps {} fixed
    | '\\' :: cs => (s.joined? cs).bind fun t =>
        t.indentation? steps i (if fixed = 0 then i.width else fixed)
    | _ => some (if fixed = 0 then i else ⟨fixed, fixed⟩, s)

/-- Close the blocks that are indented further than a line. -/
def closeBlocks (width : Nat) : List Indentation → List Indentation × Nat
  | [] => ([], 0)
  | b :: bs =>
    if width < b.width then
      let (blocks, n) := closeBlocks width bs
      (blocks, n + 1)
    else (b :: bs, 0)

/-- Start a line that has an indentation: the tokens for the blocks that it opens or closes. -/
def startLine? (s : LexState) (i : Indentation) : Option (List Token × LexState) :=
  let layout (l : Lexeme) : Token := ⟨l, s.line, s.line⟩
  if i.width == s.block.width then
    if i.plain == s.block.plain then some ([], s) else none
  else if s.block.width < i.width then
    if s.blocks.length < maxBlocks && s.block.plain < i.plain then
      some ([layout .indent], { s with blocks := i :: s.blocks })
    else none
  else
    let (blocks, n) := closeBlocks i.width s.blocks
    let s := { s with blocks }
    if s.block = i then some (List.replicate n (layout .dedent), s) else none

/-- The body of a string literal up to its closing quotes, and the rest. A backslash keeps the next
character from closing the literal, and only literals in triple quotes go on over lines. -/
def body? (quotes : List Char) (c : Char) : List Char → Option (List Char × List Char)
  | [] => none
  | '\\' :: d :: cs => (body? quotes c cs).map fun (b, r) => ('\\' :: d :: b, r)
  | ['\\'] => none
  | d :: cs =>
    if d == '\n' && quotes.length == 1 then none
    else if d == c && quotes.isPrefixOf (d :: cs) then
      some ([], (d :: cs).drop quotes.length)
    else (body? quotes c cs).map fun (b, r) => (d :: b, r)

/-- The token of a string literal from its quote on. -/
def literalToken? (s : LexState) (m : LiteralMode) (quote : Char) (cs : List Char) :
    Option (Token × LexState) := do
  let (body, rest) ← match cs with
    | a :: b :: more =>
      if a == quote && b == quote then body? [quote, quote, quote] quote more
      else if a == quote then some ([], b :: more)
      else body? [quote] quote cs
    | _ => if cs == [quote] then some ([], []) else body? [quote] quote cs
  let last := s.line + body.count '\n'
  return (⟨← literal? m body, s.line, last⟩, { s with rest, line := last })

/-- The mode of the string literal at the start of some characters, its quote, and the rest. -/
def literalStart? (m : LiteralMode) : List Char → Option (LiteralMode × Char × List Char)
  | [] => none
  | c :: cs =>
    if c == '"' || c == '\'' then some (m, c, cs) else (m.add? c).bind (literalStart? · cs)

/-- A word is a name or a keyword. -/
def isWord : List Char → Bool
  | [] => false
  | c :: cs => isIdentifierStart c && cs.all isIdentifierPart

/-- The token of a sign. Brackets must be closed as they were opened. -/
def sign? (s : LexState) : Option (Token × LexState) := do
  let (sign, rest) ← signs.first? s.rest signs
  let token : Token := ⟨.op (String.ofList sign), s.line, s.line⟩
  let s := { s with rest }
  match sign with
  | [c] =>
    if c == '(' || c == '[' || c == '{' then
      if s.brackets.length < maxBrackets then some (token, { s with brackets := c :: s.brackets })
      else none
    else match opening? c with
      | none => some (token, s)
      | some o => match s.brackets with
        | b :: brackets => if b == o then some (token, { s with brackets }) else none
        | [] => none
  | _ => some (token, s)

/-- The token at the start of the characters left, which is no layout. -/
def token? (s : LexState) : Option (Token × LexState) :=
  let here (l : Lexeme) (rest : List Char) : Token × LexState :=
    (⟨l, s.line, s.line⟩, { s with rest })
  match literalStart? {} s.rest with
  | some (m, quote, cs) => s.literalToken? m quote cs
  | none => match s.rest with
    | [] => none
    | c :: cs =>
      if isDigit c then (numeral? s.rest).map fun (i, r) => here (.number i) r
      else if isWordChar c then
        let word := s.rest.takeWhile isWordChar
        if isWord word then some (here (.ofWord (String.ofList word)) (s.rest.dropWhile isWordChar))
        else none
      else if c == '.' && (cs.head?.map isDigit).getD false then
        (fraction? cs).map fun (i, r) => here (.number i) r
      else s.sign?

end LexState

/-- The tokens of the characters left, onto those that were read, which are given in reverse. At the
start of a line its indentation comes first; lines without a token have no layout. -/
def tokensFrom : (steps : Nat) → (atStart : Bool) → LexState → List Token → Option (List Token)
  | 0, _, _, _ => none
  | steps + 1, true, s, found =>
    match s.indentation? steps {} 0 with
    | none => none
    | some (i, s) =>
      let isEmpty := match s.rest with
        | c :: _ => c == '#' || c == '\n'
        | [] => false
      if isEmpty || !s.brackets.isEmpty then tokensFrom steps false s found
      else match s.startLine? i with
        | none => none
        | some (layout, s) => tokensFrom steps false s (layout.reverse ++ found)
  | steps + 1, false, s, found =>
    let follows := (found.head?.map fun t => !t.lexeme.isLayout).getD false
    match s.rest with
    | [] => if s.brackets.isEmpty then some found.reverse else none
    | '\n' :: rest =>
      let next := { s with rest, line := s.line + 1 }
      if s.brackets.isEmpty && follows then
        tokensFrom steps true next (⟨.newline, s.line, s.line⟩ :: found)
      else tokensFrom steps true next found
    | '\\' :: cs => match s.joined? cs with
      | some s => tokensFrom steps false s found
      | none => none
    | '#' :: cs => tokensFrom steps false { s with rest := cs.dropWhile (· != '\n') } found
    | c :: cs =>
      if c == ' ' || c == '\t' || c == '\x0c' then tokensFrom steps false { s with rest := cs } found
      else match s.token? with
        | some (t, s) => tokensFrom steps false s (t :: found)
        | none => none

/-- The tokens of source. Every line end counts as a line feed, and the last line has one. -/
def tokens? (source : List Char) : Option (List Token) :=
  let cs := unifyLineEnds source
  let cs := if cs.getLast? == some '\n' then cs else cs ++ ['\n']
  tokensFrom (2 * cs.length + 2) true { rest := cs } []

end CodeAgent.Source
