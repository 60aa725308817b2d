import CodeAgent.Decimal.Digits
import CodeAgent.Json.Reader
import CodeAgent.Source.Token

/-! Numerals of Python source. -/
namespace CodeAgent.Source

/-- An ASCII digit. -/
def isDigit (c : Char) : Bool := '0' ≤ c && c ≤ '9'

/-- A digit of base sixteen. -/
def isHexDigit (c : Char) : Bool :=
  isDigit c || ('a' ≤ c && c ≤ 'f') || ('A' ≤ c && c ≤ 'F')

/-- A character that a name may have; outside ASCII, names are looked at more closely later. -/
def isWordChar (c : Char) : Bool :=
  isDigit c || ('a' ≤ c && c ≤ 'z') || ('A' ≤ c && c ≤ 'Z') || c == '_' || 128 ≤ c.toNat

/-- The first of the characters, if it is one of the given ones, and the rest. -/
private def letter? (which : List Char) : List Char → Option (List Char)
  | c :: cs => if which.contains c then some cs else none
  | [] => none

/-- Digits with single underscores between them: how many, and the rest. -/
def digitRun? (isDigit : Char → Bool) : List Char → Option (Nat × List Char)
  | [] => none
  | c :: cs =>
    if !isDigit c then none
    else match cs with
      | '_' :: d :: rest =>
        if isDigit d then (digitRun? isDigit (d :: rest)).map fun (n, r) => (n + 1, r) else none
      | ['_'] => none
      | d :: rest =>
        if isDigit d then (digitRun? isDigit (d :: rest)).map fun (n, r) => (n + 1, r)
        else some (1, d :: rest)
      | [] => some (1, [])

/-- The words that may follow a numeral at once. -/
def followers : List (List Char) :=
  ["and", "else", "for", "if", "in", "is", "or", "not"].map String.toList

/-- Nothing that a name may have follows a numeral, except for the start of some words. -/
def endsNumeral (cs : List Char) : Bool :=
  followers.any (fun w => w.isPrefixOf cs) || match cs with
    | c :: _ => !isWordChar c
    | [] => true

private def finish? (imaginary : Bool) (cs : List Char) : Option (Bool × List Char) :=
  if endsNumeral cs then some (imaginary, cs) else none

/-- The rest of a numeral after its digits: perhaps the mark of imaginary numbers. -/
def suffix? (cs : List Char) : Option (Bool × List Char) :=
  match letter? ['j', 'J'] cs with
  | some rest => finish? true rest
  | none => finish? false cs

/-- The rest of a numeral from the exponent on. A letter that starts no exponent may start a word. -/
def exponent? (cs : List Char) : Option (Bool × List Char) :=
  match letter? ['e', 'E'] cs with
  | none => suffix? cs
  | some rest => match letter? ['+', '-'] rest with
    | some digits => (digitRun? isDigit digits).bind fun (_, r) => suffix? r
    | none => match rest with
      | c :: _ =>
        if isDigit c then (digitRun? isDigit rest).bind fun (_, r) => suffix? r
        else finish? false cs
      | [] => finish? false cs

/-- The rest of a numeral after its point. -/
def fraction? (cs : List Char) : Option (Bool × List Char) :=
  match cs with
  | c :: _ =>
    if isDigit c then (digitRun? isDigit cs).bind fun (_, r) => exponent? r else exponent? cs
  | [] => exponent? cs

/-- A numeral in a base of its own, after the letter that tells the base. -/
def based? (isDigit : Char → Bool) (cs : List Char) : Option (Bool × List Char) := do
  let digits := match cs with
    | '_' :: rest => rest
    | _ => cs
  let (_, rest) ← digitRun? isDigit digits
  finish? false rest

/-- The rest of a decimal numeral after its first digits. -/
private def decimal? (isInteger : Bool) (cs : List Char) : Option (Bool × List Char) :=
  match cs with
  | '.' :: rest => fraction? rest
  | _ =>
    if isInteger || (letter? ['e', 'E', 'j', 'J'] cs).isSome then exponent? cs else none

private def isOctal (c : Char) : Bool := '0' ≤ c && c ≤ '7'

private def isBinary (c : Char) : Bool := c == '0' || c == '1'

/-- A numeral at the start of some characters, of which the first is a digit: whether it is imaginary,
and the rest. Only zero may start with a zero, and integers are limited in length. -/
def numeral? (cs : List Char) : Option (Bool × List Char) :=
  match cs with
  | '0' :: rest =>
    match letter? ['x', 'X'] rest with
    | some digits => based? isHexDigit digits
    | none => match letter? ['o', 'O'] rest with
      | some digits => based? isOctal digits
      | none => match letter? ['b', 'B'] rest with
        | some digits => based? isBinary digits
        | none => do
          let (_, after) ← digitRun? isDigit cs
          let digits := (cs.take (cs.length - after.length)).filter (· != '_')
          decimal? (digits.all (· == '0')) after
  | _ => do
    let (n, after) ← digitRun? isDigit cs
    let (imaginary, rest) ← decimal? true after
    if after.length == rest.length && Decimal.maxIntegerDigits < n then none
    else some (imaginary, rest)

/-! The values of string literals of Python source. -/

/-- What the letters before the quotes of a string literal ask for. -/
structure LiteralMode where
  raw : Bool := false
  bytes : Bool := false
  formatted : Bool := false
  /-- The mark of text, which goes with no other letter. -/
  plain : Bool := false

namespace LiteralMode

/-- The mode with one more letter, if the letter can follow the ones before it. -/
def add? (m : LiteralMode) (c : Char) : Option LiteralMode :=
  match c.toLower with
  | 'b' => if m.bytes || m.plain || m.formatted then none else some { m with bytes := true }
  | 'u' => if m.bytes || m.plain || m.formatted || m.raw then none else some { m with plain := true }
  | 'r' => if m.raw || m.plain then none else some { m with raw := true }
  | 'f' => if m.formatted || m.bytes || m.plain then none else some { m with formatted := true }
  | _ => none

end LiteralMode

/-- The character with a code point; code points that are no characters count as unknown. -/
private def charAt? (n : Nat) : Option Char :=
  if n.isValidChar then some (Char.ofNat n)
  else if n < 0x110000 then some '\uFFFD'
  else none

/-- The value of some hexadecimal digits at the start of characters, and the rest. -/
private def hexDigits? (value : Nat) : Nat → List Char → Option (Nat × List Char)
  | 0, cs => some (value, cs)
  | n + 1, c :: cs => do hexDigits? (16 * value + (← Json.hexValue? c)) n cs
  | _ + 1, [] => none

private def octalDigits (value : Nat) : Nat → List Char → Nat × List Char
  | n + 1, c :: cs =>
    if '0' ≤ c && c ≤ '7' then octalDigits (8 * value + (c.toNat - '0'.toNat)) n cs
    else (value, c :: cs)
  | _, cs => (value, cs)

/-- What a letter stands for after a backslash. -/
def escapeLetter? : Char → Option Char
  | '\\' => some '\\'
  | '\'' => some '\''
  | '"' => some '"'
  | 'a' => some '\x07'
  | 'b' => some '\x08'
  | 'f' => some '\x0c'
  | 'n' => some '\n'
  | 'r' => some '\r'
  | 't' => some '\t'
  | 'v' => some '\x0b'
  | _ => none

/-- The characters of a name of a character in braces, and the rest. -/
private def charName? : List Char → Option (List Char)
  | '{' :: cs =>
    match cs.span (· != '}') with
    | (_ :: _, '}' :: rest) => some rest
    | _ => none
  | _ => none

/-- What an escape after its backslash stands for, and the rest. An unknown escape stands for itself,
and so does a backslash at the end. -/
def escape? : List Char → Option (List Char × List Char)
  | [] => some (['\\'], [])
  | '\n' :: cs => some ([], cs)
  | 'x' :: cs => (hexDigits? 0 2 cs).bind fun (n, r) => (charAt? n).map (([·], r))
  | 'u' :: cs => (hexDigits? 0 4 cs).bind fun (n, r) => (charAt? n).map (([·], r))
  | 'U' :: cs => (hexDigits? 0 8 cs).bind fun (n, r) => (charAt? n).map (([·], r))
  | 'N' :: cs => (charName? cs).map fun r => (['\uFFFD'], r)
  | c :: cs =>
    if '0' ≤ c && c ≤ '7' then
      let (n, r) := octalDigits 0 3 (c :: cs)
      (charAt? n).map (([·], r))
    else match escapeLetter? c with
      | some d => some ([d], cs)
      | none => some (['\\', c], cs)

private def unescapeWithin : Nat → List Char → Option (List Char)
  | 0, _ => some []
  | _ + 1, [] => some []
  | n + 1, '\\' :: cs => do
    let (value, rest) ← escape? cs
    return value ++ (← unescapeWithin n rest)
  | n + 1, c :: cs => (unescapeWithin n cs).map (c :: ·)

/-- The value of the body of a literal; in raw literals it is the body itself. -/
def bodyValue? (raw : Bool) (body : List Char) : Option (List Char) :=
  if raw then some body else unescapeWithin body.length body

/-- The body of a literal of bytes is valid. Its escapes are those of ASCII. -/
def isBytesBody (raw : Bool) (body : List Char) : Bool :=
  body.all (·.toNat < 128) && (raw || escapesFit body)
where
  escapesFit : List Char → Bool
    | '\\' :: 'x' :: cs => (hexDigits? 0 2 cs).isSome && escapesFit cs
    | '\\' :: _ :: cs => escapesFit cs
    | _ :: cs => escapesFit cs
    | [] => true

/-- The brackets that are open, and the quotes of the string that is open, in an expression of a
formatted literal. -/
structure HoleState where
  brackets : List Char := []
  quotes : List Char := []

/-- The most brackets that can be open at a time. -/
def maxBrackets : Nat := 200

/-- The bracket that a closing one closes. -/
def opening? : Char → Option Char
  | ')' => some '('
  | ']' => some '['
  | '}' => some '{'
  | _ => none

/-- The source of the expression at the start of some characters, and the rest from the character on
that ends it. Neither a backslash nor a comment sign may stand in it. -/
def holeSource? (s : HoleState) : List Char → Option (List Char × List Char)
  | [] => none
  | c :: cs =>
    let go (s : HoleState) : Option (List Char × List Char) :=
      (holeSource? s cs).map fun (e, r) => (c :: e, r)
    if c == '\\' then none
    else match s.quotes with
      | q :: _ =>
        if c != q then go s
        else if s.quotes.length == 1 then go { s with quotes := [] }
        else match cs with
          | d :: e :: more =>
            if d == q && e == q then
              (holeSource? { s with quotes := [] } more).map fun (h, r) => (c :: d :: e :: h, r)
            else go s
          | _ => go s
      | [] =>
        if c == '\'' || c == '"' then
          match cs with
          | d :: e :: more =>
            if d == c && e == c then
              (holeSource? { s with quotes := [c, c, c] } more).map fun (h, r) =>
                (c :: d :: e :: h, r)
            else go { s with quotes := [c] }
          | _ => go { s with quotes := [c] }
        else if c == '(' || c == '[' || c == '{' then
          if maxBrackets ≤ s.brackets.length then none
          else go { s with brackets := c :: s.brackets }
        else if c == '#' then none
        else if s.brackets.isEmpty && ['!', ':', '}', '=', '<', '>'].contains c then
          match cs with
          | '=' :: more =>
            if ['!', '=', '<', '>'].contains c then
              (holeSource? s more).map fun (h, r) => (c :: '=' :: h, r)
            else some ([], c :: cs)
          | _ => if c == '<' || c == '>' then go s else some ([], c :: cs)
        else match opening? c, s.brackets with
          | none, _ => go s
          | some o, b :: bs => if o == b then go { s with brackets := bs } else none
          | some _, [] => none

private def isGapChar (c : Char) : Bool := c == ' ' || c == '\t' || c == '\n' || c == '\x0c'

private def isAsciiBlank (c : Char) : Bool := isGapChar c || c == '\r' || c == '\x0b'

/-- What follows the sign that asks for the source of an expression, too. -/
private def afterEquals? : List Char → Option (List Char)
  | '=' :: cs => match cs.dropWhile isAsciiBlank with
    | [] => none
    | rest => some rest
  | cs => some cs

/-- What follows the letter of a conversion. -/
private def afterConversion? : List Char → Option (List Char)
  | '!' :: c :: cs =>
    if (c == 's' || c == 'r' || c == 'a') && !cs.isEmpty then some cs else none
  | ['!'] => none
  | cs => some cs

/-- The most levels of expressions in a formatted literal. -/
def maxHoleLevel : Nat := 2

/-- The sources of the expressions of a formatted literal from some point on, and the rest. At level 0
the literal ends with its characters, at deeper levels, which are those of formats, at a brace. The
text since the last expression is given in reverse. -/
def holesWithin (raw : Bool) : (steps : Nat) → (level : Nat) → (reversed : List Char) →
    List Char → Option (List (List Char) × List Char)
  | 0, _, _, _ => none
  | steps + 1, level, reversed, cs =>
    let fits := (bodyValue? raw reversed.reverse).isSome
    let brace (reversed : List Char) (c : Char) (rest : List Char) :
        Option (List (List Char) × List Char) :=
      if level == 0 && rest.head? == some c then
        if (bodyValue? raw (c :: reversed).reverse).isSome then
          holesWithin raw steps level [] rest.tail
        else none
      else if (bodyValue? raw reversed.reverse).isNone then none
      else if c == '}' then if level == 0 then none else some ([], c :: rest)
      else if maxHoleLevel ≤ level then none
      else do
        let (source, rest) ← holeSource? {} rest
        if source.all isGapChar then none
        else
          let rest ← (afterEquals? rest).bind afterConversion?
          let (inner, rest) ← match rest with
            | [':'] => none
            | ':' :: spec => holesWithin raw steps (level + 1) [] spec
            | _ => some ([], rest)
          match rest with
          | '}' :: rest => do
            let (more, rest) ← holesWithin raw steps level [] rest
            return (source :: inner ++ more, rest)
          | _ => none
    match cs with
    | [] => if fits && level == 0 then some ([], []) else none
    | '\\' :: c :: rest =>
      if raw then holesWithin raw steps level ('\\' :: reversed) (c :: rest)
      else if c == 'N' then
        match charName? rest with
        | some after =>
          let name := rest.take (rest.length - after.length)
          holesWithin raw steps level (name.reverse ++ 'N' :: '\\' :: reversed) after
        | none => none
      else if c == '{' || c == '}' then brace ('\\' :: reversed) c rest
      else holesWithin raw steps level (c :: '\\' :: reversed) rest
    | c :: rest =>
      if c == '{' || c == '}' then brace reversed c rest
      else holesWithin raw steps level (c :: reversed) rest

/-- The sources of the expressions of a formatted literal. -/
def holes? (raw : Bool) (body : List Char) : Option (List (List Char)) :=
  (holesWithin raw (body.length + 1) 0 [] body).map (·.1)

/-- The token that a string literal is. -/
def literal? (m : LiteralMode) (body : List Char) : Option Lexeme :=
  if m.bytes then if isBytesBody m.raw body then some .bytes else none
  else if m.formatted then (holes? m.raw body).map .formatted
  else (bodyValue? m.raw body).map .text

end CodeAgent.Source
