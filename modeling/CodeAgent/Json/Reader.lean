import CodeAgent.Json.Value
import CodeAgent.Decimal.Binary
import CodeAgent.Decimal.Digits

/-! Reading JSON text. -/
namespace CodeAgent.Json
open CodeAgent.Decimal

/-- Why a text is not read as JSON. -/
inductive ReadError where
  | malformed
  | integerTooLong
  | tooDeep
  deriving DecidableEq, Repr

/-- Arrays and objects nested beyond this depth are refused. -/
def maxDepth : Nat := 980

/-- White space between the tokens of JSON. -/
def isGap (c : Char) : Bool :=
  c == ' ' || c == '\t' || c == '\n' || c == '\r'

/-- The text after its leading white space. -/
def skipGap (cs : List Char) : List Char :=
  cs.dropWhile isGap

/-- The value of a hexadecimal digit. -/
def hexValue? (c : Char) : Option Nat :=
  let n := c.toNat
  if 48 ≤ n ∧ n ≤ 57 then some (n - 48)
  else if 97 ≤ n ∧ n ≤ 102 then some (n - 87)
  else if 65 ≤ n ∧ n ≤ 70 then some (n - 55)
  else none

/-- Four hexadecimal digits and the text after them. -/
def hexQuad? : List Char → Option (Nat × List Char)
  | a :: b :: c :: d :: cs => do
    let a ← hexValue? a
    let b ← hexValue? b
    let c ← hexValue? c
    let d ← hexValue? d
    some (((a * 16 + b) * 16 + c) * 16 + d, cs)
  | _ => none

/-- The character that a one-letter escape stands for. -/
def escapedChar? : Char → Option Char
  | '"' => some '"'
  | '\\' => some '\\'
  | '/' => some '/'
  | 'b' => some '\x08'
  | 'f' => some '\x0c'
  | 'n' => some '\n'
  | 'r' => some '\r'
  | 't' => some '\t'
  | _ => none

/-- The character written by a numeric escape and the text after it; two halves of a pair make one
character, and a half alone makes a replacement character. -/
def unicodeEscape? (cs : List Char) : Option (Char × List Char) := do
  let (unit, rest) ← hexQuad? cs
  if 0xd800 ≤ unit ∧ unit ≤ 0xdbff then
    match rest with
    | '\\' :: 'u' :: more =>
      match hexQuad? more with
      | some (low, after) =>
        if 0xdc00 ≤ low ∧ low ≤ 0xdfff then
          some (Char.ofNat (0x10000 + (unit - 0xd800) * 0x400 + (low - 0xdc00)), after)
        else some ('\ufffd', rest)
      | none => some ('\ufffd', rest)
    | _ => some ('\ufffd', rest)
  else if 0xdc00 ≤ unit ∧ unit ≤ 0xdfff then some ('\ufffd', rest)
  else some (Char.ofNat unit, rest)

/-- The characters of a string after its opening quote, and the text after its closing quote. The
first argument bounds the number of characters. -/
def readChars : Nat → List Char → Option (List Char × List Char)
  | 0, _ => none
  | _ + 1, [] => none
  | _ + 1, '"' :: cs => some ([], cs)
  | n + 1, '\\' :: 'u' :: cs => do
    let (c, rest) ← unicodeEscape? cs
    let (text, after) ← readChars n rest
    some (c :: text, after)
  | n + 1, '\\' :: c :: cs => do
    let c ← escapedChar? c
    let (text, after) ← readChars n cs
    some (c :: text, after)
  | n + 1, c :: cs =>
    if c.toNat < 32 || c == '\\' then none
    else (readChars n cs).map fun r => (c :: r.1, r.2)

/-- A string after its opening quote. -/
def readString (cs : List Char) : Except ReadError (String × List Char) :=
  match readChars (cs.length + 1) cs with
  | some (text, rest) => .ok (String.ofList text, rest)
  | none => .error .malformed

/-- The digits at the start of a text, and the text after them. -/
def spanDigits (cs : List Char) : List Char × List Char :=
  cs.span fun c => '0' ≤ c && c ≤ '9'

/-- The whole part of a number without its sign; a zero stands alone. -/
def wholePart? (cs : List Char) : Option (List Char × List Char) :=
  match cs with
  | '0' :: rest => some (['0'], rest)
  | _ =>
    let (digits, rest) := spanDigits cs
    if digits.isEmpty then none else some (digits, rest)

/-- The digits of a fraction. -/
def fractionPart? (cs : List Char) : Option (List Char × List Char) :=
  match cs with
  | '.' :: rest =>
    let (digits, after) := spanDigits rest
    if digits.isEmpty then none else some (digits, after)
  | _ => none

/-- An integer in digits, and the text after them. -/
def signedDigits? (negative : Bool) (cs : List Char) : Option (Int × List Char) :=
  let (digits, after) := spanDigits cs
  if digits.isEmpty then none
  else
    let n : Int := digitsValue digits
    some (if negative then -n else n, after)

/-- The value of an exponent. -/
def exponentPart? (cs : List Char) : Option (Int × List Char) :=
  match cs with
  | e :: rest =>
    if e == 'e' || e == 'E' then
      match rest with
      | '-' :: more => signedDigits? true more
      | '+' :: more => signedDigits? false more
      | _ => signedDigits? false rest
    else none
  | [] => none

/-- The digits of a fraction, if there is one, the text after it, and whether there is one. -/
def fractionAt (cs : List Char) : List Char × List Char × Bool :=
  match fractionPart? cs with
  | some (digits, after) => (digits, after, true)
  | none => ([], cs, false)

/-- The value of an exponent, if there is one, the text after it, and whether there is one. -/
def exponentAt (cs : List Char) : Int × List Char × Bool :=
  match exponentPart? cs with
  | some (n, after) => (n, after, true)
  | none => (0, cs, false)

/-- A number of some digits: an integer unless it has a fraction or an exponent. -/
def numberOf (negative isFloat : Bool) (whole fraction : List Char) (exponent : Int) :
    Except ReadError Json :=
  if isFloat then
    .ok (.float (toFloat negative (digitsValue (whole ++ fraction)) (exponent - fraction.length)))
  else if maxIntegerDigits < whole.length then .error .integerTooLong
  else
    let n : Int := digitsValue whole
    .ok (.int (if negative then -n else n))

/-- A number after its sign. -/
def readUnsigned (negative : Bool) (cs : List Char) : Except ReadError (Json × List Char) :=
  match wholePart? cs with
  | none => .error .malformed
  | some (whole, rest) =>
    let (fraction, rest, hasFraction) := fractionAt rest
    let (exponent, rest, hasExponent) := exponentAt rest
    (numberOf negative (hasFraction || hasExponent) whole fraction exponent).map (·, rest)

/-- A number. -/
def readNumber (cs : List Char) : Except ReadError (Json × List Char) :=
  match cs with
  | '-' :: rest => readUnsigned true rest
  | _ => readUnsigned false cs

/-- A value that is no array and no object. -/
def readScalar (cs : List Char) : Except ReadError (Json × List Char) :=
  match cs with
  | '"' :: rest => do
    let (s, after) ← readString rest
    .ok (.str s, after)
  | 'n' :: 'u' :: 'l' :: 'l' :: rest => .ok (.null, rest)
  | 't' :: 'r' :: 'u' :: 'e' :: rest => .ok (.bool true, rest)
  | 'f' :: 'a' :: 'l' :: 's' :: 'e' :: rest => .ok (.bool false, rest)
  | 'N' :: 'a' :: 'N' :: rest => .ok (.float (0.0 / 0.0), rest)
  | 'I' :: 'n' :: 'f' :: 'i' :: 'n' :: 'i' :: 't' :: 'y' :: rest => .ok (.float (1.0 / 0.0), rest)
  | '-' :: 'I' :: 'n' :: 'f' :: 'i' :: 'n' :: 'i' :: 't' :: 'y' :: rest =>
    .ok (.float (-1.0 / 0.0), rest)
  | _ => readNumber cs

/-- How values below the current one are read. -/
abbrev ValueReader := List Char → Except ReadError (Json × List Char)

/-- The elements of an array from the first one on, through its closing bracket. -/
def readItems (value : ValueReader) : Nat → List Char → Except ReadError (List Json × List Char)
  | 0, _ => .error .malformed
  | n + 1, cs => do
    let (item, rest) ← value cs
    match skipGap rest with
    | ',' :: more =>
      let (items, after) ← readItems value n (skipGap more)
      .ok (item :: items, after)
    | ']' :: after => .ok ([item], after)
    | _ => .error .malformed

/-- The members of an object from the first key on, through its closing brace. -/
def readMembers (value : ValueReader) :
    Nat → List Char → Except ReadError (List (String × Json) × List Char)
  | 0, _ => .error .malformed
  | n + 1, cs => do
    match cs with
    | '"' :: keyText =>
      let (key, rest) ← readString keyText
      match skipGap rest with
      | ':' :: more =>
        let (item, rest) ← value (skipGap more)
        match skipGap rest with
        | ',' :: more =>
          let (members, after) ← readMembers value n (skipGap more)
          .ok ((key, item) :: members, after)
        | '}' :: after => .ok ([(key, item)], after)
        | _ => .error .malformed
      | _ => .error .malformed
    | _ => .error .malformed

/-- A value at the start of a text and the text after it; the first argument is the number of
levels of arrays and objects still allowed. -/
def readValue : Nat → List Char → Except ReadError (Json × List Char)
  | 0, '[' :: _ => .error .tooDeep
  | 0, '{' :: _ => .error .tooDeep
  | depth + 1, '[' :: cs =>
    match skipGap cs with
    | ']' :: rest => .ok (.arr [], rest)
    | rest => do
      let (items, after) ← readItems (readValue depth) (rest.length + 1) rest
      .ok (.arr items, after)
  | depth + 1, '{' :: cs =>
    match skipGap cs with
    | '}' :: rest => .ok (.obj [], rest)
    | rest => do
      let (members, after) ← readMembers (readValue depth) (rest.length + 1) rest
      .ok (.obj (OrderedMap.ofPairs members), after)
  | _, cs => readScalar cs

/-- A text that is one value with white space around it. -/
def readChars? (cs : List Char) : Except ReadError Json := do
  let (value, rest) ← readValue maxDepth (skipGap cs)
  if (skipGap rest).isEmpty then .ok value else .error .malformed

/-- A text that is one value with white space around it. -/
def read (s : String) : Except ReadError Json :=
  readChars? s.toList

end CodeAgent.Json
