import CodeAgent.Json.Value
import CodeAgent.Decimal.Binary
import CodeAgent.Decimal.Digits
import CodeAgent.Text.Blank
import CodeAgent.Text.LetterCase

/-! Values accepted for typed fields: what counts as an integer, a number, a truth value or a text. -/
namespace CodeAgent.Coercion
open CodeAgent.Text CodeAgent.Decimal

/-- Why a value is not accepted. -/
inductive Refusal where
  | missing
  | textType
  | integerType
  | integerText
  | integerFraction
  | integerSize
  | notFinite
  | numberType
  | numberText
  | truthType
  | truthText
  | choice
  | outOfList
  | objectType
  | arrayType
  | tooSmall
  | tooShort
  | custom
  | tooNested
  deriving DecidableEq, Repr

/-- A refused value and the keys and positions that lead to it. -/
structure Issue where
  path : List Json
  refusal : Refusal

def isAsciiDigit (c : Char) : Bool := '0' ≤ c && c ≤ '9'

/-- Digits with single underscores between them, without the underscores. -/
def plainDigits? : List Char → Option (List Char)
  | [] => none
  | [d] => if isAsciiDigit d then some [d] else none
  | d :: '_' :: cs => if isAsciiDigit d then (plainDigits? cs).map (d :: ·) else none
  | d :: cs => if isAsciiDigit d then (plainDigits? cs).map (d :: ·) else none

/-- An integer numeral: a sign, digits, and perhaps a point followed by zeros. -/
def integerOfText (s : String) : Except Refusal Int :=
  let cs := trimBy isNumeralBlank s.toList
  let (negative, unsigned) := match cs with
    | '-' :: rest => (true, rest)
    | '+' :: rest => (false, rest)
    | _ => (false, cs)
  let whole := unsigned.takeWhile (· != '.')
  let zeros := match unsigned.dropWhile (· != '.') with
    | [] => true
    | _ :: fraction => !fraction.isEmpty && fraction.all (· == '0')
  match plainDigits? whole with
  | some digits =>
    if !zeros then .error .integerText
    else if maxIntegerDigits < digits.length then .error .integerSize
    else
      let n : Int := digitsValue digits
      .ok (if negative then -n else n)
  | none => .error .integerText

/-- The integer that a floating-point number equals, if its size is below `2 ^ 63`. -/
def integerOfFloat (x : Float) : Except Refusal Int :=
  if x.isNaN || x.isInf then .error .notFinite
  else
    let b := Binary.ofFloat x
    if b.numerator % binaryDenominator != 0 then .error .integerFraction
    else
      let n : Int := (b.numerator / binaryDenominator : Nat)
      if Int.ofNat (Nat.pow 2 63) ≤ n then .error .integerSize else .ok (if b.negative then -n else n)

/-- An integer. -/
def integer : Json → Except Refusal Int
  | .int n => .ok n
  | .bool b => .ok (if b then 1 else 0)
  | .float x => integerOfFloat x
  | .str s => integerOfText s
  | _ => .error .integerType

/-- A text; nothing else is turned into one. -/
def text : Json → Except Refusal String
  | .str s => .ok s
  | _ => .error .textType

def trueTexts : List String := ["1", "t", "true", "y", "yes", "on"]

def falseTexts : List String := ["0", "f", "false", "n", "no", "off"]

/-- A truth value. -/
def truth : Json → Except Refusal Bool
  | .bool b => .ok b
  | .int 0 => .ok false
  | .int 1 => .ok true
  | .int _ => .error .truthText
  | .float x => if x == 0.0 then .ok false else if x == 1.0 then .ok true else .error .truthType
  | .str s =>
    let word := s.map Char.toLower
    if trueTexts.contains word then .ok true
    else if falseTexts.contains word then .ok false
    else .error .truthText
  | _ => .error .truthType

private def wordNumber? (cs : List Char) : Option Float :=
  let word := String.ofList (cs.map Char.toLower)
  if word == "inf" || word == "infinity" then some (1.0 / 0.0)
  else if word == "nan" then some (0.0 / 0.0)
  else none

private def exponentValue? : List Char → Option Int
  | [] => some 0
  | e :: cs =>
    if e == 'e' || e == 'E' then
      let (negative, digits) := match cs with
        | '-' :: rest => (true, rest)
        | '+' :: rest => (false, rest)
        | _ => (false, cs)
      if !digits.isEmpty && digits.all isAsciiDigit then
        let n : Int := digitsValue digits
        some (if negative then -n else n)
      else none
    else none

/-- A number written out: a sign, digits with perhaps a point, and perhaps an exponent. -/
def numberOfText (s : String) : Except Refusal Float :=
  let cs := trimBy isNumeralBlank s.toList
  let (negative, unsigned) := match cs with
    | '-' :: rest => (true, rest)
    | '+' :: rest => (false, rest)
    | _ => (false, cs)
  let (whole, rest) := unsigned.span isAsciiDigit
  let (fraction, rest) := match rest with
    | '.' :: more => more.span isAsciiDigit
    | _ => ([], rest)
  match wordNumber? unsigned with
  | some x => .ok (if negative then -x else x)
  | none =>
    if whole.isEmpty && fraction.isEmpty then .error .numberText
    else match exponentValue? rest with
      | some e => .ok (toFloat negative (digitsValue (whole ++ fraction)) (e - fraction.length))
      | none => .error .numberText

private def asciiDigits (cs : List Char) : List Char :=
  cs.map fun c => match digitValue? c with
    | some d => digitChar d
    | none => c

private def dropUnderscores? : List Char → Option (List Char)
  | [] => some []
  | '_' :: _ => none
  | c :: '_' :: d :: cs =>
    if isAsciiDigit c && isAsciiDigit d then (dropUnderscores? (d :: cs)).map (c :: ·) else none
  | c :: cs => (dropUnderscores? cs).map (c :: ·)

/-- A number written out with digits of any script, single underscores between digits, and white
space around it. -/
def plainNumber? (s : String) : Option Float := do
  let cs ← dropUnderscores? (asciiDigits (trimChars s.toList))
  (numberOfText (String.ofList cs)).toOption

/-- A number. -/
def number : Json → Except Refusal Float
  | .float x => .ok x
  | .int n => .ok (toFloat (n < 0) n.natAbs 0)
  | .bool b => .ok (if b then 1.0 else 0.0)
  | .str s => numberOfText s
  | _ => .error .numberType

/-- A value that may also be null. -/
def optional {α : Type} (read : Json → Except Refusal α) : Json → Except Refusal (Option α)
  | .null => .ok none
  | v => (read v).map some

end CodeAgent.Coercion
