import CodeAgent.Coercion
import CodeAgent.Yaml.Node

/-! The types of YAML nodes, and the values of scalars. -/
namespace CodeAgent.Yaml
open CodeAgent.Text CodeAgent.Decimal

/-- The type of a node. -/
inductive Kind where
  | null
  | truth
  | integer
  | number
  | moment
  | text
  | merge
  | default
  | list
  | map
  | set
  | pairs
  | unknown
  deriving DecidableEq, Repr

namespace Kind

private def isDigit (c : Char) : Bool := '0' ≤ c && c ≤ '9'

private def isSpaced (test : Char → Bool) (c : Char) : Bool := test c || c == '_'

private def unsigned : List Char → List Char
  | '-' :: cs | '+' :: cs => cs
  | cs => cs

private def parts (cs : List Char) : List (List Char) := cs.splitOn ':'

/-- The digits of minutes or seconds. -/
def isSixtieth : List Char → Bool
  | [c] => isDigit c
  | [t, c] => '0' ≤ t && t ≤ '5' && isDigit c
  | _ => false

/-- An integer numeral: binary, octal, decimal, hexadecimal, or in sixties. -/
def isInteger (cs : List Char) : Bool :=
  match unsigned cs with
  | '0' :: 'b' :: ds => !ds.isEmpty && ds.all (isSpaced fun c => c == '0' || c == '1')
  | '0' :: 'x' :: ds =>
    !ds.isEmpty && ds.all (isSpaced fun c => (Cursor.hexValue? c).isSome)
  | '0' :: ds => ds.all (isSpaced fun c => '0' ≤ c && c ≤ '7')
  | d :: ds => isDigit d && match parts ds with
    | whole :: sixtieths => whole.all (isSpaced isDigit) && sixtieths.all isSixtieth
    | [] => false
  | [] => false

private def isExponent : List Char → Bool
  | [] => true
  | e :: s :: ds =>
    (e == 'e' || e == 'E') && (s == '+' || s == '-') && !ds.isEmpty && ds.all isDigit
  | _ => false

private def isFraction (cs : List Char) : Bool :=
  isExponent (cs.dropWhile (isSpaced isDigit))

/-- A numeral with a point. -/
def isNumber (cs : List Char) : Bool :=
  let body := unsigned cs
  match body with
  | '.' :: rest =>
    let word := String.ofList rest
    ["inf", "Inf", "INF"].contains word ||
      (body.length == cs.length &&
        (["nan", "NaN", "NAN"].contains word || (rest.head?.any isDigit && isFraction rest)))
  | d :: _ =>
    let (whole, rest) := body.span (· != '.')
    isDigit d && match rest with
      | '.' :: fraction => match parts whole with
        | [digits] => digits.all (isSpaced isDigit) && isFraction fraction
        | digits :: sixtieths => digits.all (isSpaced isDigit) && sixtieths.all isSixtieth &&
          fraction.all (isSpaced isDigit)
        | [] => false
      | _ => false
  | [] => false

/-- Digits, at least and at most so many, and the rest. -/
def digits? (least most : Nat) (cs : List Char) : Option (Int × List Char) :=
  let run := (cs.take most).takeWhile isDigit
  if run.length < least then none else some (digitsValue run, cs.drop run.length)

private def sign? (c : Char) : List Char → Option (List Char)
  | d :: cs => if d == c then some cs else none
  | [] => none

private def zone? (cs : List Char) : Option (List Int) :=
  match cs.dropWhile fun c => c == ' ' || c == '\t' with
  | [] => if cs.isEmpty then some [] else none
  | ['Z'] => some [0]
  | s :: rest =>
    if s == '+' || s == '-' then do
      let (hours, rest) ← digits? 1 2 rest
      let minutes ← match rest with
        | [] => some 0
        | _ => do
          let (minutes, []) ← digits? 2 2 (← sign? ':' rest) | none
          some minutes
      let offset := hours * 60 + minutes
      some [if s == '-' then -offset else offset]
    else none

private def clock? (cs : List Char) : Option (List Int) := do
  let isBlank (c : Char) : Bool := c == ' ' || c == '\t'
  let cs ← match cs with
    | 'T' :: more | 't' :: more => some more
    | c :: more => if isBlank c then some (more.dropWhile isBlank) else none
    | [] => none
  let (hour, cs) ← digits? 1 2 cs
  let (minute, cs) ← digits? 2 2 (← sign? ':' cs)
  let (second, cs) ← digits? 2 2 (← sign? ':' cs)
  let cs := match cs with
    | '.' :: more => more.dropWhile isDigit
    | _ => cs
  return [hour, minute, second] ++ (← zone? cs)

/-- The parts of a date or of a point in time: year, month and day, hours, minutes and seconds, and
the minutes by which its clock is ahead. -/
def moment? (cs : List Char) : Option (List Int) := do
  let (year, rest) ← digits? 4 4 cs
  let (month, rest) ← digits? 1 2 (← sign? '-' rest)
  let (day, rest) ← digits? 1 2 (← sign? '-' rest)
  match rest with
  | [] => if cs.length == 10 then some [year, month, day] else none
  | _ => (clock? rest).map ([year, month, day] ++ ·)

private def truths : List String := ["yes", "true", "on"]

private def untruths : List String := ["no", "false", "off"]

private def isTruth (s : String) : Bool :=
  (truths ++ untruths).any fun w => s == w || s == w.capitalize || s == w.map Char.toUpper

/-- The type of a plain scalar follows from its text. -/
def ofPlain (s : String) : Kind :=
  let cs := s.toList
  if isTruth s then truth
  else if isNumber cs then number
  else if isInteger cs then integer
  else if s == "<<" then merge
  else if ["", "~", "null", "Null", "NULL"].contains s then null
  else if (moment? cs).isSome then moment
  else if s == "=" then default
  else text

/-- The start of the names of standard types. -/
def standard : String := "tag:yaml.org,2002:"

/-- The type that a tag names. -/
def ofName (name : String) : Kind :=
  let known := [("null", null), ("bool", truth), ("int", integer), ("float", number),
    ("timestamp", moment), ("str", text), ("merge", merge), ("value", default), ("seq", list),
    ("map", map), ("set", set), ("omap", pairs), ("pairs", pairs)]
  match known.find? fun k => standard ++ k.1 == name with
  | some (_, kind) => kind
  | none => unknown

/-- The type of a scalar. -/
def ofScalar (tag : Tag) (s : String) : Kind :=
  match tag with
  | .open => ofPlain s
  | .quoted => text
  | .named name => ofName name

/-- The type of a list or a map, which is the usual one without a tag. -/
def ofCollection (tag : Tag) (usual : Kind) : Kind :=
  match tag with
  | .named name => ofName name
  | _ => usual

end Kind

private def signed (s : String) : Except Flaw (Bool × List Char) :=
  match s.toList.filter (· != '_') with
  | [] => .error .emptyNumeral
  | '-' :: cs => .ok (true, cs)
  | '+' :: cs => .ok (false, cs)
  | cs => .ok (false, cs)

private def numeralIn (base : Nat) (cs : List Char) : Except Flaw Int :=
  let digit? (c : Char) : Option Nat := (Cursor.hexValue? c).bind fun n =>
    if n < base then some n else none
  match cs.foldlM (fun n c => (digit? c).map (n * base + ·)) 0 with
  | some n => if cs.isEmpty then .error .badNumeral else .ok n
  | none => .error .badNumeral

private def decimal (cs : List Char) : Except Flaw Int :=
  if cs.length ≤ maxIntegerDigits then numeralIn 10 cs else .error .badNumeral

/-- The integer that a numeral writes. -/
def integerValue (s : String) : Except Flaw Int := do
  let (negative, cs) ← signed s
  let n : Int ← match cs with
    | [] => throw .emptyNumeral
    | ['0'] => pure 0
    | '0' :: 'b' :: ds => numeralIn 2 ds
    | '0' :: 'x' :: ds => numeralIn 16 ds
    | '0' :: ds => numeralIn 8 ds
    | _ => (cs.splitOn ':').foldlM (fun n part => (decimal part).map (n * 60 + ·)) 0
  return if negative then -n else n

private def plainNumber (cs : List Char) : Except Flaw Float :=
  match Coercion.plainNumber? (String.ofList cs) with
  | some x => .ok x
  | none => .error .badNumeral

/-- The number that a numeral writes. -/
def numberValue (s : String) : Except Flaw Float := do
  let (negative, cs) ← signed (lower s)
  let x ← match String.ofList cs with
    | ".inf" => pure (1.0 / 0.0)
    | ".nan" => pure (0.0 / 0.0)
    | _ => match (← (cs.splitOn ':').mapM plainNumber) with
      | [x] => pure x
      | xs => pure (xs.foldr (fun x (sum, unit) => (sum + x * unit, unit * 60.0)) (0.0, 1.0)).1
  return if negative then -x else x

/-- The truth value of a word. -/
def truthValue (s : String) : Except Flaw Bool :=
  let word := lower s
  if Kind.truths.contains word then .ok true
  else if Kind.untruths.contains word then .ok false
  else .error .badTruth

private def monthLength (year month : Int) : Int :=
  if month == 2 then
    if year % 4 == 0 && (year % 100 != 0 || year % 400 == 0) then 29 else 28
  else if [4, 6, 9, 11].contains month then 30 else 31

/-- The parts of the point in time that a text names. -/
def momentValue (s : String) : Except Flaw (List Int) :=
  match Kind.moment? s.toList with
  | none => .error .badMoment
  | some parts =>
    let inRange : Bool := match parts with
      | year :: month :: day :: clock =>
        1 ≤ year && 1 ≤ month && month ≤ 12 && 1 ≤ day && day ≤ monthLength year month &&
          (clock.zip [24, 60, 60]).all (fun (n, most) => n < most) &&
          (clock.drop 3).all (fun n => n.natAbs < 24 * 60)
      | _ => false
    if inRange then .ok parts else .error .badNumeral

end CodeAgent.Yaml
