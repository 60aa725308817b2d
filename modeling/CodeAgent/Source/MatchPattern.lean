import CodeAgent.Source.Expression

/-! The patterns of case blocks in Python source. -/
namespace CodeAgent.Source.MatchPattern
open CodeAgent.Source.Parser

/-- The pattern that fits anything. -/
def wildcard : String := "_"

/-- None of the signs follows that would make more than a name of a name. -/
def endsName : Parser Unit := do
  for s in [".", "(", "="] do
    require (!(← followsSign s))

/-- A name that gets a value. -/
def capture : Parser Unit := do
  let s ← name
  require (s != wildcard)
  endsName

/-- A number, perhaps with a sign in front: whether it is imaginary. -/
def signedNumber : Parser Bool := do
  let _ ← optionally (sign "-")
  token fun
    | .number i => some i
    | _ => none

/-- A number: a real one can have an imaginary one after it. -/
def number : Parser Unit := do
  let i ← signedNumber
  if ← optionally (anySign ["+", "-"]) then
    let j ← token fun
      | .number j => some j
      | _ => none
    require (!i && j)

/-- A value written out. -/
def literal (strings : Parser Unit) : Parser Unit := do
  match ← next? with
  | some (.op "-") | some (.number _) => number
  | some (.keyword k) =>
    require (Expression.constants.contains k)
    keyword k
  | _ => strings

/-- Names with points between them: how many. -/
def dotted : Parser Nat := do
  let _ ← name
  return (← many (sign "." *> name)).length + 1

section Inside
variable (inner : Parser Unit) (strings : Parser Unit)

/-- A pattern that takes the rest of a sequence, or any other one: whether it is such a one. -/
def starPattern : Parser Bool := do
  if ← optionally (sign "*") then
    let s ← name
    if s != wildcard then endsName
    return true
  inner
  return false

/-- Patterns with commas between them and perhaps one after them, and whether there was a comma; a
sequence of one pattern needs a comma if it is `open`. -/
def sequence : Parser (List Bool × Bool) := do
  let (items, comma) ← commaList (starPattern inner)
  return (items, comma || 1 < items.length)

/-- A pattern in round brackets, after the opening one. -/
def roundBrackets : Parser Unit := do
  if ← optionally (sign ")") then return
  let (items, comma) ← sequence inner
  require (comma || items == [false])
  sign ")"

/-- Patterns in square brackets, after the opening one. -/
def squareBrackets : Parser Unit := do
  let _ ← optional? (sequence inner)
  sign "]"

/-- An entry of a pattern for maps: whether it takes the rest of the map. -/
def mapEntry : Parser Bool := do
  if ← optionally (sign "**") then
    capture
    return true
  match ← next? with
  | some (.name _) => require (2 ≤ (← dotted))
  | _ => literal strings
  sign ":"
  inner
  return false

/-- Entries of a pattern for maps in braces, after the opening one. Only the last one may take the
rest. -/
def braces : Parser Unit := do
  match ← optional? (commaList (mapEntry inner strings)) with
  | none => pure ()
  | some (entries, _) => require (!entries.dropLast.any id)
  sign "\x7d"

/-- A pattern for a part of an object: whether it is named. -/
def part : Parser Bool := do
  let isNamed ← optionally (Expression.nameBefore "=")
  inner
  return isNamed

/-- Patterns for the parts of an object in round brackets, after the opening one; no named one comes
before one that is not. -/
def parts : Parser Unit := do
  match ← optional? (commaList (part inner)) with
  | none => pure ()
  | some (items, _) => require ((items.dropWhile (!·)).all id)
  sign ")"

/-- A pattern that starts with a name. -/
def named : Parser Unit := do
  if ← optionally (word wildcard) then return
  let n ← dotted
  if ← optionally (sign "(") then parts inner
  else
    require (!(← followsSign "=") && !(n == 1 && (← followsSign ".")))

/-- A pattern without alternatives. -/
def closed : Parser Unit := do
  match ← next? with
  | some (.name _) => named inner
  | some (.op "(") => sign "(" *> roundBrackets inner
  | some (.op "[") => sign "[" *> squareBrackets inner
  | some (.op "\x7b") => sign "\x7b" *> braces inner strings
  | _ => literal strings

/-- A pattern: alternatives, perhaps with a name for what fits. -/
def whole : Parser Unit := do
  closed inner strings
  let _ ← many (sign "|" *> closed inner strings)
  let _ ← optionally (keyword "as" *> capture)

/-- The patterns of a case block. -/
def top : Parser Unit := do
  let (items, comma) ← sequence inner
  require (comma || items == [false])

end Inside

/-- Patterns in which patterns are nested so many times at most. -/
def reader (strings : Parser Unit) : (levels : Nat) → Parser Unit
  | 0 => failure
  | levels + 1 => fun c => whole (reader strings levels) strings c

end CodeAgent.Source.MatchPattern
