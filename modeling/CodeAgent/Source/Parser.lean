import CodeAgent.Source.Token

/-! Reading tokens in order, with steps back to where an alternative started. -/
namespace CodeAgent.Source

/-- A place among tokens: those that are left, the line where the last one that stands for text ended,
and how many tokens there were at first. -/
structure Cursor where
  rest : List Token
  line : Nat := 1
  size : Nat := rest.length

/-- A reader of tokens: what it read, and the place after it. -/
abbrev Parser (α : Type) := StateT Cursor Option α

namespace Parser
variable {α β : Type}

/-- Read one token of some kind. -/
def token (f : Lexeme → Option α) : Parser α := fun c =>
  match c.rest with
  | [] => none
  | t :: rest => (f t.lexeme).map fun a =>
      (a, { c with rest, line := if t.lexeme.isLayout then c.line else t.last })

/-- Look at the next token. -/
def next? : Parser (Option Lexeme) := fun c => some (c.rest.head?.map Token.lexeme, c)

/-- The line of the next token. -/
def nextLine : Parser Nat := fun c => some ((c.rest.head?.map Token.first).getD c.line, c)

/-- The line where the last token that stands for text ended. -/
def lastLine : Parser Nat := fun c => some (c.line, c)

/-- Read one given token. -/
def exactly (l : Lexeme) : Parser Unit := token fun m => if m = l then some () else none

/-- Read a sign. -/
def sign (s : String) : Parser Unit := exactly (.op s)

/-- Read a keyword. -/
def keyword (s : String) : Parser Unit := exactly (.keyword s)

/-- Read a name. -/
def name : Parser String := token fun
  | .name s => some s
  | _ => none

/-- Read a given word that is a name. -/
def word (s : String) : Parser Unit := exactly (.name s)

/-- Read one of some signs. -/
def anySign (ss : List String) : Parser Unit := token fun
  | .op s => if ss.contains s then some () else none
  | _ => none

/-- The next token is a given one. -/
def follows (l : Lexeme) : Parser Bool := return (← next?) == some l

/-- The next token is a given sign. -/
def followsSign (s : String) : Parser Bool := follows (.op s)

/-- The next token is a given keyword. -/
def followsKeyword (s : String) : Parser Bool := follows (.keyword s)

/-- Go on only if a condition holds. -/
def require (b : Bool) : Parser Unit := if b then pure () else failure

/-- Read something if it is there. -/
def optional? (p : Parser α) : Parser (Option α) := fun c =>
  match p c with
  | some (a, d) => some (some a, d)
  | none => some (none, c)

/-- Read something if it is there, and say whether it was. -/
def optionally (p : Parser α) : Parser Bool := return (← optional? p).isSome

private def manyFrom (p : Parser α) : Nat → List α → Cursor → List α × Cursor
  | 0, found, c => (found.reverse, c)
  | n + 1, found, c => match p c with
    | none => (found.reverse, c)
    | some (a, d) => manyFrom p n (a :: found) d

/-- Read something as often as it comes. -/
def many (p : Parser α) : Parser (List α) := fun c => some (manyFrom p c.size [] c)

/-- Read something at least once. -/
def many1 (p : Parser α) : Parser (List α) := do
  let a ← p
  return a :: (← many p)

/-- Read items with commas between them, at least one. -/
def sepBy1 (p : Parser α) : Parser (List α) := do
  let a ← p
  return a :: (← many (sign "," *> p))

/-- Read items with commas between them, and perhaps one after them: whether there was one. -/
def commaList (p : Parser α) : Parser (List α × Bool) := do
  let items ← sepBy1 p
  return (items, ← optionally (sign ","))

/-- Read something between brackets. -/
def between (opening closing : String) (p : Parser α) : Parser α := do
  sign opening
  let a ← p
  sign closing
  return a

/-- Read from tokens of its own: what is left of them does not count. -/
def accepts (p : Parser α) (tokens : List Token) : Bool := (p { rest := tokens }).isSome

end Parser
end CodeAgent.Source
