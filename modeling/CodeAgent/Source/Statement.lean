import CodeAgent.Source.MatchPattern

/-! The statements of Python source: the classes and functions that it defines, one inside another. -/
namespace CodeAgent.Source
open CodeAgent.Source.Parser CodeAgent.Source.Expression

/-- A class or a function: its name, the text that documents it, its first and last lines, and what is
defined directly inside it. -/
inductive Definition where
  | mk (isClass : Bool) (name : String) (doc : Option (List Char)) (first last : Nat)
      (inside : List Definition)
  deriving Repr

/-- What is kept of a statement. -/
inductive Statement where
  | definition (d : Definition)
  | text (value : List Char)
  | other
  deriving Repr

namespace Statement

/-- The definitions among some statements. -/
def definitions (ss : List Statement) : List Definition :=
  ss.filterMap fun
    | definition d => some d
    | _ => none

/-- The text that documents a block: that of its first statement, if it is text. -/
def doc? : List Statement → Option (List Char)
  | text value :: _ => some value
  | _ => none

/-- The signs that change a place by a value. -/
def changes : List String :=
  ["+=", "-=", "*=", "@=", "/=", "%=", "&=", "|=", "^=", "<<=", ">>=", "**=", "//="]

/-- Names with points between them. -/
def dottedName : Parser Unit := do
  let _ ← sepByPoint
where
  sepByPoint : Parser (List String) := do
    let s ← name
    return s :: (← many (sign "." *> name))

/-- Another name for what is imported. -/
def otherName : Parser Unit := do
  let _ ← optionally (keyword "as" *> name)

/-- An import of modules, after its keyword. -/
def imports : Parser Unit := do
  let _ ← sepBy1 (dottedName *> otherName)

/-- An import from a module, after its keyword. -/
def importsFrom : Parser Unit := do
  let points ← many (anySign [".", "..."])
  let hasName ← optionally dottedName
  require (hasName || !points.isEmpty)
  keyword "import"
  let target : Parser Unit := do
    let _ ← name
    otherName
  if ← optionally (sign "*") then return
  if ← optionally (sign "(") then
    let _ ← commaList target
    sign ")"
  else
    let (_, comma) ← commaList target
    require (!comma)

section Inside
variable (expr : Part → Reader)

/-- Expressions, as a tuple if there is a comma. -/
def values : Reader := starItems (expr .bitwise) (expr .whole)

/-- What is assigned. -/
def assigned : Reader := do
  if ← followsKeyword "yield" then yields expr else values expr

/-- The rest of an assignment after its first places: more places or a value. -/
def assignments (s : Shape) : Parser Unit := do
  let rights ← many (sign "=" *> assigned expr)
  require (!rights.isEmpty && (s :: rights.dropLast).all Shape.isStarTarget)
  require (!(← followsSign "="))

/-- An expression on its own, or an assignment. -/
def expressionStatement : Parser Statement := do
  let s ← values expr
  if ← optionally (sign ":") then
    require s.isAnnotatable
    let _ ← expr .whole
    let _ ← optionally (sign "=" *> assigned expr)
    return .other
  if ← followsSign "=" then
    assignments expr s
    return .other
  if ← optionally (anySign changes) then
    require s.isSingleTarget
    let _ ← assigned expr
    return .other
  return match s.text? with
    | some value => .text value
    | none => .other

/-- The rest of a statement after its keyword. -/
def afterKeyword (k : String) : Parser Unit := do
  match k with
  | "pass" | "break" | "continue" => return
  | "return" =>
    let _ ← optional? (values expr)
  | "raise" =>
    if ← optionally (expr .whole) then
      let _ ← optionally (keyword "from" *> expr .whole)
  | "global" | "nonlocal" =>
    let _ ← sepBy1 name
  | "del" =>
    let (targets, _) ← commaList (expr .primary)
    require (Shape.areDeletable targets)
    require ((← followsSign ";") || (← follows .newline))
  | "assert" =>
    let _ ← expr .whole
    let _ ← optionally (sign "," *> expr .whole)
  | "import" => imports
  | "from" => importsFrom
  | _ => failure

/-- The keywords that start statements which hold no others. -/
def simpleKeywords : List String :=
  ["pass", "break", "continue", "return", "raise", "global", "nonlocal", "del", "assert", "import",
    "from"]

/-- A statement that holds no others. -/
def simple : Parser Statement := do
  match ← next? with
  | some (.keyword "yield") =>
    let _ ← yields expr
    return .other
  | some (.keyword k) =>
    if simpleKeywords.contains k then
      keyword k
      afterKeyword expr k
      return .other
    else expressionStatement expr
  | _ => expressionStatement expr

/-- The statements of a line. -/
def line : Parser (List Statement) := do
  let s ← simple expr
  let more ← many (sign ";" *> simple expr)
  let _ ← optionally (sign ";")
  exactly .newline
  return s :: more

/-- An item of a `with` statement, which can be named; a mark follows the name. -/
def contextItem : Parser Unit := do
  let _ ← expr .whole
  let _ ← optionally do
    keyword "as"
    let _ ← starTarget (expr .primary)
    require ((← followsSign ",") || (← followsSign ")") || (← followsSign ":"))

/-- The items of a `with` statement up to its colon, which can all stand in brackets. -/
def contextItems : Parser Unit :=
  (do
    let _ ← between "(" ")" (commaList (contextItem expr))
    sign ":") <|> do
  let _ ← sepBy1 (contextItem expr)
  sign ":"

/-- What a `match` statement looks at. -/
def subject : Parser Unit := do
  let s ← starItems (expr .bitwise) (named expr)
  require !s.isStarred

variable (levels : Nat) (statements : Parser (List Statement))

/-- The statements of a block: on lines of their own, or on the line that starts the block. -/
def block : Parser (List Statement) := do
  if ← optionally (exactly .newline) then
    exactly .indent
    let ss ← statements
    exactly .dedent
    return ss
  line expr

/-- A colon and a block. -/
def body : Parser (List Statement) := sign ":" *> block expr statements

/-- A part of a statement that starts with a keyword. -/
def clause (k : String) (header : Parser Unit) : Parser Unit := do
  keyword k
  header
  let _ ← body expr statements

/-- The part for all other cases, if there is one. -/
def otherwise : Parser Unit := do
  let _ ← optionally (clause expr statements "else" (pure ()))

/-- A condition. -/
def condition : Parser Unit := do
  let _ ← named expr

/-- A part that handles some exceptions. -/
def handler (starred : Bool) : Parser Unit := do
  keyword "except"
  if starred then sign "*"
  let caught : Parser Unit := do
    let _ ← expr .whole
    otherName
  if starred then caught
  else
    let _ ← optionally caught
  let _ ← body expr statements

/-- The rest of a `try` statement after its block. -/
def handlers : Parser Unit := do
  let final := clause expr statements "finally" (pure ())
  if ← optionally final then return
  let _ ← many1 (handler expr statements false) <|> many1 (handler expr statements true)
  otherwise expr statements
  let _ ← optionally final

/-- A part of a `match` statement. -/
def caseBlock : Parser Unit := do
  word "case"
  let strings : Parser Unit := do
    let _ ← strings expr
  MatchPattern.top (MatchPattern.reader strings levels)
  let _ ← optionally (keyword "if" *> named expr)
  let _ ← body expr statements

/-- A `match` statement. Its first word is no keyword. -/
def matchStatement : Parser Unit := do
  word "match"
  subject expr
  sign ":"
  exactly .newline
  exactly .indent
  let _ ← many1 (caseBlock expr levels statements)
  exactly .dedent

/-- A class. -/
def classDefinition : Parser Definition := do
  let first ← nextLine
  keyword "class"
  let s ← name
  let _ ← optionally (between "(" ")" (arguments expr))
  let ss ← body expr statements
  return .mk true s (doc? ss) first (← lastLine) (definitions ss)

/-- A function, which starts at a line. -/
def functionDefinition (first : Nat) : Parser Definition := do
  keyword "def"
  let s ← name
  between "(" ")" (parameters expr true)
  if ← optionally (sign "->") then
    let _ ← expr .whole
  let ss ← body expr statements
  return .mk false s (doc? ss) first (← lastLine) (definitions ss)

/-- A class or a function. -/
def definition? : Parser Definition := do
  let first ← nextLine
  if ← optionally (keyword "async") then functionDefinition expr statements first
  else if ← followsKeyword "def" then functionDefinition expr statements first
  else classDefinition expr statements

/-- A loop over the items of something. -/
def forLoop : Parser Unit := do
  clause expr statements "for" do
    starTargets (expr .primary)
    keyword "in"
    let _ ← values expr
  otherwise expr statements

/-- A `with` statement. -/
def withStatement : Parser Unit := do
  keyword "with"
  contextItems expr
  let _ ← block expr statements

/-- A statement that holds others and starts with a keyword. -/
def compound (k : String) : Parser Statement := do
  match k with
  | "def" | "class" => return .definition (← definition? expr statements)
  | "async" =>
    match ← optional? (definition? expr statements) with
    | some d => return .definition d
    | none =>
      keyword "async"
      forLoop expr statements <|> withStatement expr statements
      return .other
  | "if" =>
    clause expr statements "if" (condition expr)
    let _ ← many (clause expr statements "elif" (condition expr))
    otherwise expr statements
    return .other
  | "while" =>
    clause expr statements "while" (condition expr)
    otherwise expr statements
    return .other
  | "for" =>
    forLoop expr statements
    return .other
  | "with" =>
    withStatement expr statements
    return .other
  | _ =>
    clause expr statements "try" (pure ())
    handlers expr statements
    return .other

/-- The keywords that start statements which hold others. -/
def compoundKeywords : List String :=
  ["def", "class", "async", "if", "while", "for", "with", "try"]

/-- A decorator. -/
def decorator : Parser Unit := do
  sign "@"
  let _ ← named expr
  exactly .newline

/-- A statement, or all statements of a line. -/
def read : Parser (List Statement) := do
  match ← next? with
  | some (.op "@") =>
    let _ ← many1 (decorator expr)
    return [.definition (← definition? expr statements)]
  | some (.keyword k) =>
    if compoundKeywords.contains k then return [← compound expr statements k] else line expr
  | some (.name "match") =>
    if ← optionally (matchStatement expr levels statements) then return [.other] else line expr
  | _ => line expr

end Inside

/-- Statements, at least one, in which statements are nested so many times at most. -/
def reader (expr : Part → Reader) (levels : Nat) : (blocks : Nat) → Parser (List Statement)
  | 0 => failure
  | blocks + 1 => do
    return (← many1 fun c => read expr levels (reader expr levels blocks) c).flatten

end Statement

/-- The definitions of source, if it can be read. -/
def definitions? (source : List Char) : Option (List Definition) := do
  let levels := source.length + 1
  let tokens ← tokens? source
  if tokens.isEmpty then some []
  else
    let (ss, c) ← Statement.reader (Expression.reader levels) levels (maxBlocks + 2) { rest := tokens }
    if c.rest.isEmpty then some (Statement.definitions ss) else none

end CodeAgent.Source
