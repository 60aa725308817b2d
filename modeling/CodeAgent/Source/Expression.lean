import CodeAgent.Source.Lexer
import CodeAgent.Source.Parser

/-! The expressions of Python source. Only so much of an expression is kept as tells whether it can be
assigned to, and its value if it is text. -/
namespace CodeAgent.Source
open CodeAgent.Source.Parser

/-- What is kept of an expression. -/
inductive Shape where
  | name
  /-- An attribute or an element of something, which may start with a place in brackets. -/
  | part (afterPlace : Bool)
  | tuple (items : List Shape)
  | list (items : List Shape)
  | starred (s : Shape)
  | group (s : Shape)
  | text (value : List Char)
  /-- A name that is given a value inside an expression. -/
  | binding
  | other
  deriving Repr

namespace Shape

/-- The expression has a star in front. -/
def isStarred : Shape → Bool
  | starred _ => true
  | _ => false

/-- The expression gives a value to a name. -/
def isBinding : Shape → Bool
  | binding => true
  | _ => false

mutual

/-- The expression can be assigned to, perhaps together with others. -/
def isTarget : Shape → Bool
  | name | part _ => true
  | group s => isTarget s
  | tuple items | list items => areStarTargets items
  | _ => false

/-- The expression can be assigned to, and may have a star in front. -/
def isStarTarget : Shape → Bool
  | starred s => isTarget s
  | name | part _ => true
  | group s => isTarget s
  | tuple items | list items => areStarTargets items
  | _ => false

/-- Each of the expressions can be assigned to, and may have a star in front. -/
def areStarTargets : List Shape → Bool
  | [] => true
  | s :: ss => isStarTarget s && areStarTargets ss

end

/-- The expression names one place. -/
def isSingleTarget : Shape → Bool
  | name | part _ => true
  | group s => isSingleTarget s
  | _ => false

mutual

/-- The expression can be deleted. -/
def isDeletable : Shape → Bool
  | name | part _ => true
  | group s => isDeletable s
  | tuple items | list items => areDeletable items
  | _ => false

/-- Each of the expressions can be deleted. -/
def areDeletable : List Shape → Bool
  | [] => true
  | s :: ss => isDeletable s && areDeletable ss

end

/-- The expression can have an annotation: a place that is all in brackets or starts with none. -/
def isAnnotatable : Shape → Bool
  | part afterPlace => !afterPlace
  | s => isSingleTarget s

/-- The value of an expression that is text, in brackets or not. -/
def text? : Shape → Option (List Char)
  | text value => some value
  | group s => text? s
  | _ => none

end Shape

/-- A parameter of a function. -/
inductive ParameterForm where
  | plain (hasDefault : Bool)
  | slash
  | star
  | bareStar
  | doubleStar
  deriving DecidableEq, Repr

namespace ParameterForm

/-- Parameters after a star are in order: any number of plain ones, and at most one with two stars at
the end. -/
def fitAfterStar : List ParameterForm → Bool
  | [] => true
  | plain _ :: ps => fitAfterStar ps
  | [doubleStar] => true
  | _ => false

/-- Parameters are in order: none without a default after one with a default, one slash at most and
not at the start, and one star at most. A star of its own has a plain parameter after it. -/
def fit (isFirst slashed defaulted : Bool) : List ParameterForm → Bool
  | [] => true
  | plain d :: ps => (d || !defaulted) && fit false slashed d ps
  | slash :: ps => !isFirst && !slashed && fit false true defaulted ps
  | star :: ps => fitAfterStar ps
  | bareStar :: plain d :: ps => fitAfterStar (plain d :: ps)
  | [doubleStar] => true
  | _ => false

end ParameterForm

/-- An argument of a call. -/
inductive ArgumentForm where
  | positional
  | starred
  | named
  | doubleStarred
  deriving DecidableEq, Repr

namespace ArgumentForm

/-- Arguments are in order: no positional one after a named one, and none with one star after one with
two. -/
def fit (afterName afterStars : Bool) : List ArgumentForm → Bool
  | [] => true
  | positional :: as => !afterName && fit afterName afterStars as
  | starred :: as => !afterStars && fit afterName afterStars as
  | named :: as => fit true afterStars as
  | doubleStarred :: as => fit true true as

end ArgumentForm

namespace Expression

/-- A reader of expressions. -/
abbrev Reader := Parser Shape

/-- The kinds of expressions that other kinds are made of: an atom with what follows it at once, one with
arithmetic operators at most, one with logical operators besides, and any. -/
inductive Part where
  | primary
  | bitwise
  | disjunction
  | whole

/-- Operands with operators between them. -/
def chain (operator : Parser Unit) (operand : Reader) : Reader := do
  let s ← operand
  let more ← many (operator *> operand)
  return if more.isEmpty then s else .other

/-- A name followed by a given sign. -/
def nameBefore (s : String) : Parser Unit := name *> sign s

/-- An item that may have a star in front. -/
def starItem (starred item : Reader) : Reader := do
  if ← optionally (sign "*") then return .starred (← starred)
  item

/-- Items that may have stars in front: with a comma they are a tuple. -/
def starItems (starred item : Reader) : Reader := do
  match ← commaList (starItem starred item) with
  | ([s], false) => return s
  | (items, _) => return .tuple items

/-- An operator that compares. -/
def comparison : Parser Unit :=
  anySign ["==", "!=", "<=", "<", ">=", ">"] <|>
    (keyword "not" *> keyword "in") <|> keyword "in" <|> do
      keyword "is"
      let _ ← optionally (keyword "not")

/-- An arithmetic expression over primaries. -/
def bitwiseOver (primary : Reader) : Reader :=
  let signed : Reader := do
    let signs ← many (anySign ["+", "-", "~"])
    let awaited ← optionally (keyword "await")
    let s ← primary
    return if signs.isEmpty && !awaited then s else .other
  let factor := chain (sign "**") signed
  let term := chain (anySign ["*", "/", "//", "%", "@"]) factor
  let sum := chain (anySign ["+", "-"]) term
  let shift := chain (anySign ["<<", ">>"]) sum
  chain (sign "|") (chain (sign "^") (chain (sign "&") shift))

/-- A logical expression over arithmetic ones. -/
def disjunctionOver (bitwise : Reader) : Reader :=
  let inversion : Reader := do
    let nots ← many (keyword "not")
    let s ← chain comparison bitwise
    return if nots.isEmpty then s else .other
  chain (keyword "or") (chain (keyword "and") inversion)

/-- A place to assign to, perhaps with a star in front. -/
def starTarget (primary : Reader) : Reader := do
  let s ← starItem primary primary
  require s.isStarTarget
  return s

/-- Places to assign to. -/
def starTargets (primary : Reader) : Parser Unit := do
  let _ ← commaList (starTarget primary)

/-- The next token starts the clauses of a comprehension. -/
def clausesFollow : Parser Bool := do
  return (← followsKeyword "for") || (← followsKeyword "async")

/-- The value of adjacent literals: text only if all of them are text. -/
def literalShape : List Lexeme → Shape → Shape
  | [], s => s
  | .text value :: ls, .text before => literalShape ls (.text (before ++ value))
  | _ :: ls, _ => literalShape ls .other

/-- The words that are values. -/
def constants : List String := ["None", "True", "False"]

section Inside

/-! What is read here holds expressions of any kind, which are read by the given reader. -/
variable (inner : Part → Reader)

/-- An expression that may give a value to a name. -/
def named : Reader := do
  if ← optionally (nameBefore ":=") then
    let _ ← inner .whole
    return .binding
  let s ← inner .whole
  require (!(← followsSign ":="))
  return s

/-- The expressions in a literal can be read. -/
def holesFit : Lexeme → Bool
  | .formatted holes => holes.all fun h => match tokens? ('(' :: h ++ [')']) with
    | some ts => (starItems (inner .bitwise) (inner .whole)).accepts ts
    | none => false
  | _ => true

/-- Adjacent string literals; bytes go with bytes only. -/
def strings : Reader := do
  let ls ← many1 (token fun
    | .text value => some (.text value)
    | .bytes => some .bytes
    | .formatted holes => some (.formatted holes)
    | _ => none)
  let isBytes : Lexeme → Bool := (· == .bytes)
  require ((ls.all isBytes || !ls.any isBytes) && ls.all (holesFit inner))
  return literalShape ls (.text [])

/-- An annotation, where there can be one. -/
def annotation (allowed : Bool) (p : Parser Unit) : Parser Unit := do
  if allowed then
    if ← optionally (sign ":") then p

/-- A parameter; outside lambdas it may have an annotation. -/
def parameter (annotated : Bool) : Parser ParameterForm := do
  let plainAnnotation := annotation annotated do
    let _ ← inner .whole
  if ← optionally (sign "/") then return .slash
  if ← optionally (sign "**") then
    let _ ← name
    plainAnnotation
    return .doubleStar
  if ← optionally (sign "*") then
    match ← optional? name with
    | none => return .bareStar
    | some _ =>
      annotation annotated do
        let _ ← starItem (inner .bitwise) (inner .whole)
      return .star
  let _ ← name
  plainAnnotation
  return .plain (← optionally (sign "=" *> inner .whole))

/-- The parameters of a function. -/
def parameters (annotated : Bool) : Parser Unit := do
  match ← optional? (commaList (parameter inner annotated)) with
  | none => return
  | some (ps, _) => require (ParameterForm.fit true false false ps)

/-- A function without a name. -/
def lambda : Reader := do
  keyword "lambda"
  parameters inner false
  sign ":"
  let _ ← inner .whole
  return .other

/-- Any expression, over logical ones. -/
def conditionalOver (disjunction : Reader) : Reader := do
  if ← followsKeyword "lambda" then lambda inner
  else
    let s ← disjunction
    let alternative ← optionally do
      keyword "if"
      let _ ← disjunction
      keyword "else"
      inner .whole
    return if alternative then .other else s

/-- The clauses of a comprehension. -/
def clauses : Parser Unit := do
  let _ ← many1 do
    let _ ← optionally (keyword "async")
    keyword "for"
    starTargets (inner .primary)
    keyword "in"
    let _ ← inner .disjunction
    many (keyword "if" *> inner .disjunction)

/-- What a function hands out and waits for. -/
def yields : Reader := do
  keyword "yield"
  if ← optionally (keyword "from") then
    let _ ← inner .whole
  else
    let _ ← optional? (starItems (inner .bitwise) (inner .whole))
  return .other

/-- An argument of a call. -/
def argument : Parser ArgumentForm := do
  if ← optionally (sign "*") then
    let _ ← inner .whole
    return .starred
  if ← optionally (sign "**") then
    let _ ← inner .whole
    return .doubleStarred
  if ← optionally (nameBefore "=") then
    let _ ← inner .whole
    return .named
  let _ ← named inner
  require (!(← followsSign "="))
  return .positional

/-- The arguments of a call, perhaps none, with a comma after the last one. -/
def arguments : Parser Unit := do
  match ← optional? (commaList (argument inner)) with
  | none => return
  | some (as, _) => require (ArgumentForm.fit false false as)

/-- The arguments of a call after its opening bracket; a comprehension can be the only one. -/
def callArguments : Parser Unit := do
  match ← optional? (commaList (argument inner)) with
  | none => sign ")"
  | some ([.positional], false) =>
    if ← clausesFollow then clauses inner
    sign ")"
  | some (as, _) =>
    require (ArgumentForm.fit false false as)
    sign ")"

/-- What is left of a slice after its first colon. -/
def sliceRest : Parser Unit := do
  let _ ← optional? (inner .whole)
  if ← optionally (sign ":") then
    let _ ← optional? (inner .whole)

/-- An index, a slice, or something with a star in front. -/
def subscript : Parser Unit := do
  if ← optionally (sign ":") then sliceRest inner
  else if ← optionally (sign "*") then
    let _ ← inner .whole
  else
    let s ← named inner
    if s.isBinding then return
    if ← optionally (sign ":") then sliceRest inner

/-- An item between brackets, perhaps with a star in front. -/
def bracketItem : Reader := starItem (inner .bitwise) (named inner)

/-- The rest of a comprehension after its first item. -/
def comprehension (closing : String) (s : Shape) : Reader := do
  require (!s.isStarred)
  clauses inner
  sign closing
  return .other

/-- What is in round brackets, after the opening one. -/
def roundBrackets : Reader := do
  if ← optionally (sign ")") then return .tuple []
  if ← followsKeyword "yield" then
    let _ ← yields inner
    sign ")"
    return .group .other
  let s ← bracketItem inner
  if ← clausesFollow then comprehension inner ")" s
  else
    let more ← many (sign "," *> bracketItem inner)
    let comma ← optionally (sign ",")
    sign ")"
    if more.isEmpty && !comma then
      require (!s.isStarred)
      return .group s
    return .tuple (s :: more)

/-- What is in square brackets, after the opening one. -/
def squareBrackets : Reader := do
  if ← optionally (sign "]") then return .list []
  let s ← bracketItem inner
  if ← clausesFollow then comprehension inner "]" s
  else
    let more ← many (sign "," *> bracketItem inner)
    let _ ← optionally (sign ",")
    sign "]"
    return .list (s :: more)

/-- An entry of a map, which may be another map with two stars in front. -/
def mapEntry : Parser Unit := do
  if ← optionally (sign "**") then
    let _ ← inner .bitwise
  else
    let _ ← inner .whole
    sign ":"
    let _ ← inner .whole

/-- The rest of a map or a set after its first item. -/
def bracesRest (item : Parser Unit) : Reader := do
  let _ ← many (sign "," *> item)
  let _ ← optionally (sign ",")
  sign "\x7d"
  return .other

/-- The rest of a map or a set after its first expression; after a colon it is a map. -/
def mapOrSet (s : Shape) : Reader := do
  if ← optionally (sign ":") then
    require (!s.isBinding && !s.isStarred)
    let _ ← inner .whole
    if ← clausesFollow then comprehension inner "\x7d" s else bracesRest (mapEntry inner)
  else if ← clausesFollow then comprehension inner "\x7d" s
  else
    bracesRest do
      let _ ← bracketItem inner

/-- What is in braces, after the opening one: a map or a set. -/
def braces : Reader := do
  if ← optionally (sign "\x7d") then return .other
  if ← followsSign "**" then
    mapEntry inner
    bracesRest (mapEntry inner)
  else
    let s ← bracketItem inner
    mapOrSet inner s

/-- An expression without operators and trailers. -/
def atom : Reader := do
  match ← next? with
  | some (.name _) =>
    let _ ← name
    return .name
  | some (.keyword k) =>
    require (constants.contains k)
    keyword k
    return .other
  | some (.number i) =>
    exactly (.number i)
    return .other
  | some (.op "...") =>
    sign "..."
    return .other
  | some (.op "(") => sign "(" *> roundBrackets inner
  | some (.op "[") => sign "[" *> squareBrackets inner
  | some (.op "\x7b") => sign "\x7b" *> braces inner
  | _ => strings inner

/-- What can follow an atom at once: an attribute, an element, or a call. -/
def trailer (afterPlace : Bool) : Reader := do
  if ← optionally (sign ".") then
    let _ ← name
    return .part afterPlace
  if ← optionally (sign "[") then
    let _ ← commaList (subscript inner)
    sign "]"
    return .part afterPlace
  sign "("
  callArguments inner
  return .other

/-- An atom with all that follows it at once. -/
def primary : Reader := do
  let s ← atom inner
  let afterPlace := match s with
    | .group t => t.isSingleTarget
    | _ => false
  return (← many (trailer inner afterPlace)).getLast?.getD s

/-- Expressions of each kind, over a reader of those inside them. -/
def ofPart : Part → Reader
  | .primary => primary inner
  | .bitwise => bitwiseOver (primary inner)
  | .disjunction => disjunctionOver (bitwiseOver (primary inner))
  | .whole => conditionalOver inner (disjunctionOver (bitwiseOver (primary inner)))

end Inside

/-- Expressions in which expressions are nested so many times at most. -/
def reader : (levels : Nat) → Part → Reader
  | 0 => fun _ => failure
  | levels + 1 => ofPart (reader levels)

end Expression
end CodeAgent.Source
