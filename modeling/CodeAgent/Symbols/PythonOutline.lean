import CodeAgent.Failure
import CodeAgent.Source.Statement
import CodeAgent.Symbols.SyntaxTree

/-! The outline of Python source: its classes and functions, with the first lines of the texts that
document them. -/
namespace CodeAgent
open CodeAgent.Text

/-- Every tab as the spaces up to the next eighth column. -/
def expandTabs (column : Nat) : List Char → List Char
  | [] => []
  | '\t' :: cs => List.replicate (8 - column % 8) ' ' ++ expandTabs 0 cs
  | c :: cs => c :: expandTabs (if c == '\n' || c == '\r' then 0 else column + 1) cs

/-- The columns before the text on a line, if there is any. -/
def margin? (line : List Char) : Option Nat :=
  if line.all isBlank then none else some (line.takeWhile isBlank).length

/-- A text without the margin that its lines share, the first line apart, and without empty lines at its
start and its end. -/
def withoutMargin (cs : List Char) : List Char :=
  match splitAtEach '\n' (expandTabs 0 cs) with
  | [] => []
  | first :: more =>
    let more := match (more.filterMap margin?).min? with
      | some n => more.map fun line => line.drop n
      | none => more
    let kept := trimBy List.isEmpty (first.dropWhile isBlank :: more)
    List.intercalate ['\n'] kept

/-- The first line of a text that documents something. A text of nothing but white space that is not
empty has none, and breaks the outline. -/
def firstDocLine (doc : List Char) : Except Breakdown (Option String) :=
  match withoutMargin doc with
  | [] => .ok none
  | cs => match lines (trimChars cs) with
    | [] => .error .outOfRange
    | line :: _ => .ok (some (String.ofList (line.take maxDetailLength)))

namespace Source.Definition

mutual

/-- A definition as a symbol. A function directly inside a class is a method. -/
def toSymbol (inClass : Bool) : Definition → Except Breakdown OutlineSymbol
  | mk isClass name doc first last inside => do
    let detail ← match doc with
      | some text => firstDocLine text
      | none => .ok none
    let kind : SymbolKind := if isClass then .cls else if inClass then .method else .function
    return .mk name kind detail first last (← toSymbols isClass inside)

/-- Definitions as symbols. -/
def toSymbols (inClass : Bool) : List Definition → Except Breakdown (List OutlineSymbol)
  | [] => .ok []
  | d :: ds => do
    let s ← toSymbol inClass d
    return s :: (← toSymbols inClass ds)

end

end Source.Definition

/-- Why source has no outline. -/
inductive SourceError where
  /-- It is not the source of a program. -/
  | syntactic
  /-- It holds a null character. -/
  | nullCharacter
  /-- A text that documents something breaks the outline. -/
  | breakdown (b : Breakdown)

/-- The outline of Python source. -/
def pythonOutline (source : List Char) : Except SourceError (List OutlineSymbol) :=
  if source.contains '\x00' then .error .nullCharacter
  else match Source.definitions? source with
    | none => .error .syntactic
    | some ds => (Source.Definition.toSymbols false ds).mapError .breakdown

end CodeAgent
