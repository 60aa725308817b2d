import CodeAgent.Symbols.Fuzzy
import CodeAgent.Symbols.IndexData
import CodeAgent.Text.Blank
import CodeAgent.Text.Search
import CodeAgent.Workspace.Path

/-! Searching an index: what a query asks for, how well a symbol answers it, and the best answers. -/
namespace CodeAgent
open CodeAgent.Text

/-- A query: the text to look for, and a piece of the path to look in. -/
structure SymbolQuery where
  text : String
  within : Option String := none
  deriving DecidableEq, Repr

namespace SymbolQuery

/-- What starts the clause on the path. -/
def clauseMark : List Char := [' ', 'i', 'n', ' ']

/-- The offset of the last occurrence of a text. -/
def lastOffset? (part : List Char) : List Char → Option Nat
  | [] => if part.isEmpty then some 0 else none
  | c :: cs => match lastOffset? part cs with
    | some n => some (n + 1)
    | none => if startsWith part (c :: cs) then some 0 else none

/-- The query in a text: a clause on the path starts at its last mark, in any case. -/
def ofText (s : String) : SymbolQuery :=
  match lastOffset? clauseMark (lowerChars s.toList) with
  | none => { text := trim s }
  | some n =>
    { text := String.ofList (trimChars (s.toList.take n))
      within := some (String.ofList (lowerChars
        (trimChars (s.toList.drop (n + clauseMark.length))))) }

end SymbolQuery

namespace IndexedSymbol

/-- A symbol is a type. -/
def isType (s : IndexedSymbol) : Bool :=
  [SymbolKind.cls, .interface, .struct].any (·.text == s.kind)

/-- A symbol can be called. -/
def isCallable (s : IndexedSymbol) : Bool :=
  [SymbolKind.function, .method].any (·.text == s.kind)

private def startsWithText (s start : String) : Bool := startsWith start.toList s.toList

private def mentions (s : Option String) (text : String) : Bool :=
  match s with
  | none | some "" => false
  | some t => containsText (lower t) text

/-- How well the name of a symbol, or else its detail or its path, fits a text; a short text has to
start the name. -/
def nameScore? (s : IndexedSymbol) (text : String) (short : Bool) : Option Int :=
  let folded := lower text
  if short then
    if s.name == text then some 1000
    else if startsWithText s.name text then some 500
    else none
  else
    match (Symbols.fuzzyMatch text s.name).filter (0 < ·.score) with
    | some m =>
      if s.name == text then some 1000
      else if lower s.name == folded then some 800
      else if startsWithText s.name text then some 500
      else some m.score
    | none =>
      if mentions s.detail folded then some 50
      else if containsText (lower s.file) folded then some 30
      else none

/-- What the kind of a symbol, its parent and the name of its file add. -/
def boost (s : IndexedSymbol) (text : String) : Int :=
  let folded := lower text
  (if s.isType then 150 else if s.isCallable then 100 else 0) +
    (if mentions s.parent folded then 50 else 0) +
    if containsText (lower (Path.ofText s.file).name) folded then 100 else 0

/-- How well a symbol answers a query, if it does. -/
def score? (s : IndexedSymbol) (q : SymbolQuery) (short : Bool) : Option Int := do
  let inPath ← match q.within with
    | none => some 0
    | some fragment => if containsText (lower s.file) fragment then some 100 else none
  let base ← s.nameScore? q.text short
  some (inPath + base + s.boost q.text)

end IndexedSymbol

/-- The first symbol of each identity. -/
def distinctSymbols (seen : List String) : List IndexedSymbol → List IndexedSymbol
  | [] => []
  | s :: ss =>
    if seen.contains s.identity then distinctSymbols seen ss
    else s :: distinctSymbols (s.identity :: seen) ss

namespace IndexData

/-- The symbols that answer a query with what they score, the best first; equals keep their order. -/
def ranked (d : IndexData) (q : SymbolQuery) (short : Bool) : List (Int × IndexedSymbol) :=
  (d.flat.filterMap fun s => (s.score? q short).map (·, s)).mergeSort fun a b => decide (b.1 ≤ a.1)

/-- A text is too short for fuzzy matching. -/
def isShort (shortLength : Int) (text : String) : Bool := text.length < shortLength

/-- The best answers to a query, at most as many as a limit says, and at least one if there is any. -/
def search (d : IndexData) (shortLength limit : Int) (query : String) : List IndexedSymbol :=
  let q := SymbolQuery.ofText query
  if q.text == "" then []
  else (distinctSymbols [] ((d.ranked q (isShort shortLength q.text)).map (·.2))).take
    (max 1 limit.toNat)

end IndexData
end CodeAgent
