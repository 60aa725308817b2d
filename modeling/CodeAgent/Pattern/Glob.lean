import CodeAgent.Pattern.Match
import CodeAgent.Pattern.Reader
import CodeAgent.Text.Blank
import CodeAgent.Text.Line

/-! Glob patterns for paths, and lists of them. -/
namespace CodeAgent.Pattern
open CodeAgent.Text

/-- The characters that have to be marked to stand for themselves in a pattern. -/
def isMarked (c : Char) : Bool :=
  "()[]\x7b\x7d?*+-|^$\\.&~# \t\n\r\x0b\x0c".toList.contains c

/-- A character that stands for itself in a pattern. -/
def escapedChar (c : Char) : List Char :=
  if isMarked c then ['\\', c] else [c]

/-- Where a bracket expression closes: its inside and the text after it. A closing bracket right
at the start, or after the mark that negates, belongs to the inside. -/
def bracketInside? (cs : List Char) : Option (List Char × List Char) :=
  let (mark, rest) := match cs with
    | '!' :: rest => (['!'], rest)
    | _ => ([], cs)
  let (first, rest) := match rest with
    | ']' :: more => ([']'], more)
    | _ => ([], rest)
  match rest.dropWhile (· != ']') with
  | [] => none
  | _ :: after => some (mark ++ first ++ rest.takeWhile (· != ']'), after)

/-- Cut the inside of a bracket expression at the hyphens that make ranges: one with at least one
character on its left, not counting the mark that negates, and two after the last such hyphen. -/
private def hyphenChunks : Nat → List Char → List Char → List (List Char)
  | _, chunk, [] => [chunk.reverse]
  | 0, chunk, '-' :: cs => chunk.reverse :: hyphenChunks 2 [] cs
  | n, chunk, c :: cs => hyphenChunks (n - 1) (c :: chunk) cs

/-- A range that ends before it starts holds nothing. -/
private def joinChunks : List (List Char) → List (List Char)
  | [] => []
  | [c] => [c]
  | a :: rest =>
    match joinChunks rest with
    | [] => [a]
    | b :: more => match a.getLast?, b.head? with
      | some x, some y => if y < x then (a.dropLast ++ b.drop 1) :: more else a :: b :: more
      | _, _ => a :: b :: more

private def markClassChar (hyphens : Bool) (c : Char) : List Char :=
  if c == '\\' || (hyphens && c == '-') then ['\\', c] else [c]

private def markSetOperator (c : Char) : List Char :=
  if c == '&' || c == '~' || c == '|' then ['\\', c] else [c]

private def trailingHyphen (chunks : List (List Char)) : List (List Char) :=
  match chunks.reverse with
  | [] :: last :: before => ((last ++ ['-']) :: before).reverse
  | _ => chunks

private def bracketClass (inside : List Char) : List Char :=
  let stuff :=
    if !inside.contains '-' then inside.flatMap (markClassChar false)
    else
      let skip := if inside.head? == some '!' then 2 else 1
      let chunks := joinChunks (trailingHyphen (hyphenChunks skip [] inside))
      ['-'].intercalate (chunks.map (·.flatMap (markClassChar true)))
  match stuff.flatMap markSetOperator with
  | [] => ['(', '?', '!', ')']
  | ['!'] => ['.']
  | '!' :: rest => '[' :: '^' :: rest ++ [']']
  | c :: rest =>
    let body := if c == '^' || c == '[' then '\\' :: c :: rest else c :: rest
    '[' :: body ++ [']']

/-- The pattern that a glob stands for; the first argument bounds its length. -/
private def globBody : Nat → List Char → List Char
  | 0, _ => []
  | _, [] => []
  | n + 1, '*' :: cs => '.' :: '*' :: globBody n (cs.dropWhile (· == '*'))
  | n + 1, '?' :: cs => '.' :: globBody n cs
  | n + 1, '[' :: cs =>
    match bracketInside? cs with
    | none => '\\' :: '[' :: globBody n cs
    | some (inside, rest) => bracketClass inside ++ globBody n rest
  | n + 1, c :: cs => escapedChar c ++ globBody n cs

/-- The pattern text of a glob: a star takes any characters, slashes included. -/
def globPattern (glob : List Char) : List Char :=
  globBody glob.length glob ++ ['\\', 'Z']

/-- A glob matches a whole text. -/
def globMatches (glob text : String) : Bool :=
  match read { dotAll := true } (globPattern glob.toList) with
  | .ok e => e.matchesStart text.toList
  | .error _ => false

/-- The globs in a list with commas between them. -/
def splitGlobs (s : String) : List String :=
  ((splitAtEach ',' s.toList).map trimChars |>.filter fun g => !g.isEmpty).map String.ofList

/-- The text after the last slash. -/
def lastSegment (path : String) : String :=
  String.ofList (path.toList.reverse.takeWhile (· != '/')).reverse

/-- A path matches a glob, as a whole or by its last segment. -/
def matchesAnyGlob (globs : List String) (path : String) : Bool :=
  globs.any fun g => globMatches g path || globMatches g (lastSegment path)

end CodeAgent.Pattern
