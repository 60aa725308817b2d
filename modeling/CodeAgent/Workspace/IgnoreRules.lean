import CodeAgent.Failure
import CodeAgent.Pattern.Glob
import CodeAgent.Text.Blank

/-! Ignore rules: one glob a line, that say which paths below the folder of the rules do not count. -/
namespace CodeAgent
open CodeAgent.Text

/-- A rule: the text of a pattern for relative paths, and whether it takes back what earlier rules
say. -/
structure IgnoreRule where
  pattern : List Char
  negated : Bool
  deriving DecidableEq, Repr

namespace IgnoreRule

private def afterStars (cs : List Char) : List Char := cs.dropWhile (· == '*')

private theorem afterStars_length (cs : List Char) : (afterStars cs).length ≤ cs.length :=
  (List.dropWhile_suffix _).length_le

/-- Two or more stars after a character that is no slash count as one. -/
def mergeStarsAfter : List Char → List Char
  | [] => []
  | c :: cs =>
    if c != '/' && startsWith ['*', '*'] cs then c :: '*' :: mergeStarsAfter (afterStars cs)
    else c :: mergeStarsAfter cs
termination_by cs => cs.length
decreasing_by
  all_goals
    have := afterStars_length cs
    simp only [List.length_cons]
    omega

/-- Two or more stars before a character that is no slash count as one, and before a slash or at the
end as two. -/
def mergeStarsBefore : List Char → List Char
  | [] => []
  | c :: cs =>
    if c == '*' && startsWith ['*'] cs then
      match _h : afterStars cs with
      | [] => ['*', '*']
      | d :: rest =>
        if d == '/' then '*' :: '*' :: d :: mergeStarsBefore rest
        else '*' :: d :: mergeStarsBefore rest
    else c :: mergeStarsBefore cs
termination_by cs => cs.length
decreasing_by
  all_goals
    first
    | have := afterStars_length cs
      rw [_h] at this
      simp only [List.length_cons] at this ⊢
      omega
    | simp

/-- Spaces at the end fall away, from the third character on; a backslash keeps the space after it
and the ones that follow, and falls away itself. The text up to a place is given in reverse. -/
def settleSpaces (cut : Bool) : List Char → List Char → List Char
  | ' ' :: '\\' :: b :: before, after => settleSpaces false (b :: before) (' ' :: after)
  | ' ' :: a :: b :: before, after =>
    settleSpaces cut (a :: b :: before) (if cut then after else ' ' :: after)
  | before, after => before.reverse ++ after
termination_by before => before.length

/-- The pattern for the inside of a bracket expression, which must hold more than slashes. -/
def classPattern (inside : List Char) : Except Breakdown (List Char) :=
  let stuff := (inside.filter (· != '/')).flatMap fun c => if c == '\\' then ['\\', '\\'] else [c]
  match stuff with
  | [] => .error .outOfRange
  | '!' :: rest => .ok ('[' :: '^' :: rest ++ [']'])
  | '^' :: rest => .ok ('[' :: '\\' :: '^' :: rest ++ [']'])
  | _ => .ok ('[' :: stuff ++ [']'])

/-- The pattern that a glob stands for, in which only a double star crosses a slash; the first
argument bounds its length. -/
def globBody : Nat → List Char → Except Breakdown (List Char)
  | 0, _ => .ok []
  | _, [] => .ok []
  | n + 1, '*' :: '*' :: '/' :: cs => return "(.*[/])?".toList ++ (← globBody n cs)
  | n + 1, '*' :: '*' :: cs => return ".*".toList ++ (← globBody n cs)
  | n + 1, '*' :: cs => return "[^/]*".toList ++ (← globBody n cs)
  | n + 1, '?' :: cs => return "[^/]".toList ++ (← globBody n cs)
  | n + 1, '/' :: cs => return "[/]".toList ++ (← globBody n cs)
  | n + 1, '[' :: cs => do
    match Pattern.bracketInside? cs with
    | none => return '\\' :: '[' :: (← globBody n cs)
    | some (inside, rest) => return (← classPattern inside) ++ (← globBody n rest)
  | n + 1, c :: cs => return Pattern.escapedChar c ++ (← globBody n cs)

/-- The first character; that there is none is a breakdown. -/
def headOf (cs : List Char) : Except Breakdown Char :=
  match cs with
  | [] => .error .outOfRange
  | c :: _ => .ok c

/-- A glob without a slash at its start. -/
def dropSlash (cs : List Char) : Except Breakdown (List Char) := do
  if (← headOf cs) == '/' then return cs.drop 1 else return cs

/-- A glob without a slash at its end. -/
def dropLastSlash (cs : List Char) : Except Breakdown (List Char) := do
  if (← headOf cs.reverse) == '/' then return cs.dropLast else return cs

/-- A glob without the backslash before a mark of a comment or of a negation at its start. -/
def dropMark (cs : List Char) : Except Breakdown (List Char) := do
  if (← headOf cs) == '\\' then
    let c ← headOf (cs.drop 1)
    if c == '#' || c == '!' then return cs.drop 1 else return cs
  else return cs

/-- The glob of a rule without the marks around it, and whether it holds from the folder of the
rules on. A glob of which nothing is left is a breakdown. -/
def bareGlob (cs : List Char) : Except Breakdown (List Char × Bool) := do
  let anchored := cs.dropLast.contains '/'
  let cs ← dropSlash cs
  let _ ← headOf cs
  let (cs, anchored) := if startsWith ['*', '*'] cs then (cs.drop 2, false) else (cs, anchored)
  let cs ← dropMark (← dropLastSlash (← dropSlash cs))
  return (settleSpaces true cs.reverse [], anchored)

/-- The rule on a line, if there is one. -/
def ofLine (line : List Char) : Except Breakdown (Option IgnoreRule) := do
  if (trimChars line).isEmpty || line.head? == some '#' then return none
  let negated := line.head? == some '!'
  let glob := mergeStarsBefore (mergeStarsAfter (if negated then line.drop 1 else line))
  if trimEndBy isBlank glob == ['/'] then return none
  let folderOnly := (← headOf glob.reverse) == '/'
  let (bare, anchored) ← bareGlob glob
  let body ← globBody bare.length bare
  let start := if anchored then "^" else "(^|[/])"
  let ending := if !folderOnly then "$" else if negated then "/$" else "($|\\/)"
  return some ⟨start.toList ++ body ++ ending.toList, negated⟩

/-- A rule matches a relative path. A glob that makes no pattern is a breakdown. -/
def hits (rule : IgnoreRule) (relative : String) : Except Breakdown Bool :=
  match Pattern.read {} rule.pattern with
  | .ok e => .ok (e.foundIn relative.toList)
  | .error _ => .error .badPattern

/-- Some rule of a list matches. -/
def anyHits (relative : String) : List IgnoreRule → Except Breakdown Bool
  | [] => .ok false
  | rule :: rules => do
    if ← rule.hits relative then return true else anyHits relative rules

/-- What the first rule of a list that matches says. -/
def firstVerdict (relative : String) : List IgnoreRule → Except Breakdown Bool
  | [] => .ok false
  | rule :: rules => do
    if ← rule.hits relative then return !rule.negated else firstVerdict relative rules

end IgnoreRule

/-- The rules of one folder, in order. -/
abbrev IgnoreRules := List IgnoreRule

namespace IgnoreRules

/-- The rules ignore a path below their folder: some rule matches it, or, if rules are taken back,
the last one that matches says so. -/
def ignores (rules : IgnoreRules) (relative : String) : Except Breakdown Bool :=
  if rules.any (·.negated) then IgnoreRule.firstVerdict relative rules.reverse
  else IgnoreRule.anyHits relative rules

/-- The rules on some lines. -/
def ofLines (lines : List (List Char)) : Except Breakdown IgnoreRules := do
  return (← lines.mapM IgnoreRule.ofLine).filterMap id

/-- The rules in the content of a file; there are none if it is not valid text. Lines that are
complete before the end of the file are read even if it ends within a character. -/
def ofBytes (content : Bytes) : Except Breakdown (Option IgnoreRules) := do
  let (read, pending) := Utf8.run .start content
  match read.mapM id with
  | none => return none
  | some cs =>
    let lines := splitAtEach '\n' (unifyLineEnds cs)
    if pending = .start then return some (← ofLines lines)
    let _ ← ofLines lines.dropLast
    return none

end IgnoreRules
end CodeAgent
