import CodeAgent.Symbols.Outline
import CodeAgent.Text.Blank
import CodeAgent.Text.Line
import CodeAgent.Text.Search

/-! The outline of a Markdown text: its headings, nested by level. -/
namespace CodeAgent
open CodeAgent.Text

/-- A heading: its level, its title and the number of its line. -/
structure Heading where
  level : Nat
  title : String
  line : Nat
  deriving DecidableEq, Repr

namespace Heading

/-- The most levels of headings. -/
def maxLevel : Nat := 6

/-- A space or a tab. -/
def isGap (c : Char) : Bool := c == ' ' || c == '\t'

/-- What may close a heading: gaps, hash signs, and gaps. -/
def isClosing (cs : List Char) : Bool :=
  (((cs.dropWhile isGap).dropWhile (· == '#')).dropWhile isGap).isEmpty

/-- The shortest title after which nothing is left but what may close a heading. -/
def titleOf : List Char → List Char
  | [] => []
  | c :: cs => if isClosing cs then [c] else c :: titleOf cs

/-- The level and the title of the heading in a line: at most three spaces, one to six hash signs, a
gap, and a title. A gap of more than one character can itself be a title. -/
def ofLine? (line : List Char) : Option (Nat × String) :=
  let hashes := line.dropWhile (· == ' ')
  let level := (hashes.takeWhile (· == '#')).length
  let rest := hashes.dropWhile (· == '#')
  let gap := rest.takeWhile isGap
  let title := match rest.dropWhile isGap with
    | [] => gap.drop (max 1 (gap.length - 1))
    | text => titleOf text
  if line.length - hashes.length ≤ 3 && 1 ≤ level && level ≤ maxLevel && !gap.isEmpty &&
      !title.isEmpty
  then some (level, String.ofList title)
  else none

/-- A line opens or closes a fenced block. -/
def isFence (line : List Char) : Bool :=
  let text := line.dropWhile isBlank
  startsWith "```".toList text || startsWith "~~~".toList text

/-- The headings in lines that are numbered from a number on, outside fenced blocks. -/
def collect (inFence : Bool) (number : Nat) : List (List Char) → List Heading
  | [] => []
  | line :: more =>
    if isFence line then collect (!inFence) (number + 1) more
    else match if inFence then none else ofLine? line with
      | some (level, title) => ⟨level, title, number⟩ :: collect inFence (number + 1) more
      | none => collect inFence (number + 1) more

/-- The headings below a heading, up to the next one of its level or above it. -/
def below (h : Heading) (hs : List Heading) : List Heading :=
  hs.takeWhile fun k => decide (h.level < k.level)

/-- The headings from the next one of the level of a heading or above it on. -/
def after (h : Heading) (hs : List Heading) : List Heading :=
  hs.dropWhile fun k => decide (h.level < k.level)

theorem length_below (h : Heading) (hs : List Heading) : (h.below hs).length ≤ hs.length :=
  (List.takeWhile_prefix _).length_le

theorem length_after (h : Heading) (hs : List Heading) : (h.after hs).length ≤ hs.length :=
  (List.dropWhile_suffix _).length_le

/-- Headings as symbols: a section ends before the next heading of its level or above it, or where the
section around it ends. -/
def sections (last : Nat) : List Heading → List OutlineSymbol
  | [] => []
  | h :: hs =>
    let next := h.after hs
    let ending : Nat := match next with
      | [] => last
      | k :: _ => k.line - 1
    .mk h.title .string (some (String.ofList (List.replicate h.level '#'))) h.line ending
      (sections ending (h.below hs)) :: sections last next
termination_by hs => hs.length
decreasing_by
  · exact Nat.lt_succ_of_le (length_below h hs)
  · exact Nat.lt_succ_of_le (length_after h hs)

end Heading

/-- The outline of a Markdown text. -/
def markdownOutline (cs : List Char) : List OutlineSymbol :=
  let ls := lines cs
  Heading.sections ls.length (Heading.collect false 1 ls)

end CodeAgent
