import CodeAgent.Text.LetterCase

/-! Fuzzy matching: the characters of a pattern in order within a text, where they count most. -/
namespace CodeAgent.Symbols
open CodeAgent.Text

/-- Where the characters of a pattern stand in a text, and what that counts. The positions are in
reverse order. -/
structure Placement where
  score : Int := 0
  reversed : List Nat := []
  deriving DecidableEq, Repr

/-- A match: what it counts, and its positions in order. -/
structure FuzzyMatch where
  score : Int
  positions : List Nat
  deriving DecidableEq, Repr

/-- Characters between words. -/
def isSeparator (c : Char) : Bool :=
  c == ' ' || c == '.' || c == '_' || c == '-' || c == '/' || c == ':' || c == '\\'

/-- What a character counts at a position, by the character before it. The first character of a
pattern counts more at the start of the text, a character more at the start of the text, after a
separator or at a hump, and an upper-case character more than another one. -/
def bonus (isFirst : Bool) (before : Option Char) (c : Char) : Int :=
  10 +
    (match before with
      | none => (if isFirst then 15 else 0) + 20
      | some b => if isSeparator b then 20 else if isLower b && isUpper c then 15 else 0) +
    if isUpper c then 5 else 0

/-- The placement that counts more; of equal ones the earlier. -/
def better (earlier later : Option Placement) : Option Placement :=
  match earlier, later with
  | some a, some b => if a.score < b.score then later else earlier
  | none, _ => later
  | _, none => earlier

/-- Place one more character of the pattern. The row holds the best placements of the pattern so far
in the starts of the text; the result holds those of the pattern with the new character. -/
def placeNext (isFirst : Bool) (p : Char) :
    Nat → Option Char → List (Char × Char) → List (Option Placement) → Option Placement →
    List (Option Placement)
  | position, before, (folded, c) :: text, diagonal :: row, left =>
    let placed := if p == folded then
        diagonal.map fun d =>
          { score := d.score + bonus isFirst before c, reversed := position :: d.reversed }
      else none
    left :: placeNext isFirst p (position + 1) (some c) text row (better left placed)
  | _, _, _, _, left => [left]

/-- The best placements of a pattern in the starts of a text, from those of what precedes it. -/
def placeAll (text : List (Char × Char)) (isFirst : Bool) :
    List Char → List (Option Placement) → List (Option Placement)
  | [], row => row
  | p :: ps, row => placeAll text false ps (placeNext isFirst p 0 none text row none)

/-- The first positions at which the characters of a pattern come in order. -/
def firstPositions : Nat → List Char → List Char → Option (List Nat)
  | _, [], _ => some []
  | _, _ :: _, [] => none
  | n, p :: ps, c :: cs =>
    if p == c then (firstPositions (n + 1) ps cs).map (n :: ·) else firstPositions (n + 1) (p :: ps) cs

/-- The match of a pattern in a text that counts most. A text whose length changes with its case is
only scanned for the first positions. -/
def fuzzyMatch (pattern text : String) : Option FuzzyMatch :=
  let ps := lowerChars pattern.toList
  let folded := lowerChars text.toList
  if ps.isEmpty then some ⟨0, []⟩
  else if folded.length < ps.length then none
  else if folded.length != text.length then
    (firstPositions 0 ps folded).map fun positions => ⟨10 * ps.length, positions⟩
  else
    let row := placeAll (folded.zip text.toList) true ps
      (List.replicate (folded.length + 1) (some {}))
    (row.getLast?.bind id).map fun a => ⟨a.score, a.reversed.reverse⟩

end CodeAgent.Symbols
