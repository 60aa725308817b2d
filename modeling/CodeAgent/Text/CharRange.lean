/-! Character properties given as ranges of code points. -/
namespace CodeAgent.Text

/-- A property of characters: inclusive ranges of code points. -/
abbrev CharRanges := List (Nat × Nat)

/-- A character has the property when one of the ranges holds its code point. -/
def CharRanges.has (rs : CharRanges) (c : Char) : Bool :=
  rs.any fun r => decide (r.1 ≤ c.toNat) && decide (c.toNat ≤ r.2)

/-- Code points from `first` to `last` in steps of `step`. -/
structure CharRun where
  first : Nat
  last : Nat
  step : Nat

/-- A run holds the code points that its steps reach. -/
def CharRun.has (r : CharRun) (n : Nat) : Bool :=
  decide (r.first ≤ n) && decide (n ≤ r.last) && (n - r.first) % r.step == 0

/-- A run whose characters all map to another one at the same distance, upward or downward. -/
structure CaseRun extends CharRun where
  up : Bool
  distance : Nat

/-- The image of a code point under the first run that holds it, and the code point itself
when none does. -/
def CaseRun.apply (rs : List CaseRun) (c : Char) : Char :=
  match rs.find? fun r => r.toCharRun.has c.toNat with
  | none => c
  | some r => Char.ofNat (if r.up then c.toNat + r.distance else c.toNat - r.distance)

end CodeAgent.Text
