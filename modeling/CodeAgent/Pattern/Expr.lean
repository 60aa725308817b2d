import CodeAgent.Text.Blank
import CodeAgent.Text.WordChar
import CodeAgent.Text.LetterCase

/-! Search patterns: their parts, the characters that these accept, and their widths. -/
namespace CodeAgent.Pattern
open CodeAgent.Text

/-- Modes that can change inside a pattern. -/
structure Modes where
  foldCase : Bool := false
  multiLine : Bool := false
  dotAll : Bool := false
  asciiOnly : Bool := false
  spaced : Bool := false
  deriving DecidableEq, Repr

/-- A class of characters with a name. -/
inductive CharClass where
  | digit
  | blank
  | word
  deriving DecidableEq, Repr

/-- A character belongs to a class; ASCII classes hold ASCII characters only. -/
def CharClass.has (asciiOnly : Bool) (c : Char) : CharClass → Bool
  | .digit => if asciiOnly then c.toNat < 128 && c.isDigit else isDigitChar c
  | .blank =>
    if asciiOnly then (9 ≤ c.toNat && c.toNat ≤ 13) || c == ' ' else isBlank c
  | .word =>
    if asciiOnly then c.toNat < 128 && (c.isAlphanum || c == '_') else isWordChar c

/-- A member of a set of characters. -/
inductive SetItem where
  | char (c : Char)
  | range (low high : Char)
  | cls (negated : Bool) (k : CharClass)
  deriving DecidableEq, Repr

/-- Lower-case letters that count as equal when case is ignored although neither is the
lower-case form of the other. -/
def caseTwins (c : Char) : List Char :=
  let groups : List (List Nat) :=
    [[0x69, 0x131], [0x73, 0x17f], [0xb5, 0x3bc], [0x345, 0x3b9, 0x1fbe], [0x390, 0x1fd3],
      [0x3b0, 0x1fe3], [0x3b2, 0x3d0], [0x3b5, 0x3f5], [0x3b8, 0x3d1], [0x3ba, 0x3f0],
      [0x3c0, 0x3d6], [0x3c1, 0x3f1], [0x3c2, 0x3c3], [0x3c6, 0x3d5], [0x432, 0x1c80],
      [0x434, 0x1c81], [0x43e, 0x1c82], [0x441, 0x1c83], [0x442, 0x1c84, 0x1c85],
      [0x44a, 0x1c86], [0x463, 0x1c87], [0x1c88, 0xa64b], [0x1e61, 0x1e9b], [0xfb05, 0xfb06]]
  ((groups.find? (·.contains c.toNat)).getD [c.toNat]).map Char.ofNat

/-- The lower-case form by which characters are compared when case is ignored. -/
def foldChar (asciiOnly : Bool) (c : Char) : Char :=
  if asciiOnly then (if c.toNat < 128 then c.toLower else c) else lowerChar c

/-- Two characters are equal up to the modes. -/
def sameChar (m : Modes) (pattern text : Char) : Bool :=
  if m.foldCase then
    let p := foldChar m.asciiOnly pattern
    let t := foldChar m.asciiOnly text
    p == t || (!m.asciiOnly && (caseTwins p).contains t)
  else pattern == text

/-- The characters that count as equal to one when case is ignored. -/
def caseClass (asciiOnly : Bool) (c : Char) : List Char :=
  let l := foldChar asciiOnly c
  let lows := if asciiOnly then [l] else caseTwins l
  lows.flatMap fun x =>
    x :: (if x.toNat < 128 then [x.toUpper] else []) ++ (if asciiOnly then [] else upperPartners x)

/-- A character belongs to an item of a set. -/
def SetItem.has (m : Modes) (c : Char) : SetItem → Bool
  | .char d => sameChar m d c
  | .range low high =>
    let inRange (x : Char) : Bool := low ≤ x && x ≤ high
    inRange c || (m.foldCase && (caseClass m.asciiOnly c).any inRange)
  | .cls negated k => k.has m.asciiOnly c != negated

/-- Places between characters. -/
inductive Place where
  | textStart
  | textEnd
  | lastEnd
  | lineStart
  | lineEnd
  | wordEdge
  | notWordEdge
  deriving DecidableEq, Repr

/-- How often an expression repeats, and which count is tried first. -/
inductive Greed where
  | most
  | fewest
  | possessive
  deriving DecidableEq, Repr

/-- A pattern. -/
inductive Expr where
  | empty
  | never
  | char (m : Modes) (c : Char)
  | notChar (m : Modes) (c : Char)
  | any (m : Modes)
  | set (m : Modes) (negated : Bool) (items : List SetItem)
  | place (m : Modes) (p : Place)
  | seq (a b : Expr)
  | either (a b : Expr)
  | repeat (greed : Greed) (least : Nat) (most : Option Nat) (e : Expr)
  | group (index : Nat) (e : Expr)
  | atomic (e : Expr)
  | again (m : Modes) (index : Nat)
  | ifGroup (index : Nat) (yes no : Expr)
  | ahead (negated : Bool) (e : Expr)
  | behind (negated : Bool) (width : Nat) (e : Expr)
  deriving Repr

namespace Expr

/-- A sequence of expressions. -/
def ofList : List Expr → Expr
  | [] => empty
  | [e] => e
  | e :: es => seq e (ofList es)

/-- The pattern that is a given text. -/
def literal (m : Modes) (cs : List Char) : Expr :=
  ofList (cs.map (char m))

/-- Widths beyond this are all alike. -/
def maxWidth : Nat := Nat.pow 2 64

/-- The least and the greatest number of characters that an expression takes; `groups` holds the
widths of the groups that are complete. -/
def width (groups : Nat → Nat × Nat) : Expr → Nat × Nat
  | empty | never | place .. | ahead .. | behind .. => (0, 0)
  | char .. | notChar .. | any .. | set .. => (1, 1)
  | seq a b =>
    let (l, h) := a.width groups
    let (l', h') := b.width groups
    (min (l + l') maxWidth, min (h + h') maxWidth)
  | either a b =>
    let (l, h) := a.width groups
    let (l', h') := b.width groups
    (min l l', max h h')
  | .repeat _ least most e =>
    let (l, h) := e.width groups
    (min (l * least) maxWidth,
      match most with
      | some n => min (h * n) maxWidth
      | none => if h = 0 then 0 else maxWidth)
  | group _ e | atomic e => e.width groups
  | again _ index => groups index
  | ifGroup _ yes no =>
    let (l, h) := yes.width groups
    let (l', h') := no.width groups
    (min l l', max h h')

/-- The pattern looks at what a group took. -/
def usesGroups : Expr → Bool
  | again .. | ifGroup .. => true
  | seq a b | either a b => a.usesGroups || b.usesGroups
  | .repeat _ _ _ e | group _ e | atomic e | ahead _ e | behind _ _ e => e.usesGroups
  | _ => false

end Expr
end CodeAgent.Pattern
