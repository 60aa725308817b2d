import CodeAgent.Pattern.Expr

/-! Matching: the positions that a pattern reaches from a position, the preferred one first. -/
namespace CodeAgent.Pattern
open CodeAgent.Text

/-- A position in a text, with the characters before it reversed, and what groups have taken. -/
structure Cursor where
  before : List Char
  after : List Char
  taken : List (Nat × List Char) := []
  deriving DecidableEq

namespace Cursor

/-- The position at the start of a text. -/
def start (cs : List Char) : Cursor := ⟨[], cs, []⟩

/-- The next character if it passes a test, and the position after it. -/
def step? (p : Char → Bool) (s : Cursor) : Option Cursor :=
  match s.after with
  | [] => none
  | c :: cs => if p c then some { s with before := c :: s.before, after := cs } else none

/-- The position a number of characters earlier. -/
def back? : Nat → Cursor → Option Cursor
  | 0, s => some s
  | n + 1, s => match s.before with
    | [] => none
    | c :: cs => back? n { s with before := cs, after := c :: s.after }

/-- What the text between two positions holds. -/
def textTo (s t : Cursor) : List Char :=
  s.after.take (s.after.length - t.after.length)

/-- Remember what a group took. -/
def take (index : Nat) (text : List Char) (s : Cursor) : Cursor :=
  { s with taken := (index, text) :: s.taken.filter (·.1 != index) }

/-- What a group took. -/
def taken? (s : Cursor) (index : Nat) : Option (List Char) :=
  (s.taken.find? (·.1 == index)).map (·.2)

end Cursor

def atEdge (m : Modes) (s : Cursor) : Bool :=
  let word : Option Char → Bool := fun c => (c.map (CharClass.word.has m.asciiOnly)).getD false
  word s.before.head? != word s.after.head?

/-- A place holds at a position. -/
def Place.holds (m : Modes) (s : Cursor) : Place → Bool
  | textStart => s.before.isEmpty
  | textEnd => s.after.isEmpty
  | lastEnd => s.after.isEmpty || s.after == ['\n']
  | lineStart => s.before.isEmpty || s.before.head? == some '\n'
  | lineEnd => s.after.isEmpty || s.after.head? == some '\n'
  | wordEdge => !(s.before.isEmpty && s.after.isEmpty) && atEdge m s
  | notWordEdge => !(s.before.isEmpty && s.after.isEmpty) && !atEdge m s

def stepText (m : Modes) : List Char → Cursor → Option Cursor
  | [], s => some s
  | c :: cs, s => (s.step? (sameChar m c)).bind (stepText m cs)

/-- The positions that repeated steps reach, in the order of preference. Steps beyond the least
number must move on. The second argument counts the steps already made. -/
def repeats (greed : Greed) (least : Nat) (most : Option Nat) (step : Cursor → List Cursor) :
    Nat → Nat → Cursor → List Cursor
  | 0, _, s => [s]
  | fuel + 1, count, s =>
    let mayStop := least ≤ count
    let mayGo := match most with
      | some n => decide (count < n)
      | none => true
    let further := if mayGo then
        ((step s).filter fun t => !mayStop || t.after.length != s.after.length).flatMap
          (repeats greed least most step fuel (count + 1))
      else []
    let here := if mayStop then [s] else []
    (match greed with
      | .fewest => here ++ further
      | _ => further ++ here).eraseDups

/-- The positions that a pattern reaches, in the order of preference, each once. Groups are
remembered only if `keep` is set. -/
def run (keep : Bool) : Expr → Cursor → List Cursor
  | .empty, s => [s]
  | .never, _ => []
  | .char m c, s => (s.step? (sameChar m c)).toList
  | .notChar m c, s => (s.step? fun d => !sameChar m c d).toList
  | .any m, s => (s.step? fun d => m.dotAll || d != '\n').toList
  | .set m negated items, s => (s.step? fun d => items.any (·.has m d) != negated).toList
  | .place m p, s => if p.holds m s then [s] else []
  | .seq a b, s => ((run keep a s).flatMap (run keep b)).eraseDups
  | .either a b, s => (run keep a s ++ run keep b s).eraseDups
  | .repeat greed least most e, s =>
    let ends := repeats greed least most (run keep e) (least + s.after.length + 1) 0 s
    match greed with
    | .possessive => ends.take 1
    | _ => ends
  | .group index e, s =>
    (run keep e s).map fun t => if keep then t.take index (s.textTo t) else t
  | .atomic e, s => (run keep e s).take 1
  | .again m index, s => match s.taken? index with
    | some text => (stepText m text s).toList
    | none => []
  | .ifGroup index yes no, s => if (s.taken? index).isSome then run keep yes s else run keep no s
  | .ahead negated e, s => match run keep e s with
    | [] => if negated then [s] else []
    | t :: _ => if negated then [] else [{ s with taken := t.taken }]
  | .behind negated width e, s => match (s.back? width).map (run keep e) with
    | none | some [] => if negated then [s] else []
    | some (t :: _) => if negated then [] else [{ s with taken := t.taken }]

/-- A pattern matches somewhere from a position on. -/
def foundFrom (keep : Bool) (e : Expr) (before : List Char) : List Char → Bool
  | [] => !(run keep e ⟨before, [], []⟩).isEmpty
  | c :: cs => !(run keep e ⟨before, c :: cs, []⟩).isEmpty || foundFrom keep e (c :: before) cs

/-- A pattern matches somewhere in a text. -/
def Expr.foundIn (e : Expr) (cs : List Char) : Bool :=
  foundFrom e.usesGroups e [] cs

/-- A pattern matches at the start of a text. -/
def Expr.matchesStart (e : Expr) (cs : List Char) : Bool :=
  !(run e.usesGroups e (.start cs)).isEmpty

end CodeAgent.Pattern
