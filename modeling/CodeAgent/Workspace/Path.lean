import CodeAgent.Text.Line
import CodeAgent.Text.Search

/-! Paths: an optional root and the names that lead on from there. -/
namespace CodeAgent
open CodeAgent.Text

/-- A path. It starts at the root after one slash, or after the two slashes that some systems
tell apart, or at the current folder; `.` is no name of a path, `..` is one. -/
structure Path where
  slashes : Nat
  names : List String
  deriving DecidableEq, Repr

namespace Path

/-- The path that a text writes. Empty names and `.` are dropped. -/
def ofText (s : String) : Path where
  slashes :=
    let n := (s.toList.takeWhile (· == '/')).length
    if 2 < n then 1 else n
  names := ((splitAtEach '/' s.toList).map String.ofList).filter fun n => n != "" && n != "."

/-- The text of a path; the empty path is the current folder. -/
def text (p : Path) : String :=
  if p.slashes == 0 && p.names.isEmpty then "."
  else String.ofList (List.replicate p.slashes '/') ++ String.intercalate "/" p.names

/-- The path starts at the root. -/
def isAbsolute (p : Path) : Bool := p.slashes != 0

/-- A path seen from another one; an absolute path stands for itself. -/
def join (base p : Path) : Path :=
  if p.isAbsolute then p else { base with names := base.names ++ p.names }

/-- The path of a name in a folder. -/
def child (p : Path) (name : String) : Path := { p with names := p.names ++ [name] }

/-- The path without its last name. -/
def parent (p : Path) : Path := { p with names := p.names.dropLast }

/-- The last name. -/
def name (p : Path) : String := p.names.getLastD ""

/-- The text after the last point of a name, if there is text on both sides of that point. -/
def extensionOf (name : String) : String :=
  let after := name.toList.reverse.takeWhile (· != '.')
  if after.length + 1 < name.length && !after.isEmpty then String.ofList after.reverse else ""

/-- A name has the null character in it, which no file can have. -/
def hasNull (p : Path) : Bool := p.names.any fun n => n.toList.contains '\x00'

end Path

/-- A place in the file tree: the names that lead there from the root. -/
abbrev Place := List String

namespace Place

/-- The absolute path of a place. -/
def path (p : Place) : Path := ⟨1, p⟩

/-- The path of a place as text. -/
def text (p : Place) : String := (path p).text

/-- Follow names from a place; `..` leads one level up, and stays at the root. -/
def follow (start : Place) (names : List String) : Place :=
  names.foldl (fun here n => if n == ".." then here.dropLast else here ++ [n]) start

/-- The names that lead from a place to one at or below it. -/
def within? : Place → Place → Option (List String)
  | [], q => some q
  | _ :: _, [] => none
  | a :: p, b :: q => if a == b then within? p q else none

end Place
end CodeAgent
