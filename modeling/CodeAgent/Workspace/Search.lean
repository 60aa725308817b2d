import CodeAgent.Text.Line
import CodeAgent.ToolCall.Parameters
import CodeAgent.Workspace.Walk

/-! Searching a workspace: lines by their content, and files by their names. -/
namespace CodeAgent
open CodeAgent.Text

namespace SearchParameters

def quotedQuery (query : String) : List Char :=
  query.toList.flatMap Pattern.escapedChar

/-- The text of the pattern that lines are searched for. -/
def source (p : SearchParameters) : List Char :=
  let s := if p.regex then p.query.toList else quotedQuery p.query
  if p.wholeWord then "\\b(?:".toList ++ s ++ ")\\b".toList else s

/-- What is said of a pattern that asks for two alphabets at once. -/
def modeConflict : String := "ASCII and UNICODE flags are incompatible"

/-- The pattern that lines are searched for. -/
def matcher (p : SearchParameters) : Except Failure Pattern.Expr :=
  match Pattern.read { foldCase := !p.caseSensitive } p.source with
  | .ok e => .ok e
  | .error .malformed =>
    .error (.fault (Fault.toolFailed none "Invalid search pattern: it cannot be read"))
  | .error .countTooLarge => .error (.breakdown .tooLarge)
  | .error .modeConflict => .error (.breakdown .badValue)

/-- A file of a relative path is searched. -/
def covers (p : SearchParameters) (relative : String) : Bool :=
  let includes := Pattern.splitGlobs (p.includePattern.getD "")
  let excludes := Pattern.splitGlobs (p.excludePattern.getD "")
  (includes.isEmpty || Pattern.matchesAnyGlob includes relative) &&
    !(!excludes.isEmpty && Pattern.matchesAnyGlob excludes relative)

end SearchParameters

/-- A line that a search found. -/
structure LineHit where
  path : String
  number : Nat
  line : String
  deriving DecidableEq, Repr

/-- A found line as an object. -/
def LineHit.toJson (h : LineHit) : Json :=
  .obj [("path", .str h.path), ("line_number", .int h.number), ("line", .str h.line)]

/-- How many bytes are looked at to tell whether a file is text. -/
def sniffedBytes : Nat := 8192

/-- The lines of a file that is text; a null byte near the start shows that it is none. -/
def textLines? (content : Bytes) : Option (List (List Char)) :=
  if (content.take sniffedBytes).contains 0 then none else some (lines (Utf8.decode content))

/-- The lines in which a pattern is found, the first line having a given number. -/
def hitsFrom (e : Pattern.Expr) (path : String) (number : Nat) :
    List (List Char) → List LineHit
  | [] => []
  | line :: more =>
    let rest := hitsFrom e path (number + 1) more
    if e.foundIn line then ⟨path, number, String.ofList line⟩ :: rest else rest

/-- The lines of a file in which a pattern is found. -/
def fileHits (e : Pattern.Expr) (root : Node) (place : Place) : List LineHit :=
  match root.at? place with
  | some (.file content _) => match textLines? content with
    | some ls => hitsFrom e place.text 1 ls
    | none => []
  | _ => []

/-- The lines that a search finds from a path on, at most as many as a limit says. -/
def searchLines (fs : FileSystem) (p : SearchParameters) (e : Pattern.Expr) (target : Path)
    (skipped : List String) (most : Nat) : Except Failure (List LineHit) := do
  let found? ← (fs.node? target).mapError .file
  let some node := found? | throw (.file (.nothingThere target))
  let root ← (fs.resolve (if node.isFile then target.parent else target)).mapError .file
  let start ← (fs.resolve target).mapError .file
  let walk : Walk := { root, skipped }
  let places ← (walk.filesFrom fs.root start).mapError .breakdown
  return ((places.filter fun q => p.covers (walk.relativePlace q)).flatMap (fileHits e fs.root)).take most

/-- A file that was found by its name. -/
structure NamedFile where
  name : String
  path : String
  deriving DecidableEq, Repr

/-- A found file as an object. -/
def NamedFile.toJson (f : NamedFile) : Json :=
  .obj [("name", .str f.name), ("path", .str f.path)]

/-- The test for names that a pattern gives. One that cannot be read is looked for as it stands, in
any case. -/
def nameTest (pattern : String) : Except Failure (String → Bool) :=
  match Pattern.read { foldCase := true } pattern.toList with
  | .ok e => .ok fun name => e.foundIn name.toList
  | .error .malformed => .ok fun name => containsText (lower name) (lower pattern)
  | .error .countTooLarge => .error (.breakdown .tooLarge)
  | .error .modeConflict => .error (.breakdown .badValue)

/-- The files of a workspace whose names pass a test, at most as many as a limit says. -/
def findFiles (fs : FileSystem) (test : String → Bool) (workspace : Path) (skipped : List String)
    (most : Nat) : Except Failure (List NamedFile) := do
  let root ← (fs.resolve workspace).mapError .file
  let walk : Walk := { root, skipped }
  let places ← (walk.files fs.root).mapError .breakdown
  let named := places.map fun q => NamedFile.mk (q.getLastD "") q.text
  return (named.filter fun f => test f.name).take most

/-- An entry in the listing of a folder. -/
structure FolderEntry where
  name : String
  path : String
  isFolder : Bool
  size : Nat
  deriving DecidableEq, Repr

/-- An entry as an object. -/
def FolderEntry.toJson (e : FolderEntry) : Json :=
  .obj [("name", .str e.name), ("path", .str e.path), ("is_dir", .bool e.isFolder),
    ("size", .int e.size)]

private def sizeOf : Node → Nat
  | .file content _ => content.length
  | .folder _ => 0

private def listedBefore (a b : FolderEntry) : Bool :=
  if a.isFolder != b.isFolder then a.isFolder else decide (lower a.name ≤ lower b.name)

/-- The listing of a folder: folders first, then files, each by name in any case. -/
def listFolder (fs : FileSystem) (p : Path) : Except FileError (List FolderEntry) := do
  match ← fs.node? p with
  | none => throw (.nothingThere p)
  | some (.file ..) => throw (.noListing p)
  | some (.folder entries) =>
    return (entries.map fun (name, n) =>
      FolderEntry.mk name (p.child name).text n.isFolder (sizeOf n)).mergeSort listedBefore

end CodeAgent
