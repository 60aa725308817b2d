import CodeAgent.Text.Printable
import CodeAgent.Text.Utf8
import CodeAgent.Workspace.Path

/-! A tree of files and folders, and the operations of a file system on it. -/
namespace CodeAgent
open CodeAgent.Text

/-- A file with the second of its last change, or a folder with its entries in order of names. -/
inductive Node where
  | file (content : Bytes) (modified : Int)
  | folder (entries : List (String × Node))
  deriving Inhabited

namespace Node

/-- A node is a folder. -/
def isFolder : Node → Bool
  | folder _ => true
  | file .. => false

/-- A node is a file. -/
def isFile (n : Node) : Bool := !n.isFolder

/-- The entries of a folder. -/
def entries : Node → List (String × Node)
  | folder es => es
  | file .. => []

/-- The entry of a name. -/
def member? (n : Node) (name : String) : Option Node :=
  (n.entries.find? (·.1 == name)).map (·.2)

/-- Put an entry in its place among entries in order of names. -/
def insertEntry (name : String) (n : Node) : List (String × Node) → List (String × Node)
  | [] => [(name, n)]
  | e :: es =>
    if e.1 == name then (name, n) :: es
    else if name < e.1 then (name, n) :: e :: es
    else e :: insertEntry name n es

/-- The node at a place below a node. -/
def at? (n : Node) : Place → Option Node
  | [] => some n
  | name :: names => (n.member? name).bind (·.at? names)

/-- Put a node at a place, with the folders on the way; a file on the way gives way to a folder. -/
def put (n : Node) (place : Place) (new : Node) : Node :=
  match place with
  | [] => new
  | name :: names =>
    folder (insertEntry name (put ((n.member? name).getD (folder [])) names new) n.entries)

/-- Take away what is at a place. -/
def remove : Place → Node → Node
  | [], n => n
  | [name], n => folder (n.entries.filter (·.1 != name))
  | name :: names, n => match n.member? name with
    | some m => folder (insertEntry name (remove names m) n.entries)
    | none => n

end Node

/-- Why the file system refuses an operation. -/
inductive Refused where
  | missing
  | alreadyThere
  | notAFolder
  | isAFolder
  | nameTooLong
  deriving DecidableEq, Repr

namespace Refused

/-- The number of a refusal. -/
def number : Refused → Nat
  | missing => 2
  | alreadyThere => 17
  | notAFolder => 20
  | isAFolder => 21
  | nameTooLong => 36

/-- The words of a refusal. -/
def words : Refused → String
  | missing => "No such file or directory"
  | alreadyThere => "File exists"
  | notAFolder => "Not a directory"
  | isAFolder => "Is a directory"
  | nameTooLong => "File name too long"

end Refused

/-- Why an operation on a path failed. -/
inductive FileError where
  | refused (reason : Refused) (path : Path)
  | nullCharacter
  | badText
  | nothingThere (path : Path)
  | noListing (path : Path)
  deriving DecidableEq, Repr

namespace FileError

/-- An error in words. -/
def text : FileError → String
  | refused reason path =>
    "[Errno " ++ toString reason.number ++ "] " ++ reason.words ++ ": " ++ quoted path.text
  | nullCharacter => "embedded null byte"
  | badText => "invalid UTF-8"
  | nothingThere path => "No such file or directory: " ++ path.text
  | noListing path => "Not a directory: " ++ path.text

/-- The error says that there is nothing at the path. -/
def isMissing : FileError → Bool
  | refused .missing _ | nothingThere _ => true
  | _ => false

/-- The error concerns the text of the path or of the file, and not the file system. -/
def isTextual : FileError → Bool
  | nullCharacter | badText => true
  | _ => false

end FileError

/-- A file system: its tree, the current folder, the home folder, and the present second. -/
structure FileSystem where
  root : Node := .folder []
  current : Place := []
  home : Place := []
  now : Int := 0
  deriving Inhabited

/-- What a path leads to: a place whose folder exists, and the node there, if any. -/
structure Spot where
  place : Place
  node? : Option Node

namespace FileSystem

/-- The most bytes in a name. -/
def maxNameBytes : Nat := 255

/-- The most bytes in the text of a path. -/
def maxPathBytes : Nat := 4095

/-- Follow names from a place. Every name but the last must lead to a folder. -/
def lookFrom (root : Node) (here : Place) : List String → Except Refused Spot
  | [] => match root.at? here with
    | none => .error .missing
    | some n => .ok ⟨here, some n⟩
  | name :: names =>
    match root.at? here with
    | none => .error .missing
    | some (.file ..) => .error .notAFolder
    | some (.folder _) =>
      if maxNameBytes < name.utf8ByteSize then .error .nameTooLong
      else if name == ".." then lookFrom root here.dropLast names
      else if (root.at? (here ++ [name])).isSome then lookFrom root (here ++ [name]) names
      else if names.isEmpty then .ok ⟨here ++ [name], none⟩
      else .error .missing

/-- What a path leads to. -/
def look (fs : FileSystem) (p : Path) : Except FileError Spot :=
  if p.hasNull then .error .nullCharacter
  else if maxPathBytes < p.text.utf8ByteSize then .error (.refused .nameTooLong p)
  else match lookFrom fs.root (if p.isAbsolute then [] else fs.current) p.names with
    | .ok spot => .ok spot
    | .error reason => .error (.refused reason p)

/-- The node that a path leads to. A path that leads nowhere is no error, nor is one that no file
can have; only a path that is too long is one. -/
def node? (fs : FileSystem) (p : Path) : Except FileError (Option Node) :=
  match fs.look p with
  | .ok spot => .ok spot.node?
  | .error (.refused .nameTooLong q) => .error (.refused .nameTooLong q)
  | .error _ => .ok none

/-- There is a file or a folder at a path. -/
def isThere (fs : FileSystem) (p : Path) : Except FileError Bool :=
  return (← fs.node? p).isSome

/-- There is a file at a path. -/
def isFile (fs : FileSystem) (p : Path) : Except FileError Bool :=
  return ((← fs.node? p).map Node.isFile).getD false

/-- There is a folder at a path. -/
def isFolder (fs : FileSystem) (p : Path) : Except FileError Bool :=
  return ((← fs.node? p).map Node.isFolder).getD false

/-- The node that a path must lead to. -/
def existing (fs : FileSystem) (p : Path) : Except FileError Node := do
  match (← fs.look p).node? with
  | some n => .ok n
  | none => .error (.refused .missing p)

/-- The content of the file at a path. -/
def readBytes (fs : FileSystem) (p : Path) : Except FileError Bytes := do
  match ← fs.existing p with
  | .file content _ => .ok content
  | .folder _ => .error (.refused .isAFolder p)

/-- The text of the file at a path, with invalid bytes replaced and every line end a line feed. -/
def readText (fs : FileSystem) (p : Path) : Except FileError String :=
  return String.ofList (unifyLineEnds (Utf8.decode (← fs.readBytes p)))

/-- The text of the file at a path, which must be valid, with every line end a line feed. -/
def readValidText (fs : FileSystem) (p : Path) : Except FileError String := do
  match Utf8.decode? (← fs.readBytes p) with
  | some cs => .ok (String.ofList (unifyLineEnds cs))
  | none => .error .badText

/-- Give the file at a path a content. Its folder must exist. -/
def writeBytes (fs : FileSystem) (p : Path) (content : Bytes) : Except FileError FileSystem := do
  let spot ← fs.look p
  if (spot.node?.map Node.isFolder).getD false then .error (.refused .isAFolder p)
  else .ok { fs with root := fs.root.put spot.place (.file content fs.now) }

/-- Make a folder at a path where there is nothing yet. -/
def makeFolder (fs : FileSystem) (p : Path) : Except FileError FileSystem := do
  let spot ← fs.look p
  if spot.node?.isSome then .error (.refused .alreadyThere p)
  else .ok { fs with root := fs.root.put spot.place (.folder []) }

/-- The place that a path names, with every `..` taken back; nothing needs to be there. -/
def resolve (fs : FileSystem) (p : Path) : Except FileError Place :=
  if p.hasNull then .error .nullCharacter
  else .ok (Place.follow (if p.isAbsolute then [] else fs.current) p.names)

end FileSystem

/-- An operation on the file system that can fail; what it did before it failed stays done. -/
abbrev FileAction := ExceptT FileError (StateM FileSystem)

namespace FileAction

/-- Look at the file system. -/
def view {α : Type} (f : FileSystem → Except FileError α) : FileAction α := do
  ExceptT.mk (pure (f (← get)))

/-- Change the file system in one step. -/
def change (f : FileSystem → Except FileError FileSystem) : FileAction Unit := do
  set (← view f)

/-- An existing folder is no failure. -/
def allowFolder (p : Path) (e : FileError) : FileAction Unit := do
  if e.isTextual then throw e
  else if ← view (·.isFolder p) then pure ()
  else throw e

/-- Make the folder of the names from a root on, given in reverse, with the folders above it that
are missing. -/
def makeFoldersFrom (slashes : Nat) : List String → FileAction Unit
  | [] => do
    let p : Path := ⟨slashes, []⟩
    try change (·.makeFolder p)
    catch e => if e.isMissing then throw e else allowFolder p e
  | name :: above => do
    let p : Path := ⟨slashes, (name :: above).reverse⟩
    try change (·.makeFolder p)
    catch e =>
      if e.isMissing then
        makeFoldersFrom slashes above
        try change (·.makeFolder p)
        catch e => allowFolder p e
      else allowFolder p e

/-- Make a folder and the folders above it, as far as they are missing. -/
def makeFolders (p : Path) : FileAction Unit :=
  makeFoldersFrom p.slashes p.names.reverse

/-- Write a file, in a folder that is made if it is missing. -/
def writeFile (p : Path) (content : Bytes) : FileAction Unit := do
  makeFolders p.parent
  change (·.writeBytes p content)

end FileAction
end CodeAgent
