import CodeAgent.Text.LetterCase
import CodeAgent.Workspace.IgnoreRules

/-! Walking a workspace: its files in order of paths, without what ignore rules and skipped folders
keep out. -/
namespace CodeAgent
open CodeAgent.Text

/-- What a walk takes: a root, the extensions of the wanted files in lower case (all files if not
given), and the names of folders that are never entered. -/
structure Walk where
  root : Place
  extensions : Option (List String) := none
  skipped : List String := []

/-- Ignore rules with the place of their folder. -/
structure PlacedRules where
  base : Place
  rules : IgnoreRules

namespace PlacedRules

/-- Some of the rules ignore a place below the folders of all of them. -/
def ignores (place : Place) : List PlacedRules → Except Breakdown Bool
  | [] => .ok false
  | r :: rs => do
    let relative := String.intercalate "/" (place.drop r.base.length)
    if ← r.rules.ignores relative then return true else ignores place rs

/-- The rules with those in the ignore file of a folder, if it has one. -/
def enter (rules : List PlacedRules) (here : Place) (entries : List (String × Node)) :
    Except Breakdown (List PlacedRules) := do
  match (Node.folder entries).member? ".gitignore" with
  | some (.file content _) => match ← IgnoreRules.ofBytes content with
    | some own => return rules ++ [⟨here, own⟩]
    | none => return rules
  | _ => return rules

end PlacedRules

namespace Walk

/-- The folder that is never entered, whatever the settings. -/
def historyFolder : String := ".git"

/-- A file of a given name is wanted. -/
def wants (w : Walk) (name : String) : Bool :=
  match w.extensions with
  | none => true
  | some es => es.contains (lower (Path.extensionOf name))

/-- An entry of a folder takes part in the walk. -/
def admits (w : Walk) (rules : List PlacedRules) (place : Place) (name : String) (n : Node) :
    Except Breakdown Bool :=
  if n.isFolder then
    if name == historyFolder || w.skipped.contains name then .ok false
    else (PlacedRules.ignores place rules).map (!·)
  else if w.wants name then (PlacedRules.ignores place rules).map (!·)
  else .ok false

/-- Judge every entry of a folder, folders first. -/
def judgeAll (w : Walk) (rules : List PlacedRules) (here : Place)
    (entries : List (String × Node)) : Except Breakdown Unit := do
  let judge (e : String × Node) : Except Breakdown Unit := do
    let _ ← w.admits rules (here ++ [e.1]) e.1 e.2
  (entries.filter (·.2.isFolder)).forM judge
  (entries.filter (·.2.isFile)).forM judge

mutual

/-- The wanted files at and below a place where the given rules hold. -/
def filesAt (w : Walk) (rules : List PlacedRules) (here : Place) :
    Node → Except Breakdown (List Place)
  | .file .. => .ok [here]
  | .folder entries => do
    let rules ← PlacedRules.enter rules here entries
    w.judgeAll rules here entries
    filesAmong w rules here entries

/-- The wanted files at and below the entries of a folder. -/
def filesAmong (w : Walk) (rules : List PlacedRules) (here : Place) :
    List (String × Node) → Except Breakdown (List Place)
  | [] => .ok []
  | (name, n) :: es => do
    let place := here ++ [name]
    let first ← if ← w.admits rules place name n then filesAt w rules place n else pure []
    return first ++ (← filesAmong w rules here es)

end

/-- The rules of the folders from the root of a tree along names, the last folder left out. -/
def rulesAlong (root : Node) (here : Place) : List String → Except Breakdown (List PlacedRules)
  | [] => .ok []
  | name :: names => do
    let own ← PlacedRules.enter [] here (((root.at? here).map Node.entries).getD [])
    return own ++ (← rulesAlong root (here ++ [name]) names)

/-- The wanted files at or below a place, in order of their paths. A file is its own walk. The ignore
rules between the root of the walk and the place hold, too. -/
def filesFrom (w : Walk) (root : Node) (start : Place) : Except Breakdown (List Place) := do
  match root.at? start with
  | some (.file ..) => return if w.wants (start.getLastD "") then [start] else []
  | found? =>
    let rules ← match w.root.within? start with
      | some names => rulesAlong root w.root names
      | none => pure []
    match found? with
    | none => return []
    | some n =>
      return (← w.filesAt rules start n).mergeSort fun a b => decide (a.text ≤ b.text)

/-- All wanted files of the workspace. -/
def files (w : Walk) (root : Node) : Except Breakdown (List Place) :=
  w.filesFrom root w.root

/-- A path as the workspace names it: relative to the root, or as it is if it lies outside. -/
def relative (w : Walk) (fs : FileSystem) (p : Path) : Except FileError String := do
  match w.root.within? (← fs.resolve p) with
  | some names => return (Path.mk 0 names).text
  | none => return p.text

/-- A place at or below the root as the workspace names it, and any other place as it is. -/
def relativePlace (w : Walk) (p : Place) : String :=
  match w.root.within? p with
  | some names => (Path.mk 0 names).text
  | none => p.text

end Walk
end CodeAgent
