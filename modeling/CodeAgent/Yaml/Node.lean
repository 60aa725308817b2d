import CodeAgent.Yaml.Token

/-! The nodes of a YAML document, with their tags as they stand in it. -/
namespace CodeAgent.Yaml

/-- The tag of a node in a document. -/
inductive Tag where
  /-- None: the type follows from the kind of the node, and for a plain scalar from its text. -/
  | open
  /-- None, on a scalar in quotes or in a block, which is a text. -/
  | quoted
  /-- A tag written out. -/
  | named (name : String)
  deriving DecidableEq, Repr

/-- A node. -/
inductive Node where
  | scalar (tag : Tag) (text : String)
  | list (tag : Tag) (items : List Node)
  | map (tag : Tag) (entries : List (Node × Node))

namespace Node

instance : Inhabited Node := ⟨scalar .open ""⟩

/-- The node of nothing at all. -/
def empty (tag : Tag := .open) : Node := scalar tag ""

/-- The anchors seen so far; one whose node is not complete has no node yet. -/
abbrev Anchors := List (String × Option Node)

/-- A reader of nodes between two tokens. -/
structure State where
  tokens : List Token
  handles : List (String × String)
  anchors : Anchors := []

/-- Reads nodes from tokens. -/
abbrev Reader := StateT State (Except Flaw)

namespace Reader

/-- The next token. -/
def peek : Reader (Option Token) := return (← get).tokens.head?

/-- Go over a token. -/
def drop : Reader Unit := modify fun s => { s with tokens := s.tokens.drop 1 }

/-- Go over the next token if it is this one. -/
def accept (t : Token) : Reader Bool := do
  if (← peek) == some t then
    drop
    return true
  return false

/-- Go over a token that must be this one. -/
def expect (t : Token) : Reader Unit := do
  if !(← accept t) then throw .malformed

/-- The next token is one of some. -/
def sees (ts : List Token) : Reader Bool := do
  match ← peek with
  | some t => return ts.contains t
  | none => return false

private def tag? : Reader (Option Tag) := do
  match ← peek with
  | some (.tag handle ending) =>
    drop
    match handle with
    | none => return some (if ending == "!" then .open else .named ending)
    | some h => match (← get).handles.find? (·.1 == h) with
      | some (_, start) => return some (.named (start ++ ending))
      | none => throw .malformed
  | _ => return none

private def anchor? : Reader (Option String) := do
  match ← peek with
  | some (.anchor name) =>
    drop
    return some name
  | _ => return none

/-- The anchor and the tag in front of a node, in either order. -/
def properties : Reader (Option String × Option Tag) := do
  let anchor ← anchor?
  let tag ← tag?
  match anchor with
  | some name => return (some name, tag)
  | none => return (← if tag.isSome then anchor? else pure none, tag)

/-- The node that a reference stands for. -/
def referred (name : String) : Reader Node := do
  match (← get).anchors.find? (·.1 == name) with
  | some (_, some node) => return node
  | some (_, none) => throw .tooNested
  | none => throw .malformed

/-- Read the node of an anchor. No name stands for two nodes. -/
def anchored (anchor : Option String) (read : Reader Node) : Reader Node := do
  match anchor with
  | none => read
  | some name =>
    if (← get).anchors.any (·.1 == name) then throw .malformed
    modify fun s => { s with anchors := (name, none) :: s.anchors }
    let node ← read
    modify fun s =>
      { s with anchors := (name, some node) :: s.anchors.filter (·.1 != name) }
    return node

/-- Where a node stands: in a block, as a value in a block (whose list may stand without
indentation), or between brackets. -/
inductive Place where
  | block
  | blockValue
  | flow
  deriving DecidableEq

/-- The most nodes that can be in each other. -/
def maxDepth : Nat := 480

mutual

/-- Read a node. The first number bounds the tokens, the second the depth. -/
def node (place : Place) : Nat → Nat → Reader Node
  | 0, _ => throw .malformed
  | _, 0 => throw .tooNested
  | steps + 1, depth + 1 => do
    match ← peek with
    | some (.reference name) =>
      drop
      referred name
    | _ =>
      let (anchor, tag?) ← properties
      let tag := tag?.getD .open
      anchored anchor do
        match ← peek with
        | some (.scalar text plain) =>
          drop
          return .scalar (if tag? == none && !plain then .quoted else tag) text
        | some .listOpen =>
          drop
          return .list tag (← flowItems true steps depth)
        | some .mapOpen =>
          drop
          return .map tag (← flowEntries true steps depth)
        | t =>
          if t == some .item && place == .blockValue then
            return .list tag (← looseItems steps depth)
          else if t == some .listBlock && place != .flow then
            drop
            return .list tag (← blockItems steps depth)
          else if t == some .mapBlock && place != .flow then
            drop
            return .map tag (← blockEntries steps depth)
          else if anchor.isSome || tag?.isSome then return empty tag
          else throw .malformed
termination_by structural n => n

/-- Read a node, unless one of some tokens or the end follows at once: then it is empty. -/
def nodeUnless (place : Place) (ends : List Token) : Nat → Nat → Reader Node
  | 0, _ => throw .malformed
  | steps + 1, depth => do
    if (← sees ends) || (← peek) == none then return empty
    node place steps depth
termination_by structural n => n

/-- Read the items of a list up to the end of its block. -/
def blockItems : Nat → Nat → Reader (List Node)
  | 0, _ => throw .malformed
  | steps + 1, depth => do
    if ← accept .item then
      let n ← nodeUnless .block [.item, .blockEnd] steps depth
      return n :: (← blockItems steps depth)
    expect .blockEnd
    return []
termination_by structural n => n

/-- Read the items of a list that has no block of its own. -/
def looseItems : Nat → Nat → Reader (List Node)
  | 0, _ => throw .malformed
  | steps + 1, depth => do
    if ← accept .item then
      let n ← nodeUnless .block [.item, .key, .value, .blockEnd] steps depth
      return n :: (← looseItems steps depth)
    return []
termination_by structural n => n

/-- Read the entries of a map up to the end of its block. -/
def blockEntries : Nat → Nat → Reader (List (Node × Node))
  | 0, _ => throw .malformed
  | steps + 1, depth => do
    if ← accept .key then
      let k ← nodeUnless .blockValue [.key, .value, .blockEnd] steps depth
      let v ← if ← accept .value then
          nodeUnless .blockValue [.key, .value, .blockEnd] steps depth
        else pure empty
      return (k, v) :: (← blockEntries steps depth)
    expect .blockEnd
    return []
termination_by structural n => n

/-- Read the items between square brackets; an item with a key is a map of one entry. -/
def flowItems (first : Bool) : Nat → Nat → Reader (List Node)
  | 0, _ => throw .malformed
  | steps + 1, depth => do
    if ← accept .listClose then return []
    if !first then expect .comma
    if ← accept .listClose then return []
    let n ← if ← accept .key then
        let k ← nodeUnless .flow [.value, .comma, .listClose] steps depth
        let v ← if ← accept .value then nodeUnless .flow [.comma, .listClose] steps depth
          else pure empty
        pure (.map .open [(k, v)])
      else node .flow steps depth
    return n :: (← flowItems false steps depth)
termination_by structural n => n

/-- Read the entries between curly brackets. -/
def flowEntries (first : Bool) : Nat → Nat → Reader (List (Node × Node))
  | 0, _ => throw .malformed
  | steps + 1, depth => do
    if ← accept .mapClose then return []
    if !first then expect .comma
    if ← accept .mapClose then return []
    let e ← if ← accept .key then
        let k ← nodeUnless .flow [.value, .comma, .mapClose] steps depth
        let v ← if ← accept .value then nodeUnless .flow [.comma, .mapClose] steps depth
          else pure empty
        pure (k, v)
      else pure (← node .flow steps depth, empty)
    return e :: (← flowEntries false steps depth)
termination_by structural n => n

end

/-- Read the rules in front of a document: at most one version, and each handle once. -/
def rules : Nat → Bool → List String → Reader Unit
  | 0, _, _ => throw .malformed
  | steps + 1, hasVersion, handles => do
    match ← peek with
    | some (.version major) =>
      if hasVersion || major != 1 then throw .malformed
      drop
      rules steps true handles
    | some (.tagRule handle start) =>
      if handles.contains handle then throw .malformed
      drop
      modify fun s => { s with handles := (handle, start) :: s.handles }
      rules steps hasVersion (handle :: handles)
    | some .otherRule =>
      drop
      rules steps hasVersion handles
    | _ => return ()

private def startsDocument : Option Token → Bool
  | some (.version _) | some (.tagRule ..) | some .otherRule | some .documentStart => true
  | _ => false

private def endsContent : Option Token → Bool
  | none | some .documentEnd => true
  | t => startsDocument t

/-- Read the node of the one document in a text, if there is a document. -/
def document : Reader (Option Node) := do
  let steps := 4 * (← get).tokens.length + 8
  let node := node .block steps maxDepth
  let root ← match ← peek with
    | none => return none
    | some t =>
      if startsDocument (some t) then
        rules steps false []
        expect .documentStart
        if endsContent (← peek) then pure empty else node
      else node
  let rest := (← get).tokens.dropWhile (· == .documentEnd)
  if rest.isEmpty then return some root else throw .malformed

end Reader

/-- The handles that every document has, with what they stand for. -/
def standardHandles : List (String × String) := [("!", "!"), ("!!", "tag:yaml.org,2002:")]

/-- The node of the one document in a text. -/
def ofText (text : String) : Except Flaw (Option Node) := do
  (Reader.document.run { tokens := ← tokens text, handles := standardHandles }).map (·.1)

end Node
end CodeAgent.Yaml
