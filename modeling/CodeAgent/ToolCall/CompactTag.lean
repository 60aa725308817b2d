import CodeAgent.ToolCall.Markup
import CodeAgent.Text.WordChar

/-! Tool calls written as one tag that is named after the tool. -/
namespace CodeAgent.CompactTag
open CodeAgent.Text

/-- A character of a tag's name after its first one. -/
def isNameChar (c : Char) : Bool :=
  isWordChar c || c == '.' || c == '-'

/-- A character of an attribute's key. -/
def isKeyChar (c : Char) : Bool :=
  isNameChar c || c == ':'

/-- A character that may start a tag's name. -/
def isNameStart (c : Char) : Bool :=
  c == '_' || (c.toNat < 128 && c.isAlpha)

/-- An attribute: its key and the text between its quotes. -/
structure Attribute where
  key : List Char
  value : List Char
  deriving DecidableEq, Repr

/-- The text between quotes of one kind, and the text after the closing one. -/
def quotedValue? (cs : List Char) : Option (List Char × List Char) :=
  let upTo (quote : Char) (value : List Char) : Option (List Char × List Char) :=
    match value.dropWhile (· != quote) with
    | [] => none
    | _ :: rest => some (value.takeWhile (· != quote), rest)
  match cs with
  | '"' :: value => upTo '"' value
  | '\'' :: value => upTo '\'' value
  | _ => none

/-- An attribute at the start of a text. -/
def attribute? (cs : List Char) : Option (Attribute × List Char) := do
  let key := cs.takeWhile isKeyChar
  if key.isEmpty then none
  else
    let rest ← dropStart? ['='] ((cs.dropWhile isKeyChar).dropWhile isBlank)
    let (value, after) ← quotedValue? (rest.dropWhile isBlank)
    some (⟨key, value⟩, after)

/-- White space and an attribute at the start of a text. -/
def spacedAttribute? : List Char → Option (Attribute × List Char)
  | [] => none
  | c :: cs => if isBlank c then attribute? (cs.dropWhile isBlank) else none

/-- As many attributes as follow one another, with white space before each, and the text after
them. The first argument bounds their number. -/
def attributes : Nat → List Char → List Attribute × List Char
  | 0, cs => ([], cs)
  | n + 1, cs =>
    match spacedAttribute? cs with
    | none => ([], cs)
    | some (a, rest) =>
      let (more, after) := attributes n rest
      (a :: more, after)

/-- A tag: its name, its attributes, and the text that they were read from. -/
structure Tag where
  name : List Char
  attributes : List Attribute
  source : List Char

/-- A tag at the start of a text. -/
def tag? : List Char → Option (Tag × List Char)
  | '<' :: c :: cs =>
    if isNameStart c then
      let name := c :: cs.takeWhile isNameChar
      let rest := cs.dropWhile isNameChar
      let (found, after) := attributes rest.length rest
      let source := rest.take (rest.length - after.length)
      let ending := after.dropWhile isBlank
      match ending with
      | '/' :: '>' :: beyond => some (⟨name, found, source⟩, beyond)
      | '>' :: beyond => some (⟨name, found, source⟩, beyond)
      | _ => none
    else none
  | _ => none

/-- The attributes that a search finds in a text, from left to right. -/
def scanAttributes (cs : List Char) : List Attribute :=
  (findEach attribute? 0 cs).map (·.2)

/-- The keys and decoded values of a tag's attributes. -/
def Tag.values (t : Tag) : List (String × List Char) :=
  (scanAttributes t.source).map fun a => (String.ofList a.key, Markup.unescape a.value)

/-- The calls written as compact tags, with their offsets. -/
def extract (cs : List Char) : List (Nat × ToolCall) :=
  Markup.callsOf (fun t => String.ofList t.name) Tag.values (findEach tag? 0 cs)

end CodeAgent.CompactTag
