import CodeAgent.Coercion
import CodeAgent.Fault
import CodeAgent.ToolCall.Basic

/-! The typed parameters of each tool. -/
namespace CodeAgent
open Coercion

/-- A field of a tool's parameters. A field with another name can be given under either; a field
with no default must be given. -/
structure ParameterField (α : Type) where
  name : String
  otherName : Option String := none
  isText : Bool := false
  read : Json → Except Refusal α
  default : Option α := none

namespace ParameterField
variable {α : Type}

/-- The key and the value under which a field is given: its other name goes first. -/
def given? (f : ParameterField α) (data : Json.Fields) : Option (String × Json) :=
  let under (key : String) : Option (String × Json) := (OrderedMap.get? data key).map (key, ·)
  (f.otherName.bind under).orElse fun _ => under f.name

/-- The value of a field, or the key to blame: the one it was given under, or its name. -/
def get (f : ParameterField α) (data : Json.Fields) : Except String α :=
  match f.given? data with
  | some (key, v) => match f.read v with
    | .ok a => .ok a
    | .error _ => .error key
  | none => match f.default with
    | some a => .ok a
    | none => .error f.name

/-- The keys of a field that holds text. -/
def textKeys (f : ParameterField α) : List String :=
  if f.isText then f.name :: f.otherName.toList else []

/-- A text that must be given. -/
def requiredText (name : String) : ParameterField String :=
  { name, isText := true, read := text }

/-- A truth value, false if it is not given. -/
def flag (name other : String) : ParameterField Bool :=
  { name, otherName := some other, read := truth, default := some false }

/-- The number of a line, if it is given. -/
def line (name : String) : ParameterField (Option Int) :=
  { name, read := optional integer, default := some none }

/-- A pattern for file names, if it is given. -/
def glob (name other : String) : ParameterField (Option String) :=
  { name, otherName := some other, isText := true, read := optional text, default := some none }

end ParameterField

/-- The parameters of a search in the contents of files. -/
structure SearchParameters where
  query : String
  path : String := "."
  caseSensitive : Bool := false
  wholeWord : Bool := false
  regex : Bool := false
  includePattern : Option String := none
  excludePattern : Option String := none
  deriving DecidableEq, Repr

/-- The parameters of a call, by the shape that its tool asks for. -/
inductive Parameters where
  | readFile (path : String) (startLine endLine : Option Int)
  | writeFile (path content : String)
  | listDir (path : String)
  | findByName (pattern : String)
  | search (request : SearchParameters)
  | searchCodebase (query : String)
  | none
  | todoAdd (content : String)
  | todoComplete (id : String)
  deriving DecidableEq, Repr

namespace Parameters
open ParameterField

def pathField := requiredText "path"
def contentField := requiredText "content"
def patternField := requiredText "pattern"
def queryField := requiredText "query"
def idField := requiredText "id"
def startField := line "start_line"
def endField := line "end_line"
def placeField : ParameterField String := { requiredText "path" with default := some "." }
def caseField := flag "case_sensitive" "caseSensitive"
def wordField := flag "whole_word" "wholeWord"
def regexField : ParameterField Bool := { flag "regex" "" with otherName := .none }
def includeField := glob "include_pattern" "includePattern"
def excludeField := glob "exclude_pattern" "excludePattern"

/-- The keys of a tool's text fields, in order. -/
def textKeys : Tool → List String
  | .readFile => pathField.textKeys
  | .writeFile => pathField.textKeys ++ contentField.textKeys
  | .listDir => pathField.textKeys
  | .searchFiles | .findByName => patternField.textKeys
  | .grep | .search => queryField.textKeys ++ placeField.textKeys ++ includeField.textKeys ++
      excludeField.textKeys
  | .searchCodebase => queryField.textKeys
  | .indexCodebase | .todoList => []
  | .todoAdd => contentField.textKeys
  | .todoComplete => idField.textKeys

/-- The parameters of a tool read from an object, or the key of the first field in order that is
missing or refused. Other keys do not count. -/
def read (tool : Tool) (data : Json.Fields) : Except String Parameters :=
  match tool with
  | .readFile => do
    let path ← pathField.get data
    let first ← startField.get data
    let last ← endField.get data
    return .readFile path first last
  | .writeFile => do
    let path ← pathField.get data
    let content ← contentField.get data
    return .writeFile path content
  | .listDir => do return .listDir (← pathField.get data)
  | .searchFiles | .findByName => do return .findByName (← patternField.get data)
  | .grep | .search => do
    let query ← queryField.get data
    let path ← placeField.get data
    let caseSensitive ← caseField.get data
    let wholeWord ← wordField.get data
    let regex ← regexField.get data
    let includePattern ← includeField.get data
    let excludePattern ← excludeField.get data
    return .search
      { query, path, caseSensitive, wholeWord, regex, includePattern, excludePattern }
  | .searchCodebase => do return .searchCodebase (← queryField.get data)
  | .indexCodebase | .todoList => return .none
  | .todoAdd => do return .todoAdd (← contentField.get data)
  | .todoComplete => do return .todoComplete (← idField.get data)

/-- The source text under a key of a call in place of the value, if there is one. -/
def withSource (call : ToolCall) (data : Json.Fields) (key : String) : Json.Fields :=
  match OrderedMap.get? call.rawText key with
  | some t => OrderedMap.put key (.str t) data
  | .none => data

/-- The parameters of a call with the source text of its text fields in place of their values. -/
def sourceData (tool : Tool) (call : ToolCall) : Json.Fields :=
  (textKeys tool).foldl (withSource call) call.parameters

/-- The typed parameters of a call. -/
def ofCall (call : ToolCall) : Except Fault (Tool × Parameters) :=
  match Tool.ofName? call.name with
  | .none => .error (Fault.unknownTool call.name)
  | some tool => match read tool (sourceData tool call) with
    | .ok p => .ok (tool, p)
    | .error key => .error (Fault.missingParameter call.name key)

private def ofInt? : Option Int → Json
  | .none => .null
  | some n => .int n

/-- The fields of parameters under their names. -/
def toFields : Parameters → Json.Fields
  | .readFile path first last =>
    [("path", .str path), ("start_line", ofInt? first), ("end_line", ofInt? last)]
  | .writeFile path content => [("path", .str path), ("content", .str content)]
  | .listDir path => [("path", .str path)]
  | .findByName pattern => [("pattern", .str pattern)]
  | .search r => [("query", .str r.query), ("path", .str r.path),
      ("case_sensitive", .bool r.caseSensitive), ("whole_word", .bool r.wholeWord),
      ("regex", .bool r.regex), ("include_pattern", Json.ofOption r.includePattern),
      ("exclude_pattern", Json.ofOption r.excludePattern)]
  | .searchCodebase query => [("query", .str query)]
  | .none => []
  | .todoAdd content => [("content", .str content)]
  | .todoComplete id => [("id", .str id)]

end Parameters
end CodeAgent
