import CodeAgent.Record

/-! Outlines of files, the flat lists of symbols they make, and both as JSON. -/
namespace CodeAgent

/-- What a symbol is. -/
inductive SymbolKind where
  | file
  | moduleScope
  | nameScope
  | package
  | cls
  | method
  | property
  | field
  | constructor
  | enumeration
  | interface
  | function
  | var
  | constant
  | struct
  | string
  | typeParameter
  | key
  deriving DecidableEq, Repr

namespace SymbolKind

/-- The name of a kind. -/
def text : SymbolKind → String
  | file => "File"
  | moduleScope => "Module"
  | nameScope => "Namespace"
  | package => "Package"
  | cls => "Class"
  | method => "Method"
  | property => "Property"
  | field => "Field"
  | constructor => "Constructor"
  | enumeration => "Enum"
  | interface => "Interface"
  | function => "Function"
  | var => "Variable"
  | constant => "Constant"
  | struct => "Struct"
  | string => "String"
  | typeParameter => "TypeParameter"
  | key => "Key"

/-- Every kind. -/
def all : List SymbolKind :=
  [file, moduleScope, nameScope, package, cls, method, property, field, constructor, enumeration,
    interface, function, var, constant, struct, string, typeParameter, key]

/-- The kind of a given name. -/
def ofText? (s : String) : Option SymbolKind := all.find? (·.text == s)

end SymbolKind

/-- A symbol of an outline, with the lines it spans and the symbols inside it. -/
inductive OutlineSymbol where
  | mk (name : String) (kind : SymbolKind) (detail : Option String) (startLine endLine : Int)
      (children : List OutlineSymbol)
  deriving Repr

namespace OutlineSymbol

/-- The name. -/
def name : OutlineSymbol → String
  | mk n .. => n

/-- The kind. -/
def kind : OutlineSymbol → SymbolKind
  | mk _ k .. => k

/-- What is said about the symbol. -/
def detail : OutlineSymbol → Option String
  | mk _ _ d .. => d

/-- The first line. -/
def startLine : OutlineSymbol → Int
  | mk _ _ _ s .. => s

/-- The last line. -/
def endLine : OutlineSymbol → Int
  | mk _ _ _ _ e _ => e

/-- The symbols directly inside. -/
def children : OutlineSymbol → List OutlineSymbol
  | mk _ _ _ _ _ cs => cs

mutual

/-- A symbol as an object. -/
def toJson : OutlineSymbol → Json
  | mk name kind detail startLine endLine children =>
    .obj [("name", .str name), ("kind", .str kind.text), ("detail", Json.ofOption detail),
      ("start_line", .int startLine), ("end_line", .int endLine),
      ("children", .arr (listToJson children))]

/-- Symbols as objects. -/
def listToJson : List OutlineSymbol → List Json
  | [] => []
  | s :: ss => toJson s :: listToJson ss

end

mutual

/-- The levels of a symbol and the symbols inside it. -/
def depth : OutlineSymbol → Nat
  | mk _ _ _ _ _ children => depthOfList children + 1

/-- The most levels of some symbols. -/
def depthOfList : List OutlineSymbol → Nat
  | [] => 0
  | s :: ss => max (depth s) (depthOfList ss)

end

/-- Outlines with more levels are neither stored nor read. -/
def maxDepth : Nat := 255

/-- The kind that a value names. -/
def readKind (v : Json) : Checked SymbolKind :=
  match v.str?.bind SymbolKind.ofText? with
  | some k => .ok k
  | none => .refused .outOfList

/-- The symbol that an object describes; the first argument bounds its levels. -/
def readWithin : Nat → Json → Checked OutlineSymbol
  | 0, _ => .refused .tooNested
  | levels + 1, .obj fields =>
    mk <$> .field fields "name" .text <*> .field fields "kind" readKind <*>
      .fieldOr none fields "detail" .optionalText <*> .field fields "start_line" .integer <*>
      .field fields "end_line" .integer <*>
      .fieldOr [] fields "children" (.list (readWithin levels))
  | _, _ => .refused .objectType

/-- The symbol that an object describes. -/
def read (v : Json) : Checked OutlineSymbol := readWithin maxDepth v

end OutlineSymbol

/-- A symbol of the index: its outline's parent is known by name only. -/
structure IndexedSymbol where
  name : String
  parent : Option String := none
  kind : String
  detail : Option String := none
  file : String
  startLine : Int
  endLine : Int
  deriving DecidableEq, Repr

namespace IndexedSymbol

/-- Symbols of one name and kind in one file count as one in results. -/
def identity (s : IndexedSymbol) : String :=
  s.name ++ ":" ++ s.kind ++ ":" ++ s.file

/-- A symbol as an object. -/
def toJson (s : IndexedSymbol) : Json :=
  .obj [("name", .str s.name), ("parent_name", Json.ofOption s.parent), ("kind", .str s.kind),
    ("detail", Json.ofOption s.detail), ("file_path", .str s.file),
    ("start_line", .int s.startLine), ("end_line", .int s.endLine)]

/-- The symbol that an object describes. -/
def read : Json → Checked IndexedSymbol
  | .obj fields =>
    mk <$> .field fields "name" .text <*> .fieldOr none fields "parent_name" .optionalText <*>
      .field fields "kind" .text <*> .fieldOr none fields "detail" .optionalText <*>
      .field fields "file_path" .text <*> .field fields "start_line" .integer <*>
      .field fields "end_line" .integer
  | _ => .refused .objectType

end IndexedSymbol

namespace OutlineSymbol

mutual

/-- A symbol and the symbols inside it, each after the one that it stands in. -/
def flatten (file : String) (parent : Option String) : OutlineSymbol → List IndexedSymbol
  | mk name kind detail startLine endLine children =>
    { name, parent, kind := kind.text, detail, file, startLine, endLine } ::
      flattenList file (some name) children

/-- The symbols of an outline in order, each after the one that it stands in. -/
def flattenList (file : String) (parent : Option String) : List OutlineSymbol → List IndexedSymbol
  | [] => []
  | s :: ss => flatten file parent s ++ flattenList file parent ss

end

end OutlineSymbol
end CodeAgent
