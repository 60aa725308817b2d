import CodeAgent.Text.LetterCase
import CodeAgent.Symbols.Outline
import CodeAgent.Text.Blank
import CodeAgent.Text.Line
import CodeAgent.Text.Utf8

/-! The languages whose syntax trees have outlines. -/
namespace CodeAgent
open CodeAgent.Text

/-- A language with a grammar for syntax trees. -/
inductive Language where
  | javascript
  | typescript
  | tsx
  | rust
  | go
  | java
  | cSharp
  | c
  | cpp
  | bash
  deriving DecidableEq, Repr

namespace Language

/-- The name of a language. -/
def name : Language → String
  | javascript => "javascript"
  | typescript => "typescript"
  | tsx => "tsx"
  | rust => "rust"
  | go => "go"
  | java => "java"
  | cSharp => "c_sharp"
  | c => "c"
  | cpp => "cpp"
  | bash => "bash"

/-- Every language. -/
def all : List Language :=
  [javascript, typescript, tsx, rust, go, java, cSharp, c, cpp, bash]

/-- The language of a given name. -/
def ofName? (s : String) : Option Language := all.find? (·.name == s)

/-- The extensions of the files of a language. -/
def extensions : Language → List String
  | javascript => ["js", "jsx", "mjs", "cjs"]
  | typescript => ["ts", "mts", "cts"]
  | tsx => ["tsx"]
  | rust => ["rs"]
  | go => ["go"]
  | java => ["java"]
  | cSharp => ["cs"]
  | c => ["c", "h"]
  | cpp => ["cpp", "cc", "hpp"]
  | bash => ["sh"]

/-- The language of the files with an extension, in any case. -/
def ofExtension? (extension : String) : Option Language :=
  all.find? (·.extensions.contains (Text.lower extension))

end Language

/-! The outline of a syntax tree: the nodes that the rules of a language recognise, each below the
nearest such node above it. -/

/-- A node of a syntax tree: its type, the field of its parent that it stands in, whether it is named,
its source text, the rows of its first and last characters, and its children. -/
inductive SyntaxNode where
  | mk (type : String) (field : Option String) (named : Bool) (source : Option Bytes)
      (firstRow lastRow : Nat) (children : List SyntaxNode)

namespace SyntaxNode

/-- The type. -/
def type : SyntaxNode → String
  | mk t .. => t

/-- The field of the parent that the node stands in. -/
def field : SyntaxNode → Option String
  | mk _ f .. => f

/-- The node is named. -/
def isNamed : SyntaxNode → Bool
  | mk _ _ n .. => n

/-- The children. -/
def children : SyntaxNode → List SyntaxNode
  | mk _ _ _ _ _ _ cs => cs

/-- The words of the source text of a node, if there are any. -/
def text? : SyntaxNode → Option String
  | mk _ _ _ source .. => do
    let s := String.intercalate " " ((words (Utf8.decode (← source))).map String.ofList)
    if s == "" then none else some s

/-- The first child in a field. -/
def child? (n : SyntaxNode) (field : String) : Option SyntaxNode :=
  n.children.find? (·.field == some field)

/-- The text of the first child in a field. -/
def childText? (n : SyntaxNode) (field : String) : Option String :=
  (n.child? field).bind text?

/-- The types of the nodes that name a function at the end of a chain of declarators. -/
def nameTypes : List String :=
  ["identifier", "field_identifier", "qualified_identifier", "destructor_name", "operator_name"]

mutual

/-- The name that a declarator declares: its own text if it is a name, or else what the declarator in
it declares; without one, its first named child counts. -/
def declaredName? : SyntaxNode → Option String
  | mk type field named source first last children =>
    if nameTypes.contains type then text? (mk type field named source first last children)
    else match declaratorName? children with
      | some found => found
      | none => firstName? children

/-- What the declarator among some nodes declares, if there is one. -/
def declaratorName? : List SyntaxNode → Option (Option String)
  | [] => none
  | n :: ns => if n.field == some "declarator" then some (declaredName? n) else declaratorName? ns

/-- What the first named node declares. -/
def firstName? : List SyntaxNode → Option String
  | [] => none
  | n :: ns => if n.isNamed then declaredName? n else firstName? ns

end

end SyntaxNode

/-- How a node of some type becomes a symbol. -/
inductive SymbolRule where
  /-- It has a name. -/
  | named (kind : SymbolKind)
  /-- It has a name and a body. -/
  | withBody (kind : SymbolKind)
  /-- It gives a name to a function. -/
  | functionValue
  /-- It implements a type, perhaps for a trait. -/
  | implementation
  /-- It names a structure or an interface. -/
  | typeName
  /-- It declares a function. -/
  | declarator

namespace SymbolRule

/-- The types of the values that are functions. -/
def functionTypes : List String :=
  ["arrow_function", "function", "function_expression", "generator_function"]

private def nameIn (n : SyntaxNode) : Option String := n.childText? "name"

/-- The name and the kind of the symbol that a rule finds in a node. -/
def resolve? (rule : SymbolRule) (n : SyntaxNode) : Option (String × SymbolKind) :=
  match rule with
  | named kind => (nameIn n).map (·, kind)
  | withBody kind => if (n.child? "body").isSome then (nameIn n).map (·, kind) else none
  | functionValue => do
    let value ← n.child? "value"
    let name ← n.child? "name"
    if functionTypes.contains value.type && name.type == "identifier" then
      name.text?.map (·, .function)
    else none
  | implementation => do
    let target ← n.childText? "type"
    match n.childText? "trait" with
    | some trait => some ("impl " ++ trait ++ " for " ++ target, .nameScope)
    | none => some ("impl " ++ target, .nameScope)
  | typeName => do
    let kind ← match (n.child? "type").map SyntaxNode.type with
      | some "struct_type" => some SymbolKind.struct
      | some "interface_type" => some SymbolKind.interface
      | _ => none
    (nameIn n).map (·, kind)
  | declarator => ((n.child? "declarator").bind SyntaxNode.declaredName?).map (·, .function)

/-- Functions directly inside what the rule finds are methods. -/
def holdsMethods : SymbolRule → Bool
  | named kind | withBody kind => [SymbolKind.cls, .interface, .struct].contains kind
  | implementation => true
  | functionValue | typeName | declarator => false

end SymbolRule

namespace Language

private def scriptRules : List (String × SymbolRule) :=
  [("class_declaration", .named .cls), ("abstract_class_declaration", .named .cls),
    ("interface_declaration", .named .interface), ("enum_declaration", .named .enumeration),
    ("internal_module", .named .nameScope), ("function_declaration", .named .function),
    ("generator_function_declaration", .named .function), ("method_definition", .named .method),
    ("variable_declarator", .functionValue)]

private def recordRules : List (String × SymbolRule) :=
  [("struct_specifier", .withBody .struct), ("union_specifier", .withBody .struct),
    ("enum_specifier", .withBody .enumeration), ("function_definition", .declarator)]

/-- The rules of a language, by the types of nodes. -/
def rules : Language → List (String × SymbolRule)
  | javascript | typescript | tsx => scriptRules
  | rust => [("struct_item", .named .struct), ("union_item", .named .struct),
      ("enum_item", .named .enumeration), ("trait_item", .named .interface),
      ("impl_item", .implementation), ("function_item", .named .function),
      ("function_signature_item", .named .function), ("mod_item", .named .moduleScope)]
  | go => [("function_declaration", .named .function), ("method_declaration", .named .method),
      ("type_spec", .typeName)]
  | java => [("class_declaration", .named .cls), ("record_declaration", .named .cls),
      ("interface_declaration", .named .interface),
      ("annotation_type_declaration", .named .interface), ("enum_declaration", .named .enumeration),
      ("method_declaration", .named .method), ("constructor_declaration", .named .method)]
  | cSharp => [("namespace_declaration", .named .nameScope),
      ("file_scoped_namespace_declaration", .named .nameScope), ("class_declaration", .named .cls),
      ("record_declaration", .named .cls), ("struct_declaration", .named .struct),
      ("interface_declaration", .named .interface), ("enum_declaration", .named .enumeration),
      ("method_declaration", .named .method), ("constructor_declaration", .named .method)]
  | c => recordRules
  | cpp => recordRules ++
      [("class_specifier", .withBody .cls), ("namespace_definition", .named .nameScope)]
  | bash => [("function_definition", .named .function)]

/-- The rule of a language for nodes of a type. -/
def rule? (language : Language) (type : String) : Option SymbolRule :=
  (language.rules.find? (·.1 == type)).map (·.2)

/-- The rule that finds a symbol in a node, with its name and kind. -/
def resolve? (language : Language) (n : SyntaxNode) : Option (SymbolRule × String × SymbolKind) := do
  let rule ← language.rule? n.type
  (rule.resolve? n).map (rule, ·)

end Language

/-- The most characters in what is said about a symbol. -/
def maxDetailLength : Nat := 160

/-- The line of a row as it is shown, if there is anything on it. -/
def declarationLine (ls : List (List Char)) (row : Nat) : Option String :=
  match (trimChars (ls[row]?.getD [])).take maxDetailLength with
  | [] => none
  | cs => some (String.ofList cs)

namespace SyntaxNode

mutual

/-- The symbols in a node and below it. Functions are methods inside some nodes. -/
def symbolsAt (language : Language) (ls : List (List Char)) (inMethods : Bool) :
    SyntaxNode → List OutlineSymbol
  | mk type field named source firstRow lastRow children =>
    let n := mk type field named source firstRow lastRow children
    if !named then []
    else match language.resolve? n with
      | none => symbolsAmong language ls inMethods children
      | some (rule, name, kind) =>
        let kind := if kind = .function && inMethods then .method else kind
        [.mk name kind (declarationLine ls firstRow) (firstRow + 1 : Nat) (lastRow + 1 : Nat)
          (symbolsAmong language ls rule.holdsMethods children)]

/-- The symbols in some nodes and below them. -/
def symbolsAmong (language : Language) (ls : List (List Char)) (inMethods : Bool) :
    List SyntaxNode → List OutlineSymbol
  | [] => []
  | n :: ns => symbolsAt language ls inMethods n ++ symbolsAmong language ls inMethods ns

end

/-- The outline of a syntax tree over its source; the root itself is no symbol. -/
def outline (root : SyntaxNode) (language : Language) (source : Bytes) : List OutlineSymbol :=
  symbolsAmong language (lines (Utf8.decode source)) false root.children

end SyntaxNode
end CodeAgent
