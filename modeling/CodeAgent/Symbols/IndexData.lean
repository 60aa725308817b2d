import CodeAgent.Symbols.Outline

/-! The index of a workspace: the symbols and the outline of each file, and how the file looked when
they were read. -/
namespace CodeAgent

/-- How a file looked: the second of its last change, and its size. -/
structure Fingerprint where
  modified : Int
  size : Int
  deriving DecidableEq, Repr

namespace Fingerprint

/-- A fingerprint as an object. -/
def toJson (f : Fingerprint) : Json :=
  .obj [("last_modified", .int f.modified), ("size", .int f.size)]

/-- The fingerprint that an object describes. -/
def read : Json → Checked Fingerprint
  | .obj fields => mk <$> .field fields "last_modified" .integer <*> .field fields "size" .integer
  | _ => .refused .objectType

end Fingerprint

/-- An index. All four parts are in order of paths. -/
structure IndexData where
  symbols : OrderedMap (List IndexedSymbol) := []
  flat : List IndexedSymbol := []
  outlines : OrderedMap (List OutlineSymbol) := []
  files : OrderedMap Fingerprint := []
  deriving Inhabited

namespace IndexData

/-- The paths in order. -/
def sortedPaths (files : OrderedMap Fingerprint) : List String :=
  files.keys.mergeSort fun a b => decide (a ≤ b)

/-- Assemble an index: its files are those with a fingerprint. -/
def build (symbols : OrderedMap (List IndexedSymbol)) (outlines : OrderedMap (List OutlineSymbol))
    (files : OrderedMap Fingerprint) : IndexData :=
  let paths := sortedPaths files
  let ordered := paths.map fun p => (p, (symbols.get? p).getD [])
  { symbols := ordered
    flat := ordered.flatMap (·.2)
    outlines := paths.filterMap fun p => (outlines.get? p).map (p, ·)
    files := paths.filterMap fun p => (files.get? p).map (p, ·) }

/-- A map as an object. -/
def mapJson {α : Type} (f : α → Json) (m : OrderedMap α) : Json :=
  .obj (m.map fun (k, a) => (k, f a))

/-- An index as an object. -/
def toJson (d : IndexData) : Json :=
  .obj [("file_symbols", mapJson (fun ss => .arr (ss.map IndexedSymbol.toJson)) d.symbols),
    ("flat_symbols", .arr (d.flat.map IndexedSymbol.toJson)),
    ("file_outline_cache", mapJson (fun ss => .arr (OutlineSymbol.listToJson ss)) d.outlines),
    ("file_metadata", mapJson Fingerprint.toJson d.files)]

/-- The index that an object describes, as it stands there. -/
def read : Json → Checked IndexData
  | .obj fields =>
    mk <$> .fieldOr [] fields "file_symbols" (.map (.list IndexedSymbol.read)) <*>
      .fieldOr [] fields "flat_symbols" (.list IndexedSymbol.read) <*>
      .fieldOr [] fields "file_outline_cache" (.map (.list OutlineSymbol.read)) <*>
      .fieldOr [] fields "file_metadata" (.map Fingerprint.read)
  | _ => .refused .objectType

/-- Put the parts of an index in order, and its flat list in keeping with them. -/
def normal (d : IndexData) : IndexData := build d.symbols d.outlines d.files

end IndexData
end CodeAgent
