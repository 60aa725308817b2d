import CodeAgent.Config.Settings
import CodeAgent.Symbols.Snapshot
import CodeAgent.Workspace.Walk

/-! Keeping an index: passes over a workspace that read only the files that changed, and snapshots
that outlive the process. -/
namespace CodeAgent

/-- How outlines are had: for the file at a place of a file system. -/
abbrev Outliner := FileSystem → Place → Except Failure (List OutlineSymbol)

/-- An index with the root of the workspace it belongs to, and whether a pass has been made. -/
structure SymbolIndex where
  data : IndexData := {}
  root : Option Place := none
  passed : Bool := false
  deriving Inhabited

/-- What a pass finds about one file. -/
structure FileScan where
  path : String
  fingerprint : Fingerprint
  symbols : List IndexedSymbol
  outline : List OutlineSymbol
  outlined : Bool

namespace SymbolIndex

/-- The extensions of the files that are indexed. -/
def extensions : List String :=
  ["ts", "tsx", "js", "jsx", "mjs", "cjs", "mts", "cts", "rs", "py", "go", "c", "cpp", "h", "hpp",
    "cs", "java", "md", "json", "yml", "yaml", "toml", "sh", "sql"]

/-- The fingerprint of a file. -/
def fingerprint? : Node → Option Fingerprint
  | .file content modified => some ⟨modified, content.length⟩
  | .folder _ => none

/-- Look at one file: what is known of it stays if its fingerprint is the same, or if it has no
outline now. -/
def scan (outliner : Outliner) (fs : FileSystem) (previous : IndexData) (place : Place)
    (path : String) : Option FileScan := do
  let fingerprint ← fingerprint? (← fs.root.at? place)
  let symbols? := previous.symbols.get? path
  let outline := (previous.outlines.get? path).getD []
  let stale : FileScan := ⟨path, fingerprint, symbols?.getD [], outline, true⟩
  if symbols?.isSome && previous.files.get? path = some fingerprint then
    some { stale with outlined := false }
  else match outliner fs place with
    | .ok outline =>
      some ⟨path, fingerprint, OutlineSymbol.flattenList path none outline, outline, true⟩
    | .error _ => some stale

/-- The index that some scans make. -/
def assemble (scans : List FileScan) : IndexData :=
  IndexData.build (scans.map fun s => (s.path, s.symbols)) (scans.map fun s => (s.path, s.outline))
    (scans.map fun s => (s.path, s.fingerprint))

/-- The walk over the files to index. -/
def walk (settings : Settings) (root : Place) : Walk :=
  { root, extensions := some extensions, skipped := [settings.stateFolder] }

/-- What the files of a workspace look like now. -/
def scanAll (outliner : Outliner) (settings : Settings) (fs : FileSystem) (previous : IndexData)
    (root : Place) : Except Breakdown (List FileScan) := do
  let w := walk settings root
  let places ← w.files fs.root
  return places.filterMap fun p => scan outliner fs previous p (w.relativePlace p)

/-- The index that a pass over a root starts from. -/
def previousFor (index : SymbolIndex) (root : Place) : IndexData :=
  if index.root = some root then index.data else {}

end SymbolIndex

/-- A file system and an index, as the passes change them. -/
structure IndexState where
  files : FileSystem
  index : SymbolIndex

/-- An operation on a file system and an index. -/
abbrev IndexAction := ExceptT Failure (StateM IndexState)

namespace SymbolIndex

/-- Put a file in the place of another one. -/
def replaceFile (fs : FileSystem) (source target : Path) : Except FileError FileSystem := do
  match ← fs.existing source with
  | .folder _ => throw (.refused .isAFolder source)
  | .file content modified =>
    let spot ← fs.look target
    let sourceSpot ← fs.look source
    if (spot.node?.map Node.isFolder).getD false then throw (.refused .isAFolder target)
    return { fs with root := (fs.root.remove sourceSpot.place).put spot.place (.file content modified) }

/-- Write a snapshot to a draft that then takes its place. -/
def writeSnapshot (paths : StatePaths) (blob : Text.Bytes) : FileAction Unit := do
  FileAction.writeFile paths.snapshotDraft blob
  FileAction.change fun fs => replaceFile fs paths.snapshotDraft paths.snapshot

/-- Store an index. That the file system refuses is no failure. -/
def store (paths : StatePaths) (data : IndexData) : IndexAction Unit := do
  let blob ← liftExcept (Snapshot.encode data)
  let state ← get
  let (outcome, files) := (writeSnapshot paths blob).run.run state.files
  set { state with files }
  match outcome with
  | .error .nullCharacter => throw (.file .nullCharacter)
  | _ => pure ()
where
  liftExcept {α : Type} (e : Except Failure α) : IndexAction α := ExceptT.mk (pure e)

/-- One pass over the workspace at a root: the paths of the files whose outlines were asked for. The
new index is in place before it is stored. -/
def pass (outliner : Outliner) (settings : Settings) (root : Place) : IndexAction (List String) := do
  let state ← get
  match scanAll outliner settings state.files (state.index.previousFor root) root with
  | .error b => throw (.breakdown b)
  | .ok scans =>
    let data := assemble scans
    set { state with index := { data, root := some root, passed := true } }
    store (settings.statePaths root.path) data
    return (scans.filter (·.outlined)).map (·.path)

/-- Load the snapshot of a root: whether there was one that could be read. -/
def loadSnapshot (settings : Settings) (root : Place) : IndexAction Bool := do
  let state ← get
  let path := (settings.statePaths root.path).snapshot
  match state.files.isThere path with
  | .error e => throw (.file e)
  | .ok false => return false
  | .ok true => match state.files.readBytes path with
    | .error _ => return false
    | .ok blob => match Snapshot.decode blob with
      | .error (.fault _) => return false
      | .error e => throw e
      | .ok data =>
        set { state with index := { state.index with data, root := some root } }
        return true

/-- Load the snapshot of a root, and make a pass. -/
def loadOrPass (outliner : Outliner) (settings : Settings) (root : Place) :
    IndexAction (List String) := do
  let _ ← loadSnapshot settings root
  pass outliner settings root

end SymbolIndex
end CodeAgent
