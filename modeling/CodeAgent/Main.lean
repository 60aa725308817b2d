import CodeAgent.CommandLine.Run

/-! The program on a real machine: it reads the files that it may need, runs, and writes those that
changed. It has no network. -/
open CodeAgent CodeAgent.Text

/-- The entries of a folder, by their names. -/
def inOrder (entries : List (String × Node)) : Node :=
  .folder (entries.foldl (fun es (name, n) => Node.insertEntry name n es) [])

/-- The node at an entry of a folder. -/
partial def readEntry (e : IO.FS.DirEntry) : IO Node := do
  if ← e.path.isDir then
    return inOrder (← (← e.path.readDir).toList.mapM fun f => return (f.fileName, ← readEntry f))
  let content ← IO.FS.readBinFile e.path
  return .file content.toList (← e.path.metadata).modified.sec

/-- The node at a place, if there is one. -/
def readPlace? (place : Place) : IO (Option Node) := do
  let path := (← IO.currentDir) / place.text
  if ← path.isDir then
    return some (inOrder (← (← path.readDir).toList.mapM fun f => return (f.fileName, ← readEntry f)))
  if ← path.pathExists then
    return some (.file (← IO.FS.readBinFile path).toList (← path.metadata).modified.sec)
  return none

/-- Take the node at a path into a file system. -/
def take (fs : FileSystem) (p : Path) : IO FileSystem := do
  match fs.resolve p with
  | .error _ => return fs
  | .ok place => match ← readPlace? place with
    | some n => return { fs with root := fs.root.put place n }
    | none => return fs

/-- The files in a node, with their places. -/
partial def filesIn (place : Place) : Node → List (Place × Bytes)
  | .file content _ => [(place, content)]
  | .folder es => es.flatMap fun (name, n) => filesIn (place ++ [name]) n

/-- Write the files that differ, and remove those that are gone. -/
def writeChanges (before after : Node) : IO Unit := do
  let old := filesIn [] before
  let new := filesIn [] after
  for (place, content) in new do
    if !old.contains (place, content) then
      IO.FS.createDirAll (Place.text place.dropLast)
      IO.FS.writeBinFile (Place.text place) ⟨content.toArray⟩
  for (place, _) in old do
    if !new.any (·.1 == place) then IO.FS.removeFile (Place.text place)

/-- Run the program with its arguments. -/
def main (arguments : List String) : IO UInt32 := do
  let current := Path.ofText (← IO.currentDir).toString
  let home := Path.ofText ((← IO.getEnv "HOME").getD "/")
  let empty : FileSystem :=
    { root := .folder [], current := current.names, home := home.names, now := 0 }
  let named := arguments.map Path.ofText
  let files ← ([current, home.child ".cognitive"] ++ named).foldlM take empty
  let environment ← Settings.fieldNames.filterMapM fun field => do
    let name := Settings.variableName field
    return (← IO.getEnv name).map fun v => (name, v)
  let width := ((← IO.getEnv "COLUMNS").bind (·.toNat?)).getD 80
  let identifiers ← IO.rand 0 999999999999
  let world : ServiceWorld :=
    { bench := { files, index := {}, identifiers }, network := { responses := [.unreachable "no network"] } }
  let (outcome, after) :=
    CommandLine.run { environment, width } arguments world
  writeChanges files.root after.bench.files.root
  ( ← IO.getStdout).putStr outcome.output
  match outcome.failure with
  | some e => IO.eprintln (CommandLine.failureText e)
  | none => pure ()
  return outcome.code.toUInt32
