import CodeAgent.Agent.Event
import CodeAgent.Symbols.Indexer
import CodeAgent.Symbols.Search
import CodeAgent.Text.Line
import CodeAgent.Todo
import CodeAgent.Workspace.Search

/-! Running tool calls: what each tool does to the files and the index, and what it answers. -/
namespace CodeAgent

/-- What the tools work on: the files, the index, and how many identifiers were given out. -/
structure Workbench extends IndexState where
  identifiers : Nat := 0

/-- An operation on what the tools work on; what it did before it failed stays done. -/
abbrev ToolAction := ExceptT Failure (StateM Workbench)

namespace Workbench

/-- The next identifier. -/
def newIdentifier : StateM Workbench String := do
  let bench ← get
  set { bench with identifiers := bench.identifiers + 1 }
  return identifier (bench.identifiers + 1)

end Workbench

namespace ToolAction
variable {α : Type}

/-- An outcome that is known. -/
def ofExcept (e : Except Failure α) : ToolAction α := ExceptT.mk (pure e)

/-- An operation on the files; its errors are reported as a function says. -/
def onFiles (report : FileError → Failure) (a : FileAction α) : ToolAction α :=
  ExceptT.mk do
    let bench ← get
    let (outcome, files) := a.run.run bench.files
    set { bench with files }
    return outcome.mapError report

/-- An operation on the files and the index; its failures are reported as a function says. -/
def onIndex (report : Failure → Failure) (a : IndexAction α) : ToolAction α :=
  ExceptT.mk do
    let bench ← get
    let (outcome, state) := a.run.run bench.toIndexState
    set { bench with toIndexState := state }
    return outcome.mapError report

end ToolAction

/-- What the tools need besides: the settings, the open workspace, and how outlines are had. -/
structure Toolbox where
  settings : Settings
  workspace : Option Path := none
  outliner : Outliner

namespace Toolbox

/-- What a tool reports of an error of the file system. -/
def fileFault (tool : String) (p : Path) (e : FileError) : Failure :=
  .fault (if e.isMissing then Fault.notFound tool ("File not found: " ++ p.text)
    else Fault.fileFailed tool p.text e.text)

/-- What a tool reports of a failure: errors of the file system and unusable values, for which a
reason is given, are reported for the path that the tool works on, and all else is passed on. -/
def report (tool reason : String) (p : Path) : Failure → Failure
  | .file e => fileFault tool p e
  | .breakdown .badValue => .fault (Fault.fileFailed tool p.text reason)
  | e => e

/-- The path that a tool is given, seen from the workspace. -/
def pathOf (box : Toolbox) (text : String) : Path :=
  match box.workspace with
  | none => Path.ofText text
  | some root => root.join (Path.ofText text)

/-- The open workspace, which a tool needs. -/
def needWorkspace (box : Toolbox) (tool : String) : Except Failure Path :=
  match box.workspace with
  | some root => .ok root
  | none => .error (.fault (Fault.noWorkspace tool))

/-- The names of the folders that no search enters. -/
def skipped (box : Toolbox) : List String := [box.settings.stateFolder]

private def listText {α : Type} (toJson : α → Json) (items : List α) : String :=
  Json.write .line (.arr (items.map toJson))

/-- The lines of a file. -/
def readFile (box : Toolbox) (fs : FileSystem) (path : String) (first last : Option Int) :
    Except Failure String := do
  let p := box.pathOf path
  let content ← (fs.readText p).mapError (fileFault Tool.readFile.name p)
  return Text.lineRange content first last

/-- The entries of a folder. -/
def listDir (box : Toolbox) (fs : FileSystem) (path : String) : Except Failure String := do
  let p := box.pathOf path
  let entries ← (listFolder fs p).mapError (fileFault Tool.listDir.name p)
  return listText FolderEntry.toJson entries

/-- The files of the workspace whose names fit a pattern. -/
def findByName (box : Toolbox) (fs : FileSystem) (pattern : String) : Except Failure String := do
  let root ← box.needWorkspace Tool.findByName.name
  let found := do
    findFiles fs (← nameTest pattern) root box.skipped box.settings.maxSearchResults.toNat
  return listText NamedFile.toJson (← found.mapError (report Tool.findByName.name SearchParameters.modeConflict root))

/-- The lines that a search finds. -/
def search (box : Toolbox) (fs : FileSystem) (request : SearchParameters) :
    Except Failure String := do
  let target := box.pathOf request.path
  let found := do
    searchLines fs request (← request.matcher) target box.skipped box.settings.maxSearchResults.toNat
  return listText LineHit.toJson (← found.mapError (report Tool.search.name SearchParameters.modeConflict target))

/-- The symbols of the index that answer a query best. -/
def searchSymbols (box : Toolbox) (data : IndexData) (query : String) : String :=
  listText IndexedSymbol.toJson
    (data.search box.settings.shortQueryLength (box.settings.resultLimit none) query)

/-- Write a file. -/
def writeFile (box : Toolbox) (path content : String) : ToolAction String := do
  let p := box.pathOf path
  ToolAction.onFiles (fileFault Tool.writeFile.name p)
    (FileAction.writeFile p (Text.utf8Bytes content))
  return "File written successfully"

/-- Make a pass over the workspace. -/
def indexFiles (box : Toolbox) : ToolAction String := do
  let tool := Tool.indexCodebase.name
  let root ← ToolAction.ofExcept (box.needWorkspace tool)
  let place ← ToolAction.ofExcept
    (((← get).files.resolve root).mapError (fileFault tool root))
  let _ ← ToolAction.onIndex (report tool "Outline has too many levels" root)
    (SymbolIndex.pass box.outliner box.settings place)
  return "Codebase indexed successfully"

/-- The path of the todo document. -/
def todoPath (box : Toolbox) (tool : Tool) : Except Failure Path := do
  return (box.settings.statePaths (← box.needWorkspace tool.name)).todos

/-- Write the todo document. -/
def saveTodos (tool : Tool) (p : Path) (items : List Json) : ToolAction Unit :=
  ToolAction.onFiles (Todo.writeFailure tool.name p) (Todo.save p items)

/-- Add a todo item. -/
def addTodo (box : Toolbox) (content : String) : ToolAction String := do
  let p ← ToolAction.ofExcept (box.todoPath .todoAdd)
  let items ← ToolAction.ofExcept (Todo.itemsForAdding (← get).files p)
  let id ← Workbench.newIdentifier
  saveTodos .todoAdd p (items ++ [Todo.newItem id content])
  return "Added todo: " ++ content

/-- Complete a todo item. -/
def completeTodo (box : Toolbox) (id : String) : ToolAction String := do
  let p ← ToolAction.ofExcept (box.todoPath .todoComplete)
  let items ← ToolAction.ofExcept (Todo.itemsAfterCompleting (← get).files p id)
  saveTodos .todoComplete p items
  return "Completed todo: " ++ id

/-- The todo items. -/
def listTodos (box : Toolbox) (fs : FileSystem) : Except Failure String := do
  Todo.listing fs (← box.todoPath .todoList)

/-- Run a tool with typed parameters. -/
def run (box : Toolbox) (tool : Tool) (parameters : Parameters) : ToolAction String := do
  let bench ← get
  let fs := bench.files
  match parameters with
  | .readFile path first last => ToolAction.ofExcept (box.readFile fs path first last)
  | .writeFile path content => box.writeFile path content
  | .listDir path => ToolAction.ofExcept (box.listDir fs path)
  | .findByName pattern => ToolAction.ofExcept (box.findByName fs pattern)
  | .search request => ToolAction.ofExcept (box.search fs request)
  | .searchCodebase query => return box.searchSymbols bench.index.data query
  | .none => if tool = .todoList then ToolAction.ofExcept (box.listTodos fs) else box.indexFiles
  | .todoAdd content => box.addTodo content
  | .todoComplete id => box.completeTodo id

/-- A fault of a tool that names no tool is reported for the one that was called. -/
def ascribe (name : String) : Failure → Failure
  | .fault f => .fault (f.raisedBy name)
  | e => e

/-- Run a tool call. -/
def execute (box : Toolbox) (call : ToolCall) : ToolAction String := do
  let (tool, parameters) ← ToolAction.ofExcept ((Parameters.ofCall call).mapError .fault)
  tryCatch (box.run tool parameters) fun e => throw (ascribe call.name e)

end Toolbox
end CodeAgent
