import CodeAgent.Failure
import CodeAgent.Json.Reader
import CodeAgent.Json.Writer

/-! The todo items of a workspace, kept as one JSON document that is rewritten on every change. -/
namespace CodeAgent.Todo
open CodeAgent.Text

/-- Why a document is no list of items. -/
inductive DocumentError where
  | file (e : FileError)
  | notRead (e : Json.ReadError)
  | notAList

/-- A new item. -/
def newItem (id content : String) : Json :=
  .obj [("id", .str id), ("content", .str content), ("status", .str "pending"),
    ("created_at", .str "2024-01-01T00:00:00+00:00")]

/-- The items in the text of a document. They can be any values. -/
def itemsIn (text : String) : Except DocumentError (List Json) :=
  match Json.read text with
  | .ok (.arr items) => .ok items
  | .ok _ => .error .notAList
  | .error e => .error (.notRead e)

/-- The text of a document. -/
def documentText (items : List Json) : String := Json.write .pretty (.arr items)

/-- The items in the document at a path. -/
def load (fs : FileSystem) (p : Path) : Except DocumentError (List Json) := do
  itemsIn (← (fs.readValidText p).mapError .file)

/-- An item is the one of a given id. -/
def hasId (id : String) (item : Json) : Bool :=
  match item.get? "id" with
  | some (.str s) => s == id
  | _ => false

/-- An item with its status set to completed, if it is the one of a given id. -/
def complete (id : String) (item : Json) : Json :=
  match item with
  | .obj fields =>
    if hasId id item then .obj (OrderedMap.put "status" (.str "completed") fields) else item
  | _ => item

/-- What a tool reports when the document cannot be read. A document with too many levels is a
breakdown. -/
def readFailure (tool : String) (p : Path) (e : DocumentError) : Failure :=
  let because (why : String) : Failure :=
    .fault (Fault.fileFailed tool p.text ("Failed to read todos: " ++ why))
  match e with
  | .file e => because e.text
  | .notRead .tooDeep => .breakdown .tooNested
  | .notRead _ => because "no JSON"
  | .notAList => because "todo document is not a JSON array"

/-- What a tool reports when the document cannot be written. -/
def writeFailure (tool : String) (p : Path) (e : FileError) : Failure :=
  .fault (Fault.fileFailed tool p.text ("Failed to write todos: " ++ e.text))

/-- The items to add one to: those of the document, or none if there is no document or it cannot be
understood. -/
def itemsForAdding (fs : FileSystem) (p : Path) : Except Failure (List Json) := do
  if !(← (fs.isThere p).mapError .file) then return []
  match load fs p with
  | .ok items => return items
  | .error (.file .badText) => return []
  | .error (.file e) => throw (readFailure "todo_add" p (.file e))
  | .error (.notRead .tooDeep) => throw (.breakdown .tooNested)
  | .error _ => return []

/-- The document as text; without a document, that of no items. -/
def listing (fs : FileSystem) (p : Path) : Except Failure String := do
  if !(← (fs.isThere p).mapError .file) then return "[]"
  (fs.readValidText p).mapError fun e => readFailure "todo_list" p (.file e)

/-- The items after those of an id are completed. -/
def itemsAfterCompleting (fs : FileSystem) (p : Path) (id : String) : Except Failure (List Json) := do
  if !(← (fs.isThere p).mapError .file) then
    throw (.fault (Fault.notFound "todo_complete" "No todos found"))
  let items ← (load fs p).mapError (readFailure "todo_complete" p)
  if !items.any (hasId id) then
    throw (.fault (Fault.notFound "todo_complete" ("Todo not found: " ++ id)))
  return items.map (complete id)

/-- Write the document. -/
def save (p : Path) (items : List Json) : FileAction Unit :=
  FileAction.writeFile p (utf8Bytes (documentText items))

end CodeAgent.Todo
