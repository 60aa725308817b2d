import CodeAgent.Json.Value

/-! The tools that a model may call. -/
namespace CodeAgent

/-- A tool on the allow-list. -/
inductive Tool where
  | readFile
  | writeFile
  | listDir
  | searchFiles
  | findByName
  | grep
  | search
  | searchCodebase
  | indexCodebase
  | todoAdd
  | todoList
  | todoComplete
  deriving DecidableEq, Repr

namespace Tool

/-- The name by which a tool is called. -/
def name : Tool → String
  | readFile => "read_file"
  | writeFile => "write_file"
  | listDir => "list_dir"
  | searchFiles => "search_files"
  | findByName => "find_by_name"
  | grep => "grep"
  | search => "search"
  | searchCodebase => "search_codebase"
  | indexCodebase => "index_codebase"
  | todoAdd => "todo_add"
  | todoList => "todo_list"
  | todoComplete => "todo_complete"

/-- Every tool. -/
def all : List Tool :=
  [readFile, writeFile, listDir, searchFiles, findByName, grep, search, searchCodebase,
    indexCodebase, todoAdd, todoList, todoComplete]

/-- The tool of a given name. -/
def ofName? (s : String) : Option Tool :=
  all.find? (·.name == s)

/-- A name is on the allow-list. -/
def isAllowed (s : String) : Bool :=
  (ofName? s).isSome

/-- The name on the allow-list that a value is, if it is one. -/
def allowedName? (v : Json) : Option String :=
  v.str?.filter isAllowed

theorem mem_all (t : Tool) : t ∈ all := by
  cases t <;> simp [all]

theorem ofName?_name (t : Tool) : ofName? t.name = some t := by
  cases t <;> rfl

end Tool
end CodeAgent
