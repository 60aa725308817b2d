import CodeAgent.Failure
import CodeAgent.Json.Writer
import CodeAgent.Text.Line
import CodeAgent.Tool

/-! What the model reads of the results of its tool calls. -/
namespace CodeAgent.ToolReport
open CodeAgent.Text

/-- A result of at most a number of characters; a longer one is cut and says so. -/
def truncated (limit : Int) (result : String) : String :=
  if result.length ≤ limit then result
  else String.ofList (takeUpTo limit result.toList) ++ "... (truncated, total length: " ++
    Decimal.natText result.length ++ ")"

/-- The tools that list files by name. -/
def listsFiles (tool : String) : Bool :=
  tool == Tool.searchFiles.name || tool == Tool.findByName.name

/-- The path of a found file. -/
def foundPath? (item : Json) : Option String :=
  (item.get? "path").bind Json.str?

private def shownUnder (item : Json) (key : String) : String :=
  ((item.get? key).map Json.display).getD "?"

private def lineOf (item : Json) : String :=
  match item.get? "start_line" with
  | some (.int n) => Decimal.intText n
  | some (.bool b) => (Json.bool b).display
  | _ => "0"

/-- One line on a found symbol. -/
def symbolLine (item : Json) : String :=
  shownUnder item "name" ++ " (" ++ shownUnder item "kind" ++ ") in " ++
    shownUnder item "file_path" ++ " (line " ++ lineOf item ++ ")"

/-- The paths of a list of found files. -/
def fileList (items : List Json) : String :=
  if items.isEmpty then "No files found matching the pattern."
  else "Found files:\n" ++ String.intercalate "\n" (items.filterMap foundPath?)

/-- The first lines on a list of found symbols. -/
def symbolList (most : Int) (items : List Json) : String :=
  if items.isEmpty then "No symbols found matching the query."
  else "Found symbols:\n" ++ String.intercalate "\n" ((takeUpTo most items).map symbolLine)

/-- A result in readable form: lists of files and of symbols as lines, all else as it is. -/
def formatted (tool : String) (mostSymbols : Int) (result : String) : Except Breakdown String :=
  if listsFiles tool || tool == Tool.searchCodebase.name then
    match Json.read result with
    | .ok (.arr items) =>
      .ok (if listsFiles tool then fileList items else symbolList mostSymbols items)
    | .error .tooDeep => .error .tooNested
    | _ => .ok result
  else .ok result

/-- The message that carries the outputs of all calls of a reply. -/
def combined (outputs : List String) : String :=
  "Tool execution results:\n" ++ String.intercalate "\n\n" outputs ++
    "\n\nPlease analyze these results and take the next step."

/-- The message that asks for a call or a final answer. -/
def nudge (marker : String) : String :=
  "Your response did not include any tool calls or a " ++ marker ++ ". If you are finished, " ++
    "please provide the " ++ marker ++ ". If not, please use the appropriate tool to proceed."

/-- What the model reads of a call that failed. -/
def failed (tool message : String) : String :=
  "Tool '" ++ tool ++ "' error: " ++ message

/-- What the model reads of a call that succeeded. -/
def succeeded (tool result : String) : String :=
  "[" ++ tool ++ "] result:\n" ++ result

end CodeAgent.ToolReport
