import CodeAgent.Fault
import CodeAgent.Json.Reader
import CodeAgent.ToolCall.Basic
import CodeAgent.Text.Line
import CodeAgent.Text.Search

/-! Tool calls written as JSON objects, anywhere in a text or after a mark at the start of a line. -/
namespace CodeAgent.JsonCall
open CodeAgent.Text

/-- The parameters under a key: null stands for none, and nothing but an object will do. -/
def parametersUnder (fields : Json.Fields) (key : String) : Option Json.Fields :=
  match OrderedMap.get? fields key with
  | some .null => some []
  | some (.obj parameters) => some parameters
  | _ => none

/-- The call that an object makes with its name and its parameters under given keys. -/
def direct? (fields : Json.Fields) (nameKey parametersKey : String) : Option ToolCall := do
  let name ← (OrderedMap.get? fields nameKey).bind Tool.allowedName?
  let parameters ← parametersUnder fields parametersKey
  some { name, parameters }

/-- The call that the members of an object make themselves. -/
def ofFields? (fields : Json.Fields) : Option ToolCall :=
  (direct? fields "name" "parameters").orElse fun _ => direct? fields "tool" "args"

mutual

/-- The call that a value describes: an object with a name and parameters, or an object that
wraps such a value. -/
def ofJson : Json → Except Fault ToolCall
  | .obj fields =>
    match ofFields? fields with
    | some call => .ok call
    | none => ofWrapper fields
  | _ => .error (Fault.notACall "JSON value is not an object")

/-- The call that the wrapped value among the members of an object describes. -/
def ofWrapper : List (String × Json) → Except Fault ToolCall
  | [] => .error (Fault.notACall "JSON object has no allowed tool call shape")
  | (key, value) :: fields => if key == "tool_call" then ofJson value else ofWrapper fields

end

/-- What a brace starts: a call with the text after it, nothing of use, or a value that stops the
search because it cannot be read within the limits. -/
inductive Reading where
  | call (call : ToolCall) (rest : List Char)
  | other
  | stop

/-- Read the text from a brace on. -/
def readingAt (cs : List Char) : Reading :=
  match Json.readValue Json.maxDepth cs with
  | .ok (value, rest) => match ofJson value with
    | .ok call => .call call rest
    | .error _ => .other
  | .error .malformed => .other
  | .error _ => .stop

/-- The calls from left to right; the search goes on after the end of a call that it found. -/
def embeddedFrom (offset : Nat) : List Char → List (Nat × ToolCall)
  | [] => []
  | c :: cs =>
    if c == '\x7b' then
      match readingAt (c :: cs) with
      | .call call rest =>
        if rest.length < cs.length + 1 then
          (offset, call) :: embeddedFrom (offset + (cs.length + 1 - rest.length)) rest
        else embeddedFrom (offset + 1) cs
      | .other => embeddedFrom (offset + 1) cs
      | .stop => []
    else embeddedFrom (offset + 1) cs
termination_by cs => cs.length

/-- The calls written as JSON objects, with their offsets. -/
def extractEmbedded (cs : List Char) : List (Nat × ToolCall) :=
  embeddedFrom 0 cs

/-- The mark of a call at the start of a line. -/
def lineMark : List Char := ['t', 'o', 'o', 'l', '_', 'c', 'a', 'l', 'l', ':', ' ']

/-- Read the text of a marked line after its mark. -/
def readingOfLine (cs : List Char) : Reading :=
  match Json.readChars? cs with
  | .ok (.obj fields) => match direct? fields "name" "parameters" with
    | some call => .call call []
    | none => .other
  | .ok _ => .other
  | .error .malformed => .other
  | .error _ => .stop

/-- The calls of marked lines from the top, each with the offset of its line. -/
def marksFrom (offset : Nat) : List (List Char × List Char) → List (Nat × ToolCall)
  | [] => []
  | (text, ending) :: more =>
    let next := offset + text.length + ending.length
    match dropStart? lineMark (text ++ ending) with
    | none => marksFrom next more
    | some rest => match readingOfLine rest with
      | .call call _ => (offset, call) :: marksFrom next more
      | .other => marksFrom next more
      | .stop => []

/-- The calls written on marked lines, with the offsets of the lines. -/
def extractMarked (cs : List Char) : List (Nat × ToolCall) :=
  marksFrom 0 (lineRuns cs)

end CodeAgent.JsonCall
