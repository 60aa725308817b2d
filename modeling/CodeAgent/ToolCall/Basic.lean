import CodeAgent.Json.Writer
import CodeAgent.Tool

/-! Tool calls and their identity. -/
namespace CodeAgent

/-- A request to run a tool. Calls that were written as markup keep the trimmed source text of
each parameter, as it was before it was read as a scalar. -/
structure ToolCall where
  name : String
  parameters : Json.Fields := []
  rawText : OrderedMap String := []

namespace ToolCall

/-- The parameters as text that is equal for equal parameters, whatever their order. -/
def key (call : ToolCall) : String :=
  Json.write .canonical (.obj call.parameters)

/-- Calls with the same name and the same parameters are one call. -/
def dedupKey (call : ToolCall) : String × String :=
  (call.name, call.key)

end ToolCall
end CodeAgent
