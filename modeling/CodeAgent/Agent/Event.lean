import CodeAgent.Decimal.Digits
import CodeAgent.Json.Value

/-! The events that a host receives while a turn runs. -/
namespace CodeAgent

/-- An event: a piece of the reply, or a step in the life of a tool call. -/
inductive Event where
  | chunk (delta : String)
  | toolStart (id name : String) (parameters : Json.Fields)
  | toolResult (id name result : String)
  | toolError (id name message : String)

/-- An event as hosts see it. -/
structure EventRecord where
  type : String
  payload : Json

namespace Event

/-- The name of the type of an event. -/
def type : Event → String
  | chunk _ => "chunk"
  | toolStart .. => "agent-tool-start"
  | toolResult .. => "agent-tool-res"
  | toolError .. => "agent-tool-error"

/-- What an event carries. The time of a start is given by a stopped clock. -/
def payload : Event → Json
  | chunk delta => .str delta
  | toolStart id name parameters => .obj [("id", .str id), ("name", .str name),
      ("parameters", .obj parameters), ("status", .str "executing"), ("timestamp", .int 0)]
  | toolResult id name result => .obj [("id", .str id), ("name", .str name),
      ("result", .str result), ("status", .str "completed")]
  | toolError id name message => .obj [("id", .str id), ("name", .str name),
      ("error", .str message), ("status", .str "error")]

/-- An event as hosts see it. -/
def record (e : Event) : EventRecord := ⟨e.type, e.payload⟩

end Event

/-- The payloads of the events of one type. -/
def payloadsOf (type : String) (events : List EventRecord) : List Json :=
  (events.filter (·.type == type)).map (·.payload)

/-- The identifier with a given number in the sequence of all identifiers. -/
def identifier (n : Nat) : String :=
  let digits := Decimal.natDigits n
  "00000000-0000-4000-8000-" ++ String.ofList (List.replicate (12 - digits.length) '0' ++ digits)

end CodeAgent
