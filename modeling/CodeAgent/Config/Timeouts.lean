import CodeAgent.Coercion

/-! How long requests may take, in seconds. -/
namespace CodeAgent

/-- The limits on the parts of a request. -/
structure RequestTimeout where
  connect : Float
  others : Float

/-- The limits that the environment can change. -/
structure Timeouts where
  connect : Float := 10.0
  quick : Float := 10.0
  reply : Float := 300.0

namespace Timeouts

private def numberIn (env : OrderedMap String) (name : String) (default : Float) : Float :=
  match OrderedMap.get? env ("COGNITIVE_TIMEOUT_" ++ name) with
  | some s => (Coercion.plainNumber? s).getD default
  | none => default

/-- The limits in an environment; a variable that is no number does not count. -/
def ofEnvironment (env : OrderedMap String) : Timeouts :=
  let d : Timeouts := {}
  { connect := numberIn env "HTTP_CONNECT" d.connect
    quick := numberIn env "HTTP_QUICK_CHECK" d.quick
    reply := numberIn env "HTTP_LLM_API" d.reply }

/-- The limits on requests for replies. -/
def forReplies (t : Timeouts) : RequestTimeout := ⟨t.connect, t.reply⟩

/-- The limits on short requests. -/
def forChecks (t : Timeouts) : RequestTimeout := ⟨t.connect, t.quick⟩

end Timeouts
end CodeAgent
