import CodeAgent.OrderedMap

/-! JSON values: integers apart from floating-point numbers, and objects in insertion order. -/
namespace CodeAgent

/-- A JSON value. -/
inductive Json where
  | null
  | bool (b : Bool)
  | int (n : Int)
  | float (x : Float)
  | str (s : String)
  | arr (items : List Json)
  | obj (fields : List (String × Json))
  deriving Inhabited

namespace Json

/-- The members of an object, in the order in which their keys first came. -/
abbrev Fields := OrderedMap Json

/-- The value under a key of an object. -/
def get? (v : Json) (key : String) : Option Json :=
  match v with
  | .obj fields => OrderedMap.get? fields key
  | _ => none

/-- A text, if the value is one. -/
def str? : Json → Option String
  | .str s => some s
  | _ => none

/-- The members, if the value is an object. -/
def obj? : Json → Option Fields
  | .obj fields => some fields
  | _ => none

/-- The elements, if the value is an array. -/
def arr? : Json → Option (List Json)
  | .arr items => some items
  | _ => none

/-- A text, or null in its absence. -/
def ofOption (s : Option String) : Json :=
  match s with
  | some s => .str s
  | none => .null

/-- A value counts as present unless it is null, false, zero, or empty. -/
def isPresent : Json → Bool
  | .null => false
  | .bool b => b
  | .int n => n != 0
  | .float x => x != 0.0
  | .str s => s != ""
  | .arr items => !items.isEmpty
  | .obj fields => !fields.isEmpty

end Json
end CodeAgent
