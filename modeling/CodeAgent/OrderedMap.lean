/-! Finite maps from names to values that keep the order in which the names first came. -/
namespace CodeAgent

/-- A finite map in insertion order. -/
abbrev OrderedMap (α : Type) := List (String × α)

namespace OrderedMap
variable {α : Type}

/-- The value under a name. -/
def get? (m : OrderedMap α) (key : String) : Option α :=
  (m.find? (·.1 == key)).map (·.2)

/-- A name has a value. -/
def has (m : OrderedMap α) (key : String) : Bool :=
  m.any (·.1 == key)

/-- Give a name a value: a new name goes to the end, a known one keeps its place. -/
def put (key : String) (value : α) : OrderedMap α → OrderedMap α
  | [] => [(key, value)]
  | (k, v) :: m => if k == key then (k, value) :: m else (k, v) :: put key value m

/-- The map that successive pairs describe: of a repeated name the last value counts. -/
def ofPairs (pairs : List (String × α)) : OrderedMap α :=
  pairs.foldl (fun m p => put p.1 p.2 m) []

/-- The map without a name. -/
def erase (key : String) (m : OrderedMap α) : OrderedMap α :=
  m.filter (·.1 != key)

/-- The names in order. -/
def keys (m : OrderedMap α) : List String :=
  m.map (·.1)

end OrderedMap
end CodeAgent
