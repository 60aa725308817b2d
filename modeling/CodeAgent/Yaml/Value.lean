import CodeAgent.Json.Writer
import CodeAgent.Yaml.Kind

/-! The values of YAML documents. -/
namespace CodeAgent.Yaml

/-- A value. -/
inductive Value where
  | null
  | truth (b : Bool)
  | integer (n : Int)
  | number (x : Float)
  | text (s : String)
  /-- A date or a point in time, by its parts. -/
  | moment (parts : List Int)
  | list (items : List Value)
  | map (entries : List (Value × Value))

namespace Value

/-- Values that are the same key of a map; numbers are so if they are equal. -/
def sameKey : Value → Value → Bool
  | null, null => true
  | text s, text t => s == t
  | moment p, moment q => p == q
  | a, b => match float? a, float? b with
    | some x, some y => match whole? a, whole? b with
      | some m, some n => m == n
      | _, _ => x == y
    | _, _ => false
where
  /-- An integer, or a truth value as one. -/
  whole? : Value → Option Int
    | truth b => some (if b then 1 else 0)
    | integer n => some n
    | _ => none
  /-- A number of any kind. -/
  float? : Value → Option Float
    | number x => some x
    | v => (whole? v).map fun n => if n < 0 then -n.natAbs.toFloat else n.natAbs.toFloat

/-- Values that can be keys. -/
def isKey : Value → Bool
  | list _ | map _ => false
  | _ => true

private def put (k v : Value) : List (Value × Value) → List (Value × Value)
  | [] => [(k, v)]
  | (l, w) :: es => if sameKey l k then (l, v) :: es else (l, w) :: put k v es

/-- Entries with each key once, at its first place and with its last value. -/
def distinct (entries : List (Value × Value)) : List (Value × Value) :=
  entries.foldl (fun m (k, v) => put k v m) []

/-- The value of a scalar. -/
def ofScalar (kind : Kind) (s : String) : Except Flaw Value :=
  match kind with
  | .null => .ok null
  | .truth => (truthValue s).map truth
  | .integer => (integerValue s).map integer
  | .number => (numberValue s).map number
  | .moment => (momentValue s).map moment
  | .text => .ok (text s)
  | _ => .error .malformed

/-- The kind of a node as a key: the sign of the default is a text there. -/
def keyKind : Node → Kind
  | .scalar tag s => Kind.ofScalar tag s
  | _ => .unknown

mutual

/-- The value of a node. -/
def ofNode : Node → Except Flaw Value
  | .scalar tag s => ofScalar (Kind.ofScalar tag s) s
  | .list tag items => match Kind.ofCollection tag .list with
    | .list => (ofNodes items).map list
    | .pairs => (ofPairs items).map list
    | _ => .error .malformed
  | .map tag entries => match Kind.ofCollection tag .map with
    | .map => (ofEntries entries).map fun (merged, own) => map (distinct (merged ++ own))
    | .set => (ofEntries entries).map fun (merged, own) =>
        list ((distinct (merged ++ own)).map (·.1))
    | _ => .error .malformed

/-- The values of nodes. -/
def ofNodes : List Node → Except Flaw (List Value)
  | [] => .ok []
  | n :: ns => do return (← ofNode n) :: (← ofNodes ns)

/-- The pairs in a list of maps with one entry each. -/
def ofPairs : List Node → Except Flaw (List Value)
  | [] => .ok []
  | .map _ [(k, v)] :: ns => do return list [← ofNode k, ← ofNode v] :: (← ofPairs ns)
  | _ => .error .malformed

/-- The entries of a map: those that it takes over from other maps, and its own. -/
def ofEntries : List (Node × Node) → Except Flaw (List (Value × Value) × List (Value × Value))
  | [] => .ok ([], [])
  | (k, v) :: es => do
    if keyKind k == .merge then
      let source ← match v with
        | .map _ inner => (ofEntries inner).map fun (merged, own) => merged ++ own
        | .list _ items => ofSources items
        | .scalar .. => throw .malformed
      let (merged, own) ← ofEntries es
      return (source ++ merged, own)
    let key ← match k with
      | .scalar tag s =>
        if Kind.ofScalar tag s == .default then pure (text s) else ofScalar (Kind.ofScalar tag s) s
      | _ => ofNode k
    if !key.isKey then throw .malformed
    let value ← ofNode v
    let (merged, own) ← ofEntries es
    return (merged, (key, value) :: own)

/-- The entries of several maps; the first map counts most. -/
def ofSources : List Node → Except Flaw (List (Value × Value))
  | [] => .ok []
  | .map _ entries :: ns => do
    let later ← ofSources ns
    let (merged, own) ← ofEntries entries
    return later ++ merged ++ own
  | _ => .error .malformed

end

/-- The value of the one document in a text, null if there is none. -/
def ofText (s : String) : Except Flaw Value := do
  match ← Node.ofText s with
  | some node => ofNode node
  | none => return null

/-- The entries of a map. -/
def entries : Value → List (Value × Value)
  | map es => es
  | _ => []

mutual

/-- A value without the types that other formats lack: a point in time is the list of its parts. -/
def toJson : Value → Json
  | null => .null
  | truth b => .bool b
  | integer n => .int n
  | number x => .float x
  | text s => .str s
  | moment parts => .arr (parts.map .int)
  | list items => .arr (listToJson items)
  | map entries => .obj (OrderedMap.ofPairs (mapToJson entries))

/-- The values of a list. -/
def listToJson : List Value → List Json
  | [] => []
  | v :: vs => toJson v :: listToJson vs

/-- The entries of a map; a key that is no text is written as one. -/
def mapToJson : List (Value × Value) → List (String × Json)
  | [] => []
  | (k, v) :: es =>
    let key := match k with
      | text s => s
      | _ => Json.write .line (toJson k)
    (key, toJson v) :: mapToJson es

end

end Value
end CodeAgent.Yaml
