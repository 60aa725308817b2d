import CodeAgent.Coercion

/-! Reading records from objects: every field is looked at, and all that is wrong is reported. -/
namespace CodeAgent
open CodeAgent.Coercion

/-- A value that was read, or all the reasons why it could not be. -/
structure Checked (α : Type) where
  result : Except (List Issue) α

namespace Checked
variable {α β : Type}

/-- A value that is right. -/
def ok (a : α) : Checked α := ⟨.ok a⟩

/-- A value that is refused. -/
def refused (r : Refusal) : Checked α := ⟨.error [⟨[], r⟩]⟩

/-- A value that was read on its own. -/
def ofExcept : Except Refusal α → Checked α
  | .ok a => ok a
  | .error r => refused r

/-- Apply a function that was read to a value that was read; the reasons of both count. -/
def apply (f : Checked (α → β)) (a : Checked α) : Checked β :=
  match f.result, a.result with
  | .ok f, .ok a => ok (f a)
  | .error is, .error js => ⟨.error (is ++ js)⟩
  | .error is, .ok _ => ⟨.error is⟩
  | .ok _, .error js => ⟨.error js⟩

instance : Applicative Checked where
  pure := ok
  seq f a := apply f (a ())

/-- The reasons for a part, seen from the whole. -/
def inside (step : Json) (c : Checked α) : Checked α :=
  ⟨c.result.mapError fun is => is.map fun i => { i with path := step :: i.path }⟩

/-- A field that must be there. -/
def field (fields : Json.Fields) (key : String) (read : Json → Checked α) : Checked α :=
  inside (.str key) (match OrderedMap.get? fields key with
    | some v => read v
    | none => refused .missing)

/-- A field that may be missing. -/
def fieldOr (default : α) (fields : Json.Fields) (key : String) (read : Json → Checked α) :
    Checked α :=
  match OrderedMap.get? fields key with
  | some v => inside (.str key) (read v)
  | none => ok default

/-- The elements of a list. -/
def elements (read : Json → Checked α) (position : Nat) : List Json → Checked (List α)
  | [] => ok []
  | v :: vs =>
    List.cons <$> inside (.int position) (read v) <*> elements read (position + 1) vs

/-- A list. -/
def list (read : Json → Checked α) : Json → Checked (List α)
  | .arr items => elements read 0 items
  | _ => refused .arrayType

/-- The members of a map. -/
def members (read : Json → Checked α) : List (String × Json) → Checked (OrderedMap α)
  | [] => ok []
  | (k, v) :: fs =>
    (fun a m => (k, a) :: m) <$> inside (.str k) (read v) <*> members read fs

/-- A map. -/
def map (read : Json → Checked α) : Json → Checked (OrderedMap α)
  | .obj fields => members read fields
  | _ => refused .objectType

/-- A text. -/
def text (v : Json) : Checked String := ofExcept (Coercion.text v)

/-- An integer. -/
def integer (v : Json) : Checked Int := ofExcept (Coercion.integer v)

/-- A text or null. -/
def optionalText (v : Json) : Checked (Option String) :=
  ofExcept (Coercion.optional Coercion.text v)

end Checked
end CodeAgent
