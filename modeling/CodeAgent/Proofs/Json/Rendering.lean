import CodeAgent.Json.Reader
import CodeAgent.Json.Writer
import CodeAgent.Proofs.OrderedMap

/-! Values written on one line: their text from left to right, and objects with their keys in order. -/
namespace CodeAgent.Json
open CodeAgent.Decimal

/-- A style that keeps everything on one line and members in their order, with nothing but white space
after commas and colons. -/
structure Style.Straight (style : Style) : Prop where
  one_line : style.indent = none
  unsorted : style.sorted = false
  comma : ∃ gap, style.afterItem = ',' :: gap ∧ ∀ c ∈ gap, isGap c = true
  colon : ∃ gap, style.afterKey = ':' :: gap ∧ ∀ c ∈ gap, isGap c = true

/-- The text after an element of an array: further elements, the closing bracket, and what follows it. -/
def itemsTail (style : Style) (level : Nat) : List Json → List Char → List Char
  | [], rest => ']' :: rest
  | v :: vs, rest => style.afterItem ++ (render style level v ++ itemsTail style level vs rest)

/-- The text of a member of an object from its key on, and what follows it. -/
def memberText (style : Style) (level : Nat) (key : String) (v : Json) (rest : List Char) : List Char :=
  stringText style.asciiOnly key ++ (style.afterKey ++ (render style level v ++ rest))

/-- The text after a member of an object: further members, the closing brace, and what follows it. -/
def fieldsTail (style : Style) (level : Nat) : List (String × Json) → List Char → List Char
  | [], rest => '}' :: rest
  | (k, v) :: fs, rest => style.afterItem ++ memberText style level k v (fieldsTail style level fs rest)

theorem joined_cons (sep x : List Char) (xs : List (List Char)) :
    joined sep (x :: xs) = x ++ xs.flatMap (sep ++ ·) := by
  induction xs generalizing x with
  | nil => rw [joined, List.flatMap_nil, List.append_nil]
  | cons y xs ih => rw [joined, ih, List.flatMap_cons, List.append_assoc, List.append_assoc]; simp

theorem renderItems_eq_map (style : Style) (level : Nat) (items : List Json) :
    renderItems style level items = items.map (render style level) := by
  induction items with
  | nil => rw [renderItems, List.map_nil]
  | cons v vs ih => rw [renderItems, ih, List.map_cons]

theorem renderFields_eq_map (style : Style) (level : Nat) (fields : List (String × Json)) :
    renderFields style level fields = fields.map fun m => (m.1, render style level m.2) := by
  induction fields with
  | nil => rw [renderFields, List.map_nil]
  | cons m fs ih => rw [renderFields, ih, List.map_cons]

theorem itemsTail_eq (style : Style) (level : Nat) (items : List Json) (rest : List Char) :
    itemsTail style level items rest =
      (items.map (render style level)).flatMap (style.afterItem ++ ·) ++ ']' :: rest := by
  induction items with
  | nil => rfl
  | cons v vs ih => rw [itemsTail, ih]; simp

theorem fieldsTail_eq (style : Style) (level : Nat) (fields : List (String × Json)) (rest : List Char) :
    fieldsTail style level fields rest =
      (fields.map fun m => stringText style.asciiOnly m.1 ++ style.afterKey ++ render style level m.2).flatMap
        (style.afterItem ++ ·) ++ '}' :: rest := by
  induction fields with
  | nil => rfl
  | cons m fs ih => rw [fieldsTail, ih, memberText]; simp

section straight
variable {style : Style} (straight : style.Straight) (level : Nat) (rest : List Char)
include straight

theorem bracketed_cons (left right : Char) (x : List Char) (xs : List (List Char)) :
    bracketed style level left right (x :: xs) =
      left :: (x ++ (xs.flatMap (style.afterItem ++ ·) ++ [right])) := by
  rw [bracketed, if_neg (by simp), straight.one_line, joined_cons, ← List.append_assoc, ← List.cons_append]
  rfl

theorem render_arr_cons (v : Json) (vs : List Json) :
    render style level (.arr (v :: vs)) ++ rest =
      '[' :: (render style (level + 1) v ++ itemsTail style (level + 1) vs rest) := by
  rw [render, renderItems_eq_map, List.map_cons, bracketed_cons straight, itemsTail_eq]
  simp

theorem render_obj_cons (k : String) (v : Json) (fs : List (String × Json)) :
    render style level (.obj ((k, v) :: fs)) ++ rest =
      '{' :: memberText style (level + 1) k v (fieldsTail style (level + 1) fs rest) := by
  rw [render, straight.unsorted, renderFields_eq_map, fieldsTail_eq, memberText]
  simp only [Bool.false_eq_true, if_false, List.map_cons, List.map_map]
  rw [bracketed_cons straight]
  simp [Function.comp_def]

end straight

theorem render_arr_nil (style : Style) (level : Nat) : render style level (.arr []) = ['[', ']'] := rfl

theorem render_obj_nil (style : Style) (level : Nat) : render style level (.obj []) = ['{', '}'] := by
  rw [render, renderFields, List.mergeSort_nil]
  cases style.sorted <;> rfl

mutual

/-- A value with the members of every object in the order of their keys. -/
def sorted : Json → Json
  | .arr items => .arr (sortedItems items)
  | .obj fields => .obj (OrderedMap.inOrder (sortedFields fields))
  | v => v

/-- Elements with their objects in order. -/
def sortedItems : List Json → List Json
  | [] => []
  | v :: vs => sorted v :: sortedItems vs

/-- Members in their order, with the objects in them in order. -/
def sortedFields : List (String × Json) → List (String × Json)
  | [] => []
  | (k, v) :: fs => (k, sorted v) :: sortedFields fs

end

theorem sortedFields_eq_map (fields : List (String × Json)) :
    sortedFields fields = fields.map fun m => (m.1, sorted m.2) := by
  induction fields with
  | nil => rw [sortedFields, List.map_nil]
  | cons m fs ih => rw [sortedFields, ih, List.map_cons]

/-- The value under a key, with its objects in order, is the one under the key of the object in order. -/
theorem get?_sorted (fields : Fields) (key : String) :
    OrderedMap.get? (OrderedMap.inOrder (sortedFields fields)) key =
      (OrderedMap.get? fields key).map sorted := by
  rw [OrderedMap.get?_inOrder, sortedFields_eq_map, OrderedMap.get?_map]

/-- A style with members in their order. -/
def Style.asGiven (style : Style) : Style := { style with sorted := false }

theorem straight_canonical : Style.canonical.asGiven.Straight where
  one_line := rfl
  unsorted := rfl
  comma := ⟨[' '], rfl, by simp [isGap]⟩
  colon := ⟨[' '], rfl, by simp [isGap]⟩

theorem straight_compact : Style.compact.asGiven.Straight where
  one_line := rfl
  unsorted := rfl
  comma := ⟨[], rfl, List.forall_mem_nil _⟩
  colon := ⟨[], rfl, List.forall_mem_nil _⟩

mutual

/-- Sorting members while writing is writing the sorted value. -/
theorem render_sorted {style : Style} (sorts : style.sorted = true) :
    ∀ (v : Json) (level : Nat), render style level v = render style.asGiven level (sorted v)
  | .null, _ | .bool true, _ | .bool false, _ | .int _, _ | .float _, _ | .str _, _ => by
    simp only [render, sorted, Style.asGiven]
  | .arr items, level => by
    rw [sorted, render, render, renderItems_sorted sorts items]
    rfl
  | .obj fields, level => by
    rw [sorted, render, render, renderFields_sorted sorts fields]
    simp only [sorts, Style.asGiven, if_true, Bool.false_eq_true, if_false]
    have order := List.map_mergeSort (r := fun a b => decide (a.1 ≤ b.1))
      (s := fun a b => decide (a.1 ≤ b.1)) (l := sortedFields fields)
      (f := fun m => (m.1, render style.asGiven (level + 1) m.2)) fun _ _ _ _ => rfl
    rw [renderFields_eq_map, renderFields_eq_map]
    exact congrArg (fun ms => bracketed style level '{' '}' (ms.map fun m =>
      stringText style.asciiOnly m.1 ++ style.afterKey ++ m.2)) order.symm

theorem renderItems_sorted {style : Style} (sorts : style.sorted = true) :
    ∀ (items : List Json) (level : Nat),
      renderItems style level items = renderItems style.asGiven level (sortedItems items)
  | [], _ => by rw [sortedItems, renderItems, renderItems]
  | v :: vs, level => by
    rw [sortedItems, renderItems, renderItems, render_sorted sorts v, renderItems_sorted sorts vs]

theorem renderFields_sorted {style : Style} (sorts : style.sorted = true) :
    ∀ (fields : List (String × Json)) (level : Nat),
      renderFields style level fields = renderFields style.asGiven level (sortedFields fields)
  | [], _ => by rw [sortedFields, renderFields, renderFields]
  | (k, v) :: fs, level => by
    rw [sortedFields, renderFields, renderFields, render_sorted sorts v, renderFields_sorted sorts fs]

end

end CodeAgent.Json
