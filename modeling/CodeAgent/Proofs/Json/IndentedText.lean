import CodeAgent.Proofs.Json.ReadBack

/-! The text of values that may be broken into lines, from left to right. -/
namespace CodeAgent.Json
open CodeAgent.Decimal

/-- A style that keeps members in their order, with nothing but white space after commas and colons. -/
structure Style.Spaced (style : Style) : Prop where
  unsorted : style.sorted = false
  comma : ∃ gap, style.afterItem = ',' :: gap ∧ ∀ c ∈ gap, isGap c = true
  colon : ∃ gap, style.afterKey = ':' :: gap ∧ ∀ c ∈ gap, isGap c = true

theorem Style.Straight.spaced {style : Style} (straight : style.Straight) : style.Spaced where
  unsorted := straight.unsorted
  comma := straight.comma
  colon := straight.colon

theorem spaced_pretty : Style.pretty.Spaced where
  unsorted := rfl
  comma := ⟨[], rfl, List.forall_mem_nil _⟩
  colon := ⟨[' '], rfl, by simp [isGap]⟩

/-- The same style on one line. -/
def Style.onOneLine (style : Style) : Style := { style with indent := none }

/-- What stands before an element that starts a line, and before a bracket that ends the elements. -/
def Style.breakAt (style : Style) (level : Nat) : List Char :=
  match style.indent with
  | none => []
  | some width => '\n' :: List.replicate (width * level) ' '

/-- The text after an element of an array: further elements, the closing bracket, and what follows it. -/
def brokenItems (style : Style) (level : Nat) : List Json → List Char → List Char
  | [], rest => style.breakAt level ++ ']' :: rest
  | v :: vs, rest =>
    style.afterItem ++ (style.breakAt (level + 1) ++ (render style (level + 1) v ++ brokenItems style level vs rest))

/-- The text after a member of an object: further members, the closing brace, and what follows it. -/
def brokenFields (style : Style) (level : Nat) : List (String × Json) → List Char → List Char
  | [], rest => style.breakAt level ++ '}' :: rest
  | (k, v) :: fs, rest =>
    style.afterItem ++ (style.breakAt (level + 1) ++
      memberText style (level + 1) k v (brokenFields style level fs rest))

theorem gap_breakAt (style : Style) (level : Nat) : ∀ c ∈ style.breakAt level, isGap c = true := by
  unfold Style.breakAt
  split
  · exact List.forall_mem_nil _
  · refine List.forall_mem_cons.mpr ⟨rfl, fun c hc => ?_⟩
    rw [List.eq_of_mem_replicate hc]
    rfl

theorem bracketed_broken (style : Style) (level : Nat) (left right : Char) (x : List Char) (xs : List (List Char)) :
    bracketed style level left right (x :: xs) = left :: (style.breakAt (level + 1) ++
      (x ++ (xs.flatMap (style.afterItem ++ style.breakAt (level + 1) ++ ·) ++ (style.breakAt level ++ [right])))) := by
  rw [bracketed, if_neg (by simp), Style.breakAt, Style.breakAt]
  cases style.indent <;> simp [joined_cons]

theorem brokenItems_eq (style : Style) (level : Nat) (items : List Json) (rest : List Char) :
    brokenItems style level items rest =
      (items.map (render style (level + 1))).flatMap (style.afterItem ++ style.breakAt (level + 1) ++ ·) ++
        (style.breakAt level ++ ']' :: rest) := by
  induction items with
  | nil => rfl
  | cons v vs ih => rw [brokenItems, ih]; simp

theorem brokenFields_eq (style : Style) (level : Nat) (fields : List (String × Json)) (rest : List Char) :
    brokenFields style level fields rest =
      (fields.map fun m => stringText style.asciiOnly m.1 ++ style.afterKey ++ render style (level + 1) m.2).flatMap
        (style.afterItem ++ style.breakAt (level + 1) ++ ·) ++ (style.breakAt level ++ '}' :: rest) := by
  induction fields with
  | nil => rfl
  | cons m fs ih => rw [brokenFields, ih, memberText]; simp

theorem render_arr_broken (style : Style) (level : Nat) (v : Json) (vs : List Json) (rest : List Char) :
    render style level (.arr (v :: vs)) ++ rest = '[' :: (style.breakAt (level + 1) ++
      (render style (level + 1) v ++ brokenItems style level vs rest)) := by
  rw [render, renderItems_eq_map, List.map_cons, bracketed_broken, brokenItems_eq]
  simp

/-- A text goes on after a value with a comma, or with the bracket that ends the elements. -/
theorem stops_breakAt (style : Style) (level : Nat) {c : Char} (closing : c = ']' ∨ c = '}') (rest : List Char) :
    Stops (style.breakAt level ++ c :: rest) := by
  unfold Style.breakAt
  split
  · exact stops_cons (.inr closing)
  · intro d hd
    cases hd
    decide

section spaced
variable {style : Style} (spaced : style.Spaced)
include spaced

theorem render_obj_broken (level : Nat) (k : String) (v : Json) (fs : List (String × Json)) (rest : List Char) :
    render style level (.obj ((k, v) :: fs)) ++ rest = '{' :: (style.breakAt (level + 1) ++
      memberText style (level + 1) k v (brokenFields style level fs rest)) := by
  rw [render, spaced.unsorted, renderFields_eq_map, brokenFields_eq, memberText]
  simp only [Bool.false_eq_true, if_false, List.map_cons, List.map_map]
  rw [bracketed_broken]
  simp [Function.comp_def]

theorem Style.Spaced.straight : style.onOneLine.Straight where
  one_line := rfl
  unsorted := spaced.unsorted
  comma := spaced.comma
  colon := spaced.colon

omit spaced in
/-- The text of a scalar has one line in every style. -/
theorem render_onOneLine {v : Json} (scalar : mark v ≠ some '[' ∧ mark v ≠ some '\x7b') (level : Nat) :
    render style.onOneLine level v = render style level v := by
  cases v with
  | bool b => cases b <;> simp only [render]
  | arr | obj => simp [mark] at scalar
  | null | int | float | str => simp only [render, Style.onOneLine]

/-- No text of a value starts with white space or a closing bracket. -/
theorem render_start (v : Json) (level : Nat) (rest : List Char) :
    ∃ c cs, render style level v ++ rest = c :: cs ∧ isGap c = false ∧ c ≠ ']' := by
  have scalar (scalar : mark v ≠ some '[' ∧ mark v ≠ some '\x7b') :
      ∃ c cs, render style level v ++ rest = c :: cs ∧ isGap c = false ∧ c ≠ ']' := by
    obtain ⟨c, cs, text, -⟩ := render_head spaced.straight v level rest
    have begins := begins_render spaced.straight v level rest
    rw [render_onOneLine scalar] at text begins
    refine ⟨c, cs, text, begins c (by rw [text]; rfl), ?_⟩
    rintro rfl
    rw [← render_onOneLine scalar] at text
    exact render_ne_closing spaced.straight (.inl rfl) text
  match v with
  | .arr [] => exact ⟨'[', _, by rw [render_arr_nil]; rfl, rfl, by decide⟩
  | .arr (v :: vs) => exact ⟨'[', _, render_arr_broken style level v vs rest, rfl, by decide⟩
  | .obj [] => exact ⟨'\x7b', _, by rw [render_obj_nil]; rfl, rfl, by decide⟩
  | .obj (m :: fs) => exact ⟨'\x7b', _, render_obj_broken spaced level m.1 m.2 fs rest, rfl, by decide⟩
  | .null | .bool _ | .int _ | .float _ | .str _ => exact scalar (by simp [mark])

theorem begins_broken (v : Json) (level : Nat) (rest : List Char) : Begins (render style level v ++ rest) := by
  obtain ⟨c, cs, text, solid, -⟩ := render_start spaced v level rest
  rw [text]
  intro d hd
  cases hd
  exact solid

theorem stops_brokenItems (level : Nat) (items : List Json) (rest : List Char) :
    Stops (brokenItems style level items rest) := by
  obtain ⟨gap, comma, -⟩ := spaced.comma
  cases items with
  | nil => exact stops_breakAt style level (.inl rfl) rest
  | cons v vs => rw [brokenItems, comma]; exact stops_cons (.inl rfl)

theorem stops_brokenFields (level : Nat) (fields : List (String × Json)) (rest : List Char) :
    Stops (brokenFields style level fields rest) := by
  obtain ⟨gap, comma, -⟩ := spaced.comma
  cases fields with
  | nil => exact stops_breakAt style level (.inr rfl) rest
  | cons m fs => rw [brokenFields, comma]; exact stops_cons (.inl rfl)

theorem skipGap_brokenItems_cons (v : Json) (level : Nat) (vs : List Json) (rest : List Char) :
    ∃ more, skipGap (brokenItems style level (v :: vs) rest) = ',' :: more ∧
      skipGap more = render style (level + 1) v ++ brokenItems style level vs rest := by
  obtain ⟨gap, comma, white⟩ := spaced.comma
  have all : ∀ c ∈ gap ++ style.breakAt (level + 1), isGap c = true :=
    List.forall_mem_append.mpr ⟨white, gap_breakAt style (level + 1)⟩
  have begins := begins_broken spaced v (level + 1) (brokenItems style level vs rest)
  refine ⟨_, ?_, skipGap_append all begins⟩
  rw [brokenItems, comma]
  simp [skipGap, isGap]

theorem skipGap_brokenFields_cons (level : Nat) (k : String) (v : Json) (fs : List (String × Json))
    (rest : List Char) : ∃ more, skipGap (brokenFields style level ((k, v) :: fs) rest) = ',' :: more ∧
      skipGap more = memberText style (level + 1) k v (brokenFields style level fs rest) := by
  obtain ⟨gap, comma, white⟩ := spaced.comma
  have all : ∀ c ∈ gap ++ style.breakAt (level + 1), isGap c = true :=
    List.forall_mem_append.mpr ⟨white, gap_breakAt style (level + 1)⟩
  refine ⟨_, ?_, skipGap_append all (by simp [Begins, memberText, stringText, isGap])⟩
  rw [brokenFields, comma]
  simp [skipGap, isGap]

theorem length_brokenItems (level : Nat) (vs : List Json) (rest : List Char) :
    vs.length < (brokenItems style level vs rest).length := by
  obtain ⟨gap, comma, -⟩ := spaced.comma
  induction vs with
  | nil => simp [brokenItems]
  | cons v vs ih =>
    rw [brokenItems, comma]
    simp only [List.length_append, List.length_cons]
    omega

theorem length_brokenFields (level : Nat) (fs : List (String × Json)) (rest : List Char) :
    fs.length < (brokenFields style level fs rest).length := by
  obtain ⟨gap, comma, -⟩ := spaced.comma
  induction fs with
  | nil => simp [brokenFields]
  | cons m fs ih =>
    rw [brokenFields, comma, memberText]
    simp only [List.length_append, List.length_cons]
    omega

end spaced
end CodeAgent.Json
