import CodeAgent.Proofs.Json.Locality
import CodeAgent.Proofs.Wire.ValueChunks

/-! Streams of values that are JSON as a whole: the scan finds each value of the stream, and no other text. -/
namespace CodeAgent.Wire
open CodeAgent.Text

namespace Scan
variable {read : TextReader}

/-- The state between values. -/
def idle (arrayOpen seenValue : Bool) : Scan := { arrayOpen, seenValue }

/-- The state inside a value: its depth, what was read of it, and whether a string is open. -/
def within (s : Scan) (depth : Nat) (value : List Char) (inString : Bool) : Scan :=
  { s with value, depth, inString, escaped := false }

theorem run_cons {s next : Scan} {c : Char} (step : s.step c = (next, none)) (cs : List Char) :
    s.run read (c :: cs) = next.run read cs := by
  rw [run, step]

section Steps
variable (s : Scan) (depth : Nat) (value : List Char)

theorem step_string_plain {c : Char} (quote : c ≠ '"') (mark : c ≠ '\\') :
    (s.within (depth + 1) value true).step c = (s.within (depth + 1) (c :: value) true, none) := by
  simp [step, inside, insideString, within, quote, mark]

theorem step_string_close :
    (s.within (depth + 1) value true).step '"' = (s.within (depth + 1) ('"' :: value) false, none) := by
  simp [step, inside, insideString, within]

theorem run_string_escape (c : Char) (cs : List Char) :
    (s.within (depth + 1) value true).run read ('\\' :: c :: cs) =
      (s.within (depth + 1) (c :: '\\' :: value) true).run read cs := by
  have mark : (s.within (depth + 1) value true).step '\\' =
      ({ s.within (depth + 1) ('\\' :: value) true with escaped := true }, none) := by
    simp [step, inside, insideString, within]
  have escaped : { s.within (depth + 1) ('\\' :: value) true with escaped := true }.step c =
      (s.within (depth + 1) (c :: '\\' :: value) true, none) := by
    simp [step, inside, insideString, within]
  rw [run_cons mark, run_cons escaped]

theorem step_plain {c : Char} (flat : Json.isPlain c = true) :
    (s.within (depth + 1) value false).step c = (s.within (depth + 1) (c :: value) false, none) := by
  simp only [Json.isPlain, Bool.and_eq_true, bne_iff_ne] at flat
  obtain ⟨⟨⟨⟨quote, array⟩, array'⟩, object⟩, object'⟩ := flat
  simp [step, inside, within, opens, closes, quote, array, array', object, object']

theorem step_quote :
    (s.within (depth + 1) value false).step '"' = (s.within (depth + 1) ('"' :: value) true, none) := by
  simp [step, inside, within]

theorem step_open {opening closing : Char} (pair : (opening, closing) ∈ Json.brackets) :
    (s.within (depth + 1) value false).step opening =
      (s.within (depth + 2) (opening :: value) false, none) := by
  simp only [Json.brackets, List.mem_cons, Prod.mk.injEq, List.not_mem_nil, or_false] at pair
  obtain ⟨rfl, -⟩ | ⟨rfl, -⟩ := pair
  · simp [step, inside, within, opens]
  · simp [step, inside, within, opens]

theorem step_close {opening closing : Char} (pair : (opening, closing) ∈ Json.brackets) :
    (s.within (depth + 2) value false).step closing =
      (s.within (depth + 1) (closing :: value) false, none) := by
  simp only [Json.brackets, List.mem_cons, Prod.mk.injEq, List.not_mem_nil, or_false] at pair
  obtain ⟨-, rfl⟩ | ⟨-, rfl⟩ := pair
  · simp [step, inside, within, opens, closes]
  · simp [step, inside, within, opens, closes]

/-- The last bracket of a value completes it. -/
theorem step_last : (s.within 1 value false).step '}' =
    (s.within 0 [] false, some ('}' :: value).reverse) := by
  simp [step, inside, within, opens, closes, reset]

end Steps

/-- The scan passes over a string and leaves it at its closing quote. -/
theorem run_string {used : List Char} (closed : Json.StringRest used) (s : Scan) (depth : Nat)
    (value cs : List Char) : (s.within (depth + 1) value true).run read (used ++ cs) =
      (s.within (depth + 1) (used.reverse ++ value) false).run read cs := by
  induction closed generalizing value with
  | close => exact run_cons (step_string_close s depth value) cs
  | escape c _ ih =>
    rw [List.cons_append, List.cons_append, run_string_escape, ih]
    simp
  | plain quote mark _ ih =>
    rw [List.cons_append, run_cons (step_string_plain s depth value quote mark), ih]
    simp

/-- The scan passes over balanced text inside a value, and its depth is what it was. -/
theorem run_balanced {used : List Char} (balanced : Json.Balanced used) (s : Scan) (depth : Nat)
    (value cs : List Char) : (s.within (depth + 1) value false).run read (used ++ cs) =
      (s.within (depth + 1) (used.reverse ++ value) false).run read cs := by
  induction balanced generalizing depth value cs with
  | nil => rfl
  | plain flat _ ih =>
    rw [List.cons_append, run_cons (step_plain s depth value flat), ih]
    simp
  | string closed _ ih =>
    rw [List.cons_append, List.append_assoc, run_cons (step_quote s depth value), run_string closed, ih]
    simp
  | nested pair _ _ ih_body ih_more =>
    rw [List.cons_append, List.append_assoc, List.cons_append,
      run_cons (step_open s depth value pair), ih_body, run_cons (step_close s depth _ pair), ih_more]
    simp

theorem step_idle_object (arrayOpen seenValue : Bool) : (idle arrayOpen seenValue).step '{' =
    ((idle arrayOpen true).within 1 ['{'] false, none) := by
  cases arrayOpen <;> cases seenValue <;> rfl

theorem step_idle_gap (arrayOpen seenValue : Bool) {c : Char} (between : Json.isGap c = true ∨ c = ',') :
    (idle arrayOpen seenValue).step c = (idle arrayOpen seenValue, none) := by
  simp only [Json.isGap, Bool.or_eq_true, beq_iff_eq, or_assoc] at between
  obtain rfl | rfl | rfl | rfl | rfl := between <;> cases arrayOpen <;> cases seenValue <;> rfl

theorem run_gap (arrayOpen seenValue : Bool) {gap : List Char} (white : ∀ c ∈ gap, Json.isGap c = true)
    (cs : List Char) :
    (idle arrayOpen seenValue).run read (gap ++ cs) = (idle arrayOpen seenValue).run read cs := by
  induction gap with
  | nil => rfl
  | cons c gap ih =>
    rw [List.cons_append, run_cons (step_idle_gap arrayOpen seenValue (.inl (white c (by simp)))),
      ih fun d hd => white d (by simp [hd])]

/-- The scan completes an object exactly at its closing brace. -/
theorem run_object (arrayOpen seenValue : Bool) {body : List Char} (balanced : Json.Balanced body) :
    (idle arrayOpen seenValue).run read ('{' :: (body ++ ['}'])) =
      (idle arrayOpen true, read ('{' :: (body ++ ['}']))) := by
  have text : ('}' :: (body.reverse ++ ['{'])).reverse = '{' :: (body ++ ['}']) := by simp
  rw [run_cons (step_idle_object arrayOpen seenValue), run_balanced balanced, run, step_last, text]
  dsimp only
  cases read ('{' :: (body ++ ['}'])) with
  | error e => rfl
  | ok texts => simp [run, Except.map, within, idle]

theorem conclude_gap (arrayOpen seenValue : Bool) {gap : List Char}
    (white : ∀ c ∈ gap, Json.isGap c = true) (cs : List Char) :
    (idle arrayOpen seenValue).conclude read (gap ++ cs) = (idle arrayOpen seenValue).conclude read cs := by
  rw [conclude, run_gap arrayOpen seenValue white, conclude]

theorem conclude_cons {s next : Scan} {c : Char} (step : s.step c = (next, none)) (cs : List Char) :
    s.conclude read (c :: cs) = next.conclude read cs := by
  rw [conclude, run_cons step, conclude]

theorem conclude_object (arrayOpen seenValue : Bool) {body : List Char} (balanced : Json.Balanced body)
    (cs : List Char) : (idle arrayOpen seenValue).conclude read ('{' :: (body ++ '}' :: cs)) = do
      let texts ← read ('{' :: (body ++ ['}']))
      let rest ← (idle arrayOpen true).conclude read cs
      return texts ++ rest := by
  have regroup : '{' :: (body ++ '}' :: cs) = '{' :: (body ++ ['}']) ++ cs := by simp
  rw [regroup, conclude_append, run_object arrayOpen seenValue balanced]

theorem textsOf_object {cs : List Char} {fields : List (String × Json)}
    (read : Json.readChars? cs = .ok (.obj fields)) :
    textsOf cs = (responseTexts (.obj fields)).mapError .breakdown := by
  rw [textsOf, readJson, read]
  rfl

/-- Nothing but white space is left. -/
theorem conclude_end (arrayOpen seenValue : Bool) {cs : List Char} (done : Json.skipGap cs = []) :
    (idle arrayOpen seenValue).conclude read cs = .ok [] := by
  obtain ⟨gap, split, white⟩ := Json.exists_gap cs
  rw [split, done, conclude_gap arrayOpen seenValue white]
  rfl

/-- The texts of responses in order, and then those of what comes after them. -/
def textsThen (items : List Json) (ending : Except Failure (List String)) :
    Except Failure (List String) := do
  let texts ← (items.mapM responseTexts).mapError .breakdown
  let more ← ending
  return texts.flatten ++ more

theorem textsThen_nil (ending : Except Failure (List String)) : textsThen [] ending = ending := by
  rw [textsThen, List.mapM_nil]
  cases ending <;> rfl

theorem textsThen_cons (item : Json) (others : List Json) (ending : Except Failure (List String)) :
    textsThen (item :: others) ending = do
      let texts ← (responseTexts item).mapError .breakdown
      let rest ← textsThen others ending
      return texts ++ rest := by
  rw [textsThen, textsThen, List.mapM_cons]
  cases responseTexts item with
  | error b => rfl
  | ok texts =>
    cases others.mapM responseTexts with
    | error b => rfl
    | ok texts' =>
      cases ending with
      | error e => rfl
      | ok rest => simp [bind, Except.bind, Except.mapError, pure, Except.pure]

theorem textsThen_end (items : List Json) :
    textsThen items (.ok []) = (valueTexts (.arr items)).mapError .breakdown := by
  have each : valueTexts (.arr items) = do return (← items.mapM responseTexts).flatten := rfl
  rw [textsThen, each]
  cases items.mapM responseTexts with
  | error b => rfl
  | ok texts => simp [bind, Except.bind, Except.mapError, pure, Except.pure]

/-- The scan reads the elements of an array, each as soon as it is complete. -/
theorem conclude_items {depth n : Nat} {cs rest : List Char} {items : List Json} (seenValue : Bool)
    (bound : depth ≤ Json.maxDepth) (objects : ∀ v ∈ items, ∃ fields, v = .obj fields)
    (items_read : Json.readItems (Json.readValue depth) n cs = .ok (items, rest)) :
    (idle true seenValue).conclude textsOf cs =
      textsThen items ((idle false true).conclude textsOf rest) := by
  induction n generalizing cs items seenValue with
  | zero => contradiction
  | succ n ih =>
    obtain ⟨item, tail, first, continued⟩ := Json.readItems_cases items_read
    have item_mem : item ∈ items := by
      obtain ⟨_, _, _, _, rfl⟩ | ⟨_, rfl⟩ := continued <;> simp
    obtain ⟨fields, rfl⟩ := objects item item_mem
    obtain ⟨body, rfl, balanced, alone⟩ := Json.readValue_object_text bound first
    rw [conclude_object true seenValue balanced, textsOf_object alone]
    obtain ⟨more, others, comma, later, rfl⟩ | ⟨bracket, rfl⟩ := continued
    · obtain ⟨gap, split, white⟩ := Json.exists_gap tail
      obtain ⟨gap', split', white'⟩ := Json.exists_gap more
      have after : (idle true true).conclude textsOf tail =
          (idle true true).conclude textsOf (Json.skipGap more) := by
        rw [split, conclude_gap true true white, comma,
          conclude_cons (step_idle_gap true true (.inr rfl)), split', conclude_gap true true white',
          ← split']
      rw [after, ih true (fun v hv => objects v (by simp [hv])) later, ← textsThen_cons]
    · obtain ⟨gap, split, white⟩ := Json.exists_gap tail
      have after : (idle true true).conclude textsOf tail = (idle false true).conclude textsOf rest := by
        have closing : (idle true true).step ']' = (idle false true, none) := rfl
        rw [split, conclude_gap true true white, bracket, conclude_cons closing]
      rw [after, textsThen_cons, textsThen_nil]

end Scan

/-- A response, or an array of responses. -/
def IsResponses (v : Json) : Prop :=
  (∃ fields, v = .obj fields) ∨ ∃ items, v = .arr items ∧ ∀ item ∈ items, ∃ fields, item = .obj fields

/-- The scan of a whole text gives the texts of the value that the text is read as. -/
theorem conclude_whole {cs : List Char} {v : Json} (read : Json.readChars? cs = .ok v)
    (responses : IsResponses v) :
    Scan.conclude Scan.textsOf {} cs = (valueTexts v).mapError .breakdown := by
  obtain ⟨rest, first, done⟩ := Json.readChars?_cases read
  obtain ⟨gap, split, white⟩ := Json.exists_gap cs
  change (Scan.idle false false).conclude Scan.textsOf cs = _
  rw [split, Scan.conclude_gap false false white]
  obtain ⟨fields, rfl⟩ | ⟨items, rfl, objects⟩ := responses
  · obtain ⟨body, shape, balanced, alone⟩ := Json.readValue_object_text (Nat.le_refl _) first
    have single : valueTexts (.obj fields) = responseTexts (.obj fields) := rfl
    rw [shape, Scan.conclude_object false false balanced, Scan.textsOf_object alone,
      Scan.conclude_end false true done, single]
    cases responseTexts (.obj fields) with
    | error b => rfl
    | ok texts => simp [bind, Except.bind, Except.mapError, pure, Except.pure]
  · obtain ⟨depth, more, deep, shape⟩ := Json.readValue_array_text first
    have opening : (Scan.idle false false).step '[' = (Scan.idle true false, none) := rfl
    obtain ⟨gap', split', white'⟩ := Json.exists_gap more
    rw [shape] at first ⊢
    rw [Scan.conclude_cons opening, split', Scan.conclude_gap true false white']
    rw [deep] at first
    obtain ⟨bracket, same⟩ | ⟨-, items', same, parts⟩ := Json.readValue_array_cases first
    · cases same
      have closing : (Scan.idle true false).step ']' = (Scan.idle false false, none) := rfl
      rw [bracket, Scan.conclude_cons closing, Scan.conclude_end false false done]
      rfl
    · cases same
      rw [Scan.conclude_items false (by omega) objects parts, Scan.conclude_end false true done,
        Scan.textsThen_end]

end CodeAgent.Wire
