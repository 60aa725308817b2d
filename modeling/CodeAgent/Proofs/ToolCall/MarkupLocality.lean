import CodeAgent.Proofs.ToolCall.ElementText

/-! Elements are read from the part of a text that ends with their last bracket, whatever follows it. -/
namespace CodeAgent
open CodeAgent.Text

namespace InvokeBlock
variable {element cs rest : List Char}

/-- White space before a bracket is skipped in the same way whatever follows the bracket. -/
theorem skipBlanks_bracket (used rest : List Char) :
    skipBlanks (used ++ '>' :: rest) = skipBlanks (used ++ ['>']) ++ rest := by
  induction used with
  | nil => rfl
  | cons c used ih =>
    simp only [skipBlanks, List.cons_append, List.dropWhile_cons] at ih ⊢
    split
    · exact ih
    · simp

theorem skipBlanks_bracket_ne_nil (used : List Char) : skipBlanks (used ++ ['>']) ≠ [] := by
  induction used with
  | nil => decide
  | cons c used ih =>
    simp only [skipBlanks, List.cons_append, List.dropWhile_cons] at ih ⊢
    split
    · exact ih
    · simp

theorem exists_blanks (cs : List Char) : ∃ blanks : Blanks, cs = blanks ++ skipBlanks cs :=
  ⟨⟨cs.takeWhile isBlank, fun _ hc => List.mem_takeWhile_imp hc⟩, List.takeWhile_append_dropWhile.symm⟩

/-- Whether a bracket comes next, after white space, is seen without what follows the next bracket. -/
theorem skipBlanks_ne_bracket {used rest : List Char} (other : ∀ more, skipBlanks (used ++ '>' :: rest) ≠ '>' :: more)
    (rest' more : List Char) : skipBlanks (used ++ '>' :: rest') ≠ '>' :: more := by
  obtain ⟨c, tail, shape⟩ := List.exists_cons_of_ne_nil (skipBlanks_bracket_ne_nil used)
  rw [skipBlanks_bracket, shape] at other ⊢
  rintro same
  obtain ⟨rfl, -⟩ := List.cons.inj same
  exact other _ rfl

theorem quotedToTagEnd?_local {quote : Char} {name : List Char}
    (read : quotedToTagEnd? quote cs = some (name, rest)) : ∃ used, cs = used ++ '>' :: rest ∧
      ∀ other, quotedToTagEnd? quote (used ++ '>' :: other) = some (name, other) := by
  induction cs generalizing name with
  | nil => contradiction
  | cons c cs ih =>
    have further (missed : ∀ more, c = quote → skipBlanks cs ≠ '>' :: more)
        (later : (quotedToTagEnd? quote cs).map (fun r => (c :: r.1, r.2)) = some (name, rest)) :
        ∃ used, c :: cs = used ++ '>' :: rest ∧
          ∀ other, quotedToTagEnd? quote (used ++ '>' :: other) = some (name, other) := by
      obtain ⟨⟨inner, after⟩, found, made⟩ := Option.map_eq_some_iff.mp later
      obtain ⟨rfl, rfl⟩ := Prod.mk.inj made
      obtain ⟨used, rfl, again⟩ := ih found
      refine ⟨c :: used, rfl, fun other => ?_⟩
      rw [List.cons_append, quotedToTagEnd?, again]
      dsimp only
      split
      · next same =>
        split
        · next more ended =>
          exact absurd ended (skipBlanks_ne_bracket (fun more => missed more (eq_of_beq same)) other more)
        · rfl
      · rfl
    rw [quotedToTagEnd?] at read
    split at read
    · next same =>
      split at read
      · next after ended =>
        obtain ⟨rfl, rfl⟩ := Prod.mk.inj (Option.some.inj read)
        obtain ⟨blanks, split⟩ := exists_blanks cs
        rw [ended] at split
        subst split
        refine ⟨c :: blanks, rfl, fun other => ?_⟩
        rw [List.cons_append, quotedToTagEnd?, if_pos same, blanks.skip (by decide)]
        rfl
      · next missed => exact further (fun more _ ended => missed more ended) read
    · next different => exact further (fun more same => absurd same (by simpa using different)) read

/-- A closing tag that a text does not start with it does not start with whatever follows its next bracket. -/
theorem closing?_none_local {used : List Char} (unbracketed : '>' ∉ element)
    (none : closing? element (used ++ '>' :: rest) = none) (other : List Char) :
    closing? element (used ++ '>' :: other) = Option.none := by
  refine Option.eq_none_iff_forall_ne_some.mpr fun after closed => ?_
  obtain ⟨blanks, whole⟩ := closing?_eq_some closed
  have flat : '>' ∉ '<' :: '/' :: (element ++ blanks) := by
    simp [unbracketed, blanks.notMem (show isBlank '>' = false by decide)]
  have tag (more : List Char) : '<' :: '/' :: (element ++ (blanks ++ '>' :: more)) =
      ('<' :: '/' :: (element ++ blanks)) ++ '>' :: more := by simp
  rw [tag] at whole
  -- The first bracket of the text ends the tag.
  have first : used = '<' :: '/' :: (element ++ blanks) ∨ ∃ more, used = ('<' :: '/' :: (element ++ blanks)) ++ '>' :: more := by
    obtain ⟨gap, split, after'⟩ | ⟨gap, split, after'⟩ := List.append_eq_append_iff.mp whole
    · cases gap with
      | nil => exact .inl (by simpa using split.symm)
      | cons c gap =>
        obtain ⟨rfl, -⟩ := List.cons.inj after'
        exact absurd (by rw [split]; simp) flat
    · cases gap with
      | nil => exact .inl (by simpa using split)
      | cons c gap =>
        obtain ⟨rfl, -⟩ := List.cons.inj after'
        exact .inr ⟨gap, split⟩
  obtain rfl | ⟨more, rfl⟩ := first
  · rw [← tag, closing?_closing] at none
    contradiction
  · have regroup : ('<' :: '/' :: (element ++ blanks)) ++ '>' :: more ++ '>' :: rest =
        '<' :: '/' :: (element ++ (blanks ++ '>' :: (more ++ '>' :: rest))) := by simp
    rw [regroup, closing?_closing] at none
    contradiction

theorem closeTag?_local (unbracketed : '>' ∉ element) {inside : List Char}
    (read : closeTag? element cs = some (inside, rest)) : ∃ used, cs = used ++ '>' :: rest ∧
      ∀ other, closeTag? element (used ++ '>' :: other) = some (inside, other) := by
  induction cs generalizing inside with
  | nil => contradiction
  | cons c cs ih =>
    rw [closeTag?_cons_eq] at read
    split at read
    · next after closed =>
      obtain ⟨rfl, rfl⟩ := Prod.mk.inj (Option.some.inj read)
      obtain ⟨blanks, split⟩ := closing?_eq_some closed
      refine ⟨'<' :: '/' :: (element ++ blanks), by simp [split], fun other => ?_⟩
      have closed' := closing?_closing element blanks other
      simp only [List.cons_append, List.append_assoc, closeTag?_cons_eq, closed']
    · next missed =>
      obtain ⟨⟨inner, after⟩, found, made⟩ := Option.map_eq_some_iff.mp read
      obtain ⟨rfl, rfl⟩ := Prod.mk.inj made
      obtain ⟨used, rfl, again⟩ := ih found
      refine ⟨c :: used, rfl, fun other => ?_⟩
      rw [List.cons_append, closeTag?_cons_eq, again, ← List.cons_append,
        closing?_none_local unbracketed missed other]
      rfl

/-- An opening tag up to its opening quote. -/
structure TagHead where
  space : Char
  more : Blanks
  beforeEquals : Blanks
  afterEquals : Blanks
  quote : Char
  blank_space : isBlank space = true
  quote_eq : quote = '"' ∨ quote = '\''

namespace TagHead

/-- The characters of an opening tag through its opening quote. -/
def text (h : TagHead) (element : List Char) : List Char :=
  '<' :: (element ++ h.space :: (h.more ++ 'n' :: 'a' :: 'm' :: 'e' :: (h.beforeEquals ++ '=' ::
    (h.afterEquals ++ [h.quote]))))

theorem openTag?_text (h : TagHead) (element value : List Char) :
    openTag? element (h.text element ++ value) = quotedToTagEnd? h.quote value := by
  have whole : h.text element ++ value = '<' :: (element ++ h.space :: (h.more ++ 'n' :: 'a' :: 'm' :: 'e' ::
      (h.beforeEquals ++ '=' :: (h.afterEquals ++ h.quote :: value)))) := by
    simp [text]
  rw [whole, openTag?_of_spacing element h.more h.beforeEquals h.afterEquals h.blank_space h.quote_eq]

theorem exists_of_openTag? {made : List Char × List Char} (read : openTag? element cs = some made) :
    ∃ (h : TagHead) (value : List Char), cs = h.text element ++ value ∧ quotedToTagEnd? h.quote value = some made := by
  rw [openTag?] at read
  simp only [Option.bind_eq_bind, Option.bind_eq_some_iff] at read
  obtain ⟨afterName, opened, named, spaced, afterKey, keyed, valued, equals, last⟩ := read
  cases afterName with
  | nil => contradiction
  | cons space afterSpace =>
    rw [skipBlanks?] at spaced
    split at spaced
    · next blank =>
      obtain ⟨more, shape⟩ := exists_blanks afterSpace
      obtain ⟨beforeEquals, shape'⟩ := exists_blanks afterKey
      obtain ⟨afterEquals, shape''⟩ := exists_blanks valued
      rw [Option.some.inj spaced, dropStart?_eq_some keyed, shape', dropStart?_eq_some equals, shape''] at shape
      have whole := dropStart?_eq_some opened
      rw [shape] at whole
      split at last
      · next value quoted =>
        refine ⟨⟨space, more, beforeEquals, afterEquals, '"', blank, .inl rfl⟩, value, ?_, last⟩
        rw [whole, quoted]
        simp [text]
      · next value quoted =>
        refine ⟨⟨space, more, beforeEquals, afterEquals, '\'', blank, .inr rfl⟩, value, ?_, last⟩
        rw [whole, quoted]
        simp [text]
      · contradiction
    · contradiction

end TagHead

/-- An element is read from a part of a text, whatever follows. -/
theorem element?_local (unbracketed : '>' ∉ element) {e : Element} (read : element? element cs = some (e, rest)) :
    ∃ used, cs = used ++ '>' :: rest ∧ ∀ other, element? element (used ++ '>' :: other) = some (e, other) := by
  rw [element?] at read
  simp only [Option.bind_eq_bind, Option.bind_eq_some_iff] at read
  obtain ⟨⟨name, inner⟩, opened, ⟨body, after⟩, closed, made⟩ := read
  obtain ⟨rfl, rfl⟩ := Prod.mk.inj (Option.some.inj made)
  obtain ⟨head, value, rfl, quoted⟩ := TagHead.exists_of_openTag? opened
  obtain ⟨used, rfl, again⟩ := quotedToTagEnd?_local quoted
  obtain ⟨used', rfl, again'⟩ := closeTag?_local unbracketed closed
  refine ⟨head.text element ++ (used ++ '>' :: used'), by simp, fun other => ?_⟩
  have regroup : head.text element ++ (used ++ '>' :: used') ++ '>' :: other =
      head.text element ++ (used ++ '>' :: (used' ++ '>' :: other)) := by simp
  rw [regroup, element?, head.openTag?_text, again]
  simp only [Option.bind_eq_bind, Option.bind_some, again']

end InvokeBlock

end CodeAgent
