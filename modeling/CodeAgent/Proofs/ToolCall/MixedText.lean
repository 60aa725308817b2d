import CodeAgent.Proofs.ToolCall.TagText

/-! Element text in which escaped characters and verbatim sections take turns: decoding gives back every part as it
was before it was written. No text is kept out of sections: where it holds the end of a section, one section ends
after the two brackets and the next one goes on. -/
namespace CodeAgent.Markup
open CodeAgent.Text

/-! ### Where a section starts and ends -/

theorem cutAt?_append {part : List Char} (filled : part ≠ []) (rest : List Char) :
    cutAt? part (part ++ rest) = some ([], rest) := by
  obtain ⟨p, ps, rfl⟩ := List.exists_cons_of_ne_nil filled
  have found := dropStart?_append (p :: ps) rest
  rw [List.cons_append] at found ⊢
  rw [cutAt?, found]

/-- A text that ends with the end of a section is cut there, if it has no earlier end. -/
theorem cutAt?_verbatimClose {c : List Char} (unended : ¬ verbatimClose <:+: c) (rest : List Char) :
    cutAt? verbatimClose (c ++ (verbatimClose ++ rest)) = some (c, rest) := by
  induction c with
  | nil => exact cutAt?_append (List.cons_ne_nil _ _) rest
  | cons d c ih =>
    have later : ¬ verbatimClose <:+: c := fun part => unended (part.trans (List.suffix_cons d c).isInfix)
    have missed : dropStart? verbatimClose (d :: (c ++ (verbatimClose ++ rest))) = none := by
      refine Option.eq_none_iff_forall_ne_some.mpr fun after found => ?_
      have whole := dropStart?_eq_some found
      -- The end would start in the text, and end in it or in the two brackets behind it.
      match c, whole with
      | [], whole => simp [verbatimClose] at whole
      | [e], whole => simp [verbatimClose] at whole
      | e :: f :: c, whole =>
        simp only [verbatimClose, List.cons_append, List.nil_append, List.cons.injEq] at whole
        obtain ⟨rfl, rfl, rfl, -⟩ := whole
        exact unended ⟨[], c, rfl⟩
    rw [List.cons_append, cutAt?, missed, ih later]
    rfl

/-- What holds no angle bracket stands before the first section. -/
theorem cutAt?_verbatimOpen {before : List Char} (plain : '<' ∉ before) (rest : List Char) :
    cutAt? verbatimOpen (before ++ (verbatimOpen ++ rest)) = some (before, rest) := by
  induction before with
  | nil => exact cutAt?_append (List.cons_ne_nil _ _) rest
  | cons c before ih =>
    rw [List.mem_cons, not_or] at plain
    have missed : dropStart? verbatimOpen (c :: (before ++ (verbatimOpen ++ rest))) = none :=
      dropStart?_cons_of_ne plain.1 _ _
    rw [List.cons_append, cutAt?, missed, ih plain.2]
    rfl

/-- A text as a verbatim section. -/
def verbatim (c : List Char) : List Char := verbatimOpen ++ (c ++ verbatimClose)

theorem section?_verbatim {before inside : List Char} (plain : '<' ∉ before) (unended : ¬ verbatimClose <:+: inside)
    (after : List Char) : section? (before ++ (verbatim inside ++ after)) = some (before, inside, after) := by
  rw [section?, verbatim, List.append_assoc, cutAt?_verbatimOpen plain, List.append_assoc]
  simp only [Option.bind_eq_bind, Option.bind_some, cutAt?_verbatimClose unended]

theorem decodeText_of_section? {cs before inside after : List Char}
    (found : section? cs = some (before, inside, after)) :
    decodeText cs = unescape before ++ inside ++ decodeText after := by
  rw [decodeText]
  split
  · next missing =>
    rw [found] at missing
    contradiction
  · next first =>
    rw [found] at first
    cases first
    rfl

/-! ### Parts that take turns -/

/-- A text with some of it escaped, and the rest in verbatim sections that are each followed by escaped text. -/
def mixed (first : List Char) (others : List (List Char × List Char)) : List Char :=
  escape first ++ others.flatMap fun p => verbatim p.1 ++ escape p.2

theorem mixed_cons (first : List Char) (p : List Char × List Char) (others : List (List Char × List Char)) :
    mixed first (p :: others) = escape first ++ (verbatim p.1 ++ mixed p.2 others) := by
  rw [mixed, List.flatMap_cons, List.append_assoc, mixed]

theorem decodeText_mixed (first : List Char) {others : List (List Char × List Char)}
    (unended : ∀ p ∈ others, ¬ verbatimClose <:+: p.1) :
    decodeText (mixed first others) = first ++ others.flatMap fun p => p.1 ++ p.2 := by
  induction others generalizing first with
  | nil =>
    rw [mixed, List.flatMap_nil, List.append_nil, decodeText_escape, List.flatMap_nil, List.append_nil]
  | cons p others ih =>
    obtain ⟨here, later⟩ := List.forall_mem_cons.mp unended
    have plain := notMem_escape (by decide : '<' ∈ specials) (by decide) first
    rw [mixed_cons, decodeText_of_section? (section?_verbatim plain here _), unescape_escape, ih p.2 later,
      List.flatMap_cons, List.append_assoc, List.append_assoc]

theorem flatMap_verbatim_eq_mixed (sections : List (List Char)) :
    sections.flatMap verbatim = mixed [] (sections.map fun s => (s, [])) := by
  have empty : escape [] = [] := rfl
  simp [mixed, List.flatMap_map, empty]

/-- Sections alone stand for the texts in them. -/
theorem decodeText_sections {sections : List (List Char)} (unended : ∀ s ∈ sections, ¬ verbatimClose <:+: s) :
    decodeText (sections.flatMap verbatim) = sections.flatten := by
  rw [flatMap_verbatim_eq_mixed, decodeText_mixed [] (by simpa using unended), List.flatMap_map]
  simp [List.flatMap_id']

/-- A verbatim section stands for the text in it. -/
theorem decodeText_verbatim {c : List Char} (unended : ¬ verbatimClose <:+: c) :
    decodeText (verbatim c) = c := by
  have one := decodeText_sections (List.forall_mem_singleton.mpr unended)
  simpa using one

/-! ### Any text in sections -/

/-- What stands for the end of a section in a text: its brackets end one section, and the next one starts with
the rest of it. -/
def spreadClose : List Char := ']' :: ']' :: (verbatimClose ++ (verbatimOpen ++ ['>']))

/-- A text in verbatim sections, whatever is in it. -/
def spread (cs : List Char) : List Char := verbatim (replaceEach verbatimClose spreadClose cs)

/-- The text that a spread text starts with goes up to its first end of a section. -/
theorem exists_sections (cs : List Char) : ∃ (first : List Char) (others : List (List Char)),
    replaceEach verbatimClose spreadClose cs ++ verbatimClose =
        first ++ (verbatimClose ++ others.flatMap verbatim) ∧
      first ++ others.flatten = cs ∧ ¬ verbatimClose <:+: first ∧ ∀ s ∈ others, ¬ verbatimClose <:+: s := by
  have filled : verbatimClose ≠ [] := List.cons_ne_nil _ _
  induction cs using parts_induction filled with
  | nil => exact ⟨[], [], by rw [replaceEach_nil filled]; rfl, rfl, by decide, List.forall_mem_nil _⟩
  | hit rest ih =>
    obtain ⟨first, others, text, whole, unended, later⟩ := ih
    refine ⟨[']', ']'], ('>' :: first) :: others, ?_, ?_, by decide, List.forall_mem_cons.mpr ⟨?_, later⟩⟩
    · rw [replaceEach_part_append filled, List.append_assoc, text]
      simp [spreadClose, verbatim]
    · rw [← whole]
      simp [verbatimClose]
    · rw [List.infix_cons_iff, not_or]
      exact ⟨by simp [verbatimClose], unended⟩
  | miss c cs other ih =>
    obtain ⟨first, others, text, whole, unended, later⟩ := ih
    refine ⟨c :: first, others, ?_, by rw [List.cons_append, whole], ?_, later⟩
    · rw [replaceEach_cons filled other, List.cons_append, text]
      rfl
    · rw [List.infix_cons_iff, not_or]
      have start : c :: first <+: c :: cs := List.cons_prefix_cons.mpr ⟨rfl, whole ▸ List.prefix_append _ _⟩
      exact ⟨fun closes => other (closes.trans start), unended⟩

theorem decodeText_spread (cs : List Char) : decodeText (spread cs) = cs := by
  obtain ⟨first, others, text, whole, unended, later⟩ := exists_sections cs
  have sections : spread cs = (first :: others).flatMap verbatim := by
    rw [spread, verbatim, text, List.flatMap_cons, verbatim, List.append_assoc, List.append_assoc]
  rw [sections, decodeText_sections (List.forall_mem_cons.mpr ⟨unended, later⟩), List.flatten_cons, whole]

/-- Decoding undoes the writing of text that is escaped in some parts and stands in verbatim sections in others, if
no section holds the end of one; and any text whatever comes back if each such end in it is spread over two
sections. -/
theorem decodeText_written_parts (first : List Char) (others : List (List Char × List Char))
    (unended : ∀ p ∈ others, ¬ verbatimClose <:+: p.1) :
    decodeText (mixed first others) = first ++ (others.flatMap fun p => p.1 ++ p.2) ∧
      ∀ cs, decodeText (spread cs) = cs :=
  ⟨decodeText_mixed first unended, decodeText_spread⟩

/-- Sections that end in brackets, open another section, hold an entity, are empty, or follow each other. -/
theorem decodeText_written_parts_brackets :
    let others := [("x ]] <![CDATA[ &lt; ]".toList, "]]> & \"q\"".toList), ([], []), ("]]".toList, "'&amp;'".toList)]
    (∀ p ∈ others, ¬ verbatimClose <:+: p.1) ∧
      decodeText ("a &lt; b<![CDATA[x ]] <![CDATA[ &lt; ]]]>]]&gt; &amp; &quot;q&quot;<![CDATA[]]><![CDATA[]]]]>" ++
          "&apos;&amp;amp;&apos;").toList =
        "a < bx ]] <![CDATA[ &lt; ]]]> & \"q\"]]'&amp;'".toList ∧
      decodeText "<![CDATA[a]]]]]><![CDATA[>]]]]><![CDATA[>]]>".toList = "a]]]>]]>".toList := by
  intro others
  have unended : ∀ p ∈ others, ¬ verbatimClose <:+: p.1 := by decide +kernel
  obtain ⟨parts, any⟩ := decodeText_written_parts "a < b".toList others unended
  have text : mixed "a < b".toList others = ("a &lt; b<![CDATA[x ]] <![CDATA[ &lt; ]]]>]]&gt; &amp; " ++
      "&quot;q&quot;<![CDATA[]]><![CDATA[]]]]>&apos;&amp;amp;&apos;").toList := by decide +kernel
  have spread_text : spread "a]]]>]]>".toList = "<![CDATA[a]]]]]><![CDATA[>]]]]><![CDATA[>]]>".toList := by
    decide +kernel
  refine ⟨unended, ?_, ?_⟩
  · rw [text] at parts
    exact parts
  · rw [← spread_text]
    exact any _

end CodeAgent.Markup
