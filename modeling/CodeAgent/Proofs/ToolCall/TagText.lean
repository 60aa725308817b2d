import CodeAgent.Proofs.ToolCall.QuotedText
import CodeAgent.Proofs.ToolCall.WrittenTag
import CodeAgent.ToolCall.InvokeBlock
import CodeAgent.ToolCall.Markup

/-! Escaped text: it has no special characters, and decoding gives the text back. Calls written out as compact tags:
the reader of tags gives back what was written, and the other readers find nothing in such a text. -/
namespace CodeAgent.Markup
open CodeAgent.Text

/-- A special character by its named entity, and any other as it is. -/
def escapeChar : Char → List Char
  | '&' => ['&', 'a', 'm', 'p', ';']
  | '<' => ['&', 'l', 't', ';']
  | '>' => ['&', 'g', 't', ';']
  | '"' => ['&', 'q', 'u', 'o', 't', ';']
  | '\'' => ['&', 'a', 'p', 'o', 's', ';']
  | c => [c]

/-- A text with its special characters as named entities. -/
def escape (cs : List Char) : List Char :=
  cs.flatMap escapeChar

/-- The characters that are escaped. -/
def specials : List Char := ['&', '<', '>', '"', '\'']

theorem escapeChar_of_notMem {c : Char} (ordinary : c ∉ specials) : escapeChar c = [c] := by
  simp only [specials, List.mem_cons, not_or] at ordinary
  obtain ⟨_, _, _, _, _, -⟩ := ordinary
  simp only [escapeChar]

/-- Every special character has an entity. -/
theorem exists_entity {c : Char} (special : c ∈ specials) :
    ∃ name, (name, c) ∈ namedEntities ∧ escapeChar c = '&' :: (name ++ [';']) := by
  obtain rfl | rfl | rfl | rfl | rfl := by simpa [specials] using special
  · exact ⟨['a', 'm', 'p'], by decide, rfl⟩
  · exact ⟨['l', 't'], by decide, rfl⟩
  · exact ⟨['g', 't'], by decide, rfl⟩
  · exact ⟨['q', 'u', 'o', 't'], by decide, rfl⟩
  · exact ⟨['a', 'p', 'o', 's'], by decide, rfl⟩

theorem escape_of_ordinary {cs : List Char} (ordinary : ∀ c ∈ cs, c ∉ specials) : escape cs = cs := by
  induction cs with
  | nil => rfl
  | cons c cs ih =>
    rw [escape, List.flatMap_cons, escapeChar_of_notMem (ordinary c List.mem_cons_self)]
    exact congrArg (c :: ·) (ih fun d hd => ordinary d (List.mem_cons_of_mem c hd))

/-- An escaped text has no special character but the ampersands of its entities. -/
theorem notMem_escape {c : Char} (special : c ∈ specials) (other : c ≠ '&') (cs : List Char) :
    c ∉ escape cs := by
  intro mem
  obtain ⟨d, -, mem⟩ := List.mem_flatMap.mp mem
  by_cases named : d ∈ specials
  · have plain : (specials.all fun d => (escapeChar d).all fun c =>
        c == '&' || !specials.contains c) = true := by decide
    have plain := List.all_eq_true.mp (List.all_eq_true.mp plain d named) c mem
    simp [other, special] at plain
  · rw [escapeChar_of_notMem named, List.mem_singleton] at mem
    exact named (mem ▸ special)

theorem unescape_cons_of_ne {c : Char} (other : c ≠ '&') (cs : List Char) :
    unescape (c :: cs) = c :: unescape cs := by
  rw [unescape, if_neg other]

theorem entity?_named {name : List Char} {c : Char} (named : (name, c) ∈ namedEntities) (rest : List Char) :
    entity? (name ++ ';' :: rest) = some (c, rest) := by
  obtain ⟨rfl, rfl⟩ | ⟨rfl, rfl⟩ | ⟨rfl, rfl⟩ | ⟨rfl, rfl⟩ | ⟨rfl, rfl⟩ := by
    simpa [namedEntities] using named
  all_goals rfl

theorem unescape_entity {name : List Char} {c : Char} (named : (name, c) ∈ namedEntities) (rest : List Char) :
    unescape ('&' :: (name ++ ';' :: rest)) = c :: unescape rest := by
  rw [unescape, if_pos rfl]
  split
  · next d after found =>
    rw [entity?_named named] at found
    cases found
    rfl
  · next missing =>
    rw [entity?_named named] at missing
    contradiction

/-- Decoding in one pass undoes escaping, also where the decoded text looks like an entity itself. -/
theorem unescape_escape (cs : List Char) : unescape (escape cs) = cs := by
  induction cs with
  | nil => simp [escape, unescape]
  | cons c cs ih =>
    rw [escape, List.flatMap_cons]
    by_cases special : c ∈ specials
    · obtain ⟨name, named, text⟩ := exists_entity special
      rw [text, List.cons_append, List.append_assoc, List.singleton_append, unescape_entity named]
      exact congrArg (c :: ·) ih
    · have other : c ≠ '&' := fun same => special (same ▸ by decide)
      rw [escapeChar_of_notMem special, List.singleton_append, unescape_cons_of_ne other]
      exact congrArg (c :: ·) ih

theorem section?_of_notMem {cs : List Char} (absent : '<' ∉ cs) : section? cs = none := by
  cases opened : cutAt? verbatimOpen cs with
  | none => rw [section?, opened]; rfl
  | some parts =>
    rw [cutAt?_eq_some opened] at absent
    exact absurd (by simp [verbatimOpen]) absent

/-- Escaped text has no verbatim sections. -/
theorem decodeText_escape (cs : List Char) : decodeText (escape cs) = cs := by
  have plain := section?_of_notMem (notMem_escape (by decide : '<' ∈ specials) (by decide) cs)
  rw [decodeText]
  split
  · exact unescape_escape cs
  · next opened =>
    rw [plain] at opened
    contradiction

end CodeAgent.Markup

namespace CodeAgent
open CodeAgent.Text

theorem Tool.exists_name_eq {name : String} (allowed : Tool.isAllowed name = true) :
    ∃ tool : Tool, tool.name = name := by
  obtain ⟨tool, found⟩ := Option.isSome_iff_exists.mp allowed
  exact ⟨tool, by simpa using List.find?_some found⟩

theorem Tool.name_chars (tool : Tool) : ∀ c ∈ tool.name.toList, CompactTag.isNameChar c = true := by
  refine List.all_eq_true.mp ?_
  cases tool <;> rfl

/-- White space where markup may have it: before each parameter and before the end. -/
structure Markup.Spacing where
  before : List Char
  last : List Char
  blank_before : ∀ c ∈ before, isBlank c = true
  blank_last : ∀ c ∈ last, isBlank c = true

namespace Markup.Spacing
variable (s : Spacing) {c : Char}

theorem notMem_before (mark : isBlank c = false) : c ∉ s.before := fun mem =>
  absurd (s.blank_before c mem) (by simp [mark])

theorem notMem_last (mark : isBlank c = false) : c ∉ s.last := fun mem =>
  absurd (s.blank_last c mem) (by simp [mark])

end Markup.Spacing

/-- An element starts with the bracket of its tag. -/
theorem InvokeBlock.element?_eq_none {element cs : List Char}
    (other : dropStart? ('<' :: element) cs = none) : element? element cs = none := by
  rw [element?, openTag?, other]
  rfl

namespace CompactTag
open Markup

/-- A parameter as an attribute. -/
def attributeText (key value : String) : List Char :=
  escape key.toList ++ '=' :: '"' :: (escape value.toList ++ ['"'])

/-- The parameters of a call as attributes. -/
def attributesText (s : Spacing) (values : List (String × String)) : List Char :=
  values.flatMap fun p => s.before ++ attributeText p.1 p.2

/-- A call as a compact tag. -/
def text (s : Spacing) (name : String) (values : List (String × String)) : List Char :=
  '<' :: (name.toList ++ (attributesText s values ++ (s.last ++ ['/', '>'])))

/-- A key that an attribute may have. -/
def IsKey (key : String) : Prop := key ≠ "" ∧ ∀ c ∈ key.toList, isKeyChar c = true

theorem attributesText_cons (s : Spacing) (p : String × String) (values : List (String × String)) :
    attributesText s (p :: values) = s.before ++ (attributeText p.1 p.2 ++ attributesText s values) := by
  simp [attributesText]

theorem notMem_specials {c : Char} (key : isKeyChar c = true) : c ∉ specials := by
  intro special
  obtain rfl | rfl | rfl | rfl | rfl := by simpa [specials] using special
  all_goals exact absurd key (by decide)

theorem attributeText_append {key : String} (fits : IsKey key) (value : String) (rest : List Char) :
    attributeText key value ++ rest = key.toList ++ '=' :: '"' :: (escape value.toList ++ '"' :: rest) := by
  rw [attributeText, escape_of_ordinary fun c hc => notMem_specials (fits.2 c hc)]
  simp

/-! ### Reading a tag back -/

/-- A parameter as an attribute is written without white space around the sign. -/
def writtenAttribute {key : String} (fits : IsKey key) (value : String) : WrittenAttribute where
  key := key.toList
  beforeSign := []
  afterSign := []
  quote := '"'
  value := escape value.toList
  key_ne_nil := String.toList_eq_nil_iff.not.mpr fits.1
  key_chars := fits.2
  beforeSign_blank := blank_nil
  afterSign_blank := blank_nil
  isQuote := isQuote_double
  unquoted := notMem_escape (by decide) (by decide) value.toList

theorem text_writtenAttribute {key : String} (fits : IsKey key) (value : String) :
    (writtenAttribute fits value).text = attributeText key value := by
  rw [attributeText, escape_of_ordinary fun c hc => notMem_specials (fits.2 c hc)]
  rfl

/-- The attributes of a call as they are read. -/
def attributesOf (values : List (String × String)) : List Attribute :=
  values.map fun p => ⟨p.1.toList, escape p.2.toList⟩

/-- The attributes of a call are written with the same white space in front of each. -/
theorem exists_spacedAttributes (s : Spacing) (spaced : s.before ≠ []) {values : List (String × String)}
    (keys : ∀ p ∈ values, IsKey p.1) : ∃ ss : List SpacedAttribute, sourceOf ss = attributesText s values ∧
      ss.map SpacedAttribute.toAttribute = attributesOf values := by
  induction values with
  | nil => exact ⟨[], rfl, rfl⟩
  | cons p values ih =>
    obtain ⟨fits, keys⟩ := List.forall_mem_cons.mp keys
    obtain ⟨ss, source, made⟩ := ih keys
    refine ⟨⟨s.before, writtenAttribute fits p.2, spaced, s.blank_before⟩ :: ss, ?_, ?_⟩
    · rw [sourceOf, List.flatMap_cons, ← sourceOf, source, SpacedAttribute.text, text_writtenAttribute,
        attributesText_cons, List.append_assoc]
    · rw [List.map_cons, made]
      rfl

theorem scanAttributes_attributesText (s : Spacing) (spaced : s.before ≠ []) {values : List (String × String)}
    (keys : ∀ p ∈ values, IsKey p.1) : scanAttributes (attributesText s values) = attributesOf values := by
  obtain ⟨ss, source, made⟩ := exists_spacedAttributes s spaced keys
  rw [← source, scanAttributes_sourceOf, made]

theorem values_attributesText (s : Spacing) (spaced : s.before ≠ []) (name : List Char) (found : List Attribute)
    {values : List (String × String)} (keys : ∀ p ∈ values, IsKey p.1) :
    Tag.values ⟨name, found, attributesText s values⟩ = values.map fun p => (p.1, p.2.toList) := by
  rw [Tag.values, scanAttributes_attributesText s spaced keys, attributesOf, List.map_map]
  exact List.map_congr_left fun p _ => by simp [unescape_escape]

theorem isNameStart_name (tool : Tool) : ∃ c cs, tool.name.toList = c :: cs ∧ isNameStart c = true := by
  cases tool <;> exact ⟨_, _, rfl, rfl⟩

theorem tag?_text (s : Spacing) (spaced : s.before ≠ []) (tool : Tool) {values : List (String × String)}
    (keys : ∀ p ∈ values, IsKey p.1) : tag? (text s tool.name values) =
      some (⟨tool.name.toList, attributesOf values, attributesText s values⟩, []) := by
  obtain ⟨c, cs, shape, start⟩ := isNameStart_name tool
  have named := tool.name_chars
  rw [shape] at named
  obtain ⟨-, named⟩ := List.forall_mem_cons.mp named
  obtain ⟨ss, source, made⟩ := exists_spacedAttributes s spaced keys
  refine tag?_eq_some_iff.mpr ⟨⟨c, cs, ss, s.last, ['/', '>'], start, named, s.blank_last, .inr rfl⟩, ?_, ?_⟩
  · rw [List.append_nil, WrittenTag.text, source, text, shape]
    rfl
  · rw [WrittenTag.toTag, source, made, shape]

/-- The one call of a compact tag is the one that was written. -/
theorem extract_text (s : Spacing) (spaced : s.before ≠ []) {tool : Tool} {values : List (String × String)}
    (keys : ∀ p ∈ values, IsKey p.1) {call : ToolCall}
    (made : call? tool.name (values.map fun p => (p.1, p.2.toList)) = some call) :
    extract (text s tool.name values) = [(0, call)] := by
  rw [extract, findEach_hit (tag?_text s spaced tool keys) (by simp [text]), findEach_nil, callsOf]
  simp only [String.ofList_toList, Tool.isAllowed, Tool.ofName?_name, values_attributesText s spaced _ _ keys, made]
  rfl

/-! ### What the other readers see -/

/-- The quotes of a compact tag are those of the attributes. -/
theorem insideQuotes_attributesText (s : Spacing) (spaced : s.before ≠ []) {values : List (String × String)}
    (keys : ∀ p ∈ values, IsKey p.1) :
    Json.InsideQuotes ('"' :: (attributesText s values ++ (s.last ++ ['/', '>']))) := by
  have notMem_before : '"' ∉ s.before := s.notMem_before (by decide)
  induction values with
  | nil =>
    have notMem_last : '"' ∉ s.last := s.notMem_last (by decide)
    exact .last (by simp [attributesText, notMem_last])
  | cons p values ih =>
    obtain ⟨fits, keys⟩ := List.forall_mem_cons.mp keys
    have notMem_key : '"' ∉ p.1.toList := fun mem => absurd (fits.2 _ mem) (by decide)
    have between : Json.BetweenQuotes (s.before ++ (p.1.toList ++ ['='])) := {
      unquoted := by simp [notMem_before, notMem_key]
      first := fun c hc => by
        rw [List.head?_append_of_ne_nil _ spaced] at hc
        exact .inl (s.blank_before c (List.mem_of_mem_head? hc))
      last := by simp [List.getLast?_append] }
    have unquoted := notMem_escape (by decide : '"' ∈ specials) (by decide) p.2.toList
    have inside := Json.InsideQuotes.next between ((ih keys).append unquoted)
    rw [attributesText_cons, List.append_assoc, List.append_assoc, attributeText_append fits]
    simpa using inside

theorem noCallObject_text (s : Spacing) (spaced : s.before ≠ []) (tool : Tool)
    {values : List (String × String)} (keys : ∀ p ∈ values, IsKey p.1) : JsonCall.NoCallObject (text s tool.name values) := by
  have notMem_name : '{' ∉ tool.name.toList := fun mem => absurd (tool.name_chars _ mem) (by decide)
  cases values with
  | nil =>
    have notMem_last : '{' ∉ s.last := s.notMem_last (by decide)
    exact .of_notMem (by simp [text, attributesText, notMem_name, notMem_last])
  | cons p values =>
    obtain ⟨fits, keys⟩ := List.forall_mem_cons.mp keys
    have notMem_before : '{' ∉ s.before := s.notMem_before (by decide)
    have notMem_key : '{' ∉ p.1.toList := fun mem => absurd (fits.2 _ mem) (by decide)
    have unquoted := notMem_escape (by decide : '"' ∈ specials) (by decide) p.2.toList
    have inside := (insideQuotes_attributesText s spaced keys).append unquoted
    have start : '{' ∉ '<' :: (tool.name.toList ++ (s.before ++ (p.1.toList ++ ['=', '"']))) := by
      simp [notMem_name, notMem_before, notMem_key]
    have none := (JsonCall.noCallObject_of_insideQuotes inside).append start
    rw [text, attributesText_cons, List.append_assoc, List.append_assoc, attributeText_append fits]
    simpa [JsonCall.NoCallObject] using none

/-- There is no element in a compact tag. -/
theorem extract_invoke_text (s : Spacing) (tool : Tool) (values : List (String × String)) :
    InvokeBlock.extract (text s tool.name values) = [] := by
  have notMem_name : '<' ∉ tool.name.toList := fun mem => absurd (tool.name_chars _ mem) (by decide)
  have notMem_before : '<' ∉ s.before := s.notMem_before (by decide)
  have notMem_last : '<' ∉ s.last := s.notMem_last (by decide)
  have notMem_values : '<' ∉ attributesText s values := fun mem => by
    obtain ⟨p, -, mem⟩ := List.mem_flatMap.mp mem
    simp [attributeText, notMem_before, notMem_escape (by decide : '<' ∈ specials)] at mem
  have other : AfterEach '<' (fun more => dropStart? InvokeBlock.invokeName more = none)
      (text s tool.name values) :=
    .cons (by cases tool <;> rfl) (.of_notMem (by simp [notMem_name, notMem_values, notMem_last]))
  have missed (tail : List Char) (suffix : tail <:+ text s tool.name values) :
      InvokeBlock.element? InvokeBlock.invokeName tail = none := by
    refine InvokeBlock.element?_eq_none ?_
    cases tail with
    | nil => rfl
    | cons c tail =>
      by_cases bracket : '<' = c
      · rw [dropStart?, if_pos (by simpa using bracket)]
        exact other tail (bracket ▸ suffix)
      · exact dropStart?_cons_of_ne bracket _ _
  rw [InvokeBlock.extract, findEach_eq_nil missed, callsOf]

end CompactTag
end CodeAgent
