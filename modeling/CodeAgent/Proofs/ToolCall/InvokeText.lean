import CodeAgent.ToolCall.Extractor
import CodeAgent.Proofs.ToolCall.TagText

/-! Calls written out as invoke elements: the reader of elements gives back what was written, and the other
readers find nothing in such a text. -/
namespace CodeAgent
open CodeAgent.Text

namespace InvokeBlock
open Markup

/-- The attribute `name` of an element up to its opening quote. -/
def nameMark : List Char := ['n', 'a', 'm', 'e', '=']

/-- The opening tag of an element. -/
def openTag (element name : List Char) : List Char :=
  '<' :: (element ++ ' ' :: nameMark ++ '"' :: name ++ ['"', '>'])

/-- The closing tag of an element. -/
def closeTag (element : List Char) : List Char :=
  '<' :: '/' :: (element ++ ['>'])

/-- A parameter as an element. -/
def parameterText (key value : String) : List Char :=
  openTag parameterName (escape key.toList) ++ escape value.toList ++ closeTag parameterName

/-- The parameters of a call as elements. -/
def bodyText (s : Spacing) (values : List (String × String)) : List Char :=
  values.flatMap (fun p => s.before ++ parameterText p.1 p.2) ++ s.last

/-- A call as an invoke element. -/
def text (s : Spacing) (name : String) (values : List (String × String)) : List Char :=
  openTag invokeName name.toList ++ bodyText s values ++ closeTag invokeName

theorem openTag_append (element name rest : List Char) : openTag element name ++ rest =
    '<' :: (element ++ ' ' :: (nameMark ++ '"' :: (name ++ '"' :: '>' :: rest))) := by
  simp [openTag]

theorem closeTag_append (element rest : List Char) :
    closeTag element ++ rest = '<' :: '/' :: (element ++ '>' :: rest) := by
  simp [closeTag]

theorem parameterText_append (key value : String) (rest : List Char) :
    parameterText key value ++ rest = openTag parameterName (escape key.toList) ++
      (escape value.toList ++ (closeTag parameterName ++ rest)) := by
  simp [parameterText]

theorem bodyText_cons (s : Spacing) (p : String × String) (values : List (String × String)) :
    bodyText s (p :: values) = s.before ++ (parameterText p.1 p.2 ++ bodyText s values) := by
  simp [bodyText]

/-! ### Reading elements back -/

theorem quotedToTagEnd?_append {name : List Char} (unquoted : '"' ∉ name) (rest : List Char) :
    quotedToTagEnd? '"' (name ++ '"' :: '>' :: rest) = some (name, rest) := by
  induction name with
  | nil => rfl
  | cons c name ih =>
    rw [List.mem_cons, not_or] at unquoted
    rw [List.cons_append, quotedToTagEnd?, ih unquoted.2, if_neg (by simpa using Ne.symm unquoted.1)]
    rfl

theorem openTag?_openTag (element : List Char) {name : List Char} (unquoted : '"' ∉ name) (rest : List Char) :
    openTag? element (openTag element name ++ rest) = some (name, rest) := by
  have opened : dropStart? ('<' :: element) (openTag element name ++ rest) =
      some (' ' :: (nameMark ++ '"' :: (name ++ '"' :: '>' :: rest))) := by
    rw [openTag_append]
    exact dropStart?_append ('<' :: element) _
  have read := quotedToTagEnd?_append unquoted rest
  rw [openTag?, opened]
  exact read

theorem closeTag?_append {element pre cs before rest : List Char} (plain : '<' ∉ pre)
    (closed : closeTag? element cs = some (before, rest)) :
    closeTag? element (pre ++ cs) = some (pre ++ before, rest) := by
  induction pre with
  | nil => exact closed
  | cons c pre ih =>
    rw [List.mem_cons, not_or] at plain
    rw [List.cons_append, closeTag?, ih plain.2, dropStart?_cons_of_ne plain.1]
    rfl

theorem closeTag?_cons {element cs before rest : List Char} (other : dropStart? ('/' :: element) cs = none)
    (closed : closeTag? element cs = some (before, rest)) :
    closeTag? element ('<' :: cs) = some ('<' :: before, rest) := by
  have missed : dropStart? ('<' :: '/' :: element) ('<' :: cs) = none := other
  rw [closeTag?, missed, closed]
  rfl

theorem closeTag?_closeTag (element rest : List Char) :
    closeTag? element (closeTag element ++ rest) = some ([], rest) := by
  have found : dropStart? ('<' :: '/' :: element) ('<' :: '/' :: (element ++ '>' :: rest)) =
      some ('>' :: rest) := dropStart?_append ('<' :: '/' :: element) _
  rw [closeTag_append, closeTag?, found]
  rfl

theorem element?_parameterText (key value : String) (rest : List Char) :
    element? parameterName (parameterText key value ++ rest) =
      some (⟨escape key.toList, escape value.toList⟩, rest) := by
  have unquoted := notMem_escape (by decide : '"' ∈ specials) (by decide) key.toList
  have plain := notMem_escape (by decide : '<' ∈ specials) (by decide) value.toList
  have closed := closeTag?_append plain (closeTag?_closeTag parameterName rest)
  rw [List.append_nil] at closed
  rw [parameterText_append, element?, openTag?_openTag parameterName unquoted]
  simp only [Option.bind_eq_bind, Option.bind_some, closed]

theorem trimChars_of_trim_eq {key : String} (trimmed : trim key = key) :
    trimChars key.toList = key.toList := by
  have same := congrArg String.toList trimmed
  rwa [trim, String.toList_ofList] at same

/-- The parameters of a call are those that were written. -/
theorem parameters_bodyText (s : Spacing) {values : List (String × String)}
    (keys : ∀ p ∈ values, p.1 ≠ "" ∧ trim p.1 = p.1) :
    parameters (bodyText s values) = values.map fun p => (p.1, p.2.toList) := by
  have missed : ∀ c, isBlank c = true → ∀ more, element? parameterName (c :: more) = none := by
    intro c blank more
    refine element?_eq_none (dropStart?_cons_of_ne ?_ _ _)
    rintro rfl
    contradiction
  have shorter (key value : String) (rest : List Char) :
      rest.length < (parameterText key value ++ rest).length := by
    simp only [parameterText, openTag, List.length_append, List.length_cons]
    omega
  rw [parameters]
  generalize 0 = offset
  induction values generalizing offset with
  | nil =>
    have none : findEach (element? parameterName) offset (s.last ++ []) = [] := by
      rw [findEach_append (fun c hc => missed c (s.blank_last c hc)), findEach_nil]
    rw [List.append_nil] at none
    rw [bodyText, List.flatMap_nil, List.nil_append, none]
    rfl
  | cons p values ih =>
    obtain ⟨⟨filled, trimmed⟩, keys⟩ := List.forall_mem_cons.mp keys
    have key : Element.key ⟨escape p.1.toList, escape p.2.toList⟩ = p.1.toList := by
      rw [Element.key, unescape_escape, trimChars_of_trim_eq trimmed]
    have some_key : p.1.toList.isEmpty = false := by
      simpa [List.isEmpty_iff] using filled
    rw [bodyText_cons, findEach_append (fun c hc => missed c (s.blank_before c hc)),
      findEach_hit (element?_parameterText p.1 p.2 _) (shorter p.1 p.2 _),
      List.filterMap_cons]
    simp only [key, some_key, String.ofList_toList, decodeText_escape]
    exact congrArg ((p.1, p.2.toList) :: ·) (ih keys _)

theorem closeTag?_bodyText (s : Spacing) (values : List (String × String)) (rest : List Char) :
    closeTag? invokeName (bodyText s values ++ (closeTag invokeName ++ rest)) =
      some (bodyText s values, rest) := by
  induction values with
  | nil =>
    have closed := closeTag?_append (s.notMem_last (by decide)) (closeTag?_closeTag invokeName rest)
    rwa [List.append_nil] at closed
  | cons p values ih =>
    -- Neither tag of the parameter closes the call; the tags are passed over from the last one on.
    have closing := closeTag?_append (by decide : '<' ∉ '/' :: (parameterName ++ ['>'])) ih
    have value_read := closeTag?_append (notMem_escape (by decide : '<' ∈ specials) (by decide) p.2.toList)
      (closeTag?_cons rfl closing)
    have plain : '<' ∉ parameterName ++ ' ' :: (nameMark ++ '"' :: (escape p.1.toList ++ ['"', '>'])) := by
      simp [parameterName, nameMark, notMem_escape (by decide : '<' ∈ specials)]
    have opening := closeTag?_append plain value_read
    have whole := closeTag?_append (s.notMem_before (by decide)) (closeTag?_cons rfl opening)
    simpa [bodyText_cons, parameterText, openTag, closeTag] using whole

theorem element?_text (s : Spacing) {name : String} (unquoted : '"' ∉ name.toList)
    (values : List (String × String)) :
    element? invokeName (text s name values) = some (⟨name.toList, bodyText s values⟩, []) := by
  have closed := closeTag?_bodyText s values []
  rw [List.append_nil] at closed
  rw [text, List.append_assoc, element?, openTag?_openTag invokeName unquoted]
  simp only [Option.bind_eq_bind, Option.bind_some, closed]

/-- The one call of an invoke element is the one that was written. -/
theorem extract_text (s : Spacing) {tool : Tool} {values : List (String × String)}
    (keys : ∀ p ∈ values, p.1 ≠ "" ∧ trim p.1 = p.1) {call : ToolCall}
    (made : call? tool.name (values.map fun p => (p.1, p.2.toList)) = some call) :
    extract (text s tool.name values) = [(0, call)] := by
  have ordinary : ∀ c ∈ tool.name.toList, c ∉ specials := fun c hc special => by
    have named := tool.name_chars c hc
    obtain rfl | rfl | rfl | rfl | rfl := by simpa [specials] using special
    all_goals exact absurd named (by decide)
  have unquoted : '"' ∉ tool.name.toList := fun mem => ordinary _ mem (by decide)
  have key : Element.key ⟨tool.name.toList, bodyText s values⟩ = tool.name.toList := by
    have decoded := unescape_escape tool.name.toList
    rw [escape_of_ordinary ordinary] at decoded
    rw [Element.key, decoded]
    cases tool <;> rfl
  rw [extract, findEach_hit (element?_text s unquoted values) (by simp [text, openTag]), findEach_nil,
    callsOf]
  simp only [key, String.ofList_toList, Tool.isAllowed, Tool.ofName?_name, parameters_bodyText s keys, made]
  rfl

/-! ### What the other readers see -/

/-- The quotes of an invoke element are those of the attributes. -/
theorem insideQuotes_bodyText (s : Spacing) (values : List (String × String)) {value : List Char}
    (plain : '"' ∉ value) :
    Json.InsideQuotes ('"' :: '>' :: (value ++ (bodyText s values ++ closeTag invokeName))) := by
  induction values generalizing value with
  | nil =>
    have last : '"' ∉ s.last := s.notMem_last (by decide)
    exact .last (by simp [plain, bodyText, last, closeTag, invokeName])
  | cons p values ih =>
    have before : '"' ∉ s.before := s.notMem_before (by decide)
    have unquoted (t : String) : '"' ∉ escape t.toList := notMem_escape (by decide) (by decide) _
    have between : Json.BetweenQuotes
        ('>' :: (value ++ (s.before ++ '<' :: (parameterName ++ ' ' :: nameMark)))) := {
      unquoted := by simp [plain, before, parameterName, nameMark]
      first := fun c hc => .inr (Option.some.inj hc).symm
      last := by simp [nameMark, List.getLast?_cons, List.getLast?_append] }
    have later : '"' ∉ escape p.2.toList ++ closeTag parameterName := by
      simp [unquoted, closeTag, parameterName]
    have inside := Json.InsideQuotes.next between ((ih later).append (unquoted p.1))
    simpa [bodyText_cons, parameterText_append, openTag_append] using inside

theorem noCallObject_text (s : Spacing) {name : String} (unquoted : '"' ∉ name.toList)
    (values : List (String × String)) : JsonCall.NoCallObject (text s name values) := by
  have inside := (insideQuotes_bodyText s values List.not_mem_nil).append unquoted
  have none := JsonCall.noCallObject_of_insideQuotes inside
  have start : '{' ∉ '<' :: (invokeName ++ ' ' :: (nameMark ++ ['"'])) := by decide
  simpa [text, openTag, JsonCall.NoCallObject] using none.append start

/-- What follows the bracket of a tag here. -/
inductive TagStart : List Char → Prop where
  | invoke (more : List Char) : TagStart (invokeName ++ ' ' :: more)
  | parameter (more : List Char) : TagStart (parameterName ++ ' ' :: more)
  | closing (more : List Char) : TagStart ('/' :: more)

theorem tagStart_bodyText (s : Spacing) (values : List (String × String)) {rest : List Char}
    (after : AfterEach '<' TagStart rest) : AfterEach '<' TagStart (bodyText s values ++ rest) := by
  induction values with
  | nil => exact after.append (s.notMem_last (by decide))
  | cons p values ih =>
    have plain (t : String) : '<' ∉ escape t.toList := notMem_escape (by decide) (by decide) _
    have closing : AfterEach '<' TagStart (closeTag parameterName ++ (bodyText s values ++ rest)) :=
      .cons (.closing _) (ih.append (by decide : '<' ∉ '/' :: (parameterName ++ ['>'])))
    have between : '<' ∉ parameterName ++ ' ' :: (nameMark ++ '"' :: (escape p.1.toList ++
        '"' :: '>' :: escape p.2.toList)) := by
      simp [plain, parameterName, nameMark]
    have opening := closing.append between
    rw [bodyText_cons, List.append_assoc, List.append_assoc, parameterText_append, openTag_append]
    refine .append (s.notMem_before (by decide)) (.cons (.parameter _) ?_)
    simpa using opening

theorem tagStart_text (s : Spacing) {name : String} (plain : '<' ∉ name.toList)
    (values : List (String × String)) : AfterEach '<' TagStart (text s name values) := by
  have closing : AfterEach '<' TagStart (closeTag invokeName) := .cons (.closing _) (.of_notMem (by decide))
  have start : '<' ∉ invokeName ++ ' ' :: (nameMark ++ '"' :: (name.toList ++ ['"', '>'])) := by
    simp [plain, invokeName, nameMark]
  have opening := (tagStart_bodyText s values closing).append start
  rw [text, List.append_assoc, openTag_append]
  exact .cons (.invoke _) (by simpa using opening)

/-- The tags of an invoke element are named after no tool. -/
theorem isAllowed_of_tagStart {cs rest : List Char} (start : TagStart cs) {t : CompactTag.Tag}
    (read : CompactTag.tag? ('<' :: cs) = some (t, rest)) :
    Tool.isAllowed (String.ofList t.name) = false := by
  obtain ⟨-, c, more, shape, letter, named⟩ := CompactTag.tag?_cases read
  obtain ⟨-, shape⟩ := List.cons.inj shape
  have whole (letters : List Char) (all : letters.all CompactTag.isNameChar = true) (after : List Char) :
      (letters ++ ' ' :: after).takeWhile CompactTag.isNameChar = letters :=
    takeWhile_append_cons (List.all_eq_true.mp all) (by decide) after
  cases start with
  | invoke after =>
    obtain ⟨rfl, rfl⟩ := List.cons.inj shape
    have name : t.name = invokeName :=
      named.trans (congrArg ('i' :: ·) (whole ['n', 'v', 'o', 'k', 'e'] rfl after))
    rw [name]
    rfl
  | parameter after =>
    obtain ⟨rfl, rfl⟩ := List.cons.inj shape
    have name : t.name = parameterName :=
      named.trans (congrArg ('p' :: ·) (whole ['a', 'r', 'a', 'm', 'e', 't', 'e', 'r'] rfl after))
    rw [name]
    rfl
  | closing after =>
    obtain ⟨rfl, -⟩ := List.cons.inj shape
    exact absurd letter (by decide)

/-- Tags that are named after no tool make no call. -/
theorem callsOf_eq_nil {α : Type} {name : α → String} {values : α → List (String × List Char)}
    {found : List (Nat × α)} (other : ∀ p ∈ found, Tool.isAllowed (name p.2) = false) :
    callsOf name values found = [] := by
  induction found with
  | nil => rw [callsOf]
  | cons p found ih =>
    obtain ⟨first, other⟩ := List.forall_mem_cons.mp other
    rw [callsOf, if_neg (by simp [first]), ih other]

/-- No tag for calls is in an invoke element. -/
theorem extract_compact_text (s : Spacing) {name : String} (plain : '<' ∉ name.toList)
    (values : List (String × String)) : CompactTag.extract (text s name values) = [] := by
  refine callsOf_eq_nil fun p mem => ?_
  obtain ⟨tail, rest, suffix, read⟩ :=
    exists_suffix_of_mem_findEach (fun read => (CompactTag.tag?_cases read).1) mem
  obtain ⟨-, c, more, rfl, -, -⟩ := CompactTag.tag?_cases read
  exact isAllowed_of_tagStart (tagStart_text s plain values _ suffix) read

end InvokeBlock
end CodeAgent

/-! A call that is written out as markup is the one call of its text, whatever its values look like. -/
namespace CodeAgent
open CodeAgent.Text

/-- A text is no integer of too many digits. -/
def Scalar.NoLongInteger (s : String) : Prop :=
  ∀ numeral ∈ integer? (trimChars s.toList), numeral.2.length ≤ Decimal.maxIntegerDigits

instance (s : String) : Decidable (Scalar.NoLongInteger s) :=
  inferInstanceAs (Decidable (∀ numeral ∈ Scalar.integer? _, _))

theorem Scalar.NoLongInteger.exists_value {s : String} (short : NoLongInteger s) :
    ∃ v, ofText? s = some v := by
  rw [ofText?, ofChars?]
  split
  · exact ⟨_, rfl⟩
  · split
    · exact ⟨_, rfl⟩
    · split
      · next negative digits read =>
        rw [if_neg (Nat.not_lt.mpr (short (negative, digits) read))]
        exact ⟨_, rfl⟩
      · split
        · exact ⟨_, rfl⟩
        · exact ⟨_, rfl⟩

theorem Scalar.noLongInteger_of_ofText? {s : String} {v : Json} (value : ofText? s = some v) :
    NoLongInteger s := by
  rintro ⟨negative, digits⟩ numeral
  refine Nat.le_of_not_lt fun long => ?_
  rw [ofText?, ofChars?] at value
  split at value
  · next same =>
    rw [eq_of_beq same] at numeral
    contradiction
  · split at value
    · next same =>
      rw [eq_of_beq same] at numeral
      contradiction
    · rw [numeral] at value
      dsimp only at value
      rw [if_pos long] at value
      contradiction

/-- A call has a name, and in order the scalar and the trimmed text of each value. -/
structure ToolCall.Carries (call : ToolCall) (name : String) (values : OrderedMap String) : Prop where
  name_eq : call.name = name
  parameters_eq : call.parameters.map (fun p => (p.1, some p.2)) =
    values.map fun p => (p.1, Scalar.ofText? p.2)
  rawText_eq : call.rawText = values.map fun p => (p.1, trim p.2)

namespace Markup

theorem exists_entries {values : List (String × String)} (short : ∀ p ∈ values, Scalar.NoLongInteger p.2) :
    ∃ entries, (values.map fun p => (p.1, p.2.toList)).mapM (fun p => entry? p.1 p.2) = some entries ∧
      entries.map (fun e => (e.1, some e.2.1)) = values.map (fun p => (p.1, Scalar.ofText? p.2)) ∧
      entries.map (fun e => (e.1, e.2.2)) = values.map fun p => (p.1, trim p.2) := by
  induction values with
  | nil => exact ⟨[], rfl, rfl, rfl⟩
  | cons p values ih =>
    obtain ⟨first, short⟩ := List.forall_mem_cons.mp short
    obtain ⟨v, read⟩ := first.exists_value
    obtain ⟨entries, all, scalars, texts⟩ := ih short
    have entry : entry? p.1 p.2.toList = some (p.1, v, trim p.2) := by
      rw [Scalar.ofText?] at read
      rw [ entry?, read]
      rfl
    refine ⟨(p.1, v, trim p.2) :: entries, ?_, ?_, ?_⟩
    · rw [List.map_cons, List.mapM_cons, entry, all]
      rfl
    · rw [List.map_cons, List.map_cons, read, scalars]
    · rw [List.map_cons, List.map_cons, texts]

/-- Values with different keys make a call that carries them. -/
theorem exists_call? (name : String) {values : OrderedMap String} (distinct : (OrderedMap.keys values).Nodup)
    (short : ∀ p ∈ values, Scalar.NoLongInteger p.2) :
    ∃ call, call? name (values.map fun p => (p.1, p.2.toList)) = some call ∧ call.Carries name values := by
  obtain ⟨entries, all, scalars, texts⟩ := exists_entries short
  have names : entries.map (·.1) = OrderedMap.keys values := by
    have same := congrArg (List.map Prod.fst) texts
    simpa [List.map_map, Function.comp_def, OrderedMap.keys] using same
  have kept {α : Type} (f : Json × String → α) :
      OrderedMap.ofPairs (entries.map fun e => (e.1, f e.2)) = entries.map fun e => (e.1, f e.2) := by
    refine OrderedMap.ofPairs_of_nodup ?_
    rw [OrderedMap.keys, List.map_map]
    exact names ▸ distinct
  rw [call?, all, Option.map_some, kept (·.1), kept (·.2)]
  refine ⟨_, rfl, rfl, ?_, texts⟩
  rw [List.map_map]
  exact scalars

/-- A call written out as markup: as an invoke element, with trimmed keys, or as a compact tag, with keys
that attributes may have. -/
inductive Written (name : String) (values : OrderedMap String) (text : String) : Prop where
  | invokeBlock (s : Spacing) (keys : ∀ p ∈ values, p.1 ≠ "" ∧ trim p.1 = p.1)
    (text_eq : text = String.ofList (InvokeBlock.text s name values))
  | compactTag (s : Spacing) (spaced : s.before ≠ []) (keys : ∀ p ∈ values, CompactTag.IsKey p.1)
    (text_eq : text = String.ofList (CompactTag.text s name values))

end Markup

/-- The one call that one form finds is the call of a text. -/
theorem ToolCall.ofText_eq_single (form : CallForm) {cs : List Char} {offset : Nat} {call : ToolCall}
    (one : form.extract cs = [(offset, call)]) (none : ∀ other, other ≠ form → other.extract cs = [])
    (allowed : Tool.isAllowed call.name = true) : ToolCall.ofText (String.ofList cs) = [call] := by
  have found : ∃ rank, Candidate.found (CallForm.all.map CallForm.extractor) cs = [⟨offset, rank, call⟩] := by
    cases form <;> simp [Candidate.found, CallForm.all, CallForm.extractor, one, none]
  obtain ⟨rank, found⟩ := found
  rw [ofText, extractCalls, Extractor.calls, String.toList_ofList, found, List.mergeSort_singleton,
    Candidate.distinct, if_neg (by simp [allowed]), Candidate.distinct]

/-- A written call is the one call of its text: no part of a value is read as another call or as another
parameter, whatever it looks like. -/
theorem ToolCall.ofText_written {name : String} {values : OrderedMap String} {text : String}
    (allowed : Tool.isAllowed name = true) (distinct : (OrderedMap.keys values).Nodup)
    (short : ∀ p ∈ values, Scalar.NoLongInteger p.2) (written : Markup.Written name values text) :
    ∃ call, ToolCall.ofText text = [call] ∧ call.Carries name values := by
  obtain ⟨tool, rfl⟩ := Tool.exists_name_eq allowed
  obtain ⟨call, made, carries⟩ := Markup.exists_call? tool.name distinct short
  refine ⟨call, ?_, carries⟩
  rw [← carries.name_eq] at allowed
  have unnamed (c : Char) (other : CompactTag.isNameChar c = false) : c ∉ tool.name.toList := fun mem =>
    absurd (tool.name_chars c mem) (by simp [other])
  cases written with
  | invokeBlock s keys text_eq =>
    subst text_eq
    have json := JsonCall.extract_eq_nil_of_noCallObject
      (InvokeBlock.noCallObject_text s (unnamed '"' (by decide)) values)
    refine ofText_eq_single .invokeBlock (InvokeBlock.extract_text s keys made) ?_ allowed
    intro other different
    cases other with
    | invokeBlock => exact absurd rfl different
    | compactTag => exact InvokeBlock.extract_compact_text s (unnamed '<' (by decide)) values
    | embeddedJson => exact json.1
    | markedLine => exact json.2
  | compactTag s spaced keys text_eq =>
    subst text_eq
    have json := JsonCall.extract_eq_nil_of_noCallObject (CompactTag.noCallObject_text s spaced tool keys)
    refine ofText_eq_single .compactTag (CompactTag.extract_text s spaced keys made) ?_ allowed
    intro other different
    cases other with
    | invokeBlock => exact CompactTag.extract_invoke_text s tool values
    | compactTag => exact absurd rfl different
    | embeddedJson => exact json.1
    | markedLine => exact json.2

/-- Values that look like a number, a marked line with an object, and a tag. -/
def lookalikes : OrderedMap String :=
  [("a & b", " 007 "), ("content",
    "\ntool_call: \x7b\"name\": \"todo_list\", \"parameters\": null\x7d\n<todo_list />")]

theorem ToolCall.ofText_written_lookalikes :
    ∃ call, ToolCall.ofText ("<invoke name=\"write_file\"><parameter name=\"a &amp; b\"> 007 </parameter>" ++
        "<parameter name=\"content\">\ntool_call: \x7b&quot;name&quot;: &quot;todo_list&quot;, " ++
        "&quot;parameters&quot;: null\x7d\n&lt;todo_list /&gt;</parameter></invoke>") = [call] ∧
      call.Carries "write_file" lookalikes :=
  ToolCall.ofText_written (by decide +kernel) (by decide +kernel) (by decide +kernel)
    (.invokeBlock ⟨[], [], List.forall_mem_nil _, List.forall_mem_nil _⟩ (by decide +kernel)
      (by decide +kernel))

end CodeAgent
