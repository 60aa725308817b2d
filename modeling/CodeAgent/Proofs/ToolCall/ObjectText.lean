import CodeAgent.Proofs.Json.Occurrences
import CodeAgent.Proofs.Json.RoundTrip
import CodeAgent.Proofs.ToolCall.FirstOccurrences
import CodeAgent.Proofs.ToolCall.InvokeText

/-! Calls written as JSON objects. Such a call is the first one of its text, and no part of it is read as
another object; but tags and elements are looked for in its strings too. -/
namespace CodeAgent
open CodeAgent.Text

namespace Text

theorem lineRunsFrom_of_unended {line cs : List Char} (filled : line.reverse ++ cs ≠ [])
    (unended : ∀ c ∈ cs, isLineEnd c = false) : lineRunsFrom line cs = [(line.reverse ++ cs, [])] := by
  induction cs generalizing line with
  | nil =>
    rw [List.append_nil] at filled ⊢
    rw [lineRunsFrom, if_neg (by simpa using filled)]
  | cons c cs ih =>
    obtain ⟨first, unended⟩ := List.forall_mem_cons.mp unended
    rw [lineRunsFrom, if_neg (by simp [first]), ih (by simp) unended]
    · simp
    · rintro _ rfl
      contradiction

/-- A text without line ends is one line. -/
theorem lineRuns_of_unended {cs : List Char} (filled : cs ≠ []) (unended : ∀ c ∈ cs, isLineEnd c = false) :
    lineRuns cs = [(cs, [])] :=
  @lineRunsFrom_of_unended [] cs filled unended

end Text

namespace Markup
variable {α : Type} {name : α → String} {values : α → List (String × List Char)}

/-- A call is made of something found, and it has an allowed name. -/
theorem exists_of_mem_callsOf {found : List (Nat × α)} {p : Nat × ToolCall}
    (mem : p ∈ callsOf name values found) :
    (∃ a, (p.1, a) ∈ found) ∧ Tool.isAllowed p.2.name = true := by
  induction found with
  | nil => contradiction
  | cons q found ih =>
    obtain ⟨offset, a⟩ := q
    have later (mem : p ∈ callsOf name values found) :
        (∃ b, (p.1, b) ∈ (offset, a) :: found) ∧ Tool.isAllowed p.2.name = true := by
      obtain ⟨⟨b, hb⟩, allowed⟩ := ih mem
      exact ⟨⟨b, List.mem_cons_of_mem _ hb⟩, allowed⟩
    rw [callsOf] at mem
    split at mem
    · next allowed =>
      split at mem
      · next call made =>
        obtain rfl | mem := List.mem_cons.mp mem
        · obtain ⟨entries, -, rfl⟩ := Option.map_eq_some_iff.mp made
          exact ⟨⟨a, List.mem_cons_self⟩, allowed⟩
        · exact later mem
      · contradiction
    · exact later mem

/-- What no tag or element starts with, no call starts with. -/
theorem pos_of_mem_callsOf {match? : List Char → Option (α × List Char)} {c : Char} {cs : List Char}
    (missed : match? (c :: cs) = none) {p : Nat × ToolCall}
    (mem : p ∈ callsOf name values (findEach match? 0 (c :: cs))) : 0 < p.1 := by
  obtain ⟨⟨a, found⟩, -⟩ := exists_of_mem_callsOf mem
  rw [findEach_miss missed] at found
  have late := le_of_mem_findEach found
  exact Nat.lt_of_lt_of_le Nat.zero_lt_one late

/-- The calls of invoke elements and of tags. -/
def markupCalls (cs : List Char) : List (Nat × ToolCall) :=
  InvokeBlock.extract cs ++ CompactTag.extract cs

theorem isAllowed_of_mem_markupCalls {cs : List Char} {p : Nat × ToolCall} (mem : p ∈ markupCalls cs) :
    Tool.isAllowed p.2.name = true :=
  (List.mem_append.mp mem).elim (fun mem => (exists_of_mem_callsOf mem).2) fun mem => (exists_of_mem_callsOf mem).2

end Markup

namespace Candidate

/-- A candidate that goes before all others is the first one in order. -/
theorem exists_mergeSort_eq_cons {c : Candidate} {cs : List Candidate} (mem : c ∈ cs)
    (first : ∀ d ∈ cs, d = c ∨ d.before c = false) :
    ∃ others, cs.mergeSort before = c :: others ∧ ∀ d, d ∈ c :: others ↔ d ∈ cs := by
  have sorted : (cs.mergeSort before).Pairwise fun a b => a.before b = true := by
    refine List.pairwise_mergeSort ?_ ?_ cs
    · intro x y z left right
      rw [before_iff] at left right ⊢
      omega
    · intro x y
      rw [Bool.or_eq_true, before_iff, before_iff]
      omega
  have members (d : Candidate) : d ∈ cs.mergeSort before ↔ d ∈ cs := List.mem_mergeSort
  cases shape : cs.mergeSort before with
  | nil =>
    rw [← members, shape] at mem
    contradiction
  | cons d others =>
    rw [shape] at sorted members
    obtain rfl | later := List.mem_cons.mp ((members c).mpr mem)
    · exact ⟨others, rfl, members⟩
    · obtain rfl | after := first d ((members d).mp List.mem_cons_self)
      · exact ⟨others, rfl, members⟩
      · rw [(List.pairwise_cons.mp sorted).1 c later] at after
        contradiction

/-- Nothing is left of candidates exactly if all allowed ones are known. -/
theorem distinct_eq_nil_iff (seen : List (String × String)) (cs : List Candidate) :
    distinct seen cs = [] ↔ ∀ c ∈ cs, Tool.isAllowed c.call.name = true → c.call.dedupKey ∈ seen := by
  induction cs with
  | nil => simp [distinct]
  | cons c cs ih =>
    rw [distinct, List.forall_mem_cons, ← ih]
    split
    · next known =>
      refine ⟨fun none => ⟨fun allowed => ?_, none⟩, And.right⟩
      simpa [allowed] using known
    · next fresh =>
      simp only [Bool.or_eq_true, Bool.not_eq_true', List.contains_iff_mem, not_or, Bool.not_eq_false] at fresh
      exact ⟨fun some => absurd some (List.cons_ne_nil _ _), fun known => absurd (known.1 fresh.1) fresh.2⟩

end Candidate

/-! ### The object of a call -/

namespace JsonCall

/-- The forms of an object for a call; the last one wraps another of them. -/
inductive Shape where
  | byName
  | byTool
  | wrapped (inner : Shape)

/-- A call of a tool with parameters. -/
def callOf (tool : Tool) (parameters : Json.Fields) : ToolCall := { name := tool.name, parameters }

namespace Shape
variable (tool : Tool) (parameters : Json.Fields)

/-- A call as a value. -/
def value : Shape → Json
  | byName => .obj [("name", .str tool.name), ("parameters", .obj parameters)]
  | byTool => .obj [("tool", .str tool.name), ("args", .obj parameters)]
  | wrapped inner => .obj [("tool_call", inner.value)]

/-- The characters of a call as a text. -/
def chars (shape : Shape) : List Char := Json.render .line 0 (shape.value tool parameters)

theorem allowedName?_name : Tool.allowedName? (.str tool.name) = some tool.name := by
  rw [Tool.allowedName?, Json.str?, Option.filter_some, Tool.isAllowed, Tool.ofName?_name]
  rfl

/-- Every form is understood as the call. -/
theorem ofJson_value (shape : Shape) : ofJson (shape.value tool parameters) = .ok (callOf tool parameters) := by
  have direct (nameKey key : String) (other : nameKey ≠ key) :
      direct? [(nameKey, .str tool.name), (key, .obj parameters)] nameKey key = some (callOf tool parameters) := by
    have named : OrderedMap.get? [(nameKey, Json.str tool.name), (key, .obj parameters)] nameKey =
        some (.str tool.name) := by
      rw [OrderedMap.get?_cons, if_pos rfl]
    have given : OrderedMap.get? [(nameKey, Json.str tool.name), (key, .obj parameters)] key =
        some (.obj parameters) := by
      rw [OrderedMap.get?_cons, if_neg other, OrderedMap.get?_cons, if_pos rfl]
    rw [direct?, parametersUnder, named, given, Option.bind_some, allowedName?_name]
    rfl
  induction shape with
  | byName =>
    rw [value, ofJson, ofFields?, direct "name" "parameters" (by decide)]
    rfl
  | byTool =>
    rw [value, ofJson, ofFields?, direct "tool" "args" (by decide)]
    rfl
  | wrapped inner ih =>
    rw [value, ofJson]
    exact ih

/-- A call as a text is an object. -/
theorem exists_chars_eq (shape : Shape) : ∃ more, shape.chars tool parameters = '{' :: more := by
  cases shape <;> exact ⟨_, rfl⟩

/-- The object is read to its end as the call. -/
theorem readingAt_chars {shape : Shape} (fits : Json.Fits Json.maxDepth (shape.value tool parameters)) :
    readingAt (shape.chars tool parameters) = .call (callOf tool parameters) [] := by
  have ended : Json.Stops [] := by simp [Json.Stops]
  have read := Json.readValue_render Json.straight_line fits 0 ended
  rw [List.append_nil] at read
  rw [readingAt, chars, read]
  simp only [ofJson_value]

theorem extractEmbedded_chars {shape : Shape} (fits : Json.Fits Json.maxDepth (shape.value tool parameters)) :
    extractEmbedded (shape.chars tool parameters) = [(0, callOf tool parameters)] := by
  obtain ⟨more, text⟩ := exists_chars_eq tool parameters shape
  have reading := readingAt_chars tool parameters fits
  rw [text] at reading ⊢
  rw [extractEmbedded, embeddedFrom, if_pos (beq_self_eq_true _), reading]
  simp only [List.length_nil, if_pos (Nat.succ_pos _), embeddedFrom]

/-- The text is one line, and it has no mark. -/
theorem extractMarked_chars (shape : Shape) : extractMarked (shape.chars tool parameters) = [] := by
  obtain ⟨more, text⟩ := exists_chars_eq tool parameters shape
  have unended : ∀ c ∈ shape.chars tool parameters, isLineEnd c = false := by
    intro c hc
    have seen := Json.render_printable (shape.value tool parameters) 0 c hc
    simp only [Json.isPrintable, Bool.and_eq_true, decide_eq_true_eq] at seen
    simp only [isLineEnd, Bool.or_eq_false_iff, Bool.and_eq_false_iff, decide_eq_false_iff_not, beq_eq_false_iff_ne]
    omega
  rw [extractMarked, lineRuns_of_unended (by simp [text]) unended, text]
  rfl

/-- No markup starts where the object does. -/
theorem pos_of_mem_markupCalls {shape : Shape} {p : Nat × ToolCall}
    (mem : p ∈ Markup.markupCalls (shape.chars tool parameters)) : 0 < p.1 := by
  obtain ⟨more, text⟩ := exists_chars_eq tool parameters shape
  rw [text, Markup.markupCalls, List.mem_append] at mem
  obtain mem | mem := mem
  · exact Markup.pos_of_mem_callsOf (InvokeBlock.element?_eq_none rfl) mem
  · exact Markup.pos_of_mem_callsOf rfl mem

/-! ### Strings that show no call -/

/-- What calls are recognized by after an angle bracket. -/
def tagWords : List (List Char) := InvokeBlock.invokeName :: Tool.all.map (·.name.toList)

/-- A text in which no bracket stands before the word of a call. -/
def Quiet (s : String) : Prop := ∀ word ∈ tagWords, ¬ '<' :: word <:+: s.toList

instance (s : String) : Decidable (Quiet s) := inferInstanceAs (Decidable (∀ word ∈ tagWords, _))

theorem quiet_of_notMem {s : String} (absent : '<' ∉ s.toList) : Quiet s := fun _ _ within =>
  absent (within.subset List.mem_cons_self)

theorem tagWords_plain : ∀ word ∈ tagWords, '\\' ∉ word ∧ '"' ∉ word := by decide

variable {tool parameters}

/-- The strings of the object are quiet if those of the parameters are. -/
theorem quiet_strings (quiet : ∀ s ∈ Json.strings (.obj parameters), Quiet s) (shape : Shape) :
    ∀ s ∈ Json.strings (shape.value tool parameters), Quiet s := by
  have keys : ∀ k ∈ ["name", "parameters", "tool", "args", "tool_call"], Quiet k := fun k hk =>
    quiet_of_notMem ((by decide : ∀ k ∈ ["name", "parameters", "tool", "args", "tool_call"], '<' ∉ k.toList) k hk)
  have name : Quiet tool.name := quiet_of_notMem fun mem => absurd (tool.name_chars '<' mem) (by decide)
  have members (k k' : String) : Json.strings (.obj [(k, .str tool.name), (k', .obj parameters)]) =
      k :: tool.name :: k' :: (Json.strings (.obj parameters) ++ []) := by
    simp [Json.strings, Json.stringsOfFields]
  induction shape with
  | byName =>
    rw [value, members]
    simp only [List.forall_mem_cons, List.append_nil]
    exact ⟨keys _ (by decide), name, keys _ (by decide), quiet⟩
  | byTool =>
    rw [value, members]
    simp only [List.forall_mem_cons, List.append_nil]
    exact ⟨keys _ (by decide), name, keys _ (by decide), quiet⟩
  | wrapped inner ih =>
    rw [value, Json.strings, Json.stringsOfFields, Json.stringsOfFields, List.append_nil]
    exact List.forall_mem_cons.mpr ⟨keys _ (by decide), ih⟩

/-- No word of a call stands after a bracket if all strings are quiet. -/
theorem not_prefix_of_quiet {shape : Shape} (quiet : ∀ s ∈ Json.strings (.obj parameters), Quiet s)
    {more word : List Char} (tail : '<' :: more <:+ shape.chars tool parameters) (known : word ∈ tagWords) :
    ¬ word <+: more := by
  intro start
  obtain ⟨plain, unquoted⟩ := tagWords_plain word known
  obtain ⟨s, mem, within⟩ := Json.exists_string_of_bracket plain unquoted tail start
  exact quiet_strings quiet shape s mem word known within

theorem markupCalls_of_quiet (quiet : ∀ s ∈ Json.strings (.obj parameters), Quiet s) (shape : Shape) :
    Markup.markupCalls (shape.chars tool parameters) = [] := by
  have elements : InvokeBlock.extract (shape.chars tool parameters) = [] := by
    rw [InvokeBlock.extract, findEach_eq_nil]
    · rw [Markup.callsOf]
    · intro tail suffix
      apply InvokeBlock.element?_eq_none
      rw [Option.eq_none_iff_forall_ne_some]
      intro rest started
      rw [dropStart?_eq_some started] at suffix
      exact not_prefix_of_quiet quiet suffix List.mem_cons_self (List.prefix_append _ rest)
  have tags : CompactTag.extract (shape.chars tool parameters) = [] := by
    refine InvokeBlock.callsOf_eq_nil fun p mem => Bool.eq_false_iff.mpr fun allowed => ?_
    obtain ⟨tail, rest, suffix, read⟩ :=
      exists_suffix_of_mem_findEach (fun read => (CompactTag.tag?_cases read).1) mem
    obtain ⟨-, c, more, rfl, -, named⟩ := CompactTag.tag?_cases read
    obtain ⟨other, same⟩ := Tool.exists_name_eq allowed
    have word : p.2.name ∈ tagWords := by
      rw [← String.toList_ofList (l := p.2.name), ← same]
      exact List.mem_cons_of_mem _ (List.mem_map_of_mem (Tool.mem_all other))
    refine not_prefix_of_quiet quiet suffix word ?_
    rw [named]
    exact List.cons_prefix_cons.mpr ⟨rfl, List.takeWhile_prefix _⟩
  rw [Markup.markupCalls, elements, tags, List.append_nil]

end Shape
end JsonCall

namespace Candidate
variable {tool : Tool} {parameters : Json.Fields} {shape : JsonCall.Shape}

/-- The candidates of an object: what markup is found in its text, and its call. -/
theorem found_object (fits : Json.Fits Json.maxDepth (shape.value tool parameters)) :
    found (CallForm.all.map CallForm.extractor) (shape.chars tool parameters) =
      (InvokeBlock.extract (shape.chars tool parameters)).map (fun p => ⟨p.1, 0, p.2⟩) ++
        (CompactTag.extract (shape.chars tool parameters)).map (fun p => ⟨p.1, 1, p.2⟩) ++
          [⟨0, 2, JsonCall.callOf tool parameters⟩] := by
  simp [found, CallForm.all, CallForm.extractor, CallForm.extract,
    JsonCall.Shape.extractEmbedded_chars tool parameters fits, JsonCall.Shape.extractMarked_chars]

theorem mem_found_object (fits : Json.Fits Json.maxDepth (shape.value tool parameters)) {d : Candidate}
    (mem : d ∈ found (CallForm.all.map CallForm.extractor) (shape.chars tool parameters)) :
    d = ⟨0, 2, JsonCall.callOf tool parameters⟩ ∨
      (d.offset, d.call) ∈ Markup.markupCalls (shape.chars tool parameters) := by
  rw [found_object fits, List.mem_append, List.mem_append, List.mem_map, List.mem_map, List.mem_singleton] at mem
  rw [Markup.markupCalls, List.mem_append]
  obtain (⟨p, mem, rfl⟩ | ⟨p, mem, rfl⟩) | rfl := mem
  · exact .inr (.inl mem)
  · exact .inr (.inr mem)
  · exact .inl rfl

theorem exists_of_mem_markupCalls (fits : Json.Fits Json.maxDepth (shape.value tool parameters))
    {p : Nat × ToolCall} (mem : p ∈ Markup.markupCalls (shape.chars tool parameters)) :
    ∃ d ∈ found (CallForm.all.map CallForm.extractor) (shape.chars tool parameters), d.call = p.2 := by
  rw [found_object fits]
  rw [Markup.markupCalls, List.mem_append] at mem
  obtain mem | mem := mem
  · exact ⟨⟨p.1, 0, p.2⟩, by simp [mem], rfl⟩
  · exact ⟨⟨p.1, 1, p.2⟩, by simp [mem], rfl⟩

/-- The call of an object goes before everything that is found further on. -/
theorem exists_sorted_object (fits : Json.Fits Json.maxDepth (shape.value tool parameters)) :
    ∃ others, (found (CallForm.all.map CallForm.extractor) (shape.chars tool parameters)).mergeSort before =
        ⟨0, 2, JsonCall.callOf tool parameters⟩ :: others ∧
      ∀ d, d ∈ ⟨0, 2, JsonCall.callOf tool parameters⟩ :: others ↔
        d ∈ found (CallForm.all.map CallForm.extractor) (shape.chars tool parameters) := by
  apply exists_mergeSort_eq_cons
  · rw [found_object fits]
    exact List.mem_append_right _ List.mem_cons_self
  · intro d mem
    refine (mem_found_object fits mem).imp_right fun markup => ?_
    have late := JsonCall.Shape.pos_of_mem_markupCalls tool parameters markup
    rw [Bool.eq_false_iff, Ne, before_iff]
    simp only at late ⊢
    omega

end Candidate

/-- The call of an object is the first one of its text. It is the only one exactly if all calls that are found
as elements or tags in the text have its identity; none is found where no string of the parameters has the
word of a call after an angle bracket. -/
theorem ToolCall.ofText_object (tool : Tool) (parameters : Json.Fields) (shape : JsonCall.Shape)
    (fits : Json.Fits Json.maxDepth (shape.value tool parameters)) :
    ∃ others, ToolCall.ofText (Json.write .line (shape.value tool parameters)) =
        JsonCall.callOf tool parameters :: others ∧
      (others = [] ↔ ∀ p ∈ Markup.markupCalls (Json.render .line 0 (shape.value tool parameters)),
        p.2.dedupKey = (JsonCall.callOf tool parameters).dedupKey) ∧
      ((∀ s ∈ Json.strings (.obj parameters), JsonCall.Shape.Quiet s) → others = []) := by
  obtain ⟨candidates, sorted, members⟩ := Candidate.exists_sorted_object fits
  have allowed : Tool.isAllowed (JsonCall.callOf tool parameters).name = true := by
    rw [JsonCall.callOf, Tool.isAllowed, Tool.ofName?_name]
    rfl
  have one_identity : Candidate.distinct [(JsonCall.callOf tool parameters).dedupKey] candidates = [] ↔
      ∀ p ∈ Markup.markupCalls (shape.chars tool parameters),
        p.2.dedupKey = (JsonCall.callOf tool parameters).dedupKey := by
    rw [Candidate.distinct_eq_nil_iff]
    constructor
    · intro known p mem
      obtain ⟨d, found, same⟩ := Candidate.exists_of_mem_markupCalls fits mem
      rw [← same]
      obtain rfl | later := List.mem_cons.mp ((members d).mpr found)
      · rfl
      · exact List.mem_singleton.mp (known d later (same ▸ Markup.isAllowed_of_mem_markupCalls mem))
    · intro same d later _
      obtain rfl | markup := Candidate.mem_found_object fits ((members d).mp (List.mem_cons_of_mem _ later))
      · exact List.mem_singleton_self _
      · exact List.mem_singleton.mpr (same _ markup)
  refine ⟨Candidate.distinct [(JsonCall.callOf tool parameters).dedupKey] candidates, ?_, one_identity, ?_⟩
  · rw [ofText, extractCalls, Extractor.calls, Json.write, String.toList_ofList, ← JsonCall.Shape.chars, sorted,
      Candidate.distinct, if_neg (by simp [allowed])]
  · intro quiet
    rw [one_identity, JsonCall.Shape.markupCalls_of_quiet quiet]
    exact fun _ mem => absurd mem List.not_mem_nil

/-- Parameters with nested values, and a text that holds brackets, quotes, entities and objects. -/
def JsonCall.snippet : Json.Fields :=
  [("path", .str "notes.md"), ("content", .str "if (a < b)\n\x7b \"name\": \"todo_list\", &lt;p&gt; <b> \x7d"),
    ("extra", .arr [.int (-3), .obj [("", .null), ("<p>", .bool true)]])]

theorem ToolCall.ofText_object_snippet :
    ToolCall.ofText ("\x7b\"tool_call\": \x7b\"tool\": \"write_file\", \"args\": \x7b\"path\": \"notes.md\", " ++
      "\"content\": \"if (a < b)\\n\x7b \\\"name\\\": \\\"todo_list\\\", &lt;p&gt; <b> \x7d\", " ++
      "\"extra\": [-3, \x7b\"\": null, \"<p>\": true\x7d]\x7d\x7d\x7d") =
        [JsonCall.callOf .writeFile JsonCall.snippet] := by
  have fits : Json.Fits Json.maxDepth
      ((JsonCall.Shape.wrapped .byTool).value .writeFile JsonCall.snippet) := by
    refine .obj (by decide) (List.forall_mem_singleton.mpr (.obj (by decide) ?_))
    simp only [List.forall_mem_cons]
    refine ⟨.str _ _, .obj (by decide) ?_, List.forall_mem_nil _⟩
    rw [JsonCall.snippet]
    simp only [List.forall_mem_cons]
    refine ⟨.str _ _, .str _ _, .arr ?_, List.forall_mem_nil _⟩
    simp only [List.forall_mem_cons]
    refine ⟨.int _ (by decide +kernel), .obj (by decide) ?_, List.forall_mem_nil _⟩
    simp only [List.forall_mem_cons]
    exact ⟨.null _, .bool _ _, List.forall_mem_nil _⟩
  obtain ⟨others, found, -, alone⟩ := ToolCall.ofText_object .writeFile JsonCall.snippet (.wrapped .byTool) fits
  have text : Json.write .line ((JsonCall.Shape.wrapped .byTool).value .writeFile JsonCall.snippet) =
      "\x7b\"tool_call\": \x7b\"tool\": \"write_file\", \"args\": \x7b\"path\": \"notes.md\", " ++
      "\"content\": \"if (a < b)\\n\x7b \\\"name\\\": \\\"todo_list\\\", &lt;p&gt; <b> \x7d\", " ++
      "\"extra\": [-3, \x7b\"\": null, \"<p>\": true\x7d]\x7d\x7d\x7d" := by decide +kernel
  rw [← text, found, alone (by decide +kernel)]

/-- Parameters with a text that shows a tag. -/
def JsonCall.listing : Json.Fields := [("path", .str "notes.md"), ("content", .str "Call <todo_list />.")]

/-- A text that shows a tag is no more than a parameter, but the tag is found as a second call. -/
theorem ToolCall.ofText_object_listing :
    Json.write .line (JsonCall.Shape.byName.value .writeFile JsonCall.listing) =
        "\x7b\"name\": \"write_file\", \"parameters\": \x7b\"path\": \"notes.md\", " ++
          "\"content\": \"Call <todo_list />.\"\x7d\x7d" ∧
      ToolCall.ofText (Json.write .line (JsonCall.Shape.byName.value .writeFile JsonCall.listing)) =
        [JsonCall.callOf .writeFile JsonCall.listing, ⟨"todo_list", [], []⟩] := by
  have text : JsonCall.Shape.byName.chars .writeFile JsonCall.listing =
      ("\x7b\"name\": \"write_file\", \"parameters\": \x7b\"path\": \"notes.md\", " ++
        "\"content\": \"Call <todo_list />.\"\x7d\x7d").toList := by
    decide +kernel
  have fits : Json.Fits Json.maxDepth (JsonCall.Shape.byName.value .writeFile JsonCall.listing) := by
    refine .obj (by decide) ?_
    simp only [List.forall_mem_cons]
    refine ⟨.str _ _, .obj (by decide) ?_, List.forall_mem_nil _⟩
    simp only [JsonCall.listing, List.forall_mem_cons]
    exact ⟨.str _ _, .str _ _, List.forall_mem_nil _⟩
  have elements : InvokeBlock.extract (JsonCall.Shape.byName.chars .writeFile JsonCall.listing) = [] := by
    rw [text]
    cbv
  have tags : CompactTag.extract (JsonCall.Shape.byName.chars .writeFile JsonCall.listing) =
      [(75, ⟨"todo_list", [], []⟩)] := by
    rw [text]
    cbv
  have sorted : [⟨75, 1, ⟨"todo_list", [], []⟩⟩, ⟨0, 2, JsonCall.callOf .writeFile JsonCall.listing⟩].mergeSort
      Candidate.before = [⟨0, 2, JsonCall.callOf .writeFile JsonCall.listing⟩, ⟨75, 1, ⟨"todo_list", [], []⟩⟩] := by
    simp [List.mergeSort, Candidate.before]
  refine ⟨congrArg String.ofList text, ?_⟩
  rw [ofText, extractCalls, Extractor.calls, Json.write, String.toList_ofList, ← JsonCall.Shape.chars,
    Candidate.found_object fits, elements, tags]
  simp only [List.map_nil, List.map_cons, List.nil_append, List.cons_append, sorted]
  rw [Candidate.distinct, if_neg (by decide +kernel), Candidate.distinct, if_neg (by decide +kernel), Candidate.distinct]

end CodeAgent
