import CodeAgent.Proofs.Json.Canonical
import CodeAgent.ToolCall.Extractor
import CodeAgent.ToolCall.Parameters

/-! Calls of one identity ask for the same action, unless a text of theirs reads as a number or a truth
value and is written in two ways. -/
namespace CodeAgent
open Json

/-- Values that are equal up to the order of members in the objects in them. -/
def Json.Alike (v w : Option Json) : Prop := v.map sorted = w.map sorted

theorem Json.alike_cases {v w : Option Json} (alike : Alike v w) :
    v = none ∧ w = none ∨ ∃ x y, v = some x ∧ w = some y ∧ sorted x = sorted y := by
  cases v with
  | none => exact .inl ⟨rfl, Option.map_eq_none_iff.mp alike.symm⟩
  | some x =>
    obtain ⟨y, rfl, same⟩ := Option.map_eq_some_iff.mp alike.symm
    exact .inr ⟨x, y, rfl, rfl, same.symm⟩

theorem Json.eq_str_of_sorted_eq {v : Json} {s : String} (same : sorted v = .str s) : v = .str s := by
  cases v <;> simp [sorted] at same ⊢
  exact same

namespace ParameterField
variable {α : Type} {f : ParameterField α}

/-- A field whose reading does not depend on the order of members. -/
def Settled (f : ParameterField α) : Prop := ∀ v, f.read (sorted v) = f.read v

theorem Settled.read_eq (settled : f.Settled) {v w : Json} (same : sorted v = sorted w) :
    f.read v = f.read w := by
  rw [← settled v, same, settled w]

/-- A settled field is given under the same key by objects whose members are alike, if at all. -/
theorem Settled.given_cases (settled : f.Settled) {data data' : Json.Fields}
    (alike : ∀ key, Alike (OrderedMap.get? data key) (OrderedMap.get? data' key)) :
    f.given? data = none ∧ f.given? data' = none ∨
      ∃ key v w, f.given? data = some (key, v) ∧ f.given? data' = some (key, w) ∧ f.read v = f.read w := by
  have under (key : String) :
      (OrderedMap.get? data key).map (key, ·) = none ∧ (OrderedMap.get? data' key).map (key, ·) = none ∨
        ∃ v w, (OrderedMap.get? data key).map (key, ·) = some (key, v) ∧
          (OrderedMap.get? data' key).map (key, ·) = some (key, w) ∧ f.read v = f.read w := by
    obtain ⟨hv, hw⟩ | ⟨v, w, hv, hw, same⟩ := alike_cases (alike key)
    · exact .inl ⟨by rw [hv]; rfl, by rw [hw]; rfl⟩
    · exact .inr ⟨v, w, by rw [hv]; rfl, by rw [hw]; rfl, settled.read_eq same⟩
  simp only [given?]
  cases f.otherName with
  | none =>
    obtain both | ⟨v, w, found⟩ := under f.name
    · exact .inl both
    · exact .inr ⟨f.name, v, w, found⟩
  | some other =>
    simp only [Option.bind_some]
    obtain ⟨hv, hw⟩ | ⟨v, w, hv, hw, same⟩ := under other
    · rw [hv, hw]
      obtain both | ⟨v, w, found⟩ := under f.name
      · exact .inl both
      · exact .inr ⟨f.name, v, w, found⟩
    · rw [hv, hw]
      exact .inr ⟨other, v, w, rfl, rfl, same⟩

/-- A settled field is read alike from objects whose members are alike. -/
theorem Settled.get_eq (settled : f.Settled) {data data' : Json.Fields}
    (alike : ∀ key, Alike (OrderedMap.get? data key) (OrderedMap.get? data' key)) :
    f.get data = f.get data' := by
  rw [get, get]
  obtain ⟨hv, hw⟩ | ⟨key, v, w, hv, hw, same⟩ := settled.given_cases alike
  · rw [hv, hw]
  · rw [hv, hw]
    simp only [same]

theorem settled_requiredText (name : String) : (requiredText name).Settled := by
  rintro (_ | _ | _ | _ | _ | _ | _) <;> rfl

theorem settled_flag (name other : String) : (flag name other).Settled := by
  rintro (_ | _ | _ | _ | _ | _ | _) <;> rfl

theorem settled_line (name : String) : (line name).Settled := by
  rintro (_ | _ | _ | _ | _ | _ | _) <;> rfl

theorem settled_glob (name other : String) : (glob name other).Settled := by
  rintro (_ | _ | _ | _ | _ | _ | _) <;> rfl

end ParameterField

namespace Parameters
open ParameterField

/-- The parameters of a tool are read alike from objects whose members are alike. -/
theorem read_eq (tool : Tool) {data data' : Json.Fields}
    (alike : ∀ key, Alike (OrderedMap.get? data key) (OrderedMap.get? data' key)) :
    read tool data = read tool data' := by
  have path : pathField.get data = pathField.get data' := (settled_requiredText _).get_eq alike
  have place : placeField.get data = placeField.get data' :=
    Settled.get_eq (f := placeField) (settled_requiredText "path") alike
  have content : contentField.get data = contentField.get data' := (settled_requiredText _).get_eq alike
  have pattern : patternField.get data = patternField.get data' := (settled_requiredText _).get_eq alike
  have query : queryField.get data = queryField.get data' := (settled_requiredText _).get_eq alike
  have id : idField.get data = idField.get data' := (settled_requiredText _).get_eq alike
  have first : startField.get data = startField.get data' := (settled_line _).get_eq alike
  have last : endField.get data = endField.get data' := (settled_line _).get_eq alike
  have cases' : caseField.get data = caseField.get data' := (settled_flag _ _).get_eq alike
  have words : wordField.get data = wordField.get data' := (settled_flag _ _).get_eq alike
  have regex : regexField.get data = regexField.get data' :=
    Settled.get_eq (f := regexField) (settled_flag "regex" "") alike
  have including : includeField.get data = includeField.get data' := (settled_glob _ _).get_eq alike
  have excluding : excludeField.get data = excludeField.get data' := (settled_glob _ _).get_eq alike
  cases tool <;> simp only [read, *]

theorem get?_withSource (call : ToolCall) (data : Json.Fields) (first key : String) :
    OrderedMap.get? (withSource call data first) key =
      if first = key then ((OrderedMap.get? call.rawText key).map Json.str).or (OrderedMap.get? data key)
      else OrderedMap.get? data key := by
  by_cases same : first = key
  · subst same
    rw [if_pos rfl, withSource]
    cases OrderedMap.get? call.rawText first with
    | some t => exact (OrderedMap.get?_put first first _ data).trans (if_pos rfl)
    | none => rfl
  · rw [if_neg same, withSource]
    cases OrderedMap.get? call.rawText first with
    | some t => exact (OrderedMap.get?_put first key _ data).trans (if_neg same)
    | none => rfl

/-- The value under a key of a call with the source text in place: the source text of a text field that
has one. -/
theorem get?_sourceData (tool : Tool) (call : ToolCall) (key : String) :
    OrderedMap.get? (sourceData tool call) key =
      if key ∈ textKeys tool then
        ((OrderedMap.get? call.rawText key).map Json.str).or (OrderedMap.get? call.parameters key)
      else OrderedMap.get? call.parameters key := by
  rw [sourceData]
  generalize call.parameters = data
  induction textKeys tool generalizing data with
  | nil => simp
  | cons first keys ih =>
    rw [List.foldl_cons, ih, get?_withSource]
    by_cases same : first = key
    · subst same
      rw [if_pos rfl, if_pos List.mem_cons_self]
      cases OrderedMap.get? call.rawText first <;> simp
    · simp only [List.mem_cons, same, Ne.symm same, if_false, false_or]

end Parameters

/-- Where a call has source texts, its parameters are what they read as. -/
def ToolCall.Coerced (call : ToolCall) : Prop :=
  ∀ key t, OrderedMap.get? call.rawText key = some t →
    ∃ v, Scalar.ofChars? t.toList = some v ∧ OrderedMap.get? call.parameters key = some v

/-- Pairs that are put into two maps one after the other keep them together. -/
theorem coerced_foldl {pairs : List (String × Json × String)} {parameters : Json.Fields}
    {rawText : OrderedMap String}
    (read : ∀ p ∈ pairs, Scalar.ofChars? p.2.2.toList = some p.2.1)
    (coerced : ToolCall.Coerced ⟨"", parameters, rawText⟩) :
    ToolCall.Coerced ⟨"",
      (pairs.map fun p => (p.1, p.2.1)).foldl (fun m p => OrderedMap.put p.1 p.2 m) parameters,
      (pairs.map fun p => (p.1, p.2.2)).foldl (fun m p => OrderedMap.put p.1 p.2 m) rawText⟩ := by
  induction pairs generalizing parameters rawText with
  | nil => exact coerced
  | cons p pairs ih =>
    refine ih (fun q hq => read q (List.mem_cons_of_mem _ hq)) fun key t found => ?_
    dsimp only at found ⊢
    rw [OrderedMap.get?_put] at found ⊢
    split at found
    · next same =>
      obtain rfl := Option.some.inj found
      exact ⟨p.2.1, read p List.mem_cons_self, if_pos same⟩
    · next other =>
      rw [if_neg other]
      exact coerced key t found

namespace Markup

theorem entry?_eq_some {key : String} {value : List Char} {e : String × Json × String}
    (made : entry? key value = some e) : Scalar.ofChars? e.2.2.toList = some e.2.1 := by
  obtain ⟨v, read, rfl⟩ := Option.map_eq_some_iff.mp made
  rw [String.toList_ofList, read]

theorem entries_read {values : List (String × List Char)} {entries : List (String × Json × String)}
    (made : values.mapM (fun p => entry? p.1 p.2) = some entries) :
    ∀ e ∈ entries, Scalar.ofChars? e.2.2.toList = some e.2.1 := by
  induction values generalizing entries with
  | nil =>
    obtain rfl := Option.some.inj made
    simp
  | cons p values ih =>
    rw [List.mapM_cons] at made
    obtain ⟨e, first, rest⟩ := Option.bind_eq_some_iff.mp made
    obtain ⟨es, others, last⟩ := Option.bind_eq_some_iff.mp rest
    obtain rfl := Option.some.inj last
    rintro d (_ | ⟨_, hd⟩)
    · exact entry?_eq_some first
    · exact ih others d hd

theorem coerced_of_call? {name : String} {values : List (String × List Char)} {call : ToolCall}
    (made : call? name values = some call) : call.Coerced := by
  obtain ⟨entries, all, rfl⟩ := Option.map_eq_some_iff.mp made
  exact coerced_foldl (entries_read all) fun _ _ found => by contradiction

end Markup

namespace JsonCall

theorem direct?_rawText {fields : Json.Fields} {nameKey parametersKey : String} {call : ToolCall}
    (made : direct? fields nameKey parametersKey = some call) : call.rawText = [] := by
  obtain ⟨name, -, rest⟩ := Option.bind_eq_some_iff.mp made
  obtain ⟨parameters, -, last⟩ := Option.bind_eq_some_iff.mp rest
  obtain rfl := Option.some.inj last
  rfl

theorem ofFields?_rawText {fields : Json.Fields} {call : ToolCall} (made : ofFields? fields = some call) :
    call.rawText = [] := by
  rw [ofFields?] at made
  cases first : direct? fields "name" "parameters" with
  | some other =>
    rw [first] at made
    exact direct?_rawText (first.trans made)
  | none =>
    rw [first] at made
    exact direct?_rawText made

mutual

theorem ofJson_rawText : ∀ {v : Json} {call : ToolCall}, ofJson v = .ok call → call.rawText = []
  | .obj fields, call, made => by
    rw [ofJson] at made
    split at made
    · next direct =>
      obtain rfl := Except.ok.inj made
      exact ofFields?_rawText direct
    · exact ofWrapper_rawText made
  | .null, _, made | .bool _, _, made | .int _, _, made | .float _, _, made | .str _, _, made
  | .arr _, _, made => by
    simp [ofJson] at made

theorem ofWrapper_rawText : ∀ {fields : List (String × Json)} {call : ToolCall},
    ofWrapper fields = .ok call → call.rawText = []
  | [], _, made => by simp [ofWrapper] at made
  | (key, v) :: fields, call, made => by
    rw [ofWrapper] at made
    split at made
    · exact ofJson_rawText made
    · exact ofWrapper_rawText made

end

end JsonCall

theorem ToolCall.coerced_of_rawText_eq_nil {call : ToolCall} (none : call.rawText = []) : call.Coerced := by
  intro key t found
  rw [none] at found
  contradiction

theorem Markup.coerced_of_mem {α : Type} {name : α → String} {values : α → List (String × List Char)}
    {found : List (Nat × α)} {offset : Nat} {call : ToolCall}
    (mem : (offset, call) ∈ callsOf name values found) : call.Coerced := by
  fun_induction callsOf name values found with
  | case1 => exact absurd mem List.not_mem_nil
  | case2 _ _ _ _ _ made ih =>
    obtain same | mem := List.mem_cons.mp mem
    · obtain rfl := (Prod.mk.inj same).2
      exact coerced_of_call? made
    · exact ih mem
  | case3 => exact absurd mem List.not_mem_nil
  | case4 _ _ _ _ ih => exact ih mem

namespace JsonCall

theorem readingAt_rawText {cs rest : List Char} {call : ToolCall} (read : readingAt cs = .call call rest) :
    call.rawText = [] := by
  rw [readingAt] at read
  split at read
  · split at read
    · next made =>
      obtain rfl := (Reading.call.inj read).1
      exact ofJson_rawText made
    · contradiction
  · contradiction
  · contradiction

theorem readingOfLine_rawText {cs rest : List Char} {call : ToolCall}
    (read : readingOfLine cs = .call call rest) : call.rawText = [] := by
  rw [readingOfLine] at read
  split at read
  · split at read
    · next made =>
      obtain rfl := (Reading.call.inj read).1
      exact direct?_rawText made
    · contradiction
  all_goals contradiction

theorem embeddedFrom_rawText {start : Nat} {cs : List Char} {offset : Nat} {call : ToolCall}
    (found : (offset, call) ∈ embeddedFrom start cs) : call.rawText = [] := by
  fun_induction embeddedFrom start cs with
  | case1 => exact absurd found List.not_mem_nil
  | case2 _ _ _ _ call' rest read _ ih =>
    obtain same | found := List.mem_cons.mp found
    · obtain rfl := (Prod.mk.inj same).2
      exact readingAt_rawText read
    · exact ih found
  | case3 _ _ _ _ _ _ _ _ ih | case4 _ _ _ _ _ ih | case6 _ _ _ _ ih => exact ih found
  | case5 => exact absurd found List.not_mem_nil

theorem marksFrom_rawText {start : Nat} {lines : List (List Char × List Char)} {offset : Nat}
    {call : ToolCall} (found : (offset, call) ∈ marksFrom start lines) : call.rawText = [] := by
  fun_induction marksFrom start lines with
  | case1 => exact absurd found List.not_mem_nil
  | case2 _ _ _ _ _ _ ih => exact ih found
  | case3 _ _ _ _ _ _ _ _ _ read ih =>
    obtain same | found := List.mem_cons.mp found
    · obtain rfl := (Prod.mk.inj same).2
      exact readingOfLine_rawText read
    · exact ih found
  | case4 _ _ _ _ _ _ _ _ ih => exact ih found
  | case5 => exact absurd found List.not_mem_nil

end JsonCall

theorem CallForm.coerced_of_mem_extract {form : CallForm} {cs : List Char} {offset : Nat} {call : ToolCall}
    (found : (offset, call) ∈ form.extract cs) : call.Coerced := by
  cases form with
  | invokeBlock => exact Markup.coerced_of_mem found
  | compactTag => exact Markup.coerced_of_mem found
  | embeddedJson => exact ToolCall.coerced_of_rawText_eq_nil (JsonCall.embeddedFrom_rawText found)
  | markedLine => exact ToolCall.coerced_of_rawText_eq_nil (JsonCall.marksFrom_rawText found)

/-- The text fields of a call's tool hold strings, or are written alike in another call. -/
def ToolCall.SpelledLike (a b : ToolCall) : Prop :=
  ∀ tool, Tool.ofName? a.name = some tool → ∀ key ∈ Parameters.textKeys tool,
    (∃ s, OrderedMap.get? a.parameters key = some (.str s)) ∨
      OrderedMap.get? a.rawText key = OrderedMap.get? b.rawText key

/-- A text that reads as a string is that string. -/
theorem Scalar.ofChars?_eq_str {cs : List Char} {s : String} (read : Scalar.ofChars? cs = some (.str s)) :
    s = String.ofList cs := by
  rw [ofChars?] at read
  split at read
  · simp at read
  split at read
  · simp at read
  split at read
  · split at read <;> simp at read
  split at read
  · simp at read
  · exact (Json.str.inj (Option.some.inj read)).symm

namespace ToolCall

/-- A string among the parameters stands for itself in the source. -/
theorem Coerced.get?_source {call : ToolCall} (coerced : call.Coerced) {key s : String}
    (value : OrderedMap.get? call.parameters key = some (.str s)) :
    ((OrderedMap.get? call.rawText key).map Json.str).or (OrderedMap.get? call.parameters key) =
      some (.str s) := by
  cases source : OrderedMap.get? call.rawText key with
  | none => exact value
  | some t =>
    obtain ⟨v, read, found⟩ := coerced key t source
    obtain rfl := Option.some.inj (found.symm.trans value)
    obtain rfl := Scalar.ofChars?_eq_str read
    rw [String.ofList_toList]
    rfl

/-- With the source text in place, calls with like parameters that are spelled alike have like data. -/
theorem source_alike {a b : ToolCall} (ha : a.Coerced) (hb : b.Coerced) {tool : Tool}
    (alike : ∀ key, Alike (OrderedMap.get? a.parameters key) (OrderedMap.get? b.parameters key))
    (spelled : ∀ key ∈ Parameters.textKeys tool,
      (∃ s, OrderedMap.get? a.parameters key = some (.str s)) ∨
        OrderedMap.get? a.rawText key = OrderedMap.get? b.rawText key) (key : String) :
    Alike (OrderedMap.get? (Parameters.sourceData tool a) key)
      (OrderedMap.get? (Parameters.sourceData tool b) key) := by
  rw [Parameters.get?_sourceData, Parameters.get?_sourceData]
  by_cases texts : key ∈ Parameters.textKeys tool
  · rw [if_pos texts, if_pos texts]
    obtain ⟨s, value⟩ | source := spelled key texts
    · have other : OrderedMap.get? b.parameters key = some (.str s) := by
        obtain ⟨first, -⟩ | ⟨x, y, first, second, same⟩ := alike_cases (alike key)
        · rw [first] at value
          contradiction
        · obtain rfl := Option.some.inj (first.symm.trans value)
          rw [second, eq_str_of_sorted_eq same.symm]
      rw [ha.get?_source value, hb.get?_source other]
      rfl
    · rw [source]
      cases OrderedMap.get? b.rawText key with
      | none => exact alike key
      | some t => rfl
  · rw [if_neg texts, if_neg texts]
    exact alike key

/-- Calls of one identity have the same parameters up to the order of members. -/
theorem alike_of_key_eq {a b : ToolCall} (same : a.key = b.key) (key : String) :
    Alike (OrderedMap.get? a.parameters key) (OrderedMap.get? b.parameters key) := by
  have fields := sorted_eq_of_canonical_eq same
  rw [sorted, sorted] at fields
  have found := congrArg (OrderedMap.get? · key) (Json.obj.inj fields)
  rwa [get?_sorted, get?_sorted] at found

theorem ofCall_eq_of_dedupKey_eq {a b : ToolCall} (ha : a.Coerced) (hb : b.Coerced)
    (same : a.dedupKey = b.dedupKey) (spelled : a.SpelledLike b) :
    Parameters.ofCall a = Parameters.ofCall b := by
  obtain ⟨name, key⟩ := Prod.mk.inj same
  rw [Parameters.ofCall, Parameters.ofCall, ← name]
  cases known : Tool.ofName? a.name with
  | none => rfl
  | some tool =>
    dsimp only
    rw [Parameters.read_eq tool (source_alike ha hb (alike_of_key_eq key) (spelled tool known))]

end ToolCall

namespace CallForm

/-- Two calls of one identity, found in any forms in any texts, have the same typed parameters or fail in
the same way, unless a text field of theirs reads as a number or a truth value and differs in its source. -/
theorem same_action_of_same_identity {form form' : CallForm} {cs cs' : List Char} {offset offset' : Nat}
    {a b : ToolCall} (first : (offset, a) ∈ form.extract cs) (second : (offset', b) ∈ form'.extract cs')
    (same : a.dedupKey = b.dedupKey) (spelled : a.SpelledLike b) :
    Parameters.ofCall a = Parameters.ofCall b :=
  ToolCall.ofCall_eq_of_dedupKey_eq (coerced_of_mem_extract first) (coerced_of_mem_extract second) same
    spelled

theorem same_action_of_same_identity_padded :
    let first : ToolCall := ⟨"read_file", [("path", .str "a.py"), ("start_line", .int 7)],
      [("path", "a.py"), ("start_line", "7")]⟩
    let second : ToolCall := ⟨"read_file", [("path", .str "a.py"), ("start_line", .int 7)],
      [("path", "a.py"), ("start_line", "007")]⟩
    (0, first) ∈ compactTag.extract "<read_file path=\"a.py\" start_line=\"7\"/>".toList ∧
      (0, second) ∈ compactTag.extract "<read_file path=\"a.py\" start_line=\"007\"/>".toList ∧
      first.dedupKey = second.dedupKey ∧ first.SpelledLike second ∧
      Parameters.ofCall first = Parameters.ofCall second := by
  intro first second
  have found : (0, first) ∈ compactTag.extract "<read_file path=\"a.py\" start_line=\"7\"/>".toList := by
    have all : compactTag.extract "<read_file path=\"a.py\" start_line=\"7\"/>".toList = [(0, first)] := by
      cbv
    rw [all]
    exact List.mem_singleton_self _
  have found' : (0, second) ∈ compactTag.extract "<read_file path=\"a.py\" start_line=\"007\"/>".toList := by
    have all : compactTag.extract "<read_file path=\"a.py\" start_line=\"007\"/>".toList =
        [(0, second)] := by
      cbv
    rw [all]
    exact List.mem_singleton_self _
  have spelled : first.SpelledLike second := by
    intro tool known key text
    obtain rfl : Tool.readFile = tool := Option.some.inj known
    obtain rfl : key = "path" := List.mem_singleton.mp text
    exact .inl ⟨"a.py", rfl⟩
  exact ⟨found, found', rfl, spelled, same_action_of_same_identity found found' rfl spelled⟩

/-- Two calls that would write different contents have one identity, as both contents read as one number. -/
theorem one_identity_two_contents :
    ∃ first second : ToolCall, ∃ offset,
      compactTag.extract
        "<write_file path=\"a.txt\" content=\"7\"/><write_file path=\"a.txt\" content=\"007\"/>".toList =
          [(0, first), (offset, second)] ∧
      first.dedupKey = second.dedupKey ∧
      Parameters.ofCall first = .ok (.writeFile, .writeFile "a.txt" "7") ∧
      Parameters.ofCall second = .ok (.writeFile, .writeFile "a.txt" "007") := by
  refine ⟨⟨"write_file", [("path", .str "a.txt"), ("content", .int 7)], [("path", "a.txt"), ("content", "7")]⟩,
    ⟨"write_file", [("path", .str "a.txt"), ("content", .int 7)], [("path", "a.txt"), ("content", "007")]⟩,
    38, by cbv, rfl, rfl, rfl⟩

end CallForm
end CodeAgent
