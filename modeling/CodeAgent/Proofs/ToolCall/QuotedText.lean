import CodeAgent.Text.Blank
import CodeAgent.ToolCall.JsonCall
import CodeAgent.Proofs.Json.Strings
import CodeAgent.Proofs.Json.Locality
import CodeAgent.Proofs.OrderedMap
import CodeAgent.Proofs.Text.Search
import CodeAgent.Proofs.Text.Lines

/-! Quoted text: where the quotes of a text belong to the attributes of tags, no JSON object in it is a
call. An object that starts in a quoted part has the text between two quoted parts as its keys; one that
starts between them meets no key at all. -/
namespace CodeAgent
open CodeAgent.Text

namespace Json

/-- The text between two quoted parts of a tag or of neighbouring tags. -/
structure BetweenQuotes (gap : List Char) : Prop where
  unquoted : '"' ∉ gap
  first : ∀ c ∈ gap.head?, isBlank c = true ∨ c = '>'
  last : gap.getLast? = some '='

/-- The text from within a quoted part on. -/
inductive InsideQuotes : List Char → Prop where
  | nil : InsideQuotes []
  | char {c cs} : c ≠ '"' → InsideQuotes cs → InsideQuotes (c :: cs)
  | last {cs} : '"' ∉ cs → InsideQuotes ('"' :: cs)
  | next {gap cs} : BetweenQuotes gap → InsideQuotes cs → InsideQuotes ('"' :: (gap ++ '"' :: cs))

theorem InsideQuotes.append {used rest : List Char} (unquoted : '"' ∉ used) (inside : InsideQuotes rest) :
    InsideQuotes (used ++ rest) := by
  induction used with
  | nil => exact inside
  | cons c used ih =>
    rw [List.mem_cons, not_or] at unquoted
    exact .char (Ne.symm unquoted.1) (ih unquoted.2)

theorem InsideQuotes.tail {c : Char} {cs : List Char} (inside : InsideQuotes (c :: cs)) (other : c ≠ '"') :
    InsideQuotes cs := by
  cases inside with
  | char _ rest => exact rest
  | last => contradiction
  | next => contradiction

theorem InsideQuotes.drop {used rest : List Char} (inside : InsideQuotes (used ++ rest))
    (unquoted : '"' ∉ used) : InsideQuotes rest := by
  induction used with
  | nil => exact inside
  | cons c used ih =>
    rw [List.mem_cons, not_or] at unquoted
    exact ih (inside.tail (Ne.symm unquoted.1)) unquoted.2

theorem StringRest.exists_close {cs : List Char} (rest : StringRest cs) : ∃ used, cs = used ++ ['"'] := by
  induction rest with
  | close => exact ⟨[], rfl⟩
  | escape c _ ih =>
    obtain ⟨used, rfl⟩ := ih
    exact ⟨'\\' :: c :: used, rfl⟩
  | @plain c _ _ _ _ ih =>
    obtain ⟨used, rfl⟩ := ih
    exact ⟨c :: used, rfl⟩

/-- Only a backslash keeps a quote from ending a string. -/
theorem StringRest.ends {gap more : List Char} (rest : StringRest (gap ++ '"' :: more))
    (unquoted : '"' ∉ gap) (unescaped : ∀ c ∈ gap.getLast?, c ≠ '\\') : more = [] := by
  generalize whole : gap ++ '"' :: more = cs at rest
  induction rest generalizing gap with
  | close =>
    cases gap with
    | nil => exact (List.cons.inj whole).2
    | cons c gap => simp at whole
  | escape c _ ih =>
    match gap with
    | [] => exact absurd (List.cons.inj whole).1 (by decide)
    | [d] => exact absurd (List.cons.inj whole).1 (unescaped d rfl)
    | d :: e :: gap =>
      refine ih (fun mem => unquoted (by simp [mem])) (fun x hx => unescaped x ?_)
        (List.cons.inj (List.cons.inj whole).2).2
      cases gap with
      | nil => contradiction
      | cons f gap => simpa using hx
  | plain quote _ _ ih =>
    cases gap with
    | nil => exact absurd (List.cons.inj whole).1.symm quote
    | cons d gap =>
      refine ih (fun mem => unquoted (by simp [mem])) (fun x hx => unescaped x ?_) (List.cons.inj whole).2
      cases gap with
      | nil => contradiction
      | cons f gap => simpa using hx

/-- A string from a closing quote on ends at the next opening quote. -/
theorem BetweenQuotes.string_eq {gap cs used rest : List Char} (between : BetweenQuotes gap)
    (closed : StringRest (used ++ ['"'])) (same : gap ++ '"' :: cs = used ++ '"' :: rest) :
    used = gap ∧ rest = cs := by
  obtain ⟨more, rfl, tail⟩ | ⟨more, rfl, tail⟩ := List.append_eq_append_iff.mp same
  · cases more with
    | nil => exact ⟨List.append_nil gap, (List.cons.inj tail).2.symm⟩
    | cons c more =>
      rw [List.append_assoc, List.cons_append, ← (List.cons.inj tail).1] at closed
      have ended := closed.ends between.unquoted fun c hc => by
        rw [between.last] at hc
        cases hc
        decide
      simp at ended
  · cases more with
    | nil => exact ⟨(List.append_nil used).symm, (List.cons.inj tail).2⟩
    | cons c more =>
      rw [List.cons_append, List.cons.injEq] at tail
      exact absurd (by simp [← tail.1]) between.unquoted

/-- Values end within quoted parts if they start there. -/
theorem InsideQuotes.after_balanced {used rest : List Char} (balanced : Balanced used)
    (inside : InsideQuotes (used ++ rest)) : InsideQuotes rest := by
  induction balanced generalizing rest with
  | nil => exact inside
  | plain flat _ ih =>
    refine ih (inside.tail ?_)
    rintro rfl
    contradiction
  | @string cs more closed _ ih =>
    obtain ⟨used, rfl⟩ : ∃ used, cs = used ++ ['"'] := closed.exists_close
    refine ih ?_
    rw [List.cons_append, List.append_assoc, List.append_assoc, List.singleton_append] at inside
    generalize whole : used ++ '"' :: (more ++ rest) = text at inside
    cases inside with
    | char quote => exact absurd rfl quote
    | last unquoted => exact absurd (by simp [← whole]) unquoted
    | next between inside =>
      rw [(between.string_eq closed whole.symm).2]
      exact inside
  | @nested opening closing body more pair _ _ body_ih more_ih =>
    rw [List.cons_append, List.append_assoc, List.cons_append] at inside
    have marks : opening ≠ '"' ∧ closing ≠ '"' := by
      obtain ⟨rfl, rfl⟩ | ⟨rfl, rfl⟩ := by simpa [brackets] using pair
      all_goals decide
    exact more_ih ((body_ih (inside.tail marks.1)).tail marks.2)

theorem notMem_gap {gap : List Char} (white : ∀ c ∈ gap, isGap c = true) : '"' ∉ gap := fun mem =>
  absurd (white _ mem) (by decide)

theorem InsideQuotes.skipGap {cs : List Char} (inside : InsideQuotes cs) : InsideQuotes (skipGap cs) := by
  obtain ⟨gap, split, white⟩ := exists_gap cs
  rw [split] at inside
  exact inside.drop (notMem_gap white)

/-- A name is the text between two quoted parts, by its first character. -/
def BetweenName (key : String) : Prop :=
  ∃ c cs, key.toList = c :: cs ∧ (isBlank c = true ∨ c = '>')

/-- A string that starts at a quote within quoted text is the text between quoted parts. -/
theorem InsideQuotes.readString_cases {cs rest : List Char} {key : String} (inside : InsideQuotes ('"' :: cs))
    (named : readString cs = .ok (key, rest)) : BetweenName key ∧ InsideQuotes rest := by
  obtain ⟨used, shape, closed, -⟩ := readString_local named
  cases inside with
  | char quote => exact absurd rfl quote
  | last unquoted => exact absurd (by simp [shape]) unquoted
  | @next gap tail between inside =>
    rw [(between.string_eq closed shape).2]
    refine ⟨?_, inside⟩
    cases gap with
    | nil => exact absurd between.last (by simp)
    | cons c gap =>
      have start := between.first c rfl
      have quote : c ≠ '"' := fun same => between.unquoted (by simp [same])
      have mark : c ≠ '\\' := by
        rintro rfl
        exact absurd start (by decide)
      rw [readString, List.cons_append] at named
      split at named
      · next text after read =>
        cases named
        by_cases printed : c.toNat < 32
        · rw [readChars, if_pos (by simp [printed])] at read
          · contradiction
          · exact quote
          · exact fun _ same _ => mark same
          · exact fun _ _ same _ => mark same
        · rw [readChars_plain quote mark printed, Option.map_eq_some_iff] at read
          obtain ⟨⟨text', after'⟩, -, made⟩ := read
          cases made
          exact ⟨c, text', String.toList_ofList, start⟩
      · contradiction

/-- The members of an object within quoted text. -/
theorem InsideQuotes.between_of_mem {depth n : Nat} {cs rest : List Char} {members : List (String × Json)}
    (inside : InsideQuotes cs) (read : readMembers (readValue depth) n cs = .ok (members, rest)) :
    ∀ p ∈ members, BetweenName p.1 := by
  induction n generalizing cs rest members with
  | zero => contradiction
  | succ n ih =>
    obtain ⟨text, key, afterKey, colon, item, tail, rfl, named, marked, first, continued⟩ :=
      readMembers_cases read
    obtain ⟨between, inside⟩ := inside.readString_cases named
    have inside := inside.skipGap
    rw [marked] at inside
    have inside := (inside.tail (by decide)).skipGap
    obtain ⟨used, shape, isValue⟩ := readValue_local first
    rw [shape] at inside
    have inside := (inside.after_balanced isValue.balanced).skipGap
    obtain ⟨more, others, comma, later, rfl⟩ | ⟨-, rfl⟩ := continued
    · rw [comma] at inside
      exact List.forall_mem_cons.mpr ⟨between, ih (inside.tail (by decide)).skipGap later⟩
    · exact List.forall_mem_cons.mpr ⟨between, List.forall_mem_nil _⟩

end Json

namespace JsonCall
open Json

/-- The keys under which a call has its name or is wrapped. -/
def callKeys : List String := ["name", "tool", "tool_call"]

/-- Members that make no call: none is under a key of calls. -/
def Foreign (fields : Fields) : Prop := ∀ key ∈ callKeys, key ∉ OrderedMap.keys fields

theorem notMem_callKeys_of_between {key : String} (between : BetweenName key) : key ∉ callKeys := by
  obtain ⟨c, cs, shape, start⟩ := between
  intro mem
  obtain rfl | rfl | rfl := by simpa [callKeys] using mem
  all_goals
    have same := (List.cons.inj shape).1
    rw [← same] at start
    exact absurd start (by decide)

theorem Foreign.direct?_eq_none {fields : Fields} (foreign : Foreign fields) {nameKey : String}
    (named : nameKey ∈ callKeys) (parametersKey : String) : direct? fields nameKey parametersKey = none := by
  have missing : OrderedMap.get? fields nameKey = none := by
    refine Option.eq_none_iff_forall_not_mem.mpr fun v found => ?_
    exact foreign nameKey named (OrderedMap.mem_keys_iff.mpr ⟨v, found⟩)
  rw [direct?, missing]
  rfl

theorem Foreign.ofWrapper_ne_ok {fields : Fields} (foreign : Foreign fields) (call : ToolCall) :
    ofWrapper fields ≠ .ok call := by
  induction fields with
  | nil =>
    rw [ofWrapper]
    intro made
    cases made
  | cons p fields ih =>
    obtain ⟨key, v⟩ := p
    have other : key ≠ "tool_call" := fun same =>
      foreign "tool_call" (by simp [callKeys]) (by simp [OrderedMap.keys, same])
    rw [ofWrapper, if_neg (by simpa using other)]
    exact ih fun k hk mem => foreign k hk (List.mem_cons_of_mem _ mem)

theorem Foreign.ofJson_ne_ok {fields : Fields} (foreign : Foreign fields) (call : ToolCall) :
    ofJson (.obj fields) ≠ .ok call := by
  have none : ofFields? fields = none := by
    rw [ofFields?, foreign.direct?_eq_none (by simp [callKeys]), foreign.direct?_eq_none (by simp [callKeys])]
    rfl
  rw [ofJson, none]
  exact foreign.ofWrapper_ne_ok call

/-- The text after a brace starts no object that makes a call. -/
def Harmless (cs : List Char) : Prop :=
  ∀ depth fields rest, readValue depth ('{' :: cs) = .ok (.obj fields, rest) → Foreign fields

/-- An object needs a quote after its brace to have members. -/
theorem harmless_of_no_key {cs : List Char} (no_key : ∀ more, skipGap cs ≠ '"' :: more) : Harmless cs := by
  intro depth fields rest read
  cases depth with
  | zero => contradiction
  | succ depth =>
    obtain ⟨-, same⟩ | ⟨-, members, -, parts⟩ := readValue_object_cases read
    · cases same
      exact fun _ _ => List.not_mem_nil
    · obtain ⟨text, _, _, _, _, _, shape, -⟩ := readMembers_cases parts
      exact absurd shape (no_key text)

theorem harmless_of_insideQuotes {cs : List Char} (inside : InsideQuotes cs) : Harmless cs := by
  intro depth fields rest read
  cases depth with
  | zero => contradiction
  | succ depth =>
    obtain ⟨-, same⟩ | ⟨-, members, same, parts⟩ := readValue_object_cases read
    · cases same
      exact fun _ _ => List.not_mem_nil
    · cases same
      intro key named mem
      obtain ⟨p, hp, rfl⟩ := List.mem_map.mp (OrderedMap.mem_keys_of_ofPairs mem)
      exact notMem_callKeys_of_between (inside.skipGap.between_of_mem parts p hp) named

/-- No brace of a text starts an object that makes a call. -/
def NoCallObject (cs : List Char) : Prop := AfterEach '{' Harmless cs

theorem harmless_of_unquoted {cs : List Char} (unquoted : '"' ∉ cs) : Harmless cs :=
  harmless_of_no_key fun more quoted => by
    have kept : skipGap cs <:+ cs := List.dropWhile_suffix isGap
    exact unquoted (kept.subset (quoted ▸ List.mem_cons_self))

/-- What follows white space after a brace between quoted parts is no quote. -/
theorem harmless_of_between {before after cs : List Char} (between : BetweenQuotes (before ++ '{' :: after)) :
    Harmless (after ++ '"' :: cs) := by
  refine harmless_of_no_key fun more quoted => ?_
  have mark : '=' ∈ after := by
    have last := between.last
    rw [List.getLast?_append_of_ne_nil _ (List.cons_ne_nil _ _)] at last
    obtain same | mem := List.mem_cons.mp (List.mem_of_getLast? last)
    · contradiction
    · exact mem
  have filled : (after.dropWhile isGap).isEmpty = false := by
    refine Bool.eq_false_iff.mpr fun empty => ?_
    have white := List.dropWhile_eq_nil_iff.mp (List.isEmpty_iff.mp empty) '=' mark
    contradiction
  rw [skipGap, List.dropWhile_append, filled, if_neg Bool.false_ne_true] at quoted
  refine between.unquoted ?_
  cases rest : after.dropWhile isGap with
  | nil =>
    rw [rest] at filled
    contradiction
  | cons c rest' =>
    rw [rest, List.cons_append] at quoted
    rw [(List.cons.inj quoted).1] at rest
    have mem : '"' ∈ after := (List.dropWhile_suffix isGap).subset (rest ▸ List.mem_cons_self)
    simp [mem]

theorem noCallObject_of_insideQuotes {cs : List Char} (inside : InsideQuotes cs) : NoCallObject cs := by
  intro more brace
  induction inside with
  | nil => simp at brace
  | char _ inside ih =>
    obtain same | brace := List.suffix_cons_iff.mp brace
    · cases same
      exact harmless_of_insideQuotes inside
    · exact ih brace
  | last unquoted =>
    obtain same | brace := List.suffix_cons_iff.mp brace
    · cases same
    · exact harmless_of_unquoted fun mem => unquoted (brace.subset (List.mem_cons_of_mem _ mem))
  | @next gap cs between inside ih =>
    obtain same | ⟨before, split⟩ := List.suffix_cons_iff.mp brace
    · cases same
    · obtain ⟨after, rfl, tail⟩ | ⟨after, rfl, tail⟩ := List.append_eq_append_iff.mp split
      · cases after with
        | nil => exact absurd (List.cons.inj tail).1 (by decide)
        | cons c after =>
          obtain ⟨rfl, rfl⟩ := List.cons.inj tail
          exact harmless_of_between between
      · cases after with
        | nil => exact absurd (List.cons.inj tail).1 (by decide)
        | cons c after => exact ih ⟨after, (List.cons.inj tail).2.symm⟩

/-- A value at a brace is an object. -/
theorem obj_of_readValue_brace {depth : Nat} {cs rest : List Char} {v : Json}
    (read : readValue depth ('{' :: cs) = .ok (v, rest)) : ∃ fields, v = .obj fields := by
  cases depth with
  | zero => contradiction
  | succ depth =>
    obtain ⟨-, rfl⟩ | ⟨-, members, rfl, -⟩ := readValue_object_cases read
    · exact ⟨[], rfl⟩
    · exact ⟨OrderedMap.ofPairs members, rfl⟩

theorem Harmless.readingAt_ne_call {cs rest : List Char} {call : ToolCall} (harmless : Harmless cs) :
    readingAt ('{' :: cs) ≠ .call call rest := by
  intro reading
  rw [readingAt] at reading
  split at reading
  · next v after read =>
    obtain ⟨fields, rfl⟩ := obj_of_readValue_brace read
    split at reading
    · next made => exact (harmless _ _ _ read).ofJson_ne_ok _ made
    · contradiction
  · contradiction
  · contradiction

theorem embeddedFrom_eq_nil (offset : Nat) {cs : List Char} (none : NoCallObject cs) :
    embeddedFrom offset cs = [] := by
  induction cs generalizing offset with
  | nil => rw [embeddedFrom]
  | cons c cs ih =>
    rw [embeddedFrom]
    split
    · next brace =>
      obtain rfl : c = '{' := by simpa using brace
      split
      · next call rest reading =>
        exact absurd reading (none cs (List.suffix_refl _)).readingAt_ne_call
      · exact ih _ none.of_cons
      · rfl
    · exact ih _ none.of_cons

/-- A marked line makes no call if its object stands in a text where none does. -/
theorem readingOfLine_ne_call {line cs rest : List Char} {call : ToolCall} (none : NoCallObject cs)
    (part : line <:+: cs) : readingOfLine line ≠ .call call rest := by
  intro reading
  rw [readingOfLine] at reading
  split at reading
  · next fields read =>
    obtain ⟨rest, first, -⟩ := readChars?_cases read
    obtain ⟨gap, split, -⟩ := exists_gap line
    obtain ⟨body, shape, -, -⟩ := readValue_object_text (Nat.le_refl _) first
    obtain ⟨before, after, whole⟩ := part
    rw [shape] at first split
    have first : readValue (979 + 1) ('{' :: (body ++ '}' :: rest)) = .ok (.obj fields, rest) := first
    obtain ⟨body', same, -, again⟩ := object_local readValue_local first
    obtain rfl : body = body' := List.append_cancel_right same
    have suffix : '{' :: (body ++ '}' :: (rest ++ after)) <:+ cs :=
      ⟨before ++ gap, by rw [← whole, split]; simp⟩
    have foreign := none _ suffix _ _ _ (again (979 + 1) (rest ++ after) (Nat.le_refl _))
    rw [foreign.direct?_eq_none (by simp [callKeys])] at reading
    contradiction
  · contradiction
  · contradiction
  · contradiction

theorem marksFrom_eq_nil {cs : List Char} (none : NoCallObject cs) (offset : Nat)
    {runs : List (List Char × List Char)} (parts : ∀ run ∈ runs, run.1 ++ run.2 <:+: cs) :
    marksFrom offset runs = [] := by
  induction runs generalizing offset with
  | nil => rw [marksFrom]
  | cons run runs ih =>
    obtain ⟨part, parts⟩ := List.forall_mem_cons.mp parts
    rw [marksFrom]
    split
    · exact ih _ parts
    · next rest marked =>
      split
      · next call after reading =>
        refine absurd reading (readingOfLine_ne_call none ?_)
        rw [dropStart?_eq_some marked] at part
        exact (List.suffix_append _ _).isInfix.trans part
      · exact ih _ parts
      · rfl

/-- Where no object makes a call, none is found anywhere or on a marked line. -/
theorem extract_eq_nil_of_noCallObject {cs : List Char} (none : NoCallObject cs) :
    extractEmbedded cs = [] ∧ extractMarked cs = [] :=
  ⟨embeddedFrom_eq_nil 0 none, marksFrom_eq_nil none 0 fun _ mem => infix_of_mem_lineRunsFrom mem⟩

end JsonCall
end CodeAgent
