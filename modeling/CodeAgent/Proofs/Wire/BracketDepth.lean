import CodeAgent.Proofs.Json.Strings
import CodeAgent.Proofs.Wire.StreamParts

/-! The depth that the reader of a stream of values keeps, between any two calls and whatever the calls answered: it
counts the brackets that are open in the text of the value, those in strings apart. The flags say how that text goes
on, so that each character can be counted when it comes. -/
namespace CodeAgent.Wire
open CodeAgent.Text

/-! ### Text without its strings -/

mutual

/-- What stands in a text outside its strings. A string that is not closed goes on to the end. -/
def outsideStrings : List Char → List Char
  | [] => []
  | c :: cs => if c = '"' then afterQuote cs else c :: outsideStrings cs

/-- What stands outside strings in a text that goes on inside one. -/
def afterQuote : List Char → List Char
  | [] => []
  | c :: cs => if c = '\\' then afterEscape cs else if c = '"' then outsideStrings cs else afterQuote cs

/-- What stands outside strings in a text that goes on with an escaped character. -/
def afterEscape : List Char → List Char
  | [] => []
  | _ :: cs => afterQuote cs

end

theorem outsideStrings_quote (more : List Char) : outsideStrings ('"' :: more) = afterQuote more := if_pos rfl

theorem outsideStrings_cons {c : Char} (quote : c ≠ '"') (more : List Char) :
    outsideStrings (c :: more) = c :: outsideStrings more := if_neg quote

theorem afterQuote_mark (more : List Char) : afterQuote ('\\' :: more) = afterEscape more := if_pos rfl

theorem afterQuote_quote (more : List Char) : afterQuote ('"' :: more) = outsideStrings more := by
  rw [afterQuote, if_neg (by decide), if_pos rfl]

theorem afterQuote_cons {c : Char} (mark : c ≠ '\\') (quote : c ≠ '"') (more : List Char) :
    afterQuote (c :: more) = afterQuote more := by
  rw [afterQuote, if_neg mark, if_neg quote]

/-- A string that is closed is left out as a whole. -/
theorem afterQuote_append {string : List Char} (closed : Json.StringRest string) (more : List Char) :
    afterQuote (string ++ more) = outsideStrings more := by
  induction closed with
  | close => exact afterQuote_quote more
  | escape c _ ih => exact (afterQuote_mark _).trans ih
  | plain quote mark _ ih => exact (afterQuote_cons mark quote _).trans ih

/-- A bracket, an escaped quote and an escaped mark do not end a string. -/
example : outsideStrings "[\"]\\\"\x7b\\\\\", 1\x7d".toList = "[, 1\x7d".toList := by decide +kernel

/-- What stands outside strings in a text that goes on in a string or not, with an escaped character or not. -/
def onward (inString escaped : Bool) (more : List Char) : List Char :=
  if escaped then afterEscape more else if inString then afterQuote more else outsideStrings more

theorem onward_nil (inString escaped : Bool) : onward inString escaped [] = [] := by
  cases escaped <;> cases inString <;> rfl

namespace Scan

theorem of_opens {c : Char} (bracket : opens c = true) : c ≠ '"' ∧ closes c = false := by
  obtain rfl | rfl : c = '{' ∨ c = '[' := by simpa [opens] using bracket
  · decide
  · decide

/-- The text of the value that is open. -/
def text (s : Scan) : List Char := s.value.reverse

/-- A character inside a value completes it, as its last bracket, or is kept. -/
theorem inside_cases {s : Scan} (within : 0 < s.depth) (c : Char) :
    (s.inString = false ∧ c ≠ '"' ∧ opens c = false ∧ closes c = true ∧ s.depth = 1 ∧
        s.inside c = (s.reset, some (s.text ++ [c]))) ∨
      ((s.inside c).2 = none ∧ (s.inside c).1.value = c :: s.value ∧ 0 < (s.inside c).1.depth) := by
  unfold inside
  dsimp only
  by_cases quoted : s.inString = true
  · rw [if_pos quoted]
    unfold insideString
    right
    split_ifs <;> exact ⟨rfl, rfl, within⟩
  · rw [if_neg quoted]
    split_ifs with quote bracket bracket' last
    · exact .inr ⟨rfl, rfl, within⟩
    · exact .inr ⟨rfl, rfl, Nat.succ_pos _⟩
    · refine .inl ⟨by simpa using quoted, by simpa using quote, by simpa using bracket, bracket', last, ?_⟩
      rw [List.reverse_cons, text]
      rfl
    · exact .inr ⟨rfl, rfl, by dsimp only; omega⟩
    · exact .inr ⟨rfl, rfl, within⟩

/-! ### The invariant -/

/-- A scan counts the brackets of the value that is open. The last part says that its flags fit the text so far. -/
structure Counts (s : Scan) : Prop where
  depth_eq_zero_iff : s.depth = 0 ↔ s.value = []
  inString_of_escaped : s.escaped = true → s.inString = true
  not_inString : s.depth = 0 → s.inString = false
  opened : ∀ c ∈ s.text.head?, opens c = true
  depth_eq : s.depth + (outsideStrings s.text).countP closes = (outsideStrings s.text).countP opens
  goes_on : ∀ more, outsideStrings (s.text ++ more) = outsideStrings s.text ++ onward s.inString s.escaped more

namespace Counts
variable {s : Scan}

theorem not_escaped (counts : s.Counts) (outside : s.inString = false) : s.escaped = false := by
  cases escaped : s.escaped with
  | false => rfl
  | true =>
    rw [counts.inString_of_escaped escaped] at outside
    contradiction

/-- The outermost array and the bytes of a character do not matter. -/
theorem of_same (counts : s.Counts) (p : Utf8.Pending) (arrayOpen : Bool) :
    { s with pending := p, arrayOpen }.Counts :=
  ⟨counts.depth_eq_zero_iff, counts.inString_of_escaped, counts.not_inString, counts.opened, counts.depth_eq,
    counts.goes_on⟩

theorem reset (s : Scan) : s.reset.Counts where
  depth_eq_zero_iff := ⟨fun _ => rfl, fun _ => rfl⟩
  inString_of_escaped := nofun
  not_inString := fun _ => rfl
  opened := nofun
  depth_eq := rfl
  goes_on := fun _ => rfl

/-- The bracket that a value starts with. -/
theorem start (counts : s.Counts) (closed : s.depth = 0) {c : Char} (bracket : opens c = true) :
    { s with value := [c], depth := 1, seenValue := true }.Counts := by
  have outside := counts.not_inString closed
  obtain ⟨quote, other⟩ := of_opens bracket
  have text_eq : outsideStrings [c] = [c] := outsideStrings_cons quote []
  refine ⟨⟨nofun, nofun⟩, counts.inString_of_escaped, nofun, ?_, ?_, fun more => ?_⟩
  · rintro d ⟨⟩
    exact bracket
  · change 1 + (outsideStrings [c]).countP closes = (outsideStrings [c]).countP opens
    rw [text_eq]
    simp [bracket, other]
  · change outsideStrings (c :: more) = outsideStrings [c] ++ onward s.inString s.escaped more
    rw [text_eq, outsideStrings_cons quote, outside, counts.not_escaped outside]
    rfl

/-- The next character of a value, in one step for all its kinds: the flags after it tell as before what stands
outside strings, and the depth changes as the character counts. -/
theorem push (counts : s.Counts) {t : Scan} {c : Char} (value_eq : t.value = c :: s.value) (within : 0 < s.depth)
    (still : 0 < t.depth) (flags : t.escaped = true → t.inString = true)
    (onward_eq : ∀ more, onward s.inString s.escaped (c :: more) =
      onward s.inString s.escaped [c] ++ onward t.inString t.escaped more)
    (depth_eq : t.depth + (onward s.inString s.escaped [c]).countP closes =
      s.depth + (onward s.inString s.escaped [c]).countP opens) : t.Counts := by
  have text_eq : t.text = s.text ++ [c] := by rw [text, value_eq, List.reverse_cons, text]
  have outside_eq : outsideStrings t.text = outsideStrings s.text ++ onward s.inString s.escaped [c] := by
    rw [text_eq, counts.goes_on]
  have filled : s.text ≠ [] := fun empty =>
    absurd (counts.depth_eq_zero_iff.mpr (List.reverse_eq_nil_iff.mp empty)) (Nat.ne_of_gt within)
  refine ⟨⟨fun closed => absurd closed (Nat.ne_of_gt still), fun empty => ?_⟩, flags,
    fun closed => absurd closed (Nat.ne_of_gt still), ?_, ?_, fun more => ?_⟩
  · rw [value_eq] at empty
    contradiction
  · obtain ⟨first, more, start⟩ := List.exists_cons_of_ne_nil filled
    have opened := counts.opened
    rw [start] at opened
    rw [text_eq, start]
    exact opened
  · have before := counts.depth_eq
    rw [outside_eq, List.countP_append, List.countP_append]
    omega
  · rw [outside_eq, text_eq, List.append_assoc, List.append_assoc, ← onward_eq]
    exact counts.goes_on (c :: more)

/-- A character of a string, or a quote, does not count. -/
theorem push_uncounted (counts : s.Counts) {t : Scan} {c : Char} (value_eq : t.value = c :: s.value)
    (within : 0 < s.depth) (still : t.depth = s.depth) (flags : t.escaped = true → t.inString = true)
    (onward_eq : ∀ more, onward s.inString s.escaped (c :: more) = onward t.inString t.escaped more) : t.Counts := by
  have none : onward s.inString s.escaped [c] = [] := (onward_eq []).trans (onward_nil _ _)
  refine counts.push value_eq within (still ▸ within) flags (fun more => ?_) ?_
  · rw [none, List.nil_append, onward_eq]
  · rw [none, still]
    rfl

/-- Outside strings a bracket counts. -/
theorem push_counted (counts : s.Counts) {t : Scan} {c : Char} (value_eq : t.value = c :: s.value)
    (within : 0 < s.depth) (still : 0 < t.depth) (outside : s.inString = false) (kept : t.inString = s.inString)
    (kept' : t.escaped = s.escaped) (quote : c ≠ '"')
    (depth_eq : t.depth + [c].countP closes = s.depth + [c].countP opens) : t.Counts := by
  have unescaped := counts.not_escaped outside
  have one (more : List Char) : onward s.inString s.escaped (c :: more) = c :: outsideStrings more := by
    rw [outside, unescaped]
    exact outsideStrings_cons quote more
  refine counts.push value_eq within still (fun escaped => ?_) (fun more => ?_) ?_
  · rw [kept', unescaped] at escaped
    contradiction
  · rw [one, one, kept, kept', outside, unescaped]
    rfl
  · rw [one]
    exact depth_eq

theorem between (counts : s.Counts) (closed : s.depth = 0) (c : Char) : (s.between c).Counts := by
  unfold Scan.between
  split_ifs with array array' bracket
  · exact counts.of_same s.pending true
  · exact counts.of_same s.pending false
  · exact counts.start closed bracket
  · exact counts

theorem insideString (counts : s.Counts) (within : 0 < s.depth) (quoted : s.inString = true) (c : Char) :
    ({ s with value := c :: s.value }.insideString c).Counts := by
  unfold Scan.insideString
  by_cases escaped : s.escaped = true
  · rw [if_pos escaped]
    refine counts.push_uncounted rfl within rfl nofun fun more => ?_
    rw [escaped, quoted]
    rfl
  · have unescaped : s.escaped = false := by simpa using escaped
    rw [if_neg escaped]
    split_ifs with mark quote
    · obtain rfl := eq_of_beq mark
      refine counts.push_uncounted rfl within rfl (fun _ => quoted) fun more => ?_
      rw [unescaped, quoted]
      exact afterQuote_mark more
    · obtain rfl := eq_of_beq quote
      refine counts.push_uncounted rfl within rfl (fun still => absurd still escaped) fun more => ?_
      rw [unescaped, quoted]
      exact afterQuote_quote more
    · refine counts.push_uncounted rfl within rfl (fun _ => quoted) fun more => ?_
      rw [unescaped, quoted]
      exact afterQuote_cons (by simpa using mark) (by simpa using quote) more

theorem inside (counts : s.Counts) (within : 0 < s.depth) (c : Char) : (s.inside c).1.Counts := by
  unfold Scan.inside
  dsimp only
  by_cases quoted : s.inString = true
  · rw [if_pos quoted]
    exact counts.insideString within quoted c
  · have outside : s.inString = false := by simpa using quoted
    rw [if_neg quoted]
    split_ifs with quote bracket bracket' last
    · obtain rfl := eq_of_beq quote
      refine counts.push_uncounted rfl within rfl (fun _ => rfl) fun more => ?_
      rw [outside, counts.not_escaped outside]
      exact outsideStrings_quote more
    · refine counts.push_counted rfl within (Nat.succ_pos _) outside rfl rfl (by simpa using quote) ?_
      simp [bracket, (of_opens bracket).2]
    · exact .reset _
    · refine counts.push_counted rfl within (by dsimp only; omega) outside rfl rfl (by simpa using quote) ?_
      simp [bracket, bracket']
      omega
    · exact counts.push_counted rfl within within outside rfl rfl (by simpa using quote) (by simp [bracket, bracket'])

theorem step (counts : s.Counts) (c : Char) : (s.step c).1.Counts := by
  unfold Scan.step
  split_ifs with closed
  · exact counts.between closed c
  · exact counts.inside (Nat.pos_of_ne_zero closed) c

/-- Also where a value breaks the run off. -/
theorem run (counts : s.Counts) (read : TextReader) (cs : List Char) : (s.run read cs).1.Counts := by
  induction cs generalizing s with
  | nil => exact counts
  | cons c cs ih =>
    have next := counts.step c
    rw [Scan.run]
    generalize s.step c = made at next
    obtain ⟨t, value⟩ := made
    cases value with
    | none => exact ih next
    | some value =>
      dsimp only
      cases read value with
      | error e => exact next
      | ok texts => exact ih next

theorem feed (counts : s.Counts) (read : TextReader) (chunk : Bytes) : (s.feed read chunk).1.Counts :=
  (counts.of_same _ s.arrayOpen).run read _

/-- A value is complete as soon as its brackets are balanced. Until then its characters are kept. -/
theorem step_inside (counts : s.Counts) (within : 0 < s.depth) (c : Char) :
    let outside := outsideStrings (s.text ++ [c])
    if outside.countP opens = outside.countP closes then s.step c = (s.reset, some (s.text ++ [c]))
    else (s.step c).2 = none ∧ (s.step c).1.text = s.text ++ [c] := by
  intro outside
  have next := counts.step c
  have step_eq : s.step c = s.inside c := if_neg (Nat.ne_of_gt within)
  rw [step_eq] at next ⊢
  rcases inside_cases within c with ⟨unquoted, quote, other, bracket, last, made⟩ | ⟨none, kept, still⟩
  · have outside_eq : outside = outsideStrings s.text ++ [c] := by
      have one := counts.goes_on [c]
      rw [unquoted, counts.not_escaped unquoted] at one
      exact one.trans (congrArg _ (outsideStrings_cons quote []))
    have balanced : outside.countP opens = outside.countP closes := by
      have balance := counts.depth_eq
      rw [outside_eq, List.countP_append, List.countP_append, List.countP_singleton, List.countP_singleton, other,
        bracket]
      simp only [Bool.false_eq_true, if_true, if_false]
      omega
    rw [if_pos balanced]
    exact made
  · have text_eq : (s.inside c).1.text = s.text ++ [c] := by rw [text, kept, List.reverse_cons, text]
    have unbalanced : outside.countP opens ≠ outside.countP closes := by
      have balance := next.depth_eq
      rw [text_eq] at balance
      change _ + outside.countP closes = outside.countP opens at balance
      omega
    rw [if_neg unbalanced]
    exact ⟨none, text_eq⟩

end Counts

/-! ### The end of the stream -/

/-- The state that the last characters leave, those that the end of the stream completes. -/
def ended (s : Scan) : Scan := { (s.values (Utf8.repair (Utf8.finish s.pending))).2 with pending := .start }

/-- The last characters complete no value: none is read, and so none is refused. -/
theorem run_ended (read : TextReader) (s : Scan) :
    { s with pending := .start }.run read (Utf8.repair (Utf8.finish s.pending)) = (s.ended, .ok []) := by
  have texts : (s.run read (Utf8.repair (Utf8.finish s.pending))).2 = .ok [] := by
    rw [run_texts, (s.values_finish s.pending).1]
    rfl
  rw [run_pending, run_state texts, texts, ended]

theorem finish_of_open (read : TextReader) {s : Scan} (still : 0 < s.ended.depth) :
    s.finish read = (s.ended.reset, .error (.fault (unfinished s.ended.text))) := by
  rw [finish, run_ended]
  exact if_pos still

theorem finish_of_closed (read : TextReader) {s : Scan} (closed : s.ended.depth = 0) :
    s.finish read = (s.ended, .ok []) := by
  rw [finish, run_ended]
  exact if_neg (Nat.not_lt_of_le (Nat.le_of_eq closed))

theorem finish_depth (read : TextReader) (s : Scan) : (s.finish read).1.depth = 0 := by
  rcases Nat.eq_zero_or_pos s.ended.depth with closed | still
  · rwa [finish_of_closed read closed]
  · rw [finish_of_open read still]
    rfl

theorem finish_refuses_iff (read : TextReader) (s : Scan) :
    (∃ f : Fault, (s.finish read).2 = .error (.fault f) ∧ f.kind = .providerResponse) ↔ 0 < s.ended.depth := by
  constructor
  · rintro ⟨f, refused, -⟩
    refine Nat.pos_of_ne_zero fun closed => ?_
    rw [finish_of_closed read closed] at refused
    contradiction
  · intro still
    exact ⟨unfinished s.ended.text, by rw [finish_of_open read still], rfl⟩

namespace Counts
variable {s : Scan}

theorem finish (counts : s.Counts) (read : TextReader) : (s.finish read).1.Counts := by
  have last : s.ended.Counts := by
    have run := (counts.of_same .start s.arrayOpen).run read (Utf8.repair (Utf8.finish s.pending))
    rwa [run_ended] at run
  rcases Nat.eq_zero_or_pos s.ended.depth with closed | still
  · rwa [finish_of_closed read closed]
  · rw [finish_of_open read still]
    exact .reset _

end Counts

/-! ### Runs of calls -/

/-- A call of the reader: some bytes come, or the stream ends. -/
inductive Call where
  | feed (chunk : Bytes)
  | finish

/-- The state after a call, and what the call answers. -/
def answer (read : TextReader) (s : Scan) : Call → Scan × Except Failure (List String)
  | .feed chunk => s.feed read chunk
  | .finish => s.finish read

/-- Where calls lead. One that fails does not stop those after it, nor does the end of the stream. -/
def after (read : TextReader) (calls : List Call) : Scan :=
  calls.foldl (fun s call => (s.answer read call).1) {}

namespace Counts
variable {s : Scan}

theorem answer (counts : s.Counts) (read : TextReader) (call : Call) : (s.answer read call).1.Counts := by
  cases call with
  | feed chunk => exact counts.feed read chunk
  | finish => exact counts.finish read

theorem after (read : TextReader) (calls : List Call) : (after read calls).Counts := by
  have run (s : Scan) (counts : s.Counts) : (calls.foldl (fun s call => (s.answer read call).1) s).Counts := by
    induction calls generalizing s with
    | nil => exact counts
    | cons call calls ih => exact ih _ (counts.answer read call)
  exact run {} (.reset {})

end Counts

/-- After any calls the depth is that of the brackets that are open in the buffered text, and the flags are set in
strings alone. A value is buffered from its first bracket until its brackets are balanced, and the end of the stream is
refused just where it leaves one open. -/
theorem depth_after (read : TextReader) (calls : List Call) :
    let s := after read calls
    ((s.depth : Int) = (outsideStrings s.text).countP opens - (outsideStrings s.text).countP closes) ∧
      (s.depth = 0 ↔ s.text = []) ∧
      (s.depth = 0 → s.inString = false ∧ s.escaped = false) ∧
      (s.escaped = true → s.inString = true) ∧
      (0 < s.depth → ∃ c more, s.text = c :: more ∧ (c = '{' ∨ c = '[')) ∧
      (s.depth = 0 → (s.step '{').1.text = ['{']) ∧
      (0 < s.depth → ∀ c, let outside := outsideStrings (s.text ++ [c])
        if outside.countP opens = outside.countP closes then s.step c = (s.reset, some (s.text ++ [c]))
        else (s.step c).2 = none ∧ (s.step c).1.text = s.text ++ [c]) ∧
      ((∃ f : Fault, (s.finish read).2 = .error (.fault f) ∧ f.kind = .providerResponse) ↔ 0 < s.ended.depth) ∧
      (s.ended.depth = 0 → (s.finish read).2 = .ok []) ∧
      (s.finish read).1.depth = 0 := by
  intro s
  have counts : s.Counts := .after read calls
  have empty_iff : s.depth = 0 ↔ s.text = [] :=
    counts.depth_eq_zero_iff.trans List.reverse_eq_nil_iff.symm
  refine ⟨?_, empty_iff, fun closed => ?_, counts.inString_of_escaped, fun still => ?_,
    fun closed => ?_, fun still c => counts.step_inside still c, finish_refuses_iff read s, fun closed => ?_,
    finish_depth read s⟩
  · have balance := counts.depth_eq
    omega
  · have outside := counts.not_inString closed
    exact ⟨outside, counts.not_escaped outside⟩
  · obtain ⟨c, more, start⟩ := List.exists_cons_of_ne_nil fun empty => Nat.ne_of_gt still (empty_iff.mpr empty)
    have bracket : opens c = true := counts.opened c (by rw [start]; rfl)
    exact ⟨c, more, start, by simpa [opens] using bracket⟩
  · rw [step, if_pos closed]
    rfl
  · rw [finish_of_closed read closed]

end Scan
end CodeAgent.Wire
