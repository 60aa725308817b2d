import CodeAgent.Proofs.Json.Canonical
import CodeAgent.Proofs.Text.Search
import CodeAgent.Text.Line

/-! What stands in the one-line text of a value: plain ASCII that makes up its structure, and the escaped
characters of the strings in it. An angle bracket is always one of the latter. -/
namespace CodeAgent.Json
open CodeAgent.Decimal CodeAgent.Text

mutual

/-- The strings in a value: keys and texts. -/
def strings : Json → List String
  | .str s => [s]
  | .arr items => stringsOfItems items
  | .obj fields => stringsOfFields fields
  | _ => []

/-- The strings in the elements of an array. -/
def stringsOfItems : List Json → List String
  | [] => []
  | v :: vs => strings v ++ stringsOfItems vs

/-- The strings in the members of an object. -/
def stringsOfFields : List (String × Json) → List String
  | [] => []
  | (k, v) :: fs => k :: (strings v ++ stringsOfFields fs)

end

/-- A character that can be seen on a line of ASCII, or a space. -/
def isPrintable (c : Char) : Bool := 32 ≤ c.toNat && c.toNat < 127

/-- A character that the structure of a text consists of. -/
def isFrameChar (c : Char) : Bool := isPrintable c && c != '<'

/-! ### One string -/

/-- The characters of a string as they stand between its quotes. -/
def escaped (s : String) : List Char := s.toList.flatMap (escapeChar true)

theorem stringText_append (s : String) (rest : List Char) :
    stringText true s ++ rest = '"' :: (escaped s ++ '"' :: rest) := by
  simp [stringText, escaped]

/-- An escape is a backslash with a code after it. -/
def IsEscape (cs : List Char) : Prop := ∃ code, cs = '\\' :: code ∧ ∀ c ∈ code, isFrameChar c = true

theorem isEscape_letter {c : Char} (frame : isFrameChar c = true) : IsEscape ['\\', c] :=
  ⟨[c], rfl, fun _ hd => List.mem_singleton.mp hd ▸ frame⟩

theorem isFrameChar_hexDigit {n : Nat} (small : n < 16) : isFrameChar (hexDigit n) = true :=
  (by decide : ∀ d < 16, isFrameChar (hexDigit d) = true) n small

theorem isEscape_unitEscape {n : Nat} (small : n < 0x10000) : IsEscape (unitEscape n) := by
  refine ⟨_, rfl, fun c hc => ?_⟩
  rw [hexPadded_four small] at hc
  simp only [List.mem_cons, List.not_mem_nil, or_false] at hc
  obtain rfl | rfl | rfl | rfl | rfl := hc
  · decide
  all_goals exact isFrameChar_hexDigit (by omega)

theorem IsEscape.append {cs ds : List Char} (first : IsEscape cs) (second : IsEscape ds) :
    IsEscape (cs ++ ds) := by
  obtain ⟨code, rfl, frame⟩ := first
  obtain ⟨code', rfl, frame'⟩ := second
  refine ⟨code ++ '\\' :: code', rfl, fun c hc => ?_⟩
  rw [List.mem_append, List.mem_cons] at hc
  obtain hc | rfl | hc := hc
  · exact frame c hc
  · decide
  · exact frame' c hc

/-- A character of a string stands for itself or is escaped. -/
theorem escapeChar_cases (c : Char) :
    escapeChar true c = [c] ∧ isPrintable c = true ∧ c ≠ '\\' ∨ IsEscape (escapeChar true c) := by
  fun_cases escapeChar true c with
  | case1 | case2 | case3 | case4 | case5 | case6 | case7 => exact .inr (isEscape_letter (by decide))
  | case8 _ _ _ _ _ _ _ control => exact .inr (isEscape_unitEscape (by omega))
  | case9 _ mark _ _ _ _ _ seen ascii =>
    have bound : c.toNat < 127 := by simpa using ascii
    refine .inl ⟨rfl, ?_, by simpa using mark⟩
    rw [isPrintable, decide_eq_true (Nat.not_lt.mp seen), decide_eq_true bound]
    rfl
  | case10 _ _ _ _ _ _ _ _ _ small => exact .inr (isEscape_unitEscape small)
  | case11 _ _ _ _ _ _ _ _ _ large m =>
    have valid : c.toNat < 0x110000 := by
      have valid : c.toNat.isValidChar := c.valid
      simp only [Nat.isValidChar] at valid
      omega
    exact .inr ((isEscape_unitEscape (by omega)).append (isEscape_unitEscape (by omega)))

theorem escaped_printable (s : String) : ∀ c ∈ escaped s, isPrintable c = true := by
  intro c hc
  obtain ⟨d, -, hd⟩ := List.mem_flatMap.mp hc
  obtain ⟨same, printable, -⟩ | ⟨code, same, frame⟩ := escapeChar_cases d
  · rw [same] at hd
    exact List.mem_singleton.mp hd ▸ printable
  · rw [same, List.mem_cons] at hd
    obtain rfl | hd := hd
    · decide
    · have shown := frame c hd
      rw [isFrameChar, Bool.and_eq_true] at shown
      exact shown.1

/-- An angle bracket in an escaped string is one of the string. -/
theorem bracket_of_escaped {cs more : List Char} (tail : '<' :: more <:+ cs.flatMap (escapeChar true)) :
    ∃ after, '<' :: after <:+ cs ∧ more = after.flatMap (escapeChar true) := by
  induction cs with
  | nil => exact absurd (List.suffix_nil.mp tail) (List.cons_ne_nil _ _)
  | cons c cs ih =>
    have later (tail : '<' :: more <:+ cs.flatMap (escapeChar true)) :
        ∃ after, '<' :: after <:+ c :: cs ∧ more = after.flatMap (escapeChar true) := by
      obtain ⟨after, suffix, rfl⟩ := ih tail
      exact ⟨after, suffix.trans (List.suffix_cons c cs), rfl⟩
    rw [List.flatMap_cons] at tail
    obtain ⟨same, -, -⟩ | ⟨code, same, frame⟩ := escapeChar_cases c
    · rw [same, List.singleton_append, List.suffix_cons_iff] at tail
      obtain here | tail := tail
      · obtain ⟨rfl, rfl⟩ := List.cons.inj here
        exact ⟨cs, List.suffix_refl _, rfl⟩
      · exact later tail
    · refine later (suffix_append_of_notMem ?_ tail)
      rw [same, List.mem_cons, not_or]
      exact ⟨by decide, fun mem => absurd (frame _ mem) (by decide)⟩

/-- A word without backslashes that an escaped text starts with starts the text. -/
theorem prefix_of_escaped {word cs : List Char} (plain : '\\' ∉ word)
    (start : word <+: cs.flatMap (escapeChar true)) : word <+: cs := by
  induction cs generalizing word with
  | nil => exact start
  | cons c cs ih =>
    cases word with
    | nil => exact List.nil_prefix
    | cons w word =>
      rw [List.mem_cons, not_or] at plain
      rw [List.flatMap_cons] at start
      obtain ⟨same, -, -⟩ | ⟨code, same, -⟩ := escapeChar_cases c
      · rw [same, List.singleton_append, List.cons_prefix_cons] at start
        obtain ⟨rfl, start⟩ := start
        exact List.cons_prefix_cons.mpr ⟨rfl, ih plain.2 start⟩
      · rw [same, List.cons_append, List.cons_prefix_cons] at start
        exact absurd start.1.symm plain.1

/-- A word without quotes at the start of a text stands before its first quote. -/
theorem prefix_of_unquoted {word cs rest : List Char} (unquoted : '"' ∉ word)
    (start : word <+: cs ++ '"' :: rest) : word <+: cs := by
  obtain ⟨more, whole⟩ := start
  obtain ⟨gap, split, -⟩ | ⟨gap, split, after⟩ := List.append_eq_append_iff.mp whole
  · exact ⟨gap, split.symm⟩
  · cases gap with
    | nil => simp [split]
    | cons c gap =>
      obtain rfl := (List.cons.inj after).1
      simp [split] at unquoted

/-! ### The text of a value -/

/-- A tail of a text that starts inside one of some strings and goes on to its closing quote. -/
def StartsInside (texts : List String) (tail : List Char) : Prop :=
  ∃ s ∈ texts, ∃ inside after, inside <:+ escaped s ∧ inside ≠ [] ∧ tail = inside ++ '"' :: after

theorem StartsInside.mono {texts more : List String} {tail : List Char} (inside : StartsInside texts tail)
    (sub : ∀ s ∈ texts, s ∈ more) : StartsInside more tail := by
  obtain ⟨s, mem, part⟩ := inside
  exact ⟨s, sub s mem, part⟩

/-- What may start at a character of a text: structure, a part of one of some strings, or a part of the text
after it. -/
def Placed (texts : List String) (rest : List Char) (c : Char) (more : List Char) : Prop :=
  isFrameChar c = true ∨ StartsInside texts (c :: more) ∨ c :: more <:+ rest

/-- A text in which every character has its place. -/
def Laid (texts : List String) (cs rest : List Char) : Prop :=
  ∀ ⦃c more⦄, c :: more <:+ cs → Placed texts rest c more

namespace Laid
variable {texts others : List String} {cs ds rest : List Char}

theorem refl (texts : List String) (rest : List Char) : Laid texts rest rest :=
  fun _ _ tail => .inr (.inr tail)

theorem trans (first : Laid texts cs ds) (second : Laid others ds rest) : Laid (texts ++ others) cs rest := by
  intro c more tail
  obtain frame | inside | tail := first tail
  · exact .inl frame
  · exact .inr (.inl (inside.mono fun _ mem => List.mem_append_left _ mem))
  · obtain frame | inside | tail := second tail
    · exact .inl frame
    · exact .inr (.inl (inside.mono fun _ mem => List.mem_append_right _ mem))
    · exact .inr (.inr tail)

theorem cons {c : Char} (frame : isFrameChar c = true) (laid : Laid texts cs rest) : Laid texts (c :: cs) rest := by
  intro d more tail
  obtain same | tail := List.suffix_cons_iff.mp tail
  · obtain ⟨rfl, rfl⟩ := List.cons.inj same
    exact .inl frame
  · exact laid tail

theorem append {pre : List Char} (frame : ∀ c ∈ pre, isFrameChar c = true) (laid : Laid texts cs rest) :
    Laid texts (pre ++ cs) rest := by
  induction pre with
  | nil => exact laid
  | cons c pre ih =>
    obtain ⟨first, frame⟩ := List.forall_mem_cons.mp frame
    exact .cons first (ih frame)

/-- A string lays out its own characters. -/
theorem string (s : String) (rest : List Char) : Laid [s] (stringText true s ++ rest) rest := by
  rw [stringText_append]
  refine .cons (by decide) fun c more tail => ?_
  obtain ⟨pre, whole⟩ := tail
  obtain ⟨gap, -, after⟩ | ⟨inside, part, after⟩ := List.append_eq_append_iff.mp whole.symm
  · have tail : c :: more <:+ '"' :: rest := ⟨gap, after.symm⟩
    exact (Laid.refl [s] rest).cons (by decide) tail
  · cases inside with
    | nil =>
      obtain rfl := (List.cons.inj after).1
      exact .inl (by decide)
    | cons d inside =>
      exact .inr (.inl ⟨s, List.mem_singleton_self s, _, rest, ⟨pre, part.symm⟩, List.cons_ne_nil d inside, after⟩)

end Laid

theorem isFrameChar_of_digit {c : Char} (digit : IsAsciiDigit c) : isFrameChar c = true := by
  obtain ⟨d, small, rfl⟩ := digit
  exact (by decide : ∀ d < 10, isFrameChar (digitChar d) = true) d small

/-- A word or a numeral is structure. -/
theorem token_frame (style : Style) {v : Json} (token : isToken v = true) (level : Nat) :
    ∀ c ∈ render style level v, isFrameChar c = true := by
  have word {cs : List Char} (all : cs.all isFrameChar = true) : ∀ c ∈ cs, isFrameChar c = true :=
    List.all_eq_true.mp all
  cases v with
  | null =>
    rw [render]
    exact word (by decide)
  | bool b => cases b <;> rw [render] <;> exact word (by decide)
  | int n =>
    intro c hc
    rw [render] at hc
    obtain digit | rfl := intDigits_chars n c hc
    · exact isFrameChar_of_digit digit
    · decide
  | float x =>
    rw [render]
    obtain shown | ⟨sign, magnitude, shown, signs, form⟩ := floatFormat.text_form x
    · rw [shown]
      exact word (by decide)
    · intro c hc
      rw [shown, List.mem_append] at hc
      obtain hc | hc := hc
      · obtain rfl | rfl := signs
        · contradiction
        · obtain rfl := List.mem_singleton.mp hc
          decide
      · obtain rfl | ⟨-, numeral, -⟩ := form
        · exact word (by decide) c hc
        · obtain digit | sign := numeral c hc
          · exact isFrameChar_of_digit digit
          · exact word (by decide) c sign
  | str | arr | obj => contradiction

private theorem laid_token {v : Json} (token : isToken v = true) (level : Nat) (rest : List Char) :
    Laid (strings v) (render .line level v ++ rest) rest :=
  (Laid.refl _ rest).append (token_frame .line token level)

private theorem afterItem_frame : ∀ c ∈ Style.line.afterItem, isFrameChar c = true :=
  List.all_eq_true.mp rfl

private theorem afterKey_frame : ∀ c ∈ Style.line.afterKey, isFrameChar c = true :=
  List.all_eq_true.mp rfl

theorem straight_line : Style.line.Straight := straight_canonical

/-- A member lays out its key and its value. -/
private theorem laid_member (k : String) {v : Json} {level : Nat} {texts : List String} {tail rest : List Char}
    (value : Laid (strings v) (render .line level v ++ tail) tail) (after : Laid texts tail rest) :
    Laid (k :: (strings v ++ texts)) (memberText .line level k v tail) rest :=
  (Laid.string k _).trans ((value.trans after).append afterKey_frame)

mutual

/-- In the text of a value every character is structure, or stands inside a string of the value. -/
theorem laid_render : ∀ (v : Json) (level : Nat) (rest : List Char),
    Laid (strings v) (render .line level v ++ rest) rest
  | .null, level, rest | .bool _, level, rest | .int _, level, rest | .float _, level, rest =>
    laid_token rfl level rest
  | .str s, level, rest => by
    rw [render, strings]
    exact .string s rest
  | .arr [], level, rest => by
    rw [render_arr_nil]
    exact (Laid.refl _ rest).append (List.all_eq_true.mp rfl)
  | .arr (v :: vs), level, rest => by
    rw [render_arr_cons straight_line, strings, stringsOfItems]
    exact .cons (by decide) ((laid_render v (level + 1) _).trans (laid_itemsTail vs (level + 1) rest))
  | .obj [], level, rest => by
    rw [render_obj_nil]
    exact (Laid.refl _ rest).append (List.all_eq_true.mp rfl)
  | .obj ((k, v) :: fs), level, rest => by
    rw [render_obj_cons straight_line, strings, stringsOfFields]
    exact .cons (by decide)
      (laid_member k (laid_render v (level + 1) _) (laid_fieldsTail fs (level + 1) rest))

theorem laid_itemsTail : ∀ (vs : List Json) (level : Nat) (rest : List Char),
    Laid (stringsOfItems vs) (itemsTail .line level vs rest) rest
  | [], level, rest => (Laid.refl _ rest).cons (by decide)
  | v :: vs, level, rest => by
    rw [itemsTail, stringsOfItems]
    exact ((laid_render v level _).trans (laid_itemsTail vs level rest)).append afterItem_frame

theorem laid_fieldsTail : ∀ (fs : List (String × Json)) (level : Nat) (rest : List Char),
    Laid (stringsOfFields fs) (fieldsTail .line level fs rest) rest
  | [], level, rest => (Laid.refl _ rest).cons (by decide)
  | (k, v) :: fs, level, rest => by
    rw [fieldsTail, stringsOfFields]
    exact (laid_member k (laid_render v level _) (laid_fieldsTail fs level rest)).append afterItem_frame

end

/-- The text of a value is one line of ASCII. -/
theorem render_printable (v : Json) (level : Nat) : ∀ c ∈ render .line level v, isPrintable c = true := by
  intro c hc
  obtain ⟨pre, more, split⟩ := List.append_of_mem hc
  have tail : c :: more <:+ render .line level v ++ [] := by
    rw [List.append_nil]
    exact ⟨pre, split.symm⟩
  obtain frame | ⟨s, -, inside, after, part, filled, shape⟩ | nothing := laid_render v level [] tail
  · rw [isFrameChar, Bool.and_eq_true] at frame
    exact frame.1
  · obtain ⟨d, inside, rfl⟩ := List.exists_cons_of_ne_nil filled
    obtain rfl := (List.cons.inj shape).1
    exact escaped_printable s c (part.subset List.mem_cons_self)
  · exact absurd (List.suffix_nil.mp nothing) (List.cons_ne_nil _ _)

/-- A tag that stands in the text of a value, at least its bracket and the word after it, stands in a string
of the value. -/
theorem exists_string_of_bracket {v : Json} {level : Nat} {word more : List Char} (plain : '\\' ∉ word)
    (unquoted : '"' ∉ word) (tail : '<' :: more <:+ render .line level v) (start : word <+: more) :
    ∃ s ∈ strings v, '<' :: word <:+: s.toList := by
  have tail' : '<' :: more <:+ render .line level v ++ [] := by rwa [List.append_nil]
  obtain frame | ⟨s, mem, inside, after, part, filled, shape⟩ | nothing := laid_render v level [] tail'
  · exact absurd frame (by decide)
  · obtain ⟨d, inside, rfl⟩ := List.exists_cons_of_ne_nil filled
    obtain ⟨rfl, rfl⟩ := List.cons.inj shape
    obtain ⟨cs, suffix, rfl⟩ := bracket_of_escaped part
    have within : word <+: cs := prefix_of_escaped plain (prefix_of_unquoted unquoted start)
    exact ⟨s, mem, (List.cons_prefix_cons.mpr ⟨rfl, within⟩).isInfix.trans suffix.isInfix⟩
  · exact absurd (List.suffix_nil.mp nothing) (List.cons_ne_nil _ _)

end CodeAgent.Json
