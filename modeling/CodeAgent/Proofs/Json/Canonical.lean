import CodeAgent.Proofs.Decimal.NumberText
import CodeAgent.Proofs.Json.Strings
import CodeAgent.Proofs.Json.Rendering

/-! Equal one-line texts are texts of equal values. -/
namespace CodeAgent.Json
open CodeAgent.Decimal

/-- A character of a word or a numeral: no bracket, comma or quote. -/
def isTokenChar (c : Char) : Bool := !(['"', ',', '[', ']', '{', '}'].contains c)

/-- The character that starts a value other than a token. -/
def mark : Json → Option Char
  | .str _ => some '"'
  | .arr _ => some '['
  | .obj _ => some '\x7b'
  | _ => none

/-- A value whose text is a single word or numeral. -/
def isToken (v : Json) : Bool := (mark v).isNone

/-- No token goes on in a text. -/
def TokenEnds (cs : List Char) : Prop := ∀ c ∈ cs.head?, isTokenChar c = false

theorem distinct_floatFormat : floatFormat.Distinct where
  infinity := ⟨'I', "nfinity".toList, rfl, by decide, fun digit => digit.ne (by decide) rfl⟩
  notANumber := ⟨'N', "aN".toList, rfl, by decide, fun digit => digit.ne (by decide) rfl⟩
  different := by decide

theorem isTokenChar_of_digit {c : Char} (digit : IsAsciiDigit c) : isTokenChar c = true := by
  obtain ⟨d, small, rfl⟩ := digit
  exact (by decide : ∀ d < 10, isTokenChar (digitChar d) = true) d small

theorem intDigits_chars (n : Int) : ∀ c ∈ intDigits n, IsAsciiDigit c ∨ c = '-' := by
  cases n with
  | ofNat n => exact fun c hc => .inl (natDigits_ascii n c hc)
  | negSucc n =>
    intro c hc
    rw [intDigits, List.mem_cons] at hc
    obtain rfl | hc := hc
    · exact .inr rfl
    · exact .inl (natDigits_ascii _ c hc)

theorem intDigits_ne_nil (n : Int) : intDigits n ≠ [] := by
  cases n with
  | ofNat n => exact natDigits_ne_nil n
  | negSucc n => exact List.cons_ne_nil _ _

theorem floatText_head (x : Float) : ∃ c cs, (floatFormat.text x).toList = c :: cs ∧
    (IsAsciiDigit c ∨ c ∈ ['-', 'I', 'N']) := by
  obtain shown | ⟨sign, magnitude, shown, rfl | rfl, form⟩ := floatFormat.text_form x
  · exact ⟨'N', _, shown, .inr (by decide)⟩
  · obtain rfl | ⟨⟨c, cs, rfl, digit⟩, -⟩ := form
    · exact ⟨'I', _, shown, .inr (by decide)⟩
    · exact ⟨c, cs, shown, .inl digit⟩
  · exact ⟨'-', _, shown, .inr (by decide)⟩

theorem floatText_chars (x : Float) : ∀ c ∈ (floatFormat.text x).toList, isTokenChar c = true := by
  have no_number := List.all_eq_true.mp (by decide : floatFormat.notANumber.toList.all isTokenChar = true)
  have infinity := List.all_eq_true.mp (by decide : floatFormat.infinity.toList.all isTokenChar = true)
  have marks := List.all_eq_true.mp (by decide : ['.', 'e', '-', '+'].all isTokenChar = true)
  intro c hc
  obtain shown | ⟨sign, magnitude, shown, signs, form⟩ := floatFormat.text_form x
  · exact no_number c (shown ▸ hc)
  · rw [shown, List.mem_append] at hc
    obtain hc | hc := hc
    · obtain rfl | rfl := signs
      · exact absurd hc List.not_mem_nil
      · exact marks c (by rw [List.mem_singleton.mp hc]; decide)
    · obtain rfl | ⟨-, numeral, -⟩ := form
      · exact infinity c hc
      · exact (numeral c hc).elim isTokenChar_of_digit (marks c)

/-- The text of a floating-point number is not that of an integer. -/
theorem floatText_ne_intDigits (x : Float) (n : Int) : (floatFormat.text x).toList ≠ intDigits n := by
  intro same
  have char (c : Char) (other : ∀ n < 10, digitChar n ≠ c) (no_sign : c ≠ '-') :
      c ∉ (floatFormat.text x).toList := fun hc =>
    (intDigits_chars n c (same ▸ hc)).elim (fun digit => digit.ne other rfl) no_sign
  obtain shown | ⟨sign, magnitude, shown, -, rfl | ⟨-, -, mark⟩⟩ := floatFormat.text_form x
  · exact char 'N' (by decide) (by decide) (by rw [shown]; decide)
  · exact char 'I' (by decide) (by decide) (by rw [shown]; exact List.mem_append_right _ (by decide))
  · obtain mark | mark := mark
    · exact char '.' (by decide) (by decide) (by rw [shown]; exact List.mem_append_right _ mark)
    · exact char 'e' (by decide) (by decide) (by rw [shown]; exact List.mem_append_right _ mark)

theorem token_chars (style : Style) {v : Json} (token : isToken v = true) (level : Nat) :
    render style level v ≠ [] ∧ ∀ c ∈ render style level v, isTokenChar c = true := by
  have literal {cs : List Char} (some : cs ≠ []) (all : cs.all isTokenChar = true) :
      cs ≠ [] ∧ ∀ c ∈ cs, isTokenChar c = true := ⟨some, List.all_eq_true.mp all⟩
  cases v with
  | null =>
    rw [render]
    exact literal (by decide) (by decide)
  | bool b => cases b <;> rw [render] <;> exact literal (by decide) (by decide)
  | int n =>
    rw [render]
    refine ⟨intDigits_ne_nil n, fun c hc => ?_⟩
    obtain digit | rfl := intDigits_chars n c hc
    · exact isTokenChar_of_digit digit
    · decide
  | float x =>
    obtain ⟨c, cs, start, -⟩ := floatText_head x
    rw [render]
    exact ⟨by rw [start]; exact List.cons_ne_nil _ _, floatText_chars x⟩
  | str | arr | obj => contradiction

variable {style : Style}

/-- The first character of a token tells a literal from a number. -/
theorem token_of_head {v : Json} (token : isToken v = true) {level : Nat} {c : Char} {cs : List Char}
    (start : render style level v = c :: cs) :
    (c = 'n' ∧ v = .null) ∨ (c = 't' ∧ v = .bool true) ∨ (c = 'f' ∧ v = .bool false) ∨
      (c ∉ ['n', 't', 'f'] ∧ ((∃ k, v = .int k) ∨ ∃ x, v = .float x)) := by
  have digit_notMem {c : Char} (digit : IsAsciiDigit c) : c ∉ ['n', 't', 'f'] := by
    obtain ⟨d, small, rfl⟩ := digit
    exact (by decide : ∀ d < 10, digitChar d ∉ ['n', 't', 'f']) d small
  cases v with
  | null =>
    rw [render] at start
    exact .inl ⟨(List.cons.inj start).1.symm, rfl⟩
  | bool b =>
    cases b <;> rw [render] at start <;> obtain rfl := (List.cons.inj start).1
    · exact .inr (.inr (.inl ⟨rfl, rfl⟩))
    · exact .inr (.inl ⟨rfl, rfl⟩)
  | int k =>
    rw [render] at start
    refine .inr (.inr (.inr ⟨?_, .inl ⟨k, rfl⟩⟩))
    obtain digit | rfl := intDigits_chars k c (start ▸ List.mem_cons_self)
    · exact digit_notMem digit
    · decide
  | float x =>
    obtain ⟨d, ds, shown, head⟩ := floatText_head x
    rw [render, shown] at start
    obtain rfl := (List.cons.inj start).1
    refine .inr (.inr (.inr ⟨?_, .inr ⟨x, rfl⟩⟩))
    obtain digit | mark := head
    · exact digit_notMem digit
    · simp only [List.mem_cons, List.not_mem_nil, or_false] at mark
      obtain rfl | rfl | rfl := mark <;> decide
  | str | arr | obj => contradiction

/-- Different words and numerals are different values. -/
theorem token_injective {v w : Json} (hv : isToken v = true) (hw : isToken w = true) {m n : Nat}
    (same : render style m v = render style n w) : v = w := by
  obtain ⟨c, cs, start⟩ := List.exists_cons_of_ne_nil (token_chars style hv m).1
  have other := token_of_head hw (same ▸ start)
  obtain ⟨rfl, rfl⟩ | ⟨rfl, rfl⟩ | ⟨rfl, rfl⟩ | ⟨letter, kind⟩ := token_of_head hv start
  · simpa [eq_comm] using other
  · simpa [eq_comm] using other
  · simpa [eq_comm] using other
  · obtain ⟨rfl, -⟩ | ⟨rfl, -⟩ | ⟨rfl, -⟩ | ⟨-, kind'⟩ := other
    · exact absurd letter (by decide)
    · exact absurd letter (by decide)
    · exact absurd letter (by decide)
    · obtain ⟨j, rfl⟩ | ⟨x, rfl⟩ := kind <;> obtain ⟨k, rfl⟩ | ⟨y, rfl⟩ := kind' <;>
        simp only [render] at same
      · rw [intDigits_injective same]
      · exact absurd same.symm (floatText_ne_intDigits y j)
      · exact absurd same (floatText_ne_intDigits x k)
      · rw [FloatFormat.text_injective distinct_floatFormat (String.toList_inj.mp same)]

/-- Two texts that go on after their tokens are told apart token by token. -/
theorem token_cancel {xs ys r s : List Char} (hx : ∀ c ∈ xs, isTokenChar c = true)
    (hy : ∀ c ∈ ys, isTokenChar c = true) (hr : TokenEnds r) (hs : TokenEnds s)
    (same : xs ++ r = ys ++ s) : xs = ys ∧ r = s := by
  induction xs generalizing ys with
  | nil =>
    cases ys with
    | nil => exact ⟨rfl, same⟩
    | cons y ys =>
      have goes_on := hr y (by rw [← List.nil_append r, same]; rfl)
      simp [hy y List.mem_cons_self] at goes_on
  | cons x xs ih =>
    cases ys with
    | nil =>
      have goes_on := hs x (by rw [← List.nil_append s, ← same]; rfl)
      simp [hx x List.mem_cons_self] at goes_on
    | cons y ys =>
      obtain ⟨rfl, tail⟩ := List.cons.inj same
      obtain ⟨rfl, rest⟩ := ih (fun c hc => hx c (List.mem_cons_of_mem _ hc))
        (fun c hc => hy c (List.mem_cons_of_mem _ hc)) tail
      exact ⟨rfl, rest⟩

section straight
variable (straight : style.Straight)
include straight

/-- The first character of a text tells the shape of the value that it starts with. -/
theorem render_head (v : Json) (level : Nat) (rest : List Char) :
    ∃ c cs, render style level v ++ rest = c :: cs ∧
      mark v = if isTokenChar c = true then none else some c := by
  have token (token : isToken v = true) : ∃ c cs, render style level v ++ rest = c :: cs ∧
      none = if isTokenChar c = true then none else some c := by
    obtain ⟨some, all⟩ := token_chars style token level
    obtain ⟨c, cs, shown⟩ := List.exists_cons_of_ne_nil some
    rw [shown] at all ⊢
    exact ⟨c, _, rfl, (if_pos (all c List.mem_cons_self)).symm⟩
  cases v with
  | null | bool | int | float => exact token rfl
  | str s => exact ⟨'"', _, by rw [render, stringText, List.cons_append, List.cons_append], rfl⟩
  | arr items =>
    cases items with
    | nil => exact ⟨'[', _, by rw [render_arr_nil]; rfl, rfl⟩
    | cons x xs => exact ⟨'[', _, render_arr_cons straight level rest x xs, rfl⟩
  | obj fields =>
    cases fields with
    | nil => exact ⟨'\x7b', _, by rw [render_obj_nil]; rfl, rfl⟩
    | cons x xs => exact ⟨'\x7b', _, render_obj_cons straight level rest x.1 x.2 xs, rfl⟩

theorem mark_eq_of_text_eq {v w : Json} {m n : Nat} {r s : List Char}
    (same : render style m v ++ r = render style n w ++ s) : mark v = mark w := by
  obtain ⟨c, cs, start, first⟩ := render_head straight v m r
  obtain ⟨d, ds, start', second⟩ := render_head straight w n s
  rw [start, start'] at same
  rw [first, second, (List.cons.inj same).1]

/-- No value starts with a closing bracket. -/
theorem render_ne_closing {v : Json} {level : Nat} {c : Char} {cs rest : List Char}
    (closing : c = ']' ∨ c = '\x7d') : render style level v ++ rest ≠ c :: cs := by
  intro start
  obtain ⟨d, ds, start', shape⟩ := render_head straight v level rest
  obtain rfl := (List.cons.inj (start'.symm.trans start)).1
  obtain rfl | rfl := closing <;> cases v <;> simp [mark, isTokenChar] at shape

theorem tokenEnds_itemsTail (level : Nat) (items : List Json) (rest : List Char) :
    TokenEnds (itemsTail style level items rest) := by
  obtain ⟨gap, comma, -⟩ := straight.comma
  cases items <;> simp [TokenEnds, itemsTail, comma, isTokenChar]

theorem tokenEnds_fieldsTail (level : Nat) (fields : List (String × Json)) (rest : List Char) :
    TokenEnds (fieldsTail style level fields rest) := by
  obtain ⟨gap, comma, -⟩ := straight.comma
  cases fields <;> simp [TokenEnds, fieldsTail, comma, isTokenChar]

omit straight in
theorem stringText_cancel {asciiOnly : Bool} {a b : String} {r s : List Char}
    (same : stringText asciiOnly a ++ r = stringText asciiOnly b ++ s) : a = b ∧ r = s := by
  rw [stringText, stringText, List.append_assoc, List.append_assoc] at same
  have first := readString_escaped asciiOnly a r
  have second := readString_escaped asciiOnly b s
  have texts := congrArg readString (List.cons.inj same).2
  exact Prod.mk.inj (Except.ok.inj (first.symm.trans (texts.trans second)))

theorem token_text_cancel {v w : Json} (token : isToken v = true) {m n : Nat} {r s : List Char}
    (hr : TokenEnds r) (hs : TokenEnds s) (same : render style m v ++ r = render style n w ++ s) :
    v = w ∧ r = s := by
  have token' : isToken w = true := by rwa [isToken, ← mark_eq_of_text_eq straight same]
  obtain ⟨text, rest⟩ :=
    token_cancel (token_chars style token m).2 (token_chars style token' n).2 hr hs same
  exact ⟨token_injective token token' text, rest⟩

mutual

/-- Texts that go on after values are told apart value by value. -/
theorem render_cancel : ∀ (v w : Json) (m n : Nat) {r s : List Char}, TokenEnds r → TokenEnds s →
    render style m v ++ r = render style n w ++ s → v = w ∧ r = s
  | .null, _, _, _, _, _, hr, hs, same | .bool _, _, _, _, _, _, hr, hs, same
  | .int _, _, _, _, _, _, hr, hs, same | .float _, _, _, _, _, _, hr, hs, same =>
    token_text_cancel straight rfl hr hs same
  | .str a, w, m, n, r, s, _, _, same => by
    have shape := mark_eq_of_text_eq straight same
    cases w with
    | str b =>
      rw [render, render] at same
      obtain ⟨rfl, rest⟩ := stringText_cancel same
      exact ⟨rfl, rest⟩
    | _ => cases shape
  | .arr [], w, m, n, r, s, _, _, same => by
    have shape := mark_eq_of_text_eq straight same
    match w with
    | .arr [] => exact ⟨rfl, List.append_cancel_left same⟩
    | .arr (y :: ys) =>
      rw [render_arr_nil, render_arr_cons straight] at same
      exact absurd (List.cons.inj same).2.symm (render_ne_closing straight (.inl rfl))
    | .null | .bool _ | .int _ | .float _ | .str _ | .obj _ => cases shape
  | .arr (x :: xs), w, m, n, r, s, _, _, same => by
    have shape := mark_eq_of_text_eq straight same
    match w with
    | .arr [] =>
      rw [render_arr_nil, render_arr_cons straight] at same
      exact absurd (List.cons.inj same).2 (render_ne_closing straight (.inl rfl))
    | .arr (y :: ys) =>
      rw [render_arr_cons straight, render_arr_cons straight] at same
      obtain ⟨rfl, tails⟩ := render_cancel x y (m + 1) (n + 1) (tokenEnds_itemsTail straight _ _ _)
        (tokenEnds_itemsTail straight _ _ _) (List.cons.inj same).2
      obtain ⟨rfl, rest⟩ := itemsTail_cancel xs ys _ _ tails
      exact ⟨rfl, rest⟩
    | .null | .bool _ | .int _ | .float _ | .str _ | .obj _ => cases shape
  | .obj [], w, m, n, r, s, _, _, same => by
    have shape := mark_eq_of_text_eq straight same
    match w with
    | .obj [] =>
      rw [render_obj_nil, render_obj_nil] at same
      exact ⟨rfl, List.append_cancel_left same⟩
    | .obj ((l, y) :: ys) =>
      rw [render_obj_nil, render_obj_cons straight] at same
      exact absurd (List.cons.inj (List.cons.inj same).2).1 (by decide)
    | .null | .bool _ | .int _ | .float _ | .str _ | .arr _ => cases shape
  | .obj ((k, x) :: xs), w, m, n, r, s, _, _, same => by
    have shape := mark_eq_of_text_eq straight same
    match w with
    | .obj [] =>
      rw [render_obj_nil, render_obj_cons straight] at same
      exact absurd (List.cons.inj (List.cons.inj same).2).1 (by decide)
    | .obj ((l, y) :: ys) =>
      rw [render_obj_cons straight, render_obj_cons straight] at same
      obtain ⟨rfl, values⟩ := stringText_cancel (List.cons.inj same).2
      obtain ⟨rfl, tails⟩ := render_cancel x y (m + 1) (n + 1) (tokenEnds_fieldsTail straight _ _ _)
        (tokenEnds_fieldsTail straight _ _ _) (List.append_cancel_left values)
      obtain ⟨rfl, rest⟩ := fieldsTail_cancel xs ys _ _ tails
      exact ⟨rfl, rest⟩
    | .null | .bool _ | .int _ | .float _ | .str _ | .arr _ => cases shape

theorem itemsTail_cancel : ∀ (vs ws : List Json) (m n : Nat) {r s : List Char},
    itemsTail style m vs r = itemsTail style n ws s → vs = ws ∧ r = s
  | [], [], _, _, _, _, same => ⟨rfl, (List.cons.inj same).2⟩
  | [], _ :: _, _, _, _, _, same | _ :: _, [], _, _, _, _, same => by
    obtain ⟨gap, comma, -⟩ := straight.comma
    simp [itemsTail, comma] at same
  | v :: vs, w :: ws, m, n, _, _, same => by
    obtain ⟨rfl, tails⟩ := render_cancel v w m n (tokenEnds_itemsTail straight _ _ _)
      (tokenEnds_itemsTail straight _ _ _) (List.append_cancel_left same)
    obtain ⟨rfl, rest⟩ := itemsTail_cancel vs ws _ _ tails
    exact ⟨rfl, rest⟩

theorem fieldsTail_cancel : ∀ (fs gs : List (String × Json)) (m n : Nat) {r s : List Char},
    fieldsTail style m fs r = fieldsTail style n gs s → fs = gs ∧ r = s
  | [], [], _, _, _, _, same => ⟨rfl, (List.cons.inj same).2⟩
  | [], (_, _) :: _, _, _, _, _, same | (_, _) :: _, [], _, _, _, _, same => by
    obtain ⟨gap, comma, -⟩ := straight.comma
    simp [fieldsTail, comma] at same
  | (k, v) :: fs, (l, w) :: gs, m, n, _, _, same => by
    obtain ⟨rfl, values⟩ := stringText_cancel (List.append_cancel_left same)
    obtain ⟨rfl, tails⟩ := render_cancel v w m n (tokenEnds_fieldsTail straight _ _ _)
      (tokenEnds_fieldsTail straight _ _ _) (List.append_cancel_left values)
    obtain ⟨rfl, rest⟩ := fieldsTail_cancel fs gs _ _ tails
    exact ⟨rfl, rest⟩

end

end straight

/-- The canonical text of a value determines it, up to the order of members. -/
theorem sorted_eq_of_canonical_eq {v w : Json} (same : write .canonical v = write .canonical w) :
    sorted v = sorted w := by
  rw [write, write, String.ofList_inj, render_sorted rfl, render_sorted rfl w] at same
  have nothing : TokenEnds [] := by simp [TokenEnds]
  exact (render_cancel straight_canonical _ _ 0 0 nothing nothing (by rw [same])).1

end CodeAgent.Json
