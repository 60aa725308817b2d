import CodeAgent.Json.Reader
import CodeAgent.Json.Writer

/-! Text whose strings and brackets are complete, and the strings of JSON: each is read through its closing quote,
whatever follows. Strings read back from their text, in ASCII or not. -/
namespace CodeAgent.Json

/-- A string from after its opening quote through its closing quote. -/
inductive StringRest : List Char → Prop where
  | close : StringRest ['"']
  | escape (c : Char) {cs} : StringRest cs → StringRest ('\\' :: c :: cs)
  | plain {c cs} : c ≠ '"' → c ≠ '\\' → StringRest cs → StringRest (c :: cs)

/-- The brackets of arrays and of objects. -/
def brackets : List (Char × Char) := [('[', ']'), ('{', '}')]

/-- A character is no quote and no bracket. -/
def isPlain (c : Char) : Bool :=
  c != '"' && c != '[' && c != ']' && c != '{' && c != '}'

/-- Text whose strings and brackets are complete. -/
inductive Balanced : List Char → Prop where
  | nil : Balanced []
  | plain {c cs} : isPlain c = true → Balanced cs → Balanced (c :: cs)
  | string {cs more} : StringRest cs → Balanced more → Balanced ('"' :: (cs ++ more))
  | nested {opening closing body more} : (opening, closing) ∈ brackets → Balanced body →
      Balanced more → Balanced (opening :: (body ++ closing :: more))

namespace Balanced

theorem append {cs ds : List Char} (first : Balanced cs) (second : Balanced ds) : Balanced (cs ++ ds) := by
  induction first with
  | nil => exact second
  | plain flat _ ih => exact .plain flat ih
  | string rest _ ih =>
    rw [List.cons_append, List.append_assoc]
    exact .string rest ih
  | nested pair body _ _ ih =>
    rw [List.cons_append, List.append_assoc, List.cons_append]
    exact .nested pair body ih

theorem of_plain {cs : List Char} (flat : ∀ c ∈ cs, isPlain c = true) : Balanced cs := by
  induction cs with
  | nil => exact .nil
  | cons c cs ih => exact .plain (flat c (by simp)) (ih fun d hd => flat d (by simp [hd]))

end Balanced

theorem hexQuad?_local {cs rest : List Char} {n : Nat} (quad : hexQuad? cs = some (n, rest)) :
    ∃ a b c d, cs = a :: b :: c :: d :: rest ∧
      (∀ x ∈ [a, b, c, d], hexValue? x ≠ none) ∧
      ∀ other, hexQuad? (a :: b :: c :: d :: other) = some (n, other) := by
  unfold hexQuad? at quad
  split at quad
  · next a b c d tail =>
    simp only [Option.bind_eq_bind, Option.bind_eq_some_iff, Option.some.injEq, Prod.mk.injEq] at quad
    obtain ⟨x, hx, y, hy, z, hz, w, hw, rfl, rfl⟩ := quad
    refine ⟨a, b, c, d, rfl, by simp [hx, hy, hz, hw], fun other => ?_⟩
    simp [hexQuad?, hx, hy, hz, hw]
  · contradiction

/-- The second half of a pair of numeric escapes, and the text after it. -/
def lowHalf? (cs : List Char) : Option (Nat × List Char) :=
  match cs with
  | '\\' :: 'u' :: more => (hexQuad? more).filter fun half => 0xdc00 ≤ half.1 && half.1 ≤ 0xdfff
  | _ => none

theorem lowHalf?_mark (more : List Char) : lowHalf? ('\\' :: 'u' :: more) =
    (hexQuad? more).filter fun half => 0xdc00 ≤ half.1 && half.1 ≤ 0xdfff := rfl

theorem lowHalf?_unmarked {cs : List Char} (other : ∀ more, cs = '\\' :: 'u' :: more → False) :
    lowHalf? cs = none := by
  unfold lowHalf?
  split
  · next more => exact (other more rfl).elim
  · rfl

/-- The character written by an escape of some unit, and the text after it. -/
def escapedUnit (unit : Nat) (rest : List Char) : Char × List Char :=
  if 0xd800 ≤ unit ∧ unit ≤ 0xdbff then
    match lowHalf? rest with
    | some (low, after) => (Char.ofNat (0x10000 + (unit - 0xd800) * 0x400 + (low - 0xdc00)), after)
    | none => ('\ufffd', rest)
  else if 0xdc00 ≤ unit ∧ unit ≤ 0xdfff then ('\ufffd', rest)
  else (Char.ofNat unit, rest)

theorem unicodeEscape?_eq (cs : List Char) :
    unicodeEscape? cs = (hexQuad? cs).map fun half => escapedUnit half.1 half.2 := by
  unfold unicodeEscape?
  cases hexQuad? cs with
  | none => rfl
  | some half =>
    obtain ⟨unit, rest⟩ := half
    simp only [Option.bind_eq_bind, Option.bind_some, Option.map_some, escapedUnit]
    by_cases high : 0xd800 ≤ unit ∧ unit ≤ 0xdbff
    · rw [if_pos high, if_pos high]
      split
      · next more =>
        rw [lowHalf?_mark]
        cases hexQuad? more with
        | none => rfl
        | some half =>
          obtain ⟨low, after⟩ := half
          by_cases fits : 0xdc00 ≤ low ∧ low ≤ 0xdfff
          · simp [fits, Option.filter]
          · simp [fits, Option.filter]
      · next other => rw [lowHalf?_unmarked other]
    · rw [if_neg high, if_neg high]
      split <;> rfl

theorem lowHalf?_local {cs rest : List Char} {n : Nat} (half : lowHalf? cs = some (n, rest)) :
    ∃ a b c d, cs = '\\' :: 'u' :: a :: b :: c :: d :: rest ∧
      (∀ x ∈ [a, b, c, d], hexValue? x ≠ none) ∧
      ∀ other, lowHalf? ('\\' :: 'u' :: a :: b :: c :: d :: other) = some (n, other) := by
  unfold lowHalf? at half
  split at half
  · next more =>
    obtain ⟨quad, fits⟩ := Option.filter_eq_some_iff.mp half
    obtain ⟨a, b, c, d, rfl, hex, again⟩ := hexQuad?_local quad
    refine ⟨a, b, c, d, rfl, hex, fun other => ?_⟩
    rw [lowHalf?_mark, again]
    exact Option.filter_eq_some_iff.mpr ⟨rfl, fits⟩
  · contradiction

private theorem hex_not_mark {c : Char} (hex : hexValue? c ≠ none) : c ≠ '"' ∧ c ≠ '\\' := by
  constructor
  · rintro rfl
    exact hex (by decide)
  · rintro rfl
    exact hex (by decide)

private theorem StringRest.hex {cs more : List Char} (hex : ∀ c ∈ cs, hexValue? c ≠ none)
    (rest : StringRest more) : StringRest (cs ++ more) := by
  induction cs with
  | nil => exact rest
  | cons c cs ih =>
    obtain ⟨quote, mark⟩ := hex_not_mark (hex c (by simp))
    exact .plain quote mark (ih fun d hd => hex d (by simp [hd]))

/-- Whether a second half stands before a quote does not depend on what comes after the quote. -/
theorem lowHalf?_before_quote {cs rest other : List Char} (no_half : lowHalf? (cs ++ '"' :: rest) = none) :
    lowHalf? (cs ++ '"' :: other) = none := by
  cases found : lowHalf? (cs ++ '"' :: other) with
  | none => rfl
  | some half =>
    obtain ⟨n, tail⟩ := half
    obtain ⟨a, b, c, d, same, hex, again⟩ := lowHalf?_local found
    have absent : '"' ∉ ['\\', 'u', a, b, c, d] := by
      intro mem
      obtain mark | mark | mem := by simpa only [List.mem_cons] using mem
      · contradiction
      · contradiction
      · exact (hex_not_mark (hex _ (by simpa using mem))).1 rfl
    have split : cs ++ '"' :: other = ['\\', 'u', a, b, c, d] ++ tail := same
    obtain ⟨between, whole, quote⟩ | ⟨more, rfl, -⟩ := List.append_eq_append_iff.mp split
    · cases between with
      | nil =>
        rw [List.append_nil] at whole
        rw [← whole] at no_half
        exact absurd no_half (by rw [List.cons_append, List.cons_append, List.cons_append,
          List.cons_append, List.cons_append, List.cons_append, again]; simp)
      | cons e between =>
        cases quote
        exact absurd (by rw [whole]; simp) absent
    · exact absurd no_half (by rw [List.append_assoc, List.cons_append, List.cons_append,
        List.cons_append, List.cons_append, List.cons_append, List.cons_append, again]; simp)

/-- A numeric escape is read from its digits, unless the second half of a pair follows. -/
theorem unicodeEscape?_local {cs rest : List Char} {c : Char} (escape : unicodeEscape? cs = some (c, rest)) :
    ∃ used, cs = used ++ rest ∧ (∀ more, StringRest more → StringRest (used ++ more)) ∧
      ∀ other, (lowHalf? rest = none → lowHalf? other = none) →
        unicodeEscape? (used ++ other) = some (c, other) := by
  rw [unicodeEscape?_eq, Option.map_eq_some_iff] at escape
  obtain ⟨⟨unit, tail⟩, quad, made⟩ := escape
  obtain ⟨a₁, a₂, a₃, a₄, rfl, hex, again⟩ := hexQuad?_local quad
  have read (other : List Char) : unicodeEscape? ([a₁, a₂, a₃, a₄] ++ other) =
      some (escapedUnit unit other) := by
    rw [unicodeEscape?_eq]
    exact congrArg _ (again other)
  have single (same : tail = rest) (unpaired : ∀ other, (lowHalf? rest = none → lowHalf? other = none) →
      escapedUnit unit other = (c, other)) : ∃ used, a₁ :: a₂ :: a₃ :: a₄ :: tail = used ++ rest ∧
        (∀ more, StringRest more → StringRest (used ++ more)) ∧
        ∀ other, (lowHalf? rest = none → lowHalf? other = none) →
          unicodeEscape? (used ++ other) = some (c, other) := by
    refine ⟨[a₁, a₂, a₃, a₄], by rw [same]; rfl, fun more => StringRest.hex hex, fun other h => ?_⟩
    rw [read, unpaired other h]
  unfold escapedUnit at made single
  by_cases high : 0xd800 ≤ unit ∧ unit ≤ 0xdbff
  · rw [if_pos high] at made
    simp only [if_pos high] at single
    cases half : lowHalf? tail with
    | some half' =>
      obtain ⟨low, after⟩ := half'
      rw [half] at made
      obtain ⟨rfl, rfl⟩ := Prod.mk.inj made
      obtain ⟨b₁, b₂, b₃, b₄, rfl, hex', again'⟩ := lowHalf?_local half
      refine ⟨[a₁, a₂, a₃, a₄, '\\', 'u', b₁, b₂, b₃, b₄], rfl, fun more closed => ?_, fun other _ => ?_⟩
      · change StringRest ([a₁, a₂, a₃, a₄] ++ '\\' :: 'u' :: ([b₁, b₂, b₃, b₄] ++ more))
        exact StringRest.hex hex (.escape 'u' (StringRest.hex hex' closed))
      · have pair := read ('\\' :: 'u' :: b₁ :: b₂ :: b₃ :: b₄ :: other)
        rw [escapedUnit, if_pos high, again'] at pair
        exact pair
    | none =>
      rw [half] at made
      cases made
      refine single rfl fun other h => ?_
      rw [h half]
  · rw [if_neg high] at made
    simp only [if_neg high] at single
    split at made
    · next low =>
      obtain ⟨rfl, rfl⟩ := Prod.mk.inj made
      exact single rfl fun other _ => by rw [if_pos low]
    · next low =>
      obtain ⟨rfl, rfl⟩ := Prod.mk.inj made
      exact single rfl fun other _ => by rw [if_neg low]

/-- A string is read through its closing quote, whatever follows. -/
theorem readChars_local {n : Nat} {cs text rest : List Char} (read : readChars n cs = some (text, rest)) :
    ∃ used, cs = used ++ '"' :: rest ∧ StringRest (used ++ ['"']) ∧
      ∀ m other, used.length < m → readChars m (used ++ '"' :: other) = some (text, other) := by
  fun_induction readChars n cs generalizing text rest with
  | case1 => contradiction
  | case2 => contradiction
  | case3 n cs =>
    cases read
    refine ⟨[], rfl, .close, fun m other bound => ?_⟩
    obtain ⟨m, rfl⟩ := Nat.exists_eq_succ_of_ne_zero (Nat.ne_of_gt bound)
    rfl
  | case4 n cs ih =>
    simp only [Option.bind_eq_bind, Option.bind_eq_some_iff] at read
    obtain ⟨⟨c, tail⟩, escape, ⟨chars, after⟩, more, made⟩ := read
    cases made
    obtain ⟨used, rfl, closed, again⟩ := ih tail more
    obtain ⟨digits, rfl, closing, escaped⟩ := unicodeEscape?_local escape
    refine ⟨'\\' :: 'u' :: (digits ++ used), by simp, ?_, fun m other bound => ?_⟩
    · rw [List.cons_append, List.cons_append, List.append_assoc]
      exact .escape 'u' (closing _ closed)
    · obtain ⟨m, rfl⟩ := Nat.exists_eq_succ_of_ne_zero (Nat.ne_of_gt (Nat.zero_lt_of_lt bound))
      simp only [List.length_cons, List.length_append] at bound
      rw [List.cons_append, List.cons_append, List.append_assoc, readChars,
        escaped _ lowHalf?_before_quote]
      simp only [Option.bind_eq_bind, Option.bind_some]
      rw [again m other (by omega)]
      rfl
  | case5 n c cs named ih =>
    simp only [Option.bind_eq_bind, Option.bind_eq_some_iff] at read
    obtain ⟨d, escape, ⟨chars, after⟩, more, made⟩ := read
    cases made
    obtain ⟨used, rfl, closed, again⟩ := ih more
    refine ⟨'\\' :: c :: used, by simp, .escape c closed, fun m other bound => ?_⟩
    obtain ⟨m, rfl⟩ := Nat.exists_eq_succ_of_ne_zero (Nat.ne_of_gt (Nat.zero_lt_of_lt bound))
    simp only [List.length_cons] at bound
    rw [List.cons_append, List.cons_append, readChars, escape]
    · simp only [Option.bind_eq_bind, Option.bind_some]
      rw [again m other (by omega)]
      rfl
    · exact named
  | case6 => contradiction
  | case7 n c cs quote unicode escape fits ih =>
    rw [Option.map_eq_some_iff] at read
    obtain ⟨⟨chars, after⟩, more, made⟩ := read
    cases made
    obtain ⟨used, rfl, closed, again⟩ := ih more
    have mark : c ≠ '\\' := by
      rintro rfl
      simp at fits
    refine ⟨c :: used, rfl, .plain quote mark closed, fun m other bound => ?_⟩
    obtain ⟨m, rfl⟩ := Nat.exists_eq_succ_of_ne_zero (Nat.ne_of_gt (Nat.zero_lt_of_lt bound))
    simp only [List.length_cons] at bound
    rw [List.cons_append, readChars, if_neg fits, again m other (by omega)]
    · rfl
    · exact quote
    · exact fun _ same _ => mark same
    · exact fun _ _ same _ => mark same

theorem length_lt_mark (body : List Char) {c : Char} {other : List Char} :
    body.length < (body ++ c :: other).length + 1 := by
  simp only [List.length_append, List.length_cons]
  omega

theorem readString_local {cs rest : List Char} {text : String} (read : readString cs = .ok (text, rest)) :
    ∃ used, cs = used ++ '"' :: rest ∧ StringRest (used ++ ['"']) ∧
      ∀ other, readString (used ++ '"' :: other) = .ok (text, other) := by
  unfold readString at read
  cases chars : readChars (cs.length + 1) cs with
  | none =>
    rw [chars] at read
    contradiction
  | some made =>
    obtain ⟨text', rest'⟩ := made
    rw [chars] at read
    cases read
    obtain ⟨used, rfl, closed, again⟩ := readChars_local chars
    refine ⟨used, rfl, closed, fun other => ?_⟩
    rw [readString, again _ other (length_lt_mark used)]

end CodeAgent.Json

namespace CodeAgent.Json
open CodeAgent.Text

/-- The digit of a number below sixteen. -/
def hexDigit (n : Nat) : Char := (Nat.digitChar n).toLower

theorem hexPadded_four {n : Nat} (small : n < 65536) :
    hexPadded 4 n = [hexDigit (n / 4096), hexDigit (n / 256 % 16), hexDigit (n / 16 % 16),
      hexDigit (n % 16)] := by
  have split (m : Nat) : Nat.toDigits 16 m =
      if m < 16 then [m.digitChar] else Nat.toDigits 16 (m / 16) ++ [(m % 16).digitChar] :=
    Nat.toDigits_eq_if (by decide)
  have zero : (Nat.digitChar 0).toLower = '0' := by decide
  have eq_256 : n / 16 / 16 = n / 256 := Nat.div_div_eq_div_mul n 16 16
  have eq_4096 : n / 256 / 16 = n / 4096 := Nat.div_div_eq_div_mul n 256 16
  by_cases one : n < 16
  · have h₁ : n / 16 = 0 := by omega
    have h₂ : n / 256 = 0 := by omega
    have h₃ : n / 4096 = 0 := by omega
    simp [hexPadded, split n, one, h₁, h₂, h₃, zero, hexDigit, Nat.mod_eq_of_lt one, List.replicate]
  by_cases two : n < 256
  · have h₁ : n / 16 < 16 := by omega
    have h₂ : n / 256 = 0 := by omega
    have h₃ : n / 4096 = 0 := by omega
    simp [hexPadded, split n, split (n / 16), one, h₁, h₂, h₃, zero, hexDigit, Nat.mod_eq_of_lt h₁,
      List.replicate]
  have not_two : ¬ n / 16 < 16 := by omega
  by_cases three : n < 4096
  · have h₂ : n / 256 < 16 := by omega
    have h₃ : n / 4096 = 0 := by omega
    simp [hexPadded, split n, split (n / 16), split (n / 256), one, not_two, eq_256, h₂, h₃, zero,
      hexDigit, Nat.mod_eq_of_lt h₂]
  · have not_three : ¬ n / 256 < 16 := by omega
    have h₃ : n / 4096 < 16 := by omega
    simp [hexPadded, split n, split (n / 16), split (n / 256), split (n / 4096), one, not_two,
      not_three, eq_256, eq_4096, h₃, hexDigit]

theorem hexValue?_hexDigit {n : Nat} (small : n < 16) : hexValue? (hexDigit n) = some n :=
  (by decide : ∀ n < 16, hexValue? (hexDigit n) = some n) n small

theorem hexQuad?_hexPadded {n : Nat} (small : n < 65536) (rest : List Char) :
    hexQuad? (hexPadded 4 n ++ rest) = some (n, rest) := by
  have value : ((n / 4096 * 16 + n / 256 % 16) * 16 + n / 16 % 16) * 16 + n % 16 = n := by omega
  rw [hexPadded_four small]
  simp only [List.cons_append, List.nil_append, hexQuad?]
  rw [hexValue?_hexDigit (by omega), hexValue?_hexDigit (by omega), hexValue?_hexDigit (by omega),
    hexValue?_hexDigit (by omega)]
  simp only [Option.bind_eq_bind, Option.bind_some, value]

/-- A character is no half of a pair. -/
theorem toNat_not_half (c : Char) : ¬ (0xd800 ≤ c.toNat ∧ c.toNat ≤ 0xdfff) := by
  have valid : c.toNat.isValidChar := c.valid
  simp only [Nat.isValidChar] at valid
  omega

theorem unicodeEscape?_unit {c : Char} (small : c.toNat < 0x10000) (rest : List Char) :
    unicodeEscape? (hexPadded 4 c.toNat ++ rest) = some (c, rest) := by
  have whole := toNat_not_half c
  rw [unicodeEscape?_eq, hexQuad?_hexPadded small, Option.map_some, escapedUnit, if_neg (by omega),
    if_neg (by omega), Char.ofNat_toNat]

/-- Two halves make one character. -/
theorem unicodeEscape?_halves (high low : Nat) (first : high < 0x400) (second : low < 0x400)
    (rest : List Char) :
    unicodeEscape? (hexPadded 4 (0xd800 + high) ++ '\\' :: 'u' :: (hexPadded 4 (0xdc00 + low) ++ rest)) =
      some (Char.ofNat (0x10000 + high * 0x400 + low), rest) := by
  have fits : (0xdc00 ≤ 0xdc00 + low && 0xdc00 + low ≤ 0xdfff) = true := by
    rw [Bool.and_eq_true, decide_eq_true_iff, decide_eq_true_iff]
    omega
  rw [unicodeEscape?_eq, hexQuad?_hexPadded (by omega), Option.map_some, escapedUnit,
    if_pos (by omega), lowHalf?_mark, hexQuad?_hexPadded (by omega), Option.filter, if_pos fits]
  simp only [Nat.add_sub_cancel_left]

/-- A character that stands for itself. -/
theorem readChars_plain {c : Char} (quote : c ≠ '"') (mark : c ≠ '\\') (printed : ¬ c.toNat < 32)
    (n : Nat) (rest : List Char) :
    readChars (n + 1) (c :: rest) = (readChars n rest).map fun r => (c :: r.1, r.2) := by
  rw [readChars, if_neg (by simp [mark, printed])]
  · exact quote
  · exact fun _ same _ => mark same
  · exact fun _ _ same _ => mark same

theorem readChars_unicode {cs rest : List Char} {c : Char} (escape : unicodeEscape? cs = some (c, rest))
    (n : Nat) :
    readChars (n + 1) ('\\' :: 'u' :: cs) = (readChars n rest).map fun r => (c :: r.1, r.2) := by
  rw [readChars, escape]
  simp only [Option.bind_eq_bind, Option.bind_some]
  cases readChars n rest <;> rfl

theorem readChars_short {c d : Char} (escape : escapedChar? c = some d) (other : c ≠ 'u') (n : Nat)
    (rest : List Char) :
    readChars (n + 1) ('\\' :: c :: rest) = (readChars n rest).map fun r => (d :: r.1, r.2) := by
  rw [readChars, escape]
  · simp only [Option.bind_eq_bind, Option.bind_some]
    cases readChars n rest <;> rfl
  · exact other

/-- A character beyond `2 ^ 16` is written as two halves. -/
theorem readChars_halves {c : Char} {m : Nat} (same : c.toNat = 0x10000 + m) (n : Nat)
    (rest : List Char) :
    readChars (n + 1) (unitEscape (0xd800 + m / 0x400) ++ unitEscape (0xdc00 + m % 0x400) ++ rest) =
      (readChars n rest).map fun r => (c :: r.1, r.2) := by
  have valid : c.toNat.isValidChar := c.valid
  simp only [Nat.isValidChar] at valid
  have value : 0x10000 + m / 0x400 * 0x400 + m % 0x400 = c.toNat := by omega
  have halves := unicodeEscape?_halves (m / 0x400) (m % 0x400) (by omega) (by omega) rest
  rw [value, Char.ofNat_toNat] at halves
  rw [List.append_assoc]
  exact readChars_unicode halves n

theorem readChars_escapeChar (asciiOnly : Bool) (c : Char) (n : Nat) (rest : List Char) :
    readChars (n + 1) (escapeChar asciiOnly c ++ rest) =
      (readChars n rest).map fun r => (c :: r.1, r.2) := by
  have short {letter d : Char} (same : c = d) (escape : escapedChar? letter = some d)
      (other : letter ≠ 'u') : readChars (n + 1) (['\\', letter] ++ rest) =
        (readChars n rest).map fun r => (c :: r.1, r.2) :=
    same ▸ readChars_short escape other n rest
  fun_cases escapeChar asciiOnly c with
  | case1 same => exact short (eq_of_beq same) rfl (by decide)
  | case2 _ same => exact short (eq_of_beq same) rfl (by decide)
  | case3 _ _ same => exact short (eq_of_beq same) rfl (by decide)
  | case4 _ _ _ same => exact short (eq_of_beq same) rfl (by decide)
  | case5 _ _ _ _ same => exact short (eq_of_beq same) rfl (by decide)
  | case6 _ _ _ _ _ same => exact short (eq_of_beq same) rfl (by decide)
  | case7 _ _ _ _ _ _ same => exact short (eq_of_beq same) rfl (by decide)
  | case8 _ _ _ _ _ _ _ control =>
    exact readChars_unicode (unicodeEscape?_unit (by omega) rest) n
  | case9 quote mark _ _ _ _ _ printed _ =>
    exact readChars_plain (by simpa using quote) (by simpa using mark) printed n rest
  | case10 _ _ _ _ _ _ _ _ _ small =>
    exact readChars_unicode (unicodeEscape?_unit small rest) n
  | case11 _ _ _ _ _ _ _ _ _ large m =>
    have same : c.toNat = 0x10000 + m := (Nat.add_sub_cancel' (Nat.not_lt.mp large)).symm
    clear_value m
    exact readChars_halves same n rest

theorem readChars_escaped (asciiOnly : Bool) (cs : List Char) (more : Nat) (rest : List Char) :
    readChars (cs.length + 1 + more) (cs.flatMap (escapeChar asciiOnly) ++ '"' :: rest) =
      some (cs, rest) := by
  induction cs with
  | nil =>
    rw [List.length_nil, Nat.add_right_comm, List.flatMap_nil, List.nil_append, readChars]
  | cons c cs ih =>
    have fuel : (c :: cs).length + 1 + more = cs.length + 1 + more + 1 := by
      rw [List.length_cons]
      omega
    rw [fuel, List.flatMap_cons, List.append_assoc, readChars_escapeChar, ih]
    rfl

theorem escapeChar_ne_nil (asciiOnly : Bool) (c : Char) : escapeChar asciiOnly c ≠ [] := by
  intro nothing
  have read := readChars_escapeChar asciiOnly c 1 ['"']
  rw [nothing, List.nil_append, readChars, readChars, Option.map_some] at read
  simp at read

theorem length_le_escaped (asciiOnly : Bool) (cs : List Char) :
    cs.length ≤ (cs.flatMap (escapeChar asciiOnly)).length := by
  induction cs with
  | nil => exact Nat.le_refl 0
  | cons c cs ih =>
    have filled := List.length_pos_iff.mpr (escapeChar_ne_nil asciiOnly c)
    rw [List.flatMap_cons, List.length_append, List.length_cons]
    omega

/-- A string is read from its text, whatever follows. -/
theorem readString_escaped (asciiOnly : Bool) (s : String) (rest : List Char) :
    readString (s.toList.flatMap (escapeChar asciiOnly) ++ '"' :: rest) = .ok (s, rest) := by
  have long := length_le_escaped asciiOnly s.toList
  obtain ⟨more, enough⟩ : ∃ more, (s.toList.flatMap (escapeChar asciiOnly) ++ '"' :: rest).length + 1 =
      s.toList.length + 1 + more := by
    refine ⟨(s.toList.flatMap (escapeChar asciiOnly) ++ '"' :: rest).length - s.toList.length, ?_⟩
    rw [List.length_append]
    omega
  rw [readString, enough, readChars_escaped]
  simp

end CodeAgent.Json
