import CodeAgent.Proofs.ToolCall.TypedArguments

/-! The values that count for the fields of a tool: texts, truth values and integers, and what is read as one. -/
namespace CodeAgent
open CodeAgent.Text CodeAgent.Decimal CodeAgent.Coercion

namespace Coercion

/-- Digits with single underscores between them, and the digits alone. -/
inductive DigitText : List Char → List Char → Prop
  | last {d : Char} (digit : isAsciiDigit d = true) : DigitText [d] [d]
  | digit {d : Char} {cs ds : List Char} (digit : isAsciiDigit d = true) (more : DigitText cs ds) :
      DigitText (d :: cs) (d :: ds)
  | underscore {d : Char} {cs ds : List Char} (digit : isAsciiDigit d = true) (more : DigitText cs ds) :
      DigitText (d :: '_' :: cs) (d :: ds)

theorem ne_of_isAsciiDigit {d c : Char} (digit : isAsciiDigit d = true) (other : isAsciiDigit c = false) : d ≠ c := by
  rintro rfl
  rw [digit] at other
  cases other

theorem DigitText.exists_head {cs ds : List Char} (text : DigitText cs ds) :
    ∃ d rest, isAsciiDigit d = true ∧ cs = d :: rest := by
  cases text with
  | last digit | digit digit | underscore digit => exact ⟨_, _, digit, rfl⟩

theorem DigitText.ne_point {cs ds : List Char} (text : DigitText cs ds) : ∀ c ∈ cs, c ≠ '.' := by
  induction text with
  | last digit => simpa using ne_of_isAsciiDigit digit rfl
  | digit digit _ ih => simpa using ⟨ne_of_isAsciiDigit digit rfl, ih⟩
  | underscore digit _ ih => simpa using ⟨ne_of_isAsciiDigit digit rfl, ih⟩

theorem plainDigits?_eq_some_iff {cs ds : List Char} : plainDigits? cs = some ds ↔ DigitText cs ds := by
  constructor
  · intro read
    fun_induction plainDigits? cs generalizing ds with
    | case1 => cases read
    | case2 d digit =>
      cases read
      exact .last digit
    | case3 => cases read
    | case4 d cs digit ih =>
      obtain ⟨ds, got, rfl⟩ := Option.map_eq_some_iff.mp read
      exact .underscore digit (ih got)
    | case5 => cases read
    | case6 d cs _ _ digit ih =>
      obtain ⟨ds, got, rfl⟩ := Option.map_eq_some_iff.mp read
      exact .digit digit (ih got)
    | case7 => cases read
  · intro text
    induction text with
    | last digit => exact if_pos digit
    | @digit d cs ds digit more ih =>
      obtain ⟨e, rest, first, rfl⟩ := more.exists_head
      rw [plainDigits?, if_pos digit, ih]
      · rfl
      · nofun
      · rintro _ ⟨⟩
        cases first
    | underscore digit _ ih =>
      rw [plainDigits?, if_pos digit, ih]
      rfl

/-- A point and at least one zero, or nothing. -/
def ZeroFraction (cs : List Char) : Prop := cs = [] ∨ ∃ k, cs = '.' :: List.replicate (k + 1) '0'

/-- The text of an integer without its sign: digits, and perhaps a point followed by zeros. -/
def Unsigned (cs : List Char) : Prop :=
  ∃ whole digits zeros, cs = whole ++ zeros ∧ DigitText whole digits ∧ digits.length ≤ maxIntegerDigits ∧
    ZeroFraction zeros

/-- The text of an integer: a sign or none, digits, and perhaps a point followed by zeros, with white space around. -/
def IsNumeral (s : String) : Prop :=
  ∃ sign unsigned, trimBy isNumeralBlank s.toList = sign ++ unsigned ∧ sign ∈ [[], ['-'], ['+']] ∧ Unsigned unsigned

theorem Unsigned.exists_head {cs : List Char} (numeral : Unsigned cs) :
    ∃ d rest, isAsciiDigit d = true ∧ cs = d :: rest := by
  obtain ⟨whole, digits, zeros, rfl, text, -⟩ := numeral
  obtain ⟨d, rest, digit, rfl⟩ := text.exists_head
  exact ⟨d, rest ++ zeros, digit, rfl⟩

/-- What stands from the point of an integer on is nothing but zeros, and at least one. -/
def onlyZeros : List Char → Bool
  | [] => true
  | _ :: fraction => !fraction.isEmpty && fraction.all (· == '0')

/-- An integer without its sign is read up to its point and from there on. -/
theorem unsigned_iff {cs : List Char} :
    Unsigned cs ↔ ∃ digits, plainDigits? (cs.takeWhile (· != '.')) = some digits ∧ digits.length ≤ maxIntegerDigits ∧
      onlyZeros (cs.dropWhile (· != '.')) = true := by
  constructor
  · rintro ⟨whole, digits, zeros, rfl, text, short, fraction⟩
    have plain : ∀ c ∈ whole, (c != '.') = true := fun c mem => bne_iff_ne.mpr (text.ne_point c mem)
    refine ⟨digits, ?_, short, ?_⟩
    · rw [List.takeWhile_append_of_pos plain]
      have rest : zeros.takeWhile (· != '.') = [] := by
        obtain rfl | ⟨k, rfl⟩ := fraction <;> rfl
      rw [rest, List.append_nil]
      exact plainDigits?_eq_some_iff.mpr text
    · rw [List.dropWhile_append_of_pos plain]
      obtain rfl | ⟨k, rfl⟩ := fraction
      · rfl
      · simp [onlyZeros, List.replicate_succ]
  · rintro ⟨digits, read, short, fraction⟩
    refine ⟨_, digits, _, List.takeWhile_append_dropWhile.symm, plainDigits?_eq_some_iff.mp read, short, ?_⟩
    have head := List.head?_dropWhile_not (· != '.') cs
    cases rest : cs.dropWhile (· != '.') with
    | nil => exact .inl rfl
    | cons c zeros =>
      rw [rest] at head fraction
      obtain rfl : c = '.' := by simpa using head
      simp only [onlyZeros, Bool.and_eq_true, Bool.not_eq_true', List.isEmpty_eq_false_iff, List.all_eq_true,
        beq_iff_eq] at fraction
      obtain ⟨z, zeros, rfl⟩ := List.exists_cons_of_ne_nil fraction.1
      refine .inr ⟨zeros.length, congrArg ('.' :: ·) ?_⟩
      exact List.eq_replicate_of_mem fraction.2

theorem not_unsigned_cons {c : Char} (sign : isAsciiDigit c = false) (rest : List Char) : ¬ Unsigned (c :: rest) := by
  intro numeral
  obtain ⟨d, _, digit, same⟩ := numeral.exists_head
  exact ne_of_isAsciiDigit digit sign (List.cons.inj same).1.symm

/-- An integer after its sign. -/
def unsignedInteger (negative : Bool) (cs : List Char) : Except Refusal Int :=
  match plainDigits? (cs.takeWhile (· != '.')) with
  | some digits =>
    if !onlyZeros (cs.dropWhile (· != '.')) then .error .integerText
    else if maxIntegerDigits < digits.length then .error .integerSize
    else .ok (if negative then -(digitsValue digits : Int) else digitsValue digits)
  | none => .error .integerText

theorem exists_unsignedInteger_iff {negative : Bool} {cs : List Char} :
    (∃ n, unsignedInteger negative cs = .ok n) ↔ Unsigned cs := by
  rw [unsigned_iff, unsignedInteger]
  generalize onlyZeros (cs.dropWhile (· != '.')) = zeros
  cases plainDigits? (cs.takeWhile (· != '.')) with
  | none => simp
  | some digits =>
    cases zeros with
    | false => simp
    | true =>
      by_cases long : maxIntegerDigits < digits.length
      · simp [long]
      · simp [long, Nat.not_lt.mp long]

/-- Exactly the numerals are read as integers. -/
theorem exists_integerOfText_iff {s : String} : (∃ n, integerOfText s = .ok n) ↔ IsNumeral s := by
  have parts : integerOfText s = unsignedInteger (Scalar.dropSign (trimBy isNumeralBlank s.toList)).1
      (Scalar.dropSign (trimBy isNumeralBlank s.toList)).2 := by
    unfold integerOfText unsignedInteger Scalar.dropSign
    generalize trimBy isNumeralBlank s.toList = cs
    obtain _ | ⟨c, cs⟩ := cs
    · rfl
    · by_cases minus : c = '-'
      · subst minus
        rfl
      · by_cases plus : c = '+'
        · subst plus
          rfl
        · simp only [List.cons.injEq, minus, plus, false_and, imp_self, implies_true]
          rfl
  rw [parts, exists_unsignedInteger_iff, IsNumeral]
  generalize trimBy isNumeralBlank s.toList = cs
  have signed {c : Char} (sign : isAsciiDigit c = false) (listed : [c] ∈ [[], ['-'], ['+']]) (rest : List Char) :
      Unsigned rest ↔
        ∃ sign unsigned, c :: rest = sign ++ unsigned ∧ sign ∈ [[], ['-'], ['+']] ∧ Unsigned unsigned := by
    refine ⟨fun numeral => ⟨[c], rest, rfl, listed, numeral⟩, ?_⟩
    rintro ⟨own, unsigned, shape, known, numeral⟩
    simp only [List.mem_cons, List.not_mem_nil, or_false] at known
    obtain rfl | rfl | rfl := known
    · rw [List.nil_append] at shape
      exact absurd (shape ▸ numeral) (not_unsigned_cons sign rest)
    · exact (List.cons.inj shape).2 ▸ numeral
    · exact (List.cons.inj shape).2 ▸ numeral
  unfold Scalar.dropSign
  split
  · next rest => exact signed rfl (by decide) rest
  · next rest => exact signed rfl (by decide) rest
  · next no_minus no_plus =>
    refine ⟨fun numeral => ⟨[], cs, rfl, by decide, numeral⟩, ?_⟩
    rintro ⟨own, unsigned, rfl, known, numeral⟩
    simp only [List.mem_cons, List.not_mem_nil, or_false] at known
    obtain rfl | rfl | rfl := known
    · exact numeral
    · exact absurd rfl (no_minus unsigned)
    · exact absurd rfl (no_plus unsigned)

/-- A floating-point number that is an integer of less than 64 bits. -/
def IsWhole (x : Float) : Prop :=
  x.isNaN = false ∧ x.isInf = false ∧ ∃ n < Nat.pow 2 63, (Binary.ofFloat x).numerator = n * binaryDenominator

/-- Exactly the whole numbers of less than 64 bits are read as integers. -/
theorem exists_integerOfFloat_iff {x : Float} : (∃ n, integerOfFloat x = .ok n) ↔ IsWhole x := by
  have positive : 0 < binaryDenominator := by decide +kernel
  unfold integerOfFloat IsWhole
  split
  · next special =>
    refine iff_of_false (by simp) ?_
    rintro ⟨number, finite, -⟩
    rw [number, finite] at special
    cases special
  · next finite =>
    rw [Bool.not_eq_true, Bool.or_eq_false_iff] at finite
    dsimp only
    split
    · next fraction =>
      refine iff_of_false (by simp) ?_
      rintro ⟨-, -, n, -, whole⟩
      rw [whole, Nat.mul_mod_left] at fraction
      cases fraction
    · next whole =>
      rw [bne_iff_ne, not_not] at whole
      have shape : (Binary.ofFloat x).numerator =
          (Binary.ofFloat x).numerator / binaryDenominator * binaryDenominator :=
        (Nat.div_mul_cancel (Nat.dvd_of_mod_eq_zero whole)).symm
      have only {n : Nat} (same : (Binary.ofFloat x).numerator = n * binaryDenominator) :
          (Binary.ofFloat x).numerator / binaryDenominator = n := by
        rw [same, Nat.mul_div_cancel n positive]
      split
      · next large =>
        refine iff_of_false (by simp) ?_
        rintro ⟨-, -, n, small, same⟩
        rw [only same] at large
        exact absurd (Int.ofNat_le.mp large) (Nat.not_le.mpr small)
      · next small =>
        refine iff_of_true ⟨_, rfl⟩ ⟨finite.1, finite.2, _, ?_, shape⟩
        exact Nat.not_le.mp fun large => small (Int.ofNat_le.mpr large)

/-- The values that count for a kind of field: strings for a text; for a truth value also zero and one, as integers or
floating-point numbers, and some words in any case; for an integer also truth values, floating-point numbers that are
whole, and numerals. -/
inductive Counts : ArgumentKind → Json → Prop
  | text (s : String) : Counts .text (.str s)
  | truth (b : Bool) : Counts .truth (.bool b)
  | bit {n : Int} (bit : n = 0 ∨ n = 1) : Counts .truth (.int n)
  | floatBit {x : Float} (bit : (x == 0.0) = true ∨ (x == 1.0) = true) : Counts .truth (.float x)
  | word {s : String} (listed : s.map Char.toLower ∈
      ["1", "t", "true", "y", "yes", "on", "0", "f", "false", "n", "no", "off"]) : Counts .truth (.str s)
  | integer (n : Int) : Counts .integer (.int n)
  | truthInteger (b : Bool) : Counts .integer (.bool b)
  | whole {x : Float} (whole : IsWhole x) : Counts .integer (.float x)
  | numeral {s : String} (numeral : IsNumeral s) : Counts .integer (.str s)

/-- A way to read values takes just some of them. -/
def Judges {α : Type} (read : Json → Except Refusal α) (accepted : Json → Prop) : Prop :=
  ∀ v, (∃ a, read v = .ok a) ↔ accepted v

theorem judges_text : Judges text (Counts .text) := by
  intro v
  cases v with
  | str s => exact iff_of_true ⟨s, rfl⟩ (.text s)
  | _ => exact iff_of_false nofun nofun

theorem judges_truth : Judges truth (Counts .truth) := by
  intro v
  cases v with
  | bool b => exact iff_of_true ⟨b, rfl⟩ (.truth b)
  | int n =>
    have bit : (∃ b, truth (.int n) = .ok b) ↔ n = 0 ∨ n = 1 := by
      unfold truth
      split <;> simp_all
    refine bit.trans ⟨.bit, ?_⟩
    rintro ⟨⟩
    assumption
  | float x =>
    have bit : (∃ b, truth (.float x) = .ok b) ↔ (x == 0.0) = true ∨ (x == 1.0) = true := by
      change (∃ b, (if (x == 0.0) = true then .ok false else if (x == 1.0) = true then .ok true
        else .error .truthType : Except Refusal Bool) = .ok b) ↔ _
      split
      · next zero => simp [zero]
      · next nonzero =>
        split
        · next one => simp [one]
        · next neither => simp [nonzero, neither]
    refine bit.trans ⟨.floatBit, ?_⟩
    rintro ⟨⟩
    assumption
  | str s =>
    have listed : (∃ b, truth (.str s) = .ok b) ↔ s.map Char.toLower ∈ trueTexts ++ falseTexts := by
      unfold truth
      dsimp only
      split
      · next yes => simp_all
      · next other =>
        split
        · next no => simp_all
        · next neither => simp_all
    refine listed.trans ⟨.word, ?_⟩
    rintro ⟨⟩
    assumption
  | null | arr | obj => exact iff_of_false nofun nofun

theorem judges_integer : Judges integer (Counts .integer) := by
  intro v
  cases v with
  | bool b => exact iff_of_true ⟨_, rfl⟩ (.truthInteger b)
  | int n => exact iff_of_true ⟨n, rfl⟩ (.integer n)
  | float x => 
    refine exists_integerOfFloat_iff.trans ⟨.whole, ?_⟩
    rintro ⟨⟩
    assumption
  | str s => 
    refine exists_integerOfText_iff.trans ⟨.numeral, ?_⟩
    rintro ⟨⟩
    assumption
  | null | arr | obj => exact iff_of_false nofun nofun

/-- What may be null is taken like what may not, and null in addition. -/
theorem Judges.optional {α : Type} {read : Json → Except Refusal α} {kind : ArgumentKind}
    (judges : Judges read (Counts kind)) : Judges (optional read) fun v => Counts kind v ∨ v = .null := by
  intro v
  have mapped : (∃ a, (read v).map some = .ok a) ↔ Counts kind v := by
    rw [← judges v]
    cases read v <;> simp [Except.map]
  cases v with
  | null => exact iff_of_true ⟨none, rfl⟩ (.inr rfl)
  | _ => exact mapped.trans (or_iff_left nofun).symm

end Coercion
end CodeAgent
