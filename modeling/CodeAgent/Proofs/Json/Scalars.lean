import Mathlib.Data.List.TakeDrop
import Mathlib.Data.List.TakeWhile
import CodeAgent.Proofs.Json.Strings

/-! The values of JSON that are no arrays and no objects: each is read from a part of a text, and from that
part wherever a number cannot go on after it. -/
namespace CodeAgent.Json

/-- A decimal digit. -/
def isDigit (c : Char) : Bool := '0' ≤ c && c ≤ '9'

/-- No digit comes next. -/
def NoDigit (cs : List Char) : Prop := ∀ c ∈ cs.head?, isDigit c = false

/-- Nothing comes next that could go on a number. -/
def Stops (cs : List Char) : Prop :=
  ∀ c ∈ cs.head?, isDigit c = false ∧ c ≠ '.' ∧ c ≠ 'e' ∧ c ≠ 'E'

theorem Stops.noDigit {cs : List Char} (stops : Stops cs) : NoDigit cs := fun c hc => (stops c hc).1

private theorem isPlain_of_isDigit {c : Char} (digit : isDigit c = true) : isPlain c = true := by
  simp only [isPlain, Bool.and_eq_true, bne_iff_ne]
  refine ⟨⟨⟨⟨?_, ?_⟩, ?_⟩, ?_⟩, ?_⟩
  all_goals
    rintro rfl
    exact absurd digit (by decide)

private theorem isPlain_of_digits {ds : List Char} (digits : ∀ c ∈ ds, isDigit c = true) :
    ∀ c ∈ ds, isPlain c = true := fun c hc => isPlain_of_isDigit (digits c hc)

private theorem ne_of_isDigit {c d : Char} (digit : isDigit c = true) (other : isDigit d = false) :
    c ≠ d := by
  rintro rfl
  rw [digit] at other
  contradiction

theorem spanDigits_local {cs ds rest : List Char} (span : spanDigits cs = (ds, rest)) :
    cs = ds ++ rest ∧ (∀ c ∈ ds, isDigit c = true) ∧
      ∀ other, NoDigit other → spanDigits (ds ++ other) = (ds, other) := by
  rw [spanDigits, List.span_eq_takeWhile_dropWhile] at span
  cases span
  have digits : ∀ c ∈ cs.takeWhile isDigit, isDigit c = true := fun c hc => List.mem_takeWhile_imp hc
  refine ⟨List.takeWhile_append_dropWhile.symm, digits, fun other ends => ?_⟩
  rw [spanDigits, List.span_eq_takeWhile_dropWhile]
  change (List.takeWhile isDigit (cs.takeWhile isDigit ++ other),
    List.dropWhile isDigit (cs.takeWhile isDigit ++ other)) = (cs.takeWhile isDigit, other)
  rw [List.takeWhile_append_of_pos digits, List.dropWhile_append_of_pos digits]
  cases other with
  | nil => simp
  | cons c other =>
    have stop : isDigit c = false := ends c rfl
    simp [stop]

theorem wholePart?_local {cs ds rest : List Char} (whole : wholePart? cs = some (ds, rest)) :
    cs = ds ++ rest ∧ ds ≠ [] ∧ (∀ c ∈ ds, isDigit c = true) ∧
      ∀ other, NoDigit other → wholePart? (ds ++ other) = some (ds, other) := by
  unfold wholePart? at whole
  split at whole
  · next tail =>
    cases whole
    exact ⟨rfl, by simp, List.all_eq_true.mp rfl, fun other _ => rfl⟩
  · next no_zero =>
    cases span : spanDigits cs with
    | mk digits after =>
      rw [span] at whole
      obtain ⟨rfl, digit, again⟩ := spanDigits_local span
      cases digits with
      | nil => contradiction
      | cons d ds' =>
        cases whole
        refine ⟨rfl, by simp, digit, fun other ends => ?_⟩
        have first : d ≠ '0' := by
          rintro rfl
          exact no_zero _ rfl
        rw [wholePart?]
        · rw [again other ends]
          rfl
        · rintro tail same
          cases same
          exact first rfl

theorem fractionPart?_local {cs ds rest : List Char} (fraction : fractionPart? cs = some (ds, rest)) :
    cs = '.' :: (ds ++ rest) ∧ (∀ c ∈ ds, isDigit c = true) ∧
      ∀ other, NoDigit other → fractionPart? ('.' :: (ds ++ other)) = some (ds, other) := by
  unfold fractionPart? at fraction
  split at fraction
  · next tail =>
    cases span : spanDigits tail with
    | mk digits after =>
      rw [span] at fraction
      obtain ⟨rfl, digit, again⟩ := spanDigits_local span
      cases digits with
      | nil => contradiction
      | cons d digits =>
        cases fraction
        refine ⟨rfl, digit, fun other ends => ?_⟩
        rw [fractionPart?, again other ends]
        rfl
  · contradiction

theorem fractionPart?_none {cs : List Char} (other : ∀ c ∈ cs.head?, c ≠ '.') : fractionPart? cs = none := by
  unfold fractionPart?
  split
  · next tail => exact absurd rfl (other '.' rfl)
  · rfl

theorem signedDigits?_local {negative : Bool} {cs rest : List Char} {n : Int}
    (signed : signedDigits? negative cs = some (n, rest)) :
    ∃ ds, cs = ds ++ rest ∧ ds ≠ [] ∧ (∀ c ∈ ds, isDigit c = true) ∧
      ∀ other, NoDigit other → signedDigits? negative (ds ++ other) = some (n, other) := by
  unfold signedDigits? at signed
  cases span : spanDigits cs with
  | mk digits after =>
    rw [span] at signed
    obtain ⟨rfl, digit, again⟩ := spanDigits_local span
    cases digits with
    | nil => contradiction
    | cons d digits =>
      dsimp only [List.isEmpty_cons] at signed
      obtain ⟨rfl, rfl⟩ := Prod.mk.inj (Option.some.inj signed)
      refine ⟨d :: digits, rfl, by simp, digit, fun other ends => ?_⟩
      rw [signedDigits?, again other ends]
      rfl

theorem exponentPart?_local {cs rest : List Char} {n : Int} (exponent : exponentPart? cs = some (n, rest)) :
    ∃ e used, (e = 'e' ∨ e = 'E') ∧ cs = e :: (used ++ rest) ∧ (∀ c ∈ used, isPlain c = true) ∧
      ∀ other, NoDigit other → exponentPart? (e :: (used ++ other)) = some (n, other) := by
  unfold exponentPart? at exponent
  split at exponent
  · next e tail =>
    split at exponent
    · next mark =>
      have letter : e = 'e' ∨ e = 'E' := by simpa using mark
      split at exponent
      · next more =>
        obtain ⟨ds, rfl, -, digit, again⟩ := signedDigits?_local exponent
        refine ⟨e, '-' :: ds, letter, rfl, ?_, fun other ends => ?_⟩
        · exact List.forall_mem_cons.mpr ⟨rfl, isPlain_of_digits digit⟩
        · simp only [List.cons_append, exponentPart?, mark, if_true]
          exact again other ends
      · next more =>
        obtain ⟨ds, rfl, -, digit, again⟩ := signedDigits?_local exponent
        refine ⟨e, '+' :: ds, letter, rfl, ?_, fun other ends => ?_⟩
        · exact List.forall_mem_cons.mpr ⟨rfl, isPlain_of_digits digit⟩
        · simp only [List.cons_append, exponentPart?, mark, if_true]
          exact again other ends
      · obtain ⟨ds, rfl, some_digit, digit, again⟩ := signedDigits?_local exponent
        refine ⟨e, ds, letter, rfl, isPlain_of_digits digit, fun other ends => ?_⟩
        cases ds with
        | nil => contradiction
        | cons d ds =>
          have first := digit d (by simp)
          rw [exponentPart?, if_pos mark]
          · exact again other ends
          · rintro more same
            cases same
            exact absurd first (by decide)
          · rintro more same
            cases same
            exact absurd first (by decide)
    · contradiction
  · contradiction

theorem exponentPart?_none {cs : List Char} (other : ∀ c ∈ cs.head?, c ≠ 'e' ∧ c ≠ 'E') :
    exponentPart? cs = none := by
  unfold exponentPart?
  split
  · next e tail =>
    obtain ⟨lower, upper⟩ := other e rfl
    simp [lower, upper]
  · rfl

theorem head_append {next : Char → Prop} {cs ds : List Char} (first : ∀ c ∈ cs.head?, next c)
    (second : ∀ c ∈ ds.head?, next c) : ∀ c ∈ (cs ++ ds).head?, next c := by
  cases cs with
  | nil => exact second
  | cons c cs => exact first

theorem fractionAt_local {cs ds rest : List Char} {found : Bool} (fraction : fractionAt cs = (ds, rest, found)) :
    ∃ used, cs = used ++ rest ∧ (∀ c ∈ used.head?, c = '.') ∧ (∀ c ∈ used, isPlain c = true) ∧
      ∀ other, (∀ c ∈ other.head?, isDigit c = false ∧ c ≠ '.') →
        fractionAt (used ++ other) = (ds, other, found) := by
  unfold fractionAt at fraction
  cases part : fractionPart? cs with
  | none =>
    rw [part] at fraction
    cases fraction
    refine ⟨[], rfl, by simp, by simp, fun other ends => ?_⟩
    rw [List.nil_append, fractionAt, fractionPart?_none fun c hc => (ends c hc).2]
  | some made =>
    obtain ⟨ds', after⟩ := made
    rw [part] at fraction
    cases fraction
    obtain ⟨rfl, digit, again⟩ := fractionPart?_local part
    refine ⟨'.' :: ds, rfl, by simp, ?_, fun other ends => ?_⟩
    · exact List.forall_mem_cons.mpr ⟨rfl, isPlain_of_digits digit⟩
    · rw [List.cons_append, fractionAt, again other fun c hc => (ends c hc).1]

theorem exponentAt_local {cs rest : List Char} {n : Int} {found : Bool}
    (exponent : exponentAt cs = (n, rest, found)) :
    ∃ used, cs = used ++ rest ∧ (∀ c ∈ used.head?, c = 'e' ∨ c = 'E') ∧
      (∀ c ∈ used, isPlain c = true) ∧
      ∀ other, Stops other → exponentAt (used ++ other) = (n, other, found) := by
  unfold exponentAt at exponent
  cases part : exponentPart? cs with
  | none =>
    rw [part] at exponent
    cases exponent
    refine ⟨[], rfl, by simp, by simp, fun other stops => ?_⟩
    rw [List.nil_append, exponentAt, exponentPart?_none fun c hc => (stops c hc).2.2]
  | some made =>
    obtain ⟨n', after⟩ := made
    rw [part] at exponent
    cases exponent
    obtain ⟨e, used, letter, rfl, flat, again⟩ := exponentPart?_local part
    refine ⟨e :: used, rfl, by simpa using letter, ?_, fun other stops => ?_⟩
    · have mark : isPlain e = true := by
        obtain rfl | rfl := letter <;> decide
      exact List.forall_mem_cons.mpr ⟨mark, flat⟩
    · rw [List.cons_append, exponentAt, again other stops.noDigit]

/-- No array and no object. -/
def IsScalar (v : Json) : Prop := v.arr? = none ∧ v.obj? = none

theorem numberOf_isScalar {negative isFloat : Bool} {whole fraction : List Char} {exponent : Int}
    {v : Json} (made : numberOf negative isFloat whole fraction exponent = .ok v) : IsScalar v := by
  unfold numberOf at made
  split at made
  · cases made
    exact ⟨rfl, rfl⟩
  · split at made
    · contradiction
    · cases made
      exact ⟨rfl, rfl⟩

theorem readUnsigned_local {negative : Bool} {cs rest : List Char} {v : Json}
    (read : readUnsigned negative cs = .ok (v, rest)) :
    ∃ d used, isDigit d = true ∧ cs = d :: (used ++ rest) ∧ (∀ c ∈ used, isPlain c = true) ∧
      IsScalar v ∧ ∀ other, Stops other → readUnsigned negative (d :: (used ++ other)) = .ok (v, other) := by
  unfold readUnsigned at read
  cases hw : wholePart? cs with
  | none =>
    rw [hw] at read
    contradiction
  | some made =>
    obtain ⟨whole, rest₁⟩ := made
    obtain ⟨rfl, some_digit, digit, whole_again⟩ := wholePart?_local hw
    cases hf : fractionAt rest₁ with
    | mk fraction tail =>
    obtain ⟨rest₂, hasFraction⟩ := tail
    obtain ⟨used₁, rfl, point, flat₁, fraction_again⟩ := fractionAt_local hf
    cases he : exponentAt rest₂ with
    | mk exponent tail =>
    obtain ⟨rest₃, hasExponent⟩ := tail
    obtain ⟨used₂, rfl, letter, flat₂, exponent_again⟩ := exponentAt_local he
    simp only [hw, hf, he] at read
    cases hn : numberOf negative (hasFraction || hasExponent) whole fraction exponent with
    | error e =>
      rw [hn] at read
      contradiction
    | ok v' =>
      rw [hn] at read
      cases read
      cases whole with
      | nil => contradiction
      | cons d ds =>
        refine ⟨d, ds ++ (used₁ ++ used₂), digit d (by simp), by simp, ?_, numberOf_isScalar hn,
          fun other stops => ?_⟩
        · have digits : ∀ c ∈ ds, isDigit c = true := fun c hc => digit c (by simp [hc])
          exact List.forall_mem_append.mpr
            ⟨isPlain_of_digits digits, List.forall_mem_append.mpr ⟨flat₁, flat₂⟩⟩
        · have regroup : d :: (ds ++ (used₁ ++ used₂) ++ other) =
              (d :: ds) ++ (used₁ ++ (used₂ ++ other)) := by simp
          have after₁ : ∀ c ∈ (used₂ ++ other).head?, isDigit c = false ∧ c ≠ '.' := by
            refine head_append (fun c hc => ?_) fun c hc => ⟨(stops c hc).1, (stops c hc).2.1⟩
            obtain rfl | rfl := letter c hc <;> decide
          have after₀ : NoDigit (used₁ ++ (used₂ ++ other)) := by
            refine head_append (fun c hc => ?_) fun c hc => (after₁ c hc).1
            rw [point c hc]
            decide
          rw [regroup, readUnsigned, whole_again _ after₀]
          simp only [fraction_again _ after₁, exponent_again other stops, hn]
          rfl

theorem readNumber_local {cs rest : List Char} {v : Json} (read : readNumber cs = .ok (v, rest)) :
    ∃ d used, (isDigit d = true ∨ d = '-' ∧ ∃ e more, isDigit e = true ∧ used = e :: more) ∧
      cs = d :: (used ++ rest) ∧ (∀ c ∈ d :: used, isPlain c = true) ∧
      IsScalar v ∧ ∀ other, Stops other → readNumber (d :: (used ++ other)) = .ok (v, other) := by
  unfold readNumber at read
  split at read
  · next tail =>
    obtain ⟨d, used, digit, rfl, flat, scalar, again⟩ := readUnsigned_local read
    refine ⟨'-', d :: used, .inr ⟨rfl, d, used, digit, rfl⟩, rfl, ?_, scalar, fun other stops => ?_⟩
    · exact List.forall_mem_cons.mpr ⟨rfl, List.forall_mem_cons.mpr ⟨isPlain_of_isDigit digit, flat⟩⟩
    · rw [List.cons_append, readNumber]
      exact again other stops
  · obtain ⟨d, used, digit, rfl, flat, scalar, again⟩ := readUnsigned_local read
    refine ⟨d, used, .inl digit, rfl, ?_, scalar, fun other stops => ?_⟩
    · exact List.forall_mem_cons.mpr ⟨isPlain_of_isDigit digit, flat⟩
    · rw [readNumber]
      · exact again other stops
      · rintro tail same
        cases same
        exact absurd digit (by decide)

theorem readScalar_number {c : Char} {cs : List Char}
    (number : isDigit c = true ∨ c = '-' ∧ ∃ e more, isDigit e = true ∧ cs = e :: more) :
    readScalar (c :: cs) = readNumber (c :: cs) := by
  have first (x : Char) (letter : isDigit x = false ∧ x ≠ '-') : c ≠ x := by
    rintro rfl
    obtain digit | ⟨mark, -⟩ := number
    · rw [digit] at letter
      exact absurd letter.1 (by simp)
    · exact letter.2 mark
  rw [readScalar]
  all_goals
    intro rest same
    obtain ⟨same, tail⟩ := List.cons.inj same
  · exact first '"' (by decide) same
  · exact first 'n' (by decide) same
  · exact first 't' (by decide) same
  · exact first 'f' (by decide) same
  · exact first 'N' (by decide) same
  · exact first 'I' (by decide) same
  · obtain digit | ⟨-, e, more, digit, rfl⟩ := number
    · rw [same] at digit
      exact absurd digit (by decide)
    · cases tail
      exact absurd digit (by decide)

/-- A text that starts like no array and no object. -/
def StartsScalar (cs : List Char) : Prop := ∀ c ∈ cs.head?, c ≠ '[' ∧ c ≠ '{'

theorem readScalar_local {cs rest : List Char} {v : Json} (read : readScalar cs = .ok (v, rest)) :
    ∃ used, cs = used ++ rest ∧ used ≠ [] ∧ StartsScalar used ∧ Balanced used ∧ IsScalar v ∧
      ∀ other, Stops other → readScalar (used ++ other) = .ok (v, other) := by
  have word (text : List Char) (filled : text ≠ []) (starts : StartsScalar text)
      (flat : text.all isPlain = true) (scalar : IsScalar v)
      (again : ∀ other, readScalar (text ++ other) = .ok (v, other)) :
      ∃ used, text ++ rest = used ++ rest ∧ used ≠ [] ∧ StartsScalar used ∧ Balanced used ∧ IsScalar v ∧
        ∀ other, Stops other → readScalar (used ++ other) = .ok (v, other) :=
    ⟨text, rfl, filled, starts, .of_plain (List.all_eq_true.mp flat), scalar, fun other _ => again other⟩
  unfold readScalar at read
  split at read
  · next tail =>
    cases made : readString tail with
    | error e =>
      rw [made] at read
      contradiction
    | ok out =>
      obtain ⟨text, after⟩ := out
      rw [made] at read
      cases read
      obtain ⟨used, rfl, closed, again⟩ := readString_local made
      refine ⟨'"' :: (used ++ ['"']), by simp, by simp, by simp [StartsScalar], ?_, ⟨rfl, rfl⟩,
        fun other _ => ?_⟩
      · have whole := Balanced.string closed .nil
        rwa [List.append_nil] at whole
      · have regroup : '"' :: (used ++ ['"']) ++ other = '"' :: (used ++ '"' :: other) := by simp
        rw [regroup, readScalar, again other]
        rfl
  · cases read
    exact word ['n', 'u', 'l', 'l'] (by simp) (by simp [StartsScalar]) (by decide) ⟨rfl, rfl⟩ fun _ => rfl
  · cases read
    exact word ['t', 'r', 'u', 'e'] (by simp) (by simp [StartsScalar]) (by decide) ⟨rfl, rfl⟩ fun _ => rfl
  · cases read
    exact word ['f', 'a', 'l', 's', 'e'] (by simp) (by simp [StartsScalar]) (by decide) ⟨rfl, rfl⟩
      fun _ => rfl
  · cases read
    exact word ['N', 'a', 'N'] (by simp) (by simp [StartsScalar]) (by decide) ⟨rfl, rfl⟩ fun _ => rfl
  · cases read
    exact word ['I', 'n', 'f', 'i', 'n', 'i', 't', 'y'] (by simp) (by simp [StartsScalar]) (by decide)
      ⟨rfl, rfl⟩ fun _ => rfl
  · cases read
    exact word ['-', 'I', 'n', 'f', 'i', 'n', 'i', 't', 'y'] (by simp) (by simp [StartsScalar]) (by decide)
      ⟨rfl, rfl⟩ fun _ => rfl
  · obtain ⟨d, used, number, rfl, flat, scalar, again⟩ := readNumber_local read
    refine ⟨d :: used, rfl, by simp, ?_, .of_plain flat, scalar, fun other stops => ?_⟩
    · intro c hc
      cases hc
      obtain digit | ⟨rfl, -⟩ := number
      · exact ⟨ne_of_isDigit digit (by decide), ne_of_isDigit digit (by decide)⟩
      · decide
    · rw [List.cons_append, readScalar_number, again other stops]
      obtain digit | ⟨mark, e, more, digit, rfl⟩ := number
      · exact .inl digit
      · exact .inr ⟨mark, e, more ++ other, digit, rfl⟩

theorem readValue_scalar {depth : Nat} {cs : List Char} (starts : StartsScalar cs) :
    readValue depth cs = readScalar cs := by
  unfold readValue
  split
  · exact absurd rfl (starts '[' rfl).1
  · exact absurd rfl (starts '{' rfl).2
  · exact absurd rfl (starts '[' rfl).1
  · exact absurd rfl (starts '{' rfl).2
  · rfl

end CodeAgent.Json
