import CodeAgent.Json.Value
import CodeAgent.Decimal.Binary
import CodeAgent.Decimal.Digits
import CodeAgent.Text.Blank
import CodeAgent.Json.Reader
import CodeAgent.Text.Search
import CodeAgent.ToolCall.Basic

/-! Scalars written as text: truth values, numbers and strings. -/
namespace CodeAgent.Scalar
open CodeAgent.Text CodeAgent.Decimal

/-- An optional sign, and whether it is a minus. -/
def dropSign : List Char → Bool × List Char
  | '-' :: cs => (true, cs)
  | '+' :: cs => (false, cs)
  | cs => (false, cs)

/-- The digits of an integer numeral, with its sign. -/
def integer? (cs : List Char) : Option (Bool × List Char) :=
  let (negative, digits) := dropSign cs
  if !digits.isEmpty && digits.all isDigitChar then some (negative, digits) else none

/-- The exponent that ends a numeral: nothing, or a letter, a sign and digits. -/
def exponent? : List Char → Option Int
  | [] => some 0
  | e :: cs =>
    if e == 'e' || e == 'E' then
      (integer? cs).map fun (negative, digits) =>
        let n : Int := digitsValue digits
        if negative then -n else n
    else none

/-- A numeral with a fraction or an exponent. -/
def real? (cs : List Char) : Option Float :=
  let (negative, unsigned) := dropSign cs
  let (whole, rest) := unsigned.span isDigitChar
  let (fraction, rest, pointed) := match rest with
    | '.' :: more =>
      let (digits, after) := more.span isDigitChar
      (digits, after, true)
    | _ => ([], rest, false)
  if whole.isEmpty && (!pointed || fraction.isEmpty) then none
  else (exponent? rest).map fun e =>
    toFloat negative (digitsValue (whole ++ fraction)) (e - fraction.length)

/-- The value of a trimmed text, or nothing if it is an integer of too many digits. -/
def ofChars? (cs : List Char) : Option Json :=
  if cs == ['t', 'r', 'u', 'e'] then some (.bool true)
  else if cs == ['f', 'a', 'l', 's', 'e'] then some (.bool false)
  else match integer? cs with
    | some (negative, digits) =>
      if maxIntegerDigits < digits.length then none
      else
        let n : Int := digitsValue digits
        some (.int (if negative then -n else n))
    | none => match real? cs with
      | some x => some (.float x)
      | none => some (.str (String.ofList cs))

/-- The value of a text: a truth value, an integer, another number, or else the trimmed text. An
integer of too many digits has no value. -/
def ofText? (s : String) : Option Json :=
  ofChars? (trimChars s.toList)

end CodeAgent.Scalar

/-! Markup text: character entities, verbatim sections, and the call that decoded values make. -/
namespace CodeAgent.Markup
open CodeAgent.Text CodeAgent.Decimal

/-- The five named entities. -/
def namedEntities : List (List Char × Char) :=
  [(['l', 't'], '<'), (['g', 't'], '>'), (['a', 'm', 'p'], '&'), (['q', 'u', 'o', 't'], '"'),
    (['a', 'p', 'o', 's'], '\'')]

private def validChar? (n : Nat) : Option Char :=
  if n.isValidChar then some (Char.ofNat n) else none

private def hexNumber? (cs : List Char) : Option Nat :=
  if cs.isEmpty then none
  else cs.foldl (fun n c => do some ((← n) * 16 + (← Json.hexValue? c))) (some 0)

/-- The character that the text between an ampersand and a semicolon names. -/
def entityChar? : List Char → Option Char
  | '#' :: 'x' :: digits => (hexNumber? digits).bind validChar?
  | '#' :: 'X' :: digits => (hexNumber? digits).bind validChar?
  | '#' :: digits =>
    if !digits.isEmpty && digits.all Char.isDigit && digits.length ≤ maxIntegerDigits then
      validChar? (digitsValue digits)
    else none
  | name => (namedEntities.find? (·.1 == name)).map (·.2)

/-- The character of an entity after its ampersand, and the text after its semicolon. -/
def entity? (cs : List Char) : Option (Char × List Char) :=
  match cs.dropWhile (· != ';') with
  | [] => none
  | _ :: rest => (entityChar? (cs.takeWhile (· != ';'))).map fun c => (c, rest)

theorem entity?_length {cs rest : List Char} {c : Char} (h : entity? cs = some (c, rest)) :
    rest.length < cs.length := by
  unfold entity? at h
  split at h
  · contradiction
  · next d more hd =>
    simp only [Option.map_eq_some_iff, Prod.mk.injEq] at h
    obtain ⟨_, _, _, rfl⟩ := h
    have := (List.dropWhile_suffix (l := cs) (· != ';')).length_le
    rw [hd] at this
    simp only [List.length_cons] at this
    omega

/-- Decode every entity once, from left to right; what is no entity stays as it is. -/
def unescape : List Char → List Char
  | [] => []
  | c :: cs =>
    if c = '&' then
      match h : entity? cs with
      | some (d, rest) =>
        have := entity?_length h
        d :: unescape rest
      | none => '&' :: unescape cs
    else c :: unescape cs
termination_by cs => cs.length
decreasing_by
  all_goals simp only [List.length_cons]
  all_goals omega

/-- The start of a verbatim section. -/
def verbatimOpen : List Char := ['<', '!', '[', 'C', 'D', 'A', 'T', 'A', '[']

/-- The end of a verbatim section. -/
def verbatimClose : List Char := [']', ']', '>']

/-- The text before the first verbatim section, the text inside it, and the text after it. -/
def section? (cs : List Char) : Option (List Char × List Char × List Char) := do
  let (before, rest) ← cutAt? verbatimOpen cs
  let (inside, after) ← cutAt? verbatimClose rest
  some (before, inside, after)

theorem section?_length {cs before inside after : List Char}
    (h : section? cs = some (before, inside, after)) : after.length < cs.length := by
  unfold section? at h
  cases hc : cutAt? verbatimOpen cs with
  | none => simp [hc] at h
  | some p =>
    obtain ⟨b, rest⟩ := p
    cases hd : cutAt? verbatimClose rest with
    | none => simp [hc, hd] at h
    | some q =>
      obtain ⟨i, a⟩ := q
      simp only [hc, hd, Option.bind_eq_bind, Option.bind_some, Option.some.injEq,
        Prod.mk.injEq] at h
      obtain ⟨rfl, rfl, rfl⟩ := h
      rw [cutAt?_eq_some hc, cutAt?_eq_some hd]
      simp [verbatimOpen, verbatimClose]
      omega

/-- Decode the text of an element: verbatim sections as they are, entities elsewhere. -/
def decodeText (cs : List Char) : List Char :=
  match h : section? cs with
  | none => unescape cs
  | some (before, inside, after) =>
    have := section?_length h
    unescape before ++ inside ++ decodeText after
termination_by cs.length

/-- A key with the scalar that a decoded text reads as, and with the trimmed text itself. There is none
for an integer of too many digits. -/
def entry? (key : String) (value : List Char) : Option (String × Json × String) :=
  let text := trimChars value
  (Scalar.ofChars? text).map fun v => (key, v, String.ofList text)

/-- The call that decoded values make under their keys; of a repeated key the last value counts.
There is none if a value is an integer of too many digits. -/
def call? (name : String) (values : List (String × List Char)) : Option ToolCall :=
  (values.mapM fun p => entry? p.1 p.2).map fun entries => {
    name
    parameters := OrderedMap.ofPairs (entries.map fun e => (e.1, e.2.1))
    rawText := OrderedMap.ofPairs (entries.map fun e => (e.1, e.2.2)) }

/-- The calls of what was found in a text from left to right, each with its offset, up to the first one
that has an integer of too many digits. -/
def callsOf {α : Type} (name : α → String) (values : α → List (String × List Char)) :
    List (Nat × α) → List (Nat × ToolCall)
  | [] => []
  | (offset, a) :: more =>
    if Tool.isAllowed (name a) then
      match call? (name a) (values a) with
      | some call => (offset, call) :: callsOf name values more
      | none => []
    else callsOf name values more

end CodeAgent.Markup
