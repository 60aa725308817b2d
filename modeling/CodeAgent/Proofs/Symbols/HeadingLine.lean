import CodeAgent.Proofs.Text.Blank
import CodeAgent.Symbols.Headings

/-! Which lines are headings: those that can be split into the parts of a heading, and of all the ways to split a line
the one with the longest gap, and then with the shortest title, gives its title. -/
namespace CodeAgent.Heading
open CodeAgent.Text

/-- The parts of a heading. -/
structure Parts where
  indent : List Char
  marks : List Char
  gap : List Char
  title : List Char
  closing : List Char

/-- Spaces and tabs around hash signs, all of which may be missing. -/
def Closes (cs : List Char) : Prop :=
  ∃ before hashes after, cs = before ++ (hashes ++ after) ∧ (∀ c ∈ before, isGap c = true) ∧
    (∀ c ∈ hashes, c = '#') ∧ ∀ c ∈ after, isGap c = true

/-- What follows the marks of a heading is a gap, a title, and what closes it. -/
structure Splits (rest gap title closing : List Char) : Prop where
  whole : gap ++ (title ++ closing) = rest
  gap_ne_nil : gap ≠ []
  gap_blank : ∀ c ∈ gap, isGap c = true
  title_ne_nil : title ≠ []
  closes : Closes closing

/-- A line has the parts of a heading: at most three spaces, one to six hash signs, and the others. -/
structure Parts.Of (p : Parts) (line : List Char) : Prop where
  whole : p.indent ++ (p.marks ++ (p.gap ++ (p.title ++ p.closing))) = line
  indent_short : p.indent.length ≤ 3
  indent_blank : ∀ c ∈ p.indent, c = ' '
  marks_many : 1 ≤ p.marks.length
  marks_few : p.marks.length ≤ maxLevel
  marks_hash : ∀ c ∈ p.marks, c = '#'
  splits : Splits (p.gap ++ (p.title ++ p.closing)) p.gap p.title p.closing

/-- A gap and a title go before others if the gap is longer, or if it is as long and the title is no longer. -/
def GoesBefore (gap title gap' title' : List Char) : Prop :=
  gap'.length < gap.length ∨ gap'.length = gap.length ∧ title.length ≤ title'.length

/-- Of all ways to split a line into the parts of a heading, this one goes before the others. -/
structure Parts.FirstOf (p : Parts) (line : List Char) : Prop where
  of : p.Of line
  first : ∀ q : Parts, q.Of line → GoesBefore p.gap p.title q.gap q.title

theorem isClosing_iff {cs : List Char} : isClosing cs = true ↔ Closes cs := by
  unfold isClosing
  rw [List.isEmpty_iff, List.dropWhile_eq_nil_iff]
  constructor
  · intro rest
    refine ⟨cs.takeWhile isGap, (cs.dropWhile isGap).takeWhile (· == '#'), _, ?_, ?_, ?_, rest⟩
    · rw [List.takeWhile_append_dropWhile, List.takeWhile_append_dropWhile]
    · exact fun c mem => List.mem_takeWhile_imp mem
    · exact fun c mem => by simpa using List.mem_takeWhile_imp mem
  · rintro ⟨before, hashes, after, rfl, blank, hash, rest⟩
    rw [List.dropWhile_append_of_pos blank]
    cases hashes with
    | nil =>
      have none : after.dropWhile isGap = [] := List.dropWhile_eq_nil_iff.mpr rest
      rw [List.nil_append, none]
      exact nofun
    | cons h hashes =>
      obtain rfl : h = '#' := hash h List.mem_cons_self
      have kept : ('#' :: hashes ++ after).dropWhile isGap = '#' :: hashes ++ after :=
        dropWhile_eq_self fun c same => Option.some.inj same ▸ rfl
      rw [kept, List.dropWhile_append_of_pos (by simpa using hash)]
      exact fun c mem => rest c ((List.dropWhile_suffix _).subset mem)

section titleOf
variable {cs : List Char}

theorem titleOf_ne_nil (filled : cs ≠ []) : titleOf cs ≠ [] := by
  cases cs with
  | nil => exact absurd rfl filled
  | cons c cs =>
    rw [titleOf]
    split
    · exact List.cons_ne_nil _ _
    · exact List.cons_ne_nil _ _

/-- After the title there is what closes a heading. -/
theorem exists_closing (cs : List Char) : ∃ closing, titleOf cs ++ closing = cs ∧ Closes closing := by
  induction cs with
  | nil => exact ⟨[], rfl, isClosing_iff.mp rfl⟩
  | cons c cs ih =>
    rw [titleOf]
    split
    · next ends => exact ⟨cs, rfl, isClosing_iff.mp ends⟩
    · obtain ⟨closing, whole, ends⟩ := ih
      exact ⟨closing, congrArg (c :: ·) whole, ends⟩

/-- No title is shorter. -/
theorem length_titleOf_le {title closing : List Char} (filled : title ≠ []) (ends : Closes closing) :
    (titleOf (title ++ closing)).length ≤ title.length := by
  induction title with
  | nil => exact absurd rfl filled
  | cons c title ih =>
    rw [List.cons_append, titleOf]
    split
    · exact Nat.succ_le_succ (Nat.zero_le _)
    · next open_end =>
      cases title with
      | nil => exact absurd (isClosing_iff.mpr ends) open_end
      | cons d title => exact Nat.succ_le_succ (ih (List.cons_ne_nil _ _))

end titleOf

/-- The title in what follows the marks of a heading. -/
def titleIn (rest : List Char) : List Char :=
  match rest.dropWhile isGap with
  | [] => (rest.takeWhile isGap).drop (max 1 ((rest.takeWhile isGap).length - 1))
  | text => titleOf text

section splits
variable {rest gap title closing : List Char}

theorem Splits.takeWhile_eq (splits : Splits rest gap title closing) :
    rest.takeWhile isGap = gap ++ (title ++ closing).takeWhile isGap := by
  rw [← splits.whole, List.takeWhile_append_of_pos splits.gap_blank]

/-- Where there is a gap and a title, they go before all others. -/
theorem exists_first_splits (gapped : rest.takeWhile isGap ≠ []) (titled : titleIn rest ≠ []) :
    ∃ gap closing, Splits rest gap (titleIn rest) closing ∧
      ∀ gap' title' closing', Splits rest gap' title' closing' → GoesBefore gap (titleIn rest) gap' title' := by
  cases text : rest.dropWhile isGap with
  | nil =>
    -- The line ends in its gap, so that the last character of the gap is the title.
    have all : rest.takeWhile isGap = rest := by
      have parts := List.takeWhile_append_dropWhile (p := isGap) (l := rest)
      rwa [text, List.append_nil] at parts
    have found : titleIn rest = rest.drop (max 1 (rest.length - 1)) := by rw [titleIn, text, all]
    have long : max 1 (rest.length - 1) < rest.length := by
      rw [found] at titled
      exact List.drop_eq_nil_iff.not.mp titled |> Nat.lt_of_not_le
    have last : titleIn rest = rest.drop (rest.length - 1) := by
      rw [found, Nat.max_eq_right (by omega)]
    refine ⟨rest.take (rest.length - 1), [], ⟨?_, ?_, ?_, titled, ⟨[], [], [], rfl, nofun, nofun, nofun⟩⟩, ?_⟩
    · rw [last, List.append_nil, List.take_append_drop]
    · refine List.ne_nil_of_length_pos ?_
      rw [List.length_take]
      omega
    · exact fun c mem => List.dropWhile_eq_nil_iff.mp text c (List.mem_of_mem_take mem)
    · intro gap' title' closing' others
      have length := congrArg List.length others.whole
      have filled := List.length_pos_iff.mpr others.title_ne_nil
      simp only [List.length_append] at length
      rw [last, GoesBefore, List.length_take, List.length_drop]
      omega
  | cons c more =>
    have found : titleIn rest = titleOf (rest.dropWhile isGap) := by
      unfold titleIn
      rw [text]
    obtain ⟨closing, whole, ends⟩ := exists_closing (rest.dropWhile isGap)
    rw [← found] at whole
    refine ⟨rest.takeWhile isGap, closing, ⟨?_, gapped, fun c mem => List.mem_takeWhile_imp mem, titled, ends⟩, ?_⟩
    · rw [whole, List.takeWhile_append_dropWhile]
    · intro gap' title' closing' others
      have longer := others.takeWhile_eq
      by_cases same : (title' ++ closing').takeWhile isGap = []
      · rw [same, List.append_nil] at longer
        refine .inr ⟨congrArg List.length longer.symm, ?_⟩
        have here : rest.dropWhile isGap = title' ++ closing' := by
          have parts := List.takeWhile_append_dropWhile (p := isGap) (l := rest)
          rw [longer] at parts
          exact List.append_cancel_left (parts.trans others.whole.symm)
        rw [found, here]
        exact length_titleOf_le others.title_ne_nil others.closes
      · left
        rw [longer, List.length_append]
        have := List.length_pos_iff.mpr same
        omega

theorem Splits.titled (splits : Splits rest gap title closing) :
    rest.takeWhile isGap ≠ [] ∧ titleIn rest ≠ [] := by
  have longer := splits.takeWhile_eq
  refine ⟨?_, ?_⟩
  · rw [longer]
    exact List.append_ne_nil_of_left_ne_nil splits.gap_ne_nil _
  · unfold titleIn
    split
    · next all =>
      have parts := List.takeWhile_append_dropWhile (p := isGap) (l := rest)
      rw [all, List.append_nil] at parts
      have length := congrArg List.length splits.whole
      have gapped := List.length_pos_iff.mpr splits.gap_ne_nil
      have filled := List.length_pos_iff.mpr splits.title_ne_nil
      simp only [List.length_append] at length
      rw [parts]
      refine List.drop_eq_nil_iff.not.mpr ?_
      omega
    · next text => exact titleOf_ne_nil text

end splits

section ofLine
variable {line : List Char}

/-- What follows the indent of a line. -/
def afterIndent (line : List Char) : List Char := line.dropWhile (· == ' ')

/-- What follows the marks after the indent of a line. -/
def afterMarks (line : List Char) : List Char := (afterIndent line).dropWhile (· == '#')

theorem ofLine?_eq_some_iff_parts {level : Nat} {title : String} : ofLine? line = some (level, title) ↔
    (line.length - (afterIndent line).length ≤ 3 ∧ 1 ≤ level ∧ level ≤ maxLevel ∧
      (afterMarks line).takeWhile isGap ≠ [] ∧ titleIn (afterMarks line) ≠ []) ∧
    ((afterIndent line).takeWhile (· == '#')).length = level ∧ String.ofList (titleIn (afterMarks line)) = title := by
  have same : ofLine? line = if line.length - (afterIndent line).length ≤ 3 &&
      1 ≤ ((afterIndent line).takeWhile (· == '#')).length &&
      ((afterIndent line).takeWhile (· == '#')).length ≤ maxLevel &&
      !((afterMarks line).takeWhile isGap).isEmpty && !(titleIn (afterMarks line)).isEmpty
    then some (((afterIndent line).takeWhile (· == '#')).length, String.ofList (titleIn (afterMarks line)))
    else none := rfl
  rw [same, Option.ite_none_right_eq_some, Option.some.injEq, Prod.mk.injEq]
  simp only [Bool.and_eq_true, decide_eq_true_eq, Bool.not_eq_true', List.isEmpty_eq_false_iff, and_assoc]
  constructor
  · rintro ⟨indent, many, few, gapped, titled, rfl, rfl⟩
    exact ⟨indent, many, few, gapped, titled, rfl, rfl⟩
  · rintro ⟨indent, many, few, gapped, titled, rfl, rfl⟩
    exact ⟨indent, many, few, gapped, titled, rfl, rfl⟩

/-- The parts of a line before its gap are where the line has no more spaces and then no more hash signs. -/
theorem Parts.Of.before {p : Parts} (of : p.Of line) : afterIndent line = p.marks ++ (p.gap ++ (p.title ++ p.closing)) ∧
    (afterIndent line).takeWhile (· == '#') = p.marks ∧ afterMarks line = p.gap ++ (p.title ++ p.closing) := by
  obtain ⟨mark, marks, some_mark⟩ := List.exists_cons_of_length_pos of.marks_many
  obtain rfl : mark = '#' := of.marks_hash mark (by simp [some_mark])
  obtain ⟨c, gap, some_gap⟩ := List.exists_cons_of_ne_nil of.splits.gap_ne_nil
  have blank : isGap c = true := of.splits.gap_blank c (by simp [some_gap])
  have stop : (c == '#') = false := by
    refine beq_eq_false_iff_ne.mpr ?_
    rintro rfl
    contradiction
  have hash : ∀ d ∈ p.marks, (d == '#') = true := by simpa using of.marks_hash
  have indent : afterIndent line = p.marks ++ (p.gap ++ (p.title ++ p.closing)) := by
    rw [afterIndent, ← of.whole, some_mark]
    exact dropWhile_append_cons (by simpa using of.indent_blank) rfl _
  refine ⟨indent, ?_, ?_⟩
  · rw [indent, some_gap]
    exact takeWhile_append_cons hash stop _
  · rw [afterMarks, indent, some_gap]
    exact dropWhile_append_cons hash stop _

/-- A heading in a line is what the first of the ways to split it into parts says: its level is the number of marks,
and its title is the title. -/
theorem ofLine?_eq_some_iff {level : Nat} {title : String} : ofLine? line = some (level, title) ↔
    ∃ p : Parts, p.FirstOf line ∧ p.marks.length = level ∧ String.ofList p.title = title := by
  rw [ofLine?_eq_some_iff_parts]
  constructor
  · rintro ⟨⟨indent, many, few, gapped, titled⟩, rfl, rfl⟩
    obtain ⟨gap, closing, splits, first⟩ := exists_first_splits gapped titled
    refine ⟨⟨line.takeWhile (· == ' '), (afterIndent line).takeWhile (· == '#'), gap, titleIn (afterMarks line), closing⟩,
      ⟨⟨?_, ?_, ?_, many, few, ?_, ?_⟩, ?_⟩, rfl, rfl⟩
    · dsimp only
      rw [splits.whole, afterMarks, List.takeWhile_append_dropWhile, afterIndent, List.takeWhile_append_dropWhile]
    · have parts := congrArg List.length (List.takeWhile_append_dropWhile (p := (· == ' ')) (l := line))
      rw [List.length_append] at parts
      rw [afterIndent] at indent
      dsimp only
      omega
    · exact fun c mem => by simpa using List.mem_takeWhile_imp mem
    · exact fun c mem => by simpa using List.mem_takeWhile_imp mem
    · rwa [splits.whole]
    · intro q of
      refine first q.gap q.title q.closing ?_
      rw [of.before.2.2]
      exact of.splits
  · rintro ⟨p, ⟨of, first⟩, rfl, rfl⟩
    obtain ⟨indent, marks, rest⟩ := of.before
    have splits : Splits (afterMarks line) p.gap p.title p.closing := rest ▸ of.splits
    obtain ⟨gapped, titled⟩ := splits.titled
    obtain ⟨gap, closing, best, first'⟩ := exists_first_splits gapped titled
    -- Each of the two ways to split the line goes before the other, so that they are the same.
    have other : Parts.Of ⟨p.indent, p.marks, gap, titleIn (afterMarks line), closing⟩ line := by
      refine ⟨?_, of.indent_short, of.indent_blank, of.marks_many, of.marks_few, of.marks_hash, ?_⟩
      · dsimp only
        rw [best.whole, rest, of.whole]
      · rwa [best.whole]
    obtain ⟨gaps, titles⟩ : p.gap.length = gap.length ∧ p.title.length = (titleIn (afterMarks line)).length := by
      have before := first _ other
      have after := first' _ _ _ splits
      unfold GoesBefore at before after
      dsimp only at before
      omega
    have title : p.title = titleIn (afterMarks line) := by
      have same := splits.whole.trans best.whole.symm
      exact (List.append_inj (List.append_inj same gaps).2 titles).1
    refine ⟨⟨?_, of.marks_many, of.marks_few, gapped, titled⟩, congrArg List.length marks, by rw [title]⟩
    have length := congrArg List.length of.whole
    rw [List.length_append, ← indent] at length
    have short := of.indent_short
    omega

end ofLine

end CodeAgent.Heading
