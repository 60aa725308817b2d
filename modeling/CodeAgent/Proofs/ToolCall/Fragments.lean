import Mathlib.Algebra.GroupWithZero.Nat
import Mathlib.Data.List.Infix
import CodeAgent.Proofs.Json.NextLine
import CodeAgent.Proofs.ToolCall.Findings
import CodeAgent.Proofs.ToolCall.MarkupLocality

/-! Tags and objects that stand on lines of their own: a search comes upon the same things in their text as in
each of them alone. -/
namespace CodeAgent
open CodeAgent.Text

namespace Text
variable {α : Type} {match? : List Char → Option (α × List Char)}

/-- A reader leaves a shorter suffix of a text. -/
def Shortens (match? : List Char → Option (α × List Char)) : Prop :=
  ∀ ⦃cs a left⦄, match? cs = some (a, left) → left <:+ cs ∧ left.length < cs.length

/-- A reader reads the same from every place in a text, whatever follows the text. -/
def ReadsAlone (match? : List Char → Option (α × List Char)) (cs rest : List Char) : Prop :=
  ∀ tail, tail <:+ cs → tail ≠ [] → match? (tail ++ rest) = (match? tail).map fun p => (p.1, p.2 ++ rest)

theorem ReadsAlone.suffix {cs tail rest : List Char} (alone : ReadsAlone match? cs rest) (suffix : tail <:+ cs) :
    ReadsAlone match? tail rest := fun _ inner => alone _ (inner.trans suffix)

/-- A search goes through a text that is read alone, and then through what follows it. -/
theorem findEach_append_right {cs rest : List Char} (shortens : Shortens match?)
    (alone : ReadsAlone match? cs rest) (offset : Nat) : findEach match? offset (cs ++ rest) =
      findEach match? offset cs ++ findEach match? (offset + cs.length) rest := by
  fun_induction findEach match? offset cs with
  | case1 => rfl
  | case2 offset c cs missed ih =>
    have missed' := alone _ (List.suffix_refl _) (by simp)
    rw [missed, List.cons_append] at missed'
    rw [List.cons_append, findEach_miss missed', ih (alone.suffix (List.suffix_cons c cs)), List.length_cons,
      Nat.add_assoc, Nat.add_comm 1]
  | case3 offset c cs a left found shorter ih =>
    have found' := alone _ (List.suffix_refl _) (by simp)
    rw [found, Option.map_some] at found'
    have shorter' : (left ++ rest).length < (c :: cs ++ rest).length := by
      simp only [List.length_append, List.length_cons]
      omega
    have moved : (c :: cs ++ rest).length - (left ++ rest).length = cs.length + 1 - left.length := by
      simp only [List.length_append, List.length_cons]
      omega
    have ended : offset + (cs.length + 1 - left.length) + left.length = offset + (c :: cs).length := by
      rw [List.length_cons]
      omega
    rw [findEach_hit found' shorter', moved, ih (alone.suffix (shortens found).1), ended, List.cons_append]
  | case4 offset c cs a left found longer ih => exact absurd (shortens found).2 longer

end Text

/-- A text that a search can be led through apart from what follows it on other lines: one tag, or a text in
braces without an opening bracket, as every object is whose strings hold none. -/
inductive IsFragment : List Char → Prop
  | tag {cs : List Char} {t : CompactTag.Tag} : CompactTag.tag? cs = some (t, []) → IsFragment cs
  | object {body : List Char} : '<' ∉ body → IsFragment ('\x7b' :: (body ++ ['\x7d']))

/-- An object whose strings hold no opening bracket is a fragment. -/
theorem IsFragment.of_object {cs : List Char} {fields : List (String × Json)}
    (read : Json.readValue Json.maxDepth cs = .ok (.obj fields, [])) (flat : '<' ∉ cs) : IsFragment cs := by
  obtain ⟨body, rfl, -⟩ := Json.readValue_object_text (Nat.le_refl _) read
  exact .object fun mem => flat (by simp [mem])

/-- The text of fragments that stand on lines of their own. -/
def linesOf : List (List Char) → List Char
  | [] => []
  | [f] => f
  | f :: g :: fs => f ++ '\n' :: linesOf (g :: fs)

/-- Fragments with the offsets at which they start. -/
def placedFrom (offset : Nat) : List (List Char) → List (Nat × List Char)
  | [] => []
  | f :: fs => (offset, f) :: placedFrom (offset + f.length + 1) fs

namespace IsFragment
variable {f : List Char}

theorem ended (fragment : IsFragment f) : Json.Ended f := by
  cases fragment with
  | tag read =>
    obtain ⟨used, rfl⟩ := CompactTag.tag?_ended read
    exact ⟨'>', by simp, .inr rfl⟩
  | object => exact ⟨'}', by simp [List.getLast?_cons], .inl rfl⟩

theorem opens (fragment : IsFragment f) : ∃ c more, f = c :: more ∧ (c = '{' ∨ c = '<') := by
  cases fragment with
  | tag read =>
    obtain ⟨-, c, more, rfl, -⟩ := CompactTag.tag?_cases read
    exact ⟨'<', _, rfl, .inr rfl⟩
  | @object body => exact ⟨'{', _, rfl, .inl rfl⟩

end IsFragment

theorem nextFragment_linesOf {f : List Char} (fragment : IsFragment f) (fs : List (List Char)) :
    Json.NextFragment ('\n' :: linesOf (f :: fs)) := by
  obtain ⟨c, more, rfl, open'⟩ := fragment.opens
  have start : ∃ tail, linesOf ((c :: more) :: fs) = c :: tail := by
    cases fs with
    | nil => exact ⟨more, rfl⟩
    | cons g fs => exact ⟨more ++ '\n' :: linesOf (g :: fs), rfl⟩
  obtain ⟨tail, start⟩ := start
  rw [start]
  refine ⟨by simp [Json.NextLine], ?_⟩
  have kept : Json.skipGap ('\n' :: c :: tail) = c :: tail := by
    rcases open' with rfl | rfl <;> rfl
  rintro d hd
  rw [kept] at hd
  obtain rfl := Option.some.inj hd
  exact open'

namespace JsonCall

theorem exists_value_of_call {cs left : List Char} {c : ToolCall} (read : readingAt cs = .call c left) :
    ∃ v, Json.readValue Json.maxDepth cs = .ok (v, left) := by
  unfold readingAt at read
  split at read
  · next v rest value =>
    split at read
    · cases read
      exact ⟨v, value⟩
    · cases read
  · cases read
  · cases read

/-- What a brace starts in an ended text is the same whatever fragment follows. -/
theorem readingAt_next {cs rest : List Char} (ended : Json.Ended cs) (next : Json.NextFragment rest) :
    readingAt (cs ++ rest) = match readingAt cs with
      | .call c left => .call c (left ++ rest)
      | .other => .other
      | .stop => .stop := by
  unfold readingAt
  rw [Json.readValue_next next _ ended]
  cases Json.readValue Json.maxDepth cs with
  | error e => cases e <;> rfl
  | ok read =>
    obtain ⟨v, left⟩ := read
    simp only [Json.carry_ok]
    cases ofJson v <;> rfl

end JsonCall

namespace Finding

theorem shortens_atBrace? : Shortens atBrace? := by
  intro cs finding left read
  unfold atBrace? at read
  split at read
  · next rest =>
    split at read
    · next c after found =>
      cases read
      obtain ⟨v, value⟩ := JsonCall.exists_value_of_call found
      obtain ⟨used, split, isValue⟩ := Json.readValue_local value
      have filled := List.length_pos_iff.mpr isValue.filled
      rw [split]
      refine ⟨List.suffix_append _ _, ?_⟩
      rw [List.length_append]
      omega
    · contradiction
    · cases read
      exact ⟨List.suffix_cons _ _, Nat.lt_succ_self _⟩
  · contradiction

theorem readsAlone_atBrace? {cs rest : List Char} (ended : Json.Ended cs) (next : Json.NextFragment rest) :
    ReadsAlone atBrace? cs rest := by
  intro tail suffix filled
  obtain ⟨c, more, rfl⟩ := List.exists_cons_of_ne_nil filled
  have ended' := (ended.of_suffix suffix).resolve_left filled
  by_cases brace : c = '{'
  · subst brace
    have read := JsonCall.readingAt_next ended' next
    rw [List.cons_append] at read ⊢
    simp only [atBrace?, read]
    cases JsonCall.readingAt ('{' :: more) <;> rfl
  · have none (ds : List Char) : atBrace? (c :: ds) = none := by
      unfold atBrace?
      split
      · next start => exact absurd (List.cons.inj start).1 brace
      · rfl
    rw [List.cons_append, none, none]
    rfl

end Finding

namespace CompactTag

theorem shortens_tag? : Shortens tag? := by
  intro cs t left read
  obtain ⟨used, rfl⟩ := tag?_ended read
  refine ⟨⟨used ++ ['>'], by simp⟩, ?_⟩
  rw [List.length_append, List.length_cons]
  omega

/-- A search for tags goes through a fragment and then through what follows it. -/
theorem findEach_tag?_fragment {f rest : List Char} (fragment : IsFragment f) (offset : Nat) :
    findEach tag? offset (f ++ rest) = findEach tag? offset f ++ findEach tag? (offset + f.length) rest := by
  cases fragment with
  | @tag _ t read =>
    have filled : 0 < f.length := Nat.zero_lt_of_lt (shortens_tag? read).2
    have read' := tag?_append_right read rest
    have shorter : rest.length < (f ++ rest).length := by
      rw [List.length_append]
      omega
    rw [findEach_hit read filled, findEach_nil, findEach_hit read' shorter, List.nil_append, List.length_append,
      Nat.add_sub_cancel]
    rfl
  | @object body flat =>
    refine findEach_append_right shortens_tag? (fun tail suffix filled => ?_) offset
    obtain ⟨c, more, rfl⟩ := List.exists_cons_of_ne_nil filled
    have other : c ≠ '<' := by
      rintro rfl
      have mem := suffix.subset List.mem_cons_self
      simp [flat] at mem
    rw [List.cons_append, tag?_eq_none other, tag?_eq_none other]
    rfl

end CompactTag

/-- A word without closing marks starts an ended text, or does not, whatever follows. -/
theorem Json.dropStart?_next {word cs : List Char} (flat : '\x7d' ∉ word ∧ '>' ∉ word) (ended : Ended cs)
    (rest : List Char) : dropStart? word (cs ++ rest) = (dropStart? word cs).map (· ++ rest) := by
  induction word generalizing cs with
  | nil => rfl
  | cons p word ih =>
    obtain ⟨c, more, rfl⟩ := List.exists_cons_of_ne_nil ended.ne_nil
    rw [List.cons_append, dropStart?, dropStart?]
    split
    · next same =>
      obtain rfl := eq_of_beq same
      have other : p ≠ '}' ∧ p ≠ '>' := ⟨fun h => flat.1 (by simp [h]), fun h => flat.2 (by simp [h])⟩
      have flat' : '\x7d' ∉ word ∧ '>' ∉ word :=
        ⟨fun h => flat.1 (List.mem_cons_of_mem _ h), fun h => flat.2 (List.mem_cons_of_mem _ h)⟩
      exact ih flat' (ended.tail other)
    · rfl

namespace InvokeBlock

/-- Every element that is opened in a text is closed in it. -/
def ClosesElements (cs : List Char) : Prop :=
  ∀ tail, tail <:+ cs → startsWith ('<' :: invokeName) tail = true → (element? invokeName tail).isSome

instance (cs : List Char) : Decidable (ClosesElements cs) :=
  decidable_of_iff (∀ tail ∈ cs.tails, startsWith ('<' :: invokeName) tail = true →
    (element? invokeName tail).isSome) (by simp only [List.mem_tails, ClosesElements])

theorem shortens_element? : Shortens (element? invokeName) := by
  intro cs e left read
  obtain ⟨used, rfl, -⟩ := element?_local (by decide) read
  refine ⟨⟨used ++ ['>'], by simp⟩, ?_⟩
  rw [List.length_append, List.length_cons]
  omega

theorem readsAlone_element? {cs : List Char} (ended : Json.Ended cs) (closes : ClosesElements cs)
    (rest : List Char) : ReadsAlone (element? invokeName) cs rest := by
  intro tail suffix filled
  cases read : element? invokeName tail with
  | some found =>
    obtain ⟨e, left⟩ := found
    obtain ⟨used, rfl, again⟩ := element?_local (by decide) read
    have whole : used ++ '>' :: left ++ rest = used ++ '>' :: (left ++ rest) := by simp
    rw [whole, again]
    rfl
  | none =>
    have ended' := (ended.of_suffix suffix).resolve_left filled
    have unopened : dropStart? ('<' :: invokeName) tail = none := by
      refine Option.not_isSome_iff_eq_none.mp fun opened => ?_
      have closed := closes tail suffix opened
      rw [read] at closed
      contradiction
    rw [element?_eq_none]
    · rfl
    rw [Json.dropStart?_next (by decide) ended' rest, unopened]
    rfl

end InvokeBlock

/-! ### Marked lines -/

namespace Text

/-- How many characters lines have. -/
def lengthOf (lines : List (List Char × List Char)) : Nat := (lines.map fun l => l.1.length + l.2.length).sum

theorem lengthOf_lineRunsFrom (line cs : List Char) : lengthOf (lineRunsFrom line cs) = line.length + cs.length := by
  fun_induction lineRunsFrom line cs with
  | case1 line empty => simp_all [lengthOf]
  | case2 line filled => simp [lengthOf]
  | case3 line cs ih =>
    simp only [lengthOf, List.map_cons, List.sum_cons, List.length_reverse] at ih ⊢
    rw [ih]
    simp
    omega
  | case4 line c cs _ ends ih =>
    simp only [lengthOf, List.map_cons, List.sum_cons, List.length_reverse] at ih ⊢
    rw [ih]
    simp
    omega
  | case5 line c cs _ goes ih =>
    rw [ih]
    simp
    omega

/-- The last line of an ended text has no end, and ends where another line follows. -/
theorem lineRunsFrom_next {cs : List Char} (ended : Json.Ended cs) (line rest : List Char) :
    ∃ init last, Json.Ended last ∧ lineRunsFrom line cs = init ++ [(last, [])] ∧
      lineRunsFrom line (cs ++ '\n' :: rest) = init ++ (last, ['\n']) :: lineRuns rest := by
  fun_induction lineRunsFrom line cs with
  | case1 | case2 => exact absurd rfl ended.ne_nil
  | case3 line cs ih =>
    obtain ⟨init, last, ended', alone, before⟩ := ih ((ended.tail (by decide)).tail (by decide))
    refine ⟨(line.reverse, ['\r', '\n']) :: init, last, ended', by rw [alone]; rfl, ?_⟩
    rw [List.cons_append, List.cons_append, lineRunsFrom, before]
    rfl
  | case4 line c cs single ends ih =>
    have other : c ≠ '}' ∧ c ≠ '>' := by
      constructor <;> (rintro rfl; contradiction)
    have ended' := ended.tail other
    obtain ⟨init, last, ended'', alone, before⟩ := ih ended'
    refine ⟨(line.reverse, [c]) :: init, last, ended'', by rw [alone]; rfl, ?_⟩
    rw [List.cons_append, lineRunsFrom.eq_3, if_pos ends, before]
    · rfl
    · intro more carriage feed
      obtain ⟨d, tail, rfl⟩ := List.exists_cons_of_ne_nil ended'.ne_nil
      obtain ⟨rfl, -⟩ := List.cons.inj feed
      exact single tail carriage rfl
  | case5 line c cs single goes ih =>
    rcases ended.of_suffix (List.suffix_cons c cs) with rfl | ended'
    · have last : c = '}' ∨ c = '>' := by
        obtain ⟨d, hd, mark⟩ := ended
        obtain rfl := Option.some.inj hd
        exact mark
      refine ⟨[], (c :: line).reverse, ⟨c, by simp, last⟩, by simp [lineRunsFrom], ?_⟩
      rw [List.cons_append, List.nil_append, lineRunsFrom.eq_3, if_neg goes, lineRunsFrom.eq_3, if_pos (by decide)]
      · rfl
      · rintro more carriage -
        exact absurd carriage (by decide)
      · rintro more rfl -
        exact absurd last (by decide)
    · obtain ⟨init, last, ended'', alone, before⟩ := ih ended'
      refine ⟨init, last, ended'', alone, ?_⟩
      rw [List.cons_append, lineRunsFrom.eq_3, if_neg goes, before]
      intro more carriage feed
      obtain ⟨d, tail, rfl⟩ := List.exists_cons_of_ne_nil ended'.ne_nil
      obtain ⟨rfl, -⟩ := List.cons.inj feed
      exact single tail carriage rfl

end Text

/-- A value with white space around it is read from an ended text as it is from a line of that text. -/
theorem Json.readChars?_line {cs : List Char} (ended : Ended cs) : readChars? (cs ++ ['\n']) = readChars? cs := by
  have next : NextFragment ['\n'] := ⟨by simp [NextLine], by simp [skipGap, isGap]⟩
  unfold readChars?
  rw [ended.skipGap_append, readValue_next next _ ended.skipGap]
  cases read : readValue maxDepth (skipGap cs) with
  | error e => rfl
  | ok made =>
    obtain ⟨v, left⟩ := made
    have same : (skipGap (left ++ ['\n'])).isEmpty = (skipGap left).isEmpty := by
      rw [skipGap, skipGap, List.dropWhile_append]
      split
      · next white =>
        rw [white]
        rfl
      · next dark => simp [dark]
    simp only [carry_ok, bind, Except.bind, same]

namespace Finding

theorem ofLine_ended {last : List Char} (ended : Json.Ended last) : ofLine (last, ['\n']) = ofLine (last, []) := by
  unfold ofLine
  dsimp only
  rw [List.append_nil, Json.dropStart?_next (by decide) ended]
  cases marked : dropStart? JsonCall.lineMark last with
  | none => rfl
  | some text =>
    have split := dropStart?_eq_some marked
    rcases ended.of_suffix ⟨_, split.symm⟩ with rfl | ended'
    · rw [split] at ended
      exact absurd ended (by simp [Json.Ended, JsonCall.lineMark])
    · simp only [Option.map_some, JsonCall.readingOfLine, Json.readChars?_line ended']

theorem ofLines_append (offset : Nat) (lines more : List (List Char × List Char)) :
    ofLines offset (lines ++ more) = ofLines offset lines ++ ofLines (offset + lengthOf lines) more := by
  induction lines generalizing offset with
  | nil => rfl
  | cons line lines ih =>
    have moved : offset + lengthOf (line :: lines) = offset + line.1.length + line.2.length + lengthOf lines := by
      simp only [lengthOf, List.map_cons, List.sum_cons]
      omega
    rw [List.cons_append, ofLines, ofLines, ih, moved]
    rfl

/-- The marked lines of an ended text are those that it has before another line. -/
theorem ofLines_next {cs : List Char} (ended : Json.Ended cs) (offset : Nat) (rest : List Char) :
    ofLines offset (lineRuns (cs ++ '\n' :: rest)) =
      ofLines offset (lineRuns cs) ++ ofLines (offset + cs.length + 1) (lineRuns rest) := by
  obtain ⟨init, last, ended', alone, before⟩ := lineRunsFrom_next ended [] rest
  have length := lengthOf_lineRunsFrom [] cs
  rw [alone] at length
  rw [lineRuns, lineRuns, alone, before, ofLines_append, ofLines_append, ofLines, ofLines, ofLines,
    ofLine_ended ended', List.append_assoc]
  simp [lengthOf] at length ⊢
  congr 1
  omega

end Finding

/-! ### Whole texts -/

namespace CallForm

/-- A search for calls in a form comes upon what it comes upon in a fragment, and then upon what it comes upon
in the lines after it. -/
theorem findingsFrom_next (form : CallForm) {f : List Char} (fragment : IsFragment f)
    (closes : form = .invokeBlock → InvokeBlock.ClosesElements f) {rest : List Char}
    (next : Json.NextFragment ('\n' :: rest)) (offset : Nat) :
    form.findingsFrom offset (f ++ '\n' :: rest) =
      form.findingsFrom offset f ++ form.findingsFrom (offset + f.length + 1) rest := by
  have ended := fragment.ended
  cases form with
  | invokeBlock =>
    have alone := InvokeBlock.readsAlone_element? ended (closes rfl) ('\n' :: rest)
    simp only [findingsFrom]
    rw [findEach_append_right InvokeBlock.shortens_element? alone, List.map_append]
    rw [findEach_miss (InvokeBlock.element?_eq_none (dropStart?_cons_of_ne (by decide) _ _))]
  | compactTag =>
    simp only [findingsFrom]
    rw [CompactTag.findEach_tag?_fragment fragment, List.map_append,
      findEach_miss (CompactTag.tag?_eq_none (by decide) _)]
  | embeddedJson =>
    have alone := Finding.readsAlone_atBrace? ended next
    simp only [findingsFrom]
    rw [findEach_append_right Finding.shortens_atBrace? alone, findEach_miss rfl]
  | markedLine => exact Finding.ofLines_next ended offset rest

theorem findingsFrom_linesOf (form : CallForm) {fs : List (List Char)} (fragments : ∀ f ∈ fs, IsFragment f)
    (closes : form = .invokeBlock → ∀ f ∈ fs, InvokeBlock.ClosesElements f) (offset : Nat) :
    form.findingsFrom offset (linesOf fs) = (placedFrom offset fs).flatMap fun p => form.findingsFrom p.1 p.2 := by
  induction fs generalizing offset with
  | nil =>
    rw [linesOf, placedFrom, List.flatMap_nil]
    cases form with
    | markedLine => rfl
    | _ => simp [findingsFrom, findEach_nil]
  | cons f fs ih =>
    cases fs with
    | nil => simp [linesOf, placedFrom]
    | cons g fs =>
      rw [linesOf, placedFrom, List.flatMap_cons, form.findingsFrom_next (fragments f (by simp))
        (fun same => closes same f (by simp)) (nextFragment_linesOf (fragments g (by simp)) fs)]
      rw [ih (fun f' mem => fragments f' (by simp [mem])) (fun same f' mem => closes same f' (by simp [mem]))]

end CallForm
end CodeAgent
