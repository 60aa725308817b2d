import Mathlib.Data.List.TakeWhile
import CodeAgent.Proofs.Text.Search
import CodeAgent.ToolCall.CompactTag

/-! Compact tags as they may be written: white space wherever it may stand, and between two quotes of one kind any text
without that quote. A tag is read exactly where one is written, and it is written there in one way only. The search for
attributes in the text that they were read from finds them where they are written: nothing but white space stands
between two of them, no key holds any, and each match ends where the attribute does. -/
namespace CodeAgent.CompactTag
open CodeAgent.Text

/-- The code points of white space. -/
def blankCodes : List Nat :=
  [9, 10, 11, 12, 13, 28, 29, 30, 31, 32, 0x85, 0xa0, 0x1680, 0x2000, 0x2001, 0x2002, 0x2003, 0x2004,
    0x2005, 0x2006, 0x2007, 0x2008, 0x2009, 0x200a, 0x2028, 0x2029, 0x202f, 0x205f, 0x3000]

theorem isBlank_of_isKeyChar {c : Char} (key : isKeyChar c = true) : isBlank c = false := by
  refine Bool.eq_false_iff.mpr fun blank => ?_
  have code : c.toNat ∈ blankCodes := by
    simp only [isBlank, Bool.or_eq_true, Bool.and_eq_true, decide_eq_true_eq, beq_iff_eq] at blank
    simp only [blankCodes, List.mem_cons, List.not_mem_nil]
    omega
  have none : blankCodes.all (fun n => !isKeyChar (Char.ofNat n)) = true := by decide +kernel
  have other := List.all_eq_true.mp none c.toNat code
  rw [Char.ofNat_toNat, key] at other
  exact absurd other Bool.false_ne_true

theorem isKeyChar_of_isBlank {c : Char} (blank : isBlank c = true) : isKeyChar c = false :=
  Bool.eq_false_iff.mpr fun key => absurd blank (by simp [isBlank_of_isKeyChar key])

theorem isNameChar_of_not_isKeyChar {c : Char} (other : isKeyChar c = false) : isNameChar c = false := by
  rw [isKeyChar, Bool.or_eq_false_iff] at other
  exact other.1

/-- White space that no key follows starts no attribute. -/
theorem attribute?_eq_none {c : Char} (other : isKeyChar c = false) (cs : List Char) :
    attribute? (c :: cs) = none := by
  simp [attribute?, other]

/-- After white space, or without any, a mark that is in no key ends a key. -/
theorem exists_cons_of_blank {white : List Char} (blank : ∀ c ∈ white, isBlank c = true) {mark : Char}
    (other : isKeyChar mark = false) (cs : List Char) :
    ∃ c more, white ++ mark :: cs = c :: more ∧ isKeyChar c = false := by
  cases white with
  | nil => exact ⟨mark, cs, rfl, other⟩
  | cons c white => exact ⟨c, white ++ mark :: cs, rfl, isKeyChar_of_isBlank (blank c List.mem_cons_self)⟩

theorem exists_cons_of_filled {p : Char → Bool} {cs : List Char} (filled : cs ≠ []) (all : ∀ c ∈ cs, p c = true)
    (rest : List Char) : ∃ c more, cs ++ rest = c :: more ∧ p c = true := by
  obtain ⟨c, cs, rfl⟩ := List.exists_cons_of_ne_nil filled
  exact ⟨c, cs ++ rest, rfl, all c List.mem_cons_self⟩

theorem blank_nil : ∀ c ∈ ([] : List Char), isBlank c = true := nofun

/-! ### Attributes -/

/-- A character that a value may stand between. -/
def IsQuote (c : Char) : Prop := c = '"' ∨ c = '\''

theorem isQuote_double : IsQuote '"' := .inl rfl

theorem isQuote_single : IsQuote '\'' := .inr rfl

/-- An attribute as it is written: a key, a sign with white space around it, and a value in quotes. -/
@[ext]
structure WrittenAttribute where
  key : List Char
  beforeSign : List Char
  afterSign : List Char
  quote : Char
  value : List Char
  key_ne_nil : key ≠ []
  key_chars : ∀ c ∈ key, isKeyChar c = true
  beforeSign_blank : ∀ c ∈ beforeSign, isBlank c = true
  afterSign_blank : ∀ c ∈ afterSign, isBlank c = true
  isQuote : IsQuote quote
  unquoted : quote ∉ value

namespace WrittenAttribute
variable (w : WrittenAttribute)

/-- The text of an attribute, from its key to its closing quote. -/
def text : List Char :=
  w.key ++ (w.beforeSign ++ '=' :: (w.afterSign ++ w.quote :: (w.value ++ [w.quote])))

/-- The key, and all that stands between the quotes. -/
def toAttribute : Attribute := ⟨w.key, w.value⟩

theorem text_append (rest : List Char) : w.text ++ rest =
    w.key ++ (w.beforeSign ++ '=' :: (w.afterSign ++ w.quote :: (w.value ++ w.quote :: rest))) := by
  simp [text]

theorem quote_ne_blank : isBlank w.quote = false := by
  obtain quote | quote := w.isQuote
  all_goals exact quote ▸ rfl

theorem value_chars : ∀ c ∈ w.value, (c != w.quote) = true := fun c mem => by
  have other : c ≠ w.quote := fun same => w.unquoted (same ▸ mem)
  simpa using other

/-- The text starts with a character of the key, and so not with white space. -/
theorem text_head (rest : List Char) : ∃ c more, w.text ++ rest = c :: more ∧ isKeyChar c = true := by
  rw [text_append]
  exact exists_cons_of_filled w.key_ne_nil w.key_chars _

theorem quotedValue?_text (rest : List Char) :
    quotedValue? (w.quote :: (w.value ++ w.quote :: rest)) = some (w.value, rest) := by
  have stop : (w.quote != w.quote) = false := bne_self_eq_false w.quote
  have taken := takeWhile_append_cons w.value_chars stop rest
  have dropped := dropWhile_append_cons w.value_chars stop rest
  obtain quote | quote := w.isQuote
  all_goals
    rw [quote] at taken dropped ⊢
    simp only [quotedValue?, taken, dropped]

theorem attribute?_text (rest : List Char) : attribute? (w.text ++ rest) = some (w.toAttribute, rest) := by
  obtain ⟨c, more, sign, stop⟩ := exists_cons_of_blank w.beforeSign_blank (by decide : isKeyChar '=' = false)
    (w.afterSign ++ w.quote :: (w.value ++ w.quote :: rest))
  have key := takeWhile_append_cons w.key_chars stop more
  have afterKey := dropWhile_append_cons w.key_chars stop more
  rw [← sign, ← w.text_append] at key afterKey
  have filled : w.key.isEmpty = false := by simpa [List.isEmpty_iff] using w.key_ne_nil
  have marked := dropStart?_append ['='] (w.afterSign ++ w.quote :: (w.value ++ w.quote :: rest))
  rw [List.singleton_append] at marked
  rw [attribute?, key, afterKey, dropWhile_append_cons w.beforeSign_blank (by decide), filled, marked]
  simp only [Option.bind_eq_bind, Option.bind_some, dropWhile_append_cons w.afterSign_blank w.quote_ne_blank,
    w.quotedValue?_text]
  rfl

end WrittenAttribute

/-- What is read as a quoted value is written so: a quote, text without it, and the quote again. -/
theorem exists_quote {cs value rest : List Char} (read : quotedValue? cs = some (value, rest)) :
    ∃ quote, IsQuote quote ∧ quote ∉ value ∧ cs = quote :: (value ++ quote :: rest) := by
  have closed {quote c : Char} {tail more : List Char} (isQuote : IsQuote quote)
      (stop : tail.dropWhile (· != quote) = c :: more) :
      ∃ quote', IsQuote quote' ∧ quote' ∉ tail.takeWhile (· != quote) ∧
        quote :: tail = quote' :: (tail.takeWhile (· != quote) ++ quote' :: more) := by
    obtain rfl : c = quote := by
      have other := List.head?_dropWhile_not (· != quote) tail
      rw [stop] at other
      simpa using other
    refine ⟨c, isQuote, fun mem => ?_, ?_⟩
    · simpa using List.mem_takeWhile_imp mem
    · rw [← stop, List.takeWhile_append_dropWhile]
  unfold quotedValue? at read
  dsimp only at read
  split at read
  · split at read
    · contradiction
    · next stop =>
      cases read
      exact closed isQuote_double stop
  · split at read
    · contradiction
    · next stop =>
      cases read
      exact closed isQuote_single stop
  · contradiction

/-- An attribute is read exactly where one is written. -/
theorem attribute?_eq_some_iff {cs rest : List Char} {a : Attribute} :
    attribute? cs = some (a, rest) ↔ ∃ w : WrittenAttribute, cs = w.text ++ rest ∧ a = w.toAttribute := by
  constructor
  · intro read
    rw [attribute?] at read
    dsimp only at read
    split at read
    · contradiction
    · next keyed =>
      obtain ⟨more, marked, read⟩ := Option.bind_eq_some_iff.mp read
      obtain ⟨⟨value, after⟩, quoted, made⟩ := Option.bind_eq_some_iff.mp read
      cases made
      obtain ⟨quote, isQuote, unquoted, split⟩ := exists_quote quoted
      have sign := dropStart?_eq_some marked
      refine ⟨{
        key := cs.takeWhile isKeyChar
        beforeSign := (cs.dropWhile isKeyChar).takeWhile isBlank
        afterSign := more.takeWhile isBlank
        quote, value, isQuote, unquoted
        key_ne_nil := by simpa [List.isEmpty_iff] using keyed
        key_chars := fun _ mem => List.mem_takeWhile_imp mem
        beforeSign_blank := fun _ mem => List.mem_takeWhile_imp mem
        afterSign_blank := fun _ mem => List.mem_takeWhile_imp mem }, ?_, rfl⟩
      rw [WrittenAttribute.text_append]
      dsimp only
      rw [← split, List.takeWhile_append_dropWhile, ← List.singleton_append, ← sign,
        List.takeWhile_append_dropWhile, List.takeWhile_append_dropWhile]
  · rintro ⟨w, rfl, rfl⟩
    exact w.attribute?_text rest

/-- An attribute with the white space in front of it. -/
@[ext]
structure SpacedAttribute where
  gap : List Char
  written : WrittenAttribute
  gap_ne_nil : gap ≠ []
  gap_blank : ∀ c ∈ gap, isBlank c = true

namespace SpacedAttribute
variable (s : SpacedAttribute)

/-- The text of an attribute with the white space in front of it. -/
def text : List Char := s.gap ++ s.written.text

/-- The attribute that is written. -/
def toAttribute : Attribute := s.written.toAttribute

theorem text_append (rest : List Char) : s.text ++ rest = s.gap ++ (s.written.text ++ rest) := by
  rw [text, List.append_assoc]

theorem text_head (rest : List Char) : ∃ c more, s.text ++ rest = c :: more ∧ isBlank c = true := by
  rw [text_append]
  exact exists_cons_of_filled s.gap_ne_nil s.gap_blank _

theorem length_pos : 0 < s.text.length := by
  obtain ⟨c, more, shape, -⟩ := s.text_head []
  rw [← List.append_nil s.text, shape]
  exact Nat.zero_lt_succ _

end SpacedAttribute

theorem spacedAttribute?_eq_some_iff {cs rest : List Char} {a : Attribute} :
    spacedAttribute? cs = some (a, rest) ↔ ∃ s : SpacedAttribute, cs = s.text ++ rest ∧ a = s.toAttribute := by
  constructor
  · intro read
    cases cs with
    | nil => contradiction
    | cons c cs =>
      rw [spacedAttribute?] at read
      split at read
      · next blank =>
        obtain ⟨written, split, rfl⟩ := attribute?_eq_some_iff.mp read
        refine ⟨⟨c :: cs.takeWhile isBlank, written, List.cons_ne_nil _ _, ?_⟩, ?_, rfl⟩
        · exact List.forall_mem_cons.mpr ⟨blank, fun _ mem => List.mem_takeWhile_imp mem⟩
        · rw [SpacedAttribute.text_append]
          dsimp only
          rw [← split, List.cons_append, List.takeWhile_append_dropWhile]
      · contradiction
  · rintro ⟨s, rfl, rfl⟩
    obtain ⟨c, gap, shape⟩ := List.exists_cons_of_ne_nil s.gap_ne_nil
    have blank := s.gap_blank
    rw [shape] at blank
    obtain ⟨first, blank⟩ := List.forall_mem_cons.mp blank
    obtain ⟨d, more, start, key⟩ := s.written.text_head rest
    rw [s.text_append, shape, List.cons_append, spacedAttribute?, if_pos first, start,
      dropWhile_append_cons blank (isBlank_of_isKeyChar key), ← start]
    exact s.written.attribute?_text rest

/-- White space before a mark that is in no key starts no attribute. -/
theorem spacedAttribute?_eq_none {white : List Char} (blank : ∀ c ∈ white, isBlank c = true) {mark : Char}
    (other : isKeyChar mark = false) (ink : isBlank mark = false) (cs : List Char) :
    spacedAttribute? (white ++ mark :: cs) = none := by
  cases white with
  | nil => rw [List.nil_append, spacedAttribute?, if_neg (by simp [ink])]
  | cons c white =>
    obtain ⟨first, blank⟩ := List.forall_mem_cons.mp blank
    rw [List.cons_append, spacedAttribute?, if_pos first, dropWhile_append_cons blank ink]
    exact attribute?_eq_none other cs

/-! ### The text of several attributes -/

/-- The text of attributes, one after the other. -/
def sourceOf (ss : List SpacedAttribute) : List Char :=
  ss.flatMap SpacedAttribute.text

theorem sourceOf_cons (s : SpacedAttribute) (ss : List SpacedAttribute) (rest : List Char) :
    sourceOf (s :: ss) ++ rest = s.text ++ (sourceOf ss ++ rest) := by
  rw [sourceOf, List.flatMap_cons, List.append_assoc]
  rfl

theorem length_le_sourceOf (ss : List SpacedAttribute) : ss.length ≤ (sourceOf ss).length := by
  induction ss with
  | nil => exact Nat.zero_le _
  | cons s ss ih =>
    have filled := s.length_pos
    rw [← List.append_nil (sourceOf _), sourceOf_cons, List.append_nil, List.length_append, List.length_cons]
    omega

/-- The reader takes as many attributes as are written. -/
theorem attributes_sourceOf (ss : List SpacedAttribute) {n : Nat} (bound : ss.length ≤ n) {cs : List Char}
    (ended : spacedAttribute? cs = none) :
    attributes n (sourceOf ss ++ cs) = (ss.map SpacedAttribute.toAttribute, cs) := by
  induction ss generalizing n with
  | nil =>
    cases n with
    | zero => rfl
    | succ n => rw [sourceOf, List.flatMap_nil, List.nil_append, attributes, ended, List.map_nil]
  | cons s ss ih =>
    obtain ⟨n, rfl⟩ := Nat.exists_eq_succ_of_ne_zero (Nat.ne_of_gt (Nat.zero_lt_of_lt bound))
    have read := spacedAttribute?_eq_some_iff.mpr ⟨s, sourceOf_cons s ss cs, rfl⟩
    rw [attributes, read]
    dsimp only
    rw [ih (Nat.le_of_succ_le_succ bound), List.map_cons]

/-- What the reader takes is written. -/
theorem exists_sourceOf (n : Nat) (cs : List Char) : ∃ ss : List SpacedAttribute,
    cs = sourceOf ss ++ (attributes n cs).2 ∧ (attributes n cs).1 = ss.map SpacedAttribute.toAttribute := by
  induction n generalizing cs with
  | zero => exact ⟨[], rfl, rfl⟩
  | succ n ih =>
    rw [attributes]
    split
    · exact ⟨[], rfl, rfl⟩
    · next a rest read =>
      obtain ⟨s, split, rfl⟩ := spacedAttribute?_eq_some_iff.mp read
      obtain ⟨ss, more, found⟩ := ih rest
      refine ⟨s :: ss, ?_, ?_⟩
      · dsimp only
        rw [sourceOf_cons, ← more, split]
      · dsimp only
        rw [found, List.map_cons]

/-- Attributes with the offsets of their keys, where the text of the first one starts at an offset. -/
def located : Nat → List SpacedAttribute → List (Nat × Attribute)
  | _, [] => []
  | offset, s :: ss => (offset + s.gap.length, s.toAttribute) :: located (offset + s.text.length) ss

theorem map_located (offset : Nat) (ss : List SpacedAttribute) :
    (located offset ss).map (·.2) = ss.map SpacedAttribute.toAttribute := by
  induction ss generalizing offset with
  | nil => rfl
  | cons s ss ih => rw [located, List.map_cons, ih, List.map_cons]

/-- A search passes over the white space in front of an attribute, and goes on behind the attribute. -/
theorem findEach_sourceOf (offset : Nat) (ss : List SpacedAttribute) :
    findEach attribute? offset (sourceOf ss) = located offset ss := by
  -- Each match ends where the text of its attribute ends, so that the search is again in front of a gap.
  induction ss generalizing offset with
  | nil => exact findEach_nil offset
  | cons s ss ih =>
    have missed : ∀ c ∈ s.gap, ∀ more, attribute? (c :: more) = none := fun c mem more =>
      attribute?_eq_none (isKeyChar_of_isBlank (s.gap_blank c mem)) more
    have read := s.written.attribute?_text (sourceOf ss)
    obtain ⟨c, more, start, -⟩ := s.written.text_head []
    rw [List.append_nil] at start
    have shorter : (sourceOf ss).length < (s.written.text ++ sourceOf ss).length := by
      rw [start, List.length_append, List.length_cons]
      omega
    have split : sourceOf (s :: ss) = s.gap ++ (s.written.text ++ sourceOf ss) := by
      rw [← List.append_nil (sourceOf _), sourceOf_cons, List.append_nil, s.text_append]
    rw [split, findEach_append missed, findEach_hit read shorter, ih, located, List.length_append,
      Nat.add_sub_cancel, SpacedAttribute.text, List.length_append, Nat.add_assoc]
    rfl

theorem scanAttributes_sourceOf (ss : List SpacedAttribute) :
    scanAttributes (sourceOf ss) = ss.map SpacedAttribute.toAttribute := by
  rw [scanAttributes, findEach_sourceOf, map_located]

/-! ### Tags -/

/-- A tag as it is written. -/
@[ext]
structure WrittenTag where
  initial : Char
  more : List Char
  attributes : List SpacedAttribute
  last : List Char
  ending : List Char
  isNameStart_initial : isNameStart initial = true
  more_chars : ∀ c ∈ more, isNameChar c = true
  last_blank : ∀ c ∈ last, isBlank c = true
  isEnding : ending = ['>'] ∨ ending = ['/', '>']

namespace WrittenTag
variable (w : WrittenTag)

/-- The text of a tag. -/
def text : List Char :=
  '<' :: w.initial :: (w.more ++ (sourceOf w.attributes ++ (w.last ++ w.ending)))

/-- The tag that is written. -/
def toTag : Tag := ⟨w.initial :: w.more, w.attributes.map SpacedAttribute.toAttribute, sourceOf w.attributes⟩

theorem text_append (rest : List Char) : w.text ++ rest =
    '<' :: w.initial :: (w.more ++ (sourceOf w.attributes ++ (w.last ++ (w.ending ++ rest)))) := by
  simp [text]

theorem exists_mark (rest : List Char) :
    ∃ mark more, w.ending ++ rest = mark :: more ∧ isKeyChar mark = false ∧ isBlank mark = false := by
  obtain ending | ending := w.isEnding
  all_goals exact ⟨_, _, by rw [ending]; rfl, by decide, by decide⟩

/-- The name of a tag ends where the attributes or the end of the tag start. -/
theorem name_ends (rest : List Char) :
    ∃ c more, sourceOf w.attributes ++ (w.last ++ (w.ending ++ rest)) = c :: more ∧ isNameChar c = false := by
  cases w.attributes with
  | nil =>
    obtain ⟨mark, more, shape, other, -⟩ := w.exists_mark rest
    obtain ⟨c, more', start, stop⟩ := exists_cons_of_blank w.last_blank other more
    exact ⟨c, more', by rw [shape, ← start]; rfl, isNameChar_of_not_isKeyChar stop⟩
  | cons s ss =>
    rw [sourceOf_cons]
    obtain ⟨c, more, start, blank⟩ := s.text_head (sourceOf ss ++ (w.last ++ (w.ending ++ rest)))
    exact ⟨c, more, start, isNameChar_of_not_isKeyChar (isKeyChar_of_isBlank blank)⟩

theorem attributes_end (rest : List Char) : spacedAttribute? (w.last ++ (w.ending ++ rest)) = none := by
  obtain ⟨mark, more, shape, other, ink⟩ := w.exists_mark rest
  rw [shape]
  exact spacedAttribute?_eq_none w.last_blank other ink more

theorem tag?_text (rest : List Char) : tag? (w.text ++ rest) = some (w.toTag, rest) := by
  obtain ⟨c, more, start, stop⟩ := w.name_ends rest
  obtain ⟨mark, marked, shape, -, ink⟩ := w.exists_mark rest
  have name := takeWhile_append_cons w.more_chars stop more
  have afterName := dropWhile_append_cons w.more_chars stop more
  rw [← start] at name afterName
  have bound : w.attributes.length ≤ (sourceOf w.attributes ++ (w.last ++ (w.ending ++ rest))).length := by
    rw [List.length_append]
    exact Nat.le_add_right_of_le (length_le_sourceOf w.attributes)
  have found := attributes_sourceOf w.attributes bound (w.attributes_end rest)
  have closing : (w.last ++ (w.ending ++ rest)).dropWhile isBlank = w.ending ++ rest := by
    rw [shape]
    exact dropWhile_append_cons w.last_blank ink marked
  have source : (sourceOf w.attributes ++ (w.last ++ (w.ending ++ rest))).take
      ((sourceOf w.attributes ++ (w.last ++ (w.ending ++ rest))).length -
        (w.last ++ (w.ending ++ rest)).length) = sourceOf w.attributes := by
    rw [List.length_append, Nat.add_sub_cancel]
    exact List.take_left
  rw [w.text_append, tag?, if_pos w.isNameStart_initial]
  dsimp only
  rw [name, afterName, found]
  dsimp only
  rw [closing, source]
  obtain ending | ending := w.isEnding
  all_goals
    rw [ending]
    rfl

end WrittenTag

/-- A tag is read exactly where one is written. -/
theorem tag?_eq_some_iff {cs rest : List Char} {t : Tag} :
    tag? cs = some (t, rest) ↔ ∃ w : WrittenTag, cs = w.text ++ rest ∧ t = w.toTag := by
  constructor
  · intro read
    unfold tag? at read
    split at read
    · next c cs =>
      split at read
      · next start =>
        dsimp only at read
        obtain ⟨ss, whole, found⟩ := exists_sourceOf (cs.dropWhile isNameChar).length (cs.dropWhile isNameChar)
        generalize attributes (cs.dropWhile isNameChar).length (cs.dropWhile isNameChar) = parts at read whole found
        obtain ⟨_, after⟩ := parts
        dsimp only at read whole found
        have source : (cs.dropWhile isNameChar).take ((cs.dropWhile isNameChar).length - after.length) =
            sourceOf ss := by
          rw [whole, List.length_append, Nat.add_sub_cancel]
          exact List.take_left
        -- The two endings of a tag differ in their marks only.
        have written {ending : List Char} (isEnding : ending = ['>'] ∨ ending = ['/', '>'])
            (ended : after.dropWhile isBlank = ending ++ rest) :
            ∃ w : WrittenTag, '<' :: c :: cs = w.text ++ rest ∧
              ⟨c :: cs.takeWhile isNameChar, ss.map SpacedAttribute.toAttribute, sourceOf ss⟩ = w.toTag := by
          refine ⟨⟨c, cs.takeWhile isNameChar, ss, after.takeWhile isBlank, ending, start,
            fun _ mem => List.mem_takeWhile_imp mem, fun _ mem => List.mem_takeWhile_imp mem, isEnding⟩, ?_, rfl⟩
          rw [WrittenTag.text_append]
          dsimp only
          rw [← ended, List.takeWhile_append_dropWhile, ← whole, List.takeWhile_append_dropWhile]
        rw [source, found] at read
        split at read
        · next beyond ended =>
          cases read
          exact written (.inr rfl) ended
        · next beyond ended =>
          cases read
          exact written (.inl rfl) ended
        · contradiction
      · contradiction
    · contradiction
  · rintro ⟨w, rfl, rfl⟩
    exact w.tag?_text rest

theorem tag?_eq_none {c : Char} (other : c ≠ '<') (cs : List Char) : tag? (c :: cs) = none := by
  unfold tag?
  split
  · next start => exact absurd (List.cons.inj start).1 other
  · rfl

section tag
variable {cs rest : List Char} {t : Tag}

/-- A tag starts with a bracket and a name, and a suffix of the text is left. -/
theorem tag?_cases (read : tag? cs = some (t, rest)) :
    rest <:+ cs ∧ ∃ c more, cs = '<' :: c :: more ∧ isNameStart c = true ∧
      t.name = c :: more.takeWhile isNameChar := by
  obtain ⟨w, rfl, rfl⟩ := tag?_eq_some_iff.mp read
  refine ⟨List.suffix_append _ _, w.initial, _, w.text_append rest, w.isNameStart_initial, ?_⟩
  obtain ⟨c, more, start, stop⟩ := w.name_ends rest
  rw [start, takeWhile_append_cons w.more_chars stop]
  rfl

theorem tag?_ended (read : tag? cs = some (t, rest)) : ∃ used, cs = used ++ '>' :: rest := by
  obtain ⟨w, rfl, -⟩ := tag?_eq_some_iff.mp read
  obtain ⟨used, ended⟩ : ∃ used, w.ending = used ++ ['>'] := by
    obtain ending | ending := w.isEnding
    · exact ⟨[], ending⟩
    · exact ⟨['/'], ending⟩
  refine ⟨'<' :: w.initial :: (w.more ++ (sourceOf w.attributes ++ (w.last ++ used))), ?_⟩
  rw [WrittenTag.text_append, ended]
  simp

/-- A tag is read whatever follows it. -/
theorem tag?_append_right (read : tag? cs = some (t, rest)) (more : List Char) :
    tag? (cs ++ more) = some (t, rest ++ more) := by
  obtain ⟨w, rfl, rfl⟩ := tag?_eq_some_iff.mp read
  rw [List.append_assoc]
  exact w.tag?_text (rest ++ more)

end tag

/-! ### One way to write a text -/

section unique
variable {rest rest' : List Char}

theorem WrittenAttribute.eq_of_text_append {w w' : WrittenAttribute} (same : w.text ++ rest = w'.text ++ rest') :
    w = w' ∧ rest = rest' := by
  rw [w.text_append, w'.text_append] at same
  obtain ⟨c, more, sign, stop⟩ := exists_cons_of_blank w.beforeSign_blank (by decide : isKeyChar '=' = false)
    (w.afterSign ++ w.quote :: (w.value ++ w.quote :: rest))
  obtain ⟨c', more', sign', stop'⟩ := exists_cons_of_blank w'.beforeSign_blank (by decide : isKeyChar '=' = false)
    (w'.afterSign ++ w'.quote :: (w'.value ++ w'.quote :: rest'))
  rw [sign, sign'] at same
  obtain ⟨key, same⟩ := append_cons_inj w.key_chars stop w'.key_chars stop' same
  rw [← sign, ← sign'] at same
  obtain ⟨beforeSign, same⟩ :=
    append_cons_inj w.beforeSign_blank (by decide) w'.beforeSign_blank (by decide) same
  obtain ⟨afterSign, same⟩ := append_cons_inj w.afterSign_blank w.quote_ne_blank w'.afterSign_blank
    w'.quote_ne_blank (List.cons.inj same).2
  obtain ⟨quote, same⟩ := List.cons.inj same
  have value_chars := w'.value_chars
  rw [← quote] at same value_chars
  obtain ⟨value, same⟩ := append_cons_inj w.value_chars (bne_self_eq_false w.quote) value_chars
    (bne_self_eq_false w.quote) same
  exact ⟨WrittenAttribute.ext key beforeSign afterSign quote value, (List.cons.inj same).2⟩

theorem SpacedAttribute.eq_of_text_append {s s' : SpacedAttribute} (same : s.text ++ rest = s'.text ++ rest') :
    s = s' ∧ rest = rest' := by
  rw [s.text_append, s'.text_append] at same
  obtain ⟨c, more, start, key⟩ := s.written.text_head rest
  obtain ⟨c', more', start', key'⟩ := s'.written.text_head rest'
  rw [start, start'] at same
  obtain ⟨gap, same⟩ := append_cons_inj s.gap_blank (isBlank_of_isKeyChar key) s'.gap_blank
    (isBlank_of_isKeyChar key') same
  rw [← start, ← start'] at same
  obtain ⟨written, same⟩ := WrittenAttribute.eq_of_text_append same
  exact ⟨SpacedAttribute.ext gap written, same⟩

/-- A text splits in one way into attributes and what no attribute starts. -/
theorem eq_of_sourceOf_append {ss ss' : List SpacedAttribute} {cs cs' : List Char}
    (ended : spacedAttribute? cs = none) (ended' : spacedAttribute? cs' = none)
    (same : sourceOf ss ++ cs = sourceOf ss' ++ cs') : ss = ss' ∧ cs = cs' := by
  induction ss generalizing ss' with
  | nil =>
    cases ss' with
    | nil => exact ⟨rfl, same⟩
    | cons s' ss' =>
      rw [sourceOf_cons] at same
      have read := spacedAttribute?_eq_some_iff.mpr ⟨s', same, rfl⟩
      cases ended.symm.trans read
  | cons s ss ih =>
    rw [sourceOf_cons] at same
    cases ss' with
    | nil =>
      have read := spacedAttribute?_eq_some_iff.mpr ⟨s, same.symm, rfl⟩
      cases ended'.symm.trans read
    | cons s' ss' =>
      rw [sourceOf_cons] at same
      obtain ⟨rfl, later⟩ := SpacedAttribute.eq_of_text_append same
      obtain ⟨rfl, ends⟩ := ih later
      exact ⟨rfl, ends⟩

/-- A tag is written in one way. -/
theorem WrittenTag.eq_of_text_append {w w' : WrittenTag} (same : w.text ++ rest = w'.text ++ rest') :
    w = w' ∧ rest = rest' := by
  rw [w.text_append, w'.text_append] at same
  obtain ⟨initial, same⟩ := List.cons.inj (List.cons.inj same).2
  obtain ⟨c, more, start, stop⟩ := w.name_ends rest
  obtain ⟨c', more', start', stop'⟩ := w'.name_ends rest'
  rw [start, start'] at same
  obtain ⟨name, same⟩ := append_cons_inj w.more_chars stop w'.more_chars stop' same
  rw [← start, ← start'] at same
  obtain ⟨attributes, same⟩ := eq_of_sourceOf_append (w.attributes_end rest) (w'.attributes_end rest') same
  obtain ⟨mark, marked, shape, -, ink⟩ := w.exists_mark rest
  obtain ⟨mark', marked', shape', -, ink'⟩ := w'.exists_mark rest'
  rw [shape, shape'] at same
  obtain ⟨last, same⟩ := append_cons_inj w.last_blank ink w'.last_blank ink' same
  rw [← shape, ← shape'] at same
  have ending : w.ending = w'.ending := by
    have marks := congrArg List.head? same
    obtain ending | ending := w.isEnding <;> obtain ending' | ending' := w'.isEnding
    · rw [ending, ending']
    · simp [ending, ending'] at marks
    · simp [ending, ending'] at marks
    · rw [ending, ending']
  rw [ending] at same
  exact ⟨WrittenTag.ext initial name attributes last ending, List.append_cancel_left same⟩

end unique

/-! ### Tags in a text -/

/-- A tag stands in a text at an offset. -/
def WrittenTag.StandsAt (w : WrittenTag) (cs : List Char) (offset : Nat) : Prop :=
  w.text <+: cs.drop offset

/-- Every tag that is found in a text stands there. A tag is read wherever it stands, and no other one stands there. The
search of its source finds the attributes that are written in it, each once and in order, where its key starts and with
all that stands between its quotes, and these give its values. -/
theorem attributes_found_as_written (cs : List Char) :
    (∀ p ∈ findEach tag? 0 cs, ∃ w : WrittenTag, w.StandsAt cs p.1 ∧ p.2 = w.toTag) ∧
    ∀ (w : WrittenTag) (offset : Nat), w.StandsAt cs offset →
      tag? (cs.drop offset) = some (w.toTag, cs.drop (offset + w.text.length)) ∧
      (∀ w' : WrittenTag, w'.StandsAt cs offset → w' = w) ∧
      findEach attribute? 0 w.toTag.source = located 0 w.attributes ∧
      w.toTag.values =
        w.attributes.map fun s => (String.ofList s.toAttribute.key, Markup.unescape s.toAttribute.value) := by
  refine ⟨fun p mem => ?_, fun w offset stands => ?_⟩
  · obtain ⟨rest, read⟩ := exists_read_of_mem_findEach (fun read => (tag?_cases read).1) mem
    obtain ⟨w, whole, made⟩ := tag?_eq_some_iff.mp read
    exact ⟨w, ⟨rest, whole.symm⟩, made⟩
  · obtain ⟨rest, whole⟩ := stands
    have left : cs.drop (offset + w.text.length) = rest := by
      rw [← List.drop_drop, ← whole, List.drop_left]
    refine ⟨?_, ?_, findEach_sourceOf 0 w.attributes, ?_⟩
    · rw [left, ← whole]
      exact w.tag?_text rest
    · rintro w' ⟨rest', whole'⟩
      exact (WrittenTag.eq_of_text_append (whole'.trans whole.symm)).1
    · rw [Tag.values, WrittenTag.toTag, scanAttributes_sourceOf, List.map_map]
      rfl

/-- A tag whose values hold quotes of the other kind, signs, spaces, and what looks like an attribute and a tag. -/
def nestedQuotes : WrittenTag where
  initial := 'e'
  more := ['d', 'i', 't']
  attributes := [
    { gap := [' ']
      written := {
        key := ['a', ':', 'b']
        beforeSign := []
        afterSign := []
        quote := '\''
        value := "x=\"1 = 2\" y".toList
        key_ne_nil := by decide
        key_chars := List.all_eq_true.mp rfl
        beforeSign_blank := blank_nil
        afterSign_blank := blank_nil
        isQuote := isQuote_single
        unquoted := by decide }
      gap_ne_nil := by decide
      gap_blank := List.all_eq_true.mp rfl },
    { gap := ['\n', ' ']
      written := {
        key := ['c']
        beforeSign := [' ']
        afterSign := ['\t']
        quote := '"'
        value := " <d e='f'/>".toList
        key_ne_nil := by decide
        key_chars := List.all_eq_true.mp rfl
        beforeSign_blank := List.all_eq_true.mp rfl
        afterSign_blank := List.all_eq_true.mp rfl
        isQuote := isQuote_double
        unquoted := by decide }
      gap_ne_nil := by decide
      gap_blank := List.all_eq_true.mp rfl }]
  last := []
  ending := ['/', '>']
  isNameStart_initial := by decide
  more_chars := List.all_eq_true.mp rfl
  last_blank := blank_nil
  isEnding := by decide

theorem attributes_found_as_written_nested_quotes :
    let cs := "See <edit a:b='x=\"1 = 2\" y'\n c =\t\" <d e='f'/>\"/>.".toList
    (4, nestedQuotes.toTag) ∈ findEach tag? 0 cs ∧ nestedQuotes.StandsAt cs 4 ∧
      (∃ w : WrittenTag, w.StandsAt cs 4 ∧ nestedQuotes.toTag = w.toTag) ∧
      findEach attribute? 0 nestedQuotes.toTag.source =
        [(1, ⟨['a', ':', 'b'], "x=\"1 = 2\" y".toList⟩), (20, ⟨['c'], " <d e='f'/>".toList⟩)] := by
  intro cs
  have whole : cs = "See ".toList ++ (nestedQuotes.text ++ ['.']) := by decide
  have missed : ∀ c ∈ "See ".toList, ∀ more, tag? (c :: more) = none := fun c mem =>
    tag?_eq_none fun bracket => absurd (bracket ▸ mem) (by decide)
  have found : (4, nestedQuotes.toTag) ∈ findEach tag? 0 cs := by
    rw [whole, findEach_append missed, findEach_hit (nestedQuotes.tag?_text ['.']) (by decide)]
    exact List.mem_cons_self
  have stands : nestedQuotes.StandsAt cs 4 := ⟨['.'], by rw [whole]; rfl⟩
  obtain ⟨standing, reading⟩ := attributes_found_as_written cs
  exact ⟨found, stands, standing _ found, (reading nestedQuotes 4 stands).2.2.1⟩

end CodeAgent.CompactTag
