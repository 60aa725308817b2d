import CodeAgent.Proofs.ToolCall.InvokeText

/-! Invoke elements as anyone may write them: with white space in and between the tags, with either quote,
and with any characters inside the parameters. The reader of elements ends each at its first closing tag. -/
namespace CodeAgent.InvokeBlock
open CodeAgent.Text CodeAgent.Markup

/-- White space. -/
abbrev Blanks := { cs : List Char // ∀ c ∈ cs, isBlank c = true }

theorem Blanks.notMem (b : Blanks) {c : Char} (mark : isBlank c = false) : c ∉ b.val := fun mem =>
  absurd (b.property c mem) (by simp [mark])

theorem Blanks.skip (b : Blanks) {c : Char} (mark : isBlank c = false) (cs : List Char) :
    skipBlanks (b.val ++ c :: cs) = c :: cs :=
  dropWhile_append_cons b.property mark cs

theorem isBlank_of_quote {quote : Char} (mark : quote = '"' ∨ quote = '\'') : isBlank quote = false := by
  obtain same | same := mark
  all_goals
    rw [same]
    decide

/-- An opening tag is read on from its opening quote, whatever white space stands before that. -/
theorem openTag?_of_spacing (element : List Char) {space quote : Char} (more beforeEquals afterEquals : Blanks)
    (blank : isBlank space = true) (mark : quote = '"' ∨ quote = '\'') (value : List Char) :
    openTag? element ('<' :: (element ++ space :: (more ++ 'n' :: 'a' :: 'm' :: 'e' :: (beforeEquals ++ '=' ::
      (afterEquals ++ quote :: value))))) = quotedToTagEnd? quote value := by
  have spaced (cs : List Char) : skipBlanks? (space :: (more ++ 'n' :: cs)) = some ('n' :: cs) := by
    rw [skipBlanks?, if_pos blank, more.skip (by decide)]
  have named (cs : List Char) : dropStart? ['n', 'a', 'm', 'e'] ('n' :: 'a' :: 'm' :: 'e' :: cs) = some cs :=
    dropStart?_append ['n', 'a', 'm', 'e'] cs
  have equals (cs : List Char) : dropStart? ['='] (skipBlanks (beforeEquals ++ '=' :: cs)) = some cs := by
    rw [beforeEquals.skip (by decide)]
    exact dropStart?_append ['='] cs
  rw [openTag?, ← List.cons_append, dropStart?_append]
  simp only [Option.bind_eq_bind, Option.bind_some, spaced, named, equals,
    afterEquals.skip (isBlank_of_quote mark)]
  rcases mark with rfl | rfl
  · rfl
  · rfl

/-- The white space before an element and in its tags, and the quotes in the opening one. -/
structure Layout where
  before : Blanks
  space : Char
  more : Blanks
  beforeEquals : Blanks
  afterEquals : Blanks
  beforeEnd : Blanks
  beforeClose : Blanks
  quote : Char
  blank_space : isBlank space = true
  quote_eq : quote = '"' ∨ quote = '\''

namespace Layout

/-- No more white space than a tag needs, and double quotes. -/
def usual : Layout where
  before := ⟨[], List.forall_mem_nil _⟩
  space := ' '
  more := ⟨[], List.forall_mem_nil _⟩
  beforeEquals := ⟨[], List.forall_mem_nil _⟩
  afterEquals := ⟨[], List.forall_mem_nil _⟩
  beforeEnd := ⟨[], List.forall_mem_nil _⟩
  beforeClose := ⟨[], List.forall_mem_nil _⟩
  quote := '"'
  blank_space := by decide
  quote_eq := .inl rfl

variable (l : Layout) (element : List Char)

/-- An opening tag. -/
def opening (name : List Char) : List Char :=
  '<' :: (element ++ l.space :: (l.more ++ 'n' :: 'a' :: 'm' :: 'e' :: (l.beforeEquals ++ '=' ::
    (l.afterEquals ++ l.quote :: (name ++ l.quote :: (l.beforeEnd ++ ['>']))))))

/-- A closing tag. -/
def closing : List Char :=
  '<' :: '/' :: (element ++ (l.beforeClose ++ ['>']))

theorem opening_append (name rest : List Char) : l.opening element name ++ rest =
    '<' :: (element ++ l.space :: (l.more ++ 'n' :: 'a' :: 'm' :: 'e' :: (l.beforeEquals ++ '=' ::
      (l.afterEquals ++ l.quote :: (name ++ l.quote :: (l.beforeEnd ++ '>' :: rest)))))) := by
  simp [opening]

theorem closing_append (rest : List Char) : l.closing element ++ rest =
    '<' :: '/' :: (element ++ (l.beforeClose ++ '>' :: rest)) := by
  simp [closing]

theorem quote_special : l.quote ∈ specials := by
  obtain same | same := l.quote_eq
  all_goals
    rw [same]
    decide

theorem isBlank_quote : isBlank l.quote = false := isBlank_of_quote l.quote_eq

theorem quotedToTagEnd?_append {name : List Char} (unquoted : l.quote ∉ name) (rest : List Char) :
    quotedToTagEnd? l.quote (name ++ l.quote :: (l.beforeEnd ++ '>' :: rest)) = some (name, rest) := by
  induction name with
  | nil =>
    rw [List.nil_append, quotedToTagEnd?, if_pos (beq_self_eq_true _), l.beforeEnd.skip (by decide)]
    rfl
  | cons c name ih =>
    rw [List.mem_cons, not_or] at unquoted
    rw [List.cons_append, quotedToTagEnd?, ih unquoted.2, if_neg (by simpa using Ne.symm unquoted.1)]
    rfl

theorem openTag?_opening {name : List Char} (unquoted : l.quote ∉ name) (rest : List Char) :
    openTag? element (l.opening element name ++ rest) = some (name, rest) := by
  rw [opening_append, openTag?_of_spacing element l.more l.beforeEquals l.afterEquals l.blank_space l.quote_eq]
  exact l.quotedToTagEnd?_append unquoted rest

end Layout

/-! ### Closing tags -/

/-- A text holds a closing tag of an element. -/
def Closes (element cs : List Char) : Prop :=
  ∃ (before : List Char) (blanks : Blanks) (after : List Char),
    cs = before ++ '<' :: '/' :: (element ++ (blanks ++ '>' :: after))

/-- The text after a closing tag that a text starts with. -/
def closing? (element cs : List Char) : Option (List Char) :=
  match dropStart? ('<' :: '/' :: element) cs with
  | none => none
  | some rest => match skipBlanks rest with
    | '>' :: after => some after
    | _ => none

theorem closeTag?_cons_eq (element : List Char) (c : Char) (cs : List Char) :
    closeTag? element (c :: cs) = match closing? element (c :: cs) with
      | some after => some ([], after)
      | none => (closeTag? element cs).map fun r => (c :: r.1, r.2) := by
  rw [closeTag?, closing?]
  cases dropStart? ('<' :: '/' :: element) (c :: cs) with
  | none => rfl
  | some rest =>
    dsimp only
    split <;> simp_all

theorem closing?_closing (element : List Char) (blanks : Blanks) (after : List Char) :
    closing? element ('<' :: '/' :: (element ++ (blanks ++ '>' :: after))) = some after := by
  have found := dropStart?_append ('<' :: '/' :: element) (blanks ++ '>' :: after)
  rw [closing?, ← List.cons_append, ← List.cons_append, found]
  dsimp only
  rw [blanks.skip (by decide)]
  rfl

theorem closing?_eq_some {element cs after : List Char} (closed : closing? element cs = some after) :
    ∃ blanks : Blanks, cs = '<' :: '/' :: (element ++ (blanks ++ '>' :: after)) := by
  unfold closing? at closed
  split at closed
  · contradiction
  · next rest found =>
    split at closed
    · next after' ended =>
      cases closed
      have blank : ∀ c ∈ rest.takeWhile isBlank, isBlank c = true := fun c hc => List.mem_takeWhile_imp hc
      refine ⟨⟨_, blank⟩, ?_⟩
      rw [dropStart?_eq_some found, ← ended, skipBlanks, List.takeWhile_append_dropWhile]
      rfl
    · contradiction

/-- What the closing tag of an element is made of, but for its bracket. -/
theorem notMem_closing {element : List Char} {z : Char} (other : z ∉ element) (slash : z ≠ '/')
    (bracket : z ≠ '>') (dark : isBlank z = false) (blanks : Blanks) :
    z ∉ '/' :: (element ++ (blanks ++ ['>'])) := by
  simp [other, slash, bracket, blanks.notMem dark]

/-- A closing tag in a text is on one side of any character that no closing tag has. -/
theorem Closes.split {element xs ys : List Char} {z : Char} (other : z ∉ element) (slash : z ≠ '/')
    (bracket : z ≠ '>') (dark : isBlank z = false) (start : z ≠ '<')
    (closes : Closes element (xs ++ z :: ys)) : Closes element xs ∨ Closes element ys := by
  obtain ⟨before, blanks, after, whole⟩ := closes
  have absent : z ∉ '<' :: '/' :: (element ++ (blanks ++ ['>'])) := by
    rw [List.mem_cons, not_or]
    exact ⟨start, notMem_closing other slash bracket dark blanks⟩
  have tag : '<' :: '/' :: (element ++ (blanks ++ '>' :: after)) =
      ('<' :: '/' :: (element ++ (blanks ++ ['>']))) ++ after := by
    simp
  rw [tag] at whole
  obtain ⟨k, rfl, rest⟩ | ⟨k, rfl, rest⟩ := List.append_eq_append_iff.mp whole
  · cases k with
    | nil => exact absurd (List.cons.inj rest).1 start
    | cons d k =>
      obtain ⟨-, rfl⟩ := List.cons.inj rest
      exact .inr ⟨k, blanks, after, by simp⟩
  · obtain ⟨j, rfl, -⟩ | ⟨j, short, rest⟩ := List.append_eq_append_iff.mp rest
    · exact .inl ⟨before, blanks, j, by simp⟩
    · cases j with
      | nil => exact .inl ⟨before, blanks, [], by rw [List.append_nil] at short; rw [← short]⟩
      | cons d j =>
        obtain ⟨rfl, -⟩ := List.cons.inj rest
        exact absurd (by rw [short]; simp) absent

theorem Closes.mem {element cs : List Char} (closes : Closes element cs) : '<' ∈ cs := by
  obtain ⟨before, blanks, after, rfl⟩ := closes
  simp

/-- Up to the next tag, a text without closing tags is passed over. -/
theorem closeTag?_append_of_not_closes {element cs before rest : List Char} (plain : '<' ∉ element)
    {m : List Char} (free : ¬ Closes element m)
    (closed : closeTag? element ('<' :: cs) = some (before, rest)) :
    closeTag? element (m ++ '<' :: cs) = some (m ++ before, rest) := by
  induction m with
  | nil => exact closed
  | cons c m ih =>
    have later : ¬ Closes element m := by
      rintro ⟨before, blanks, after, rfl⟩
      exact free ⟨c :: before, blanks, after, rfl⟩
    have missed : closing? element (c :: (m ++ '<' :: cs)) = none := by
      refine Option.eq_none_iff_forall_ne_some.mpr fun after found => ?_
      obtain ⟨blanks, whole⟩ := closing?_eq_some found
      have tag : '<' :: '/' :: (element ++ (blanks ++ '>' :: after)) =
          ('<' :: '/' :: (element ++ (blanks ++ ['>']))) ++ after := by
        simp
      rw [tag, ← List.cons_append] at whole
      obtain ⟨k, short, rest⟩ | ⟨k, long, -⟩ := List.append_eq_append_iff.mp whole
      · cases k with
        | nil =>
          rw [List.append_nil] at short
          exact free ⟨[], blanks, [], by rw [← short]; rfl⟩
        | cons d k =>
          -- The tag would go on over the next bracket.
          obtain ⟨rfl, -⟩ := List.cons.inj rest
          obtain ⟨-, inner⟩ := List.cons.inj short
          exact notMem_closing plain (by decide) (by decide) (by decide) blanks (by rw [inner]; simp)
      · exact free ⟨[], blanks, k, by rw [long]; simp⟩
    rw [List.cons_append, closeTag?_cons_eq, missed, ih later]
    rfl

/-- Reading ends at the first of the closing tags. -/
theorem exists_closeTag? (element before : List Char) (blanks : Blanks) (after : List Char) :
    ∃ inside rest, closeTag? element (before ++ '<' :: '/' :: (element ++ (blanks ++ '>' :: after))) =
      some (inside, rest) ∧ inside <+: before := by
  induction before with
  | nil =>
    refine ⟨[], after, ?_, List.prefix_refl _⟩
    rw [List.nil_append, closeTag?_cons_eq, closing?_closing]
  | cons c before ih =>
    obtain ⟨inside, rest, found, start⟩ := ih
    rw [List.cons_append, closeTag?_cons_eq, found]
    cases closing? element (c :: (before ++ '<' :: '/' :: (element ++ (blanks ++ '>' :: after)))) with
    | some after' => exact ⟨[], after', rfl, List.nil_prefix⟩
    | none => exact ⟨c :: inside, rest, rfl, List.cons_prefix_cons.mpr ⟨rfl, start⟩⟩

theorem not_closes_of_closeTag? {element cs : List Char} (none : closeTag? element cs = none) :
    ¬ Closes element cs := by
  rintro ⟨before, blanks, after, rfl⟩
  obtain ⟨inside, rest, found, -⟩ := exists_closeTag? element before blanks after
  rw [none] at found
  contradiction

theorem closeTag?_closing_append (l : Layout) (element rest : List Char) :
    closeTag? element (l.closing element ++ rest) = some ([], rest) := by
  rw [l.closing_append, closeTag?_cons_eq, closing?_closing]

/-! ### Parameters and calls -/

/-- A parameter as it is written: the characters inside its element are not decoded yet. -/
structure Item where
  layout : Layout
  key : String
  markup : List Char

namespace Item

/-- The element of a parameter. -/
def text (x : Item) : List Char :=
  x.layout.before ++ (x.layout.opening parameterName x.key.toList ++
    (x.markup ++ x.layout.closing parameterName))

/-- A key that stands for itself. -/
def Keyed (x : Item) : Prop :=
  x.key ≠ "" ∧ trim x.key = x.key ∧ ∀ c ∈ x.key.toList, c ∉ specials

instance : DecidablePred Keyed := fun x =>
  letI := List.decidableBAll (· ∉ specials) x.key.toList
  inferInstanceAs (Decidable (_ ∧ _ ∧ ∀ c ∈ x.key.toList, c ∉ specials))

/-- The value of a parameter. -/
def value (x : Item) : String := String.ofList (decodeText x.markup)

end Item

/-- A call as an invoke element in any layout. -/
def blockText (outer : Layout) (last : Blanks) (name : String) (items : List Item) : List Char :=
  outer.before ++ (outer.opening invokeName name.toList ++
    (items.flatMap Item.text ++ last ++ outer.closing invokeName))

theorem element?_of_blank {element : List Char} (blanks : Blanks) :
    ∀ c ∈ blanks.val, ∀ more, element? element (c :: more) = none := by
  intro c hc more
  refine element?_eq_none (dropStart?_cons_of_ne ?_ _ _)
  rintro rfl
  exact blanks.notMem (by decide) hc

theorem element?_opening (l : Layout) (element : List Char) {name cs inside rest : List Char}
    (unquoted : l.quote ∉ name) (closed : closeTag? element cs = some (inside, rest)) :
    element? element (l.opening element name ++ cs) = some (⟨name, inside⟩, rest) := by
  rw [element?, l.openTag?_opening element unquoted]
  simp only [Option.bind_eq_bind, Option.bind_some, closed]

theorem length_closeTag? {element cs inside rest : List Char}
    (closed : closeTag? element cs = some (inside, rest)) : rest.length < cs.length := by
  induction cs generalizing inside with
  | nil => contradiction
  | cons c cs ih =>
    rw [closeTag?_cons_eq] at closed
    split at closed
    · next after found =>
      obtain ⟨blanks, whole⟩ := closing?_eq_some found
      cases closed
      rw [whole]
      simp
      omega
    · obtain ⟨⟨inside', rest'⟩, found, same⟩ := Option.map_eq_some_iff.mp closed
      cases same
      exact (ih found).trans (Nat.lt_succ_self _)

/-- The first element that is found in a text with an opening tag after white space. -/
theorem findEach_opening (l : Layout) (element : List Char) {name cs inside rest : List Char}
    (unquoted : l.quote ∉ name) (closed : closeTag? element cs = some (inside, rest)) (offset : Nat) :
    ∃ later, findEach (element? element) offset (l.before ++ (l.opening element name ++ cs)) =
      (offset + l.before.val.length, ⟨name, inside⟩) :: findEach (element? element) later rest := by
  have shorter : rest.length < (l.opening element name ++ cs).length :=
    (length_closeTag? closed).trans_le (by simp)
  rw [findEach_append (element?_of_blank l.before),
    findEach_hit (element?_opening l element unquoted closed) shorter]
  exact ⟨_, rfl⟩

theorem Item.Keyed.unquoted {x : Item} (keyed : x.Keyed) (l : Layout) : l.quote ∉ x.key.toList := fun mem =>
  keyed.2.2 _ mem l.quote_special

/-- The elements of parameters that no closing tag cuts short are found, whatever follows them. -/
theorem exists_findEach_items {items : List Item} (keyed : ∀ x ∈ items, x.Keyed)
    (free : ∀ x ∈ items, ¬ Closes parameterName x.markup) (cs : List Char) (offset : Nat) :
    ∃ found later, findEach (element? parameterName) offset (items.flatMap Item.text ++ cs) =
        found ++ findEach (element? parameterName) later cs ∧
      found.map Prod.snd = items.map fun x => ⟨x.key.toList, x.markup⟩ := by
  induction items generalizing offset with
  | nil => exact ⟨[], offset, rfl, rfl⟩
  | cons x items ih =>
    obtain ⟨first_keyed, keyed⟩ := List.forall_mem_cons.mp keyed
    obtain ⟨first_free, free⟩ := List.forall_mem_cons.mp free
    have closed : closeTag? parameterName (x.markup ++ (x.layout.closing parameterName ++
        (items.flatMap Item.text ++ cs))) = some (x.markup, items.flatMap Item.text ++ cs) := by
      have tag := closeTag?_closing_append x.layout parameterName (items.flatMap Item.text ++ cs)
      rw [x.layout.closing_append] at tag ⊢
      simpa using closeTag?_append_of_not_closes (by decide) first_free tag
    obtain ⟨next, first⟩ := findEach_opening x.layout parameterName (first_keyed.unquoted _) closed offset
    obtain ⟨found, later, rest, elements⟩ := ih keyed free next
    refine ⟨(offset + x.layout.before.val.length, ⟨x.key.toList, x.markup⟩) :: found, later, ?_, ?_⟩
    · rw [List.cons_append, ← rest, ← first]
      simp [Item.text]
    · rw [List.map_cons, elements, List.map_cons]

theorem findEach_blanks (element : List Char) (blanks : Blanks) (offset : Nat) :
    findEach (element? element) offset blanks = [] := by
  have missed : ∀ c ∈ blanks.val, ∀ more, element? element (c :: more) = none := element?_of_blank blanks
  have none := findEach_append missed offset []
  rwa [List.append_nil, findEach_nil] at none

theorem Item.Keyed.key_eq {x : Item} (keyed : x.Keyed) :
    Element.key ⟨x.key.toList, x.markup⟩ = x.key.toList := by
  have decoded := unescape_escape x.key.toList
  rw [escape_of_ordinary keyed.2.2] at decoded
  rw [Element.key, decoded, trimChars_of_trim_eq keyed.2.1]

theorem Item.Keyed.filled {x : Item} (keyed : x.Keyed) : x.key.toList.isEmpty = false := by
  simpa [List.isEmpty_iff] using keyed.1

/-- The parameters of a call are those that were written, if no closing tag cuts one short. -/
theorem parameters_items {items : List Item} (keyed : ∀ x ∈ items, x.Keyed)
    (free : ∀ x ∈ items, ¬ Closes parameterName x.markup) (last : Blanks) :
    parameters (items.flatMap Item.text ++ last) = items.map fun x => (x.key, x.value.toList) := by
  obtain ⟨found, later, whole, elements⟩ := exists_findEach_items keyed free last 0
  rw [parameters, whole, findEach_blanks, List.append_nil]
  have each : (fun p : Nat × Element => if p.2.key.isEmpty then none
      else some (String.ofList p.2.key, decodeText p.2.body)) =
      (fun e : Element => if e.key.isEmpty then none
        else some (String.ofList e.key, decodeText e.body)) ∘ Prod.snd := rfl
  rw [each, ← List.filterMap_map, elements, List.filterMap_map]
  clear whole elements
  induction items with
  | nil => rfl
  | cons x items ih =>
    obtain ⟨first, keyed⟩ := List.forall_mem_cons.mp keyed
    rw [List.filterMap_cons, List.map_cons, ← ih keyed (fun y hy => free y (List.mem_cons_of_mem _ hy)),
      Function.comp_apply, first.key_eq, first.filled]
    simp [Item.value]

/-- Only a closing tag inside a parameter ends a call early. -/
theorem closeTag?_items {items : List Item} (keyed : ∀ x ∈ items, x.Keyed)
    (free : ∀ x ∈ items, ¬ Closes invokeName x.markup) {cs inside rest : List Char}
    (closed : closeTag? invokeName cs = some (inside, rest)) :
    closeTag? invokeName (items.flatMap Item.text ++ cs) =
      some (items.flatMap Item.text ++ inside, rest) := by
  induction items with
  | nil => exact closed
  | cons x items ih =>
    obtain ⟨first_keyed, keyed⟩ := List.forall_mem_cons.mp keyed
    obtain ⟨first_free, free⟩ := List.forall_mem_cons.mp free
    -- Neither tag of the parameter closes the call; the tags are passed over from the last one on.
    have closing := closeTag?_append
      (by simp [parameterName, x.layout.beforeClose.notMem (by decide : isBlank '<' = false)] :
        '<' ∉ '/' :: (parameterName ++ (x.layout.beforeClose ++ ['>']))) (ih keyed free)
    have inner := closeTag?_append_of_not_closes (by decide) first_free (closeTag?_cons rfl closing)
    have key : '<' ∉ x.key.toList := fun mem => first_keyed.2.2 _ mem (by decide)
    have space : '<' ≠ x.layout.space := by
      rintro same
      have := x.layout.blank_space
      rw [← same] at this
      contradiction
    have quote : '<' ≠ x.layout.quote := by
      obtain same | same := x.layout.quote_eq
      all_goals
        rw [same]
        decide
    have plain : '<' ∉ parameterName ++ x.layout.space :: (x.layout.more ++ 'n' :: 'a' :: 'm' :: 'e' ::
        (x.layout.beforeEquals ++ '=' :: (x.layout.afterEquals ++ x.layout.quote :: (x.key.toList ++
          x.layout.quote :: (x.layout.beforeEnd ++ ['>']))))) := by
      simp [parameterName, key, space, quote, Blanks.notMem _ (by decide : isBlank '<' = false)]
    have opening := closeTag?_append plain inner
    have whole := closeTag?_append (x.layout.before.notMem (by decide)) (closeTag?_cons rfl opening)
    simpa [Item.text, Layout.opening, Layout.closing] using whole

end CodeAgent.InvokeBlock
