import Mathlib.Algebra.GroupWithZero.Nat
import CodeAgent.Proofs.Text.Blank
import CodeAgent.Proofs.ToolCall.ElementText
import CodeAgent.Proofs.ToolCall.MixedText

/-! Values written as verbatim sections: the section is the value, unless it holds a closing tag. The
elements of a call are cut out before its sections are looked for, so a closing tag inside a section ends its
element. That something is then missing is seen by counting characters. -/
namespace CodeAgent
open CodeAgent.Text

namespace Markup

theorem entity?_suffix {cs rest : List Char} {c : Char} (found : entity? cs = some (c, rest)) :
    rest <:+ cs := by
  unfold entity? at found
  split at found
  · contradiction
  · next e more after =>
    obtain ⟨_, -, same⟩ := Option.map_eq_some_iff.mp found
    obtain ⟨-, rfl⟩ := Prod.mk.inj same
    exact (List.suffix_cons e more).trans (after ▸ List.dropWhile_suffix _)

/-- Decoding writes no more than it reads. -/
theorem ink_unescape_le (cs : List Char) : ink (unescape cs) ≤ ink cs := by
  have single (c : Char) : ink [c] ≤ 1 := List.countP_le_length
  fun_induction unescape cs with
  | case1 => exact Nat.le_refl _
  | case2 cs d rest found shorter ih =>
    have kept : ink rest ≤ ink cs := (entity?_suffix found).sublist.countP_le
    rw [ink_cons, ink_cons '&']
    have mark : ink ['&'] = 1 := rfl
    have := single d
    omega
  | case3 cs _ ih =>
    rw [ink_cons, ink_cons '&' cs]
    omega
  | case4 c cs _ ih =>
    rw [ink_cons, ink_cons c cs]
    omega

theorem ink_decodeText_le (cs : List Char) : ink (decodeText cs) ≤ ink cs := by
  fun_induction decodeText cs with
  | case1 cs plain => exact ink_unescape_le cs
  | case2 cs before inside after found shorter ih =>
    have whole : cs = before ++ verbatimOpen ++ (inside ++ verbatimClose ++ after) := by
      unfold section? at found
      simp only [Option.bind_eq_bind, Option.bind_eq_some_iff, Option.some.injEq, Prod.mk.injEq,
        Prod.exists] at found
      obtain ⟨_, rest, opened, _, _, closed, rfl, rfl, rfl⟩ := found
      rw [cutAt?_eq_some opened, cutAt?_eq_some closed]
    have first := ink_unescape_le before
    rw [whole]
    simp only [ink_append]
    omega

end Markup

namespace InvokeBlock
open Markup

/-! ### What elements are made of -/

/-- What an element takes up in a text at least: its name, its body, and the tags. -/
def Element.weight (e : Element) : Nat := ink e.name + ink e.body + 30

theorem ink_quotedToTagEnd? {quote : Char} (dark : isBlank quote = false) {cs name rest : List Char}
    (read : quotedToTagEnd? quote cs = some (name, rest)) : ink name + 2 + ink rest ≤ ink cs := by
  induction cs generalizing name with
  | nil => contradiction
  | cons c cs ih =>
    have onward (further : (quotedToTagEnd? quote cs).map (fun r => (c :: r.1, r.2)) = some (name, rest)) :
        ink name + 2 + ink rest ≤ ink (c :: cs) := by
      obtain ⟨⟨name', rest'⟩, found, same⟩ := Option.map_eq_some_iff.mp further
      cases same
      have := ih found
      rw [ink_cons c name', ink_cons c cs]
      omega
    rw [quotedToTagEnd?] at read
    split at read
    · next same =>
      obtain rfl : c = quote := by simpa using same
      split at read
      · next after ended =>
        cases read
        have mark : ink [c] = 1 := by simp [ink, dark]
        have bracket : ink ['>'] = 1 := rfl
        have kept := ink_dropWhile cs
        rw [← skipBlanks, ended, ink_cons] at kept
        rw [ink_cons, ink_nil]
        omega
      · exact onward read
    · exact onward read

theorem ink_skipBlanks? {cs rest : List Char} (read : skipBlanks? cs = some rest) : ink rest ≤ ink cs := by
  cases cs with
  | nil => contradiction
  | cons c cs =>
    rw [skipBlanks?] at read
    split at read
    · cases read
      rw [skipBlanks, ink_dropWhile, ink_cons c cs]
      omega
    · contradiction

theorem ink_openTag? {cs name rest : List Char} (read : openTag? parameterName cs = some (name, rest)) :
    ink name + 18 + ink rest ≤ ink cs := by
  simp only [openTag?, Option.bind_eq_bind, Option.bind_eq_some_iff] at read
  obtain ⟨afterElement, opened, afterSpace, spaced, afterName, named, afterEquals, assigned, quoted⟩ := read
  have element := congrArg ink (dropStart?_eq_some opened)
  have space := ink_skipBlanks? spaced
  have word := congrArg ink (dropStart?_eq_some named)
  have equals := congrArg ink (dropStart?_eq_some assigned)
  rw [ink_append] at element word equals
  rw [skipBlanks, ink_dropWhile] at equals
  have value : ink name + 3 + ink rest ≤ ink afterEquals := by
    rw [← ink_dropWhile afterEquals, ← skipBlanks]
    split at quoted
    · next value start =>
      have inner := ink_quotedToTagEnd? (by decide) quoted
      have mark : ink ['"'] = 1 := rfl
      rw [start, ink_cons]
      omega
    · next value start =>
      have inner := ink_quotedToTagEnd? (by decide) quoted
      have mark : ink ['\''] = 1 := rfl
      rw [start, ink_cons]
      omega
    · contradiction
  have sizes : ink ('<' :: parameterName) = 10 ∧ ink ['n', 'a', 'm', 'e'] = 4 ∧ ink ['='] = 1 := by decide
  omega

theorem ink_closeTag? {cs inside rest : List Char}
    (read : closeTag? parameterName cs = some (inside, rest)) : ink inside + 12 + ink rest = ink cs := by
  induction cs generalizing inside with
  | nil => contradiction
  | cons c cs ih =>
    rw [closeTag?_cons_eq] at read
    split at read
    · next after found =>
      obtain ⟨blanks, whole⟩ := closing?_eq_some found
      cases read
      have tag : '<' :: '/' :: (parameterName ++ (blanks ++ '>' :: rest)) =
          ('<' :: '/' :: parameterName) ++ (blanks ++ (['>'] ++ rest)) := rfl
      have sizes : ink ('<' :: '/' :: parameterName) = 11 ∧ ink ['>'] = 1 := by decide
      rw [whole, tag, ink_append, ink_append, ink_append, ink_of_blank blanks.property, ink_nil]
      omega
    · obtain ⟨⟨inside', rest'⟩, found, same⟩ := Option.map_eq_some_iff.mp read
      cases same
      have := ih found
      rw [ink_cons c inside', ink_cons c cs]
      omega

/-- The elements in a text take up no more than there is. -/
theorem weight_findEach_le (offset : Nat) (cs : List Char) :
    ((findEach (element? parameterName) offset cs).map fun p => p.2.weight).sum ≤ ink cs := by
  fun_induction findEach (element? parameterName) offset cs with
  | case1 => exact Nat.zero_le _
  | case2 offset c cs missed ih =>
    rw [ink_cons]
    omega
  | case3 offset c cs e rest found shorter ih =>
    simp only [element?, Option.bind_eq_bind, Option.bind_eq_some_iff, Option.some.injEq, Prod.exists,
      Prod.mk.injEq] at found
    obtain ⟨name, afterTag, opened, inside, after, closed, rfl, rfl⟩ := found
    have first := ink_openTag? opened
    have last := ink_closeTag? closed
    rw [List.map_cons, List.sum_cons, Element.weight]
    dsimp only
    omega
  | case4 offset c cs e rest found longer ih =>
    rw [ink_cons]
    omega

/-! ### What a call says of the elements it was read from -/

theorem mem_of_mapM_entry? {values : List (String × List Char)} {entries : List (String × Json × String)}
    (read : values.mapM (fun p => entry? p.1 p.2) = some entries) {e : String × Json × String}
    (mem : e ∈ entries) : ∃ value, (e.1, value) ∈ values ∧ e.2.2 = String.ofList (trimChars value) := by
  induction values generalizing entries with
  | nil =>
    rw [List.mapM_nil] at read
    cases read
    contradiction
  | cons p values ih =>
    simp only [List.mapM_cons, Option.bind_eq_bind, Option.bind_eq_some_iff, Option.pure_def,
      Option.some.injEq] at read
    obtain ⟨first, made, others, rest, rfl⟩ := read
    obtain rfl | mem := List.mem_cons.mp mem
    · obtain ⟨v, -, rfl⟩ := Option.map_eq_some_iff.mp made
      exact ⟨p.2, List.mem_cons_self, rfl⟩
    · obtain ⟨value, later, text⟩ := ih rest mem
      exact ⟨value, List.mem_cons_of_mem _ later, text⟩

/-- Every text of a call is the trimmed value of an element. -/
theorem exists_element_of_rawText {name : String} {found : List (Nat × Element)} {call : ToolCall}
    (made : call? name (found.filterMap fun (_, e) =>
      if e.key.isEmpty then none else some (String.ofList e.key, decodeText e.body)) = some call)
    {key text : String} (mem : (key, text) ∈ call.rawText) :
    ∃ p ∈ found, p.2.key = key.toList ∧ trimChars (decodeText p.2.body) = text.toList := by
  obtain ⟨entries, read, rfl⟩ := Option.map_eq_some_iff.mp made
  obtain ⟨e, entry, same⟩ := List.mem_map.mp (OrderedMap.mem_of_mem_ofPairs mem)
  obtain ⟨rfl, rfl⟩ := Prod.mk.inj same
  obtain ⟨value, mem, text⟩ := mem_of_mapM_entry? read entry
  obtain ⟨p, present, named⟩ := List.mem_filterMap.mp mem
  dsimp only at named
  split at named
  · contradiction
  · obtain ⟨key, rfl⟩ := Prod.mk.inj (Option.some.inj named)
    exact ⟨p, present, by rw [← key, String.toList_ofList], by rw [text, String.toList_ofList]⟩

/-- What a key and a value take up as an element at least. -/
def weightOf (p : String × String) : Nat := ink p.1.toList + ink p.2.toList + 30

/-- Values under different keys that are all read from some elements take up no more than these. -/
theorem weightOf_sum_le {values : List (String × String)} (distinct : (OrderedMap.keys values).Nodup)
    {found : List (Nat × Element)}
    (each : ∀ p ∈ values, ∃ e ∈ found, e.2.key = p.1.toList ∧ weightOf p ≤ e.2.weight) :
    (values.map weightOf).sum ≤ (found.map fun p => p.2.weight).sum := by
  induction values generalizing found with
  | nil => exact Nat.zero_le _
  | cons p values ih =>
    rw [OrderedMap.keys, List.map_cons, List.nodup_cons] at distinct
    obtain ⟨⟨e, mem, key, heavy⟩, each⟩ := List.forall_mem_cons.mp each
    obtain ⟨before, after, rfl⟩ := List.append_of_mem mem
    have others : (values.map weightOf).sum ≤ ((before ++ after).map fun p => p.2.weight).sum := by
      apply ih distinct.2
      intro q hq
      obtain ⟨f, mem, key', heavy'⟩ := each q hq
      have other : f ≠ e := by
        rintro rfl
        have same := String.toList_injective (key.symm.trans key')
        exact distinct.1 (List.mem_map.mpr ⟨q, hq, same.symm⟩)
      exact ⟨f, by simpa [other] using mem, key', heavy'⟩
    simp only [List.map_append, List.sum_append, List.map_cons, List.sum_cons] at others ⊢
    omega

/-! ### Calls with a verbatim section -/

theorem ink_opening (l : Layout) (name : List Char) :
    ink (l.opening parameterName name) = ink name + 18 := by
  have quote : ink [l.quote] = 1 := by simp [ink, l.isBlank_quote]
  have space : ink [l.space] = 0 := by simp [ink, l.blank_space]
  have blanks (b : Blanks) : ink b.val = 0 := ink_of_blank b.property
  have tag : l.opening parameterName name = ('<' :: parameterName) ++ ([l.space] ++ (l.more ++
      (['n', 'a', 'm', 'e'] ++ (l.beforeEquals ++ (['='] ++ (l.afterEquals ++ ([l.quote] ++ (name ++
        ([l.quote] ++ (l.beforeEnd ++ ['>'])))))))))) := rfl
  have sizes : ink ('<' :: parameterName) = 10 ∧ ink ['n', 'a', 'm', 'e'] = 4 ∧ ink ['='] = 1 ∧
      ink ['>'] = 1 := by decide
  simp only [tag, ink_append, quote, space, blanks]
  omega

theorem ink_closing (l : Layout) : ink (l.closing parameterName) = 12 := by
  have tag : l.closing parameterName = ('<' :: '/' :: parameterName) ++ (l.beforeClose ++ ['>']) := rfl
  have sizes : ink ('<' :: '/' :: parameterName) = 11 ∧ ink ['>'] = 1 := by decide
  rw [tag, ink_append, ink_append, ink_of_blank l.beforeClose.property]
  omega

theorem ink_text (x : Item) : ink x.text = ink x.key.toList + ink x.markup + 30 := by
  rw [Item.text, ink_append, ink_append, ink_append, ink_opening, ink_closing,
    ink_of_blank x.layout.before.property]
  omega

namespace Item

/-- The characters of a value that stand for themselves. -/
def Plain (x : Item) : Prop := ∀ c ∈ x.markup, c ∉ specials

instance : DecidablePred Plain := fun x => List.decidableBAll (· ∉ specials) x.markup

theorem Plain.decodeText_eq {x : Item} (plain : x.Plain) : decodeText x.markup = x.markup := by
  have decoded := decodeText_escape x.markup
  rwa [escape_of_ordinary plain] at decoded

theorem Plain.not_closes {x : Item} (plain : x.Plain) (element : List Char) : ¬ Closes element x.markup :=
  fun closes => plain _ closes.mem (by decide)

theorem Plain.weightOf_eq {x : Item} (plain : x.Plain) : weightOf (x.key, x.value) = ink x.text := by
  rw [weightOf, ink_text, value, String.toList_ofList, plain.decodeText_eq]

/-- A parameter whose value is written as a verbatim section. -/
def verbatim (l : Layout) (key c : String) : Item := ⟨l, key, Markup.verbatim c.toList⟩

/-- The keys and values of parameters. -/
def pairs (items : List Item) : List (String × String) := items.map fun x => (x.key, x.value)

end Item

theorem weightOf_pairs {items : List Item} (plain : ∀ x ∈ items, x.Plain) :
    ((Item.pairs items).map weightOf).sum = ink (items.flatMap Item.text) := by
  induction items with
  | nil => rfl
  | cons x items ih =>
    obtain ⟨first, plain⟩ := List.forall_mem_cons.mp plain
    rw [Item.pairs, List.map_cons, List.map_cons, List.sum_cons, List.flatMap_cons, ink_append,
      first.weightOf_eq, ← ih plain]
    rfl

/-- A closing tag in a verbatim section is one in the text that it stands for. -/
theorem closes_of_closes_verbatim {element c : List Char} (other : ']' ∉ element) (open_other : '[' ∉ element)
    (closes : Closes element (verbatim c)) : Closes element c := by
  have inner : verbatim c = ['<', '!'] ++ '[' :: (['C', 'D', 'A', 'T', 'A'] ++ '[' :: (c ++ ']' ::
      ([] ++ ']' :: ['>']))) := rfl
  rw [inner] at closes
  obtain start | closes := closes.split open_other (by decide) (by decide) (by decide) (by decide)
  · obtain ⟨before, blanks, after, whole⟩ := start
    match before with
    | [] => simp at whole
    | [_] => simp at whole
    | _ :: _ :: before => simp at whole
  · obtain word | closes := closes.split open_other (by decide) (by decide) (by decide) (by decide)
    · exact absurd word.mem (by decide)
    · obtain here | closes := closes.split other (by decide) (by decide) (by decide) (by decide)
      · exact here
      · obtain rest | rest := closes.split other (by decide) (by decide) (by decide) (by decide)
        · exact absurd rest.mem (by decide)
        · exact absurd rest.mem (by decide)

/-- A text may stand in a verbatim section: it holds no closing tag, and is no integer of too many
digits. -/
structure Sectionable (c : String) : Prop where
  parameter : ¬ Closes parameterName c.toList
  invoke : ¬ Closes invokeName c.toList
  short : Scalar.NoLongInteger c

section Block
variable {outer : Layout} {last : Blanks} {name : String} {items : List Item}

/-- A call that no closing tag ends early is the one element of its block. -/
theorem findEach_block (unquoted : outer.quote ∉ name.toList) (keyed : ∀ x ∈ items, x.Keyed)
    (free : ∀ x ∈ items, ¬ Closes invokeName x.markup) :
    findEach (element? invokeName) 0 (blockText outer last name items) =
      [(outer.before.val.length, ⟨name.toList, items.flatMap Item.text ++ last⟩)] := by
  have tag := closeTag?_closing_append outer invokeName []
  rw [List.append_nil] at tag
  have closed := closeTag?_items keyed free (closeTag?_append (last.notMem (by decide)) tag)
  obtain ⟨later, found⟩ := findEach_opening outer invokeName unquoted closed 0
  rw [findEach_nil, Nat.zero_add] at found
  rw [blockText, List.append_assoc (items.flatMap Item.text), found, List.append_nil]

/-- The block of a call has the element that its first closing tag ends. -/
theorem exists_findEach_block (unquoted : outer.quote ∉ name.toList) {before after : List Char}
    (blanks : Blanks) (split : items.flatMap Item.text ++ last ++ outer.closing invokeName =
      before ++ '<' :: '/' :: (invokeName ++ (blanks ++ '>' :: after))) :
    ∃ inside more, findEach (element? invokeName) 0 (blockText outer last name items) =
      (outer.before.val.length, ⟨name.toList, inside⟩) :: more ∧ inside <+: before := by
  obtain ⟨inside, rest, closed, start⟩ := exists_closeTag? invokeName before blanks after
  rw [← split] at closed
  obtain ⟨later, found⟩ := findEach_opening outer invokeName unquoted closed 0
  rw [Nat.zero_add] at found
  exact ⟨inside, _, found, start⟩

end Block

/-- The first of the elements that were found made the only call. -/
theorem call?_of_extract {cs : List Char} {tool : Tool} {offset : Nat} {inside : List Char}
    {more : List (Nat × Element)} (keyed : Element.key ⟨tool.name.toList, inside⟩ = tool.name.toList)
    (found : findEach (element? invokeName) 0 cs = (offset, ⟨tool.name.toList, inside⟩) :: more)
    {at' : Nat} {call : ToolCall} (one : extract cs = [(at', call)]) :
    call? tool.name (parameters inside) = some call := by
  rw [extract, found, callsOf] at one
  simp only [keyed, String.ofList_toList, Tool.isAllowed, Tool.ofName?_name] at one
  cases made : call? tool.name (parameters inside) with
  | none => simp [made] at one
  | some call' =>
    simp only [made] at one
    obtain ⟨same, -⟩ := List.cons.inj one
    rw [(Prod.mk.inj same).2]

theorem tool_name_ordinary (tool : Tool) : ∀ d ∈ tool.name.toList, d ∉ specials := fun d hd special => by
  have named := tool.name_chars d hd
  obtain rfl | rfl | rfl | rfl | rfl := by simpa [specials] using special
  all_goals exact absurd named (by decide)

theorem key_tool_name (tool : Tool) (body : List Char) :
    Element.key ⟨tool.name.toList, body⟩ = tool.name.toList := by
  have decoded := unescape_escape tool.name.toList
  rw [escape_of_ordinary (tool_name_ordinary tool)] at decoded
  rw [Element.key, decoded]
  cases tool <;> rfl

/-- Every value that a call carries was read from an element. -/
theorem exists_element_of_carries {tool : Tool} {body : List Char} {call : ToolCall}
    {values : List (String × String)} (made : call? tool.name (parameters body) = some call)
    (carries : call.Carries tool.name values) :
    ∀ p ∈ values, ∃ e ∈ findEach (element? parameterName) 0 body, e.2.key = p.1.toList ∧
      ink (decodeText e.2.body) = ink p.2.toList ∧ weightOf p ≤ e.2.weight := by
  intro p mem
  have present : (p.1, trim p.2) ∈ call.rawText := by
    rw [carries.rawText_eq]
    exact List.mem_map.mpr ⟨p, mem, rfl⟩
  obtain ⟨e, found, named, text⟩ := exists_element_of_rawText made present
  have same : ink (decodeText e.2.body) = ink p.2.toList := by
    have trimmed := congrArg ink text
    rwa [trim, String.toList_ofList, ink_trimChars, ink_trimChars] at trimmed
  refine ⟨e, found, named, same, ?_⟩
  have body_le := ink_decodeText_le e.2.body
  have name_le : ink p.1.toList ≤ ink e.2.name := by
    rw [← named, Element.key, ink_trimChars]
    exact ink_unescape_le _
  rw [weightOf, Element.weight]
  omega

/-- A call as an invoke element, one value of which is a verbatim section. The other values stand for
themselves, and none is an integer of too many digits. -/
structure VerbatimCall where
  tool : Tool
  outer : Layout
  last : Blanks
  earlier : List Item
  layout : Layout
  key : String
  content : String
  later : List Item
  keyed : ∀ x ∈ earlier ++ Item.verbatim layout key content :: later, x.Keyed
  distinct : ((earlier ++ Item.verbatim layout key content :: later).map Item.key).Nodup
  plain : ∀ x ∈ earlier ++ later, x.Plain
  short : ∀ x ∈ earlier ++ later, Scalar.NoLongInteger x.value
  unended : ¬ verbatimClose <:+: content.toList

namespace VerbatimCall
variable (v : VerbatimCall)

/-- The parameters of the call. -/
def items : List Item := v.earlier ++ Item.verbatim v.layout v.key v.content :: v.later

/-- The call as it is written. -/
def text : List Char := blockText v.outer v.last v.tool.name v.items

/-- The values of the call. -/
def values : OrderedMap String := Item.pairs v.items

theorem keyed_items : ∀ x ∈ v.items, x.Keyed := v.keyed

theorem plain_earlier : ∀ x ∈ v.earlier, x.Plain := fun x hx => v.plain x (List.mem_append_left _ hx)

theorem plain_later : ∀ x ∈ v.later, x.Plain := fun x hx => v.plain x (List.mem_append_right _ hx)

theorem forall_items {P : Item → Prop} (others : ∀ x ∈ v.earlier ++ v.later, P x)
    (one : P (Item.verbatim v.layout v.key v.content)) : ∀ x ∈ v.items, P x := by
  intro x hx
  obtain hx | hx := List.mem_append.mp hx
  · exact others x (List.mem_append_left _ hx)
  · obtain rfl | hx := List.mem_cons.mp hx
    · exact one
    · exact others x (List.mem_append_right _ hx)

theorem unquoted (l : Layout) : l.quote ∉ v.tool.name.toList := fun mem =>
  tool_name_ordinary v.tool _ mem l.quote_special

theorem value_eq : (Item.verbatim v.layout v.key v.content).value = v.content := by
  rw [Item.value, Item.verbatim, decodeText_verbatim v.unended, String.ofList_toList]

theorem values_eq :
    v.values = Item.pairs v.earlier ++ (v.key, v.content) :: Item.pairs v.later := by
  rw [values, items, Item.pairs, List.map_append, List.map_cons, v.value_eq]
  rfl

theorem values_nodup : (OrderedMap.keys v.values).Nodup := by
  have names : OrderedMap.keys v.values = v.items.map Item.key := by
    simp [values, Item.pairs, OrderedMap.keys, List.map_map, Function.comp_def]
  rw [names]
  exact v.distinct

theorem mem_values : (v.key, v.content) ∈ v.values := by
  rw [values_eq]
  simp

/-- What the values take up. -/
theorem weightOf_values : (v.values.map weightOf).sum = ink (v.earlier.flatMap Item.text) +
    (ink v.key.toList + ink v.content.toList + 30) + ink (v.later.flatMap Item.text) := by
  rw [v.values_eq, List.map_append, List.map_cons, List.sum_append, List.sum_cons,
    weightOf_pairs v.plain_earlier, weightOf_pairs v.plain_later, weightOf]
  dsimp only
  omega

theorem ink_marks : ink verbatimOpen = 9 ∧ ink verbatimClose = 3 := by decide

/-- A closing tag of the call inside the section ends the call, and what is left is too short. -/
theorem not_closes_invoke {offset : Nat} {call : ToolCall} (one : extract v.text = [(offset, call)])
    (carries : call.Carries v.tool.name v.values) : ¬ Closes invokeName v.content.toList := by
  rintro ⟨before, blanks, after, split⟩
  have cut : v.items.flatMap Item.text ++ v.last ++ v.outer.closing invokeName =
      (v.earlier.flatMap Item.text ++ (v.layout.before ++ (v.layout.opening parameterName v.key.toList ++
        (verbatimOpen ++ before)))) ++ '<' :: '/' :: (invokeName ++ (blanks ++ '>' ::
          (after ++ (verbatimClose ++ (v.layout.closing parameterName ++ (v.later.flatMap Item.text ++
            (v.last ++ v.outer.closing invokeName))))))) := by
    simp [items, Item.text, Item.verbatim, verbatim, split]
  obtain ⟨inside, more, found, start⟩ := exists_findEach_block (v.unquoted _) blanks cut
  have made := call?_of_extract (key_tool_name v.tool inside) found one
  have read : (v.values.map weightOf).sum ≤
      ((findEach (element? parameterName) 0 inside).map fun p => p.2.weight).sum := by
    apply weightOf_sum_le v.values_nodup
    intro p hp
    obtain ⟨e, mem, named, -, heavy⟩ := exists_element_of_carries made carries p hp
    exact ⟨e, mem, named, heavy⟩
  have fits := weight_findEach_le 0 inside
  have tag : ink ('<' :: '/' :: (invokeName ++ (blanks ++ '>' :: after))) = 9 + ink after := by
    have mark : ink ('<' :: '/' :: invokeName) = 8 ∧ ink ['>'] = 1 := by decide
    have shape : '<' :: '/' :: (invokeName ++ (blanks ++ '>' :: after)) =
        ('<' :: '/' :: invokeName) ++ (blanks ++ (['>'] ++ after)) := rfl
    rw [shape, ink_append, ink_append, ink_append, ink_of_blank blanks.property]
    omega
  have whole := congrArg ink split
  rw [ink_append, tag] at whole
  have left := ink_le_of_prefix start
  simp only [ink_append, ink_opening, ink_of_blank v.layout.before.property] at left
  rw [v.weightOf_values] at read
  have marks := ink_marks
  omega

/-- A closing tag of the parameter inside the section leaves an element with less than the content. -/
theorem exists_cut_element (closes : Closes parameterName v.content.toList) :
    ∃ before offset e after, findEach (element? parameterName) 0 (v.items.flatMap Item.text ++ v.last) =
      before ++ (offset, e) :: after ∧ e.key = v.key.toList ∧
      ink (decodeText e.body) < ink v.content.toList := by
  obtain ⟨before, blanks, after, split⟩ := closes
  obtain ⟨inside, rest, closed, start⟩ := exists_closeTag? parameterName (verbatimOpen ++ before) blanks
    (after ++ (verbatimClose ++ (v.layout.closing parameterName ++ (v.later.flatMap Item.text ++ v.last))))
  have keyed : (Item.verbatim v.layout v.key v.content).Keyed := v.keyed_items _ (by simp [items])
  obtain ⟨found, next, first, -⟩ := exists_findEach_items
    (fun x hx => v.keyed x (List.mem_append_left _ hx))
    (fun x hx => (v.plain_earlier x hx).not_closes parameterName)
    (v.layout.before ++ (v.layout.opening parameterName v.key.toList ++ ((verbatimOpen ++ before) ++
      '<' :: '/' :: (parameterName ++ (blanks ++ '>' :: (after ++ (verbatimClose ++
        (v.layout.closing parameterName ++ (v.later.flatMap Item.text ++ v.last))))))))) 0
  obtain ⟨later, second⟩ := findEach_opening v.layout parameterName (keyed.unquoted v.layout) closed next
  have cut : v.items.flatMap Item.text ++ v.last =
      v.earlier.flatMap Item.text ++ (v.layout.before ++ (v.layout.opening parameterName v.key.toList ++
        ((verbatimOpen ++ before) ++ '<' :: '/' :: (parameterName ++ (blanks ++ '>' :: (after ++
          (verbatimClose ++ (v.layout.closing parameterName ++
            (v.later.flatMap Item.text ++ v.last))))))))) := by
    simp [items, Item.text, Item.verbatim, verbatim, split]
  refine ⟨found, next + v.layout.before.val.length, ⟨v.key.toList, inside⟩,
    findEach (element? parameterName) later rest, ?_, keyed.key_eq, ?_⟩
  · rw [cut, first]
    exact congrArg (found ++ ·) second
  · have tag : ink ('<' :: '/' :: (parameterName ++ (blanks ++ '>' :: after))) = 12 + ink after := by
      have mark : ink ('<' :: '/' :: parameterName) = 11 ∧ ink ['>'] = 1 := by decide
      have shape : '<' :: '/' :: (parameterName ++ (blanks ++ '>' :: after)) =
          ('<' :: '/' :: parameterName) ++ (blanks ++ (['>'] ++ after)) := rfl
      rw [shape, ink_append, ink_append, ink_append, ink_of_blank blanks.property]
      omega
    have whole := congrArg ink split
    rw [ink_append, tag] at whole
    have left := ink_le_of_prefix start
    rw [ink_append] at left
    have decoded := ink_decodeText_le inside
    have marks := ink_marks
    change ink (decodeText inside) < ink v.content.toList
    omega

/-- That element would be one more than there are values, and there is no room for it. -/
theorem not_closes_parameter {offset : Nat} {call : ToolCall} (one : extract v.text = [(offset, call)])
    (carries : call.Carries v.tool.name v.values) (invoke : ¬ Closes invokeName v.content.toList) :
    ¬ Closes parameterName v.content.toList := by
  intro closes
  have free := v.forall_items (fun x hx => (v.plain x hx).not_closes invokeName)
    fun closes => invoke (closes_of_closes_verbatim (by decide) (by decide) closes)
  have made := call?_of_extract (key_tool_name v.tool _)
    (findEach_block (v.unquoted _) v.keyed_items free) one
  have carried := exists_element_of_carries made carries
  have fits := weight_findEach_le 0 (v.items.flatMap Item.text ++ v.last)
  obtain ⟨before, at', e, after, found, key, less⟩ := v.exists_cut_element closes
  rw [found] at carried fits
  have read : (v.values.map weightOf).sum ≤ ((before ++ after).map fun p => p.2.weight).sum := by
    apply weightOf_sum_le v.values_nodup
    intro p hp
    obtain ⟨f, mem, named, same, heavy⟩ := carried p hp
    have other : f ≠ (at', e) := by
      rintro rfl
      have named : p.1 = v.key := String.toList_injective (named.symm.trans key)
      have one := OrderedMap.get?_of_mem v.values_nodup hp
      rw [named, OrderedMap.get?_of_mem v.values_nodup v.mem_values] at one
      rw [← Option.some.inj one] at same
      exact absurd same (Nat.ne_of_lt less)
    exact ⟨f, by simpa [other] using mem, named, heavy⟩
  have room : ink (v.items.flatMap Item.text ++ v.last) = (v.values.map weightOf).sum + 12 := by
    have marks := ink_marks
    rw [v.weightOf_values, items]
    simp only [List.flatMap_append, List.flatMap_cons, ink_append, ink_text, Item.verbatim, verbatim,
      ink_of_blank v.last.property]
    omega
  have heavy : 30 ≤ e.weight := Nat.le_add_left _ _
  simp only [List.map_append, List.sum_append, List.map_cons, List.sum_cons] at read fits
  omega

/-- The content of the call may stand in the section. -/
theorem sectionable_of_extract {offset : Nat} {call : ToolCall} (one : extract v.text = [(offset, call)])
    (carries : call.Carries v.tool.name v.values) : Sectionable v.content where
  invoke := v.not_closes_invoke one carries
  parameter := v.not_closes_parameter one carries (v.not_closes_invoke one carries)
  short := by
    have read : (v.key, Scalar.ofText? v.content) ∈ call.parameters.map fun p => (p.1, some p.2) := by
      rw [carries.parameters_eq]
      exact List.mem_map.mpr ⟨_, v.mem_values, rfl⟩
    obtain ⟨p, -, same⟩ := List.mem_map.mp read
    obtain ⟨-, value⟩ := Prod.mk.inj same
    exact Scalar.noLongInteger_of_ofText? value.symm

/-- Content that may stand in a section is read back as it is. -/
theorem extract_of_sectionable (content : Sectionable v.content) :
    ∃ call, extract v.text = [(v.outer.before.val.length, call)] ∧ call.Carries v.tool.name v.values := by
  have invoke := v.forall_items (fun x hx => (v.plain x hx).not_closes invokeName)
    fun closes => content.invoke (closes_of_closes_verbatim (by decide) (by decide) closes)
  have parameter := v.forall_items (fun x hx => (v.plain x hx).not_closes parameterName)
    fun closes => content.parameter (closes_of_closes_verbatim (by decide) (by decide) closes)
  have short : ∀ p ∈ v.values, Scalar.NoLongInteger p.2 := by
    refine List.forall_mem_map.mpr (v.forall_items v.short ?_)
    dsimp only
    rw [v.value_eq]
    exact content.short
  obtain ⟨call, made, carries⟩ := Markup.exists_call? v.tool.name v.values_nodup short
  refine ⟨call, ?_, carries⟩
  have read : (v.values.map fun p => (p.1, p.2.toList)) = v.items.map fun x => (x.key, x.value.toList) := by
    rw [values, Item.pairs, List.map_map]
    rfl
  rw [read, ← parameters_items v.keyed_items parameter v.last] at made
  rw [extract, text, findEach_block (v.unquoted _) v.keyed_items invoke, callsOf]
  simp only [key_tool_name, String.ofList_toList, Tool.isAllowed, Tool.ofName?_name, made]
  rfl

/-- A call with a verbatim section is read as one call with the values that were written exactly if no
closing tag is in the section, and its text is no integer of too many digits. -/
theorem extract_iff_sectionable :
    (∃ offset call, extract v.text = [(offset, call)] ∧ call.Carries v.tool.name v.values) ↔
      Sectionable v.content := by
  constructor
  · rintro ⟨offset, call, one, carries⟩
    exact v.sectionable_of_extract one carries
  · intro content
    obtain ⟨call, one, carries⟩ := v.extract_of_sectionable content
    exact ⟨_, call, one, carries⟩

/-- A page that shows a tag, an entity and the start of a section. -/
def page : VerbatimCall where
  tool := .writeFile
  outer := .usual
  last := ⟨['\n'], List.forall_mem_singleton.mpr rfl⟩
  earlier := [⟨.usual, "path", "x.html".toList⟩]
  layout := { Layout.usual with before := ⟨['\n'], List.forall_mem_singleton.mpr rfl⟩ }
  key := "content"
  content := " <todo_list /> &amp; <![CDATA[ 007"
  later := []
  keyed := by decide +kernel
  distinct := by decide +kernel
  plain := by decide +kernel
  short := by decide +kernel
  unended := by decide +kernel

theorem extract_iff_sectionable_page :
    String.ofList page.text = "<invoke name=\"write_file\"><parameter name=\"path\">x.html</parameter>\n" ++
        "<parameter name=\"content\"><![CDATA[ <todo_list /> &amp; <![CDATA[ 007]]></parameter>\n</invoke>" ∧
      ∃ offset call, extract page.text = [(offset, call)] ∧ call.Carries "write_file" page.values :=
  ⟨by decide +kernel, page.extract_iff_sectionable.mpr
    ⟨not_closes_of_closeTag? (by decide +kernel), not_closes_of_closeTag? (by decide +kernel),
      by decide +kernel⟩⟩

/-- A section with a closing tag, though it has no early end, is cut at that tag. -/
theorem extract_cut_section :
    let content := "a</parameter>b"
    let text := "<invoke name=\"write_file\"><parameter name=\"path\">x.html</parameter>" ++
      "<parameter name=\"content\"><![CDATA[" ++ content ++ "]]></parameter></invoke>"
    ¬ verbatimClose <:+: content.toList ∧ (extract text.toList).map (fun p => p.2.rawText) =
      [[("path", "x.html"), ("content", "<![CDATA[a")]] := by
  decide +kernel

end VerbatimCall
end InvokeBlock
end CodeAgent
