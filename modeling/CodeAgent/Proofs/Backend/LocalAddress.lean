import Mathlib.Data.List.DropRight
import CodeAgent.Backend.Kind
import CodeAgent.Coercion
import CodeAgent.Proofs.Text.Blank

/-! The address of a local server: which addresses are still those of the same host, port and path once they are in
order. Schemes and hosts are told by texts alone, so that the name of the local machine is replaced wherever it comes
after a mark, with more after it or not. -/
namespace CodeAgent
open CodeAgent.Text

/-- A character of the names in an address: neither white space nor one of the marks between the parts. -/
def isHostChar (c : Char) : Bool := !isBlank c && !"/:?#@[]".toList.contains c

/-- A host is a name or a number, or a number with colons between brackets. -/
inductive IsHost : List Char → Prop
  | named {name : List Char} (filled : name ≠ []) (plain : ∀ c ∈ name, isHostChar c = true) : IsHost name
  | bracketed {inner : List Char} (plain : ∀ c ∈ inner, c = ':' ∨ isHostChar c = true) : IsHost ('[' :: inner ++ [']'])

/-- An address in its parts: perhaps a scheme, a host, perhaps a port, and a path with all that follows it. -/
structure Endpoint where
  scheme : Option (List Char)
  host : List Char
  port : Option (List Char)
  path : List Char
  scheme_named : ∀ s ∈ scheme, s ≠ [] ∧ ∀ c ∈ s, isHostChar c = true
  isHost : IsHost host
  port_digits : ∀ p ∈ port, p ≠ [] ∧ ∀ c ∈ p, Coercion.isAsciiDigit c = true
  path_slash : ∀ c ∈ path.head?, c = '/'
  path_inked : ∀ c ∈ path, isBlank c = false

/-- The name of the local machine. -/
def localName : List Char := "localhost".toList

/-- The number that stands for the local machine. -/
def localNumber : List Char := "127.0.0.1".toList

/-- The mark between a scheme and a host. -/
def schemeMark : List Char := "://".toList

theorem schemeMark_eq : schemeMark = [':', '/', '/'] := rfl

theorem length_localNumber : localNumber.length = localName.length := by decide

/-- A text without the slashes at its end. -/
def withoutSlashes (cs : List Char) : List Char := cs.rdropWhile (· == '/')

/-- The slashes at the end of a text. -/
def endSlashes (cs : List Char) : List Char := cs.rtakeWhile (· == '/')

namespace Endpoint
variable (e : Endpoint)

/-- The port as it is written. -/
def portText : List Char :=
  match e.port with
  | none => []
  | some p => ':' :: p

/-- The host and the port. -/
def authority : List Char := e.host ++ e.portText

/-- The scheme as it is written. -/
def lead : List Char :=
  match e.scheme with
  | none => []
  | some s => s ++ schemeMark

/-- The address as it is written. -/
def text : String := String.ofList (e.lead ++ (e.authority ++ e.path))

/-- The host, which is a number if it is the local machine. -/
def pinnedHost : List Char := if e.host = localName then localNumber else e.host

/-- A text is an address of the same host, but for the name of the local machine, of the same port, and of the same
path up to the slashes at its end. -/
def Reaches (address : String) : Prop :=
  ∃ start path, (start = "http://".toList ∨ start = "https://".toList) ∧
    address.toList = start ++ (e.pinnedHost ++ e.portText ++ path) ∧ withoutSlashes path = withoutSlashes e.path

end Endpoint

section names
variable {c : Char} {cs : List Char}

theorem isBlank_of_isHostChar (name : isHostChar c = true) : isBlank c = false := by
  rw [isHostChar, Bool.and_eq_true, Bool.not_eq_true'] at name
  exact name.1

theorem notMem_of_names {mark : Char} (names : ∀ c ∈ cs, isHostChar c = true)
    (marks : mark ∈ "/:?#@[]".toList) : mark ∉ cs := by
  intro mem
  have name := names mark mem
  rw [isHostChar, Bool.and_eq_true, List.contains_eq_mem, decide_eq_true marks] at name
  cases name.2

end names

namespace IsHost
variable {host : List Char}

theorem ne_nil (isHost : IsHost host) : host ≠ [] := by
  cases isHost with
  | named filled plain => exact filled
  | bracketed plain => exact List.cons_ne_nil _ _

theorem slash_notMem (isHost : IsHost host) : '/' ∉ host := by
  cases isHost with
  | named filled plain => exact notMem_of_names plain (by decide)
  | bracketed plain =>
    rw [List.mem_append, List.mem_cons, List.mem_singleton]
    rintro ((bracket | mem) | bracket)
    · cases bracket
    · obtain colon | name := plain _ mem
      · cases colon
      · exact absurd name (by decide)
    · cases bracket

theorem isBlank_eq_false (isHost : IsHost host) {c : Char} (mem : c ∈ host) : isBlank c = false := by
  cases isHost with
  | named filled plain => exact isBlank_of_isHostChar (plain c mem)
  | bracketed plain =>
    rw [List.mem_append, List.mem_cons, List.mem_singleton] at mem
    obtain (rfl | mem) | rfl := mem
    · decide
    · obtain rfl | name := plain c mem
      · decide
      · exact isBlank_of_isHostChar name
    · decide

theorem getLast?_ne_colon (isHost : IsHost host) : host.getLast? ≠ some ':' := by
  cases isHost with
  | named filled plain => exact fun last => notMem_of_names plain (by decide) (List.mem_of_getLast? last)
  | bracketed plain =>
    rw [List.getLast?_concat]
    decide

end IsHost

namespace Endpoint
variable (e : Endpoint)

theorem portText_cases :
    e.portText = [] ∨ ∃ p, e.portText = ':' :: p ∧ p ≠ [] ∧ ∀ c ∈ p, Coercion.isAsciiDigit c = true := by
  have digits := e.port_digits
  rw [portText]
  cases port : e.port with
  | none => exact .inl rfl
  | some p => exact .inr ⟨p, rfl, digits p port⟩

theorem authority_ne_nil : e.authority ≠ [] := List.append_ne_nil_of_left_ne_nil e.isHost.ne_nil _

theorem slash_notMem_authority : '/' ∉ e.authority := by
  rw [authority, List.mem_append, not_or]
  refine ⟨e.isHost.slash_notMem, ?_⟩
  obtain none | ⟨p, port, -, digits⟩ := e.portText_cases
  · rw [none]
    exact List.not_mem_nil
  · rw [port, List.mem_cons, not_or]
    exact ⟨by decide, fun mem => absurd (digits _ mem) (by decide)⟩

theorem getLast?_authority_ne_colon : e.authority.getLast? ≠ some ':' := by
  rw [authority]
  obtain none | ⟨p, port, filled, digits⟩ := e.portText_cases
  · rw [none, List.append_nil]
    exact e.isHost.getLast?_ne_colon
  · rw [port, ← List.singleton_append, ← List.append_assoc, List.getLast?_append_of_ne_nil _ filled]
    exact fun last => absurd (digits _ (List.mem_of_getLast? last)) (by decide)

theorem isBlank_of_mem_authority {c : Char} (mem : c ∈ e.authority) : isBlank c = false := by
  obtain host | port := List.mem_append.mp mem
  · exact e.isHost.isBlank_eq_false host
  · obtain none | ⟨p, port', -, digits⟩ := e.portText_cases
    · rw [none] at port
      contradiction
    · rw [port', List.mem_cons] at port
      obtain rfl | mem := port
      · decide
      · have digit := digits c mem
        rw [Coercion.isAsciiDigit, Bool.and_eq_true, decide_eq_true_iff, decide_eq_true_iff] at digit
        have low : 48 ≤ c.toNat := digit.1
        have high : c.toNat ≤ 57 := digit.2
        simp only [isBlank, Bool.or_eq_false_iff, Bool.and_eq_false_iff, decide_eq_false_iff_not, beq_eq_false_iff_ne]
        omega

/-- The name of the local machine ends where the host does. -/
theorem localName_prefix_host {more : List Char} (ends : ∀ c ∈ more.head?, c = ':' ∨ c = '/') {host : List Char}
    (start : localName <+: host ++ more) : localName <+: host := by
  obtain inside | ⟨rest, whole⟩ := List.prefix_or_prefix_of_prefix start (List.prefix_append host more)
  · exact inside
  · cases rest with
    | nil => exact ⟨[], by rw [← whole, List.append_nil, List.append_nil]⟩
    | cons c rest =>
      rw [← whole, List.prefix_append_right_inj] at start
      obtain ⟨rest', rfl⟩ := start
      have letter : c ∈ localName := whole ▸ List.mem_append_right host List.mem_cons_self
      obtain rfl | rfl := ends c rfl
      · exact absurd letter (by decide)
      · exact absurd letter (by decide)

end Endpoint

/-- What comes of a text when the name of the local machine becomes its number after each mark. -/
def pinEach (cs : List Char) : List Char := replaceEach (schemeMark ++ localName) (schemeMark ++ localNumber) cs

/-- What comes of a text that starts with the name of the local machine. -/
def pinStart (cs : List Char) : List Char :=
  match dropStart? localName cs with
  | some rest => localNumber ++ rest
  | none => cs

section pin
variable {cs a more : List Char}

theorem pinStart_localName_append (rest : List Char) : pinStart (localName ++ rest) = localNumber ++ rest := by
  rw [pinStart, dropStart?_append]

theorem pinStart_of_other (other : ¬ localName <+: cs) : pinStart cs = cs := by
  rw [pinStart, dropStart?_eq_none_iff.mpr other]

theorem pinStart_append (bound : localName <+: a ++ more → localName <+: a) :
    pinStart (a ++ more) = pinStart a ++ more := by
  by_cases start : localName <+: a
  · obtain ⟨rest, rfl⟩ := start
    rw [List.append_assoc, pinStart_localName_append, pinStart_localName_append, List.append_assoc]
  · rw [pinStart_of_other start, pinStart_of_other fun whole => start (bound whole)]

theorem length_pinStart (cs : List Char) : (pinStart cs).length = cs.length := by
  by_cases start : localName <+: cs
  · obtain ⟨rest, rfl⟩ := start
    rw [pinStart_localName_append, List.length_append, List.length_append, length_localNumber]
  · rw [pinStart_of_other start]

/-- In a text without slashes no mark starts, unless it ends with a colon. -/
theorem not_mark_start (plain : '/' ∉ a) (last : a.getLast? ≠ some ':') (c : Char) (tail : List Char)
    (suffix : c :: tail <:+ a) : ¬ schemeMark ++ localName <+: c :: tail ++ more := by
  intro start
  rw [schemeMark_eq] at start
  change ':' :: '/' :: '/' :: localName <+: c :: (tail ++ more) at start
  obtain ⟨rfl, next⟩ := List.cons_prefix_cons.mp start
  cases tail with
  | nil =>
    obtain ⟨before, rfl⟩ := suffix
    rw [List.getLast?_concat] at last
    exact last rfl
  | cons d tail =>
    obtain ⟨rfl, -⟩ := List.cons_prefix_cons.mp next
    exact plain (suffix.subset (List.mem_cons_of_mem _ List.mem_cons_self))

theorem pinEach_append (plain : '/' ∉ a) (last : a.getLast? ≠ some ':') (more : List Char) :
    pinEach (a ++ more) = a ++ pinEach more :=
  replaceEach_append (by decide) (not_mark_start plain last)

/-- After a mark the name of the local machine becomes its number, and the rest of what has no slash stays. -/
theorem pinEach_mark_append (plain : '/' ∉ a) (last : a.getLast? ≠ some ':')
    (bound : localName <+: a ++ more → localName <+: a) :
    pinEach (schemeMark ++ (a ++ more)) = schemeMark ++ (pinStart a ++ pinEach more) := by
  have filled : schemeMark ++ localName ≠ [] := by decide
  by_cases start : localName <+: a
  · obtain ⟨rest, rfl⟩ := start
    have plain' : '/' ∉ rest := fun mem => plain (List.mem_append_right localName mem)
    have last' : rest.getLast? ≠ some ':' := by
      cases rest with
      | nil => decide
      | cons c rest => rwa [List.getLast?_append_of_ne_nil _ (List.cons_ne_nil c rest)] at last
    rw [pinStart_localName_append, List.append_assoc, ← List.append_assoc schemeMark, pinEach,
      replaceEach_part_append filled, ← pinEach, pinEach_append plain' last', List.append_assoc, List.append_assoc]
  · rw [pinStart_of_other start, ← List.append_assoc, ← List.append_assoc, pinEach, pinEach]
    refine replaceEach_append filled fun c tail suffix found => ?_
    -- Of the suffixes that start within the mark, only the whole starts with a colon.
    obtain rfl : ':' = c := (List.cons_prefix_cons.mp found).1
    obtain same | inner := List.suffix_cons_iff.mp suffix
    · rw [same] at found
      exact start (bound ((List.prefix_append_right_inj schemeMark).mp found))
    · have inner : ':' :: tail <:+ ['/', '/'] ++ a := inner
      exact not_mark_start plain last ':' tail (suffix_append_of_notMem (by decide) inner) found

theorem length_pinEach (cs : List Char) : (pinEach cs).length = cs.length :=
  length_replaceEach (by decide) (by decide) cs

theorem not_infix_pinEach (cs : List Char) : ¬ schemeMark ++ localName <:+: pinEach cs := by
  change ¬ ':' :: "//localhost".toList <:+: replaceEach (':' :: "//localhost".toList) (':' :: "//127.0.0.1".toList) cs
  refine not_infix_replaceEach (by decide) (by decide) (fun more start => ?_) cs
  have first : '1' = 'l' := by
    have third := (List.cons_prefix_cons.mp (List.cons_prefix_cons.mp (List.cons_prefix_cons.mp start).2).2).1
    exact third.symm
  cases first

theorem pinEach_eq_self (absent : ¬ schemeMark ++ localName <:+: cs) : pinEach cs = cs :=
  replaceEach_eq_self (by decide) absent

theorem withoutSlashes_append_endSlashes (cs : List Char) : withoutSlashes cs ++ endSlashes cs = cs :=
  List.rdropWhile_append_rtakeWhile

theorem withoutSlashes_start (cs : List Char) : withoutSlashes cs <+: cs := List.rdropWhile_prefix _ cs

theorem eq_slash_of_mem_endSlashes {c : Char} (mem : c ∈ endSlashes cs) : c = '/' := by
  have slash := List.mem_rtakeWhile_imp (p := (· == '/')) mem
  exact beq_iff_eq.mp slash

/-- The slashes at the end of a text have no part in what is replaced. -/
theorem pinEach_append_endSlashes (cs more : List Char) :
    pinEach (cs ++ endSlashes more) = pinEach cs ++ endSlashes more := by
  have ends : (schemeMark ++ localName).getLast? = some 't' := by decide
  exact replaceEach_append_end ends (fun mem => absurd (eq_slash_of_mem_endSlashes mem) (by decide)) cs

theorem withoutSlashes_append {white : List Char} (slashes : ∀ c ∈ white, c = '/') (cs : List Char) :
    withoutSlashes (cs ++ white) = withoutSlashes cs := by
  induction white using List.reverseRecOn with
  | nil => rw [List.append_nil]
  | append_singleton white c ih =>
    rw [List.forall_mem_append] at slashes
    rw [← List.append_assoc, withoutSlashes, List.rdropWhile_concat_pos _ _ _ (by simpa using slashes.2)]
    exact ih slashes.1

theorem withoutSlashes_eq_self (last : cs.getLast? ≠ some '/') : withoutSlashes cs = cs := by
  refine List.rdropWhile_eq_self_iff.mpr fun filled slash => last ?_
  rw [List.getLast?_eq_getLast_of_ne_nil filled, beq_iff_eq.mp slash]

theorem getLast?_withoutSlashes (cs : List Char) : (withoutSlashes cs).getLast? ≠ some '/' := by
  intro last
  have filled : withoutSlashes cs ≠ [] := fun none => by rw [none] at last; contradiction
  refine List.rdropWhile_last_not _ cs filled (beq_iff_eq.mpr ?_)
  rw [List.getLast?_eq_getLast_of_ne_nil filled] at last
  exact Option.some.inj last

/-- What does not end with a slash stays before what does. -/
theorem withoutSlashes_append_of_getLast? (last : a.getLast? ≠ some '/') (cs : List Char) :
    withoutSlashes (a ++ cs) = a ++ withoutSlashes cs := by
  conv_lhs => rw [← withoutSlashes_append_endSlashes cs, ← List.append_assoc,
    withoutSlashes_append fun _ => eq_slash_of_mem_endSlashes]
  refine withoutSlashes_eq_self ?_
  rw [List.getLast?_append]
  cases ends : (withoutSlashes cs).getLast? with
  | none => exact last
  | some c =>
    rw [Option.some_or, ← ends]
    exact getLast?_withoutSlashes cs

theorem withoutSlashes_pinEach (cs : List Char) : withoutSlashes (pinEach cs) = pinEach (withoutSlashes cs) := by
  conv_lhs => rw [← withoutSlashes_append_endSlashes cs, pinEach_append_endSlashes,
    withoutSlashes_append fun _ => eq_slash_of_mem_endSlashes]
  refine withoutSlashes_eq_self ?_
  have last : (pinEach (withoutSlashes cs)).getLast? = (withoutSlashes cs).getLast? ∨
      (pinEach (withoutSlashes cs)).getLast? = (schemeMark ++ localNumber).getLast? :=
    getLast?_replaceEach (by decide) (by decide) _
  obtain kept | put := last
  · rw [kept]
    exact getLast?_withoutSlashes cs
  · rw [put]
    decide

/-- A path is kept up to the slashes at its end just if the name of the local machine stands after no mark in it. -/
theorem withoutSlashes_pinEach_eq_iff (cs : List Char) :
    withoutSlashes (pinEach cs) = withoutSlashes cs ↔ ¬ schemeMark ++ localName <:+: cs := by
  constructor
  · intro kept
    rw [withoutSlashes_pinEach] at kept
    have whole : pinEach cs = cs := by
      conv_lhs => rw [← withoutSlashes_append_endSlashes cs, pinEach_append_endSlashes, kept]
      exact withoutSlashes_append_endSlashes cs
    exact whole ▸ not_infix_pinEach cs
  · intro absent
    rw [pinEach_eq_self absent]

end pin

namespace Endpoint
variable (e : Endpoint)

/-- The scheme that an address gets, and what comes of a scheme that is not known. -/
def start : List Char :=
  match e.scheme with
  | none => "http://".toList
  | some s =>
    if s = "http".toList ∨ s = "https".toList then s ++ schemeMark
    else "http://".toList ++ (pinStart s ++ schemeMark)

theorem isBlank_of_mem_text {c : Char} (mem : c ∈ e.text.toList) : isBlank c = false := by
  rw [text, String.toList_ofList, List.mem_append, List.mem_append] at mem
  obtain lead | authority | path := mem
  · rw [Endpoint.lead] at lead
    cases scheme : e.scheme with
    | none => rw [scheme] at lead; contradiction
    | some s =>
      rw [scheme] at lead
      obtain name | mark := List.mem_append.mp lead
      · exact isBlank_of_isHostChar ((e.scheme_named s scheme).2 c name)
      · rw [schemeMark_eq] at mark
        simp only [List.mem_cons, List.not_mem_nil, or_false] at mark
        obtain rfl | rfl | rfl := mark <;> decide
  · exact e.isBlank_of_mem_authority authority
  · exact e.path_inked c path

end Endpoint

theorem trim_eq_self {s : String} (inked : ∀ c ∈ s.toList, isBlank c = false) : trim s = s := by
  have whole : trimBy isBlank (s.toList ++ []) = s.toList := by
    refine trimBy_append (fun c first => ?_) (fun c last => ?_) fun c mem => nomatch mem
    · exact inked c (List.mem_of_mem_head? first)
    · exact inked c (List.mem_of_getLast? last)
  rw [List.append_nil] at whole
  rw [trim, trimChars, whole, String.ofList_toList]

/-- What is put in order: a text that has a scheme, and one that gets one. -/
def withScheme (cs : List Char) : List Char :=
  if "http://".toList <+: cs ∨ "https://".toList <+: cs then cs else "http://".toList ++ cs

theorem toList_localAddress {given : String} (inked : ∀ c ∈ given.toList, isBlank c = false) (filled : given ≠ "") :
    (localAddress given).toList = withoutSlashes (pinEach (withScheme given.toList)) := by
  have filled : (given == "") = false := beq_eq_false_iff_ne.mpr filled
  dsimp only [localAddress]
  rw [trim_eq_self inked, filled, if_neg Bool.false_ne_true, dropSlashes, String.toList_ofList, String.toList_ofList]
  have known : (startsWith "http://".toList given.toList || startsWith "https://".toList given.toList) = true ↔
      "http://".toList <+: given.toList ∨ "https://".toList <+: given.toList := by
    rw [Bool.or_eq_true, startsWith_iff, startsWith_iff]
  rw [withScheme]
  by_cases scheme : "http://".toList <+: given.toList ∨ "https://".toList <+: given.toList
  · rw [if_pos (known.mpr scheme), if_pos scheme]
    rfl
  · rw [if_neg (mt known.mp scheme), if_neg scheme]
    rfl

section schemes
variable {w a more rest : List Char}

/-- A word before a mark is what the text has before its first mark. -/
theorem eq_of_mark_start (plain : ':' ∉ w) (plain' : ':' ∉ a) (start : w ++ schemeMark <+: a ++ (schemeMark ++ more)) :
    w = a := by
  obtain ⟨tail, whole⟩ := start
  have other {cs : List Char} (absent : ':' ∉ cs) : ∀ c ∈ cs, (c != ':') = true :=
    fun c mem => bne_iff_ne.mpr fun colon => absent (colon ▸ mem)
  have first := congrArg (List.takeWhile (· != ':')) whole
  rw [schemeMark_eq, List.append_assoc] at first
  change List.takeWhile _ (w ++ ':' :: '/' :: '/' :: tail) = List.takeWhile _ (a ++ ':' :: '/' :: '/' :: more) at first
  rw [takeWhile_append_cons (other plain) (bne_self_eq_false ':'),
    takeWhile_append_cons (other plain') (bne_self_eq_false ':')] at first
  exact first

/-- What has no slash before its first one, and no colon there, starts with no scheme. -/
theorem not_prefix_of_no_mark (word : '/' ∉ w) (plain : '/' ∉ a) (last : a.getLast? ≠ some ':')
    (slash : ∀ c ∈ more.head?, c = '/') : ¬ w ++ schemeMark <+: a ++ more := by
  rintro ⟨tail, whole⟩
  have other {cs : List Char} (absent : '/' ∉ cs) : ∀ c ∈ cs, (c != '/') = true :=
    fun c mem => bne_iff_ne.mpr fun same => absent (same ▸ mem)
  have first := congrArg (List.takeWhile (· != '/')) whole
  have parted : w ++ schemeMark ++ tail = (w ++ [':']) ++ '/' :: ('/' :: tail) := by
    rw [schemeMark_eq]
    simp only [List.append_assoc, List.cons_append, List.nil_append]
  have word' : '/' ∉ w ++ [':'] := fun mem => (List.mem_append.mp mem).elim word (by decide)
  rw [parted, takeWhile_append_cons (other word') (bne_self_eq_false '/'),
    takeWhile_append_of_head (fun c mem => slash c mem ▸ bne_self_eq_false '/'),
    List.takeWhile_eq_self_iff.mpr (other plain)] at first
  rw [← first, List.getLast?_concat] at last
  exact last rfl

end schemes

namespace Endpoint
variable (e : Endpoint)

theorem colon_notMem_scheme {s : List Char} (scheme : e.scheme = some s) : ':' ∉ s :=
  notMem_of_names (e.scheme_named s scheme).2 (by decide)

theorem toList_text : e.text.toList = e.lead ++ (e.authority ++ e.path) := String.toList_ofList

theorem text_ne_empty : e.text ≠ "" := by
  intro none
  have none := congrArg String.toList none
  rw [toList_text] at none
  exact e.authority_ne_nil (List.append_eq_nil_iff.mp (List.append_eq_nil_iff.mp none).2).1

theorem localName_prefix_authority (start : localName <+: e.authority ++ e.path) : localName <+: e.authority :=
  localName_prefix_host (fun c first => .inr (e.path_slash c first)) start

theorem pinStart_authority : pinStart e.authority = pinStart e.host ++ e.portText := by
  refine pinStart_append (localName_prefix_host fun c first => .inl ?_)
  obtain none | ⟨p, port, -, -⟩ := e.portText_cases
  · rw [none] at first
    cases first
  · rw [port] at first
    exact (Option.some.inj first).symm

theorem pinEach_mark_authority :
    pinEach (schemeMark ++ (e.authority ++ e.path)) = schemeMark ++ (pinStart e.authority ++ pinEach e.path) :=
  pinEach_mark_append e.slash_notMem_authority e.getLast?_authority_ne_colon e.localName_prefix_authority

/-- What is put in order starts as the address is to start, and is the address from there on but for what is pinned. -/
theorem pinEach_withScheme :
    pinEach (withScheme e.text.toList) = e.start ++ (pinStart e.authority ++ pinEach e.path) := by
  have named {word : List Char} (plain : '/' ∉ word) (last : word.getLast? ≠ some ':') :
      pinEach (word ++ (schemeMark ++ (e.authority ++ e.path))) =
        word ++ schemeMark ++ (pinStart e.authority ++ pinEach e.path) := by
    rw [pinEach_append plain last, pinEach_mark_authority, List.append_assoc]
  have http : "http://".toList = "http".toList ++ schemeMark := by decide
  have https : "https://".toList = "https".toList ++ schemeMark := by decide
  rw [toList_text, withScheme, Endpoint.lead, Endpoint.start, http, https]
  cases scheme : e.scheme with
  | none =>
    have none (word : List Char) (plain : '/' ∉ word) : ¬ word ++ schemeMark <+: e.authority ++ e.path :=
      not_prefix_of_no_mark plain e.slash_notMem_authority e.getLast?_authority_ne_colon e.path_slash
    rw [List.nil_append, if_neg (not_or.mpr ⟨none _ (by decide), none _ (by decide)⟩), List.append_assoc]
    exact named (by decide) (by decide)
  | some s =>
    have plain : '/' ∉ s := notMem_of_names (e.scheme_named s scheme).2 (by decide)
    have last : s.getLast? ≠ some ':' := fun ends => e.colon_notMem_scheme scheme (List.mem_of_getLast? ends)
    dsimp only
    rw [List.append_assoc s]
    by_cases known : s = "http".toList ∨ s = "https".toList
    · rw [if_pos known, if_pos]
      · exact named plain last
      · have start : s ++ schemeMark <+: s ++ (schemeMark ++ (e.authority ++ e.path)) :=
          ⟨e.authority ++ e.path, List.append_assoc _ _ _⟩
        obtain rfl | rfl := known
        · exact .inl start
        · exact .inr start
    · have other {word : List Char} (plain' : ':' ∉ word)
          (start : word ++ schemeMark <+: s ++ (schemeMark ++ (e.authority ++ e.path))) : s = word :=
        (eq_of_mark_start plain' (e.colon_notMem_scheme scheme) start).symm
      rw [if_neg known, if_neg fun start => known (start.imp (other (by decide)) (other (by decide))),
        List.append_assoc, pinEach_append (by decide) (by decide), pinEach_mark_append plain last,
        pinEach_mark_authority]
      · simp only [List.append_assoc]
      · refine localName_prefix_host fun c first => .inl ?_
        rw [schemeMark_eq] at first
        exact (Option.some.inj first).symm

theorem slash_notMem_pinStart_authority : '/' ∉ pinStart e.authority := by
  by_cases start : localName <+: e.authority
  · obtain ⟨rest, whole⟩ := start
    rw [← whole, pinStart_localName_append, List.mem_append, not_or]
    exact ⟨by decide, fun mem => e.slash_notMem_authority (whole ▸ List.mem_append_right localName mem)⟩
  · rw [pinStart_of_other start]
    exact e.slash_notMem_authority

/-- What an address becomes, part by part. -/
theorem toList_localAddress_text :
    (localAddress e.text).toList =
      e.start ++ (pinStart e.host ++ e.portText ++ withoutSlashes (pinEach e.path)) := by
  have filled : pinStart e.authority ≠ [] := by
    rw [ne_eq, ← List.length_eq_zero_iff, length_pinStart, List.length_eq_zero_iff]
    exact e.authority_ne_nil
  have last : (e.start ++ pinStart e.authority).getLast? ≠ some '/' := by
    rw [List.getLast?_append_of_ne_nil _ filled]
    exact fun ends => e.slash_notMem_pinStart_authority (List.mem_of_getLast? ends)
  rw [toList_localAddress (fun _ => e.isBlank_of_mem_text) e.text_ne_empty, pinEach_withScheme, ← List.append_assoc,
    withoutSlashes_append_of_getLast? last, pinStart_authority]
  simp only [List.append_assoc]

theorem start_known : "http://".toList <+: e.start ∨ "https://".toList <+: e.start := by
  rw [Endpoint.start]
  cases e.scheme with
  | none => exact .inl (List.prefix_refl _)
  | some s =>
    dsimp only
    split
    · next known =>
      obtain rfl | rfl := known
      · exact .inl (by decide)
      · exact .inr (by decide)
    · exact .inl (List.prefix_append _ _)

theorem getLast?_localAddress : (localAddress e.text).toList.getLast? ≠ some '/' := by
  rw [toList_localAddress (fun _ => e.isBlank_of_mem_text) e.text_ne_empty]
  exact getLast?_withoutSlashes _

/-- An address in order starts with one of the two schemes. -/
theorem scheme_prefix_localAddress :
    "http://".toList <+: (localAddress e.text).toList ∨ "https://".toList <+: (localAddress e.text).toList := by
  rw [toList_localAddress_text]
  exact e.start_known.imp (·.trans (List.prefix_append _ _)) (·.trans (List.prefix_append _ _))

theorem isBlank_of_mem_localAddress {c : Char} (mem : c ∈ (localAddress e.text).toList) : isBlank c = false := by
  have inked {cs : List Char} (all : cs.all (!isBlank ·) = true) (c : Char) (mem : c ∈ cs) : isBlank c = false :=
    Bool.not_eq_true' _ ▸ List.all_eq_true.mp all c mem
  rw [toList_localAddress (fun _ => e.isBlank_of_mem_text) e.text_ne_empty] at mem
  have mem := (withoutSlashes_start _).subset mem
  obtain kept | put := mem_of_mem_replaceEach (by decide) mem
  · rw [withScheme] at kept
    split at kept
    · exact e.isBlank_of_mem_text kept
    · exact (List.mem_append.mp kept).elim (inked (by decide) c) e.isBlank_of_mem_text
  · exact inked (by decide) c put

/-- An address in order stays as it is when it is put in order. -/
theorem localAddress_localAddress : localAddress (localAddress e.text) = localAddress e.text := by
  have whole := toList_localAddress (fun _ => e.isBlank_of_mem_text) e.text_ne_empty
  have filled : localAddress e.text ≠ "" := by
    intro none
    have start := e.scheme_prefix_localAddress
    rw [none] at start
    exact absurd start (by decide)
  have absent : ¬ schemeMark ++ localName <:+: (localAddress e.text).toList := by
    rw [whole]
    exact fun inside => not_infix_pinEach _ (inside.trans (withoutSlashes_start _).isInfix)
  apply String.toList_injective
  rw [toList_localAddress (fun _ => e.isBlank_of_mem_localAddress) filled, withScheme,
    if_pos e.scheme_prefix_localAddress, pinEach_eq_self absent, whole]
  exact withoutSlashes_eq_self (getLast?_withoutSlashes _)

theorem length_pinnedHost : e.pinnedHost.length = e.host.length := by
  rw [pinnedHost]
  split
  · next whole => rw [whole, length_localNumber]
  · rfl

/-- The host is right just if the name of the local machine is no more than the start of it. -/
theorem pinStart_host_eq_iff : pinStart e.host = e.pinnedHost ↔ (localName <+: e.host → e.host = localName) := by
  rw [pinnedHost]
  by_cases whole : e.host = localName
  · rw [if_pos whole, whole]
    have same : pinStart localName = localNumber := by decide
    exact iff_of_true same fun _ => rfl
  · rw [if_neg whole]
    constructor
    · rintro kept ⟨rest, start⟩
      rw [← start, pinStart_localName_append] at kept
      have same := (List.append_inj kept length_localNumber).1
      exact absurd same (by decide)
    · intro bound
      exact pinStart_of_other fun start => whole (bound start)

/-- The known schemes stay, and all else makes the address too long. -/
theorem start_cases : ((∀ s ∈ e.scheme, s = "http".toList ∨ s = "https".toList) ∧
      (e.start = "http://".toList ∨ e.start = "https://".toList)) ∨
    ((¬ ∀ s ∈ e.scheme, s = "http".toList ∨ s = "https".toList) ∧ "https://".toList.length < e.start.length) := by
  rw [Endpoint.start]
  cases scheme : e.scheme with
  | none => exact .inl ⟨(fun s mem => nomatch mem), .inl rfl⟩
  | some s =>
    dsimp only
    by_cases known : s = "http".toList ∨ s = "https".toList
    · rw [if_pos known]
      refine .inl ⟨fun t mem => Option.some.inj mem ▸ known, ?_⟩
      obtain rfl | rfl := known
      · exact .inl rfl
      · exact .inr rfl
    · rw [if_neg known, List.length_append, List.length_append]
      refine .inr ⟨fun all => known (all s rfl), ?_⟩
      have http : "http://".toList.length = 7 := by decide
      have https : "https://".toList.length = 8 := by decide
      have mark : schemeMark.length = 3 := by decide
      omega

/-- The address reaches what it was given for just if the start, the host and the path are kept, each by itself. -/
theorem reaches_localAddress_iff :
    e.Reaches (localAddress e.text) ↔
      (∀ s ∈ e.scheme, s = "http".toList ∨ s = "https".toList) ∧ pinStart e.host = e.pinnedHost ∧
        withoutSlashes (pinEach e.path) = withoutSlashes e.path := by
  rw [Reaches, toList_localAddress_text]
  constructor
  · rintro ⟨start, path, http, whole, same⟩
    have long : start.length ≤ "https://".toList.length := by
      obtain rfl | rfl := http <;> decide
    have ends : path.getLast? ≠ some '/' := by
      intro slash
      have last := e.getLast?_localAddress
      rw [toList_localAddress_text, whole, ← List.append_assoc, ← List.append_assoc,
        List.getLast?_append, slash] at last
      exact last rfl
    rw [withoutSlashes_eq_self ends] at same
    subst same
    have sizes := congrArg List.length whole
    have host : e.pinnedHost.length = e.host.length := e.length_pinnedHost
    have paths : (withoutSlashes (pinEach e.path)).length = (withoutSlashes e.path).length := by
      rw [withoutSlashes_pinEach, length_pinEach]
    simp only [List.length_append, length_pinStart, host, paths] at sizes
    obtain ⟨known, -⟩ | ⟨-, longer⟩ := e.start_cases
    · have parts := List.append_inj (List.append_inj whole (by omega)).2
        (by simp only [List.length_append, length_pinStart, host])
      exact ⟨known, List.append_cancel_right parts.1, parts.2⟩
    · omega
  · rintro ⟨known, host, path⟩
    obtain ⟨-, start⟩ | ⟨unknown, -⟩ := e.start_cases
    · refine ⟨e.start, withoutSlashes (pinEach e.path), start, by rw [host], ?_⟩
      rw [path]
      exact withoutSlashes_eq_self (getLast?_withoutSlashes _)
    · exact absurd known unknown

end Endpoint

/-- The address of a local server is in order: it starts with one of the two schemes, ends with no slash, and stays as
it is when it is put in order again, as by the backend. It reaches what it was given for just if the scheme is one of
the two or missing, the host does not go on after the name of the local machine, and that name stands after no mark in
the path. -/
theorem localAddress_reaches_iff (e : Endpoint) :
    (("http://".toList <+: (localAddress e.text).toList ∨ "https://".toList <+: (localAddress e.text).toList) ∧
      (localAddress e.text).toList.getLast? ≠ some '/' ∧ localAddress (localAddress e.text) = localAddress e.text ∧
      BackendKind.ollama.address e.text = localAddress e.text) ∧
    (e.Reaches (localAddress e.text) ↔
      (∀ s ∈ e.scheme, s = "http".toList ∨ s = "https".toList) ∧ (localName <+: e.host → e.host = localName) ∧
        ¬ schemeMark ++ localName <:+: e.path) := by
  refine ⟨⟨e.scheme_prefix_localAddress, e.getLast?_localAddress, e.localAddress_localAddress, ?_⟩, ?_⟩
  · apply String.toList_injective
    rw [BackendKind.address, dropSlashes, String.toList_ofList]
    exact withoutSlashes_eq_self e.getLast?_localAddress
  · rw [e.reaches_localAddress_iff, e.pinStart_host_eq_iff, withoutSlashes_pinEach_eq_iff]

/-- A host that only starts with the name of the local machine is taken for another host. -/
theorem other_host_after_localName :
    ∃ e : Endpoint, e.text = "http://localhost.example.com" ∧ e.host ≠ localName ∧
      localAddress e.text = "http://127.0.0.1.example.com" ∧ ¬ e.Reaches (localAddress e.text) := by
  let e : Endpoint :=
    { scheme := some "http".toList, host := "localhost.example.com".toList, port := none, path := []
      scheme_named := fun s same => Option.some.inj same ▸ ⟨by decide, List.all_eq_true.mp (by decide)⟩
      isHost := .named (by decide) (List.all_eq_true.mp (by decide))
      port_digits := fun _ none => nomatch none
      path_slash := fun _ none => nomatch none
      path_inked := fun _ none => nomatch none }
  have text : e.text = "http://localhost.example.com" := by decide
  have host : e.host ≠ localName := by decide
  refine ⟨e, text, host, by rw [text]; decide, fun reached => ?_⟩
  exact host (e.pinStart_host_eq_iff.mp (e.reaches_localAddress_iff.mp reached).2.1 (by decide))

end CodeAgent
