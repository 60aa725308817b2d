import CodeAgent.Proofs.Json.Limits
import CodeAgent.Proofs.ToolCall.Identity
import CodeAgent.Proofs.ToolCall.ObjectText
import CodeAgent.Proofs.ToolCall.InvokeText

/-! Typed arguments of a tool, given as the texts of markup values or as the members of an object: either way the tool
gets the same parameters, and its text fields the texts as they were written. -/
namespace CodeAgent
open CodeAgent.Text CodeAgent.Decimal CodeAgent.Coercion

/-- What a field of a tool holds. -/
inductive ArgumentKind where
  | text
  | truth
  | integer
  deriving DecidableEq, Repr

/-- A typed argument. -/
inductive ArgumentValue where
  | text (s : String)
  | truth (b : Bool)
  | integer (n : Int)
  deriving DecidableEq, Repr

namespace ArgumentValue

def kind : ArgumentValue → ArgumentKind
  | text _ => .text
  | truth _ => .truth
  | integer _ => .integer

/-- An argument as the member of an object. -/
def toJson : ArgumentValue → Json
  | text s => .str s
  | truth b => .bool b
  | integer n => .int n

/-- An argument as the text of a markup value. -/
def toText : ArgumentValue → String
  | text s => s
  | truth b => if b then "true" else "false"
  | integer n => intText n

/-- A text has no white space at its ends, and neither a text nor an integer is an integer of too many digits. -/
def Proper : ArgumentValue → Prop
  | text s => trim s = s ∧ Scalar.NoLongInteger s
  | truth _ => True
  | integer n => Json.ShortInteger n

theorem isDigitChar_of_ascii {c : Char} (digit : IsAsciiDigit c) : isDigitChar c = true := by
  obtain ⟨d, small, rfl⟩ := digit
  revert d
  decide

theorem integer?_intDigits (n : Int) : Scalar.integer? (intDigits n) = some (decide (n < 0), natDigits n.natAbs) := by
  have digits (m : Nat) : (!(natDigits m).isEmpty && (natDigits m).all isDigitChar) = true := by
    rw [Bool.and_eq_true, Bool.not_eq_true', List.isEmpty_eq_false_iff, List.all_eq_true]
    exact ⟨natDigits_ne_nil m, fun c mem => isDigitChar_of_ascii (natDigits_ascii m c mem)⟩
  cases n with
  | negSucc m =>
    rw [decide_eq_true (Int.negSucc_lt_zero m)]
    change (if (!(natDigits (m + 1)).isEmpty && (natDigits (m + 1)).all isDigitChar) = true then
      some (true, natDigits (m + 1)) else none) = some (true, natDigits (m + 1))
    rw [if_pos (digits (m + 1))]
  | ofNat m =>
    have unsigned : Scalar.dropSign (natDigits m) = (false, natDigits m) := by
      cases shape : natDigits m with
      | nil => rfl
      | cons c cs =>
        have ascii : IsAsciiDigit c := natDigits_ascii m c (by rw [shape]; exact List.mem_cons_self)
        have minus : c ≠ '-' := ascii.ne (by decide)
        have plus : c ≠ '+' := ascii.ne (by decide)
        unfold Scalar.dropSign
        split
        · next same => exact absurd (List.cons.inj same).1 minus
        · next same => exact absurd (List.cons.inj same).1 plus
        · rfl
    have shown : intDigits (Int.ofNat m) = natDigits m := rfl
    rw [shown, Scalar.integer?, unsigned]
    dsimp only
    have nonnegative : decide (Int.ofNat m < 0) = false := decide_eq_false (Int.not_lt.mpr (Int.natCast_nonneg m))
    rw [if_pos (digits m), nonnegative]
    rfl

theorem intDigits_not_blank (n : Int) : ∀ c ∈ intDigits n, isBlank c = false := by
  have digit {c : Char} : IsAsciiDigit c → isBlank c = false := by
    rintro ⟨d, small, rfl⟩
    revert d
    decide
  intro c mem
  cases n with
  | ofNat m => exact digit (natDigits_ascii m c mem)
  | negSucc m =>
    obtain rfl | mem := List.mem_cons.mp mem
    · rfl
    · exact digit (natDigits_ascii (m + 1) c mem)

variable {v : ArgumentValue} {t : String}

/-- The text of a proper argument has no white space at its ends. -/
theorem Proper.trim_toText (proper : v.Proper) : trim v.toText = v.toText := by
  cases v with
  | text s => exact proper.1
  | truth b => cases b <;> decide
  | integer n =>
    have kept {cs : List Char} (inked : ∀ c ∈ cs, isBlank c = false) : cs.dropWhile isBlank = cs := by
      cases cs with
      | nil => rfl
      | cons c cs => rw [List.dropWhile_cons_of_neg (by rw [inked c List.mem_cons_self]; exact Bool.false_ne_true)]
    have inked := intDigits_not_blank n
    rw [toText, trim, intText, String.toList_ofList, trimChars, trimBy, kept inked,
      kept fun c mem => inked c (List.mem_reverse.mp mem), List.reverse_reverse]

theorem toList_of_trim_eq (texts : trim t = v.toText) : trimChars t.toList = v.toText.toList := by
  rw [← texts, trim, String.toList_ofList]

/-- The text of a proper argument is no integer of too many digits. -/
theorem Proper.noLongInteger (proper : v.Proper) (texts : trim t = v.toText) : Scalar.NoLongInteger t := by
  have trimmed := toList_of_trim_eq texts
  unfold Scalar.NoLongInteger
  rw [trimmed]
  cases v with
  | text s =>
    obtain ⟨ends, short⟩ := proper
    have own : trimChars s.toList = s.toList := toList_of_trim_eq (v := .text s) ends
    rwa [Scalar.NoLongInteger, own] at short
  | truth b => cases b <;> decide
  | integer n =>
    change ∀ numeral ∈ Scalar.integer? (String.ofList (intDigits n)).toList, _
    rw [String.toList_ofList, integer?_intDigits]
    rintro _ ⟨⟩
    exact proper

/-- The text of a truth value or of an integer is read as it. -/
theorem ofText?_of_trim_eq (texts : trim t = v.toText) (proper : v.Proper) (scalar : v.kind ≠ .text) :
    Scalar.ofText? t = some v.toJson := by
  rw [Scalar.ofText?, toList_of_trim_eq texts]
  cases v with
  | text s => exact absurd rfl scalar
  | truth b => cases b <;> rfl
  | integer n =>
    change Scalar.ofChars? (String.ofList (intDigits n)).toList = _
    rw [String.toList_ofList, Scalar.ofChars?]
    have word (text : List Char) (wordy : Scalar.integer? text = none) : ¬ (intDigits n == text) = true := by
      intro same
      rw [← eq_of_beq same, integer?_intDigits] at wordy
      cases wordy
    rw [if_neg (word _ (by decide)), if_neg (word _ (by decide)), integer?_intDigits]
    dsimp only
    rw [if_neg (Nat.not_lt.mpr proper), digitsValue_natDigits]
    congr 2
    split
    · next negative => have := of_decide_eq_true negative; omega
    · next negative => have := of_decide_eq_false (Bool.not_eq_true _ ▸ negative); omega

end ArgumentValue

/-- A field of a tool: its name, its other name if it has one, what it holds, and what it is if it is not given; without
this it must be given. -/
structure Slot where
  name : String
  otherName : Option String
  kind : ArgumentKind
  default : Option Json

/-- The keys under which a field can be given. -/
def Slot.keys (s : Slot) : List String := s.name :: s.otherName.toList

/-- The slot of a field whose values are shown by an encoding. -/
def ParameterField.slot {α : Type} (f : ParameterField α) (kind : ArgumentKind) (encode : α → Json) : Slot :=
  ⟨f.name, f.otherName, kind, f.default.map encode⟩

/-- An integer that may be missing, as a value. -/
def Json.ofInteger? : Option Int → Json
  | none => .null
  | some n => .int n

open Parameters in
/-- The fields of a tool, in order. -/
def Tool.slots : Tool → List Slot
  | readFile => [pathField.slot .text .str, startField.slot .integer Json.ofInteger?,
      endField.slot .integer Json.ofInteger?]
  | writeFile => [pathField.slot .text .str, contentField.slot .text .str]
  | listDir => [pathField.slot .text .str]
  | searchFiles | findByName => [patternField.slot .text .str]
  | grep | search => [queryField.slot .text .str, placeField.slot .text .str, caseField.slot .truth .bool,
      wordField.slot .truth .bool, regexField.slot .truth .bool, includeField.slot .text Json.ofOption,
      excludeField.slot .text Json.ofOption]
  | searchCodebase => [queryField.slot .text .str]
  | indexCodebase | todoList => []
  | todoAdd => [contentField.slot .text .str]
  | todoComplete => [idField.slot .text .str]

/-- No key belongs to two fields of a tool. -/
theorem Tool.name_eq_of_mem_keys (tool : Tool) : ∀ s ∈ tool.slots, ∀ s' ∈ tool.slots, ∀ key ∈ s.keys, key ∈ s'.keys →
    s.name = s'.name := by
  cases tool <;> decide

theorem Tool.slot_eq_of_name_eq {tool : Tool} {s s' : Slot} (mem : s ∈ tool.slots) (mem' : s' ∈ tool.slots)
    (same : s.name = s'.name) : s = s' := by
  have distinct : (tool.slots.map Slot.name).Nodup := by cases tool <;> decide
  exact List.inj_on_of_nodup_map distinct mem mem' same

/-- The keys of the text fields are those for which source texts count. -/
theorem Tool.mem_textKeys_iff (tool : Tool) : ∀ s ∈ tool.slots, ∀ key ∈ s.keys,
    (key ∈ Parameters.textKeys tool ↔ s.kind = .text) := by
  cases tool <;> decide

/-- A typed argument of a tool under a key of its field. -/
structure Argument (tool : Tool) where
  slot : Slot
  known : slot ∈ tool.slots
  key : String
  key_mem : key ∈ slot.keys
  value : ArgumentValue
  kind_eq : value.kind = slot.kind
  proper : value.Proper

namespace Argument
variable {tool : Tool} {args : List (Argument tool)}

/-- The arguments under the names of their fields. -/
def byName (args : List (Argument tool)) : OrderedMap ArgumentValue := args.map fun a => (a.slot.name, a.value)

/-- The arguments under their keys, as the members of an object. -/
def members (args : List (Argument tool)) : Json.Fields := args.map fun a => (a.key, a.value.toJson)

/-- The arguments under their keys, as texts. -/
def texts (args : List (Argument tool)) : OrderedMap String := args.map fun a => (a.key, a.value.toText)

/-- No field is given twice, and each one that must be given is. -/
structure Complete (args : List (Argument tool)) : Prop where
  once : (OrderedMap.keys (byName args)).Nodup
  required : ∀ s ∈ tool.slots, s.default = none → s.name ∈ OrderedMap.keys (byName args)

theorem slot_eq_of_key_mem {a : Argument tool} {s : Slot} (mem : s ∈ tool.slots) (key : a.key ∈ s.keys) : a.slot = s :=
  Tool.slot_eq_of_name_eq a.known mem (tool.name_eq_of_mem_keys a.slot a.known s mem a.key a.key_mem key)

theorem eq_of_slot_eq (once : (OrderedMap.keys (byName args)).Nodup) {a b : Argument tool} (mem : a ∈ args)
    (mem' : b ∈ args) (same : a.slot = b.slot) : a = b := by
  rw [byName, OrderedMap.keys, List.map_map] at once
  exact List.inj_on_of_nodup_map once mem mem' (congrArg Slot.name same)

/-- Arguments of different fields are under different keys. -/
theorem nodup_keys (once : (OrderedMap.keys (byName args)).Nodup) : (args.map (·.key)).Nodup := by
  rw [byName, OrderedMap.keys, List.map_map, List.Nodup, List.pairwise_map] at once
  rw [List.Nodup, List.pairwise_map]
  refine once.imp fun {a b} other same => other ?_
  exact congrArg Slot.name (slot_eq_of_key_mem b.known (same ▸ b.key_mem))

/-- What is under a key is that of the argument with this key. -/
theorem get?_map_key {α : Type} (f : Argument tool → α) (key : String) :
    OrderedMap.get? (args.map fun a => (a.key, f a)) key = (args.find? (·.key == key)).map f := by
  induction args with
  | nil => rfl
  | cons a args ih =>
    rw [List.map_cons, OrderedMap.get?_cons, List.find?_cons, ih]
    by_cases same : a.key = key
    · rw [if_pos same, beq_iff_eq.mpr same]
      rfl
    · rw [if_neg same, beq_false_of_ne same]

end Argument

/-- Under the keys of a field, an object has the value that is assigned to the field, and no other one. -/
structure Slot.GivenBy (s : Slot) (assigned : OrderedMap ArgumentValue) (data : Json.Fields) : Prop where
  only : ∀ key ∈ s.keys, ∀ j, OrderedMap.get? data key = some j →
    (OrderedMap.get? assigned s.name).map ArgumentValue.toJson = some j
  all : ∀ v, OrderedMap.get? assigned s.name = some v → ∃ key ∈ s.keys, OrderedMap.get? data key = some v.toJson

/-- What a field comes to with what is assigned to it, or without. -/
def Slot.valueIn (s : Slot) (assigned : OrderedMap ArgumentValue) : Json :=
  ((OrderedMap.get? assigned s.name).map ArgumentValue.toJson).getD (s.default.getD .null)

namespace Argument
variable {tool : Tool} {args : List (Argument tool)} {s : Slot}

/-- An object with the arguments under their keys gives them to their fields. -/
theorem givenBy_of_get? (once : (OrderedMap.keys (byName args)).Nodup) (mem : s ∈ tool.slots) {data : Json.Fields}
    (held : ∀ key ∈ s.keys,
      OrderedMap.get? data key = (args.find? (·.key == key)).map fun a => a.value.toJson) :
    s.GivenBy (byName args) data where
  only key own j found := by
    rw [held key own, Option.map_eq_some_iff] at found
    obtain ⟨a, found, rfl⟩ := found
    have same : a.key = key := by simpa using List.find?_some found
    have slot : a.slot = s := slot_eq_of_key_mem mem (same ▸ own)
    have assigned : (s.name, a.value) ∈ byName args :=
      List.mem_map.mpr ⟨a, List.mem_of_find?_eq_some found, by rw [slot]⟩
    rw [OrderedMap.get?_of_mem once assigned]
    rfl
  all v assigned := by
    obtain ⟨a, own, pair⟩ := List.mem_map.mp (OrderedMap.mem_of_get? assigned)
    obtain ⟨name, rfl⟩ := Prod.mk.inj pair
    obtain rfl : a.slot = s := Tool.slot_eq_of_name_eq a.known mem name
    refine ⟨a.key, a.key_mem, ?_⟩
    rw [held a.key a.key_mem]
    cases found : args.find? (·.key == a.key) with
    | none => exact absurd (beq_self_eq_true a.key) (List.find?_eq_none.mp found a own)
    | some b =>
      have same : b.key = a.key := by simpa using List.find?_some found
      have slot : b.slot = a.slot := slot_eq_of_key_mem a.known (same ▸ a.key_mem)
      obtain rfl := eq_of_slot_eq once (List.mem_of_find?_eq_some found) own slot
      rfl

/-- The object of the arguments gives them to their fields. -/
theorem givenBy_members (once : (OrderedMap.keys (byName args)).Nodup) (mem : s ∈ tool.slots) :
    s.GivenBy (byName args) (Parameters.sourceData tool (JsonCall.callOf tool (members args))) := by
  refine givenBy_of_get? once mem fun key _ => ?_
  rw [Parameters.get?_sourceData]
  have plain : OrderedMap.get? (JsonCall.callOf tool (members args)).parameters key =
      (args.find? (·.key == key)).map fun a => a.value.toJson := get?_map_key _ key
  rw [plain]
  exact ite_self _

/-- The call of markup values gives the arguments to their fields: the texts as they are to text fields, and to other
fields what the texts are read as. -/
theorem exists_call?_givenBy (once : (OrderedMap.keys (byName args)).Nodup) {values : OrderedMap String}
    (written : values.map (fun v => (v.1, trim v.2)) = texts args) :
    ∃ call, Markup.call? tool.name (values.map fun v => (v.1, v.2.toList)) = some call ∧ call.name = tool.name ∧
      ∀ s ∈ tool.slots, s.GivenBy (byName args) (Parameters.sourceData tool call) := by
  have names : OrderedMap.keys values = args.map (·.key) := by
    have same := congrArg (List.map Prod.fst) written
    simpa [texts, List.map_map, Function.comp_def, OrderedMap.keys] using same
  have each : ∀ v ∈ values, ∃ a ∈ args, a.key = v.1 ∧ a.value.toText = trim v.2 := by
    intro v mem
    have pair : (v.1, trim v.2) ∈ texts args := written ▸ List.mem_map_of_mem (f := fun v => (v.1, trim v.2)) mem
    obtain ⟨a, own, same⟩ := List.mem_map.mp pair
    exact ⟨a, own, (Prod.mk.inj same).1, (Prod.mk.inj same).2⟩
  have short : ∀ v ∈ values, Scalar.NoLongInteger v.2 := by
    intro v mem
    obtain ⟨a, -, -, text⟩ := each v mem
    exact a.proper.noLongInteger text.symm
  obtain ⟨call, made, carries⟩ := Markup.exists_call? tool.name (names ▸ nodup_keys once) short
  refine ⟨call, made, carries.name_eq, fun s mem => givenBy_of_get? once mem fun key own => ?_⟩
  have source : OrderedMap.get? call.rawText key = (args.find? (·.key == key)).map fun a => a.value.toText := by
    rw [carries.rawText_eq, written]
    exact get?_map_key _ key
  have value : (OrderedMap.get? values key).map trim = (args.find? (·.key == key)).map fun a => a.value.toText := by
    rw [← OrderedMap.get?_map, written]
    exact get?_map_key _ key
  have parameter :
      (OrderedMap.get? call.parameters key).map some = (OrderedMap.get? values key).map Scalar.ofText? := by
    rw [← OrderedMap.get?_map, ← OrderedMap.get?_map]
    exact congrArg (OrderedMap.get? · key) carries.parameters_eq
  rw [Parameters.get?_sourceData, source]
  cases found : args.find? (·.key == key) with
  | none =>
    rw [found, Option.map_none, Option.map_eq_none_iff] at value
    rw [value, Option.map_none, Option.map_eq_none_iff] at parameter
    rw [parameter]
    exact ite_self _
  | some a =>
    have same : a.key = key := by simpa using List.find?_some found
    have slot : a.slot = s := slot_eq_of_key_mem mem (same ▸ own)
    have kind : a.value.kind = s.kind := slot ▸ a.kind_eq
    rw [found, Option.map_some, Option.map_eq_some_iff] at value
    obtain ⟨t, under, text⟩ := value
    by_cases textual : key ∈ Parameters.textKeys tool
    · rw [if_pos textual]
      rw [(tool.mem_textKeys_iff s mem key own).mp textual] at kind
      cases shape : a.value with
      | text x => simp [shape, ArgumentValue.toText, ArgumentValue.toJson]
      | truth b => rw [shape] at kind; cases kind
      | integer n => rw [shape] at kind; cases kind
    · rw [if_neg textual]
      have scalar : a.value.kind ≠ .text := fun text =>
        textual ((tool.mem_textKeys_iff s mem key own).mpr (kind.symm.trans text))
      have value := ArgumentValue.ofText?_of_trim_eq text a.proper scalar
      rw [under, Option.map_some, value, Option.map_eq_some_iff] at parameter
      obtain ⟨j, there, read⟩ := parameter
      rw [there, Option.some.inj read]
      rfl

end Argument

namespace ParameterField
variable {α : Type} {f : ParameterField α} {data : Json.Fields} {key : String} {j : Json}

theorem given?_eq_some (kind : ArgumentKind) (encode : α → Json) (given : f.given? data = some (key, j)) :
    key ∈ (f.slot kind encode).keys ∧ OrderedMap.get? data key = some j := by
  have under {own : String} (given : (OrderedMap.get? data own).map (own, ·) = some (key, j)) :
      key = own ∧ OrderedMap.get? data key = some j := by
    obtain ⟨j', there, same⟩ := Option.map_eq_some_iff.mp given
    cases same
    exact ⟨rfl, there⟩
  unfold given? at given
  unfold Slot.keys slot
  cases other : f.otherName with
  | none =>
    rw [other] at given
    obtain ⟨rfl, there⟩ := under given
    exact ⟨List.mem_cons_self, there⟩
  | some name =>
    rw [other] at given
    cases first : OrderedMap.get? data name with
    | none =>
      simp only [Option.bind_some, first, Option.map_none] at given
      obtain ⟨rfl, there⟩ := under given
      exact ⟨List.mem_cons_self, there⟩
    | some j' =>
      simp only [Option.bind_some, first, Option.map_some] at given
      cases given
      exact ⟨by simp, first⟩

theorem given?_eq_none {kind : ArgumentKind} {encode : α → Json} (none : f.given? data = none) :
    ∀ key ∈ (f.slot kind encode).keys, OrderedMap.get? data key = .none := by
  unfold given? at none
  unfold Slot.keys slot
  cases other : f.otherName with
  | none =>
    rw [other] at none
    simpa using none
  | some name =>
    rw [other] at none
    simp only [Option.bind_some] at none
    cases first : OrderedMap.get? data name with
    | some j => simp [first] at none
    | none => simpa [first] using none

/-- A field is given what is assigned to it. -/
theorem given?_of_givenBy {kind : ArgumentKind} {encode : α → Json} {assigned : OrderedMap ArgumentValue}
    (given : (f.slot kind encode).GivenBy assigned data) :
    (f.given? data).map (·.2) = (OrderedMap.get? assigned f.name).map ArgumentValue.toJson := by
  cases found : f.given? data with
  | none =>
    cases value : OrderedMap.get? assigned f.name with
    | none => rfl
    | some v =>
      obtain ⟨key, own, there⟩ := given.all v value
      rw [given?_eq_none found key own] at there
      cases there
  | some pair =>
    obtain ⟨key, j⟩ := pair
    obtain ⟨own, there⟩ := given?_eq_some kind encode found
    exact (given.only key own j there).symm

/-- A way to read values takes arguments of a kind, and shows them again as they were. -/
def Takes (read : Json → Except Refusal α) (kind : ArgumentKind) (encode : α → Json) : Prop :=
  ∀ v : ArgumentValue, v.kind = kind → ∃ a, read v.toJson = .ok a ∧ encode a = v.toJson

theorem takes_text : Takes text .text .str := by
  rintro (s | b | n) ⟨⟩
  exact ⟨s, rfl, rfl⟩

theorem takes_truth : Takes truth .truth .bool := by
  rintro (s | b | n) ⟨⟩
  exact ⟨b, rfl, rfl⟩

theorem takes_integer? : Takes (optional integer) .integer Json.ofInteger? := by
  rintro (s | b | n) ⟨⟩
  exact ⟨some n, rfl, rfl⟩

theorem takes_text? : Takes (optional text) .text Json.ofOption := by
  rintro (s | b | n) ⟨⟩
  exact ⟨some s, rfl, rfl⟩

end ParameterField

/-- What is assigned to the fields of a tool is of their kinds, and nothing that must be given is missing. -/
structure Tool.Accepts (tool : Tool) (assigned : OrderedMap ArgumentValue) : Prop where
  kinds : ∀ s ∈ tool.slots, ∀ v, OrderedMap.get? assigned s.name = some v → v.kind = s.kind
  required : ∀ s ∈ tool.slots, s.default = none → ∃ v, OrderedMap.get? assigned s.name = some v

theorem Argument.Complete.accepts {tool : Tool} {args : List (Argument tool)} (complete : Complete args) :
    tool.Accepts (byName args) where
  kinds s mem v assigned := by
    obtain ⟨a, -, pair⟩ := List.mem_map.mp (OrderedMap.mem_of_get? assigned)
    obtain ⟨name, rfl⟩ := Prod.mk.inj pair
    obtain rfl : a.slot = s := Tool.slot_eq_of_name_eq a.known mem name
    exact a.kind_eq
  required s mem none := OrderedMap.mem_keys_iff.mp (complete.required s mem none)

namespace Parameters
open ParameterField
variable {tool : Tool} {assigned : OrderedMap ArgumentValue}

/-- A field gets the value that is assigned to it, or its default, from every object that gives it. -/
theorem exists_get (accepts : tool.Accepts assigned) {α : Type} {f : ParameterField α} {kind : ArgumentKind}
    {encode : α → Json} (takes : Takes f.read kind encode) (mem : f.slot kind encode ∈ tool.slots) :
    ∃ a, (∀ data, (∀ s ∈ tool.slots, s.GivenBy assigned data) → f.get data = .ok a) ∧
      encode a = (f.slot kind encode).valueIn assigned := by
  unfold Slot.valueIn
  change ∃ a, _ ∧ encode a = ((OrderedMap.get? assigned f.name).map ArgumentValue.toJson).getD
    ((f.default.map encode).getD .null)
  cases value : OrderedMap.get? assigned f.name with
  | none =>
    cases default : f.default with
    | none =>
      have missing : (f.slot kind encode).default = .none := congrArg (Option.map encode) default
      obtain ⟨v, given⟩ := accepts.required _ mem missing
      cases given.symm.trans value
    | some a =>
      refine ⟨a, fun data gives => ?_, rfl⟩
      have given := given?_of_givenBy (gives _ mem)
      rw [value, Option.map_none, Option.map_eq_none_iff] at given
      rw [ParameterField.get, given, default]
  | some v =>
    obtain ⟨a, read, shown⟩ := takes v (accepts.kinds _ mem v value)
    refine ⟨a, fun data gives => ?_, shown⟩
    have given := given?_of_givenBy (gives _ mem)
    rw [value, Option.map_some, Option.map_eq_some_iff] at given
    obtain ⟨⟨key, j⟩, given, same⟩ := given
    obtain rfl : j = v.toJson := same
    rw [ParameterField.get, given]
    dsimp only
    rw [read]

/-- The parameters of a tool have in each field what is assigned to it, or its default, and they are the same for every
object that gives the fields what is assigned to them. -/
theorem exists_read (accepts : tool.Accepts assigned) :
    ∃ p, (∀ data, (∀ s ∈ tool.slots, s.GivenBy assigned data) → read tool data = .ok p) ∧
      p.toFields = tool.slots.map fun s => (s.name, s.valueIn assigned) := by
  have field {α : Type} {f : ParameterField α} {kind : ArgumentKind} {encode : α → Json}
      (takes : Takes f.read kind encode) (mem : f.slot kind encode ∈ tool.slots) := exists_get accepts takes mem
  have single {f : ParameterField String} {make : String → Parameters} (takes : Takes f.read .text .str)
      (slots : tool.slots = [f.slot .text .str]) (reads : ∀ data, read tool data = f.get data >>= fun x => .ok (make x))
      (fields : ∀ x, (make x).toFields = [(f.name, .str x)]) :
      ∃ p, (∀ data, (∀ s ∈ tool.slots, s.GivenBy assigned data) → read tool data = .ok p) ∧
        p.toFields = tool.slots.map fun s => (s.name, s.valueIn assigned) := by
    obtain ⟨x, got, shown⟩ := field takes (by simp [slots])
    refine ⟨make x, fun data gives => ?_, ?_⟩
    · rw [reads, got data gives]
      rfl
    · rw [slots, List.map_singleton, ← shown, fields]
      rfl
  cases tool with
  | readFile =>
    obtain ⟨path, path_got, path_shown⟩ := field (f := pathField) takes_text (by simp [Tool.slots])
    obtain ⟨first, first_got, first_shown⟩ := field (f := startField) takes_integer? (by simp [Tool.slots])
    obtain ⟨last, last_got, last_shown⟩ := field (f := endField) takes_integer? (by simp [Tool.slots])
    refine ⟨.readFile path first last, fun data gives => ?_, ?_⟩
    · rw [read, path_got data gives, first_got data gives, last_got data gives]
      rfl
    · rw [Tool.slots, List.map_cons, List.map_cons, List.map_cons, ← path_shown, ← first_shown, ← last_shown]
      rfl
  | writeFile =>
    obtain ⟨path, path_got, path_shown⟩ := field (f := pathField) takes_text (by simp [Tool.slots])
    obtain ⟨content, content_got, content_shown⟩ := field (f := contentField) takes_text (by simp [Tool.slots])
    refine ⟨.writeFile path content, fun data gives => ?_, ?_⟩
    · rw [read, path_got data gives, content_got data gives]
      rfl
    · rw [Tool.slots, List.map_cons, List.map_cons, ← path_shown, ← content_shown]
      rfl
  | listDir => exact single takes_text rfl (fun _ => rfl) fun _ => rfl
  | searchFiles | findByName => exact single (f := patternField) takes_text rfl (fun _ => rfl) fun _ => rfl
  | grep | search =>
    obtain ⟨query, query_got, query_shown⟩ := field (f := queryField) takes_text (by simp [Tool.slots])
    obtain ⟨path, path_got, path_shown⟩ := field (f := placeField) takes_text (by simp [Tool.slots])
    obtain ⟨cased, cased_got, cased_shown⟩ := field (f := caseField) takes_truth (by simp [Tool.slots])
    obtain ⟨whole, whole_got, whole_shown⟩ := field (f := wordField) takes_truth (by simp [Tool.slots])
    obtain ⟨regex, regex_got, regex_shown⟩ := field (f := regexField) takes_truth (by simp [Tool.slots])
    obtain ⟨included, included_got, included_shown⟩ := field (f := includeField) takes_text? (by simp [Tool.slots])
    obtain ⟨excluded, excluded_got, excluded_shown⟩ := field (f := excludeField) takes_text? (by simp [Tool.slots])
    refine ⟨.search ⟨query, path, cased, whole, regex, included, excluded⟩, fun data gives => ?_, ?_⟩
    · rw [read, query_got data gives, path_got data gives, cased_got data gives, whole_got data gives,
        regex_got data gives, included_got data gives, excluded_got data gives]
      rfl
    · simp only [Tool.slots, List.map_cons, ← query_shown, ← path_shown, ← cased_shown, ← whole_shown, ← regex_shown,
        ← included_shown, ← excluded_shown]
      rfl
  | searchCodebase => exact single takes_text rfl (fun _ => rfl) fun _ => rfl
  | indexCodebase | todoList => exact ⟨.none, fun data gives => rfl, rfl⟩
  | todoAdd => exact single takes_text rfl (fun _ => rfl) fun _ => rfl
  | todoComplete => exact single takes_text rfl (fun _ => rfl) fun _ => rfl

end Parameters

namespace Argument
variable {tool : Tool}

/-- The texts of arguments spell them as they stand. -/
theorem spelled_texts (args : List (Argument tool)) : (texts args).map (fun v => (v.1, trim v.2)) = texts args := by
  rw [texts, List.map_map]
  exact List.map_congr_left fun a _ => congrArg (a.key, ·) a.proper.trim_toText

/-- Typed arguments mean the same as the texts of markup values and as the members of an object, each under the name of
its field or under its other name, and in any order: the tool gets what is assigned to its fields, and the defaults of
the other ones. -/
theorem markup_and_object_agree {written given : List (Argument tool)} (complete : Complete written)
    (same : (byName written).Perm (byName given)) {values : OrderedMap String}
    (spelled : values.map (fun v => (v.1, trim v.2)) = texts written) (shape : JsonCall.Shape) :
    ∃ p, (Markup.call? tool.name (values.map fun v => (v.1, v.2.toList))).map Parameters.ofCall =
        some (.ok (tool, p)) ∧
      (JsonCall.ofJson (shape.value tool (members given)) >>= Parameters.ofCall) = .ok (tool, p) ∧
      p.toFields = tool.slots.map fun s => (s.name, s.valueIn (byName written)) := by
  obtain ⟨p, reads, fields⟩ := Parameters.exists_read complete.accepts
  have parsed {call : ToolCall} (named : call.name = tool.name)
      (gives : ∀ s ∈ tool.slots, s.GivenBy (byName written) (Parameters.sourceData tool call)) :
      Parameters.ofCall call = .ok (tool, p) := by
    rw [Parameters.ofCall, named, Tool.ofName?_name]
    dsimp only
    rw [reads _ gives]
  refine ⟨p, ?_, ?_, fields⟩
  · obtain ⟨call, made, named, gives⟩ := exists_call?_givenBy complete.once spelled
    rw [made, Option.map_some, parsed named gives]
  · rw [JsonCall.Shape.ofJson_value]
    refine parsed rfl fun s mem => ?_
    obtain ⟨only, all⟩ := givenBy_members ((same.map _).nodup_iff.mp complete.once) mem
    constructor
    · rwa [OrderedMap.get?_perm complete.once same]
    · rwa [OrderedMap.get?_perm complete.once same]

section search

/-- The query for a text that looks like a number. -/
def numeralQuery : Argument .grep where
  slot := Parameters.queryField.slot .text .str
  known := by simp [Tool.slots]
  key := "query"
  key_mem := by decide
  value := .text "007"
  kind_eq := rfl
  proper := ⟨by decide, by decide⟩

/-- Case counts, under one of two keys. -/
def casedUnder (key : String) (key_mem : key ∈ ["case_sensitive", "caseSensitive"]) : Argument .grep where
  slot := Parameters.caseField.slot .truth .bool
  known := by simp [Tool.slots]
  key := key
  key_mem := key_mem
  value := .truth true
  kind_eq := rfl
  proper := trivial

/-- A pattern that looks like a truth value, under one of two keys. -/
def truePatternUnder (key : String) (key_mem : key ∈ ["include_pattern", "includePattern"]) : Argument .grep where
  slot := Parameters.includeField.slot .text Json.ofOption
  known := by simp [Tool.slots]
  key := key
  key_mem := key_mem
  value := .text "true"
  kind_eq := rfl
  proper := ⟨by decide, by decide⟩

theorem markup_and_object_agree_lookalikes :
    ∃ p, (Markup.call? "grep" [("query", [' ', '0', '0', '7']), ("caseSensitive", ['t', 'r', 'u', 'e']),
        ("include_pattern", ['t', 'r', 'u', 'e', '\n'])]).map Parameters.ofCall = some (.ok (.grep, p)) ∧
      (JsonCall.ofJson (.obj [("tool", .str "grep"), ("args", .obj [("includePattern", .str "true"),
        ("case_sensitive", .bool true), ("query", .str "007")])]) >>= Parameters.ofCall) = .ok (.grep, p) ∧
      p.toFields = [("query", .str "007"), ("path", .str "."), ("case_sensitive", .bool true),
        ("whole_word", .bool false), ("regex", .bool false), ("include_pattern", .str "true"),
        ("exclude_pattern", .null)] := by
  have complete : Complete [numeralQuery, casedUnder "caseSensitive" (by decide),
      truePatternUnder "include_pattern" (by decide)] := by
    constructor
    · decide
    · intro s mem none
      simp only [Tool.slots, List.mem_cons, List.not_mem_nil, or_false] at mem
      obtain rfl | rfl | rfl | rfl | rfl | rfl | rfl := mem
      · decide
      all_goals cases none
  have same : (byName [numeralQuery, casedUnder "caseSensitive" (by decide),
      truePatternUnder "include_pattern" (by decide)]).Perm (byName [truePatternUnder "includePattern" (by decide),
      casedUnder "case_sensitive" (by decide), numeralQuery]) := by decide
  have spelled : [("query", " 007"), ("caseSensitive", "true"), ("include_pattern", "true\n")].map
      (fun v => (v.1, trim v.2)) =
      texts [numeralQuery, casedUnder "caseSensitive" (by decide),
        truePatternUnder "include_pattern" (by decide)] := by decide
  exact markup_and_object_agree complete same spelled .byTool

end search

end Argument

end CodeAgent
