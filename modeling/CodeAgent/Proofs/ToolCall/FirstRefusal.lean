import CodeAgent.Proofs.ToolCall.FieldValues

/-! Which field of a tool is blamed. The parameters of a call are read exactly if every field that must be given is,
under one of its keys, and every one that is given has a value that it accepts; else the first field in order for which
this fails is blamed under the key it was given by. Other keys do not count, and neither does it under which of its keys
a field is given. -/
namespace CodeAgent
open CodeAgent.Coercion

/-- A value that a field accepts: one that counts for its kind, or null if that is what it comes to without a value. -/
def Slot.Accepts (s : Slot) (v : Json) : Prop := Counts s.kind v ∨ v = .null ∧ s.default = some .null

/-- The value under a key of a call; in a text field the source text goes before it. -/
def Slot.held? (s : Slot) (call : ToolCall) (key : String) : Option Json :=
  if s.kind = .text then
    ((OrderedMap.get? call.rawText key).map Json.str).or (OrderedMap.get? call.parameters key)
  else OrderedMap.get? call.parameters key

/-- The key under which a call gives a field, and the value there: the other name of the field goes first. -/
def Slot.given? (s : Slot) (call : ToolCall) : Option (String × Json) :=
  (s.otherName.bind fun key => (s.held? call key).map (key, ·)).or ((s.held? call s.name).map (s.name, ·))

/-- A call fills a field: it gives the field if it must be given, and a value that is accepted if it gives it. -/
structure Slot.FilledBy (s : Slot) (call : ToolCall) : Prop where
  present : s.default = none → s.given? call ≠ none
  accepted : ∀ key v, s.given? call = some (key, v) → s.Accepts v

/-- The key to blame for a field: the one under which it is given, or its name. -/
def Slot.blamed (s : Slot) (call : ToolCall) : String := ((s.given? call).map (·.1)).getD s.name

namespace ParameterField
variable {α : Type} {f : ParameterField α} {kind : ArgumentKind} {encode : α → Json} {tool : Tool} {call : ToolCall}

/-- The source texts are in place under the keys of a field just if it holds text. -/
theorem get?_sourceData_slot {s : Slot} (mem : s ∈ tool.slots) {key : String} (own : key ∈ s.keys) :
    OrderedMap.get? (Parameters.sourceData tool call) key = s.held? call key := by
  rw [Parameters.get?_sourceData, Slot.held?]
  exact if_congr (tool.mem_textKeys_iff s mem key own) rfl rfl

theorem given?_sourceData (mem : f.slot kind encode ∈ tool.slots) :
    f.given? (Parameters.sourceData tool call) = (f.slot kind encode).given? call := by
  have under {key : String} (own : key ∈ (f.slot kind encode).keys) :
      OrderedMap.get? (Parameters.sourceData tool call) key = (f.slot kind encode).held? call key :=
    get?_sourceData_slot mem own
  have name : OrderedMap.get? (Parameters.sourceData tool call) f.name = (f.slot kind encode).held? call f.name :=
    under List.mem_cons_self
  unfold given? Slot.given?
  change _ = (f.otherName.bind _).or (((f.slot kind encode).held? call f.name).map (f.name, ·))
  dsimp only
  rw [name, Option.orElse_eq_or]
  cases other : f.otherName with
  | none => rfl
  | some key =>
    have own : key ∈ (f.slot kind encode).keys := by
      rw [Slot.keys, slot, other]
      exact List.mem_cons_of_mem _ (List.mem_singleton_self key)
    dsimp only [Option.bind_some]
    rw [under own]

/-- A field that a call fills is read. -/
theorem exists_get_of_filledBy (mem : f.slot kind encode ∈ tool.slots)
    (judges : Judges f.read (f.slot kind encode).Accepts) (filled : (f.slot kind encode).FilledBy call) :
    ∃ a, f.get (Parameters.sourceData tool call) = .ok a := by
  rw [get, given?_sourceData mem]
  cases given : (f.slot kind encode).given? call with
  | some pair =>
    obtain ⟨key, v⟩ := pair
    obtain ⟨a, read⟩ := (judges v).mpr (filled.accepted key v given)
    dsimp only
    rw [read]
    exact ⟨a, rfl⟩
  | none =>
    cases default : f.default with
    | some a => exact ⟨a, rfl⟩
    | none => exact absurd given (filled.present (congrArg (Option.map encode) default))

/-- A field that a call does not fill is blamed. -/
theorem get_eq_blamed (mem : f.slot kind encode ∈ tool.slots) (judges : Judges f.read (f.slot kind encode).Accepts)
    (unfilled : ¬ (f.slot kind encode).FilledBy call) :
    f.get (Parameters.sourceData tool call) = .error ((f.slot kind encode).blamed call) := by
  rw [get, given?_sourceData mem, Slot.blamed]
  cases given : (f.slot kind encode).given? call with
  | some pair =>
    obtain ⟨key, v⟩ := pair
    dsimp only
    cases read : f.read v with
    | ok a =>
      refine absurd ⟨by simp [given], fun key' v' given' => ?_⟩ unfilled
      cases given.symm.trans given'
      exact (judges v).mp ⟨a, read⟩
    | error => rfl
  | none =>
    cases default : f.default with
    | some a =>
      refine absurd ⟨fun missing => ?_, by simp [given]⟩ unfilled
      rw [slot, default] at missing
      cases missing
    | none => rfl

end ParameterField

/-- A reader that gets some fields in order, each of which takes just what its slot accepts. -/
inductive ReadsInOrder {β : Type} : List Slot → (Json.Fields → Except String β) → Prop
  | done (b : β) : ReadsInOrder [] fun _ => .ok b
  | field {α : Type} {f : ParameterField α} {kind : ArgumentKind} {encode : α → Json} {slots : List Slot}
      {rest : α → Json.Fields → Except String β} (judges : Judges f.read (f.slot kind encode).Accepts)
      (later : ∀ a, ReadsInOrder slots (rest a)) :
      ReadsInOrder (f.slot kind encode :: slots) fun data => f.get data >>= fun a => rest a data

namespace ReadsInOrder
variable {β : Type} {slots : List Slot} {r : Json.Fields → Except String β} {tool : Tool} {call : ToolCall}

/-- The reader succeeds if the call fills all fields. -/
theorem exists_ok (reads : ReadsInOrder slots r) (known : ∀ s ∈ slots, s ∈ tool.slots)
    (filled : ∀ s ∈ slots, s.FilledBy call) : ∃ b, r (Parameters.sourceData tool call) = .ok b := by
  induction reads with
  | done b => exact ⟨b, rfl⟩
  | field judges _ ih =>
    obtain ⟨a, got⟩ := ParameterField.exists_get_of_filledBy (known _ List.mem_cons_self) judges
      (filled _ List.mem_cons_self)
    beta_reduce
    rw [got]
    exact ih a (fun s later => known s (List.mem_cons_of_mem _ later))
      fun s later => filled s (List.mem_cons_of_mem _ later)

/-- The reader blames the first field that the call does not fill. -/
theorem eq_blamed (reads : ReadsInOrder slots r) (known : ∀ s ∈ slots, s ∈ tool.slots) {pre post : List Slot} {s : Slot}
    (split : slots = pre ++ s :: post) (filled : ∀ t ∈ pre, t.FilledBy call) (unfilled : ¬ s.FilledBy call) :
    r (Parameters.sourceData tool call) = .error (s.blamed call) := by
  induction reads generalizing pre with
  | done => simp at split
  | field judges _ ih =>
    have own := known _ List.mem_cons_self
    beta_reduce
    cases pre with
    | nil =>
      obtain ⟨rfl, rfl⟩ := List.cons.inj split
      rw [ParameterField.get_eq_blamed own judges unfilled]
      rfl
    | cons first pre =>
      obtain ⟨rfl, rfl⟩ := List.cons.inj split
      obtain ⟨a, got⟩ := ParameterField.exists_get_of_filledBy own judges (filled _ List.mem_cons_self)
      rw [got]
      exact ih a (fun t later => known t (List.mem_cons_of_mem _ later)) rfl
        fun t later => filled t (List.mem_cons_of_mem _ later)

/-- Where each field is read alike up to the key to blame, so are all of them. -/
theorem eq_mapError (reads : ReadsInOrder slots r) {data data' : Json.Fields} {ρ : String → String}
    (each : ∀ {α : Type} (f : ParameterField α) (kind : ArgumentKind) (encode : α → Json),
      f.slot kind encode ∈ slots → f.get data' = (f.get data).mapError ρ) : r data' = (r data).mapError ρ := by
  induction reads with
  | done => rfl
  | @field α f kind encode slots rest judges _ ih =>
    beta_reduce
    rw [each f kind encode List.mem_cons_self]
    cases f.get data with
    | error key => rfl
    | ok a => exact ih a fun g kind' encode' later => each g kind' encode' (List.mem_cons_of_mem _ later)

end ReadsInOrder

namespace Parameters
open ParameterField

/-- A field that is not null without a value accepts what counts for its kind. -/
theorem judges_plain {α : Type} {f : ParameterField α} {kind : ArgumentKind} {encode : α → Json}
    (judges : Judges f.read (Counts kind)) (filled : (f.slot kind encode).default ≠ some .null) :
    Judges f.read (f.slot kind encode).Accepts := fun v =>
  (judges v).trans (or_iff_left fun null => filled null.2).symm

/-- A field that is null without a value accepts null as well. -/
theorem judges_optional {α : Type} {read : Json → Except Refusal α} {f : ParameterField (Option α)}
    {kind : ArgumentKind} {encode : Option α → Json} (judges : Judges read (Counts kind))
    (same : f.read = optional read) (null : (f.slot kind encode).default = some .null) :
    Judges f.read (f.slot kind encode).Accepts := fun v => by
  rw [same]
  exact (judges.optional v).trans (or_congr_right (and_iff_left null).symm)

/-- The parameters of a tool are read field by field. -/
theorem readsInOrder_read (tool : Tool) : ReadsInOrder tool.slots (read tool) := by
  have string {f : ParameterField String} (same : f.read = text) (filled : (f.slot .text .str).default ≠ some .null) :
      Judges f.read (f.slot .text .str).Accepts := judges_plain (same ▸ judges_text) filled
  have flag {f : ParameterField Bool} (same : f.read = truth) (filled : (f.slot .truth .bool).default ≠ some .null) :
      Judges f.read (f.slot .truth .bool).Accepts := judges_plain (same ▸ judges_truth) filled
  have line {f : ParameterField (Option Int)} (same : f.read = optional integer)
      (null : (f.slot .integer Json.ofInteger?).default = some .null) :
      Judges f.read (f.slot .integer Json.ofInteger?).Accepts := judges_optional judges_integer same null
  have glob {f : ParameterField (Option String)} (same : f.read = optional text)
      (null : (f.slot .text Json.ofOption).default = some .null) :
      Judges f.read (f.slot .text Json.ofOption).Accepts := judges_optional judges_text same null
  have path := string (f := pathField) rfl nofun
  have content := string (f := contentField) rfl nofun
  have pattern := string (f := patternField) rfl nofun
  have query := string (f := queryField) rfl nofun
  cases tool with
  | readFile =>
    exact .field path fun _ => .field (line (f := startField) rfl rfl) fun _ =>
      .field (line (f := endField) rfl rfl) fun _ => .done _
  | writeFile => exact .field path fun _ => .field content fun _ => .done _
  | listDir => exact .field path fun _ => .done _
  | searchFiles | findByName => exact .field pattern fun _ => .done _
  | grep | search =>
    exact .field query fun _ => .field (string (f := placeField) rfl nofun) fun _ =>
      .field (flag (f := caseField) rfl nofun) fun _ => .field (flag (f := wordField) rfl nofun) fun _ =>
      .field (flag (f := regexField) rfl nofun) fun _ => .field (glob (f := includeField) rfl rfl) fun _ =>
      .field (glob (f := excludeField) rfl rfl) fun _ => .done _
  | searchCodebase => exact .field query fun _ => .done _
  | indexCodebase | todoList => exact .done _
  | todoAdd => exact .field content fun _ => .done _
  | todoComplete => exact .field (string (f := idField) rfl nofun) fun _ => .done _

end Parameters

namespace OrderedMap
variable {α : Type}

/-- A map with another name in place of one of its names. -/
def rename (old new : String) (m : OrderedMap α) : OrderedMap α :=
  m.map fun p => (if p.1 = old then new else p.1, p.2)

theorem get?_rename {old new : String} {m : OrderedMap α} (fresh : new ∉ keys m) (key : String) :
    get? (rename old new m) key = if key = new then get? m old else if key = old then none else get? m key := by
  induction m with
  | nil => simp [rename, get?]
  | cons p m ih =>
    obtain ⟨other, fresh⟩ := not_or.mp fun mem => fresh (List.mem_cons.mpr mem)
    have step := ih fresh
    rw [rename] at step
    rw [rename, List.map_cons, get?_cons, step, get?_cons, get?_cons]
    by_cases first : p.1 = old
    · rw [if_pos first, if_pos first]
      by_cases found : new = key
      · rw [if_pos found, if_pos found.symm]
      · rw [if_neg found, if_neg (Ne.symm found), if_neg (Ne.symm found)]
        by_cases gone : key = old
        · rw [if_pos gone, if_pos gone]
        · rw [if_neg gone, if_neg gone, if_neg fun same => gone (same.symm.trans first)]
    · rw [if_neg first, if_neg first]
      by_cases found : p.1 = key
      · rw [if_pos found, if_pos found, if_neg fun same => other (same.symm.trans found.symm),
          if_neg fun same => first (found.trans same)]
      · rw [if_neg found, if_neg found]

end OrderedMap

/-- A call in which a field is given under another key. -/
def ToolCall.renamed (call : ToolCall) (old new : String) : ToolCall :=
  { call with parameters := call.parameters.rename old new, rawText := call.rawText.rename old new }

namespace Slot
variable {tool : Tool} {call call' : ToolCall} {s t : Slot} {other : String}

theorem held?_congr {key : String}
    (parameters : OrderedMap.get? call'.parameters key = OrderedMap.get? call.parameters key)
    (texts : OrderedMap.get? call'.rawText key = OrderedMap.get? call.rawText key) :
    s.held? call' key = s.held? call key := by
  rw [held?, held?, parameters, texts]

/-- Calls that hold the same under the keys of a field give it alike. -/
theorem given?_congr (same : ∀ key ∈ s.keys, s.held? call' key = s.held? call key) :
    s.given? call' = s.given? call := by
  have name := same s.name List.mem_cons_self
  unfold given?
  rw [name]
  cases known : s.otherName with
  | none => rfl
  | some key =>
    have other := same key (by simp [keys, known])
    dsimp only [Option.bind_some]
    rw [other]

end Slot

namespace ParameterField
variable {α : Type} {f : ParameterField α} {kind : ArgumentKind} {encode : α → Json} {tool : Tool}
  {call call' : ToolCall} {ρ : String → String}

/-- A field that is given under other keys is read alike up to the key to blame. -/
theorem get_eq_mapError (mem : f.slot kind encode ∈ tool.slots)
    (given : (f.slot kind encode).given? call' = ((f.slot kind encode).given? call).map fun p => (ρ p.1, p.2))
    (name : f.default = none → ρ f.name = f.name) :
    f.get (Parameters.sourceData tool call') = (f.get (Parameters.sourceData tool call)).mapError ρ := by
  rw [get, get, given?_sourceData mem, given?_sourceData mem, given]
  cases (f.slot kind encode).given? call with
  | some pair =>
    dsimp only [Option.map_some]
    cases f.read pair.2 <;> rfl
  | none =>
    dsimp only [Option.map_none]
    cases default : f.default with
    | some a => rfl
    | none => exact congrArg Except.error (name default).symm

end ParameterField

/-- A field with two names need not be given. -/
theorem Tool.default_isSome (tool : Tool) : ∀ s ∈ tool.slots, s.otherName.isSome = true → s.default.isSome = true := by
  cases tool <;> decide

/-- Different keys are blamed in different ways. -/
theorem Fault.missingParameter_inj {tool key key' : String}
    (same : Fault.missingParameter tool key = Fault.missingParameter tool key') : key = key' := by
  have details : [("tool_name", Json.str tool), ("parameter", .str key)] =
      [("tool_name", .str tool), ("parameter", .str key')] := congrArg Fault.details same
  simpa using details

/-- Of some elements that do not all have a property, one is the first that has it not. -/
theorem exists_first_not {α : Type} {P : α → Prop} {l : List α} (not_all : ¬ ∀ a ∈ l, P a) :
    ∃ pre a post, l = pre ++ a :: post ∧ (∀ b ∈ pre, P b) ∧ ¬ P a := by
  classical
  cases found : l.find? fun a => !decide (P a) with
  | none => exact absurd (by simpa using found) not_all
  | some a =>
    obtain ⟨unlike, pre, post, rfl, before⟩ := List.find?_eq_some_iff_append.mp found
    exact ⟨pre, a, post, rfl, by simpa using before, by simpa using unlike⟩

namespace Parameters
variable {tool : Tool} {call call' : ToolCall}

/-- What a call holds under other keys than those of the fields does not count. -/
theorem read_congr (parameters : ∀ s ∈ tool.slots, ∀ key ∈ s.keys,
      OrderedMap.get? call'.parameters key = OrderedMap.get? call.parameters key)
    (texts : ∀ s ∈ tool.slots, ∀ key ∈ s.keys, OrderedMap.get? call'.rawText key = OrderedMap.get? call.rawText key) :
    read tool (sourceData tool call') = read tool (sourceData tool call) := by
  have alike : read tool (sourceData tool call') = (read tool (sourceData tool call)).mapError id := by
    refine (readsInOrder_read tool).eq_mapError fun f kind encode mem => ?_
    refine ParameterField.get_eq_mapError mem ?_ fun _ => rfl
    rw [Slot.given?_congr fun key own => Slot.held?_congr (parameters _ mem key own) (texts _ mem key own)]
    exact Option.map_id'.symm
  rw [alike]
  cases read tool (sourceData tool call) <;> rfl

/-- A field that is given under its other name instead of its name is read alike, and blamed under its other name. -/
theorem read_renamed {s : Slot} (mem : s ∈ tool.slots) {other : String} (known : s.otherName = some other)
    (parameters : other ∉ OrderedMap.keys call.parameters) (texts : other ∉ OrderedMap.keys call.rawText) :
    read tool (sourceData tool (call.renamed s.name other)) =
      (read tool (sourceData tool call)).mapError fun key => if key = s.name then other else key := by
  have renamed (t : Slot) (key : String) : t.held? (call.renamed s.name other) key =
      if key = other then t.held? call s.name else if key = s.name then Option.none else t.held? call key := by
    unfold Slot.held? ToolCall.renamed
    dsimp only
    rw [OrderedMap.get?_rename parameters, OrderedMap.get?_rename texts]
    split_ifs <;> rfl
  have fresh : s.held? call other = Option.none := by
    have parameter : OrderedMap.get? call.parameters other = Option.none :=
      Option.eq_none_iff_forall_ne_some.mpr fun v found => parameters (OrderedMap.mem_keys_iff.mpr ⟨v, found⟩)
    have text : OrderedMap.get? call.rawText other = Option.none :=
      Option.eq_none_iff_forall_ne_some.mpr fun v found => texts (OrderedMap.mem_keys_iff.mpr ⟨v, found⟩)
    rw [Slot.held?, parameter, text]
    exact ite_self _
  refine (readsInOrder_read tool).eq_mapError fun f kind encode own => ?_
  by_cases same : f.slot kind encode = s
  · have name : f.name = s.name := congrArg Slot.name same
    refine ParameterField.get_eq_mapError own ?_ fun required => ?_
    · rw [same, Slot.given?, Slot.given?, known, Option.bind_some, Option.bind_some, renamed, renamed, if_pos rfl,
        fresh]
      cases s.held? call s.name with
      | none => simp
      | some v => simp
    · have filled := tool.default_isSome s mem (by rw [known]; rfl)
      rw [← same, ParameterField.slot, required] at filled
      cases filled
  · have apart {key key' : String} (key_own : key ∈ (f.slot kind encode).keys) (known' : key' ∈ s.keys) :
        key ≠ key' := by
      rintro rfl
      exact same (Tool.slot_eq_of_name_eq own mem (tool.name_eq_of_mem_keys _ own s mem key key_own known'))
    have name : s.name ∈ s.keys := List.mem_cons_self
    have second : other ∈ s.keys := by simp [Slot.keys, known]
    refine ParameterField.get_eq_mapError own ?_ fun _ => if_neg (apart List.mem_cons_self name)
    have alike : (f.slot kind encode).given? (call.renamed s.name other) = (f.slot kind encode).given? call :=
      Slot.given?_congr fun key key_own => by
        rw [renamed, if_neg (apart key_own second), if_neg (apart key_own name)]
    rw [alike]
    cases given : (f.slot kind encode).given? call with
    | none => rfl
    | some pair =>
      have key_own := (ParameterField.given?_eq_some kind encode ((ParameterField.given?_sourceData own).trans given)).1
      rw [Option.map_some, if_neg (apart key_own name)]

theorem ofCall_of_read_ok (named : call.name = tool.name) {p : Parameters}
    (got : read tool (sourceData tool call) = .ok p) : ofCall call = .ok (tool, p) := by
  rw [ofCall, named, Tool.ofName?_name]
  dsimp only
  rw [got]

theorem ofCall_of_read_error (named : call.name = tool.name) {key : String}
    (failed : read tool (sourceData tool call) = .error key) :
    ofCall call = .error (Fault.missingParameter call.name key) := by
  rw [ofCall, named, Tool.ofName?_name]
  dsimp only
  rw [failed]

/-- Of two calls of a tool whose parameters are read alike one gives what the other gives. -/
theorem ofCall_congr (named : call.name = tool.name) (same : call'.name = call.name)
    (alike : read tool (sourceData tool call') = read tool (sourceData tool call)) : ofCall call' = ofCall call := by
  cases got : read tool (sourceData tool call) with
  | ok p => rw [ofCall_of_read_ok named got, ofCall_of_read_ok (same.trans named) (alike.trans got)]
  | error key =>
    rw [ofCall_of_read_error named got, ofCall_of_read_error (same.trans named) (alike.trans got), same]

/-- The parameters of a call are read exactly if it fills every field of its tool, and the first field that it does not
fill is blamed under the key by which it is given, or by its name. What the call holds under keys of no field does not
count, and a field may as well be given under its other name as under its name. -/
theorem ofCall_blames_first_unfilled (tool : Tool) (call : ToolCall) (named : call.name = tool.name) :
    ((∃ p, ofCall call = .ok (tool, p)) ↔ ∀ s ∈ tool.slots, s.FilledBy call) ∧
    (∀ pre s post, tool.slots = pre ++ s :: post → (∀ t ∈ pre, t.FilledBy call) → ¬ s.FilledBy call →
      ofCall call = .error (Fault.missingParameter call.name (s.blamed call))) ∧
    (∀ call' : ToolCall, call'.name = call.name →
      (∀ s ∈ tool.slots, ∀ key ∈ s.keys,
        OrderedMap.get? call'.parameters key = OrderedMap.get? call.parameters key ∧
          OrderedMap.get? call'.rawText key = OrderedMap.get? call.rawText key) → ofCall call' = ofCall call) ∧
    ∀ s ∈ tool.slots, ∀ other, s.otherName = some other → other ∉ OrderedMap.keys call.parameters →
      other ∉ OrderedMap.keys call.rawText →
      (∀ p, ofCall call = .ok p → ofCall (call.renamed s.name other) = .ok p) ∧
      ∀ key, ofCall call = .error (Fault.missingParameter call.name key) →
        ofCall (call.renamed s.name other) =
          .error (Fault.missingParameter call.name (if key = s.name then other else key)) := by
  have reads := readsInOrder_read tool
  have known : ∀ s ∈ tool.slots, s ∈ tool.slots := fun _ mem => mem
  refine ⟨⟨?_, fun filled => ?_⟩, fun pre s post split filled unfilled => ?_, fun call' same alike => ?_,
    fun s mem other second parameters texts => ?_⟩
  · rintro ⟨p, done⟩
    by_contra unfilled
    obtain ⟨pre, s, post, split, filled, unfilled⟩ := exists_first_not unfilled
    rw [ofCall_of_read_error named (reads.eq_blamed known split filled unfilled)] at done
    cases done
  · obtain ⟨p, got⟩ := reads.exists_ok known filled
    exact ⟨p, ofCall_of_read_ok named got⟩
  · exact ofCall_of_read_error named (reads.eq_blamed known split filled unfilled)
  · exact ofCall_congr named same (read_congr (fun s mem key own => (alike s mem key own).1)
      fun s mem key own => (alike s mem key own).2)
  · have renamed := read_renamed mem second parameters texts
    have named' : (call.renamed s.name other).name = tool.name := named
    cases got : read tool (sourceData tool call) with
    | ok p =>
      rw [got] at renamed
      rw [ofCall_of_read_ok named got, ofCall_of_read_ok named' renamed]
      exact ⟨fun _ done => done, nofun⟩
    | error key =>
      rw [got] at renamed
      rw [ofCall_of_read_error named got, ofCall_of_read_error named' renamed]
      refine ⟨fun _ done => absurd done (by simp), fun key' failed => ?_⟩
      obtain rfl := Fault.missingParameter_inj (Except.error.inj failed)
      rfl

/-- A flag that is no truth value is blamed before a later one, under its name or under its other name. -/
theorem unreadable_flag_blamed :
    let call : ToolCall :=
      { name := "grep", parameters := [("regex", .null), ("case_sensitive", .str "maybe"), ("query", .str "x")] }
    call.name = Tool.grep.name ∧ ofCall call = .error (Fault.missingParameter "grep" "case_sensitive") ∧
      ofCall (call.renamed "case_sensitive" "caseSensitive") =
        .error (Fault.missingParameter "grep" "caseSensitive") := by
  intro call
  have query : (queryField.slot .text .str).FilledBy call := ⟨fun _ => nofun, by rintro _ _ ⟨⟩; exact .inl (.text "x")⟩
  have place : (placeField.slot .text .str).FilledBy call := ⟨nofun, nofun⟩
  have flag : ¬ (caseField.slot .truth .bool).FilledBy call := by
    intro filled
    obtain counts | ⟨null, -⟩ := filled.accepted "case_sensitive" (.str "maybe") rfl
    · cases counts with
      | word listed =>
        have lowered : "maybe".map Char.toLower = "maybe" := by
          rw [← String.toList_inj, String.toList_map]
          decide
        rw [lowered] at listed
        exact absurd listed (by decide)
    · cases null
  obtain ⟨-, blames, -, renames⟩ := ofCall_blames_first_unfilled .grep call rfl
  have blamed := blames [queryField.slot .text .str, placeField.slot .text .str] (caseField.slot .truth .bool) _ rfl
    (by simpa using ⟨query, place⟩) flag
  have key : (caseField.slot .truth .bool).blamed call = "case_sensitive" := by decide +kernel
  rw [key] at blamed
  refine ⟨rfl, blamed, ?_⟩
  exact (renames (caseField.slot .truth .bool) (by simp [Tool.slots]) "caseSensitive" rfl (by decide) (by decide)).2
    "case_sensitive" blamed

end Parameters
end CodeAgent
