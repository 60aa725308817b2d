import CodeAgent.Config.Overlay
import CodeAgent.Proofs.OrderedMap
import CodeAgent.Proofs.Record

/-! Which of several sources gives a field of the settings its value: given values come before the environment, and the
environment before a file. What a source holds for a field that another one outranks has no part in the settings, right
or wrong. -/
namespace CodeAgent.Settings
open CodeAgent.Text

/-- The values for a single field, if there is one. -/
def alone (field : String) (value : Option Json) : Json.Fields := value.toList.map (field, ·)

/-- The value that ranks highest: a given one, that of the variable, or the one of the file. -/
def highest? (given : Json.Fields) (env : Environment) (file : Json.Fields) (field : String) : Option Json :=
  (given? given field).or (((OrderedMap.get? env (variableName field)).map .str).or (given? file field))

/-! Settings are read field by field. -/

/-- A field of the settings: how its value is found, read and written. -/
structure Member : Type 1 where
  Value : Type
  name : String
  value : Settings → Value
  read : Json → Checked Value
  write : Value → Json

/-- The fields of the settings. -/
def members : List Member :=
  [⟨_, "default_model", (·.defaultModel), .text, .str⟩,
    ⟨_, "default_temperature", (·.temperature), number, .float⟩,
    ⟨_, "default_max_tokens", (·.maxTokens), .integer, .int⟩,
    ⟨_, "openai_api_key", (·.openaiKey), .optionalText, Json.ofOption⟩,
    ⟨_, "gemini_api_key", (·.geminiKey), .optionalText, Json.ofOption⟩,
    ⟨_, "openai_base_url", (·.openaiAddress), .text, .str⟩,
    ⟨_, "gemini_base_url", (·.geminiAddress), .text, .str⟩,
    ⟨_, "ollama_base_url", (·.ollamaAddress), .text, .str⟩,
    ⟨_, "max_iterations", (·.maxIterations), atLeast 1, .int⟩,
    ⟨_, "completion_marker", (·.completionMarker), filledText, .str⟩,
    ⟨_, "max_tool_result_chars", (·.maxResultChars), atLeast 1, .int⟩,
    ⟨_, "max_listed_symbols", (·.maxListedSymbols), atLeast 1, .int⟩,
    ⟨_, "search_result_limit", (·.searchLimit), atLeast 1, .int⟩,
    ⟨_, "short_query_length", (·.shortQueryLength), atLeast 1, .int⟩,
    ⟨_, "index_workers", (·.indexWorkers), atLeast 0, .int⟩,
    ⟨_, "max_search_results", (·.maxSearchResults), atLeast 1, .int⟩,
    ⟨_, "state_dir_name", (·.stateFolder), .text, .str⟩,
    ⟨_, "log_level", (·.logLevel), level, fun l => .str l.text⟩]

namespace Member

/-- A field read from values, or its default. -/
def readFrom (m : Member) (fields : Json.Fields) : Checked m.Value := .fieldOr (m.value {}) fields m.name m.read

end Member

theorem toFields_eq (s : Settings) : s.toFields = members.map fun m => (m.name, m.write (m.value s)) := rfl

theorem nodup_fieldNames : fieldNames.Nodup := by decide +kernel

theorem lower_fieldName : ∀ field ∈ fieldNames, lower field = field := by decide +kernel

/-- Settings are read if each field is. -/
theorem isOk_read (fields : Json.Fields) :
    (read fields).result.isOk = members.all fun m => (m.readFrom fields).result.isOk := by
  simp only [read, Checked.isOk_seq, Checked.isOk_map, members, List.all_cons, List.all_nil, Bool.and_true,
    Bool.and_assoc, Member.readFrom]

/-- Settings that were read have in each field what was read for it. -/
theorem readFrom_eq_ok {fields : Json.Fields} :
    ∀ s, read fields = .ok s → ∀ m ∈ members, m.readFrom fields = .ok (m.value s) := by
  rw [read]
  -- The last field is taken off first, so that the values come in the order of the fields.
  iterate 17 refine Checked.forall_of_seq ?_
  refine Checked.forall_of_map ?_
  intro _ h₁ _ h₂ _ h₃ _ h₄ _ h₅ _ h₆ _ h₇ _ h₈ _ h₉ _ h₁₀ _ h₁₁ _ h₁₂ _ h₁₃ _ h₁₄ _ h₁₅ _ h₁₆ _ h₁₇ _ h₁₈
  simp only [members, List.forall_mem_cons]
  exact ⟨h₁, h₂, h₃, h₄, h₅, h₆, h₇, h₈, h₉, h₁₀, h₁₁, h₁₂, h₁₃, h₁₄, h₁₅, h₁₆, h₁₇, h₁₈, nofun⟩

section single
variable {fields : Json.Fields} {field : String}

theorem get?_alone (field key : String) (value : Option Json) :
    OrderedMap.get? (alone field value) key = if field = key then value else none := by
  cases value with
  | none => exact (ite_self none).symm
  | some v =>
    rw [alone, Option.toList_some, List.map_singleton, OrderedMap.get?_cons]
    rfl

theorem readFrom_alone (m : Member) :
    m.readFrom (alone m.name (OrderedMap.get? fields m.name)) = m.readFrom fields :=
  Checked.fieldOr_congr _ _ (by rw [get?_alone, if_pos rfl])

theorem readFrom_alone_of_ne {m : Member} {value : Option Json} (other : field ≠ m.name) :
    m.readFrom (alone field value) = .ok (m.value {}) :=
  Checked.fieldOr_of_missing _ _ (by rw [get?_alone, if_neg other])

theorem exists_member (known : field ∈ fieldNames) : ∃ m ∈ members, m.name = field := List.mem_map.mp known

/-- Settings are read if the value of each field is read when it is the only one. -/
theorem isOk_read_iff (fields : Json.Fields) :
    (read fields).result.isOk = true ↔
      ∀ field ∈ fieldNames, (read (alone field (OrderedMap.get? fields field))).result.isOk = true := by
  simp only [isOk_read, List.all_eq_true]
  constructor
  · intro all field known m mem
    by_cases own : field = m.name
    · rw [own, readFrom_alone]
      exact all m mem
    · rw [readFrom_alone_of_ne own]
      rfl
  · intro all m mem
    rw [← readFrom_alone]
    exact all m.name (List.mem_map_of_mem mem) m mem

theorem get?_toFields (s : Settings) {m : Member} (mem : m ∈ members) :
    OrderedMap.get? s.toFields m.name = some (m.write (m.value s)) := by
  have distinct : (OrderedMap.keys s.toFields).Nodup := nodup_fieldNames
  refine OrderedMap.get?_of_mem distinct ?_
  rw [toFields_eq]
  exact List.mem_map_of_mem (f := fun m => (m.name, m.write (m.value s))) mem

/-- In settings that were read, a field is what its value alone gives. -/
theorem get?_toFields_of_read {s s' : Settings} (known : field ∈ fieldNames) (done : read fields = .ok s)
    (single : read (alone field (OrderedMap.get? fields field)) = .ok s') :
    OrderedMap.get? s.toFields field = OrderedMap.get? s'.toFields field := by
  obtain ⟨m, mem, rfl⟩ := exists_member known
  have whole := readFrom_eq_ok s done m mem
  have part := readFrom_eq_ok s' single m mem
  rw [readFrom_alone, whole] at part
  have same : m.value s = m.value s' := Except.ok.inj (congrArg Checked.result part)
  rw [get?_toFields s mem, get?_toFields s' mem, same]

end single

/-! What is given for a field, in each source. -/

theorem isFor_self {field : String} (known : field ∈ fieldNames) : isFor field field = true :=
  beq_iff_eq.mpr (lower_fieldName field known)

section given
variable {field : String} {values values' : Json.Fields}

/-- The values that are given for a field. -/
def valuesFor (field : String) (values : Json.Fields) : Json.Fields := values.filter fun v => isFor field v.1

theorem valuesFor_cons (p : String × Json) (values : Json.Fields) :
    valuesFor field (p :: values) =
      if isFor field p.1 = true then p :: valuesFor field values else valuesFor field values := List.filter_cons

theorem given?_valuesFor (known : field ∈ fieldNames) (values : Json.Fields) :
    given? (valuesFor field values) field = given? values field := by
  have exact : OrderedMap.get? (valuesFor field values) field = OrderedMap.get? values field := by
    induction values with
    | nil => rfl
    | cons p values ih =>
      obtain ⟨k, v⟩ := p
      rw [valuesFor_cons, OrderedMap.get?_cons, ← ih]
      by_cases own : isFor field k = true
      · rw [if_pos own, OrderedMap.get?_cons]
      · have other : k ≠ field := fun same => own (same.symm ▸ isFor_self known)
        rw [if_neg own, if_neg other]
  have first : (valuesFor field values).find? (fun v => isFor field v.1) = values.find? fun v => isFor field v.1 := by
    rw [valuesFor, ← List.head?_filter, ← List.head?_filter, List.filter_filter]
    simp only [Bool.and_self]
  rw [given?, given?, exact, first]

theorem given?_congr (known : field ∈ fieldNames) (same : valuesFor field values = valuesFor field values') :
    given? values field = given? values' field := by
  rw [← given?_valuesFor known values, same, given?_valuesFor known]

theorem given?_eq_none (known : field ∈ fieldNames) (none : valuesFor field values = []) :
    given? values field = .none := by
  have same : valuesFor field values = valuesFor field [] := none
  exact given?_congr known same

theorem given?_of_get? {v : Json} (found : OrderedMap.get? values field = some v) : given? values field = some v := by
  rw [given?, found]

theorem valuesFor_put (name : String) (value : Json) (values : Json.Fields) :
    valuesFor field (OrderedMap.put name value values) =
      if isFor field name = true then OrderedMap.put name value (valuesFor field values)
      else valuesFor field values := by
  induction values with
  | nil => exact valuesFor_cons (name, value) []
  | cons p values ih =>
    obtain ⟨k, v⟩ := p
    rw [OrderedMap.put]
    by_cases known : k = name
    · subst known
      rw [if_pos (beq_self_eq_true k), valuesFor_cons, valuesFor_cons]
      by_cases own : isFor field k = true
      · rw [if_pos own, if_pos own, if_pos own, OrderedMap.put, if_pos (beq_self_eq_true k)]
      · rw [if_neg own, if_neg own, if_neg own]
    · rw [if_neg (mt beq_iff_eq.mp known), valuesFor_cons, valuesFor_cons, ih]
      by_cases own : isFor field k = true
      · rw [if_pos own, if_pos own, OrderedMap.put, if_neg (mt beq_iff_eq.mp known)]
        split <;> rfl
      · rw [if_neg own, if_neg own]

/-- What is put into values for a field is what it was for, put into what they were for. -/
theorem valuesFor_foldl_put (given values : Json.Fields) :
    valuesFor field (given.foldl (fun m (k, v) => OrderedMap.put k v m) values) =
      (valuesFor field given).foldl (fun m (k, v) => OrderedMap.put k v m) (valuesFor field values) := by
  induction given generalizing values with
  | nil => rfl
  | cons p given ih =>
    rw [List.foldl_cons, ih, valuesFor_put, valuesFor_cons]
    split <;> rfl

end given

/-! The sources together. -/

/-- An environment in which no variable is there twice and those of fields have their names in capitals. -/
structure Proper (env : Environment) : Prop where
  distinct : (OrderedMap.keys env).Nodup
  capitals : ∀ name ∈ OrderedMap.keys env, ∀ field ∈ fieldNames,
    lower name = lower (variableName field) → name = variableName field

section sources
variable {env : Environment} {field : String}

theorem Proper.ofEnvironment?_eq (proper : Proper env) (known : field ∈ fieldNames) :
    ofEnvironment? env field = OrderedMap.get? env (variableName field) := by
  have distinct : (OrderedMap.keys env.reverse).Nodup :=
    ((List.reverse_perm env).map _).nodup_iff.mpr proper.distinct
  have same (v : String × String) (mem : v ∈ env.reverse) :
      (lower v.1 == lower (variableName field)) = (v.1 == variableName field) := by
    have there : v.1 ∈ OrderedMap.keys env := List.mem_map_of_mem (List.mem_reverse.mp mem)
    by_cases named : v.1 = variableName field
    · rw [named, beq_self_eq_true, beq_self_eq_true]
    · rw [beq_false_of_ne named, beq_false_of_ne fun alike => named (proper.capitals v.1 there field known alike)]
  rw [← OrderedMap.get?_perm distinct (List.reverse_perm env), ofEnvironment?, OrderedMap.get?, ← List.head?_filter,
    ← List.head?_filter, List.filter_congr same]

/-- A name of the file is that of a field that has a variable. -/
def isHidden (env : Environment) (name : String) : Bool :=
  fieldNames.contains name && OrderedMap.has env (variableName name)

/-- The values of the file that count. -/
def shown (env : Environment) (file : Json.Fields) : Json.Fields := file.filter fun v => !isHidden env v.1

/-- A file in which all names are texts gives the values that count. -/
theorem fileValues_texts (env : Environment) (overlay : List (String × Yaml.Value)) :
    fileValues env (overlay.map fun p => (.text p.1, p.2)) =
      .ok (shown env (overlay.map fun p => (p.1, p.2.toJson))) := by
  have read : overlay.mapM (fun p => (pure (if isHidden env p.1 then none else some (p.1, p.2.toJson)) :
      Except Failure (Option (String × Json)))) = _ := List.mapM_pure
  rw [fileValues, List.mapM_map]
  refine (congrArg (Except.map (List.filterMap id)) read).trans (congrArg Except.ok ?_)
  clear read
  induction overlay with
  | nil => rfl
  | cons p overlay ih =>
    rw [List.map_cons, List.map_cons, shown, List.filter_cons]
    cases isHidden env p.1 with
    | true => exact ih
    | false => exact congrArg (_ :: ·) ih

theorem get?_eq_none_of_has (unset : OrderedMap.has env (variableName field) = false) :
    OrderedMap.get? env (variableName field) = none := by
  rw [OrderedMap.has, List.any_eq_false] at unset
  rw [OrderedMap.get?, List.find?_eq_none.mpr unset]
  rfl

theorem get?_of_has (set : OrderedMap.has env (variableName field) = true) :
    ∃ s, OrderedMap.get? env (variableName field) = some s := by
  obtain ⟨v, mem, same⟩ := List.any_eq_true.mp set
  exact OrderedMap.mem_keys_iff.mp (beq_iff_eq.mp same ▸ List.mem_map_of_mem mem)

/-- What keeps a value of the file from standing above what ranks higher: a given value has the very name of the field;
or the file has nothing for the field, or only what falls away because there is a variable; or there is neither a given
value for the field nor a variable. -/
def Outranked (given : Json.Fields) (env : Environment) (file : Json.Fields) (field : String) : Prop :=
  field ∈ OrderedMap.keys given ∨
    (∀ name ∈ OrderedMap.keys file, isFor field name = true →
      name = field ∧ OrderedMap.has env (variableName field) = true) ∨
    ((∀ name ∈ OrderedMap.keys given, isFor field name = false) ∧ OrderedMap.has env (variableName field) = false)

section ranks
variable {given file : Json.Fields}

theorem valuesFor_eq_nil (others : ∀ name ∈ OrderedMap.keys file, isFor field name = false) :
    valuesFor field file = [] :=
  List.filter_eq_nil_iff.mpr fun v mem => Bool.eq_false_iff.mp (others v.1 (List.mem_map_of_mem mem))

/-- A name of the file for a field is hidden only if it is the field's own, and there is a variable. -/
theorem of_isHidden {name : String} (hidden : isHidden env name = true) (own : isFor field name = true) :
    OrderedMap.has env (variableName field) = true := by
  rw [isHidden, Bool.and_eq_true, List.contains_iff_mem] at hidden
  rw [isFor, lower_fieldName name hidden.1, beq_iff_eq] at own
  exact own ▸ hidden.2

theorem valuesFor_shown_of_unset (unset : OrderedMap.has env (variableName field) = false) :
    valuesFor field (shown env file) = valuesFor field file := by
  rw [valuesFor, shown, List.filter_filter, valuesFor]
  apply List.filter_congr
  intro v mem
  cases own : isFor field v.1 with
  | false => rfl
  | true =>
    cases hidden : isHidden env v.1 with
    | false => rfl
    | true => cases unset.symm.trans (of_isHidden hidden own)

/-- What is put together for a field ranks highest. -/
theorem gathered_eq_highest? (known : field ∈ fieldNames) (distinct : (OrderedMap.keys given).Nodup)
    (ranks : Outranked given env file field) :
    (given? (given.foldl (fun m (k, v) => OrderedMap.put k v m) (shown env file)) field).or
        ((OrderedMap.get? env (variableName field)).map .str) = highest? given env file field := by
  rw [highest?]
  obtain named | hidden | ⟨others, unset⟩ := ranks
  · obtain ⟨v, found⟩ := OrderedMap.mem_keys_iff.mp named
    have whole := OrderedMap.get?_foldl_put distinct (shown env file) field
    rw [found, Option.some_or] at whole
    rw [given?_of_get? whole, given?_of_get? found]
    rfl
  · have nothing : valuesFor field (shown env file) = [] := by
      refine List.filter_eq_nil_iff.mpr fun v mem own => ?_
      rw [shown, List.mem_filter] at mem
      obtain ⟨same, set⟩ := hidden v.1 (List.mem_map_of_mem mem.1) own
      have shows := mem.2
      rw [isHidden, same, set, List.contains_iff_mem.mpr known] at shows
      cases shows
    have same : valuesFor field (given.foldl (fun m (k, v) => OrderedMap.put k v m) (shown env file)) =
        valuesFor field given := by
      rw [valuesFor_foldl_put, nothing]
      exact OrderedMap.ofPairs_of_nodup (distinct.sublist (List.filter_sublist.map _))
    rw [given?_congr known same]
    cases set : OrderedMap.get? env (variableName field) with
    | some s => rfl
    | none =>
      have none : given? file field = none := by
        refine given?_eq_none known (valuesFor_eq_nil fun name mem => Bool.eq_false_iff.mpr fun own => ?_)
        obtain ⟨s, found⟩ := get?_of_has (hidden name mem own).2
        cases set.symm.trans found
      rw [none]
      rfl
  · have first : given? given field = none := given?_eq_none known (valuesFor_eq_nil others)
    have same : valuesFor field (given.foldl (fun m (k, v) => OrderedMap.put k v m) (shown env file)) =
        valuesFor field file := by
      rw [valuesFor_foldl_put, valuesFor_eq_nil others, List.foldl_nil, valuesFor_shown_of_unset unset]
    rw [first, get?_eq_none_of_has unset, given?_congr known same]
    exact Option.or_none

/-- What the sources describe is read, or what keeps it from being read is told. -/
theorem gather_cases (proper : Proper env) (values : Json.Fields) :
    let fields := fieldNames.filterMap fun field =>
      ((given? values field).or ((OrderedMap.get? env (variableName field)).map .str)).map (field, ·)
    (∃ s extra, read fields = .ok s ∧ gather env values = .ok ⟨s, extra⟩) ∨
      ∃ issues, read fields = ⟨.error issues⟩ ∧ gather env values = .error (.invalid issues) := by
  intro fields
  have described (source : String → Option (String × Json)) (same : ∀ field ∈ fieldNames, source field =
      ((given? values field).or ((OrderedMap.get? env (variableName field)).map .str)).map (field, ·)) :
      fieldNames.filterMap source = fields := List.filterMap_congr same
  rw [gather, described]
  rotate_left
  · intro field known
    rw [proper.ofEnvironment?_eq known]
    cases given? values field with
    | some v => rfl
    | none => cases OrderedMap.get? env (variableName field) <;> rfl
  cases outcome : read fields with
  | mk result =>
    cases result with
    | error issues => exact .inr ⟨issues, rfl, rfl⟩
    | ok s => exact .inl ⟨s, _, rfl, rfl⟩

end ranks
instance (given : Json.Fields) (env : Environment) (file : Json.Fields) (field : String) :
    Decidable (Outranked given env file field) := inferInstanceAs (Decidable (_ ∨ _ ∨ _))

end sources

/-! Files with whole numbers, and an environment with one variable. -/

private def wholeNumber? : Yaml.Value × Yaml.Value → Option (String × Int)
  | (.text name, .integer n) => some (name, n)
  | _ => none

private theorem eq_of_wholeNumber? {entry : Yaml.Value × Yaml.Value} {p : String × Int}
    (same : wholeNumber? entry = some p) : entry = (.text p.1, .integer p.2) := by
  unfold wholeNumber? at same
  split at same
  · cases same
    rfl
  · cases same

private theorem eq_ok_of_wholeNumbers {outcome : Except Failure (List (Yaml.Value × Yaml.Value))}
    (numbers : List (String × Int)) (same : outcome.toOption.map (·.map wholeNumber?) = some (numbers.map some)) :
    outcome = .ok (numbers.map fun p => (.text p.1, .integer p.2)) := by
  cases outcome with
  | error e => cases same
  | ok entries =>
    refine congrArg Except.ok ?_
    have same : entries.map wholeNumber? = numbers.map some := Option.some.inj same
    induction entries generalizing numbers with
    | nil =>
      cases numbers with
      | nil => rfl
      | cons p numbers => cases same
    | cons entry entries ih =>
      cases numbers with
      | nil => cases same
      | cons p numbers =>
        obtain ⟨first, rest⟩ := List.cons.inj same
        rw [eq_of_wholeNumber? first, ih numbers (congrArg some rest) rest]
        rfl

private def wholeField? (field : String) (s : Settings) : Option Int :=
  match OrderedMap.get? s.toFields field with
  | some (.int n) => some n
  | _ => none

private theorem get?_of_wholeField? {field : String} {s : Settings} {n : Int} (found : wholeField? field s = some n) :
    OrderedMap.get? s.toFields field = some (.int n) := by
  unfold wholeField? at found
  split at found
  · next same =>
    cases found
    exact same
  · cases found

private def withFile (text : String) : FileSystem := { root := .folder [("s.yaml", .file (utf8Bytes text) 0)] }

private def sevenIterations : Environment := [("COGNITIVE_MAX_ITERATIONS", "7")]

private theorem proper_sevenIterations : Proper sevenIterations := ⟨by decide, by decide +kernel⟩

section load
variable {fs : FileSystem} {env : Environment} {file : Option String} {given : Json.Fields}
  {overlay : List (String × Yaml.Value)}

theorem load_eq_gather (given : Json.Fields)
    (mapping : fileEntries fs (filePath fs file) = .ok (overlay.map fun p => (.text p.1, p.2))) :
    load fs env file given = gather env
      (given.foldl (fun m (k, v) => OrderedMap.put k v m) (shown env (overlay.map fun p => (p.1, p.2.toJson)))) := by
  rw [load, mapping]
  change (fileValues env (overlay.map fun p => (.text p.1, p.2))).bind _ = _
  rw [fileValues_texts]
  rfl

/-- How settings are loaded, from a file in which all names are texts and for whose values `Outranked` holds. Either the
value that ranks highest is right for every field, and then each field has what this value alone gives; or it is wrong
for some field, and then nothing is loaded. -/
theorem load_highest (proper : Proper env) (distinct : (OrderedMap.keys given).Nodup)
    (mapping : fileEntries fs (filePath fs file) = .ok (overlay.map fun p => (.text p.1, p.2)))
    (ranks : ∀ field ∈ fieldNames, Outranked given env (overlay.map fun p => (p.1, p.2.toJson)) field) :
    let highest := highest? given env (overlay.map fun p => (p.1, p.2.toJson))
    (∃ loaded, load fs env file given = .ok loaded ∧ ∀ field ∈ fieldNames, ∃ s,
      read (alone field (highest field)) = .ok s ∧
        OrderedMap.get? loaded.settings.toFields field = OrderedMap.get? s.toFields field) ∨
    ∃ issues, load fs env file given = .error (.invalid issues) ∧ ∃ field ∈ fieldNames, ∃ reasons,
      read (alone field (highest field)) = ⟨.error reasons⟩ := by
  intro highest
  rw [load_eq_gather given mapping]
  have gathered := gather_cases proper
    (given.foldl (fun m (k, v) => OrderedMap.put k v m) (shown env (overlay.map fun p => (p.1, p.2.toJson))))
  have same (field : String) (known : field ∈ fieldNames) := gathered_eq_highest? known distinct (ranks field known)
  dsimp only at gathered
  rw [List.filterMap_congr fun field known => congrArg (Option.map (field, ·)) (same field known)] at gathered
  have found (field : String) (known : field ∈ fieldNames) :=
    (OrderedMap.get?_tabulate fieldNames highest field).trans (if_pos known)
  obtain ⟨s, extra, read, loaded⟩ | ⟨issues, refused, failed⟩ := gathered
  · refine .inl ⟨_, loaded, fun field known => ?_⟩
    have fine := (isOk_read_iff _).mp (Checked.exists_eq_ok.mpr ⟨s, read⟩) field known
    obtain ⟨s', single⟩ := Checked.exists_eq_ok.mp fine
    have part := get?_toFields_of_read known read single
    rw [found field known] at single
    exact ⟨s', single, part⟩
  · refine .inr ⟨issues, failed, ?_⟩
    by_contra fine
    have all : ∀ field ∈ fieldNames, (read (alone field (highest field))).result.isOk = true := by
      intro field known
      cases outcome : read (alone field (highest field)) with
      | mk result =>
        cases result with
        | ok s => rfl
        | error reasons => exact absurd ⟨field, known, reasons, outcome⟩ fine
    have right := (isOk_read_iff _).mpr fun field known => (found field known).symm ▸ all field known
    rw [refused] at right
    cases right

end load

/-- Numbers that are too small do no harm where the environment or a given value outranks them. -/
theorem load_highest_over_wrong_numbers :
    let fs := withFile "max_iterations: 0\nindex_workers: -1\nmax_listed_symbols: 4\n"
    let overlay : List (String × Yaml.Value) :=
      [("max_iterations", .integer 0), ("index_workers", .integer (-1)), ("max_listed_symbols", .integer 4)]
    let env := sevenIterations
    let given : Json.Fields := [("index_workers", .int 2)]
    Proper env ∧ (OrderedMap.keys given).Nodup ∧
      fileEntries fs (filePath fs (some "/s.yaml")) = .ok (overlay.map fun p => (.text p.1, p.2)) ∧
      (∀ field ∈ fieldNames, Outranked given env (overlay.map fun p => (p.1, p.2.toJson)) field) ∧
      ∃ loaded, load fs env (some "/s.yaml") given = .ok loaded ∧
        ∀ p ∈ [("max_iterations", 7), ("index_workers", 2), ("max_listed_symbols", 4)],
          OrderedMap.get? loaded.settings.toFields p.1 = some (.int p.2) := by
  intro fs overlay env given
  have proper : Proper env := proper_sevenIterations
  have distinct : (OrderedMap.keys given).Nodup := by decide
  have mapping : fileEntries fs (filePath fs (some "/s.yaml")) = .ok (overlay.map fun p => (.text p.1, p.2)) :=
    eq_ok_of_wholeNumbers [("max_iterations", 0), ("index_workers", -1), ("max_listed_symbols", 4)] (by decide +kernel)
  have ranks : ∀ field ∈ fieldNames, Outranked given env (overlay.map fun p => (p.1, p.2.toJson)) field := by
    decide +kernel
  refine ⟨proper, distinct, mapping, ranks, ?_⟩
  let highest := highest? given env (overlay.map fun p => (p.1, p.2.toJson))
  have counted : ∀ p ∈ [("max_iterations", 7), ("index_workers", 2), ("max_listed_symbols", 4)], p.1 ∈ fieldNames ∧
      (read (alone p.1 (highest p.1))).result.toOption.bind (wholeField? p.1) = some p.2 := by decide +kernel
  have right : ∀ field ∈ fieldNames, (read (alone field (highest field))).result.isOk = true := by decide +kernel
  obtain ⟨loaded, done, values⟩ | ⟨-, -, field, known, reasons, wrong⟩ := load_highest proper distinct mapping ranks
  · refine ⟨loaded, done, fun p mem => ?_⟩
    obtain ⟨known, number⟩ := counted p mem
    obtain ⟨s, single, same⟩ := values p.1 known
    rw [single] at number
    exact same.trans (get?_of_wholeField? number)
  · have fine := right field known
    rw [wrong] at fine
    cases fine

/-- A value of a file under another spelling of a field's name stands above the variable of the field. -/
theorem respelled_value_above_variable :
    let fs := withFile "Max_Iterations: 4\n"
    let env := sevenIterations
    Proper env ∧ fileEntries fs (filePath fs (some "/s.yaml")) = .ok [(.text "Max_Iterations", .integer 4)] ∧
      (∀ file, highest? [] env file "max_iterations" = some (.str "7")) ∧
      (read (alone "max_iterations" (some (.str "7")))).result.toOption.map (·.maxIterations) = some 7 ∧
      (load fs env (some "/s.yaml") []).toOption.map (·.settings.maxIterations) = some 4 := by
  refine ⟨proper_sevenIterations, ?_, fun file => rfl, by decide +kernel, by decide +kernel⟩
  exact eq_ok_of_wholeNumbers [("Max_Iterations", 4)] (by decide +kernel)

end CodeAgent.Settings
