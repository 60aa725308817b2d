import CodeAgent.Proofs.Workspace.BrokenRules
import CodeAgent.Proofs.Workspace.WalkBelow

/-! Which files a walk lists. What each ignore file says of the paths below its folder is taken as given; the files are
then told by what the places of the tree hold, so that the order of the entries of folders plays no part. -/
namespace CodeAgent
open CodeAgent.Text

/-- The text of an ignore file decides of the paths below its folder as given; text that cannot be read ignores
nothing. -/
def IgnoreRules.Decides (content : Bytes) (verdict : String → Bool) : Prop :=
  ∃ rules?, ofBytes content = .ok rules? ∧ ∀ relative, match rules? with
    | some rules => ignores rules relative = .ok (verdict relative)
    | none => verdict relative = false

/-- What the ignore file of each folder of a tree says of the paths below the folder. -/
def Node.IgnoresBy (root : Node) (verdict : Place → String → Bool) : Prop :=
  ∀ folder content modified, root.holding (folder ++ [".gitignore"]) = .file content modified →
    IgnoreRules.Decides content (verdict folder)

/-- An entry of the folder at a place is what is found one name further. -/
theorem Node.member?_entries_at? (root : Node) (here : Place) (name : String) :
    (Node.folder (((root.at? here).map Node.entries).getD [])).member? name = root.at? (here ++ [name]) := by
  rw [Node.at?_append]
  cases root.at? here with
  | none => rfl
  | some n => exact (Option.bind_fun_some _).symm

/-- A text does not break down if its rules are read, and the pattern of each of them. -/
theorem IgnoreRules.not_broken {content : Bytes} (readable : (ofBytes content).toOption.any fun rules? =>
    (rules?.getD []).all fun rule => (Pattern.read {} rule.pattern).toOption.isSome) (b : Breakdown) :
    ¬ Broken content b := by
  rintro (⟨-, failed⟩ | ⟨-, rules, read, rule, mem, e, unreadable⟩)
  · rw [failed] at readable
    cases readable
  · rw [read] at readable
    have proper := List.all_eq_true.mp readable rule mem
    rw [unreadable] at proper
    cases proper

/-- What the text of an ignore file says of a path below its folder, by the rules in it. -/
def IgnoreRules.verdict (content : Bytes) (relative : String) : Bool :=
  match ofBytes content with
  | .ok (some rules) => (ignores rules relative).toOption.getD false
  | _ => false

theorem IgnoreRules.decides_verdict {content : Bytes} (sound : ∀ b, ¬ Broken content b) :
    Decides content (verdict content) := by
  unfold Decides verdict
  cases read : ofBytes content with
  | error b => exact absurd (failsBy_ofBytes content b read) (sound b)
  | ok rules? =>
    refine ⟨rules?, rfl, fun relative => ?_⟩
    cases rules? with
    | none => rfl
    | some rules =>
      dsimp only
      cases judged : ignores rules relative with
      | error b => exact absurd (failsBy_ignores read relative b judged) (sound b)
      | ok hit => rfl

/-- What the ignore file of a folder of a tree says of a path below the folder, by the rules in it. -/
def Node.ownVerdict (root : Node) (folder : Place) (relative : String) : Bool :=
  match root.holding (folder ++ [".gitignore"]) with
  | .file content _ => IgnoreRules.verdict content relative
  | _ => false

/-- Where no ignore file breaks down, each one decides by its own rules. -/
theorem Node.ignoresBy_ownVerdict {root : Node} (sound : ∀ b, ¬ root.BrokenRules b) :
    root.IgnoresBy root.ownVerdict := by
  intro folder content modified file
  have own : root.ownVerdict folder = IgnoreRules.verdict content := by
    unfold ownVerdict
    rw [file]
  rw [own]
  refine IgnoreRules.decides_verdict fun b broken => sound b ⟨content, ?_, broken⟩
  have there : root.at? (folder ++ [".gitignore"]) = some (.file content modified) := by
    revert file
    unfold Node.holding
    cases root.at? (folder ++ [".gitignore"]) with
    | none => exact nofun
    | some n =>
      cases n with
      | folder => exact nofun
      | file content' modified' => rintro ⟨⟩; rfl
  exact Walk.holdsRules_entries (.direct ((member?_entries_at? root folder _).trans there))

namespace Place
variable {top here folder p : Place}

/-- A folder strictly above a place, from a given one down. -/
structure Above (top p folder : Place) : Prop where
  from_top : top <+: folder
  leads : folder <+: p
  strict : folder ≠ p

theorem within?_eq_none (apart : ¬ here <+: p) : within? here p = none := by
  induction here generalizing p with
  | nil => exact absurd List.nil_prefix apart
  | cons name here ih =>
    cases p with
    | nil => rfl
    | cons name' p =>
      rw [within?]
      split
      · next same => exact ih fun down => apart ((beq_iff_eq.mp same) ▸ List.cons_prefix_cons.mpr ⟨rfl, down⟩)
      · rfl

theorem not_above_top (top folder : Place) : ¬ Above top top folder := fun above =>
  above.strict (above.leads.eq_of_length_le above.from_top.length_le)

theorem not_entry_prefix (here : Place) (name : String) : ¬ here ++ [name] <+: here := fun down => by
  have shorter := down.length_le
  rw [List.length_append, List.length_singleton] at shorter
  omega

/-- Above an entry of a folder are that folder and what is above it. -/
theorem above_entry_iff (down : top <+: here) (name : String) :
    Above top (here ++ [name]) folder ↔ Above top here folder ∨ folder = here := by
  constructor
  · rintro ⟨from_top, leads, strict⟩
    have leads := (List.prefix_concat_iff.mp leads).resolve_left strict
    by_cases same : folder = here
    · exact .inr same
    · exact .inl ⟨from_top, leads, same⟩
  · have leads : here <+: here ++ [name] := List.prefix_append _ _
    rintro (above | rfl)
    · exact ⟨above.from_top, above.leads.trans leads, fun same => not_entry_prefix here name (same ▸ above.leads)⟩
    · exact ⟨down, leads, by simp⟩

end Place

namespace Walk

/-- The folder from which on ignore files count in a walk from a place. -/
def rulesTop (w : Walk) (start : Place) : Place := if w.root <+: start then w.root else start

section listing
variable (held : Place → Holding) (verdict : Place → String → Bool)

/-- A folder has an ignore file, which ignores an entry below the folder. -/
def IgnoredFrom (folder entry : Place) : Prop :=
  (∃ content modified, held (folder ++ [".gitignore"]) = .file content modified) ∧
    verdict folder (String.intercalate "/" (entry.drop folder.length))

/-- An ignore file in one of the folders above an entry ignores it. -/
def Ignored (top entry : Place) : Prop :=
  ∃ folder, Place.Above top entry folder ∧ IgnoredFrom held verdict folder entry

/-- The files that a walk from a place lists. -/
structure Lists (w : Walk) (start p : Place) : Prop where
  file : ∃ content modified, held p = .file content modified
  below : start <+: p
  wanted : w.wants (p.getLastD "")
  entered : ∀ folder, Place.Above start p folder → folder ≠ start →
    folder.getLastD "" ≠ historyFolder ∧ folder.getLastD "" ∉ w.skipped
  kept : ∀ entry, start <+: entry → entry ≠ start → entry <+: p → ¬ Ignored held verdict (w.rulesTop start) entry

end listing

end Walk

namespace PlacedRules
variable {held : Place → Holding} {verdict : Place → String → Bool} {root : Node} {rules more : List PlacedRules}
  {top here place : Place} {folders folders' : Place → Prop}

/-- Rules speak for the ignore files of some folders: they ignore what these ignore, and never break down. -/
def SpeakFor (held : Place → Holding) (verdict : Place → String → Bool) (rules : List PlacedRules)
    (folders : Place → Prop) : Prop :=
  ∀ place, ∃ hit, ignores place rules = .ok hit ∧
    (hit = true ↔ ∃ folder, folders folder ∧ Walk.IgnoredFrom held verdict folder place)

theorem SpeakFor.congr (speak : SpeakFor held verdict rules folders)
    (same : ∀ folder, folders folder ↔ folders' folder) : SpeakFor held verdict rules folders' := by
  rwa [show folders' = folders from funext fun folder => propext (same folder).symm]

theorem SpeakFor.nil (none : ∀ folder, ¬ folders folder) : SpeakFor held verdict [] folders :=
  fun _ => ⟨false, rfl, iff_of_false nofun fun ⟨folder, here, _⟩ => none folder here⟩

theorem SpeakFor.append (speak : SpeakFor held verdict rules folders) (speak' : SpeakFor held verdict more folders') :
    SpeakFor held verdict (rules ++ more) fun folder => folders folder ∨ folders' folder := by
  intro place
  obtain ⟨hit, judged, heard⟩ := speak place
  obtain ⟨hit', judged', heard'⟩ := speak' place
  refine ⟨hit || hit', ?_, ?_⟩
  · rw [ignores_append, judged]
    cases hit with
    | true => rfl
    | false => exact judged'
  · simp only [Bool.or_eq_true, heard, heard', or_and_right, exists_or]

/-- The rules of a folder speak for its ignore file. -/
theorem speakFor_own (given : root.IgnoresBy verdict) (here : Place) :
    ∃ own, enter [] here (((root.at? here).map Node.entries).getD []) = .ok own ∧
      SpeakFor root.holding verdict own (· = here) := by
  have silent (none : ∀ place, ¬ Walk.IgnoredFrom root.holding verdict here place) :
      SpeakFor root.holding verdict [] (· = here) := by
    refine fun place => ⟨false, rfl, iff_of_false nofun ?_⟩
    rintro ⟨_, rfl, ignored⟩
    exact none place ignored
  unfold enter
  rw [Node.member?_entries_at?]
  cases found : root.at? (here ++ [".gitignore"]) with
  | none =>
    refine ⟨[], rfl, silent ?_⟩
    rintro _ ⟨⟨content, modified, file⟩, -⟩
    rw [Node.holding, found] at file
    cases file
  | some n =>
    cases n with
    | folder es =>
      refine ⟨[], rfl, silent ?_⟩
      rintro _ ⟨⟨content, modified, file⟩, -⟩
      rw [Node.holding, found] at file
      cases file
    | file content modified =>
      have file : root.holding (here ++ [".gitignore"]) = .file content modified := by rw [Node.holding, found]; rfl
      obtain ⟨rules?, read, decides⟩ := given here content modified file
      dsimp only
      rw [read]
      cases rules? with
      | none =>
        refine ⟨[], rfl, silent ?_⟩
        rintro place ⟨-, hit⟩
        exact Bool.false_ne_true ((decides _).symm.trans hit)
      | some own =>
        refine ⟨[⟨here, own⟩], rfl, fun place =>
          ⟨verdict here (String.intercalate "/" (place.drop here.length)), ?_, ?_⟩⟩
        · rw [ignores, decides]
          cases verdict here _ <;> rfl
        · refine ⟨fun hit => ⟨here, rfl, ⟨content, modified, file⟩, hit⟩, ?_⟩
          rintro ⟨_, rfl, -, hit⟩
          exact hit

/-- A folder adds the rules of its own ignore file. -/
theorem SpeakFor.enter (speak : SpeakFor root.holding verdict rules folders) (given : root.IgnoresBy verdict)
    {entries : List (String × Node)} (there : root.at? here = some (.folder entries)) :
    ∃ inner, PlacedRules.enter rules here entries = .ok inner ∧
      SpeakFor root.holding verdict inner fun folder => folders folder ∨ folder = here := by
  obtain ⟨own, entered, speak'⟩ := speakFor_own given here
  rw [there] at entered
  refine ⟨rules ++ own, ?_, speak.append speak'⟩
  rw [← List.append_nil rules, enter_append, List.append_nil]
  exact congrArg (Except.map (rules ++ ·)) entered

end PlacedRules

namespace Walk
open PlacedRules
variable {w : Walk} {held : Place → Holding} {verdict : Place → String → Bool} {root : Node} {rules : List PlacedRules}
  {top here p : Place}

/-- The rules along names speak for the folders on the way. -/
theorem speakFor_rulesAlong (given : root.IgnoresBy verdict) (top : Place) (names : List String) :
    ∃ rules, rulesAlong root top names = .ok rules ∧
      SpeakFor root.holding verdict rules (Place.Above top (top ++ names)) := by
  induction names using List.reverseRecOn with
  | nil => exact ⟨[], rfl, .nil fun folder => by rw [List.append_nil]; exact Place.not_above_top top folder⟩
  | append_singleton way name ih =>
    obtain ⟨rules, along, speak⟩ := ih
    obtain ⟨own, entered, speak'⟩ := speakFor_own given (top ++ way)
    refine ⟨rules ++ own, ?_, ?_⟩
    · rw [rulesAlong_append, along]
      change (rulesAlong root (top ++ way) [name]).map _ = _
      rw [rulesAlong, entered]
      exact congrArg (fun more => Except.ok (rules ++ more)) (List.append_nil own)
    · rw [← List.append_assoc]
      exact (speak.append speak').congr fun folder => (Place.above_entry_iff (List.prefix_append _ _) name).symm

/-- An entry on the way to a file lets a walk go on to the file. -/
structure Passes (w : Walk) (held : Place → Holding) (verdict : Place → String → Bool) (top p entry : Place) :
    Prop where
  kept : ¬ Ignored held verdict top entry
  wanted : entry = p → w.wants (entry.getLastD "")
  entered : entry ≠ p → entry.getLastD "" ≠ historyFolder ∧ entry.getLastD "" ∉ w.skipped

/-- A file that a walk reaches from a place at or above it. -/
structure Reaches (w : Walk) (held : Place → Holding) (verdict : Place → String → Bool) (top here p : Place) :
    Prop where
  file : ∃ content modified, held p = .file content modified
  below : here <+: p
  passes : ∀ entry, here <+: entry → entry ≠ here → entry <+: p → w.Passes held verdict top p entry

theorem reaches_self (file : ∃ content modified, held p = .file content modified) : w.Reaches held verdict top p p where
  file := file
  below := List.prefix_refl p
  passes _ from_here other to_here := absurd (to_here.eq_of_length_le from_here.length_le) other

/-- A file below a folder is reached by way of an entry. -/
theorem reaches_entry_iff {name : String} (below : here ++ [name] <+: p) : w.Reaches held verdict top here p ↔
    w.Passes held verdict top p (here ++ [name]) ∧ w.Reaches held verdict top (here ++ [name]) p := by
  have step : here <+: here ++ [name] := List.prefix_append _ _
  constructor
  · rintro ⟨file, -, passes⟩
    refine ⟨passes _ step (by simp) below, file, below, fun entry from_entry _ to_file => ?_⟩
    refine passes entry (step.trans from_entry) ?_ to_file
    rintro rfl
    exact Place.not_entry_prefix _ _ from_entry
  · rintro ⟨first, file, -, passes⟩
    refine ⟨file, step.trans below, fun entry from_here other to_file => ?_⟩
    have longer : (here ++ [name]).length ≤ entry.length := by
      rw [List.length_append]
      exact Nat.lt_of_le_of_ne from_here.length_le fun same => other (from_here.eq_of_length same).symm
    by_cases same : entry = here ++ [name]
    · exact same ▸ first
    · exact passes entry (List.prefix_of_prefix_length_le below to_file longer) same to_file

/-- A walk takes the entries that let it go on. -/
theorem admits_spec {name : String} {n : Node} (there : root.at? (here ++ [name]) = some n)
    (speak : SpeakFor root.holding verdict rules (Place.Above top (here ++ [name]))) :
    ∃ admitted, w.admits rules (here ++ [name]) name n = .ok admitted ∧
      ∀ p, (∃ content modified, root.holding p = .file content modified) → here ++ [name] <+: p →
        (admitted = true ↔ w.Passes root.holding verdict top p (here ++ [name])) := by
  obtain ⟨hit, judged, heard⟩ := speak (here ++ [name])
  have heard : hit = true ↔ Ignored root.holding verdict top (here ++ [name]) := heard
  have last : (here ++ [name]).getLastD "" = name := by simp
  have ends {p : Place} (file : ∃ content modified, root.holding p = .file content modified)
      (below : here ++ [name] <+: p) : n.isFolder = true ↔ here ++ [name] ≠ p := by
    obtain ⟨content, modified, file⟩ := file
    constructor
    · rintro folder rfl
      rw [Node.holding, there] at file
      cases n with
      | file => cases folder
      | folder => cases file
    · intro other
      have leads : root.Leads p := Node.Leads.of_holding (by rw [file]; rintro ⟨⟩)
      obtain ⟨es, found⟩ := Node.holding_eq_folder_iff.mp (leads _ below other)
      obtain rfl : n = .folder es := Option.some.inj (there.symm.trans found)
      rfl
  unfold admits
  by_cases folder : n.isFolder = true
  · rw [if_pos folder]
    by_cases skip : (name == historyFolder || w.skipped.contains name) = true
    · rw [if_pos skip]
      refine ⟨false, rfl, fun p file below => iff_of_false Bool.false_ne_true fun passes => ?_⟩
      obtain ⟨visible, entered⟩ := passes.entered ((ends file below).mp folder)
      rw [last] at visible entered
      simp [visible, entered] at skip
    · rw [if_neg skip, judged]
      refine ⟨!hit, rfl, fun p file below => ?_⟩
      rw [Bool.not_eq_true', ← Bool.not_eq_true, heard]
      have other := (ends file below).mp folder
      exact ⟨fun kept => ⟨kept, fun same => absurd same other, fun _ => by rw [last]; simpa using skip⟩,
        fun passes => passes.kept⟩
  · rw [if_neg folder]
    by_cases wanted : w.wants name = true
    · rw [if_pos wanted, judged]
      refine ⟨!hit, rfl, fun p file below => ?_⟩
      rw [Bool.not_eq_true', ← Bool.not_eq_true, heard]
      have same := not_not.mp (mt (ends file below).mpr folder)
      exact ⟨fun kept => ⟨kept, fun _ => by rw [last, wanted], fun other => absurd same other⟩,
        fun passes => passes.kept⟩
    · rw [if_neg wanted]
      refine ⟨false, rfl, fun p file below => iff_of_false Bool.false_ne_true fun passes => wanted ?_⟩
      rw [← last]
      exact passes.wanted (not_not.mp (mt (ends file below).mpr folder))

/-- To judge all entries of a folder never breaks down. -/
theorem judgeAll_eq_ok {entries : List (String × Node)} (there : ∀ e ∈ entries, root.at? (here ++ [e.1]) = some e.2)
    (speak : ∀ name, SpeakFor root.holding verdict rules (Place.Above top (here ++ [name]))) :
    w.judgeAll rules here entries = .ok () := by
  have each : ∀ e ∈ entries, FailsBy (fun _ => False) (do let _ ← w.admits rules (here ++ [e.1]) e.1 e.2) := by
    intro e mem
    obtain ⟨admitted, judged, -⟩ := admits_spec (w := w) (there e mem) (speak e.1)
    rw [judged]
    exact .ok ()
  have never : FailsBy (fun _ => False) (w.judgeAll rules here entries) :=
    .bind (.forM fun e mem => each e (List.mem_filter.mp mem).1) fun _ _ =>
      .forM fun e mem => each e (List.mem_filter.mp mem).1
  cases judged : w.judgeAll rules here entries with
  | error b => exact (never b judged).elim
  | ok => rfl

/-- In a folder whose entries have different names, each one is found under its name. -/
theorem at?_entry {entries : List (String × Node)} {e : String × Node} (there : root.at? here = some (.folder entries))
    (distinct : (entries.map (·.1)).Nodup) (mem : e ∈ entries) : root.at? (here ++ [e.1]) = some e.2 := by
  have member : (Node.folder entries).member? e.1 = some e.2 := by
    clear there
    induction entries with
    | nil => cases mem
    | cons first es ih =>
      obtain ⟨fresh, distinct⟩ := List.nodup_cons.mp distinct
      rw [Node.member?_cons]
      obtain rfl | mem := List.mem_cons.mp mem
      · rw [if_pos rfl]
      · rw [if_neg fun same => fresh (List.mem_map.mpr ⟨e, mem, same.symm⟩), ih distinct mem]
  rw [Node.at?_append, there, Option.bind_some, Node.at?, member]
  rfl

/-- Every file below a folder is below one of its entries. -/
theorem exists_entry_of_file {entries : List (String × Node)} (there : root.at? here = some (.folder entries))
    (file : ∃ content modified, root.holding p = .file content modified) (below : here <+: p) :
    ∃ e ∈ entries, here ++ [e.1] <+: p := by
  obtain ⟨names, rfl⟩ := below
  obtain ⟨content, modified, file⟩ := file
  rw [Node.holding, Node.at?_append, there, Option.bind_some] at file
  cases names with
  | nil => cases file
  | cons name names =>
    cases found : (Node.folder entries).at? (name :: names) with
    | none =>
      rw [found] at file
      cases file
    | some n =>
      obtain ⟨es, child, same, entry, -⟩ := Node.exists_entry_of_at? found
      cases same
      exact ⟨_, entry, names, by simp⟩

mutual

/-- What a walk finds at and below a place is what it reaches from there. -/
theorem filesAt_spec : ∀ (n : Node) {rules : List PlacedRules} {here : Place}, n.WellNamed → root.at? here = some n →
    root.IgnoresBy verdict → top <+: here → SpeakFor root.holding verdict rules (Place.Above top here) →
    ∃ places, w.filesAt rules here n = .ok places ∧
      ∀ p, p ∈ places ↔ w.Reaches root.holding verdict top here p
  | .file content modified, _, here, _, there, _, _, _ => by
    have file : root.holding here = .file content modified := by rw [Node.holding, there]; rfl
    refine ⟨[here], by rw [filesAt], fun p => ⟨fun mem => ?_, fun reached => ?_⟩⟩
    · obtain rfl := List.mem_singleton.mp mem
      exact reaches_self ⟨content, modified, file⟩
    · obtain ⟨content', modified', file'⟩ := reached.file
      have leads : root.Leads p := Node.Leads.of_holding (by rw [file']; exact nofun)
      by_contra other
      have folder := leads here reached.below fun same => other (List.mem_singleton.mpr same.symm)
      rw [file] at folder
      cases folder
  | .folder entries, rules, here, .folder distinct _ below, there, given, down, speak => by
    -- On entering, the rules of the folder itself join those of the folders above it: these are all that are above
    -- any of its entries.
    obtain ⟨inner, entered, speak⟩ := speak.enter given there
    have speak (name : String) : SpeakFor root.holding verdict inner (Place.Above top (here ++ [name])) :=
      speak.congr fun folder => (Place.above_entry_iff down name).symm
    have at_entry := fun e mem => at?_entry (e := e) there distinct mem
    obtain ⟨places, found, listed⟩ := filesAmong_spec entries below at_entry given down speak
    refine ⟨places, ?_, fun p => (listed p).trans ⟨?_, fun reached => ?_⟩⟩
    · rw [filesAt, entered]
      change (w.judgeAll inner here entries >>= fun _ => w.filesAmong inner here entries) = _
      rw [judgeAll_eq_ok at_entry speak]
      exact found
    · rintro ⟨e, mem, passes, reached⟩
      exact (reaches_entry_iff reached.below).mpr ⟨passes, reached⟩
    · obtain ⟨e, mem, below⟩ := exists_entry_of_file there reached.file reached.below
      exact ⟨e, mem, (reaches_entry_iff below).mp reached⟩

/-- What a walk finds among entries of a folder is what it reaches by way of one of them. -/
theorem filesAmong_spec : ∀ (entries : List (String × Node)) {rules : List PlacedRules} {here : Place},
    (∀ e ∈ entries, e.2.WellNamed) → (∀ e ∈ entries, root.at? (here ++ [e.1]) = some e.2) →
    root.IgnoresBy verdict → top <+: here →
    (∀ name, SpeakFor root.holding verdict rules (Place.Above top (here ++ [name]))) →
    ∃ places, w.filesAmong rules here entries = .ok places ∧
      ∀ p, p ∈ places ↔ ∃ e ∈ entries, w.Passes root.holding verdict top p (here ++ [e.1]) ∧
        w.Reaches root.holding verdict top (here ++ [e.1]) p
  | [], _, _, _, _, _, _, _ => ⟨[], by rw [filesAmong], by simp⟩
  | (name, n) :: es, rules, here, wells, there, given, down, speak => by
    obtain ⟨well, wells⟩ := List.forall_mem_cons.mp wells
    obtain ⟨first_there, there⟩ := List.forall_mem_cons.mp there
    obtain ⟨later, rest, listed⟩ := filesAmong_spec es wells there given down speak
    obtain ⟨admitted, judged, passes⟩ := admits_spec (w := w) first_there (speak name)
    obtain ⟨first, found, reached⟩ := filesAt_spec n well first_there given (down.trans (List.prefix_append _ _))
      (speak name)
    refine ⟨(if admitted then first else []) ++ later, ?_, fun p => ?_⟩
    · rw [filesAmong, judged, rest]
      cases admitted with
      | false => rfl
      | true =>
        change (w.filesAt rules (here ++ [name]) n >>= fun first => .ok (first ++ later)) = _
        rw [found]
        rfl
    · have own : p ∈ (if admitted then first else []) ↔ w.Passes root.holding verdict top p (here ++ [name]) ∧
          w.Reaches root.holding verdict top (here ++ [name]) p := by
        constructor
        · intro mem
          cases admitted with
          | false => cases mem
          | true =>
            have mem := (reached p).mp mem
            exact ⟨(passes p mem.file mem.below).mp rfl, mem⟩
        · rintro ⟨pass, mem⟩
          rw [if_pos ((passes p mem.file mem.below).mpr pass)]
          exact (reached p).mpr mem
      rw [List.mem_append, own, listed]
      simp only [List.mem_cons, or_and_right, exists_or, exists_eq_left]

end

/-- From a folder, a walk reaches the files that it is said to list. -/
theorem lists_iff {start : Place} (folder : held start = .folder) :
    w.Lists held verdict start p ↔ w.Reaches held verdict (w.rulesTop start) start p := by
  have other (file : ∃ content modified, held p = .file content modified) : p ≠ start := by
    rintro rfl
    obtain ⟨content, modified, file⟩ := file
    rw [folder] at file
    cases file
  constructor
  · intro listed
    refine ⟨listed.file, listed.below, fun entry from_start other to_file => ?_⟩
    refine ⟨listed.kept entry from_start other to_file, ?_, fun strict => ?_⟩
    · rintro rfl
      exact listed.wanted
    · exact listed.entered entry ⟨from_start, to_file, strict⟩ other
  · intro reached
    have last := reached.passes p reached.below (other reached.file) (List.prefix_refl p)
    exact ⟨reached.file, reached.below, last.wanted rfl,
      fun entry above other => (reached.passes entry above.from_top other above.leads).entered above.strict,
      fun entry from_start other to_file => (reached.passes entry from_start other to_file).kept⟩

/-- A walk from a folder starts with rules that speak for the folders above its start. -/
theorem exists_rules (w : Walk) (given : root.IgnoresBy verdict) {start : Place} {entries : List (String × Node)}
    (there : root.at? start = some (.folder entries)) :
    ∃ rules, w.filesFrom root start = (w.filesAt rules start (.folder entries)).map inOrder ∧
      SpeakFor root.holding verdict rules (Place.Above (w.rulesTop start) start) ∧ w.rulesTop start <+: start := by
  unfold rulesTop filesFrom
  rw [there]
  dsimp only
  by_cases down : w.root <+: start
  · obtain ⟨names, rfl⟩ := down
    obtain ⟨rules, along, speak⟩ := speakFor_rulesAlong given w.root names
    rw [if_pos (List.prefix_append _ _), Place.within?_append]
    dsimp only
    rw [along]
    exact ⟨rules, rfl, speak, List.prefix_append _ _⟩
  · rw [if_neg down, Place.within?_eq_none down]
    exact ⟨[], rfl, .nil (Place.not_above_top start), List.prefix_refl start⟩

/-- A walk from a folder finds what it is said to list, in order. -/
theorem filesFrom_spec (w : Walk) (well : root.WellNamed) (given : root.IgnoresBy verdict) {start : Place}
    (folder : root.holding start = .folder) :
    ∃ places, w.filesFrom root start = .ok places ∧ (∀ p, p ∈ places ↔ w.Lists root.holding verdict start p) ∧
      places.Nodup ∧ places.Pairwise (fun p q => p.text ≤ q.text) ∧ ∀ p ∈ places, ∀ name ∈ p, IsName name := by
  obtain ⟨entries, there⟩ := Node.holding_eq_folder_iff.mp folder
  obtain ⟨rules, walked, speak, down⟩ := exists_rules w given there
  obtain ⟨unsorted, found, reached⟩ := filesAt_spec (w := w) _ (well.at? there) there given down speak
  obtain ⟨once, within⟩ := finds_filesAt _ (well.at? there) found
  have order := inOrder_perm unsorted
  refine ⟨inOrder unsorted, by rw [walked, found]; rfl, fun p => ?_, order.nodup_iff.mpr once,
    sorted_inOrder unsorted, fun p mem => ?_⟩
  · rw [order.mem_iff, reached, lists_iff folder]
  · exact (within p (order.mem_iff.mp mem)).proper (well.isName_of_at? there)

/-- A walk from a folder lists, once each and in order of their paths, the files below the folder that are wanted, not
in a skipped folder, and neither ignored themselves nor in an ignored folder. In a tree with the same files, whatever
the order of the entries in its folders, it lists the same. -/
theorem filesFrom_listing (w : Walk) (well : root.WellNamed) (given : root.IgnoresBy verdict) {start : Place}
    (folder : root.holding start = .folder) :
    ∃ places, places.Nodup ∧ places.Pairwise (fun p q => p.text < q.text) ∧
      (∀ p, p ∈ places ↔ w.Lists root.holding verdict start p) ∧
      ∀ other : Node, other.WellNamed → other.holding = root.holding → w.filesFrom other start = .ok places := by
  obtain ⟨places, -, listed, once, sorted, proper⟩ := filesFrom_spec w well given folder
  refine ⟨places, once, ?_, listed, fun other well' same => ?_⟩
  · refine (sorted.and once).imp_of_mem fun {p q} mem mem' both => String.not_le.mp fun ge => both.2 ?_
    exact Place.text_injective (proper p mem) (proper q mem') (String.le_antisymm both.1 ge)
  · have given' : other.IgnoresBy verdict := by rwa [Node.IgnoresBy, same]
    obtain ⟨places', found, listed', once', sorted', -⟩ := filesFrom_spec w well' given' (by rwa [same])
    have perm : places.Perm places' := (List.perm_ext_iff_of_nodup once once').mpr fun p => by
      rw [listed, listed', same]
    rw [found, eq_of_sorted perm proper sorted sorted']

section sources

/-- Sources in a folder whose ignore file hides what is built, below rules that ignore logs. -/
def ignoringSources : Node := .folder [
  (".gitignore", .file (utf8Bytes "*.log\n") 0),
  ("sub", .folder [
    (".gitignore", .file (utf8Bytes "out\n") 0),
    ("out", .folder [("b.py", .file [] 0)]),
    ("a.py", .file [] 0),
    ("a.log", .file [] 0),
    ("venv", .folder [("c.py", .file [] 0)])])]

theorem wellNamed_ignoringSources : ignoringSources.WellNamed :=
  .of_entries (by decide) (by decide) ⟨.file _ _, .of_entries (by decide) (by decide)
    ⟨.file _ _, .of_entries (by decide) (by decide) (.file _ _), .file _ _, .file _ _,
      .of_entries (by decide) (by decide) (.file _ _)⟩⟩

theorem not_brokenRules_ignoringSources (b : Breakdown) : ¬ ignoringSources.BrokenRules b := by
  rintro ⟨content, holds, broken⟩
  have bare {name : String} (other : name ≠ ".gitignore") :
      ¬ (Node.folder [(name, .file [] 0)]).HoldsRules content := by
    rintro (member | ⟨mem, holds⟩)
    · simp [Node.member?, Node.entries, other] at member
    · cases List.mem_singleton.mp mem
      cases holds
  obtain rfl | rfl : content = utf8Bytes "*.log\n" ∨ content = utf8Bytes "out\n" := by
    cases holds with
    | direct member =>
      cases member
      exact .inl rfl
    | within mem holds =>
      simp only [List.mem_cons, List.not_mem_nil, or_false] at mem
      obtain rfl | rfl := mem
      · cases holds
      cases holds with
      | direct member =>
        cases member
        exact .inr rfl
      | within mem holds =>
        simp only [List.mem_cons, List.not_mem_nil, or_false] at mem
        obtain rfl | rfl | rfl | rfl | rfl := mem
        · cases holds
        · exact absurd holds (bare (by decide))
        · cases holds
        · cases holds
        · exact absurd holds (bare (by decide))
  · exact IgnoreRules.not_broken (by decide +kernel) b broken
  · exact IgnoreRules.not_broken (by decide +kernel) b broken

/-- From the folder, with rules above it and in it, one source is listed. -/
theorem filesFrom_listing_source :
    let w : Walk := { root := [], extensions := some ["py", "log"], skipped := ["venv"] }
    ∀ p, p = ["sub", "a.py"] ↔ w.Lists ignoringSources.holding ignoringSources.ownVerdict ["sub"] p := by
  intro w p
  have folder : ignoringSources.holding ["sub"] = .folder := rfl
  obtain ⟨places, -, -, listed, found⟩ := filesFrom_listing w wellNamed_ignoringSources
    (Node.ignoresBy_ownVerdict not_brokenRules_ignoringSources) folder
  have walked : w.filesFrom ignoringSources ["sub"] = .ok [["sub", "a.py"]] := eq_ok_of_toOption (by decide +kernel)
  have same := Except.ok.inj ((found _ wellNamed_ignoringSources rfl).symm.trans walked)
  rw [← listed, same, List.mem_singleton]

end sources

end Walk
end CodeAgent
