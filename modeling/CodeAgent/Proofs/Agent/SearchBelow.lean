import CodeAgent.Proofs.Agent.SearchHits
import CodeAgent.Proofs.Workspace.WalkBelow
import CodeAgent.Symbols.FileOutline

/-! Searching a folder of a workspace against searching the workspace. To search the folder finds every line there
that to search the workspace finds, and also those of files that only the rules above the folder hide. -/
namespace CodeAgent
open CodeAgent.Text CodeAgent.Action

namespace LineHit

/-- The place of the file that a found line is in. -/
def place (h : LineHit) : Place := (Path.ofText h.path).names

/-- A found line is in a file below a folder. -/
def isBelow (folder : Place) (h : LineHit) : Bool := folder <+: h.place

/-- A found line is in a file that rules hide from a walk of a folder, or in a folder there that they hide. -/
def hiddenBy (rules : List PlacedRules) (folder : Place) (h : LineHit) : Bool :=
  PlacedRules.hides rules folder (h.place.drop folder.length)

theorem place_of_path {h : LineHit} {place : Place} (proper : ∀ name ∈ place, IsName name)
    (path : h.path = place.text) : h.place = place := by
  rw [LineHit.place, path, Path.ofText_text proper]
  rfl

end LineHit

/-- A search without globs covers all files. -/
def SearchParameters.Unlimited (p : SearchParameters) : Prop :=
  Pattern.splitGlobs (p.includePattern.getD "") = [] ∧ Pattern.splitGlobs (p.excludePattern.getD "") = []

theorem SearchParameters.Unlimited.covers {p : SearchParameters} (unlimited : p.Unlimited) (relative : String) :
    p.covers relative = true := by
  rw [SearchParameters.covers, unlimited.1, unlimited.2]
  rfl

/-- Where it searches does not matter for what a search looks for. -/
theorem SearchParameters.matcher_path (p : SearchParameters) (path : String) :
    ({ p with path } : SearchParameters).matcher = p.matcher := by
  unfold matcher source
  rfl

/-- The lines found in some of the files are those found in all of them that are in one of these files. -/
theorem filter_flatMap_fileHits {e : Pattern.Expr} {root : Node} {places : List Place}
    (proper : ∀ p ∈ places, ∀ name ∈ p, IsName name) (keep : Place → Bool) :
    (places.flatMap (fileHits e root)).filter (fun h => keep h.place) =
      (places.filter keep).flatMap (fileHits e root) := by
  induction places with
  | nil => rfl
  | cons place places ih =>
    obtain ⟨own, others⟩ := List.forall_mem_cons.mp proper
    have same : ∀ h ∈ fileHits e root place, h.place = place := by
      intro h mem
      obtain ⟨_, _, _, _, -, path, -⟩ := mem_fileHits mem
      exact LineHit.place_of_path own path
    rw [List.flatMap_cons, List.filter_append, ih others, List.filter_cons]
    rw [List.filter_congr fun h mem => congrArg keep (same h mem)]
    cases keep place with
    | true => rw [List.filter_true, if_pos rfl, List.flatMap_cons]
    | false => rw [List.filter_false, List.nil_append, if_neg Bool.false_ne_true]

namespace Toolbox
variable {box : Toolbox} {fs : FileSystem} {request : SearchParameters} {hits : List LineHit} {place : Place}

/-- A search of a folder that does not reach its limit lists the found lines of all files of a walk from there. -/
theorem exists_files_of_hits {n : Node} {e : Pattern.Expr} (unlimited : request.Unlimited)
    (named : fs.resolve (box.pathOf request.path) = .ok place) (there : fs.root.at? place = some n)
    (folder : n.isFolder) (matcher : request.matcher = .ok e) (found : box.hits fs request = .ok hits)
    (few : hits.length < box.settings.maxSearchResults.toNat) :
    ∃ places, Walk.files { root := place, skipped := box.skipped } fs.root = .ok places ∧
      hits = places.flatMap (fileHits e fs.root) := by
  obtain ⟨e', matcher', searched⟩ := searchLines_of_hits found
  obtain rfl := Except.ok.inj (matcher.symm.trans matcher')
  obtain ⟨node?, looked, searched⟩ := exists_of_bind_eq_ok searched
  cases node? with
  | none => cases searched
  | some node =>
    have known := FileSystem.at?_of_node? (eq_ok_of_mapError looked) named
    obtain rfl : n = node := Option.some.inj (there.symm.trans known)
    have no_file : ¬ n.isFile := by
      cases n with
      | file => cases folder
      | folder => exact Bool.false_ne_true
    obtain ⟨top, resolved, searched⟩ := exists_of_bind_eq_ok searched
    rw [if_neg no_file] at resolved
    obtain ⟨start, resolved', searched⟩ := exists_of_bind_eq_ok searched
    obtain rfl := Except.ok.inj (named.symm.trans (eq_ok_of_mapError resolved))
    obtain rfl := Except.ok.inj (named.symm.trans (eq_ok_of_mapError resolved'))
    obtain ⟨places, walked, searched⟩ := exists_of_bind_eq_ok searched
    refine ⟨places, eq_ok_of_mapError walked, ?_⟩
    have all : (places.filter fun q =>
          request.covers (Walk.relativePlace { root := place, skipped := box.skipped } q)) = places :=
      List.filter_eq_self.mpr fun q _ => unlimited.covers _
    have listed := Except.ok.inj searched
    rw [all] at listed
    rw [← listed, List.length_take] at few
    rw [← listed, List.take_of_length_le (by omega)]

/-- A folder is searched, and then with the same query a folder below it that the search of the first one comes to.
Neither search is limited to some files or reaches its limit for what is listed. -/
structure SearchedBelow (box : Toolbox) (fs : FileSystem) (request : SearchParameters) (below : String)
    (top : Place) (names : List String) (hits own : List LineHit) : Prop where
  unlimited : request.Unlimited
  named : fs.resolve (box.pathOf request.path) = .ok top
  named_below : fs.resolve (box.pathOf below) = .ok (top ++ names)
  folder : ∃ entries, fs.root.at? (top ++ names) = some (.folder entries)
  down : Walk.GoesDown { root := top, skipped := box.skipped } fs.root names
  found : box.hits fs request = .ok hits
  found_below : box.hits fs { request with path := below } = .ok own
  few : hits.length < box.settings.maxSearchResults.toNat
  few_below : own.length < box.settings.maxSearchResults.toNat

/-- Of the lines that a search of a folder finds, those in a folder below it are the ones that the same search of that
folder finds, but for those that are hidden by the rules of the folders above. The two searches find the same there
exactly if nothing that the second one finds is hidden so. -/
theorem search_below_eq_iff_none_hidden (box : Toolbox) (bench : Workbench) (well : bench.files.root.WellNamed)
    {request : SearchParameters} {below : String} {call callBelow : ToolCall} {tool toolBelow : Tool}
    (asked : Parameters.ofCall call = .ok (tool, .search request))
    (asked_below : Parameters.ofCall callBelow = .ok (toolBelow, .search { request with path := below }))
    {top : Place} {names : List String} {hits own : List LineHit}
    (searched : box.SearchedBelow bench.files request below top names hits own) :
    exec (box.execute call) bench = (.ok (LineHit.listing hits), bench) ∧
      exec (box.execute callBelow) bench = (.ok (LineHit.listing own), bench) ∧
      ∃ rules, Walk.rulesAlong bench.files.root top names = .ok rules ∧
        hits.filter (·.isBelow (top ++ names)) = own.filter (fun h => !h.hiddenBy rules (top ++ names)) ∧
        (hits.filter (·.isBelow (top ++ names)) = own ↔ ∀ h ∈ own, h.hiddenBy rules (top ++ names) = false) := by
  refine ⟨by rw [exec_search box bench asked, searched.found]; rfl,
    by rw [exec_search box bench asked_below, searched.found_below]; rfl, ?_⟩
  obtain ⟨e, matcher, -⟩ := searchLines_of_hits searched.found
  obtain ⟨entries, there⟩ := searched.folder
  obtain ⟨n, first, rest⟩ : ∃ n, bench.files.root.at? top = some n ∧ n.at? names = some (.folder entries) := by
    rwa [Node.at?_append, Option.bind_eq_some_iff] at there
  obtain ⟨places, walked, rfl⟩ := exists_files_of_hits searched.unlimited searched.named first
    (Node.isFolder_of_at? rest rfl) matcher searched.found searched.few
  rw [← request.matcher_path below] at matcher
  have unlimited : ({ request with path := below } : SearchParameters).Unlimited := searched.unlimited
  obtain ⟨ownPlaces, walked_below, rfl⟩ := exists_files_of_hits unlimited searched.named_below there rfl
    matcher searched.found_below searched.few_below
  obtain ⟨rules, along, same⟩ := Walk.filter_files well searched.down there rfl walked walked_below
  have proper : ∀ p ∈ places, ∀ name ∈ p, IsName name := fun p mem =>
    ((Walk.finds_files well walked).within p mem).proper (well.isName_of_at? first)
  have proper_below : ∀ p ∈ ownPlaces, ∀ name ∈ p, IsName name := fun p mem =>
    ((Walk.finds_files well walked_below).within p mem).proper (well.isName_of_at? there)
  have filtered :=
    calc (places.flatMap (fileHits e bench.files.root)).filter (·.isBelow (top ++ names))
      _ = (places.filter (top ++ names <+: ·)).flatMap (fileHits e bench.files.root) :=
        filter_flatMap_fileHits proper (top ++ names <+: ·)
      _ = (ownPlaces.filter fun p => !PlacedRules.hides rules (top ++ names) (p.drop (top ++ names).length)).flatMap
          (fileHits e bench.files.root) := congrArg (List.flatMap (fileHits e bench.files.root)) same
      _ = (ownPlaces.flatMap (fileHits e bench.files.root)).filter fun h => !h.hiddenBy rules (top ++ names) :=
        (filter_flatMap_fileHits proper_below fun p =>
          !PlacedRules.hides rules (top ++ names) (p.drop (top ++ names).length)).symm
  refine ⟨rules, along, filtered, ?_⟩
  rw [filtered, List.filter_eq_self]
  simp

section log

/-- A log in a folder, and above the folder a rule that ignores logs. -/
def ignoredLogFiles : FileSystem where
  root := .folder [
    (".gitignore", .file (utf8Bytes "*.log\n") 0),
    ("sub", .folder [("a.log", .file (utf8Bytes "needle\n") 0)])]

theorem wellNamed_ignoredLogFiles : ignoredLogFiles.root.WellNamed :=
  .of_entries (by decide) (by decide) ⟨.file _ _, .of_entries (by decide) (by decide) (.file _ _)⟩

/-- The tools in a workspace at the root. -/
def rootToolbox : Toolbox := { settings := {}, workspace := some (Place.path []), outliner := standardOutliner }

/-- The line of the log. -/
def logHit : LineHit := ⟨"/sub/a.log", 1, "needle"⟩

/-- The search of the workspace for what is in the log. -/
def needleCall : ToolCall := { name := Tool.grep.name, parameters := [("query", .str "needle")] }

/-- The search of the folder. -/
def needleCallBelow : ToolCall :=
  { name := Tool.grep.name, parameters := [("query", .str "needle"), ("path", .str "sub")] }

theorem searchedBelow_ignoredLogFiles :
    rootToolbox.SearchedBelow ignoredLogFiles { query := "needle" } "sub" [] ["sub"] [] [logHit] where
  unlimited := ⟨by decide, by decide⟩
  named := eq_ok_of_toOption (by decide +kernel)
  named_below := eq_ok_of_toOption (by decide +kernel)
  folder := ⟨_, rfl⟩
  down way name later whole := by
    cases way with
    | cons _ way => cases way <;> cases whole
    | nil =>
      cases whole
      refine ⟨by decide, by decide, fun rules along => ?_⟩
      have heard : (Walk.rulesAlong ignoredLogFiles.root [] ["sub"]).toOption.map (PlacedRules.ignored · ["sub"]) =
          some false := by decide +kernel
      have along : Walk.rulesAlong ignoredLogFiles.root [] ["sub"] = .ok rules := along
      rw [along] at heard
      exact Bool.not_eq_true _ ▸ Option.some.inj heard
  found := eq_ok_of_toOption (by decide +kernel)
  found_below := eq_ok_of_toOption (by decide +kernel)
  few := by decide
  few_below := by decide

/-- What the tools work on before anything was indexed. -/
def logBench : Workbench := { files := ignoredLogFiles, index := {} }

theorem ofCall_needleCall : Parameters.ofCall needleCall = .ok (.grep, .search { query := "needle" }) := rfl

theorem ofCall_needleCallBelow :
    Parameters.ofCall needleCallBelow = .ok (.grep, .search { query := "needle", path := "sub" }) := rfl

/-- The line of the log, which a search of the workspace does not find, is hidden by the rules above its folder. -/
theorem log_hidden_by_rules_above :
    exec (rootToolbox.execute needleCall) logBench = (.ok (LineHit.listing []), logBench) ∧
      ∃ rules, Walk.rulesAlong logBench.files.root [] ["sub"] = .ok rules ∧ logHit.hiddenBy rules ["sub"] = true := by
  obtain ⟨answered, -, rules, along, same, -⟩ := search_below_eq_iff_none_hidden rootToolbox logBench
    wellNamed_ignoredLogFiles ofCall_needleCall ofCall_needleCallBelow searchedBelow_ignoredLogFiles
  refine ⟨answered, rules, along, ?_⟩
  have none := List.filter_eq_nil_iff.mp same.symm logHit (List.mem_singleton_self _)
  simpa using none

/-- A folder that is not ignored has a line that only to search the folder finds, and not to search the workspace. -/
theorem log_found_only_from_its_folder :
    rootToolbox.SearchedBelow logBench.files { query := "needle" } "sub" [] ["sub"] [] [logHit] ∧
      exec (rootToolbox.execute needleCall) logBench = (.ok (LineHit.listing []), logBench) ∧
      exec (rootToolbox.execute needleCallBelow) logBench = (.ok (LineHit.listing [logHit]), logBench) ∧
      logHit.isBelow ["sub"] = true := by
  have searched := searchedBelow_ignoredLogFiles
  refine ⟨searched, ?_, ?_, by decide +kernel⟩
  · rw [exec_search _ _ ofCall_needleCall]
    change ((((rootToolbox.hits ignoredLogFiles _).map LineHit.listing).mapError _), _) = _
    rw [searched.found]
    rfl
  · rw [exec_search _ _ ofCall_needleCallBelow]
    change ((((rootToolbox.hits ignoredLogFiles _).map LineHit.listing).mapError _), _) = _
    rw [searched.found_below]
    rfl

end log
end Toolbox
end CodeAgent
