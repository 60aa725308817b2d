import CodeAgent.Proofs.Agent.ToolChanges
import CodeAgent.Proofs.Symbols.SnapshotLoading
import CodeAgent.Proofs.Workspace.Lookup

/-! Whose symbols a search of a service answers with. The open workspace and the index are changed by different
operations: to close a workspace leaves the index as it is, and so does an indexing that fails. What holds after any
operations is that the index is that of the workspace for which an index was last put in place. -/
namespace CodeAgent
open CodeAgent.Text CodeAgent.Action

namespace SymbolIndex
variable {settings : Settings} {root : Place} {s : IndexState}

theorem exec_eq_exec {α : Type} (a : IndexAction α) (s : IndexState) : IndexAction.exec a s = exec a s :=
  IndexAction.exec.eq_1 a s

/-- The files of a workspace can be walked over. -/
def Walkable (settings : Settings) (root : Place) (fs : FileSystem) : Prop :=
  ∃ places, (walk settings root).files fs.root = .ok places

theorem pass_of_walkable (outliner : Outliner) (walkable : Walkable settings root s.files) :
    (exec (pass outliner settings root) s).2.index.root = some root := by
  obtain ⟨places, walked⟩ := walkable
  rw [← exec_eq_exec, pass_index (scanAll_walked outliner walked _)]

theorem pass_of_not_walkable (outliner : Outliner) (lost : ¬ Walkable settings root s.files) :
    (exec (pass outliner settings root) s).2 = s := by
  cases walked : (walk settings root).files s.files.root with
  | error b => rw [← exec_eq_exec, pass_broken (scanAll_broken outliner walked _)]
  | ok places => exact absurd ⟨places, walked⟩ lost

/-- To open a workspace gets an index for it: from its snapshot, or by a walk that no snapshot keeps from being
made. -/
def Gets (settings : Settings) (root : Place) (fs : FileSystem) : Prop :=
  (∃ data, Stored settings root fs data) ∨ (∀ e, ¬ Blocks settings root fs e) ∧ Walkable settings root fs

theorem not_gets_of_blocks {e : Failure} (blocks : Blocks settings root s.files e) : ¬ Gets settings root s.files := by
  rintro (⟨data, stored⟩ | ⟨free, -⟩)
  · have both := (load_of_blocks blocks).symm.trans (load_of_stored stored)
    cases congrArg Prod.fst both
  · exact free e blocks

theorem loadOrPass_of_gets (outliner : Outliner) (gets : Gets settings root s.files) :
    (exec (loadOrPass outliner settings root) s).2.index.root = some root := by
  obtain ⟨e, blocks⟩ | ⟨data, stored⟩ | passed := load_cases settings root s
  · exact absurd gets (not_gets_of_blocks blocks)
  · have load := load_of_stored stored
    rw [exec_eq_exec] at load
    rw [loadOrPass, exec_bind, load]
    dsimp only
    by_cases walkable : Walkable settings root s.files
    · exact pass_of_walkable outliner walkable
    · rw [pass_of_not_walkable (s := { s with index := { s.index with data, root := some root } }) outliner walkable]
  · obtain ⟨data, stored⟩ | ⟨-, walkable⟩ := gets
    · cases congrArg Prod.fst (passed.symm.trans (load_of_stored stored))
    · rw [exec_eq_exec] at passed
      rw [loadOrPass, exec_bind, passed]
      exact pass_of_walkable outliner walkable

theorem loadOrPass_of_not_gets (outliner : Outliner) (lost : ¬ Gets settings root s.files) :
    (exec (loadOrPass outliner settings root) s).2 = s := by
  obtain ⟨e, blocks⟩ | ⟨data, stored⟩ | passed := load_cases settings root s
  · rw [← exec_eq_exec, loadOrPass_of_blocks blocks]
  · exact absurd (.inl ⟨data, stored⟩) lost
  · have free (e : Failure) (blocks : Blocks settings root s.files e) : False := by
      cases congrArg Prod.fst (passed.symm.trans (load_of_blocks blocks))
    rw [exec_eq_exec] at passed
    rw [loadOrPass, exec_bind, passed]
    exact pass_of_not_walkable outliner fun walkable => lost (.inr ⟨free, walkable⟩)

theorem loadOrPass_changes (outliner : Outliner) (settings : Settings) (root : Place) (s : IndexState) :
    s.files.Changes
      (snapshotPlaces s.files (settings.statePaths root.path) (exec (loadOrPass outliner settings root) s).1.isOk)
      (s.files.placesOn (settings.statePaths root.path).snapshot.parent)
      (exec (loadOrPass outliner settings root) s).2.files := by
  obtain ⟨e, blocks⟩ | ⟨data, stored⟩ | passed := load_cases settings root s
  · rw [← exec_eq_exec, loadOrPass_of_blocks blocks]
    exact .refl _
  · have load := load_of_stored stored
    rw [exec_eq_exec] at load
    rw [loadOrPass, exec_bind, load]
    exact pass_changes outliner settings root { s with index := { s.index with data, root := some root } }
  · rw [exec_eq_exec] at passed
    rw [loadOrPass, exec_bind, passed]
    exact pass_changes outliner settings root s

end SymbolIndex

namespace Toolbox
variable {box : Toolbox} {bench : Workbench} {place : Place}

/-- To index is a pass over the open workspace. -/
theorem exec_indexFiles (opened : box.workspace = some place.path) (plain : place.Plain) :
    (exec box.indexFiles bench).2.toIndexState =
      (exec (SymbolIndex.pass box.outliner box.settings place) bench.toIndexState).2 := by
  rw [indexFiles, needWorkspace, opened]
  simp only [exec_bind, ToolAction.exec_ofExcept, exec_get, FileSystem.resolve_of_plain plain, Except.mapError,
    ToolAction.exec_onIndex]
  split <;> rename_i run
  · exact congrArg (·.2.toIndexState) run.symm
  · exact congrArg (·.2.toIndexState) run.symm

theorem exec_indexFiles_of_closed (closed : box.workspace = none) : (exec box.indexFiles bench).2 = bench := by
  rw [indexFiles, needWorkspace, closed]
  rfl

/-- An index without symbols has no answers. -/
theorem searchSymbols_of_empty (query : String) : box.searchSymbols {} query = "[]" := by
  have none : ({} : IndexData).search box.settings.shortQueryLength (box.settings.resultLimit none) query = [] := by
    rw [IndexData.search]
    split
    · rfl
    · simp [IndexData.ranked, distinctSymbols]
  have empty : Json.write .line (.arr []) = "[]" := by decide +kernel
  rw [searchSymbols, none]
  exact empty

end Toolbox

/-- What is asked of a service outside of turns. -/
inductive Operation where
  | openWorkspace (path : Option String)
  | configure (change : BackendChange)
  | indexWorkspace
  | executeTool (call : ToolCall)

/-- A service, and what it works on. -/
structure Session where
  service : Service
  world : ServiceWorld

namespace Session

/-- What an operation leaves; the indexing of a workspace that is opened is done. -/
def after (s : Session) : Operation → Session
  | .openWorkspace path =>
    let (outcome, world) := exec (s.service.openWorkspace path) s.world
    { service := outcome.toOption.getD s.service, world }
  | .configure change => { s with service := s.service.configure change }
  | .indexWorkspace => { s with world := (exec s.service.indexWorkspace s.world).2 }
  | .executeTool call => { s with world := (exec (s.service.executeTool call) s.world).2 }

/-- What some operations leave, one after the other. -/
def play (s : Session) (ops : List Operation) : Session := ops.foldl after s

/-- The state of the files and the index. -/
abbrev indexed (s : Session) : IndexState := s.world.bench.toIndexState

/-- An operation puts an index in place for a workspace: for the one that it opens, or for the open one. -/
inductive Indexes (s : Session) : Operation → Place → Prop
  | opened {path : String} {place : Place} (named : Service.placeOf s.indexed.files path = .ok place)
    (gets : SymbolIndex.Gets s.service.settings place s.indexed.files) : Indexes s (.openWorkspace (some path)) place
  | again {place : Place} (opened : s.service.workspace = some place)
    (walkable : SymbolIndex.Walkable s.service.settings place s.indexed.files) : Indexes s .indexWorkspace place
  | tool {call : ToolCall} {place : Place} (typed : Parameters.ofCall call = .ok (.indexCodebase, .none))
    (opened : s.service.workspace = some place)
    (walkable : SymbolIndex.Walkable s.service.settings place s.indexed.files) : Indexes s (.executeTool call) place

/-- The current folder and the open workspace are places without names that lead elsewhere. -/
structure Plain (s : Session) : Prop where
  current : s.indexed.files.current.Plain
  opened : ∀ place, s.service.workspace = some place → place.Plain

/-- An operation puts an index in place for the workspace that is open then, or leaves the index as it is. -/
structure Step (s : Session) (op : Operation) : Prop where
  plain : (s.after op).Plain
  kept : (∀ path, op ≠ .openWorkspace path) → (s.after op).service.workspace = s.service.workspace
  index : (∃ place, s.Indexes op place ∧ (s.after op).service.workspace = some place ∧
      (s.after op).indexed.index.root = some place) ∨
    (∀ place, ¬ s.Indexes op place) ∧ (s.after op).indexed.index = s.indexed.index

section step
variable {s : Session}

theorem plain_of_placeOf {fs : FileSystem} (current : fs.current.Plain) {path : String} {place : Place}
    (named : Service.placeOf fs path = .ok place) : place.Plain := by
  dsimp only [Service.placeOf] at named
  obtain ⟨p, -, named⟩ := exists_of_bind_eq_ok named
  exact FileSystem.plain_of_resolve current (eq_ok_of_mapError named)

/-- To let the tools work keeps how they fail apart from the result. -/
theorem exec_onBench {α : Type} (a : ToolAction α) (w : ServiceWorld) :
    exec (ExceptT.mk (do return .ok (← ServiceWorld.onBench a.run)) : ServiceAction (Except Failure α)) w =
      (.ok (exec a w.bench).1, { w with bench := (exec a w.bench).2 }) := rfl

theorem exec_open (service : Service) (path : String) (w : ServiceWorld) :
    exec (service.openWorkspace (some path)) w =
      match Service.placeOf w.bench.files path with
      | .error e => (.error e, w)
      | .ok place => (.ok { service with workspace := some place }, { w with bench := { w.bench with
          toIndexState := (exec (SymbolIndex.loadOrPass service.outliner service.settings place)
            w.bench.toIndexState).2 } }) := by
  rw [Service.openWorkspace, exec_bind, exec_get]
  dsimp only
  rw [exec_bind, exec_mk_pure]
  cases Service.placeOf w.bench.files path with
  | error e => rfl
  | ok place =>
    dsimp only
    rw [exec_bind, exec_onBench, ToolAction.exec_onIndex]
    rfl

theorem step_open (plain : s.Plain) (path : Option String) : s.Step (.openWorkspace path) := by
  cases path with
  | none =>
    exact {
      plain := ⟨plain.current, nofun⟩
      kept := fun other => absurd rfl (other none)
      index := .inr ⟨nofun, rfl⟩ }
  | some path =>
    have run := exec_open s.service path s.world
    cases named : Service.placeOf s.world.bench.files path with
    | error e =>
      have same : s.after (.openWorkspace (some path)) = s := by
        rw [after, run, named]
        rfl
      refine { plain := by rwa [same], kept := fun other => absurd rfl (other (some path)), index := ?_ }
      rw [same]
      refine .inr ⟨?_, rfl⟩
      rintro place (⟨named', -⟩ | _ | _)
      cases named.symm.trans named'
    | ok place =>
      have service : (s.after (.openWorkspace (some path))).service = { s.service with workspace := some place } := by
        rw [after, run, named]
        rfl
      have indexed : (s.after (.openWorkspace (some path))).indexed =
          (exec (SymbolIndex.loadOrPass s.service.outliner s.service.settings place) s.indexed).2 := by
        rw [after, run, named]
      refine { plain := ⟨?_, ?_⟩, kept := fun other => absurd rfl (other (some path)), index := ?_ }
      · rw [indexed, (SymbolIndex.loadOrPass_changes _ _ _ _).current]
        exact plain.current
      · rw [service]
        rintro _ ⟨⟩
        exact plain_of_placeOf plain.current named
      · rw [service, indexed]
        by_cases gets : SymbolIndex.Gets s.service.settings place s.indexed.files
        · exact .inl ⟨place, .opened named gets, rfl, SymbolIndex.loadOrPass_of_gets _ gets⟩
        · refine .inr ⟨?_, by rw [SymbolIndex.loadOrPass_of_not_gets _ gets]⟩
          rintro place' (⟨named', gets'⟩ | _ | _)
          cases named.symm.trans named'
          exact gets gets'

/-- What holds of an operation that makes a pass over the open workspace, or does nothing if there is none. -/
theorem Step.of_pass {op : Operation} (plain : s.Plain) (service : (s.after op).service = s.service)
    (closed : s.service.workspace = none → (s.after op).indexed = s.indexed)
    (opened : ∀ place, s.service.workspace = some place → (s.after op).indexed =
      (exec (SymbolIndex.pass s.service.outliner s.service.settings place) s.indexed).2)
    (indexes : ∀ place, s.Indexes op place ↔
      s.service.workspace = some place ∧ SymbolIndex.Walkable s.service.settings place s.indexed.files) :
    s.Step op := by
  cases workspace : s.service.workspace with
  | none =>
    refine { plain := ⟨?_, ?_⟩, kept := fun _ => by rw [service], index := .inr ⟨?_, ?_⟩ }
    · rw [closed workspace]
      exact plain.current
    · rw [service]
      exact plain.opened
    · intro place own
      cases workspace.symm.trans ((indexes place).mp own).1
    · rw [closed workspace]
  | some place =>
    have made := opened place workspace
    refine { plain := ⟨?_, ?_⟩, kept := fun _ => by rw [service], index := ?_ }
    · rw [made, (SymbolIndex.pass_changes _ _ _ _).current]
      exact plain.current
    · rw [service]
      exact plain.opened
    · rw [service, made]
      by_cases walkable : SymbolIndex.Walkable s.service.settings place s.indexed.files
      · have own := (indexes place).mpr ⟨workspace, walkable⟩
        exact .inl ⟨place, own, workspace, SymbolIndex.pass_of_walkable _ walkable⟩
      · refine .inr ⟨fun place' own => ?_, by rw [SymbolIndex.pass_of_not_walkable _ walkable]⟩
        obtain ⟨workspace', walkable'⟩ := (indexes place').mp own
        cases workspace.symm.trans workspace'
        exact walkable walkable'

/-- What holds of an operation that leaves the index, the current folder and the workspace as they are. -/
theorem Step.of_kept {op : Operation} (plain : s.Plain) (kept : (s.after op).service.workspace = s.service.workspace)
    (current : (s.after op).indexed.files.current = s.indexed.files.current)
    (index : (s.after op).indexed.index = s.indexed.index) (none : ∀ place, ¬ s.Indexes op place) : s.Step op where
  plain := ⟨current ▸ plain.current, kept ▸ plain.opened⟩
  kept _ := kept
  index := .inr ⟨none, index⟩

theorem after_index_of_opened {place : Place} (opened : s.service.workspace = some place) :
    (s.after .indexWorkspace).indexed =
      (exec (SymbolIndex.pass s.service.outliner s.service.settings place) s.indexed).2 := by
  rw [after, Service.indexWorkspace, opened]
  dsimp only
  rw [exec_bind]
  split <;> rename_i run
  · exact congrArg (·.2.bench.toIndexState) run.symm
  · exact congrArg (·.2.bench.toIndexState) run.symm

theorem step_index (plain : s.Plain) : s.Step .indexWorkspace := by
  apply Step.of_pass plain rfl
  · intro closed
    rw [after, Service.indexWorkspace, closed]
    rfl
  · exact fun place opened => after_index_of_opened opened
  · refine fun place => ⟨?_, fun ⟨opened, walkable⟩ => .again opened walkable⟩
    rintro ⟨⟩
    exact ⟨‹_›, ‹_›⟩

theorem exec_executeTool (service : Service) (call : ToolCall) (w : ServiceWorld) :
    exec (service.executeTool call) w =
      ((exec (service.toolbox.execute call) w.bench).1,
        { w with bench := (exec (service.toolbox.execute call) w.bench).2 }) := rfl

theorem step_tool (plain : s.Plain) (call : ToolCall) : s.Step (.executeTool call) := by
  have bench : (s.after (.executeTool call)).world.bench = (exec (s.service.toolbox.execute call) s.world.bench).2 := by
    rw [after, exec_executeTool]
  cases typed : Parameters.ofCall call with
  | error f =>
    rw [Toolbox.exec_execute_refused _ _ typed] at bench
    refine .of_kept plain rfl (by rw [indexed, bench]) (by rw [indexed, bench]) ?_
    rintro place (_ | _ | ⟨typed', -, -⟩)
    cases typed.symm.trans typed'
  | ok given =>
    obtain ⟨tool, parameters⟩ := given
    rw [Toolbox.exec_execute _ _ typed] at bench
    dsimp only at bench
    have fits := Parameters.of_ofCall typed
    by_cases indexing : tool = .indexCodebase
    · subst indexing
      cases fits
      apply Step.of_pass plain rfl
      · intro closed
        have closed : s.service.toolbox.workspace = none := congrArg (Option.map Place.path) closed
        rw [indexed, bench]
        exact congrArg (·.toIndexState) (Toolbox.exec_indexFiles_of_closed closed)
      · intro place opened
        rw [indexed, bench]
        exact Toolbox.exec_indexFiles (congrArg (Option.map Place.path) opened) (plain.opened place opened)
      · refine fun place => ⟨?_, fun ⟨opened, walkable⟩ => .tool typed opened walkable⟩
        rintro ⟨⟩
        exact ⟨‹_›, ‹_›⟩
    · have confined := Toolbox.confined_run s.service.toolbox s.world.bench fits
      refine .of_kept plain rfl ?_ ?_ ?_
      · rw [indexed, bench, confined.files.current]
      · rw [indexed, bench, confined.index indexing]
      · rintro place (_ | _ | ⟨typed', -, -⟩)
        cases typed.symm.trans typed'
        exact indexing rfl

/-- What one operation does. -/
theorem step (plain : s.Plain) (op : Operation) : s.Step op := by
  cases op with
  | openWorkspace path => exact step_open plain path
  | configure change => exact .of_kept plain rfl rfl rfl nofun
  | indexWorkspace => exact step_index plain
  | executeTool call => exact step_tool plain call

end step

section play
variable {s : Session} {ops : List Operation}

theorem play_concat (s : Session) (ops : List Operation) (op : Operation) :
    s.play (ops ++ [op]) = (s.play ops).after op := List.foldl_concat after s op ops

theorem Plain.play (plain : s.Plain) (ops : List Operation) : (s.play ops).Plain := by
  induction ops generalizing s with
  | nil => exact plain
  | cons op ops ih => exact ih (step plain op).plain

/-- Of some operations, one is the last to put an index in place, and does it for a workspace. -/
structure LastIndexed (s : Session) (ops earlier : List Operation) (op : Operation) (later : List Operation)
    (place : Place) : Prop where
  whole : ops = earlier ++ op :: later
  indexes : (s.play earlier).Indexes op place
  opened : (s.play (earlier ++ [op])).service.workspace = some place
  root : (s.play (earlier ++ [op])).indexed.index.root = some place
  /-- None of the later ones puts an index in place. -/
  last : ∀ more op' rest, later = more ++ op' :: rest → ∀ place', ¬ (s.play (earlier ++ op :: more)).Indexes op' place'

/-- Any operations leave the index as it was, or as the last of them to put one in place left it. -/
theorem play_index (plain : s.Plain) (ops : List Operation) :
    (s.play ops).indexed.index = s.indexed.index ∨
      ∃ earlier op later place, s.LastIndexed ops earlier op later place ∧
        (s.play ops).indexed.index = (s.play (earlier ++ [op])).indexed.index := by
  -- From the end: the last operation puts an index in place itself, or leaves the one of those before.
  induction ops using List.reverseRecOn with
  | nil => exact .inl rfl
  | append_singleton ops op ih =>
    obtain ⟨place, indexes, opened, root⟩ | ⟨none, index⟩ := (step (plain.play ops) op).index
    · refine .inr ⟨ops, op, [], place, ⟨rfl, indexes, ?_, ?_, ?_⟩, rfl⟩
      · rwa [play_concat]
      · rwa [play_concat]
      · intro more op' rest whole
        cases more <;> cases whole
    · rw [← play_concat] at index
      rw [index]
      refine ih.imp id fun ⟨earlier, op₁, later, place, found, same⟩ => ?_
      refine ⟨earlier, op₁, later ++ [op], place, { found with whole := ?_, last := ?_ }, same⟩
      · rw [found.whole, List.append_assoc, List.cons_append]
      · intro more op' rest whole
        obtain rfl | ⟨rest, final, rfl⟩ := List.eq_nil_or_concat' rest
        · obtain ⟨rfl, same⟩ := List.append_inj' whole rfl
          cases same
          rw [← found.whole]
          exact none
        · rw [← List.cons_append, ← List.append_assoc] at whole
          exact found.last more op' rest (List.append_inj' whole rfl).1

/-- Operations that open no workspace and close none leave it as it is. -/
theorem play_workspace (plain : s.Plain) (others : ∀ op ∈ ops, ∀ path, op ≠ .openWorkspace path) :
    (s.play ops).service.workspace = s.service.workspace := by
  induction ops generalizing s with
  | nil => rfl
  | cons op ops ih =>
    obtain ⟨own, others⟩ := List.forall_mem_cons.mp others
    have one := step plain op
    exact (ih one.plain others).trans (one.kept own)

end play

/-- A search answers with the symbols of the index, and changes nothing. -/
theorem exec_search (s : Session) {call : ToolCall} {query : String}
    (asked : Parameters.ofCall call = .ok (.searchCodebase, .searchCodebase query)) :
    exec (s.service.executeTool call) s.world =
      (.ok (s.service.toolbox.searchSymbols s.indexed.index.data query), s.world) := by
  have run : exec (s.service.toolbox.run .searchCodebase (.searchCodebase query)) s.world.bench =
      (.ok (s.service.toolbox.searchSymbols s.indexed.index.data query), s.world.bench) := by
    rw [Toolbox.run, exec_bind, exec_get]
    exact exec_pure _ _
  rw [exec_executeTool, Toolbox.exec_execute _ _ asked, run]
  rfl

/-- Whose symbols a search answers with, after any operations on a service that has opened no workspace and indexed
nothing, on a host whose current folder has a proper path. A search always answers with the symbols of the index. If there are any, the index is as one of the
operations left it that put it in place for the workspace open then, none of the later ones has put another one in
place, and the workspace is still the open one unless one of them opened or closed one. -/
theorem search_answers_for_last_indexed (start : Session) (closed : start.service.workspace = none)
    (fresh : start.indexed.index = {}) (current : start.indexed.files.current.Plain) (ops : List Operation)
    {call : ToolCall} {query : String} (asked : Parameters.ofCall call = .ok (.searchCodebase, .searchCodebase query)) :
    let s := start.play ops
    let answer := s.service.toolbox.searchSymbols s.indexed.index.data query
    exec (s.service.executeTool call) s.world = (.ok answer, s.world) ∧
      (answer ≠ "[]" → ∃ earlier op later place, start.LastIndexed ops earlier op later place ∧
        s.indexed.index = (start.play (earlier ++ [op])).indexed.index ∧ s.indexed.index.root = some place ∧
        ((∀ op' ∈ later, ∀ path, op' ≠ .openWorkspace path) → s.service.workspace = some place)) := by
  have plain : start.Plain := ⟨current, fun place opened => nomatch closed.symm.trans opened⟩
  refine ⟨exec_search (start.play ops) asked, fun found => ?_⟩
  obtain same | ⟨earlier, op, later, place, last, same⟩ := play_index plain ops
  · rw [same, fresh] at found
    exact absurd (Toolbox.searchSymbols_of_empty query) found
  · refine ⟨earlier, op, later, place, last, same, same ▸ last.root, fun others => ?_⟩
    rw [last.whole, List.append_cons, play, List.foldl_append]
    exact (play_workspace (plain.play _) others).trans last.opened

/-- A new service on a folder with one document, beside one whose rules cannot be read. -/
def ofTwoFolders : Session where
  service := { settings := {}, outliner := standardOutliner }
  world := {
    bench := {
      files := {
        root := .folder [
          ("v", .folder [(".gitignore", .file (utf8Bytes "!\n") 0)]),
          ("w", .folder [("README.md", .file (utf8Bytes "# Title\n") 0)])] }
      index := {} } }

/-- The call that searches for the title of the document. -/
def titleCall : ToolCall :=
  { name := Tool.searchCodebase.name, parameters := [("query", .str "Title")] }

theorem ofCall_titleCall : Parameters.ofCall titleCall = .ok (.searchCodebase, .searchCodebase "Title") := rfl

/-- After its folder was opened, a search finds the title, and in the open workspace. -/
theorem title_found_in_open_workspace :
    let s := ofTwoFolders.play [.openWorkspace (some "/w")]
    (∃ answer, exec (s.service.executeTool titleCall) s.world = (.ok answer, s.world) ∧ answer ≠ "[]") ∧
      s.indexed.index.root = some ["w"] ∧ s.service.workspace = some ["w"] := by
  have ⟨answered, found⟩ := search_answers_for_last_indexed ofTwoFolders rfl rfl nofun
    [.openWorkspace (some "/w")] ofCall_titleCall
  have filled : (ofTwoFolders.play [.openWorkspace (some "/w")]).service.toolbox.searchSymbols
      (ofTwoFolders.play [.openWorkspace (some "/w")]).indexed.index.data "Title" ≠ "[]" := by decide +kernel
  obtain ⟨earlier, op, later, place, last, -, root, opened⟩ := found filled
  cases earlier with
  | cons _ earlier => cases earlier <;> cases last.whole
  | nil =>
    cases last.whole
    have there : (ofTwoFolders.play [.openWorkspace (some "/w")]).service.workspace = some ["w"] := by decide +kernel
    cases there.symm.trans last.opened
    exact ⟨⟨_, answered, filled⟩, root, opened nofun⟩

/-- To close the workspace, or to open one whose indexing fails, does not keep a search from finding the title in the
workspace before. -/
theorem title_found_in_other_workspace :
    let closed := ofTwoFolders.play [.openWorkspace (some "/w"), .openWorkspace none]
    let other := ofTwoFolders.play [.openWorkspace (some "/w"), .openWorkspace (some "/v")]
    (closed.service.workspace = none ∧ closed.indexed.index.root = some ["w"] ∧
      ∃ answer, (exec (closed.service.executeTool titleCall) closed.world).1 = .ok answer ∧ answer ≠ "[]") ∧
    (other.service.workspace = some ["v"] ∧ other.indexed.index.root = some ["w"] ∧
      ∃ answer, (exec (other.service.executeTool titleCall) other.world).1 = .ok answer ∧ answer ≠ "[]") := by
  intro closed other
  refine ⟨⟨rfl, by decide +kernel, _, congrArg Prod.fst (exec_search closed ofCall_titleCall), by decide +kernel⟩,
    by decide +kernel, by decide +kernel, _, congrArg Prod.fst (exec_search other ofCall_titleCall), by decide +kernel⟩

end Session
end CodeAgent
