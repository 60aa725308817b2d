import CodeAgent.Proofs.Agent.ToolFailures
import CodeAgent.Proofs.Symbols.SnapshotWriting

/-! What the tools change. A tool that only reads leaves everything as it is; every other one writes its own
files, in folders that it makes where they are missing, and one that fails has written no file but the draft of
a snapshot. -/
namespace CodeAgent
open CodeAgent.Text CodeAgent.Action FileSystem

namespace Parameters

/-- The shapes of parameters that the tools are called with. -/
inductive Of : Tool → Parameters → Prop
  | readFile (path : String) (first last : Option Int) : Of .readFile (.readFile path first last)
  | writeFile (path content : String) : Of .writeFile (.writeFile path content)
  | listDir (path : String) : Of .listDir (.listDir path)
  | searchFiles (pattern : String) : Of .searchFiles (.findByName pattern)
  | findByName (pattern : String) : Of .findByName (.findByName pattern)
  | grep (request : SearchParameters) : Of .grep (.search request)
  | search (request : SearchParameters) : Of .search (.search request)
  | searchCodebase (query : String) : Of .searchCodebase (.searchCodebase query)
  | indexCodebase : Of .indexCodebase .none
  | todoAdd (content : String) : Of .todoAdd (.todoAdd content)
  | todoList : Of .todoList .none
  | todoComplete (id : String) : Of .todoComplete (.todoComplete id)

theorem of_read {tool : Tool} {data : Json.Fields} {parameters : Parameters}
    (typed : read tool data = .ok parameters) : Of tool parameters := by
  cases tool with
  | readFile =>
    obtain ⟨path, -, typed⟩ := exists_of_bind_eq_ok typed
    obtain ⟨first, -, typed⟩ := exists_of_bind_eq_ok typed
    obtain ⟨last, -, typed⟩ := exists_of_bind_eq_ok typed
    cases typed
    exact .readFile path first last
  | writeFile =>
    obtain ⟨path, -, typed⟩ := exists_of_bind_eq_ok typed
    obtain ⟨content, -, typed⟩ := exists_of_bind_eq_ok typed
    cases typed
    exact .writeFile path content
  | grep | search =>
    obtain ⟨query, -, typed⟩ := exists_of_bind_eq_ok typed
    obtain ⟨path, -, typed⟩ := exists_of_bind_eq_ok typed
    obtain ⟨caseSensitive, -, typed⟩ := exists_of_bind_eq_ok typed
    obtain ⟨wholeWord, -, typed⟩ := exists_of_bind_eq_ok typed
    obtain ⟨regex, -, typed⟩ := exists_of_bind_eq_ok typed
    obtain ⟨includePattern, -, typed⟩ := exists_of_bind_eq_ok typed
    obtain ⟨excludePattern, -, typed⟩ := exists_of_bind_eq_ok typed
    cases typed
    constructor
  | indexCodebase | todoList =>
    cases typed
    constructor
  | listDir | searchFiles | findByName | searchCodebase | todoAdd | todoComplete =>
    obtain ⟨given, -, typed⟩ := exists_of_bind_eq_ok typed
    cases typed
    constructor

theorem of_ofCall {call : ToolCall} {tool : Tool} {parameters : Parameters}
    (typed : ofCall call = .ok (tool, parameters)) : Of tool parameters := by
  unfold ofCall at typed
  split at typed
  · cases typed
  · split at typed
    · next read =>
      cases typed
      exact of_read read
    · cases typed

end Parameters

/-- The tools that only read. -/
def Tool.readsOnly : Tool → Bool
  | .writeFile | .indexCodebase | .todoAdd | .todoComplete => false
  | _ => true

namespace ToolAction
variable {α β : Type}

@[simp]
theorem exec_ofExcept (x : Except Failure α) (bench : Workbench) : exec (ofExcept x) bench = (x, bench) := rfl

theorem exec_onFiles (report : FileError → Failure) (a : FileAction α) (bench : Workbench) :
    exec (onFiles report a) bench =
      ((exec a bench.files).1.mapError report, { bench with files := (exec a bench.files).2 }) := rfl

theorem exec_onIndex (report : Failure → Failure) (a : IndexAction α) (bench : Workbench) :
    exec (onIndex report a) bench =
      ((exec a bench.toIndexState).1.mapError report, { bench with toIndexState := (exec a bench.toIndexState).2 }) :=
  rfl

theorem exec_newIdentifier_bind (f : String → ToolAction α) (bench : Workbench) :
    exec (do f (← Workbench.newIdentifier) : ToolAction α) bench =
      exec (f (identifier (bench.identifiers + 1))) { bench with identifiers := bench.identifiers + 1 } := rfl

end ToolAction

namespace Toolbox

/-- A call runs its tool; only the name of the tool in a fault may change. -/
theorem exec_execute (box : Toolbox) (bench : Workbench) {call : ToolCall} {tool : Tool} {parameters : Parameters}
    (typed : Parameters.ofCall call = .ok (tool, parameters)) :
    exec (box.execute call) bench =
      ((exec (box.run tool parameters) bench).1.mapError (ascribe call.name),
        (exec (box.run tool parameters) bench).2) := by
  rw [execute, exec_bind, ToolAction.exec_ofExcept, typed]
  exact exec_rethrow (box.run tool parameters) (ascribe call.name) bench

/-- A call that asks for nothing that can be told changes nothing. -/
theorem exec_execute_refused (box : Toolbox) (bench : Workbench) {call : ToolCall} {f : Fault}
    (refused : Parameters.ofCall call = .error f) : exec (box.execute call) bench = (.error (.fault f), bench) := by
  rw [execute, exec_bind, ToolAction.exec_ofExcept, refused]
  rfl

/-- The paths at which a tool writes a file, given whether it answers: one that fails has written no file but
the draft of a snapshot. -/
inductive WritesTo (box : Toolbox) (fs : FileSystem) : Tool → Parameters → Bool → Path → Prop
  | file (path content : String) : WritesTo box fs .writeFile (.writeFile path content) true (box.pathOf path)
  | addedTodo {root : Path} (opened : box.workspace = some root) (content : String) :
    WritesTo box fs .todoAdd (.todoAdd content) true (box.settings.statePaths root).todos
  | completedTodo {root : Path} (opened : box.workspace = some root) (id : String) :
    WritesTo box fs .todoComplete (.todoComplete id) true (box.settings.statePaths root).todos
  | snapshot {root : Path} {place : Place} (opened : box.workspace = some root) (named : fs.resolve root = .ok place) :
    WritesTo box fs .indexCodebase .none true (box.settings.statePaths place.path).snapshot
  | draft {root : Path} {place : Place} (opened : box.workspace = some root) (named : fs.resolve root = .ok place)
    (answered : Bool) :
    WritesTo box fs .indexCodebase .none answered (box.settings.statePaths place.path).snapshotDraft

/-- The places where a tool writes a file. -/
def writable (box : Toolbox) (fs : FileSystem) (tool : Tool) (parameters : Parameters) (answered : Bool) : Set Place :=
  { q | ∃ p, box.WritesTo fs tool parameters answered p ∧ q ∈ fs.placeOf p }

/-- The places on the way to the files that a tool writes. -/
def makable (box : Toolbox) (fs : FileSystem) (tool : Tool) (parameters : Parameters) : Set Place :=
  { q | ∃ p, box.WritesTo fs tool parameters true p ∧ q ∈ fs.placesOn p.parent }

/-- What running a tool has changed is its own to change, and what it answered to have written is there. -/
structure Confined (box : Toolbox) (bench : Workbench) (tool : Tool) (parameters : Parameters)
    (outcome : Except Failure String) (after : Workbench) : Prop where
  reading : tool.readsOnly → after = bench
  index : tool ≠ .indexCodebase → after.index = bench.index
  identifiers : tool ≠ .todoAdd → after.identifiers = bench.identifiers
  files : bench.files.Changes (box.writable bench.files tool parameters outcome.isOk)
    (box.makable bench.files tool parameters) after.files
  written : ∀ path content, parameters = .writeFile path content → outcome.isOk →
    ∃ place, bench.files.resolve (box.pathOf path) = .ok place ∧
      after.files.root.holding place = .file (utf8Bytes content) bench.files.now

section run
variable {box : Toolbox} {bench : Workbench} {tool : Tool} {parameters : Parameters}

theorem Confined.of_unchanged (outcome : Except Failure String)
    (other : outcome.isOk → ∀ path content, parameters ≠ .writeFile path content) :
    box.Confined bench tool parameters outcome bench where
  reading _ := rfl
  index _ := rfl
  identifiers _ := rfl
  files := .refl _
  written path content same done := absurd same (other done path content)

theorem Confined.of_error (e : Failure) : box.Confined bench tool parameters (.error e) bench := .of_unchanged _ nofun

/-- How a failure is reported does not count. -/
theorem Confined.mapError {outcome : Except Failure String} {after : Workbench}
    (confined : box.Confined bench tool parameters outcome after) (change : Failure → Failure) :
    box.Confined bench tool parameters (outcome.mapError change) after := by
  cases outcome with
  | ok => exact confined
  | error => exact { confined with }

/-- Writing the one file of a tool, once an identifier was given out if need be. -/
theorem confined_writing {p : Path} (own : box.WritesTo bench.files tool parameters true p) (writes : ¬ tool.readsOnly)
    {report : FileError → Failure} {content : Bytes} {next : Workbench} (answer : String)
    (same : next.toIndexState = bench.toIndexState)
    (counted : tool ≠ .todoAdd → next.identifiers = bench.identifiers)
    (asked : ∀ path text, parameters = .writeFile path text → content = utf8Bytes text) :
    let run := exec (do ToolAction.onFiles report (FileAction.writeFile p content); return answer) next
    box.Confined bench tool parameters run.1 run.2 := by
  have folders : bench.files.placesOn p.parent ⊆ box.makable bench.files tool parameters := fun q on => ⟨p, own, on⟩
  dsimp only
  rw [exec_bind, ToolAction.exec_onFiles, same]
  rcases run : exec (FileAction.writeFile p content) bench.files with ⟨e | _, files⟩
  · exact {
      reading := fun reads => absurd reads writes
      index := fun _ => rfl
      identifiers := counted
      files := (FileAction.writeFile_failed run).mono (Set.empty_subset _) folders
      written := fun _ _ _ done => nomatch done }
  · obtain ⟨changes, place, named, holds⟩ := FileAction.writeFile_done run
    refine {
      reading := fun reads => absurd reads writes
      index := fun _ => rfl
      identifiers := counted
      files := changes.mono (fun q named => ⟨p, own, named⟩) folders
      written := ?_ }
    rintro path text rfl -
    cases own
    exact ⟨place, named, asked path text rfl ▸ holds⟩

theorem confined_writeFile (box : Toolbox) (bench : Workbench) (path content : String) :
    box.Confined bench .writeFile (.writeFile path content) (exec (box.writeFile path content) bench).1
      (exec (box.writeFile path content) bench).2 :=
  confined_writing (.file path content) nofun _ rfl (fun _ => rfl) fun _ _ same => by cases same; rfl

theorem confined_addTodo (box : Toolbox) (bench : Workbench) (content : String) :
    box.Confined bench .todoAdd (.todoAdd content) (exec (box.addTodo content) bench).1
      (exec (box.addTodo content) bench).2 := by
  rw [addTodo, todoPath, exec_bind, ToolAction.exec_ofExcept]
  cases found : box.needWorkspace Tool.todoAdd.name with
  | error e => exact .of_error e
  | ok root =>
    change box.Confined bench _ _ (exec (get >>= _) bench).1 (exec (get >>= _) bench).2
    rw [exec_bind, exec_get]
    dsimp only
    rw [exec_bind, ToolAction.exec_ofExcept]
    cases Todo.itemsForAdding bench.files (box.settings.statePaths root).todos with
    | error e => exact .of_error e
    | ok items =>
      have own : box.WritesTo bench.files .todoAdd (.todoAdd content) true (box.settings.statePaths root).todos :=
        .addedTodo (needWorkspace_ok found) content
      dsimp only
      rw [ToolAction.exec_newIdentifier_bind, saveTodos, Todo.save]
      exact confined_writing own Bool.false_ne_true _ rfl (absurd rfl) (by rintro _ _ ⟨⟩)

theorem confined_completeTodo (box : Toolbox) (bench : Workbench) (id : String) :
    box.Confined bench .todoComplete (.todoComplete id) (exec (box.completeTodo id) bench).1
      (exec (box.completeTodo id) bench).2 := by
  rw [completeTodo, todoPath, exec_bind, ToolAction.exec_ofExcept]
  cases found : box.needWorkspace Tool.todoComplete.name with
  | error e => exact .of_error e
  | ok root =>
    change box.Confined bench _ _ (exec (get >>= _) bench).1 (exec (get >>= _) bench).2
    rw [exec_bind, exec_get]
    dsimp only
    rw [exec_bind, ToolAction.exec_ofExcept]
    cases Todo.itemsAfterCompleting bench.files (box.settings.statePaths root).todos id with
    | error e => exact .of_error e
    | ok items =>
      have own : box.WritesTo bench.files .todoComplete (.todoComplete id) true (box.settings.statePaths root).todos :=
        .completedTodo (needWorkspace_ok found) id
      dsimp only
      rw [saveTodos, Todo.save]
      exact confined_writing own Bool.false_ne_true _ rfl (fun _ => rfl) (by rintro _ _ ⟨⟩)

theorem confined_indexFiles (box : Toolbox) (bench : Workbench) :
    box.Confined bench .indexCodebase .none (exec box.indexFiles bench).1 (exec box.indexFiles bench).2 := by
  rw [indexFiles, exec_bind, ToolAction.exec_ofExcept]
  cases found : box.needWorkspace Tool.indexCodebase.name with
  | error e => exact .of_error e
  | ok root =>
    dsimp only
    rw [exec_bind, exec_get]
    dsimp only
    rw [exec_bind, ToolAction.exec_ofExcept]
    cases named : bench.files.resolve root with
    | error e => exact .of_error _
    | ok place =>
      have opened := needWorkspace_ok found
      have made := SymbolIndex.pass_changes box.outliner box.settings place bench.toIndexState
      dsimp only [Except.mapError]
      rw [exec_bind, ToolAction.exec_onIndex]
      have paths (done : Bool) :
          SymbolIndex.snapshotPlaces bench.files (box.settings.statePaths place.path) done ⊆
            box.writable bench.files .indexCodebase .none done := by
        rintro q (draft | ⟨rfl, own⟩)
        · exact ⟨_, .draft opened named done, draft⟩
        · exact ⟨_, .snapshot opened named, own⟩
      have folders : bench.files.placesOn (box.settings.statePaths place.path).snapshot.parent ⊆
          box.makable bench.files .indexCodebase .none := fun q on => ⟨_, .snapshot opened named, on⟩
      rcases run : exec (SymbolIndex.pass box.outliner box.settings place) bench.toIndexState with ⟨_ | _, state⟩
      all_goals
        rw [run] at made
        exact {
          reading := fun reads => absurd reads Bool.false_ne_true
          index := absurd rfl
          identifiers := fun _ => rfl
          files := made.mono (paths _) folders
          written := by rintro _ _ ⟨⟩ }

theorem confined_run (box : Toolbox) (bench : Workbench) {tool : Tool} {parameters : Parameters}
    (typed : Parameters.Of tool parameters) :
    box.Confined bench tool parameters (exec (box.run tool parameters) bench).1
      (exec (box.run tool parameters) bench).2 := by
  cases typed with
  | writeFile path content => exact confined_writeFile box bench path content
  | todoAdd content => exact confined_addTodo box bench content
  | todoComplete id => exact confined_completeTodo box bench id
  | indexCodebase => exact confined_indexFiles box bench
  | readFile | listDir | searchFiles | findByName | grep | search | searchCodebase | todoList =>
    exact .of_unchanged _ nofun

end run

/-- For every state of the files and every call, whether it is answered or fails: a call that is refused changes
nothing, and any other one changes only what its tool may change. A tool that reads changes nothing at all. To write
a file changes no other file, and makes folders only where there is nothing on the way to it; the todo items are
written to their document, and an index to its snapshot, by way of a draft. Where the call fails, no file but that
draft has changed. -/
theorem execute_changes_only_its_own (box : Toolbox) (bench : Workbench) (call : ToolCall) :
    match Parameters.ofCall call with
    | .error f => exec (box.execute call) bench = (.error (.fault f), bench)
    | .ok (tool, parameters) => box.Confined bench tool parameters (exec (box.execute call) bench).1
      (exec (box.execute call) bench).2 := by
  rw [execute, exec_bind, ToolAction.exec_ofExcept]
  cases typed : Parameters.ofCall call with
  | error f => rfl
  | ok given =>
    obtain ⟨tool, parameters⟩ := given
    have fits : Parameters.Of tool parameters := by
      unfold Parameters.ofCall at typed
      split at typed
      · cases typed
      · split at typed
        · next read =>
          cases typed
          exact Parameters.of_read read
        · cases typed
    dsimp only [Except.mapError]
    rw [exec_rethrow]
    exact (confined_run box bench fits).mapError _

end Toolbox
end CodeAgent
