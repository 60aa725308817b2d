import CodeAgent.Agent.Service
import CodeAgent.Proofs.Agent.TurnOutcome
import CodeAgent.Proofs.Symbols.Rebuild
import CodeAgent.Proofs.TodoDocument
import CodeAgent.Proofs.Workspace.BrokenRules
import CodeAgent.Symbols.FileOutline

/-! How the tools fail: with a fault of the tool, or with one of the few failures that they let through. -/
namespace CodeAgent

/-- A failure of a tool that is no fault ends the turn as it is. -/
theorem CallRun.failure?_of_not_fault {settings : Settings} {x : CallRun} {e : Failure}
    (failed : x.outcome = .error e) (other : e.fault? = none) : x.failure? settings = some e := by
  unfold failure? report
  rw [failed]
  cases e with
  | fault => cases other
  | _ => rfl

namespace ToolAction
variable {α β : Type}

/-- What an action comes to on a workbench. -/
def outcome (a : ToolAction α) (bench : Workbench) : Except Failure α := (a.run.run bench).1

@[simp]
theorem outcome_ofExcept (x : Except Failure α) (bench : Workbench) : (ofExcept x).outcome bench = x := rfl

@[simp]
theorem outcome_ofExcept_bind (x : Except Failure α) (f : α → ToolAction β) (bench : Workbench) :
    (ofExcept x >>= f).outcome bench = x >>= fun y => (f y).outcome bench := by
  cases x <;> rfl

@[simp]
theorem outcome_get_bind (f : Workbench → ToolAction β) (bench : Workbench) :
    (get >>= f).outcome bench = (f bench).outcome bench := rfl

theorem outcome_bind_error {a : ToolAction α} {f : α → ToolAction β} {bench : Workbench} {e : Failure}
    (failed : (a >>= f).outcome bench = .error e) :
    a.outcome bench = .error e ∨ ∃ x next, a.run.run bench = (.ok x, next) ∧ (f x).outcome next = .error e := by
  change (Action.exec (a >>= f) bench).1 = .error e at failed
  rw [Action.exec_bind] at failed
  unfold outcome
  cases made : a.run.run bench with
  | mk outcome next =>
    rw [Action.exec, made] at failed
    cases outcome with
    | ok x => exact .inr ⟨x, next, rfl, failed⟩
    | error e' =>
      cases failed
      exact .inl rfl

theorem outcome_bind_of_error {a : ToolAction α} {bench : Workbench} {e : Failure}
    (failed : a.outcome bench = .error e) (f : α → ToolAction β) : (a >>= f).outcome bench = .error e := by
  have stopped : Action.exec a bench = (.error e, (Action.exec a bench).2) := Prod.ext failed rfl
  change (Action.exec (a >>= f) bench).1 = .error e
  rw [Action.exec_bind, stopped]

/-- Failures that are caught are thrown again as others. -/
theorem outcome_rethrow (a : ToolAction α) (change : Failure → Failure) (bench : Workbench) :
    (tryCatch a fun e => throw (change e)).outcome bench = (a.outcome bench).mapError change :=
  congrArg Prod.fst (Action.exec_rethrow a change bench)

theorem outcome_pure_ne_error {x : α} {bench : Workbench} {e : Failure} :
    (pure x : ToolAction α).outcome bench ≠ .error e := nofun

theorem outcome_onFiles (report : FileError → Failure) (a : FileAction α) (bench : Workbench) :
    (onFiles report a).outcome bench = (a.run.run bench.files).1.mapError report := rfl

theorem outcome_onIndex (report : Failure → Failure) (a : IndexAction α) (bench : Workbench) :
    (onIndex report a).outcome bench = (a.run.run bench.toIndexState).1.mapError report := rfl

end ToolAction

namespace SymbolIndex
open IndexAction
variable {outliner : Outliner} {settings : Settings} {root : Place} {s : IndexState}

theorem store_error {paths : StatePaths} {data : IndexData} {e : Failure}
    (failed : (exec (store paths data) s).1 = .error e) : e = .breakdown .badValue ∨ e = .file .nullCharacter := by
  rw [store, exec_bind, exec_liftExcept] at failed
  cases encoded : Snapshot.encode data with
  | error cause =>
    rw [encoded] at failed
    cases failed
    unfold Snapshot.encode at encoded
    split at encoded
    · cases encoded
      exact .inl rfl
    · cases encoded
  | ok blob =>
    rw [encoded] at failed
    dsimp only at failed
    rw [exec_bind, exec_get] at failed
    dsimp only at failed
    split at failed
    rw [exec_bind, exec_set] at failed
    dsimp only at failed
    split at failed
    · rw [exec_throw] at failed
      cases failed
      exact .inr rfl
    · rw [exec_pure] at failed
      cases failed

/-- A pass fails because its walk breaks down, because an outline is nested too deep to be stored, or because
the path of the snapshot is no path. -/
theorem pass_error {e : Failure} (failed : ((pass outliner settings root).run.run s).1 = .error e) :
    (∃ b, e = .breakdown b ∧ (walk settings root).files s.files.root = .error b) ∨
      e = .breakdown .badValue ∨ e = .file .nullCharacter := by
  rw [← exec.eq_1] at failed
  cases walked : scanAll outliner settings s.files (s.index.previousFor root) root with
  | error b =>
    rw [pass_broken walked] at failed
    cases failed
    rcases eq_error_of_bind walked with broken | ⟨_, -, scanned⟩
    · exact .inl ⟨b, rfl, broken⟩
    · cases scanned
  | ok scans =>
    rw [pass_walked walked] at failed
    dsimp only at failed
    cases stored : (exec (store (settings.statePaths root.path) (assemble scans))
      { s with index := { data := assemble scans, root := some root, passed := true } }).1 with
    | error cause =>
      rw [stored] at failed
      cases failed
      exact .inr (store_error stored)
    | ok =>
      rw [stored] at failed
      cases failed

theorem pass_of_broken_walk (outliner : Outliner) {b : Breakdown}
    (broken : (walk settings root).files s.files.root = .error b) :
    (pass outliner settings root).run.run s = (.error (.breakdown b), s) := by
  rw [← exec.eq_1, pass_broken (scanAll_broken outliner broken _)]

end SymbolIndex

namespace Toolbox

theorem ofTool_fileFault (tool : String) (p : Path) (e : FileError) : (fileFault tool p e).OfTool := by
  unfold fileFault
  split
  · exact ⟨_, rfl, rfl⟩
  · exact ⟨_, rfl, rfl⟩

variable (box : Toolbox) (bench : Workbench)

/-- A call that works on the todo document. -/
inductive UsesTodos : Tool → Parameters → Prop
  | list : UsesTodos .todoList .none
  | add {tool : Tool} {content : String} : UsesTodos tool (.todoAdd content)
  | complete {tool : Tool} {id : String} : UsesTodos tool (.todoComplete id)

/-- The failures that a tool lets through: of a pattern with a count that is too large, of a walk that breaks
down, of a path of the todo document that is too long, and of a todo document that is nested too deep. -/
inductive Leaks : Tool → Parameters → Failure → Prop
  | nameCount {tool : Tool} {pattern : String} {root : Path} :
    box.workspace = some root → nameTest pattern = .error (.breakdown .tooLarge) →
      Leaks tool (.findByName pattern) (.breakdown .tooLarge)
  | nameWalk {tool : Tool} {pattern : String} {root : Path} {test : String → Bool} {place : Place}
    {b : Breakdown} : box.workspace = some root → nameTest pattern = .ok test →
      bench.files.resolve root = .ok place →
      Walk.files { root := place, skipped := box.skipped } bench.files.root = .error b →
        Leaks tool (.findByName pattern) (.breakdown b)
  | lineCount {tool : Tool} {request : SearchParameters} :
    request.matcher = .error (.breakdown .tooLarge) → Leaks tool (.search request) (.breakdown .tooLarge)
  | lineWalk {tool : Tool} {request : SearchParameters} {e : Pattern.Expr} {node : Node} {root start : Place}
    {b : Breakdown} : request.matcher = .ok e →
      bench.files.node? (box.pathOf request.path) = .ok (some node) →
      bench.files.resolve (if node.isFile then (box.pathOf request.path).parent
        else box.pathOf request.path) = .ok root →
      bench.files.resolve (box.pathOf request.path) = .ok start →
      Walk.filesFrom { root, skipped := box.skipped } bench.files.root start = .error b →
        Leaks tool (.search request) (.breakdown b)
  | indexWalk {tool : Tool} {root : Path} {place : Place} {b : Breakdown} : tool ≠ .todoList →
      box.workspace = some root → bench.files.resolve root = .ok place →
      (SymbolIndex.walk box.settings place).files bench.files.root = .error b →
        Leaks tool .none (.breakdown b)
  | todoPath {tool : Tool} {parameters : Parameters} {root : Path} {e : FileError} :
    UsesTodos tool parameters → box.workspace = some root →
      bench.files.node? (box.settings.statePaths root).todos = .error e → Leaks tool parameters (.file e)
  | todoDocument {tool : Tool} {parameters : Parameters} {root : Path} {node : Node} :
    UsesTodos tool parameters → parameters ≠ .none → box.workspace = some root →
      bench.files.node? (box.settings.statePaths root).todos = .ok (some node) →
      Todo.TooDeep bench.files (box.settings.statePaths root).todos →
        Leaks tool parameters (.breakdown .tooNested)

variable {box bench}

theorem ofTool_of_files {α : Type} {x : Except FileError α} {tool : String} {p : Path} {e : Failure}
    (failed : x.mapError (fileFault tool p) = .error e) : e.OfTool := by
  obtain ⟨fe, -, rfl⟩ := eq_error_of_mapError failed
  exact ofTool_fileFault ..

theorem needWorkspace_error {tool : String} {e : Failure} (failed : box.needWorkspace tool = .error e) :
    e.OfTool := by
  unfold needWorkspace at failed
  split at failed
  · cases failed
  · cases failed
    exact ⟨_, rfl, rfl⟩

theorem needWorkspace_ok {tool : String} {root : Path} (found : box.needWorkspace tool = .ok root) :
    box.workspace = some root := by
  unfold needWorkspace at found
  split at found
  · next opened =>
    cases found
    exact opened
  · cases found

theorem contained_readFile (tool : Tool) (path : String) (first last : Option Int) :
    Contained (box.Leaks bench tool (.readFile path first last)) (box.readFile bench.files path first last) := by
  refine .of_ofTool (fun e leak => by cases leak with | todoPath uses | todoDocument uses => cases uses) fun e failed => ?_
  rcases eq_error_of_bind failed with failed | ⟨_, -, failed⟩
  · exact ofTool_of_files failed
  · cases failed

theorem contained_listDir (tool : Tool) (path : String) :
    Contained (box.Leaks bench tool (.listDir path)) (box.listDir bench.files path) := by
  refine .of_ofTool (fun e leak => by cases leak with | todoPath uses | todoDocument uses => cases uses) fun e failed => ?_
  rcases eq_error_of_bind failed with failed | ⟨_, -, failed⟩
  · exact ofTool_of_files failed
  · cases failed

theorem nameTest_error {pattern : String} {e : Failure} (failed : nameTest pattern = .error e) :
    e = .breakdown .tooLarge ∨ e = .breakdown .badValue := by
  unfold nameTest at failed
  split at failed <;> cases failed
  · exact .inl rfl
  · exact .inr rfl

theorem ofTool_report_badValue (tool reason : String) (p : Path) :
    (report tool reason p (.breakdown .badValue)).OfTool := ⟨_, rfl, rfl⟩

/-- A walk that breaks down is not reported for the path of a tool. -/
theorem report_of_walk {w : Walk} {root : Node} {start : Place} {b : Breakdown}
    (failed : w.filesFrom root start = .error b) (tool reason : String) (p : Path) :
    report tool reason p (.breakdown b) = .breakdown b := by
  rcases (w.failsBy_filesFrom root start b failed).cases with rfl | rfl
  · rfl
  · rfl

theorem contained_findByName (tool : Tool) (pattern : String) :
    Contained (box.Leaks bench tool (.findByName pattern)) (box.findByName bench.files pattern) := by
  constructor
  · intro e leak
    cases leak with
    | nameCount opened large =>
      simp [findByName, needWorkspace, opened, large, bind, Except.bind, Except.mapError, report]
    | nameWalk opened named resolved broken =>
      simp [findByName, needWorkspace, opened, named, findFiles, resolved, broken, bind, Except.bind,
        Except.mapError, report_of_walk broken]
    | todoPath uses | todoDocument uses => cases uses
  · intro e failed
    rcases eq_error_of_bind failed with failed | ⟨root, opened, failed⟩
    · exact .inl (needWorkspace_error failed)
    have opened := needWorkspace_ok opened
    rcases eq_error_of_bind failed with failed | ⟨_, -, failed⟩
    · obtain ⟨cause, found, rfl⟩ := eq_error_of_mapError failed
      rcases eq_error_of_bind found with named | ⟨test, named, found⟩
      · rcases nameTest_error named with rfl | rfl
        · exact .inr (.nameCount opened named)
        · exact .inl (ofTool_report_badValue ..)
      rcases eq_error_of_bind found with lost | ⟨place, resolved, found⟩
      · obtain ⟨fe, -, rfl⟩ := eq_error_of_mapError lost
        exact .inl (ofTool_fileFault ..)
      rcases eq_error_of_bind found with walked | ⟨_, -, found⟩
      · obtain ⟨b, broken, rfl⟩ := eq_error_of_mapError walked
        rw [report_of_walk broken]
        exact .inr (.nameWalk opened named (eq_ok_of_mapError resolved) broken)
      · cases found
    · cases failed

theorem matcher_error {request : SearchParameters} {e : Failure} (failed : request.matcher = .error e) :
    e.OfTool ∧ (∃ f, e = .fault f) ∨ e = .breakdown .tooLarge ∨ e = .breakdown .badValue := by
  unfold SearchParameters.matcher at failed
  split at failed <;> cases failed
  · exact .inl ⟨⟨_, rfl, rfl⟩, _, rfl⟩
  · exact .inr (.inl rfl)
  · exact .inr (.inr rfl)

theorem contained_search (tool : Tool) (request : SearchParameters) :
    Contained (box.Leaks bench tool (.search request)) (box.search bench.files request) := by
  constructor
  · intro e leak
    cases leak with
    | lineCount large => simp [search, large, bind, Except.bind, Except.mapError, report]
    | lineWalk readable there parent resolved broken =>
      simp [search, readable, searchLines, there, parent, resolved, broken, bind, Except.bind,
        Except.mapError, report_of_walk broken]
    | todoPath uses | todoDocument uses => cases uses
  · intro e failed
    rcases eq_error_of_bind failed with failed | ⟨_, -, failed⟩
    · obtain ⟨cause, found, rfl⟩ := eq_error_of_mapError failed
      rcases eq_error_of_bind found with read | ⟨expr, readable, found⟩
      · rcases matcher_error read with ⟨fault, f, rfl⟩ | rfl | rfl
        · exact .inl fault
        · exact .inr (.lineCount read)
        · exact .inl (ofTool_report_badValue ..)
      rcases eq_error_of_bind found with lost | ⟨node?, there, found⟩
      · obtain ⟨fe, -, rfl⟩ := eq_error_of_mapError lost
        exact .inl (ofTool_fileFault ..)
      cases node? with
      | none =>
        cases found
        exact .inl (ofTool_fileFault ..)
      | some node =>
        rcases eq_error_of_bind found with lost | ⟨root, parent, found⟩
        · obtain ⟨fe, -, rfl⟩ := eq_error_of_mapError lost
          exact .inl (ofTool_fileFault ..)
        rcases eq_error_of_bind found with lost | ⟨start, resolved, found⟩
        · obtain ⟨fe, -, rfl⟩ := eq_error_of_mapError lost
          exact .inl (ofTool_fileFault ..)
        rcases eq_error_of_bind found with walked | ⟨_, -, found⟩
        · obtain ⟨b, broken, rfl⟩ := eq_error_of_mapError walked
          rw [report_of_walk broken]
          exact .inr (.lineWalk readable (eq_ok_of_mapError there) (eq_ok_of_mapError parent)
            (eq_ok_of_mapError resolved) broken)
        · cases found
    · cases failed

theorem contained_searchCodebase (tool : Tool) (query : String) :
    Contained (box.Leaks bench tool (.searchCodebase query))
      (.ok (box.searchSymbols bench.index.data query)) := by
  refine .of_ok _ fun e leak => ?_
  cases leak with
  | todoPath uses | todoDocument uses => cases uses

section actions
open ToolAction

theorem contained_writeFile (tool : Tool) (path content : String) :
    Contained (box.Leaks bench tool (.writeFile path content))
      ((box.writeFile path content).outcome bench) := by
  refine .of_ofTool (fun e leak => by cases leak with | todoPath uses | todoDocument uses => cases uses) fun e failed => ?_
  rw [writeFile] at failed
  rcases outcome_bind_error failed with failed | ⟨_, _, -, failed⟩
  · rw [outcome_onFiles] at failed
    exact ofTool_of_files failed
  · exact (outcome_pure_ne_error failed).elim

theorem contained_indexFiles {tool : Tool} (other : tool ≠ .todoList) :
    Contained (box.Leaks bench tool .none) (box.indexFiles.outcome bench) := by
  rw [indexFiles, outcome_ofExcept_bind]
  constructor
  · intro e leak
    cases leak with
    | @indexWalk root place b _ opened resolved broken =>
      have passed := SymbolIndex.pass_of_broken_walk box.outliner (s := bench.toIndexState) broken
      rw [show box.needWorkspace Tool.indexCodebase.name = .ok root by simp [needWorkspace, opened]]
      change ((ofExcept ((bench.files.resolve root).mapError _)) >>= fun _ => _).outcome bench = _
      rw [resolved, outcome_ofExcept_bind]
      refine outcome_bind_of_error ?_ _
      rw [outcome_onIndex, passed]
      exact congrArg Except.error (report_of_walk broken ..)
    | todoPath uses =>
      cases uses
      contradiction
    | todoDocument uses filled =>
      contradiction
  · intro e failed
    rcases eq_error_of_bind failed with failed | ⟨root, opened, failed⟩
    · exact .inl (needWorkspace_error failed)
    have opened := needWorkspace_ok opened
    rw [outcome_get_bind, outcome_ofExcept_bind] at failed
    rcases eq_error_of_bind failed with failed | ⟨place, resolved, failed⟩
    · exact .inl (ofTool_of_files failed)
    rcases outcome_bind_error failed with failed | ⟨_, _, -, failed⟩
    · rw [outcome_onIndex] at failed
      obtain ⟨cause, found, rfl⟩ := eq_error_of_mapError failed
      rcases SymbolIndex.pass_error found with ⟨b, rfl, broken⟩ | rfl | rfl
      · rw [report_of_walk broken]
        exact .inr (.indexWalk other opened (eq_ok_of_mapError resolved) broken)
      · exact .inl (ofTool_report_badValue ..)
      · exact .inl (ofTool_fileFault ..)
    · exact (outcome_pure_ne_error failed).elim

theorem contained_of_todoPath {tool : Tool} {leaks : Failure → Prop} {f : Path → Except Failure String}
    (closed : box.workspace = none → ∀ e, ¬ leaks e) (opened : ∀ root, box.workspace = some root →
      Contained leaks (f (box.settings.statePaths root).todos)) : Contained leaks (box.todoPath tool >>= f) := by
  unfold todoPath needWorkspace
  cases found : box.workspace with
  | none =>
    refine .of_ofTool (closed found) fun e failed => ?_
    cases failed
    exact ⟨_, rfl, rfl⟩
  | some root => exact opened root found

theorem UsesTodos.not_leaks {tool : Tool} {parameters : Parameters} (uses : UsesTodos tool parameters)
    (closed : box.workspace = none) (e : Failure) : ¬ box.Leaks bench tool parameters e := by
  intro leak
  cases leak with
  | todoPath _ opened | todoDocument _ _ opened =>
    rw [closed] at opened
    cases opened
  | indexWalk other =>
    cases uses
    contradiction
  | _ => cases uses

theorem UsesTodos.upsets_iff {tool : Tool} {parameters : Parameters} (uses : UsesTodos tool parameters)
    (filled : parameters ≠ .none) {root : Path} (opened : box.workspace = some root) (e : Failure) :
    Todo.Upsets bench.files (box.settings.statePaths root).todos e ↔ box.Leaks bench tool parameters e := by
  constructor
  · rintro (lost | ⟨there, deep⟩)
    · exact .todoPath uses opened lost
    · exact .todoDocument uses filled opened there deep
  · intro leak
    cases leak with
    | todoPath _ opened' lost =>
      obtain rfl := Option.some.inj (opened.symm.trans opened')
      exact .path lost
    | todoDocument _ _ opened' there deep =>
      obtain rfl := Option.some.inj (opened.symm.trans opened')
      exact .document there deep
    | indexWalk => contradiction
    | _ => cases uses

theorem contained_listTodos :
    Contained (box.Leaks bench .todoList .none) (box.listTodos bench.files) := by
  refine contained_of_todoPath (UsesTodos.list.not_leaks ·) fun root opened => ?_
  refine (Todo.contained_listing _ _).congr fun e => ⟨?_, fun leak => ?_⟩
  · rintro ⟨fe, lost, rfl⟩
    exact .todoPath .list opened lost
  · cases leak with
    | todoPath _ opened' lost =>
      obtain rfl := Option.some.inj (opened.symm.trans opened')
      exact ⟨_, lost, rfl⟩
    | indexWalk | todoDocument => contradiction

theorem saveTodos_error {tool : Tool} {p : Path} {items : List Json} {answer : String} {e : Failure}
    (failed : (saveTodos tool p items >>= fun _ => pure answer).outcome bench = .error e) : e.OfTool := by
  rcases outcome_bind_error failed with failed | ⟨_, _, -, failed⟩
  · rw [saveTodos, outcome_onFiles] at failed
    obtain ⟨fe, -, rfl⟩ := eq_error_of_mapError failed
    exact ⟨_, rfl, rfl⟩
  · exact (outcome_pure_ne_error failed).elim

theorem contained_addTodo (tool : Tool) (content : String) :
    Contained (box.Leaks bench tool (.todoAdd content)) ((box.addTodo content).outcome bench) := by
  rw [addTodo, outcome_ofExcept_bind]
  refine contained_of_todoPath (UsesTodos.add.not_leaks ·) fun root opened => ?_
  rw [outcome_get_bind, outcome_ofExcept_bind]
  refine .bind ((Todo.contained_itemsForAdding _ _).congr (UsesTodos.add.upsets_iff nofun opened)) ?_
  intro items e failed
  rcases outcome_bind_error failed with failed | ⟨_, _, -, failed⟩
  · cases failed
  · exact saveTodos_error failed

theorem contained_completeTodo (tool : Tool) (id : String) :
    Contained (box.Leaks bench tool (.todoComplete id)) ((box.completeTodo id).outcome bench) := by
  rw [completeTodo, outcome_ofExcept_bind]
  refine contained_of_todoPath (UsesTodos.complete.not_leaks ·) fun root opened => ?_
  rw [outcome_get_bind, outcome_ofExcept_bind]
  refine .bind ((Todo.contained_itemsAfterCompleting _ _ _).congr
    (UsesTodos.complete.upsets_iff nofun opened)) ?_
  exact fun items e failed => saveTodos_error failed

/-- Whatever a tool is run with, on whatever files and index, it answers, fails with a fault, or lets one of
its failures through. -/
theorem contained_run (box : Toolbox) (bench : Workbench) (tool : Tool) (parameters : Parameters) :
    Contained (box.Leaks bench tool parameters) ((box.run tool parameters).outcome bench) := by
  rw [run, outcome_get_bind]
  cases parameters with
  | readFile path first last => exact contained_readFile tool path first last
  | writeFile path content => exact contained_writeFile tool path content
  | listDir path => exact contained_listDir tool path
  | findByName pattern => exact contained_findByName tool pattern
  | search request => exact contained_search tool request
  | searchCodebase query => exact contained_searchCodebase tool query
  | none =>
    dsimp only
    split
    · next same =>
      subst same
      exact contained_listTodos
    · next other => exact contained_indexFiles other
  | todoAdd content => exact contained_addTodo tool content
  | todoComplete id => exact contained_completeTodo tool id

/-- The failures that the tool of a call lets through. -/
def LetsThrough (box : Toolbox) (bench : Workbench) (call : ToolCall) (e : Failure) : Prop :=
  ∃ tool parameters, Parameters.ofCall call = .ok (tool, parameters) ∧ box.Leaks bench tool parameters e

/-- What is let through is no fault, and comes of four things only. -/
theorem Leaks.origin {tool : Tool} {parameters : Parameters} {e : Failure}
    (leak : box.Leaks bench tool parameters e) :
    e = .breakdown .tooLarge ∨ e = .breakdown .tooNested ∨ (∃ p, e = .file (.refused .nameTooLong p)) ∨
      ∃ b, e = .breakdown b ∧ bench.files.root.BrokenRules b := by
  cases leak with
  | nameCount | lineCount => exact .inl rfl
  | nameWalk _ _ _ broken | lineWalk _ _ _ _ broken | indexWalk _ _ _ broken =>
    exact .inr (.inr (.inr ⟨_, rfl, Walk.failsBy_filesFrom _ _ _ _ broken⟩))
  | todoPath _ _ lost =>
    unfold FileSystem.node? at lost
    split at lost <;> cases lost
    exact .inr (.inr (.inl ⟨_, rfl⟩))
  | todoDocument => exact .inr (.inl rfl)

theorem Leaks.not_fault {tool : Tool} {parameters : Parameters} {e : Failure}
    (leak : box.Leaks bench tool parameters e) : e.fault? = none := by
  cases leak <;> rfl

theorem ofTool_ofCall {call : ToolCall} {f : Fault} (refused : Parameters.ofCall call = .error f) :
    Failure.OfTool (.fault f) := by
  unfold Parameters.ofCall at refused
  split at refused
  · cases refused
    exact ⟨_, rfl, rfl⟩
  · split at refused <;> cases refused
    exact ⟨_, rfl, rfl⟩

theorem ofTool_ascribe (name : String) {e : Failure} (fault : e.OfTool) : (ascribe name e).OfTool := by
  obtain ⟨f, rfl, kind⟩ := fault
  refine ⟨f.raisedBy name, rfl, ?_⟩
  unfold Fault.raisedBy
  split <;> exact kind

theorem ascribe_of_not_fault (name : String) {e : Failure} (other : e.fault? = none) : ascribe name e = e := by
  cases e with
  | fault => cases other
  | _ => rfl

theorem contained_execute (box : Toolbox) (bench : Workbench) (call : ToolCall) :
    Contained (box.LetsThrough bench call) ((box.execute call).outcome bench) := by
  rw [execute, outcome_ofExcept_bind]
  cases typed : Parameters.ofCall call with
  | error f =>
    refine .of_ofTool ?_ fun e failed => ?_
    · rintro e ⟨tool, parameters, typed', -⟩
      rw [typed] at typed'
      cases typed'
    · cases failed
      exact ofTool_ofCall typed
  | ok found =>
    obtain ⟨tool, parameters⟩ := found
    have ran := contained_run box bench tool parameters
    change Contained _ (ToolAction.outcome (tryCatch _ _) _)
    rw [outcome_rethrow]
    constructor
    · rintro e ⟨tool', parameters', typed', leak⟩
      rw [typed] at typed'
      cases typed'
      rw [ran.leaked e leak]
      exact congrArg Except.error (ascribe_of_not_fault _ leak.not_fault)
    · intro e failed
      obtain ⟨cause, broken, rfl⟩ := eq_error_of_mapError failed
      rcases ran.answered cause broken with fault | leak
      · exact .inl (ofTool_ascribe _ fault)
      · rw [ascribe_of_not_fault _ leak.not_fault]
        exact .inr ⟨tool, parameters, typed, leak⟩

end actions

/-- The run of a call by the tools. -/
def runOf (box : Toolbox) (bench : Workbench) (id : String) (call : ToolCall) : CallRun :=
  ⟨id, call, ((box.execute call).run.run bench).1⟩

theorem LetsThrough.origin {call : ToolCall} {e : Failure} (through : box.LetsThrough bench call e) :
    e.fault? = none ∧
      (e = .breakdown .tooLarge ∨ e = .breakdown .tooNested ∨ (∃ p, e = .file (.refused .nameTooLong p)) ∨
        ∃ b, e = .breakdown b ∧ bench.files.root.BrokenRules b) := by
  obtain ⟨tool, parameters, -, leak⟩ := through
  exact ⟨leak.not_fault, leak.origin⟩

theorem runOf_outcome (id : String) {call : ToolCall} {e : Failure} (through : box.LetsThrough bench call e) :
    (box.runOf bench id call).outcome = .error e := (contained_execute box bench call).leaked e through

theorem runOf_answered_iff {id : String} {call : ToolCall} :
    (box.runOf bench id call).Answered ↔ ¬ ∃ e, box.LetsThrough bench call e := by
  constructor
  · rintro (⟨text, had⟩ | ⟨f, fault, -⟩) ⟨e, through⟩
    · rw [runOf_outcome _ through] at had
      cases had
    · rw [runOf_outcome _ through] at fault
      cases fault
      exact absurd through.origin.1 nofun
  · intro contained
    cases ran : (box.runOf bench id call).outcome with
    | ok text => exact .inl ⟨text, ran⟩
    | error e =>
      rcases (contained_execute box bench call).answered e ran with ⟨f, rfl, kind⟩ | through
      · exact .inr ⟨f, ran, kind⟩
      · exact absurd ⟨e, through⟩ contained

theorem files_bare_mark : Walk.files { root := [], skipped := [".cognitive"] }
    (.folder [(".gitignore", .file [33] 0)]) = .error .outOfRange := by decide +kernel

end Toolbox
end CodeAgent
