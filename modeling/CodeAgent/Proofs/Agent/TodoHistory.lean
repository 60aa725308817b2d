import CodeAgent.Symbols.FileOutline
import CodeAgent.Proofs.Agent.Identifiers
import CodeAgent.Proofs.Agent.ToolChanges
import CodeAgent.Proofs.TodoDocument

/-! A todo list over a whole history of calls: the document holds what was added and completed so far. -/
namespace CodeAgent
open CodeAgent.Text CodeAgent.Action

namespace Todo

/-- What came of a call: what it asked for, if that could be told, the identifier that a new item would be given, and
whether the call was answered. -/
structure Step where
  asked : Option Parameters
  identifier : String
  answered : Bool

/-- A step completed the items of an id. -/
def Step.completes (id : String) (s : Step) : Bool := s.answered && s.asked = some (.todoComplete id)

/-- The items that some steps leave: one for each that was added, completed if a later step did so. -/
def itemsOf : List Step → List Item
  | [] => []
  | s :: later => match s.asked, s.answered with
    | some (.todoAdd content), true =>
      ⟨s.identifier, content, later.any (Step.completes s.identifier)⟩ :: itemsOf later
    | _, _ => itemsOf later

theorem itemsOf_cons_append (s : Step) (later : List Step) :
    itemsOf (s :: later) = (itemsOf [s]).map (fun item =>
      { item with completed := later.any (Step.completes item.id) }) ++ itemsOf later := by
  rw [itemsOf, itemsOf]
  split <;> rfl

/-- One more step completes items, or adds one. -/
theorem itemsOf_concat (steps : List Step) (s : Step) :
    itemsOf (steps ++ [s]) = (itemsOf steps).map (fun item =>
      { item with completed := item.completed || s.completes item.id }) ++ itemsOf [s] := by
  induction steps with
  | nil => rfl
  | cons first later ih =>
    rw [List.cons_append, itemsOf_cons_append, itemsOf_cons_append first later, ih, List.map_append, List.map_map,
      List.append_assoc]
    congr 1
    refine List.map_congr_left fun item _ => ?_
    simp

theorem itemsOf_concat_of_idle {s : Step} (steps : List Step) (none : itemsOf [s] = [])
    (idle : ∀ id, s.completes id = false) : itemsOf (steps ++ [s]) = itemsOf steps := by
  rw [itemsOf_concat, none, List.append_nil]
  refine (List.map_congr_left fun item _ => ?_).trans (List.map_id _)
  rw [idle, Bool.or_false]
  rfl

theorem itemsOf_concat_of_unanswered {s : Step} (steps : List Step) (unanswered : s.answered = false) :
    itemsOf (steps ++ [s]) = itemsOf steps := by
  refine itemsOf_concat_of_idle steps ?_ fun id => by rw [Step.completes, unanswered, Bool.false_and]
  rw [itemsOf]
  split
  · next answered =>
    rw [unanswered] at answered
    cases answered
  · rfl

theorem itemsOf_concat_added (steps : List Step) (id content : String) :
    itemsOf (steps ++ [⟨some (.todoAdd content), id, true⟩]) = itemsOf steps ++ [⟨id, content, false⟩] := by
  rw [itemsOf_concat]
  refine congrArg (· ++ _) ((List.map_congr_left fun item _ => ?_).trans (List.map_id _))
  simp [Step.completes]

theorem itemsOf_concat_completed (steps : List Step) (id other : String) :
    itemsOf (steps ++ [⟨some (.todoComplete id), other, true⟩]) = (itemsOf steps).map (Item.complete id) := by
  rw [itemsOf_concat]
  refine (List.append_nil _).trans (List.map_congr_left fun item _ => ?_)
  by_cases own : item.id = id
  · simp [Item.complete, Step.completes, own]
  · simp [Item.complete, Step.completes, own, Ne.symm own]

end Todo

namespace Toolbox
open Todo
variable {box : Toolbox} {bench : Workbench} {root : Path}

/-- Where the todo document of a workspace is kept. -/
def todoDocument (box : Toolbox) (root : Path) : Path := (box.settings.statePaths root).todos

theorem names_todoDocument (box : Toolbox) (root : Path) : (box.todoDocument root).names ≠ [] := by
  simp [todoDocument, StatePaths.todos, Path.child]

/-- What writing the items comes to, for a tool that answers if it succeeds. -/
theorem exec_saveTodos (tool : Tool) (p : Path) (items : List Json) (answer : String) (bench : Workbench) :
    (exec (do saveTodos tool p items; return answer) bench).1.isOk = (exec (save p items) bench.files).1.isOk ∧
      (exec (do saveTodos tool p items; return answer) bench).2 =
        { bench with files := (exec (save p items) bench.files).2 } := by
  rw [exec_bind, saveTodos, ToolAction.exec_onFiles]
  rcases exec (save p items) bench.files with ⟨_ | _, files⟩ <;> exact ⟨rfl, rfl⟩

section opened
variable (opened : box.workspace = some root)
include opened

theorem todoPath_of_opened (tool : Tool) : box.todoPath tool = .ok (box.todoDocument root) := by
  rw [todoPath, needWorkspace, opened]
  rfl

theorem exec_addTodo {items : List Json} (content : String)
    (loaded : itemsForAdding bench.files (box.todoDocument root) = .ok items) :
    exec (box.addTodo content) bench =
      exec (do
        saveTodos .todoAdd (box.todoDocument root)
          (items ++ [newItem (identifier (bench.identifiers + 1)) content])
        return "Added todo: " ++ content) { bench with identifiers := bench.identifiers + 1 } := by
  rw [addTodo, todoPath_of_opened opened, exec_bind, ToolAction.exec_ofExcept]
  change exec (get >>= _) bench = _
  rw [exec_bind, exec_get]
  dsimp only
  rw [exec_bind, ToolAction.exec_ofExcept, loaded]
  dsimp only
  rw [ToolAction.exec_newIdentifier_bind]

theorem exec_completeTodo (id : String) :
    exec (box.completeTodo id) bench =
      match itemsAfterCompleting bench.files (box.todoDocument root) id with
      | .ok items => exec (do
          saveTodos .todoComplete (box.todoDocument root) items
          return "Completed todo: " ++ id) bench
      | .error e => (.error e, bench) := by
  rw [completeTodo, todoPath_of_opened opened, exec_bind, ToolAction.exec_ofExcept]
  change exec (get >>= _) bench = _
  rw [exec_bind, exec_get]
  dsimp only
  rw [exec_bind, ToolAction.exec_ofExcept]
  cases itemsAfterCompleting bench.files (box.todoDocument root) id <;> rfl

theorem listTodos_eq (fs : FileSystem) :
    box.listTodos fs = listing fs (box.todoDocument root) := by
  rw [listTodos, todoPath_of_opened opened]
  rfl

/-- A document whose path cannot be looked up is not listed. -/
theorem exec_list_of_lost {call : ToolCall} (asked : Parameters.ofCall call = .ok (.todoList, .none)) {e : FileError}
    (lost : bench.files.node? (box.todoDocument root) = .error e) :
    exec (box.execute call) bench = (.error (.file e), bench) := by
  rw [exec_execute box bench asked]
  change ((box.listTodos bench.files).mapError _, bench) = _
  rw [listTodos_eq opened, listing, FileSystem.isThere, lost]
  rfl

end opened

/-- The tools that work on the todo list. -/
def todoTools : List Tool := [.todoAdd, .todoComplete, .todoList]

/-- A call of a todo tool is refused, or asks for one of three things. -/
theorem ofCall_todo_cases {call : ToolCall} (named : call.name ∈ todoTools.map Tool.name) :
    (∃ f, Parameters.ofCall call = .error f) ∨
      (∃ content, Parameters.ofCall call = .ok (.todoAdd, .todoAdd content)) ∨
      (∃ id, Parameters.ofCall call = .ok (.todoComplete, .todoComplete id)) ∨
      Parameters.ofCall call = .ok (.todoList, .none) := by
  obtain ⟨tool, todo, name⟩ := List.mem_map.mp named
  rw [Parameters.ofCall, ← name, Tool.ofName?_name]
  dsimp only
  split
  · next parameters typed =>
    refine .inr ?_
    have shape := Parameters.of_read typed
    simp only [todoTools, List.mem_cons, List.not_mem_nil, or_false] at todo
    obtain rfl | rfl | rfl := todo
    · cases shape with
      | todoAdd content => exact .inl ⟨content, rfl⟩
    · cases shape with
      | todoComplete id => exact .inr (.inl ⟨id, rfl⟩)
    · cases shape with
      | todoList => exact .inr (.inr rfl)
  · exact .inl ⟨_, rfl⟩

/-- What comes of a call. -/
def stepOf (box : Toolbox) (call : ToolCall) (bench : Workbench) : Step where
  asked := (Parameters.ofCall call).toOption.map (·.2)
  identifier := identifier (bench.identifiers + 1)
  answered := (exec (box.execute call) bench).1.isOk

theorem stepOf_typed {call : ToolCall} {tool : Tool} {parameters : Parameters}
    (typed : Parameters.ofCall call = .ok (tool, parameters)) :
    box.stepOf call bench =
      ⟨some parameters, identifier (bench.identifiers + 1), (exec (box.run tool parameters) bench).1.isOk⟩ := by
  rw [stepOf, typed, exec_execute box bench typed]
  cases (exec (box.run tool parameters) bench).1 <;> rfl

/-- Calls one after the other: what came of each, and what they leave. -/
def play (box : Toolbox) : List ToolCall → Workbench → List Step × Workbench
  | [], bench => ([], bench)
  | call :: calls, bench =>
    let (steps, after) := box.play calls (exec (box.execute call) bench).2
    (box.stepOf call bench :: steps, after)

/-- The document holds what some steps left, each item under an identifier of its own. -/
structure Kept (p : Path) (steps : List Step) (bench : Workbench) : Prop where
  clear : Clear bench.files p
  holds : Holds bench.files p (itemsOf steps)
  given : ∀ item ∈ itemsOf steps, ∃ n ≤ bench.identifiers, item.id = identifier n
  distinct : ((itemsOf steps).map Item.id).Nodup

section kept
variable (opened : box.workspace = some root) (limits : (box.todoDocument root).WithinLimits)
variable {steps : List Step} (kept : Kept (box.todoDocument root) steps bench)
include opened limits kept

/-- An item is added, or it cannot be written, so that there is no document still. -/
theorem Kept.add (content : String) :
    let new : Item := ⟨identifier (bench.identifiers + 1), content, false⟩
    let after := (exec (box.addTodo content) bench).2
    Clear after.files (box.todoDocument root) ∧ after.identifiers = bench.identifiers + 1 ∧
      ((exec (box.addTodo content) bench).1.isOk = true ∧
          Holds after.files (box.todoDocument root) (itemsOf steps ++ [new]) ∨
        (exec (box.addTodo content) bench).1.isOk = false ∧
          Holds after.files (box.todoDocument root) (itemsOf steps)) := by
  intro new
  have loaded := kept.holds.itemsForAdding_eq limits
  have more : (itemsOf steps).map Item.toJson ++ [newItem (identifier (bench.identifiers + 1)) content] =
      (itemsOf steps ++ [new]).map Item.toJson := by
    rw [List.map_append, newItem_eq_toJson]
    rfl
  have saved := exec_saveTodos .todoAdd (box.todoDocument root) ((itemsOf steps ++ [new]).map Item.toJson)
    ("Added todo: " ++ content) { bench with identifiers := bench.identifiers + 1 }
  have clear := kept.clear.after ((itemsOf steps ++ [new]).map Item.toJson)
  have written := kept.holds.save limits kept.clear (box.names_todoDocument root) (itemsOf steps ++ [new]) (by simp)
  rw [exec_addTodo opened content loaded, more]
  dsimp only
  rw [saved.1, saved.2]
  dsimp only
  refine ⟨clear, rfl, ?_⟩
  obtain ⟨fs', done, holds⟩ | ⟨e, fs', failed, none, holds⟩ := written
  · rw [done]
    exact .inl ⟨rfl, holds⟩
  · rw [failed, none]
    exact .inr ⟨rfl, holds⟩

/-- The items of an id are completed if there are any. -/
theorem Kept.complete (id : String) :
    let after := (exec (box.completeTodo id) bench).2
    Clear after.files (box.todoDocument root) ∧ after.identifiers = bench.identifiers ∧
      ((exec (box.completeTodo id) bench).1.isOk = true ∧ (∃ item ∈ itemsOf steps, item.id = id) ∧
          Holds after.files (box.todoDocument root) ((itemsOf steps).map (Item.complete id)) ∨
        (exec (box.completeTodo id) bench).1.isOk = false ∧ (¬ ∃ item ∈ itemsOf steps, item.id = id) ∧
          Holds after.files (box.todoDocument root) (itemsOf steps)) := by
  have known : (itemsOf steps).any (·.id == id) = true ↔ ∃ item ∈ itemsOf steps, item.id = id := by simp
  rw [exec_completeTodo opened, kept.holds.itemsAfterCompleting_eq limits]
  by_cases there : (itemsOf steps).any (·.id == id)
  · have filled : itemsOf steps ≠ [] := fun none => by rw [none] at there; cases there
    have completed : (itemsOf steps).map (Item.complete id) ≠ [] := by simpa using filled
    have saved := exec_saveTodos .todoComplete (box.todoDocument root)
      (((itemsOf steps).map (Item.complete id)).map Item.toJson) ("Completed todo: " ++ id) bench
    have clear := kept.clear.after (((itemsOf steps).map (Item.complete id)).map Item.toJson)
    have written := kept.holds.save limits kept.clear (box.names_todoDocument root) _ completed
    rw [if_pos there]
    dsimp only
    rw [saved.1, saved.2]
    dsimp only
    refine ⟨clear, rfl, .inl ?_⟩
    obtain ⟨fs', done, holds⟩ | ⟨e, fs', failed, none, holds⟩ := written
    · rw [done]
      exact ⟨rfl, known.mp there, holds⟩
    · exact absurd none filled
  · rw [if_neg there]
    exact ⟨kept.clear, rfl, .inr ⟨rfl, mt known.mpr there, kept.holds⟩⟩

/-- One more call keeps what the steps are said to leave. -/
theorem Kept.step {call : ToolCall} (named : call.name ∈ todoTools.map Tool.name) :
    Kept (box.todoDocument root) (steps ++ [box.stepOf call bench]) (exec (box.execute call) bench).2 := by
  have idle {after : Workbench} {s : Step} (same : itemsOf (steps ++ [s]) = itemsOf steps)
      (clear : Clear after.files (box.todoDocument root))
      (holds : Holds after.files (box.todoDocument root) (itemsOf steps))
      (counted : bench.identifiers ≤ after.identifiers) :
      Kept (box.todoDocument root) (steps ++ [s]) after := by
    refine ⟨clear, same ▸ holds, fun item mem => ?_, same ▸ kept.distinct⟩
    obtain ⟨n, early, id⟩ := kept.given item (same ▸ mem)
    exact ⟨n, early.trans counted, id⟩
  obtain ⟨f, asked⟩ | ⟨content, asked⟩ | ⟨id, asked⟩ | asked := ofCall_todo_cases named
  · rw [stepOf, asked, exec_execute_refused box bench asked]
    exact idle (itemsOf_concat_of_unanswered steps rfl) kept.clear kept.holds (Nat.le_refl _)
  · rw [stepOf_typed asked, exec_execute box bench asked]
    change Kept _ (steps ++ [⟨_, _, (exec (box.addTodo content) bench).1.isOk⟩]) (exec (box.addTodo content) bench).2
    obtain ⟨clear, counted, ⟨done, holds⟩ | ⟨failed, holds⟩⟩ := kept.add opened limits content
    · rw [done]
      refine ⟨clear, ?_, ?_, ?_⟩
      · rw [itemsOf_concat_added]
        exact holds
      · rw [itemsOf_concat_added]
        refine List.forall_mem_append.mpr ⟨fun item mem => ?_, List.forall_mem_singleton.mpr ?_⟩
        · obtain ⟨n, early, id⟩ := kept.given item mem
          exact ⟨n, early.trans (counted ▸ Nat.le_succ _), id⟩
        · exact ⟨bench.identifiers + 1, counted.ge, rfl⟩
      · rw [itemsOf_concat_added, List.map_append, List.nodup_append]
        refine ⟨kept.distinct, List.nodup_singleton _, fun id old new mem same => ?_⟩
        obtain ⟨item, mem', rfl⟩ := List.mem_map.mp old
        obtain ⟨n, early, number⟩ := kept.given item mem'
        rw [List.mem_singleton.mp mem, number] at same
        have number : n = bench.identifiers + 1 := identifier_injective same
        omega
    · rw [failed]
      exact idle (itemsOf_concat_of_unanswered steps rfl) clear holds (counted ▸ Nat.le_succ _)
  · rw [stepOf_typed asked, exec_execute box bench asked]
    change Kept _ (steps ++ [⟨_, _, (exec (box.completeTodo id) bench).1.isOk⟩]) (exec (box.completeTodo id) bench).2
    obtain ⟨clear, counted, ⟨done, -, holds⟩ | ⟨failed, -, holds⟩⟩ := kept.complete opened limits id
    · have ids : ((itemsOf steps).map (Item.complete id)).map Item.id = (itemsOf steps).map Item.id := by
        rw [List.map_map]
        refine List.map_congr_left fun item _ => ?_
        rw [Function.comp, Item.complete]
        split <;> rfl
      rw [done]
      refine ⟨clear, ?_, ?_, ?_⟩
      · rw [itemsOf_concat_completed]
        exact holds
      · rw [itemsOf_concat_completed]
        intro item mem
        have old : item.id ∈ (itemsOf steps).map Item.id := ids ▸ List.mem_map_of_mem mem
        obtain ⟨before, mem', same⟩ := List.mem_map.mp old
        rw [counted, ← same]
        exact kept.given before mem'
      · rw [itemsOf_concat_completed, ids]
        exact kept.distinct
    · rw [failed]
      exact idle (itemsOf_concat_of_unanswered steps rfl) clear holds counted.ge
  · rw [stepOf_typed asked, exec_execute box bench asked]
    have other : itemsOf (steps ++ [⟨some .none, identifier (bench.identifiers + 1),
        (exec (box.run .todoList .none) bench).1.isOk⟩]) = itemsOf steps :=
      itemsOf_concat_of_idle steps rfl fun id => by simp [Step.completes]
    exact idle other kept.clear kept.holds (Nat.le_refl _)

end kept

/-- A document with the items that some steps left, and what the todo tools make of it: to complete an id succeeds where
an item has it, a listing shows the document, and a call that fails leaves it as it was. -/
structure TodoList (box : Toolbox) (p : Path) (steps : List Step) (bench : Workbench) : Prop where
  absent : document? bench.files p = none ↔ itemsOf steps = []
  document : ∀ text, document? bench.files p = some text →
    Json.read text = .ok (.arr ((itemsOf steps).map Item.toJson))
  distinct : ((itemsOf steps).map Item.id).Nodup
  completes : ∀ call id, Parameters.ofCall call = .ok (.todoComplete, .todoComplete id) →
    ((exec (box.execute call) bench).1.isOk = true ↔ ∃ item ∈ itemsOf steps, item.id = id)
  lists : ∀ call, Parameters.ofCall call = .ok (.todoList, .none) →
    exec (box.execute call) bench = (.ok ((document? bench.files p).getD "[]"), bench)
  fails : ∀ call, call.name ∈ todoTools.map Tool.name → (exec (box.execute call) bench).1.isOk = false →
    document? (exec (box.execute call) bench).2.files p = document? bench.files p

section kept
variable (opened : box.workspace = some root) (limits : (box.todoDocument root).WithinLimits)
variable {steps : List Step} (kept : Kept (box.todoDocument root) steps bench)
include opened limits kept

/-- Calls one after the other keep what their steps are said to leave. -/
theorem Kept.play {calls : List ToolCall} (named : ∀ call ∈ calls, call.name ∈ todoTools.map Tool.name) :
    Kept (box.todoDocument root) (steps ++ (box.play calls bench).1) (box.play calls bench).2 := by
  induction calls generalizing steps bench with
  | nil =>
    rw [Toolbox.play, List.append_nil]
    exact kept
  | cons call calls ih =>
    obtain ⟨first, later⟩ := List.forall_mem_cons.mp named
    have next := ih (kept.step opened limits first) later
    rw [List.append_assoc, List.singleton_append] at next
    exact next

theorem Kept.todoList : TodoList box (box.todoDocument root) steps bench := by
  have document := kept.holds.document?_eq limits
  refine ⟨?_, fun text there => ?_, kept.distinct, fun call id asked => ?_, fun call asked => ?_,
    fun call named failed => ?_⟩
  · rw [document]
    split <;> simp_all
  · rw [document] at there
    split at there
    · cases there
    · cases there
      exact Json.read_write Json.spaced_pretty (fits_items _)
  · have answered : (exec (box.execute call) bench).1.isOk = (exec (box.completeTodo id) bench).1.isOk := by
      rw [exec_execute box bench asked]
      change ((exec (box.completeTodo id) bench).1.mapError _).isOk = _
      cases (exec (box.completeTodo id) bench).1 <;> rfl
    rw [answered]
    obtain ⟨-, -, ⟨done, there, -⟩ | ⟨failed, none, -⟩⟩ := kept.complete opened limits id
    · exact iff_of_true done there
    · exact iff_of_false (by rw [failed]; exact Bool.false_ne_true) none
  · rw [exec_execute box bench asked]
    change ((box.listTodos bench.files).mapError _, bench) = _
    rw [listTodos_eq opened, kept.holds.listing_eq limits]
    rfl
  · have next := kept.step opened limits named
    have same : itemsOf (steps ++ [box.stepOf call bench]) = itemsOf steps :=
      itemsOf_concat_of_unanswered steps failed
    rw [next.holds.document?_eq limits, document, same]

end kept

/-- A path is lost at a name that is too long. -/
theorem node?_below_long_name {name : String} (long : FileSystem.maxNameBytes < name.utf8ByteSize)
    (plain : '\x00' ∉ name.toList) (short : name.utf8ByteSize ≤ 4000) :
    FileSystem.node? { root := .folder [("w", .folder [])] } ⟨1, ["w", name, "todos.json"]⟩ =
      .error (.refused .nameTooLong ⟨1, ["w", name, "todos.json"]⟩) := by
  have proper : (Path.mk 1 ["w", name, "todos.json"]).hasNull = false := by simpa [Path.hasNull] using plain
  have text : (Path.mk 1 ["w", name, "todos.json"]).text = "/w/" ++ name ++ "/todos.json" := by
    apply String.toList_inj.mp
    simp [Path.text]
  have bound : (Path.mk 1 ["w", name, "todos.json"]).text.utf8ByteSize ≤ FileSystem.maxPathBytes := by
    have before : "/w/".utf8ByteSize = 3 := by decide
    have after : "/todos.json".utf8ByteSize = 11 := by decide
    rw [text, String.utf8ByteSize_append, String.utf8ByteSize_append, before, after, FileSystem.maxPathBytes]
    omega
  refine FileSystem.node?_of_tooLong proper bound ?_
  change FileSystem.lookFrom _ [] ["w", name, "todos.json"] = _
  rw [FileSystem.lookFrom_down rfl (by decide +kernel) (by decide) rfl, FileSystem.lookFrom_tooLong rfl long]

end Toolbox
end CodeAgent
