import CodeAgent.Proofs.Agent.TodoHistory

/-! Completing a todo item in any document that holds a list, also one that was not written by the tools: its items can be
any values, in any form, and several can have one id. Texts are sequences of characters: what is read for the escape of
half a surrogate pair is the replacement character. -/
namespace CodeAgent
open CodeAgent.Text CodeAgent.Action

namespace Todo
variable {id : String} {item : Json}

/-- What completing an id makes of an item: nothing, unless it is an object with that id; then its status is completed,
every other member is as it was, and the members keep their order. -/
inductive Completed (id : String) : Json → Json → Prop
  | other {item : Json} (elsewhere : item.get? "id" ≠ some (.str id)) : Completed id item item
  | own {fields fields' : Json.Fields} (named : OrderedMap.get? fields "id" = some (.str id))
      (status : OrderedMap.get? fields' "status" = some (.str "completed"))
      (others : ∀ key, key ≠ "status" → OrderedMap.get? fields' key = OrderedMap.get? fields key)
      (order : OrderedMap.keys fields' = if "status" ∈ OrderedMap.keys fields then OrderedMap.keys fields
        else OrderedMap.keys fields ++ ["status"]) : Completed id (.obj fields) (.obj fields')

theorem hasId_iff : hasId id item = true ↔ item.get? "id" = some (.str id) := by
  unfold hasId
  split
  · next s found =>
    rw [found]
    simp
  · next other =>
    refine iff_of_false Bool.false_ne_true fun found => other id found

theorem any_hasId_iff {items : List Json} :
    items.any (hasId id) = true ↔ ∃ item ∈ items, item.get? "id" = some (.str id) := by
  rw [List.any_eq_true]
  exact exists_congr fun item => and_congr_right fun _ => hasId_iff

theorem complete_of_other (elsewhere : item.get? "id" ≠ some (.str id)) : complete id item = item := by
  unfold complete
  split
  · exact if_neg (mt hasId_iff.mp elsewhere)
  · rfl

theorem complete_of_own {fields : Json.Fields} (named : OrderedMap.get? fields "id" = some (.str id)) :
    complete id (.obj fields) = .obj (OrderedMap.put "status" (.str "completed") fields) := by
  have own : hasId id (.obj fields) = true := hasId_iff.mpr named
  exact if_pos own

theorem exists_fields_of_own (named : item.get? "id" = some (.str id)) :
    ∃ fields, item = .obj fields ∧ OrderedMap.get? fields "id" = some (.str id) := by
  cases item with
  | obj fields => exact ⟨fields, rfl, named⟩
  | _ => cases named

/-- An item that is completed keeps its id. -/
theorem get?_id_complete (id : String) (item : Json) : (complete id item).get? "id" = item.get? "id" := by
  by_cases named : item.get? "id" = some (.str id)
  · obtain ⟨fields, rfl, own⟩ := exists_fields_of_own named
    rw [complete_of_own own]
    change OrderedMap.get? (OrderedMap.put _ _ _) _ = OrderedMap.get? _ _
    rw [OrderedMap.get?_put, if_neg (by decide)]
  · rw [complete_of_other named]

theorem completed_complete (id : String) (item : Json) : Completed id item (complete id item) := by
  by_cases named : item.get? "id" = some (.str id)
  · obtain ⟨fields, rfl, own⟩ := exists_fields_of_own named
    rw [complete_of_own own]
    refine .own own ?_ (fun key other => ?_) ?_
    · rw [OrderedMap.get?_put, if_pos rfl]
    · rw [OrderedMap.get?_put, if_neg other.symm]
    · split
      · next known => exact OrderedMap.keys_put_of_mem known _
      · next new => rw [OrderedMap.put_of_notMem new, OrderedMap.keys, List.map_append]; rfl
  · rw [complete_of_other named]
    exact .other named

/-- An item is completed once and for all. -/
theorem complete_complete (id : String) (item : Json) : complete id (complete id item) = complete id item := by
  by_cases named : item.get? "id" = some (.str id)
  · obtain ⟨fields, rfl, own⟩ := exists_fields_of_own named
    have still : OrderedMap.get? (OrderedMap.put "status" (.str "completed") fields) "id" = some (.str id) := by
      rw [OrderedMap.get?_put, if_neg (by decide), own]
    rw [complete_of_own own, complete_of_own still, OrderedMap.put_put]
  · rw [complete_of_other named, complete_of_other named]

/-- Completing an item does not take it over the limits of a reader. -/
theorem fits_complete {depth : Nat} (fits : Json.Fits depth item) : Json.Fits depth (complete id item) := by
  by_cases named : item.get? "id" = some (.str id)
  · obtain ⟨fields, rfl, own⟩ := exists_fields_of_own named
    rw [complete_of_own own]
    cases fits with
    | obj distinct all =>
      refine .obj (OrderedMap.nodup_keys_put distinct _ _) fun m mem => ?_
      obtain same | mem := OrderedMap.mem_of_mem_put mem
      · rw [same]
        exact .str _ _
      · exact all m mem
  · rwa [complete_of_other named]

theorem fits_map_complete {items : List Json} (fits : Json.Fits Json.maxDepth (.arr items)) (id : String) :
    Json.Fits Json.maxDepth (.arr (items.map (complete id))) := by
  cases fits with
  | arr all =>
    refine .arr fun v mem => ?_
    obtain ⟨item, own, rfl⟩ := List.mem_map.mp mem
    exact fits_complete (all item own)

section document
variable {fs : FileSystem} {p : Path} {items : List Json}

/-- A document that holds a list, in whatever form, is a file under its path and its items fit. -/
theorem exists_look_of_document {text : String} (there : document? fs p = some text)
    (array : Json.read text = .ok (.arr items)) :
    (∃ content place modified, fs.look p = .ok ⟨place, some (.file content modified)⟩) ∧
      load fs p = .ok items ∧ Json.Fits Json.maxDepth (.arr items) := by
  have read : fs.readValidText p = .ok text := eq_ok_of_toOption there
  refine ⟨?_, ?_, Json.fits_readChars? array⟩
  · cases bytes : fs.readBytes p with
    | error e =>
      rw [FileSystem.readValidText, bytes] at read
      cases read
    | ok content => exact ⟨content, FileSystem.look_of_readBytes bytes⟩
  · rw [load, read]
    change itemsIn text = _
    rw [itemsIn, array]

end document
end Todo

namespace Toolbox
open Todo
variable {box : Toolbox} {bench : Workbench} {root : Path} {id : String}

/-- A file in the place of the todo document is written anew. -/
theorem exec_saveTodos_again {content : Bytes} {place : Place} {modified : Int}
    (found : bench.files.look (box.todoDocument root) = .ok ⟨place, some (.file content modified)⟩)
    (items : List Json) (answer : String) :
    ∃ after, exec (do saveTodos .todoComplete (box.todoDocument root) items; return answer) bench = (.ok answer, after) ∧
      after.files.look (box.todoDocument root) =
        .ok ⟨place, some (.file (utf8Bytes (documentText items)) bench.files.now)⟩ := by
  obtain ⟨fs', done, found'⟩ : ∃ fs', exec (save (box.todoDocument root) items) bench.files = (.ok (), fs') ∧ _ :=
    FileAction.writeFile_again (FileSystem.withinLimits_of_look found) (box.names_todoDocument root) found
  refine ⟨{ bench with files := fs' }, ?_, found'⟩
  rw [exec_bind, saveTodos, ToolAction.exec_onFiles, done]
  rfl

section completed
variable (opened : box.workspace = some root) {call : ToolCall}
  (asked : Parameters.ofCall call = .ok (.todoComplete, .todoComplete id)) {items : List Json}
include opened asked

theorem exec_complete_unknown {node : Node} (there : bench.files.node? (box.todoDocument root) = .ok (some node))
    (loaded : load bench.files (box.todoDocument root) = .ok items)
    (unknown : ¬ ∃ item ∈ items, item.get? "id" = some (.str id)) :
    exec (box.execute call) bench =
      (.error (.fault (Fault.notFound "todo_complete" ("Todo not found: " ++ id))), bench) := by
  have failed : exec (box.run .todoComplete (.todoComplete id)) bench =
      (.error (.fault (Fault.notFound "todo_complete" ("Todo not found: " ++ id))), bench) := by
    change exec (box.completeTodo id) bench = _
    rw [exec_completeTodo opened, itemsAfterCompleting_there there, loaded]
    dsimp only
    rw [if_neg (mt any_hasId_iff.mp unknown)]
  rw [exec_execute box bench asked, failed]
  rfl

theorem exec_complete_known {content : Bytes} {place : Place} {modified : Int}
    (found : bench.files.look (box.todoDocument root) = .ok ⟨place, some (.file content modified)⟩)
    (loaded : load bench.files (box.todoDocument root) = .ok items)
    (known : ∃ item ∈ items, item.get? "id" = some (.str id)) :
    ∃ after, exec (box.execute call) bench = (.ok ("Completed todo: " ++ id), after) ∧
      after.files.look (box.todoDocument root) =
        .ok ⟨place, some (.file (utf8Bytes (documentText (items.map (complete id)))) bench.files.now)⟩ := by
  obtain ⟨after, done, found'⟩ := exec_saveTodos_again found (items.map (complete id)) ("Completed todo: " ++ id)
  have answered : exec (box.run .todoComplete (.todoComplete id)) bench = (.ok ("Completed todo: " ++ id), after) := by
    change exec (box.completeTodo id) bench = _
    rw [exec_completeTodo opened, itemsAfterCompleting_there (FileSystem.node?_of_look found), loaded]
    dsimp only
    rw [if_pos (any_hasId_iff.mpr known)]
    exact done
  refine ⟨after, ?_, found'⟩
  rw [exec_execute box bench asked, answered]
  rfl

end completed

end Toolbox
end CodeAgent
