import CodeAgent.Todo
import CodeAgent.Proofs.Action
import CodeAgent.Proofs.Json.RoundTrip
import CodeAgent.Proofs.Text.Utf8
import CodeAgent.Proofs.Workspace.Lookup

/-! Todo documents: what can come of reading one, whatever the file system holds in its place; and items as they are
kept, whose text is read back to them whatever texts they hold. -/
namespace CodeAgent.Todo
variable {fs : FileSystem} {p : Path}

/-- A todo document is nested too deep to be read. -/
def TooDeep (fs : FileSystem) (p : Path) : Prop :=
  ∃ text, fs.readValidText p = .ok text ∧ Json.read text = .error .tooDeep

theorem load_eq_too_deep_iff : load fs p = .error (.notRead .tooDeep) ↔ TooDeep fs p := by
  unfold load TooDeep
  cases fs.readValidText p with
  | error e => exact iff_of_false nofun (by simp)
  | ok text =>
    suffices itemsIn text = .error (.notRead .tooDeep) ↔ Json.read text = .error .tooDeep by
      simpa only [Except.ok.injEq, exists_eq_left']
    unfold itemsIn
    cases Json.read text with
    | error e => simp
    | ok v => cases v <;> simp

theorem ofTool_readFailure (tool : String) (p : Path) {e : DocumentError} (shallow : e ≠ .notRead .tooDeep) :
    (readFailure tool p e).OfTool := by
  unfold readFailure
  split
  · exact ⟨_, rfl, rfl⟩
  · exact absurd rfl shallow
  · exact ⟨_, rfl, rfl⟩
  · exact ⟨_, rfl, rfl⟩

/-- The failures that come of a todo document and are no faults: its path is too long, or it is nested too
deep. -/
inductive Upsets (fs : FileSystem) (p : Path) : Failure → Prop
  | path {e : FileError} : fs.node? p = .error e → Upsets fs p (.file e)
  | document {node : Node} : fs.node? p = .ok (some node) → TooDeep fs p → Upsets fs p (.breakdown .tooNested)

theorem not_upsets {e : Failure} (absent : fs.node? p = .ok none) : ¬ Upsets fs p e := by
  rintro (lost | there)
  · rw [absent] at lost
    cases lost
  · rw [absent] at there
    cases there

theorem contained_lost {α : Type} {e : FileError} (lost : fs.node? p = .error e) :
    Contained (Upsets fs p) (.error (.file e) : Except Failure α) := by
  refine ⟨fun e' upset => ?_, fun e' failed => ?_⟩
  · cases upset with
    | path lost' =>
      rw [lost] at lost'
      cases lost'
      rfl
    | document there =>
      rw [lost] at there
      cases there
  · cases failed
    exact .inr (.path lost)

theorem contained_of_load {α : Type} {node : Node} (there : fs.node? p = .ok (some node)) {x : Except Failure α}
    (deep : TooDeep fs p → x = .error (.breakdown .tooNested))
    (shallow : ∀ e, ¬ TooDeep fs p → x = .error e → e.OfTool) : Contained (Upsets fs p) x := by
  refine ⟨fun e upset => ?_, fun e failed => ?_⟩
  · cases upset with
    | path lost =>
      rw [there] at lost
      cases lost
    | document _ nested => exact deep nested
  · by_cases nested : TooDeep fs p
    · rw [deep nested] at failed
      cases failed
      exact .inr (.document there nested)
    · exact .inl (shallow e nested failed)

theorem itemsForAdding_there {node : Node} (there : fs.node? p = .ok (some node)) :
    itemsForAdding fs p = match load fs p with
      | .ok items => .ok items
      | .error (.file .badText) => .ok []
      | .error (.file e) => .error (readFailure "todo_add" p (.file e))
      | .error (.notRead .tooDeep) => .error (.breakdown .tooNested)
      | .error _ => .ok [] := by
  unfold itemsForAdding FileSystem.isThere
  rw [there]
  rfl

theorem contained_itemsForAdding (fs : FileSystem) (p : Path) : Contained (Upsets fs p) (itemsForAdding fs p) := by
  cases there : fs.node? p with
  | error e =>
    unfold itemsForAdding FileSystem.isThere
    rw [there]
    exact contained_lost there
  | ok node? =>
    cases node? with
    | none =>
      unfold itemsForAdding FileSystem.isThere
      rw [there]
      exact .of_ok [] fun e => not_upsets there
    | some node =>
      rw [itemsForAdding_there there]
      refine contained_of_load there (fun nested => ?_) fun e shallow failed => ?_
      · rw [load_eq_too_deep_iff.mpr nested]
      · rw [← load_eq_too_deep_iff] at shallow
        split at failed
        · cases failed
        · cases failed
        · cases failed
          exact ofTool_readFailure _ _ nofun
        · next nested => exact absurd nested shallow
        · cases failed

theorem itemsAfterCompleting_there {node : Node} (there : fs.node? p = .ok (some node)) (id : String) :
    itemsAfterCompleting fs p id = match load fs p with
      | .ok items =>
        if items.any (hasId id) then .ok (items.map (complete id))
        else .error (.fault (Fault.notFound "todo_complete" ("Todo not found: " ++ id)))
      | .error e => .error (readFailure "todo_complete" p e) := by
  unfold itemsAfterCompleting FileSystem.isThere
  rw [there]
  cases load fs p with
  | error e => rfl
  | ok items =>
    change (if !items.any (hasId id) then _ else _) = ite (items.any (hasId id) = true) _ _
    cases items.any (hasId id) with
    | false => rfl
    | true => rfl

theorem contained_itemsAfterCompleting (fs : FileSystem) (p : Path) (id : String) :
    Contained (Upsets fs p) (itemsAfterCompleting fs p id) := by
  cases there : fs.node? p with
  | error e =>
    unfold itemsAfterCompleting FileSystem.isThere
    rw [there]
    exact contained_lost there
  | ok node? =>
    cases node? with
    | none =>
      unfold itemsAfterCompleting FileSystem.isThere
      rw [there]
      refine .of_ofTool (fun e => not_upsets there) fun e failed => ?_
      cases failed
      exact ⟨_, rfl, rfl⟩
    | some node =>
      rw [itemsAfterCompleting_there there]
      refine contained_of_load there (fun nested => ?_) fun e shallow failed => ?_
      · rw [load_eq_too_deep_iff.mpr nested]
        rfl
      · rw [← load_eq_too_deep_iff] at shallow
        cases loaded : load fs p with
        | error e =>
          rw [loaded] at failed shallow
          cases failed
          exact ofTool_readFailure _ _ fun deep => shallow (congrArg Except.error deep)
        | ok items =>
          rw [loaded] at failed
          dsimp only at failed
          split at failed
          · cases failed
          · cases failed
            exact ⟨_, rfl, rfl⟩

/-- A listing shows the text of the document as it is, and so fails over its path only. -/
theorem contained_listing (fs : FileSystem) (p : Path) :
    Contained (fun e => ∃ fe, fs.node? p = .error fe ∧ e = .file fe) (listing fs p) := by
  unfold listing FileSystem.isThere
  cases there : fs.node? p with
  | error e =>
    refine ⟨?_, ?_⟩
    · rintro _ ⟨_, ⟨⟩, rfl⟩
      rfl
    · rintro _ ⟨⟩
      exact .inr ⟨e, rfl, rfl⟩
  | ok node? =>
    refine .of_ofTool (by rintro e ⟨_, ⟨⟩, -⟩) fun e failed => ?_
    cases node? with
    | none => cases failed
    | some node =>
      obtain ⟨fe, -, rfl⟩ := eq_error_of_mapError failed
      exact ⟨_, rfl, rfl⟩

end CodeAgent.Todo

namespace CodeAgent
open CodeAgent.Text CodeAgent.Action

namespace Todo

/-- An item of a todo list. -/
structure Item where
  id : String
  content : String
  completed : Bool
  deriving DecidableEq, Repr

/-- An item as it is kept. -/
def Item.toJson (item : Item) : Json :=
  .obj [("id", .str item.id), ("content", .str item.content),
    ("status", .str (if item.completed then "completed" else "pending")),
    ("created_at", .str "2024-01-01T00:00:00+00:00")]

/-- An item that is completed if it is the one of a given id. -/
def Item.complete (id : String) (item : Item) : Item :=
  if item.id = id then { item with completed := true } else item

theorem newItem_eq_toJson (id content : String) : newItem id content = Item.toJson ⟨id, content, false⟩ := rfl

theorem hasId_toJson (id : String) (item : Item) : hasId id item.toJson = (item.id == id) := rfl

theorem complete_toJson (id : String) (item : Item) : complete id item.toJson = (item.complete id).toJson := by
  change (if hasId id item.toJson then _ else _) = _
  rw [hasId_toJson, Item.complete]
  by_cases own : item.id = id
  · rw [if_pos own, if_pos (beq_iff_eq.mpr own)]
    rfl
  · rw [if_neg own, if_neg (mt beq_iff_eq.mp own)]

theorem fits_items (items : List Item) : Json.Fits Json.maxDepth (.arr (items.map Item.toJson)) := by
  refine .arr fun v mem => ?_
  obtain ⟨item, -, rfl⟩ := List.mem_map.mp mem
  refine .obj (by decide : ["id", "content", "status", "created_at"].Nodup) fun m field => ?_
  obtain ⟨text, value⟩ : ∃ text, m.2 = .str text := by
    simp only [List.mem_cons, List.not_mem_nil, or_false] at field
    obtain rfl | rfl | rfl | rfl := field <;> exact ⟨_, rfl⟩
  rw [value]
  exact .str _ text

section document
variable {values : List Json} (fits : Json.Fits Json.maxDepth (.arr values))
include fits

/-- The text of a document is read back to its items, whatever they are. -/
theorem itemsIn_documentText : itemsIn (documentText values) = .ok values := by
  rw [itemsIn, documentText, Json.read_write Json.spaced_pretty fits]

/-- A document has line feeds only. -/
theorem unifyLineEnds_documentText : unifyLineEnds (documentText values).toList = (documentText values).toList := by
  have plain : '\r' ∉ Json.render .pretty 0 (.arr values) :=
    Json.no_return_render (by decide) (by decide) rfl fits 0
  rw [documentText, Json.write, String.toList_ofList, unifyLineEnds_of_no_return plain]

end document

theorem decode?_documentText (items : List Json) :
    Utf8.decode? (utf8Bytes (documentText items)) = some (documentText items).toList :=
  Utf8.decode?_encode _

/-! Todo items in the document of a file system: what is read from it, and what writing it anew leaves. -/

/-- The text of the document at a path, if there is one that can be read. -/
def document? (fs : FileSystem) (p : Path) : Option String := (fs.readValidText p).toOption

section files
variable {fs fs' : FileSystem} {p : Path} {items : List Item}

/-- The document at a path holds these items; without items there is none. -/
inductive Holds (fs : FileSystem) (p : Path) : List Item → Prop
  | nothing (free : ∀ q ∈ fs.placeOf p, fs.root.holding q = .nothing) : Holds fs p []
  | document {items : List Item} {place : Place} {modified : Int} (filled : items ≠ [])
      (found : fs.look p =
        .ok ⟨place, some (.file (utf8Bytes (documentText (items.map Item.toJson))) modified)⟩) : Holds fs p items

/-- The way to the folder of a path does not lead through the place of the path. -/
def Clear (fs : FileSystem) (p : Path) : Prop := ∀ q ∈ fs.placeOf p, q ∉ fs.placesOn p.parent

theorem readValidText_of_readBytes {content : Bytes} (bytes : fs.readBytes p = .ok content) :
    fs.readValidText p = match Utf8.decode? content with
      | some cs => .ok (String.ofList (unifyLineEnds cs))
      | none => .error .badText := by
  rw [FileSystem.readValidText, bytes]
  rfl

section document
variable {values : List Json} (fits : Json.Fits Json.maxDepth (.arr values)) {place : Place} {modified : Int}
  (found : fs.look p = .ok ⟨place, some (.file (utf8Bytes (documentText values)) modified)⟩)
include fits found

theorem readValidText_of_look : fs.readValidText p = .ok (documentText values) := by
  rw [readValidText_of_readBytes (FileSystem.readBytes_of_look found), decode?_documentText]
  dsimp only
  rw [unifyLineEnds_documentText fits, String.ofList_toList]

theorem load_of_look : load fs p = .ok values := by
  rw [load, readValidText_of_look fits found]
  exact itemsIn_documentText fits

end document

/-- Where nothing is there is no text. -/
theorem document?_of_absent (absent : fs.node? p = .ok none) : document? fs p = none := by
  have unread : ∃ e, fs.readBytes p = .error e := by
    unfold FileSystem.node? at absent
    unfold FileSystem.readBytes FileSystem.existing
    cases found : fs.look p with
    | error e => exact ⟨e, rfl⟩
    | ok spot =>
      obtain ⟨place, node⟩ := spot
      rw [found] at absent
      obtain rfl : node = none := Except.ok.inj absent
      exact ⟨.refused .missing p, rfl⟩
  obtain ⟨e, unread⟩ := unread
  rw [document?, FileSystem.readValidText, unread]
  rfl

namespace Holds
variable (limits : p.WithinLimits) (holds : Holds fs p items)
include limits holds

theorem document?_eq : document? fs p =
    if items = [] then none else some (documentText (items.map Item.toJson)) := by
  cases holds with
  | nothing free =>
    rw [if_pos rfl, document?_of_absent (FileSystem.node?_of_nothing limits free)]
  | document filled found => rw [if_neg filled, document?, readValidText_of_look (fits_items items) found]; rfl

theorem itemsForAdding_eq : itemsForAdding fs p = .ok (items.map Item.toJson) := by
  cases holds with
  | nothing free =>
    rw [itemsForAdding, FileSystem.isThere, FileSystem.node?_of_nothing limits free]
    rfl
  | document filled found =>
    rw [itemsForAdding_there (FileSystem.node?_of_look found), load_of_look (fits_items items) found]

theorem itemsAfterCompleting_eq (id : String) : itemsAfterCompleting fs p id =
    if items.any (·.id == id) then .ok ((items.map (Item.complete id)).map Item.toJson)
    else .error (.fault (Fault.notFound "todo_complete"
      (if items = [] then "No todos found" else "Todo not found: " ++ id))) := by
  cases holds with
  | nothing free =>
    rw [itemsAfterCompleting, FileSystem.isThere, FileSystem.node?_of_nothing limits free]
    rfl
  | document filled found =>
    have known : (items.map Item.toJson).any (hasId id) = items.any (·.id == id) := by
      rw [List.any_map]
      rfl
    have completed : (items.map Item.toJson).map (complete id) = (items.map (Item.complete id)).map Item.toJson := by
      rw [List.map_map, List.map_map]
      exact List.map_congr_left fun item _ => complete_toJson id item
    rw [itemsAfterCompleting_there (FileSystem.node?_of_look found), load_of_look (fits_items items) found, if_neg filled]
    dsimp only
    rw [known, completed]

theorem listing_eq : listing fs p = .ok ((document? fs p).getD "[]") := by
  rw [holds.document?_eq limits]
  cases holds with
  | nothing free =>
    rw [listing, FileSystem.isThere, FileSystem.node?_of_nothing limits free]
    rfl
  | document filled found =>
    rw [listing, FileSystem.isThere, FileSystem.node?_of_look found, readValidText_of_look (fits_items items) found, if_neg filled]
    rfl

/-- Items are written where there were some, or else it can fail, so that there are none still. -/
theorem save (clear : Clear fs p) (named : p.names ≠ []) (items' : List Item) (filled : items' ≠ []) :
    (∃ fs', exec (Todo.save p (items'.map Item.toJson)) fs = (.ok (), fs') ∧ Holds fs' p items') ∨
      ∃ e fs', exec (Todo.save p (items'.map Item.toJson)) fs = (.error e, fs') ∧ items = [] ∧ Holds fs' p [] := by
  cases holds with
  | nothing free =>
    rcases run : exec (Todo.save p (items'.map Item.toJson)) fs with ⟨e | _, fs'⟩
    · exact .inr ⟨e, fs', rfl, rfl, .nothing (FileAction.nothing_of_writeFile_failed run clear free)⟩
    · obtain ⟨place, modified, found⟩ := FileAction.look_of_writeFile run
      exact .inl ⟨fs', rfl, .document filled found⟩
  | document _ found =>
    obtain ⟨fs', done, found'⟩ := FileAction.writeFile_again limits named found
    exact .inl ⟨fs', done, .document filled found'⟩

end Holds

theorem Clear.of_down (named : p.names ≠ []) (down : ".." ∉ p.names) : Clear fs p := by
  have follow (names : List String) (down : ".." ∉ names) (start : Place) :
      Place.follow start names = start ++ names := by
    induction names generalizing start with
    | nil => exact (List.append_nil start).symm
    | cons name names ih =>
      rw [List.mem_cons, not_or] at down
      have next : Place.follow start (name :: names) = Place.follow (start ++ [name]) names := by
        rw [Place.follow, List.foldl_cons, if_neg fun up => down.1 (eq_of_beq up).symm]
        rfl
      rw [next, ih down.2, List.append_assoc]
      rfl
  have resolved {q : Place} {slashes : Nat} {names : List String} (down : ".." ∉ names)
      (own : q ∈ fs.placeOf ⟨slashes, names⟩) :
      q = (if (Path.mk slashes names).isAbsolute then [] else fs.current) ++ names := by
    change FileSystem.resolve _ _ = _ at own
    unfold FileSystem.resolve at own
    split at own
    · cases own
    · rw [← Except.ok.inj own, follow names down]
  rintro q own ⟨names, up, on⟩
  have above : ".." ∉ names := fun mem => down (List.mem_of_mem_dropLast (up.subset mem))
  have same : p.names = names := List.append_cancel_left ((resolved down own).symm.trans (resolved above on))
  have short : names.length ≤ p.names.dropLast.length := up.length_le
  have some := List.length_pos_iff.mpr named
  rw [List.length_dropLast, ← same] at short
  omega

/-- Whether the way to the document is clear does not change. -/
theorem Clear.after (clear : Clear fs p) (items : List Json) : Clear (exec (save p items) fs).2 p := by
  have changes : ∃ writable makable, fs.Changes writable makable (exec (save p items) fs).2 := by
    rcases run : exec (save p items) fs with ⟨e | _, fs'⟩
    · exact ⟨_, _, FileAction.writeFile_failed run⟩
    · exact ⟨_, _, (FileAction.writeFile_done run).1⟩
  obtain ⟨_, _, changes⟩ := changes
  intro q own
  rw [changes.placeOf] at own
  rw [changes.placesOn]
  exact clear q own

end files
end Todo
end CodeAgent
