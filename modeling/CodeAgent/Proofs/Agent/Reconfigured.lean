import CodeAgent.Proofs.Agent.SearchedWorkspace

/-! What a service is configured to be after any operations. A key is what the last change gives, nothing included; an
address is the last one that was given; the workspace is the last one that was opened. Neither kind of operation has a
part in what the other one sets, and none in what was handed out before. -/
namespace CodeAgent
open CodeAgent.Action

namespace Operation

/-- The change of the backends that is asked for. -/
def change? : Operation → Option BackendChange
  | configure change => some change
  | _ => none

/-- An address that is asked for; none is as good as an empty one. -/
def address? (pick : BackendChange → Option String) (op : Operation) : Option String :=
  (op.change?.bind pick).filter (· ≠ "")

/-- What is opened: none, if the workspace is closed. What names no place is not opened. -/
def opened? (fs : FileSystem) : Operation → Option (Option Place)
  | openWorkspace none => some none
  | openWorkspace (some path) => (Service.placeOf fs path).toOption.map some
  | _ => none

/-- What the last of some operations gives that gives anything. -/
def last? {α : Type} (given : Operation → Option α) (ops : List Operation) : Option α := (ops.filterMap given).getLast?

theorem last?_concat {α : Type} (given : Operation → Option α) (ops : List Operation) (op : Operation) :
    last? given (ops ++ [op]) = (given op).or (last? given ops) := by
  rw [last?, last?, List.filterMap_append, List.getLast?_append]
  cases found : given op with
  | none => rw [List.filterMap_cons_none found]; rfl
  | some a => rw [List.filterMap_cons_some found]; rfl

theorem last?_singleton {α : Type} (given : Operation → Option α) (op : Operation) : last? given [op] = given op :=
  (last?_concat given [] op).trans Option.or_none

end Operation

namespace Service
variable {fs fs' : FileSystem}

/-- What some operations configure a service to be. -/
def configured (s : Service) (fs : FileSystem) (ops : List Operation) : Service :=
  { s with
    settings := { s.settings with
      openaiKey := (Operation.last? (·.change?.map (·.openaiKey)) ops).getD s.settings.openaiKey
      geminiKey := (Operation.last? (·.change?.map (·.geminiKey)) ops).getD s.settings.geminiKey
      openaiAddress := (Operation.last? (·.address? (·.openaiAddress)) ops).getD s.settings.openaiAddress
      ollamaAddress := (Operation.last? (·.address? (·.ollamaAddress)) ops).getD s.settings.ollamaAddress }
    workspace := (Operation.last? (·.opened? fs) ops).getD s.workspace }

theorem configured_concat (s : Service) (fs : FileSystem) (ops : List Operation) (op : Operation) :
    s.configured fs (ops ++ [op]) = (s.configured fs ops).configured fs [op] := by
  have onto {α : Type} (given : Operation → Option α) (a : α) :
      (Operation.last? given (ops ++ [op])).getD a =
        (Operation.last? given [op]).getD ((Operation.last? given ops).getD a) := by
    rw [Operation.last?_concat, Operation.last?_singleton]
    cases given op <;> rfl
  simp only [configured, onto]

theorem replaced_eq (old : String) (given : Option String) :
    replaced old given = (given.filter (· ≠ "")).getD old := by
  cases given with
  | none => rfl
  | some new =>
    by_cases empty : new = ""
    · rw [empty]
      rfl
    · rw [replaced, Option.filter_some, if_pos (decide_eq_true empty)]
      · rfl
      · exact empty

theorem configure_eq_configured (s : Service) (fs : FileSystem) (change : BackendChange) :
    s.configure change = s.configured fs [.configure change] := by
  simp only [configure, replaced_eq, configured, Operation.last?_singleton]
  rfl

/-- The place that a user names hangs on the home folder and the current one. -/
theorem placeOf_of_changes {writable makable : Set Place} (changes : fs.Changes writable makable fs') :
    placeOf fs' = placeOf fs := by
  funext path
  have resolve : fs'.resolve = fs.resolve := funext (FileSystem.resolve_congr changes.current)
  rw [placeOf, placeOf, changes.home, resolve]

theorem configured_congr (s : Service) (same : placeOf fs' = placeOf fs) (ops : List Operation) :
    s.configured fs' ops = s.configured fs ops := by
  have opened : Operation.opened? fs' = Operation.opened? fs := by
    funext op
    simp only [Operation.opened?, same]
  rw [configured, configured, opened]

end Service

namespace Session
variable {s : Session}

/-- After an operation the same places are named. -/
theorem placeOf_after (s : Session) (op : Operation) :
    Service.placeOf (s.after op).indexed.files = Service.placeOf s.indexed.files := by
  cases op with
  | configure change => rfl
  | openWorkspace path =>
    cases path with
    | none => rfl
    | some path =>
      rw [after, exec_open]
      cases Service.placeOf s.world.bench.files path with
      | error e => rfl
      | ok place => exact Service.placeOf_of_changes (SymbolIndex.loadOrPass_changes _ _ _ _)
  | indexWorkspace =>
    cases workspace : s.service.workspace with
    | none =>
      rw [after, Service.indexWorkspace, workspace]
      rfl
    | some place =>
      rw [after_index_of_opened workspace]
      exact Service.placeOf_of_changes (SymbolIndex.pass_changes _ _ _ _)
  | executeTool call =>
    rw [after, exec_executeTool]
    cases typed : Parameters.ofCall call with
    | error f =>
      rw [Toolbox.exec_execute_refused _ _ typed]
    | ok given =>
      rw [Toolbox.exec_execute _ _ typed]
      exact Service.placeOf_of_changes (Toolbox.confined_run _ _ (Parameters.of_ofCall typed)).files

/-- An operation configures the service as it asks to. -/
theorem service_after (s : Session) (op : Operation) :
    (s.after op).service = s.service.configured s.indexed.files [op] := by
  cases op with
  | configure change => exact s.service.configure_eq_configured _ change
  | openWorkspace path =>
    cases path with
    | none => rfl
    | some path =>
      rw [after, exec_open, Service.configured]
      simp only [Operation.last?_singleton, Operation.opened?]
      cases Service.placeOf s.world.bench.files path with
      | error e => rfl
      | ok place => rfl
  | indexWorkspace => rfl
  | executeTool call => rfl

theorem placeOf_play (s : Session) (ops : List Operation) :
    Service.placeOf (s.play ops).indexed.files = Service.placeOf s.indexed.files := by
  induction ops generalizing s with
  | nil => rfl
  | cons op ops ih => exact (ih (s.after op)).trans (placeOf_after s op)

/-- Operations configure the service as they ask to. -/
theorem service_play (s : Session) (ops : List Operation) :
    (s.play ops).service = s.service.configured s.indexed.files ops := by
  -- From the end: the last operation finds the service as those before it ask for, and names the same places.
  induction ops using List.reverseRecOn with
  | nil => rfl
  | append_singleton ops op ih =>
    rw [play_concat, service_after, Service.configured_congr _ (placeOf_play s ops), ih, Service.configured_concat]

/-- To open a workspace and to change the configuration come to the same in either order. -/
theorem after_configure_openWorkspace (s : Session) (change : BackendChange) (path : Option String) :
    (s.after (.configure change)).after (.openWorkspace path) =
      (s.after (.openWorkspace path)).after (.configure change) := by
  cases path with
  | none => rfl
  | some path =>
    simp only [after, exec_open]
    cases Service.placeOf s.world.bench.files path with
    | error e => rfl
    | ok place => rfl

/-- The configurations that are handed out: the first one, and one after each operation. -/
def configurations (s : Session) : List Operation → List Service
  | [] => [s.service]
  | op :: ops => s.service :: (s.after op).configurations ops

theorem configurations_append (s : Session) (earlier later : List Operation) :
    (s.configurations (earlier ++ later))[earlier.length]? = some (s.play earlier).service := by
  induction earlier generalizing s with
  | nil => cases later <;> rfl
  | cons op earlier ih => exact ih (s.after op)

/-- What a service is configured to be after any operations. It is what they ask for: each key as the last change gives
it, each address the last that is given, the workspace the one opened last, and all else as at the start. So is what was
handed out after some operations, whatever comes later; and it makes no difference which of a change and of a workspace
comes first. -/
theorem configured_by_operations (start : Session) :
    (∀ ops, (start.play ops).service = start.service.configured start.indexed.files ops) ∧
    (∀ earlier later, (start.configurations (earlier ++ later))[earlier.length]? =
      some (start.service.configured start.indexed.files earlier)) ∧
    ∀ earlier change path later,
      start.play (earlier ++ .configure change :: .openWorkspace path :: later) =
        start.play (earlier ++ .openWorkspace path :: .configure change :: later) := by
  refine ⟨start.service_play, fun earlier later => ?_, fun earlier change path later => ?_⟩
  · rw [configurations_append, service_play]
  · simp only [play, List.foldl_append, List.foldl_cons]
    rw [after_configure_openWorkspace]

end Session
end CodeAgent
