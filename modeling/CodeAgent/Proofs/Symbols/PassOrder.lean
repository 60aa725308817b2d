import CodeAgent.Proofs.Symbols.Rebuild

/-! A pass whose files are looked at by several workers: whatever the host answers about a file, and in whatever
order the answers come, the pass ends in the same state, with an index that is in good order. -/
namespace CodeAgent
open CodeAgent.Text IndexAction

/-- What the host answers about a file: how it looks, if it is still there, and its outline, if it has one. -/
structure FileAnswer where
  look : Option Fingerprint
  outline : Except Failure (List OutlineSymbol)

/-- The answers of a file system that does not change. -/
def FileSystem.answer (fs : FileSystem) (outliner : Outliner) (place : Place) : FileAnswer :=
  ⟨fs.fingerprintAt? place, outliner fs place⟩

namespace FileAnswer

/-- What a pass makes of the answers about a file. -/
def scan? (previous : IndexData) (path : String) (answer : FileAnswer) : Option FileScan :=
  answer.look.map fun fingerprint =>
    let symbols? := previous.symbols.get? path
    let stale : FileScan :=
      ⟨path, fingerprint, symbols?.getD [], (previous.outlines.get? path).getD [], true⟩
    if symbols?.isSome && previous.files.get? path = some fingerprint then { stale with outlined := false }
    else match answer.outline with
      | .ok outline => ⟨path, fingerprint, OutlineSymbol.flattenList path none outline, outline, true⟩
      | .error _ => stale

variable {previous : IndexData} {path : String} {answer : FileAnswer} {s : FileScan}

theorem scan?_answer (outliner : Outliner) (fs : FileSystem) (previous : IndexData) (place : Place) (path : String) :
    (fs.answer outliner place).scan? previous path = SymbolIndex.scan outliner fs previous place path := by
  cases looks : fs.fingerprintAt? place with
  | none =>
    rw [SymbolIndex.scan_missing looks, scan?, FileSystem.answer, looks]
    rfl
  | some f =>
    have there := looks
    rw [FileSystem.fingerprintAt?, Option.bind_eq_some_iff] at there
    obtain ⟨n, there, look⟩ := there
    simp only [SymbolIndex.scan, scan?, FileSystem.answer, looks, there, look, bind, Option.bind, Option.map]
    split
    · rfl
    · split <;> simp [*]

theorem exists_scan? (previous : IndexData) (path : String) (there : answer.look.isSome) :
    ∃ s, answer.scan? previous path = some s := by
  obtain ⟨f, looks⟩ := Option.isSome_iff_exists.mp there
  exact ⟨_, by rw [scan?, looks, Option.map_some]⟩

theorem scan?_path (made : answer.scan? previous path = some s) : s.path = path ∧ answer.look = some s.fingerprint := by
  obtain ⟨f, looks, rfl⟩ := Option.map_eq_some_iff.mp made
  rw [looks]
  dsimp only
  split
  · exact ⟨rfl, rfl⟩
  · split <;> exact ⟨rfl, rfl⟩

end FileAnswer

namespace OutlineSymbol

mutual

theorem file_of_mem_flatten {file : String} : ∀ (o : OutlineSymbol) {parent : Option String} {s : IndexedSymbol},
    s ∈ flatten file parent o → s.file = file
  | .mk name kind detail startLine endLine children, _, s, member => by
    rw [flatten] at member
    obtain rfl | inside := List.mem_cons.mp member
    · rfl
    · exact file_of_mem_flattenList children inside

theorem file_of_mem_flattenList {file : String} : ∀ (os : List OutlineSymbol) {parent : Option String}
    {s : IndexedSymbol}, s ∈ flattenList file parent os → s.file = file
  | [], _, _, member => nomatch member
  | o :: os, _, s, member => by
    rw [flattenList] at member
    obtain own | later := List.mem_append.mp member
    · exact file_of_mem_flatten o own
    · exact file_of_mem_flattenList os later

end

end OutlineSymbol

/-- The symbols of a scan are those of the file, or those that were known before. -/
theorem FileAnswer.scan?_symbols {previous : IndexData} {path : String} {answer : FileAnswer} {s : FileScan}
    (made : answer.scan? previous path = some s) :
    (∀ x ∈ s.symbols, x.file = path) ∨ previous.symbols.get? path = some s.symbols := by
  obtain ⟨f, -, rfl⟩ := Option.map_eq_some_iff.mp made
  have known : (∀ x ∈ (previous.symbols.get? path).getD [], x.file = path) ∨
      previous.symbols.get? path = some ((previous.symbols.get? path).getD []) := by
    cases previous.symbols.get? path with
    | none => exact .inl nofun
    | some symbols => exact .inr rfl
  dsimp only
  split
  · exact known
  · split
    · next outline _ => exact .inl fun x inside => OutlineSymbol.file_of_mem_flattenList outline inside
    · exact known

namespace SymbolIndex

/-- The index does not depend on the order of the scans. -/
theorem assemble_perm {scans scans' : List FileScan} (once : (scans.map (·.path)).Nodup)
    (same : scans.Perm scans') : assemble scans = assemble scans' := by
  apply IndexData.build_perm
  iterate 3 rwa [OrderedMap.keys, List.map_map]
  iterate 3 exact same.map _

/-- What the workers find about some files, in the order in which they are done. -/
def workerScans (previous : IndexData) (root : Place) (answers : Place → FileAnswer) (order : List Place) :
    List FileScan :=
  order.filterMap fun p => (answers p).scan? previous (pathIn root p)

/-- A pass over some files whose workers are done in some order. -/
def workerPass (settings : Settings) (root : Place) (answers : Place → FileAnswer) (order : List Place) :
    IndexAction (List String) := do
  let state ← get
  let scans := workerScans (state.index.previousFor root) root answers order
  let data := assemble scans
  set { state with index := { data, root := some root, passed := true } }
  store (settings.statePaths root.path) data
  return (scans.filter (·.outlined)).map (·.path)

/-- An index is in good order and has of every file that was still there how it looked and its outline; its symbols
are those of its own outline, or those that were known before. -/
structure Settled (previous : IndexData) (root : Place) (places : List Place) (answers : Place → FileAnswer)
    (data : IndexData) : Prop extends data.Coherent where
  outlined : OrderedMap.keys data.outlines = OrderedMap.keys data.files
  looked : ∀ path, path ∈ OrderedMap.keys data.files ↔
    ∃ place ∈ places, pathIn root place = path ∧ (answers place).look.isSome
  fingerprints : ∀ place ∈ places, data.files.get? (pathIn root place) = (answers place).look
  own : ∀ path symbols, data.symbols.get? path = some symbols →
    (∀ s ∈ symbols, s.file = path) ∨ previous.symbols.get? path = some symbols

section order
variable {settings : Settings} {root : Place} {s : IndexState} {answers : Place → FileAnswer}
  {places order : List Place}

theorem workerPass_state (settings : Settings) (root : Place) (answers : Place → FileAnswer) (order : List Place)
    (s : IndexState) :
    (exec (workerPass settings root answers order) s).2 =
      let data := assemble (workerScans (s.index.previousFor root) root answers order)
      (exec (store (settings.statePaths root.path) data)
        { s with index := { data, root := some root, passed := true } }).2 := by
  simp only [workerPass, exec_bind, exec_get, exec_set]
  split
  · next done => rw [done, exec_pure]
  · next failed => rw [failed]

/-- A pass is one whose workers are done in the order of its walk. -/
theorem pass_state (outliner : Outliner) (walked : (walk settings root).files s.files.root = .ok places) :
    (exec (pass outliner settings root) s).2 =
      (exec (workerPass settings root (s.files.answer outliner) places) s).2 := by
  rw [pass_walked (scanAll_walked outliner walked _), workerPass_state]
  simp only [workerScans, FileAnswer.scan?_answer]

theorem nodup_workerScans (finds : Walk.Finds root places) (previous : IndexData) (answers : Place → FileAnswer) :
    ((workerScans previous root answers places).map (·.path)).Nodup :=
  paths_nodup finds fun _ _ made => (FileAnswer.scan?_path made).1

theorem assemble_workerScans_perm (finds : Walk.Finds root places) (shuffled : order.Perm places)
    (previous : IndexData) (answers : Place → FileAnswer) :
    assemble (workerScans previous root answers order) = assemble (workerScans previous root answers places) :=
  (assemble_perm (nodup_workerScans finds previous answers) (shuffled.symm.filterMap _)).symm

theorem mem_workerScans {previous : IndexData} {scan : FileScan} :
    scan ∈ workerScans previous root answers places ↔
      ∃ place ∈ places, (answers place).scan? previous (pathIn root place) = some scan :=
  List.mem_filterMap

theorem settled_assemble (finds : Walk.Finds root places) (previous : IndexData) (answers : Place → FileAnswer) :
    Settled previous root places answers (assemble (workerScans previous root answers places)) := by
  have once := nodup_workerScans finds previous answers
  have keys {α : Type} (part : FileScan → α) :
      OrderedMap.keys ((workerScans previous root answers places).map fun s => (s.path, part s)) =
        (workerScans previous root answers places).map (·.path) := by
    rw [OrderedMap.keys, List.map_map]
    rfl
  have files : OrderedMap.keys (assemble (workerScans previous root answers places)).files =
      IndexData.sortedPaths ((workerScans previous root answers places).map fun s => (s.path, s.fingerprint)) :=
    IndexData.keys_files_build _ _ _
  refine { toCoherent := IndexData.coherent_build (by rwa [keys]) _ _, outlined := ?_, looked := fun path => ?_,
           fingerprints := fun place there => ?_, own := fun path symbols known => ?_ }
  · rw [files]
    apply IndexData.keys_outlines_build
    rw [keys, keys]
    exact fun _ => id
  · rw [files, IndexData.mem_sortedPaths, keys, List.mem_map]
    constructor
    · rintro ⟨s, member, rfl⟩
      obtain ⟨place, there, made⟩ := mem_workerScans.mp member
      obtain ⟨path, looks⟩ := FileAnswer.scan?_path made
      exact ⟨place, there, path.symm, by rw [looks]; rfl⟩
    · rintro ⟨place, there, rfl, looks⟩
      obtain ⟨s, made⟩ := FileAnswer.exists_scan? previous (pathIn root place) looks
      exact ⟨s, mem_workerScans.mpr ⟨place, there, made⟩, (FileAnswer.scan?_path made).1⟩
  · cases looks : (answers place).look with
    | some f =>
      obtain ⟨s, made⟩ := FileAnswer.exists_scan? previous (pathIn root place) (by rw [looks]; rfl)
      obtain ⟨path, look⟩ := FileAnswer.scan?_path made
      have known := (assemble_scan once (mem_workerScans.mpr ⟨place, there, made⟩)).1
      rw [← path, known, ← look, looks]
    | none =>
      by_contra other
      obtain ⟨f, known⟩ := Option.ne_none_iff_exists'.mp other
      obtain ⟨s, member, path, -⟩ := exists_scan known
      obtain ⟨place', there', made⟩ := mem_workerScans.mp member
      obtain ⟨path', look⟩ := FileAnswer.scan?_path made
      have same := Walk.relativePlace_injective (w := { root }) (finds.within _ there') (finds.within _ there)
        (path'.symm.trans path)
      rw [same, looks] at look
      cases look
  · have listed : path ∈ OrderedMap.keys ((workerScans previous root answers places).map fun s =>
        (s.path, s.fingerprint)) := by
      by_contra unlisted
      rw [assemble, IndexData.symbols_build, if_neg unlisted] at known
      cases known
    rw [keys, List.mem_map] at listed
    obtain ⟨s, member, rfl⟩ := listed
    obtain rfl : s.symbols = symbols := Option.some.inj ((assemble_scan once member).2.1.symm.trans known)
    obtain ⟨place, -, made⟩ := mem_workerScans.mp member
    rw [(FileAnswer.scan?_path made).1]
    exact FileAnswer.scan?_symbols made

end order

/-- A workspace with two files, of which one was indexed before. -/
def indexedBefore : IndexState where
  files := IndexRun.filesBefore
  index :=
    { root := some ["w"]
      data := IndexData.build [("b.py", [⟨"all", none, "File", none, "b.py", 1, 9⟩])] [] [("b.py", ⟨100, 9⟩)] }

/-- One file is gone, and the other one, which has changed, has no outline. -/
def oneGone (place : Place) : FileAnswer where
  look := if place = ["w", "a.py"] then none else some ⟨100, 2⟩
  outline := .error (.breakdown .badValue)

end SymbolIndex
end CodeAgent
