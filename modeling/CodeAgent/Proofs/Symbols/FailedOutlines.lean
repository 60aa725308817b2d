import CodeAgent.Proofs.Symbols.PassOrder

/-! What failed outlines do to an index. Each path of an index is answered for by one file of the walk, so a failure
there is seen at that path alone, where it keeps what was known before. -/
namespace CodeAgent
open IndexAction

/-- What an index has of a path. -/
structure FileEntry where
  fingerprint : Option Fingerprint := none
  symbols : Option (List IndexedSymbol) := none
  outline : Option (List OutlineSymbol) := none

namespace IndexData

/-- What an index has of a path. -/
def entry (d : IndexData) (path : String) : FileEntry := ⟨d.files.get? path, d.symbols.get? path, d.outlines.get? path⟩

/-- A file with what was known before of its symbols and its outline, which for a new file is nothing. -/
def kept (previous : IndexData) (path : String) (fingerprint : Fingerprint) : FileEntry where
  fingerprint := some fingerprint
  symbols := some ((previous.symbols.get? path).getD [])
  outline := some ((previous.outlines.get? path).getD [])

end IndexData

/-- What a scan has of its file. -/
def FileScan.entry (s : FileScan) : FileEntry := ⟨some s.fingerprint, some s.symbols, some s.outline⟩

/-- A file without an outline is found as it was known. That is so too if it was not asked for its outline. -/
theorem FileAnswer.scan?_failed {answer : FileAnswer} {f : Fingerprint} (looks : answer.look = some f)
    (fails : ∃ e, answer.outline = .error e) (previous : IndexData) (path : String) :
    (answer.scan? previous path).map FileScan.entry = some (previous.kept path f) := by
  obtain ⟨e, failed⟩ := fails
  rw [scan?, looks, failed, Option.map_some, Option.map_some]
  dsimp only
  split <;> rfl

namespace SymbolIndex

/-- Some outlines fail that would not have to: elsewhere the host answers as it does without the failures, and all files
look the same. -/
structure FailsOn (failing : Set Place) (answers calm : Place → FileAnswer) : Prop where
  looks : ∀ place, (answers place).look = (calm place).look
  fails : ∀ place ∈ failing, ∃ e, (answers place).outline = .error e
  elsewhere : ∀ place ∉ failing, (answers place).outline = (calm place).outline

theorem FailsOn.answers_eq {failing : Set Place} {answers calm : Place → FileAnswer} {place : Place}
    (failure : FailsOn failing answers calm) (other : place ∉ failing) : answers place = calm place := by
  have look := failure.looks place
  have outline := failure.elsewhere place other
  revert look outline
  cases answers place
  cases calm place
  rintro ⟨⟩ ⟨⟩
  rfl

section entries
variable {root : Place} {places order order' : List Place} {previous : IndexData} {answers calm : Place → FileAnswer}

/-- An index has nothing of a path that no scan is about. -/
theorem entry_assemble_of_no_scan {scans : List FileScan} {path : String} (unfound : ∀ s ∈ scans, s.path ≠ path) :
    (assemble scans).entry path = {} := by
  have unlisted : path ∉ OrderedMap.keys (scans.map fun s => (s.path, s.fingerprint)) := by
    rw [OrderedMap.keys, List.map_map, List.mem_map]
    rintro ⟨s, member, same⟩
    exact unfound s member same
  have unknown : OrderedMap.get? (scans.map fun s => (s.path, s.fingerprint)) path = none := by
    rw [← Option.not_isSome_iff_eq_none, Option.isSome_iff_exists, ← OrderedMap.mem_keys_iff]
    exact unlisted
  rw [IndexData.entry, assemble, IndexData.files_build, IndexData.symbols_build, IndexData.outlines_build,
    if_neg unlisted, if_neg unlisted, unknown]

/-- An index has of the path of a file what the answers about this file make of it. -/
theorem entry_workerScans (finds : Walk.Finds root places) {place : Place} (there : place ∈ places) :
    (assemble (workerScans previous root answers places)).entry (pathIn root place) =
      (((answers place).scan? previous (pathIn root place)).map FileScan.entry).getD {} := by
  cases made : (answers place).scan? previous (pathIn root place) with
  | some s =>
    have known := assemble_scan (nodup_workerScans finds previous answers) (mem_workerScans.mpr ⟨place, there, made⟩)
    rw [(FileAnswer.scan?_path made).1] at known
    rw [IndexData.entry, known.1, known.2.1, known.2.2]
    rfl
  | none =>
    refine entry_assemble_of_no_scan fun s member same => ?_
    obtain ⟨place', there', made'⟩ := mem_workerScans.mp member
    obtain rfl := Walk.relativePlace_injective (w := { root }) (finds.within _ there') (finds.within _ there)
      ((FileAnswer.scan?_path made').1.symm.trans same)
    rw [made] at made'
    cases made'

theorem entry_workerScans_of_no_file {path : String} (unfound : ∀ place ∈ places, pathIn root place ≠ path) :
    (assemble (workerScans previous root answers places)).entry path = {} := by
  refine entry_assemble_of_no_scan fun s member same => ?_
  obtain ⟨place, there, made⟩ := mem_workerScans.mp member
  exact unfound place there ((FileAnswer.scan?_path made).1.symm.trans same)

/-- A path has the same entry if the host answers the same about its file. -/
theorem entry_workerScans_congr (finds : Walk.Finds root places) {path : String}
    (same : ∀ place ∈ places, pathIn root place = path → answers place = calm place) :
    (assemble (workerScans previous root answers places)).entry path =
      (assemble (workerScans previous root calm places)).entry path := by
  by_cases found : ∃ place ∈ places, pathIn root place = path
  · obtain ⟨place, there, rfl⟩ := found
    rw [entry_workerScans finds there, entry_workerScans finds there, same place there rfl]
  · have unfound : ∀ place ∈ places, pathIn root place ≠ path := fun place there named => found ⟨place, there, named⟩
    rw [entry_workerScans_of_no_file unfound, entry_workerScans_of_no_file unfound]

variable {settings : Settings} {s : IndexState}

/-- However the workers are done, the index has what the scans in the order of the walk make. -/
theorem workerPass_data (finds : Walk.Finds root places) (shuffled : order.Perm places)
    (answers : Place → FileAnswer) :
    (exec (workerPass settings root answers order) s).2.index.data =
      assemble (workerScans (s.index.previousFor root) root answers places) := by
  rw [workerPass_state, ← assemble_workerScans_perm finds shuffled]
  dsimp only
  rw [store_index]

end entries

/-- Both files look the same; one that was indexed before has changed and cannot be outlined any more. -/
def oneFails (place : Place) : FileAnswer where
  look := some ⟨100, 2⟩
  outline := if place = ["w", "b.py"] then .error (.breakdown .badValue) else .ok [.mk "new" .file none 1 2 []]

end SymbolIndex
end CodeAgent
