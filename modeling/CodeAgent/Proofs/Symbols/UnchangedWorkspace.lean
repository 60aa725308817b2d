import CodeAgent.Proofs.Symbols.PassOrder
import CodeAgent.Proofs.Symbols.SnapshotWriting
import CodeAgent.Proofs.Workspace.HiddenFolder

/-! A second pass over a workspace that has not changed. All that the first pass changes is in the folder for state, which
no walk enters; so the second one finds the same files, each of them as it looked, and takes all it needs from the index,
whether the outlines of the first pass were had or failed. -/
namespace CodeAgent
open CodeAgent.Text CodeAgent.Action FileSystem

/-- The name of the folder for state is that of a folder in the workspace. -/
structure Settings.PlainStateFolder (settings : Settings) : Prop extends IsName settings.stateFolder where
  down : settings.stateFolder ≠ ".."
  no_null : '\x00' ∉ settings.stateFolder.toList

namespace SymbolIndex
variable {settings : Settings} {root : Place} {blob : Bytes} {fs mid fs' : FileSystem}
  {outcome : Except FileError Unit}

theorem folder_statePaths (plain : settings.PlainStateFolder) (root : Place) :
    (settings.statePaths root.path).folder = Place.path (root ++ [settings.stateFolder]) := by
  rw [Settings.statePaths, StatePaths.folder, Path.ofText_name plain.toIsName]
  rfl

theorem parent_snapshot (plain : settings.PlainStateFolder) (root : Place) :
    (settings.statePaths root.path).snapshot.parent = Place.path (root ++ [settings.stateFolder]) := by
  rw [StatePaths.snapshot, Path.parent_child, folder_statePaths plain]

section hidden
variable (below : root.Plain) (plain : settings.PlainStateFolder)
include below plain

theorem plain_folder : (root ++ [settings.stateFolder]).Plain := below.child plain.down plain.no_null

theorem resolve_in_folder (fs : FileSystem) (name : String) (down : name ≠ "..") (proper : '\x00' ∉ name.toList) :
    fs.resolve ((settings.statePaths root.path).folder.child name) = .ok (root ++ [settings.stateFolder, name]) := by
  rw [folder_statePaths plain]
  change fs.resolve (Place.path (root ++ [settings.stateFolder] ++ [name])) = _
  rw [resolve_of_plain ((plain_folder below plain).child down proper), List.append_assoc]
  rfl

/-- To make the folder for state, and those above it, changes nothing besides it. -/
theorem alikeBut_foldersMade (ready : (fs.root.top root).Ready settings.stateFolder)
    (made : fs.FoldersMade (settings.statePaths root.path).snapshot.parent fs') :
    Node.AlikeBut settings.stateFolder (fs.root.top root) (fs'.root.top root) := by
  rw [parent_snapshot plain] at made
  induction made with
  | none => exact .same _
  | @one mid fs' _ names up made ih =>
    refine ih.trans ?_
    obtain ⟨place, named, leads, free, rfl⟩ := makeFolder_spec made
    have way : Place.Plain names := fun name mem => plain_folder below plain name (up.subset mem)
    obtain rfl : names = place := Except.ok.inj ((resolve_of_plain way).symm.trans named)
    obtain same | above := List.prefix_concat_iff.mp up
    · subst same
      refine Node.alikeBut_put (leads root (List.prefix_append _ _) (by simp)) (ih.ready ready) ?_ fun _ => rfl
      simp [free]
    · dsimp only
      rw [Node.top_put_above above free]
      exact .same _

omit below plain in
theorem alikeBut_writeBytes {p : Path} {name hidden : String} (named : fs.resolve p = .ok (root ++ [hidden, name]))
    (ready : (fs.root.top root).Ready hidden) (written : fs.writeBytes p blob = .ok fs') :
    Node.AlikeBut hidden (fs.root.top root) (fs'.root.top root) := by
  obtain ⟨place, named', leads, -, rfl⟩ := writeBytes_spec written
  obtain rfl : root ++ [hidden, name] = place := Except.ok.inj (named.symm.trans named')
  have folder : fs.root.holding (root ++ [hidden]) = .folder := leads _ (by simp) (by simp)
  exact Node.alikeBut_put (leads root (List.prefix_append _ _) (by simp)) ready (by simp [folder]) nofun

omit below plain in
theorem alikeBut_replaceFile {source target : Path} {name name' hidden : String}
    (named : fs.resolve source = .ok (root ++ [hidden, name]))
    (named' : fs.resolve target = .ok (root ++ [hidden, name'])) (ready : (fs.root.top root).Ready hidden)
    (replaced : replaceFile fs source target = .ok fs') :
    Node.AlikeBut hidden (fs.root.top root) (fs'.root.top root) := by
  obtain ⟨old, new, content, modified, was, goes, file, leads, -, rfl⟩ := replaceFile_spec replaced
  obtain rfl : root ++ [hidden, name] = old := Except.ok.inj (named.symm.trans was)
  obtain rfl : root ++ [hidden, name'] = new := Except.ok.inj (named'.symm.trans goes)
  have folder : fs.root.holding (root ++ [hidden]) = .folder := leads _ (by simp) (by simp)
  have above : fs.root.holding root = .folder := leads root (List.prefix_append _ _) (by simp)
  have removed : Node.AlikeBut hidden (fs.root.top root) ((Node.remove (root ++ [hidden, name]) fs.root).top root) :=
    Node.alikeBut_remove folder ready
  have there : fs.root.holding (root ++ [hidden, name]) ≠ .nothing := by
    rw [Node.holding, file]
    exact nofun
  have kept {q : Place} (up : ¬ root ++ [hidden, name] <+: q) :
      (Node.remove (root ++ [hidden, name]) fs.root).holding q = fs.root.holding q := by
    rw [Node.holding_remove there (by simp), if_neg up]
  refine removed.trans (Node.alikeBut_put ?_ (removed.ready ready) ?_ nofun)
  · rw [kept fun up => absurd up.length_le (by simp), above]
  · rw [kept fun up => absurd up.length_le (by simp), folder]
    simp

/-- To store a snapshot changes nothing besides the folder for state. -/
theorem Storing.alikeBut (ready : (fs.root.top root).Ready settings.stateFolder)
    (storing : Storing (settings.statePaths root.path) blob fs outcome fs') :
    Node.AlikeBut settings.stateFolder (fs.root.top root) (fs'.root.top root) := by
  have draft (fs : FileSystem) := resolve_in_folder below plain fs "symbols-v1.bin.tmp" (by decide) (by decide)
  have own (fs : FileSystem) := resolve_in_folder below plain fs "symbols-v1.bin" (by decide) (by decide)
  cases storing with
  | noPath => exact .same _
  | folders _ made => exact alikeBut_foldersMade below plain ready made
  | draft _ made _ written =>
    have first := alikeBut_foldersMade below plain ready made
    exact first.trans (alikeBut_writeBytes (draft _) (first.ready ready) written)
  | stored _ made written replaced =>
    have first := alikeBut_foldersMade below plain ready made
    have second := first.trans (alikeBut_writeBytes (draft _) (first.ready ready) written)
    exact second.trans (alikeBut_replaceFile (draft _) (own _) (second.ready ready) replaced)

theorem hasNull_snapshot : (settings.statePaths root.path).snapshot.hasNull = false := by
  rw [StatePaths.snapshot, Path.hasNull_child (by decide), folder_statePaths plain, Path.hasNull, List.any_eq_false]
  exact fun name mem => by simpa using (plain_folder below plain name mem).2

/-- A pass changes nothing besides the folder for state. -/
theorem passBy_alikeBut {write : SnapshotWriter} (stepwise : write.Stepwise) {outliner : Outliner} {s : IndexState}
    {scans : List FileScan} (ready : (s.files.root.top root).Ready settings.stateFolder)
    (walked : scanAll outliner settings s.files (s.index.previousFor root) root = .ok scans) :
    Node.AlikeBut settings.stateFolder (s.files.root.top root)
      ((exec (passBy write outliner settings root) s).2.files.root.top root) := by
  obtain ⟨e, -, done⟩ | ⟨blob, outcome, files, -, storing, done⟩ :=
    passBy_cases stepwise (hasNull_snapshot below plain) walked
  · rw [done]
    exact .same _
  · rw [done]
    exact storing.alikeBut below plain ready

end hidden

/-- What a scan finds of a file that it knows already. -/
def again (s : FileScan) : FileScan := { s with outlined := false }

theorem not_outlined_again {scans : List FileScan} {s : FileScan} (mem : s ∈ scans.map again) : s.outlined = false := by
  obtain ⟨_, -, rfl⟩ := List.mem_map.mp mem
  rfl

theorem assemble_again (scans : List FileScan) : assemble (scans.map again) = assemble scans := by
  simp [assemble, again, Function.comp_def]

section scans
variable {outliner outliner' : Outliner} {previous data : IndexData} {place : Place} {path : String} {s : FileScan}
  {places : List Place}

theorem scan_fingerprint (made : scan outliner fs previous place path = some s) :
    fs.fingerprintAt? place = some s.fingerprint := by
  rw [← FileAnswer.scan?_answer] at made
  exact (FileAnswer.scan?_path made).2

theorem scan_eq_none_iff : scan outliner fs previous place path = none ↔ fs.fingerprintAt? place = none := by
  refine ⟨fun none => ?_, scan_missing⟩
  by_contra there
  have looks : (fs.answer outliner place).look.isSome := Option.isSome_iff_ne_none.mpr there
  obtain ⟨s, made⟩ := FileAnswer.exists_scan? previous path looks
  rw [FileAnswer.scan?_answer, none] at made
  cases made

/-- A file that looks as it is known is not outlined again. -/
theorem scan_known (looks : fs'.fingerprintAt? place = some s.fingerprint) (own : s.path = path)
    (files : data.files.get? path = some s.fingerprint) (symbols : data.symbols.get? path = some s.symbols)
    (outlines : data.outlines.get? path = some s.outline) :
    scan outliner' fs' data place path = some (again s) := by
  rw [← FileAnswer.scan?_answer, FileAnswer.scan?, FileSystem.answer, looks, Option.map_some, files, symbols, outlines,
    again, own]
  simp

/-- What a pass finds, the next one finds in its index, if all files look the same. -/
theorem scans_again (finds : Walk.Finds root places)
    (same : ∀ place ∈ places, fs'.fingerprintAt? place = fs.fingerprintAt? place) :
    let scans := places.filterMap fun p => scan outliner fs previous p (pathIn root p)
    places.filterMap (fun p => scan outliner' fs' (assemble scans) p (pathIn root p)) = scans.map again := by
  intro scans
  have once : (scans.map (·.path)).Nodup := paths_nodup finds fun _ _ made => scan_path made
  rw [List.map_filterMap]
  refine List.filterMap_congr fun p hp => ?_
  cases made : scan outliner fs previous p (pathIn root p) with
  | none => rw [scan_eq_none_iff.mpr ((same p hp).trans (scan_eq_none_iff.mp made)), Option.map_none]
  | some s =>
    obtain ⟨files, symbols, outlines⟩ := assemble_scan once (List.mem_filterMap.mpr ⟨p, hp, made⟩)
    have own := scan_path made
    rw [own] at files symbols outlines
    exact scan_known ((same p hp).trans (scan_fingerprint made)) own files symbols outlines

end scans

section passes
variable {write write' : SnapshotWriter} {outliner outliner' : Outliner} {s s' : IndexState} {scans : List FileScan}

theorem passBy_index (stepwise : write.Stepwise)
    (proper : (settings.statePaths root.path).snapshot.hasNull = false)
    (scanned : scanAll outliner settings s.files (s.index.previousFor root) root = .ok scans) :
    (exec (passBy write outliner settings root) s).2.index = ⟨assemble scans, some root, true⟩ := by
  obtain ⟨e, -, done⟩ | ⟨blob, outcome, files, -, -, done⟩ := passBy_cases stepwise proper scanned
  all_goals exact congrArg (·.2.index) done

/-- After a pass that could walk, the next one finds the same files, and in the index all that it needs of them. -/
theorem scanAll_again (outliner' : Outliner) (stepwise : write.Stepwise) (below : root.Plain) (plain : settings.PlainStateFolder)
    {places : List Place} (named : s.files.root.WellNamed)
    (walked : (walk settings root).files s.files.root = .ok places)
    (scanned : scanAll outliner settings s.files (s.index.previousFor root) root = .ok scans)
    (kept : s'.files.root = (exec (passBy write outliner settings root) s).2.files.root)
    (known : s'.index = (exec (passBy write outliner settings root) s).2.index) :
    scanAll outliner' settings s'.files (s'.index.previousFor root) root = .ok (scans.map again) := by
  have finds : Walk.Finds root places := Walk.finds_files (w := walk settings root) named walked
  -- The walk and the looks of its files are the same, because the first pass has changed the folder for state only.
  have skips : settings.stateFolder ∈ (walk settings root).skipped := List.mem_singleton_self _
  have alike : Node.AlikeBut settings.stateFolder (s.files.root.top root) (s'.files.root.top root) := by
    rw [kept]
    exact passBy_alikeBut below plain stepwise ((named.top root).ready _) scanned
  have walked' : (walk settings root).files s'.files.root = .ok places :=
    (Walk.files_of_alikeBut skips alike).symm.trans walked
  have looks : ∀ place ∈ places, s'.files.fingerprintAt? place = s.files.fingerprintAt? place := by
    intro place there
    rw [FileSystem.fingerprintAt?, FileSystem.fingerprintAt?,
      Walk.at?_of_alikeBut skips (named.top root) alike walked there]
  have previous : s'.index.previousFor root = assemble scans := by
    rw [known, passBy_index stepwise (hasNull_snapshot below plain) scanned, SymbolIndex.previousFor, if_pos rfl]
  obtain rfl := Except.ok.inj ((scanAll_walked outliner walked _).symm.trans scanned)
  rw [scanAll_walked outliner' walked', previous, scans_again finds looks]

/-- A pass that finds in its index all that another one found has the outcome and the index of that one, and leaves the
snapshot or stores this index in it. -/
theorem passBy_again (stepwise : write.Stepwise) (stepwise' : write'.Stepwise)
    (proper : (settings.statePaths root.path).snapshot.hasNull = false)
    (scanned : scanAll outliner settings s.files (s.index.previousFor root) root = .ok scans)
    (scanned' : scanAll outliner' settings s'.files (s'.index.previousFor root) root = .ok (scans.map again)) :
    let path := (settings.statePaths root.path).snapshot
    let first := exec (passBy write outliner settings root) s
    let second := exec (passBy write' outliner' settings root) s'
    second.1 = first.1.map (fun _ => []) ∧ second.2.index = first.2.index ∧
      (second.2.files.bytesOf? path = s'.files.bytesOf? path ∨ ∃ blob,
        Snapshot.encode first.2.index.data = .ok blob ∧ second.2.files.bytesOf? path = some blob) := by
  intro path first second
  have index : first.2.index = _ := passBy_index stepwise proper scanned
  have index' : second.2.index = _ := passBy_index stepwise' proper scanned'
  rw [assemble_again] at index'
  have asked : ((scans.map again).filter (·.outlined)).map (·.path) = [] := by simp [again]
  have left := passBy_cases stepwise proper scanned
  have left' := passBy_cases stepwise' proper scanned'
  rw [assemble_again, asked] at left'
  rw [index, index']
  -- Both indexes are the same, so that either both have an encoding or none has.
  obtain ⟨e, lost, done⟩ | ⟨blob, outcome, files, encoded, -, done⟩ := left
  · obtain ⟨e', lost', done'⟩ | ⟨_, _, _, encoded', -, -⟩ := left'
    · obtain rfl : e = e' := Except.error.inj (lost.symm.trans lost')
      have failed : first.1 = .error e := congrArg Prod.fst done
      refine ⟨?_, rfl, .inl (congrArg (·.2.files.bytesOf? path) done')⟩
      rw [failed]
      exact congrArg Prod.fst done'
    · cases lost.symm.trans encoded'
  · obtain ⟨_, lost', -⟩ | ⟨blob', outcome', files', encoded', storing', done'⟩ := left'
    · cases encoded.symm.trans lost'
    · obtain rfl : blob = blob' := Except.ok.inj (encoded.symm.trans encoded')
      have returned : first.1 = .ok _ := congrArg Prod.fst done
      have now : second.2.files = files' := congrArg (·.2.files) done'
      refine ⟨?_, rfl, ?_⟩
      · rw [returned]
        exact congrArg Prod.fst done'
      · rw [now]
        exact storing'.bytes_old_or_new.imp_right fun stored => ⟨blob, encoded, stored⟩

end passes

/-- For every state of the files and of the index, whatever the outlines of two passes and wherever the storing of either
of them stops, if nothing changes the files between the passes but the clock. If the first pass cannot walk, neither can
the second, and they change nothing. Otherwise the second pass asks for no outline, has the outcome of the first, ends with
the index of the first, and leaves in the snapshot what the first left or the bytes of this index. Where the first stored
these, they stay. -/
theorem second_pass_keeps_index {write write' : SnapshotWriter} (stepwise : write.Stepwise) (stepwise' : write'.Stepwise)
    (outliner outliner' : Outliner) {settings : Settings} (plain : settings.PlainStateFolder) {root : Place}
    (below : root.Plain) (s : IndexState) (named : s.files.root.WellNamed) (later : Int) :
    let path := (settings.statePaths root.path).snapshot
    let first := exec (passBy write outliner settings root) s
    let between : IndexState := { first.2 with files := { first.2.files with now := later } }
    let second := exec (passBy write' outliner' settings root) between
    match scanAll outliner settings s.files (s.index.previousFor root) root with
    | .error b => first = (.error (.breakdown b), s) ∧ second = (.error (.breakdown b), between)
    | .ok _ =>
      (∃ scans', scanAll outliner' settings between.files (between.index.previousFor root) root = .ok scans' ∧
          ∀ scan ∈ scans', scan.outlined = false) ∧
        second.1 = first.1.map (fun _ => []) ∧
        second.2.index = first.2.index ∧
        (second.2.files.bytesOf? path = first.2.files.bytesOf? path ∨ ∃ blob,
          Snapshot.encode first.2.index.data = .ok blob ∧ second.2.files.bytesOf? path = some blob) ∧
        ∀ blob, Snapshot.encode first.2.index.data = .ok blob → first.2.files.bytesOf? path = some blob →
          second.2.files.bytesOf? path = some blob := by
  intro path first between second
  cases walked : (walk settings root).files s.files.root with
  | error b =>
    have broken := scanAll_broken outliner walked (s.index.previousFor root)
    have done : first = (.error (.breakdown b), s) := passBy_broken broken
    have unchanged : between.files.root = s.files.root := congrArg (·.2.files.root) done
    rw [broken]
    exact ⟨done, passBy_broken (scanAll_broken outliner' (unchanged ▸ walked) _)⟩
  | ok places =>
    have scanned := scanAll_walked outliner walked (s.index.previousFor root)
    have proper : path.hasNull = false := hasNull_snapshot below plain
    rw [scanned]
    have scanned' : scanAll outliner' settings between.files (between.index.previousFor root) root = _ :=
      scanAll_again outliner' stepwise below plain named walked scanned rfl rfl
    obtain ⟨returned, index, bytes⟩ := passBy_again stepwise stepwise' proper scanned scanned'
    refine ⟨⟨_, scanned', fun _ => not_outlined_again⟩, returned, index, bytes, fun blob encoded stored => ?_⟩
    obtain kept | ⟨blob', encoded', stored'⟩ := bytes
    · exact kept.trans stored
    · obtain rfl : blob = blob' := Except.ok.inj (encoded.symm.trans encoded')
      exact stored'

/-- No file has an outline. -/
def noOutlines : Outliner := fun _ _ => .error (.breakdown .badValue)

/-- The first pass has no outlines, so that it keeps an old symbol of a file that has changed. The second pass does not
ask for them, though it would get them. -/
theorem second_pass_keeps_index_without_outlines :
    let first := exec (pass noOutlines {} ["w"]) indexedBefore
    let second := exec (pass IndexRun.sizeOutliner {} ["w"])
      { first.2 with files := { first.2.files with now := 200 } }
    ({} : Settings).PlainStateFolder ∧ Place.Plain ["w"] ∧ indexedBefore.files.root.WellNamed ∧
      second.1 = first.1.map (fun _ => []) ∧ second.2.index = first.2.index := by
  intro first second
  have plain : ({} : Settings).PlainStateFolder := ⟨⟨by decide, by decide, by decide⟩, by decide, by decide⟩
  have below : Place.Plain ["w"] := by simp [Place.Plain]
  have kept := second_pass_keeps_index writeSnapshot_storing writeSnapshot_storing noOutlines IndexRun.sizeOutliner
    plain below indexedBefore IndexRun.wellNamed_filesBefore 200
  have walked : (walk {} ["w"]).files indexedBefore.files.root = .ok [["w", "a.py"], ["w", "b.py"]] :=
    IndexRun.files_filesBefore
  rw [scanAll_walked noOutlines walked, ← pass_eq_passBy] at kept
  obtain ⟨-, outcome, index, -⟩ := kept
  exact ⟨plain, below, IndexRun.wellNamed_filesBefore, outcome, index⟩

end SymbolIndex
end CodeAgent
