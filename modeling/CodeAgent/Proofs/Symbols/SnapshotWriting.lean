import CodeAgent.Proofs.Symbols.Rebuild
import CodeAgent.Proofs.Workspace.FileChanges

/-! Storing an index, and what becomes of the index, of the files and of the snapshot when a step of that fails. The
bytes go to a draft first, and only a whole draft takes the place of the snapshot. -/
namespace CodeAgent
open CodeAgent.Text CodeAgent.Action FileSystem

namespace SymbolIndex
variable {fs fs' : FileSystem} {paths : StatePaths} {blob : Bytes}

/-- A file goes from the place that its path names to another one, where there was no folder. -/
theorem replaceFile_spec {source target : Path} (done : replaceFile fs source target = .ok fs') :
    ∃ old new content modified, fs.resolve source = .ok old ∧ fs.resolve target = .ok new ∧
      fs.root.at? old = some (.file content modified) ∧ fs.root.Leads new ∧ fs.root.holding new ≠ .folder ∧
      fs' = { fs with root := (fs.root.remove old).put new (.file content modified) } := by
  obtain ⟨node, there, rest⟩ := exists_of_bind_eq_ok done
  obtain ⟨spot, found, known⟩ := exists_of_bind_eq_ok there
  have seen := look_seen found
  cases node with
  | folder => cases rest
  | file content modified =>
    obtain ⟨goal, sought, rest⟩ := exists_of_bind_eq_ok rest
    have sighted := look_seen sought
    obtain ⟨spot', found', rest⟩ := exists_of_bind_eq_ok rest
    cases found.symm.trans found'
    split at rest
    · cases rest
    next free =>
      cases rest
      refine ⟨spot.place, goal.place, content, modified, seen.named, sighted.named, ?_, sighted.leads,
        sighted.ne_folder free, rfl⟩
      rw [← seen.node]
      split at known
      · next n node =>
        cases known
        exact node
      · cases known

/-- A file that takes the place of another one is gone from its own. -/
theorem replaceFile_changes {source target : Path} (done : replaceFile fs source target = .ok fs') :
    fs.Changes (fs.placeOf source ∪ fs.placeOf target) ∅ fs' := by
  obtain ⟨old, new, content, modified, named, named', file, leads, free, rfl⟩ := replaceFile_spec done
  refine ⟨rfl, rfl, rfl, fun q => ?_⟩
  rw [Node.holding_move file leads free]
  split
  · next here =>
    subst here
    exact .written (.inr named') free nofun
  split
  · next here =>
    subst here
    refine .written (.inl named) ?_ nofun
    rw [Node.holding, file]
    exact nofun
  · exact .kept _

/-- The places of a snapshot that are written: that of its draft, and its own if all goes well. -/
def snapshotPlaces (fs : FileSystem) (paths : StatePaths) (done : Bool) : Set Place :=
  { q | q ∈ fs.placeOf paths.snapshotDraft ∨ done ∧ q ∈ fs.placeOf paths.snapshot }

theorem snapshotPlaces_mono {done done' : Bool} (more : done → done') :
    snapshotPlaces fs paths done ⊆ snapshotPlaces fs paths done' :=
  fun _ => Or.imp_right (And.imp_left more)

theorem writeSnapshot_changes (paths : StatePaths) (blob : Bytes) (fs : FileSystem) :
    fs.Changes (snapshotPlaces fs paths (exec (writeSnapshot paths blob) fs).1.isOk)
      (fs.placesOn paths.snapshot.parent) (exec (writeSnapshot paths blob) fs).2 := by
  have folder : paths.snapshotDraft.parent = paths.snapshot.parent := by
    simp [StatePaths.snapshotDraft, StatePaths.snapshot, Path.parent, Path.child]
  rw [writeSnapshot, exec_bind]
  rcases drafted : exec (FileAction.writeFile paths.snapshotDraft blob) fs with ⟨e | _, mid⟩
  · have left := FileAction.writeFile_failed drafted
    rw [folder] at left
    exact left.mono (Set.empty_subset _) subset_rfl
  · have written := (FileAction.writeFile_done drafted).1
    rw [folder] at written
    dsimp only
    rw [FileAction.exec_change]
    cases replaced : replaceFile mid paths.snapshotDraft paths.snapshot with
    | error e => exact written.mono (fun q draft => .inl draft) subset_rfl
    | ok fs' =>
      have moved := replaceFile_changes replaced
      rw [written.placeOf, written.placeOf] at moved
      refine (written.trans moved fun _ _ none => none.elim).mono ?_ (by simp)
      rintro q (draft | draft | own)
      · exact .inl draft
      · exact .inl draft
      · exact .inr ⟨rfl, own⟩

theorem store_changes (paths : StatePaths) (data : IndexData) (s : IndexState) :
    s.files.Changes (snapshotPlaces s.files paths (exec (store paths data) s).1.isOk)
      (s.files.placesOn paths.snapshot.parent) (exec (store paths data) s).2.files := by
  rw [store, store.liftExcept, exec_bind, exec_mk_pure]
  cases Snapshot.encode data with
  | error e => exact .refl _
  | ok blob =>
    have written := writeSnapshot_changes paths blob s.files
    dsimp only
    rw [exec_bind, exec_get]
    dsimp only
    unfold exec at written
    rcases run : (writeSnapshot paths blob).run.run s.files with ⟨outcome, files⟩
    rw [run] at written
    dsimp only
    rw [exec_bind, exec_set]
    dsimp only
    split
    · exact written
    · exact written.mono (snapshotPlaces_mono fun _ => rfl) subset_rfl

theorem pass_changes (outliner : Outliner) (settings : Settings) (root : Place) (s : IndexState) :
    s.files.Changes
      (snapshotPlaces s.files (settings.statePaths root.path) (exec (pass outliner settings root) s).1.isOk)
      (s.files.placesOn (settings.statePaths root.path).snapshot.parent)
      (exec (pass outliner settings root) s).2.files := by
  rw [pass, exec_bind, exec_get]
  dsimp only
  split
  · exact .refl _
  · next scans walked =>
    rw [exec_bind, exec_set]
    dsimp only
    have stored := store_changes (settings.statePaths root.path) (assemble scans)
      { s with index := { data := assemble scans, root := some root, passed := true } }
    rw [exec_bind]
    split
    · next run =>
      rw [run] at stored
      exact stored
    · next run =>
      rw [run] at stored
      exact stored

end SymbolIndex

namespace Path

theorem child_names (p : Path) (name : String) : (p.child name).names = p.names ++ [name] := rfl

theorem hasNull_child {p : Path} {name : String} (proper : '\x00' ∉ name.toList) : (p.child name).hasNull = p.hasNull := by
  rw [hasNull, child_names, List.any_append]
  simp [hasNull, proper]

theorem parent_child (p : Path) (name : String) : (p.child name).parent = p := by
  rw [parent, child_names, List.dropLast_concat]
  rfl

end Path

/-- The bytes of a file. -/
def Holding.bytes? : Holding → Option Bytes
  | .file content _ => some content
  | _ => none

namespace FileSystem
variable {fs fs' : FileSystem} {p : Path} {place : Place} {writable makable : Set Place}

/-- The bytes of the file at the place that a path names. -/
def bytesOf? (fs : FileSystem) (p : Path) : Option Bytes :=
  (fs.resolve p).toOption.bind fun place => (fs.root.holding place).bytes?

theorem bytesOf?_eq (named : fs.resolve p = .ok place) : fs.bytesOf? p = (fs.root.holding place).bytes? := by
  rw [bytesOf?, named]
  rfl

theorem resolve_congr (current : fs'.current = fs.current) (p : Path) : fs'.resolve p = fs.resolve p := by
  rw [resolve, resolve, current]

/-- A file keeps its bytes where no file is written. -/
theorem Changes.bytesOf?_eq (changes : fs.Changes writable makable fs') (apart : ∀ q ∈ fs.placeOf p, q ∉ writable) :
    fs'.bytesOf? p = fs.bytesOf? p := by
  rw [bytesOf?, bytesOf?, resolve_congr changes.current]
  cases named : fs.resolve p with
  | error e => rfl
  | ok place =>
    have became := changes.places place
    simp only [Except.toOption, Option.bind_some]
    generalize fs.root.holding place = before at became ⊢
    generalize fs'.root.holding place = after at became ⊢
    cases became with
    | kept => rfl
    | made => rfl
    | written allowed => exact absurd allowed (apart place named)

theorem bytesOf?_writeBytes {content : Bytes} (done : fs.writeBytes p content = .ok fs') :
    fs'.bytesOf? p = some content := by
  obtain ⟨place, named, -, -, same⟩ := writeBytes_spec done
  have current : fs'.current = fs.current := by rw [same]
  rw [bytesOf?_eq ((resolve_congr current p).trans named), same, Node.holding_put_self]
  rfl

theorem resolve_child {name : String} (down : name ≠ "..") (named : fs.resolve (p.child name) = .ok place) :
    ∃ folder, place = folder ++ [name] := by
  rw [resolve] at named
  split at named
  · cases named
  · cases named
    rw [Path.child_names, Place.follow, List.foldl_concat, if_neg (by simpa using down)]
    exact ⟨_, rfl⟩

end FileSystem

namespace StatePaths
variable {paths : StatePaths} {fs : FileSystem}

theorem parent_snapshotDraft (paths : StatePaths) : paths.snapshotDraft.parent = paths.snapshot.parent := by
  rw [snapshotDraft, snapshot, Path.parent_child, Path.parent_child]

theorem hasNull_snapshotDraft (paths : StatePaths) : paths.snapshotDraft.hasNull = paths.snapshot.hasNull := by
  rw [snapshotDraft, snapshot, Path.hasNull_child (by decide), Path.hasNull_child (by decide)]

/-- The draft of a snapshot is another file. -/
theorem notMem_placeOf_snapshotDraft {q : Place} (own : q ∈ fs.placeOf paths.snapshot) :
    q ∉ fs.placeOf paths.snapshotDraft := by
  intro draft
  obtain ⟨folder, rfl⟩ := resolve_child (by decide) own
  obtain ⟨folder', same⟩ := resolve_child (by decide) draft
  exact absurd (List.append_inj' same rfl).2 (by decide)

end StatePaths

namespace SymbolIndex
variable {fs fs' : FileSystem} {paths : StatePaths} {blob : Bytes} {e : FileError}

/-- What may come of storing bytes, wherever the file system stops it. A path with a null character is not taken. On any
other path some missing folders are made, a start of the bytes is written to the draft, and only when all of them are
in it does the draft take the place of the snapshot. -/
inductive Storing (paths : StatePaths) (blob : Bytes) (fs : FileSystem) : Except FileError Unit → FileSystem → Prop
  | noPath (null : paths.snapshot.hasNull = true) : Storing paths blob fs (.error .nullCharacter) fs
  | folders {fs' : FileSystem} {e : FileError} (proper : paths.snapshot.hasNull = false)
    (made : fs.FoldersMade paths.snapshot.parent fs') (refused : e.isTextual = false) : Storing paths blob fs (.error e) fs'
  | draft {mid fs' : FileSystem} {part : Bytes} {e : FileError} (proper : paths.snapshot.hasNull = false)
    (made : fs.FoldersMade paths.snapshot.parent mid) (start : part <+: blob)
    (written : mid.writeBytes paths.snapshotDraft part = .ok fs') (refused : e.isTextual = false) :
    Storing paths blob fs (.error e) fs'
  | stored {mid drafted fs' : FileSystem} (proper : paths.snapshot.hasNull = false)
    (made : fs.FoldersMade paths.snapshot.parent mid) (written : mid.writeBytes paths.snapshotDraft blob = .ok drafted)
    (replaced : replaceFile drafted paths.snapshotDraft paths.snapshot = .ok fs') : Storing paths blob fs (.ok ()) fs'

theorem replaceFile_error {source target : Path} (proper : source.hasNull = false) (proper' : target.hasNull = false)
    (failed : replaceFile fs source target = .error e) : e.isTextual = false := by
  obtain failed | ⟨node, -, failed⟩ := eq_error_of_bind failed
  · exact existing_error proper failed
  cases node with
  | folder =>
    cases failed
    rfl
  | file content modified =>
    obtain failed | ⟨spot, -, failed⟩ := eq_error_of_bind failed
    · exact look_error proper' failed
    obtain failed | ⟨spot', -, failed⟩ := eq_error_of_bind failed
    · exact look_error proper failed
    split at failed <;> cases failed
    rfl

theorem bytesOf?_replaceFile {source target : Path} (done : replaceFile fs source target = .ok fs') :
    fs'.bytesOf? target = fs.bytesOf? source := by
  obtain ⟨old, new, content, modified, named, named', file, -, -, same⟩ := replaceFile_spec done
  have current : fs'.current = fs.current := by rw [same]
  have held : fs.root.holding old = .file content modified := by
    rw [Node.holding, file]
    rfl
  rw [bytesOf?_eq ((resolve_congr current target).trans named'), bytesOf?_eq named, held, same, Node.holding_put_self]
  rfl

/-- To store bytes is to make the folders first. -/
theorem storing_after_folders {rest : FileAction Unit} (goes_on : ∀ mid, paths.snapshot.hasNull = false →
      fs.FoldersMade paths.snapshot.parent mid → Storing paths blob fs (exec rest mid).1 (exec rest mid).2) :
    let run := exec (do FileAction.makeFolders paths.snapshot.parent; rest) fs
    Storing paths blob fs run.1 run.2 := by
  have folder (null : Bool) (held : paths.snapshot.hasNull = null) : paths.snapshot.parent.hasNull = null := by
    rw [← held, StatePaths.snapshot, Path.parent_child, Path.hasNull_child (by decide)]
  rw [exec_bind]
  cases null : paths.snapshot.hasNull with
  | true =>
    rw [FileAction.exec_makeFolders_of_null (folder true null)]
    exact .noPath null
  | false =>
    have made := FileAction.makeFolders_made paths.snapshot.parent fs
    rcases run : exec (FileAction.makeFolders paths.snapshot.parent) fs with ⟨e | _, mid⟩
    all_goals rw [run] at made
    · exact .folders null made (FileAction.makeFolders_error (folder false null) (congrArg Prod.fst run))
    · exact goes_on mid null made

/-- A snapshot is stored in this way. -/
theorem writeSnapshot_storing (paths : StatePaths) (blob : Bytes) (fs : FileSystem) :
    Storing paths blob fs (exec (writeSnapshot paths blob) fs).1 (exec (writeSnapshot paths blob) fs).2 := by
  rw [writeSnapshot, FileAction.writeFile, paths.parent_snapshotDraft, bind_assoc]
  refine storing_after_folders fun mid proper made => ?_
  have draft := paths.hasNull_snapshotDraft.trans proper
  rw [exec_bind, FileAction.exec_change]
  cases written : mid.writeBytes paths.snapshotDraft blob with
  | error e => exact .folders proper made (writeBytes_error draft written)
  | ok drafted =>
    dsimp only
    rw [FileAction.exec_change]
    cases replaced : replaceFile drafted paths.snapshotDraft paths.snapshot with
    | error e => exact .draft proper made List.prefix_rfl written (replaceFile_error draft proper replaced)
    | ok fs' => exact .stored proper made written replaced

namespace Storing

/-- As long as it fails, the snapshot keeps its bytes. -/
theorem bytes_kept (storing : Storing paths blob fs (.error e) fs') :
    fs'.bytesOf? paths.snapshot = fs.bytesOf? paths.snapshot := by
  cases storing with
  | noPath => rfl
  | folders _ made => exact made.changes.bytesOf?_eq fun _ _ => id
  | draft _ made _ written =>
    rw [(writeBytes_changes written).1.bytesOf?_eq fun _ own => StatePaths.notMem_placeOf_snapshotDraft own]
    exact made.changes.bytesOf?_eq fun _ _ => id

/-- In the end the snapshot has all bytes. -/
theorem bytes_stored (storing : Storing paths blob fs (.ok ()) fs') : fs'.bytesOf? paths.snapshot = some blob := by
  obtain _ | _ | _ | ⟨_, _, written, replaced⟩ := storing
  rw [bytesOf?_replaceFile replaced, bytesOf?_writeBytes written]

/-- Wherever it stops, the snapshot has its old bytes or all the new ones. -/
theorem bytes_old_or_new {outcome : Except FileError Unit} (storing : Storing paths blob fs outcome fs') :
    fs'.bytesOf? paths.snapshot = fs.bytesOf? paths.snapshot ∨ fs'.bytesOf? paths.snapshot = some blob := by
  cases outcome with
  | error e => exact .inl storing.bytes_kept
  | ok => exact .inr storing.bytes_stored

end Storing

/-- A way of storing bytes under the paths of a workspace. -/
abbrev SnapshotWriter := StatePaths → Bytes → FileAction Unit

/-- Store an index by a writer of snapshots. -/
def storeBy (write : SnapshotWriter) (paths : StatePaths) (data : IndexData) : IndexAction Unit := do
  let blob ← store.liftExcept (Snapshot.encode data)
  let state ← get
  let (outcome, files) := (write paths blob).run.run state.files
  set { state with files }
  match outcome with
  | .error .nullCharacter => throw (.file .nullCharacter)
  | _ => pure ()

/-- A pass that stores its index by a writer of snapshots. The own one of the index is `writeSnapshot`; one that is
stopped after a part of the draft stands for a disk that is full. -/
def passBy (write : SnapshotWriter) (outliner : Outliner) (settings : Settings) (root : Place) :
    IndexAction (List String) := do
  let state ← get
  match scanAll outliner settings state.files (state.index.previousFor root) root with
  | .error b => throw (.breakdown b)
  | .ok scans =>
    let data := assemble scans
    set { state with index := { data, root := some root, passed := true } }
    storeBy write (settings.statePaths root.path) data
    return (scans.filter (·.outlined)).map (·.path)

theorem pass_eq_passBy : pass = passBy writeSnapshot := rfl

/-- A writer stores bytes step by step, and may be stopped at any step. -/
def SnapshotWriter.Stepwise (write : SnapshotWriter) : Prop :=
  ∀ paths blob fs, Storing paths blob fs (exec (write paths blob) fs).1 (exec (write paths blob) fs).2

section passes
variable {write : SnapshotWriter} {outliner : Outliner} {settings : Settings} {root : Place} {data : IndexData}
  {scans : List FileScan} {s : IndexState}

theorem storeBy_unencoded {e : Failure} (lost : Snapshot.encode data = .error e) :
    exec (storeBy write paths data) s = (.error e, s) := by
  rw [storeBy, store.liftExcept, exec_bind, exec_mk_pure, lost]

/-- Only a path with a null character makes the storing of an encoded index fail. -/
theorem storeBy_encoded (stepwise : write.Stepwise) (encoded : Snapshot.encode data = .ok blob) (paths : StatePaths)
    (s : IndexState) :
    if paths.snapshot.hasNull then exec (storeBy write paths data) s = (.error (.file .nullCharacter), s)
    else ∃ outcome files, Storing paths blob s.files outcome files ∧
      exec (storeBy write paths data) s = (.ok (), { s with files }) := by
  have storing := stepwise paths blob s.files
  rw [storeBy, store.liftExcept, exec_bind, exec_mk_pure, encoded]
  dsimp only
  rw [exec_bind, exec_get]
  dsimp only
  unfold exec at storing
  rcases run : (write paths blob).run.run s.files with ⟨outcome, files⟩
  rw [run] at storing
  dsimp only
  rw [exec_bind, exec_set]
  dsimp only at storing ⊢
  split_ifs with null
  · cases storing with
    | noPath => rfl
    | folders proper | draft proper | stored proper =>
      rw [null] at proper
      cases proper
  · refine ⟨outcome, files, storing, ?_⟩
    cases storing with
    | noPath null' => exact absurd null' null
    | folders _ _ refused | draft _ _ _ _ refused =>
      split
      · next same =>
        cases same
        cases refused
      · rfl
    | stored => rfl

theorem passBy_broken {b : Breakdown}
    (broken : scanAll outliner settings s.files (s.index.previousFor root) root = .error b) :
    exec (passBy write outliner settings root) s = (.error (.breakdown b), s) := by
  rw [passBy, exec_bind, exec_get]
  dsimp only
  rw [broken]
  rfl

theorem passBy_walked
    (walked : scanAll outliner settings s.files (s.index.previousFor root) root = .ok scans) :
    exec (passBy write outliner settings root) s =
      let stored := exec (storeBy write (settings.statePaths root.path) (assemble scans))
        { s with index := { data := assemble scans, root := some root, passed := true } }
      (stored.1.map fun _ => (scans.filter (·.outlined)).map (·.path), stored.2) := by
  rw [passBy, exec_bind, exec_get]
  dsimp only
  rw [walked]
  dsimp only
  rw [exec_bind, exec_set]
  dsimp only
  rw [exec_bind]
  split
  · next run =>
    rw [run]
    rfl
  · next run =>
    rw [run]
    rfl

/-- Under a path that the file system can take, a pass that walks fails only if its index cannot be encoded. -/
theorem passBy_cases (stepwise : write.Stepwise) (proper : (settings.statePaths root.path).snapshot.hasNull = false)
    (walked : scanAll outliner settings s.files (s.index.previousFor root) root = .ok scans) :
    (∃ e, Snapshot.encode (assemble scans) = .error e ∧ exec (passBy write outliner settings root) s =
        (.error e, { s with index := ⟨assemble scans, some root, true⟩ })) ∨
      ∃ blob outcome files, Snapshot.encode (assemble scans) = .ok blob ∧
        Storing (settings.statePaths root.path) blob s.files outcome files ∧
        exec (passBy write outliner settings root) s =
          (.ok ((scans.filter (·.outlined)).map (·.path)), ⟨files, ⟨assemble scans, some root, true⟩⟩) := by
  rw [passBy_walked walked]
  cases encoded : Snapshot.encode (assemble scans) with
  | error e =>
    rw [storeBy_unencoded encoded]
    exact .inl ⟨e, rfl, rfl⟩
  | ok blob =>
    have stored := storeBy_encoded stepwise encoded (settings.statePaths root.path)
      { s with index := { data := assemble scans, root := some root, passed := true } }
    rw [if_neg (by simp [proper])] at stored
    obtain ⟨outcome, files, storing, stored⟩ := stored
    rw [stored]
    exact .inr ⟨blob, outcome, files, rfl, storing, rfl⟩

/-- For every state of the files and of the index, and whatever step of storing the new index fails. A pass that cannot
walk changes nothing. After any other pass the new index is in place, also if it could not be stored, and the snapshot
has the bytes that it had before or all those of the new index. Only if the new index cannot be encoded, or the path of
the snapshot has a null character, does the pass fail then, and it leaves the files as they were. -/
theorem pass_leaves_old_or_new_snapshot (stepwise : write.Stepwise) (outliner : Outliner) (settings : Settings)
    (root : Place) (s : IndexState) :
    let path := (settings.statePaths root.path).snapshot
    let after := exec (passBy write outliner settings root) s
    match scanAll outliner settings s.files (s.index.previousFor root) root with
    | .error b => after = (.error (.breakdown b), s)
    | .ok scans =>
      let encoding := Snapshot.encode (assemble scans)
      after.2.index = ⟨assemble scans, some root, true⟩ ∧
        (after.2.files.bytesOf? path = s.files.bytesOf? path ∨
          ∃ blob, encoding = .ok blob ∧ after.2.files.bytesOf? path = some blob) ∧
        (∀ e, after.1 = .error e ↔
          encoding = .error e ∨ encoding.isOk ∧ path.hasNull ∧ e = .file .nullCharacter) ∧
        ∀ e, after.1 = .error e → after.2.files = s.files := by
  cases walked : scanAll outliner settings s.files (s.index.previousFor root) root with
  | error b => exact passBy_broken walked
  | ok scans =>
    dsimp only
    rw [passBy_walked walked]
    cases encoded : Snapshot.encode (assemble scans) with
    | error e =>
      rw [storeBy_unencoded encoded]
      refine ⟨rfl, .inl rfl, fun e' => ?_, fun _ _ => rfl⟩
      simp [Except.map, Except.isOk, Except.toBool]
    | ok blob =>
      have stored := storeBy_encoded stepwise encoded (settings.statePaths root.path)
        { s with index := { data := assemble scans, root := some root, passed := true } }
      split_ifs at stored with null
      · rw [stored]
        refine ⟨rfl, .inl rfl, fun e' => ?_, fun _ _ => rfl⟩
        simp [Except.map, Except.isOk, Except.toBool, null, eq_comm]
      · obtain ⟨outcome, files, storing, stored⟩ := stored
        rw [stored]
        dsimp only [Except.map]
        refine ⟨rfl, ?_, fun e' => ?_, fun _ failed => nomatch failed⟩
        · exact storing.bytes_old_or_new.imp_right fun stored => ⟨blob, rfl, stored⟩
        · simp [null]

end passes

/-- A disk that has room for half of the bytes. -/
def fullDisk : SnapshotWriter := fun paths blob => do
  FileAction.makeFolders paths.snapshot.parent
  FileAction.change (·.writeBytes paths.snapshotDraft (blob.take (blob.length / 2)))
  throw (.refused .missing paths.snapshotDraft)

theorem stepwise_fullDisk : fullDisk.Stepwise := by
  intro paths blob fs
  refine storing_after_folders fun mid proper made => ?_
  rw [exec_bind, FileAction.exec_change]
  cases written : mid.writeBytes paths.snapshotDraft (blob.take (blob.length / 2)) with
  | error e => exact .folders proper made (writeBytes_error (paths.hasNull_snapshotDraft.trans proper) written)
  | ok fs' => exact .draft proper made (List.take_prefix _ _) written rfl

/-- On a full disk the first pass over two files succeeds, and the files are in the index. -/
theorem pass_leaves_old_or_new_snapshot_on_full_disk :
    let s : IndexState := { files := IndexRun.filesBefore, index := {} }
    let after := exec (passBy fullDisk IndexRun.sizeOutliner {} ["w"]) s
    let path := (({} : Settings).statePaths (Place.path ["w"])).snapshot
    fullDisk.Stepwise ∧ after.1.isOk ∧ after.2.index = ⟨assemble IndexRun.scansBefore, some ["w"], true⟩ ∧
      (after.2.files.bytesOf? path = none ∨ after.2.files.bytesOf? path = some IndexRun.blobBefore) := by
  intro s after path
  have left := pass_leaves_old_or_new_snapshot stepwise_fullDisk IndexRun.sizeOutliner {} ["w"] s
  have walked : scanAll IndexRun.sizeOutliner {} s.files (s.index.previousFor ["w"]) ["w"] = .ok IndexRun.scansBefore :=
    IndexRun.scanAll_filesBefore
  rw [walked] at left
  dsimp only at left
  rw [IndexRun.encode_scansBefore] at left
  obtain ⟨index, bytes, fails, -⟩ := left
  refine ⟨stepwise_fullDisk, ?_, index, ?_⟩
  · cases outcome : after.1 with
    | ok => rfl
    | error e =>
      obtain lost | ⟨-, null, -⟩ := (fails e).mp outcome
      · cases lost
      · exact absurd null (by decide +kernel)
  · have before : s.files.bytesOf? path = none := by decide +kernel
    rw [before] at bytes
    exact bytes.imp_right fun ⟨blob, encoded, stored⟩ => Except.ok.inj encoded ▸ stored

set_option maxRecDepth 10000 in
theorem walked_filesBefore_of_null :
    (walk { stateFolder := "a\x00b" } ["w"]).files IndexRun.filesBefore.root = .ok [["w", "a.py"], ["w", "b.py"]] := by
  change ({ root := ["w"], extensions := some extensions, skipped := ["a\x00b"] } : Walk).files _ = _
  cbv

/-- The folder for state has a null character in its name. The pass fails, but the index is the new one. -/
theorem failing_pass_replaces_index :
    let s : IndexState := { files := IndexRun.filesBefore, index := {} }
    let after := exec (pass IndexRun.sizeOutliner { stateFolder := "a\x00b" } ["w"]) s
    after.1 = .error (.file .nullCharacter) ∧ s.index.root = none ∧ after.2.index.root = some ["w"] := by
  intro s after
  have walked : scanAll IndexRun.sizeOutliner { stateFolder := "a\x00b" } s.files (s.index.previousFor ["w"]) ["w"] =
      .ok IndexRun.scansBefore := by
    rw [scanAll_walked IndexRun.sizeOutliner walked_filesBefore_of_null]
    rfl
  have stored := storeBy_encoded writeSnapshot_storing IndexRun.encode_scansBefore
    (({ stateFolder := "a\x00b" } : Settings).statePaths (Place.path ["w"]))
    { s with index := { data := assemble IndexRun.scansBefore, root := some ["w"], passed := true } }
  rw [if_pos (by decide +kernel)] at stored
  simp only [after]
  rw [pass_eq_passBy, passBy_walked walked]
  dsimp only
  rw [stored]
  exact ⟨rfl, rfl, rfl⟩

end SymbolIndex

end CodeAgent
