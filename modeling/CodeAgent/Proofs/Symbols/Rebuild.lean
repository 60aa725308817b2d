import CodeAgent.Proofs.Symbols.Snapshot
import CodeAgent.Proofs.Workspace.Walked
import CodeAgent.Symbols.Indexer

/-! Passes over a workspace against building its index anew. Whatever was done to the files, to the index
and to its snapshots before, a pass ends in the state in which the first pass of a new index ends. -/
namespace CodeAgent
open CodeAgent.Text

namespace FileSystem

/-- How the file at a place looks. -/
def fingerprintAt? (fs : FileSystem) (place : Place) : Option Fingerprint :=
  (fs.root.at? place).bind SymbolIndex.fingerprint?

end FileSystem

namespace Outliner

/-- What is expected of outlines over some states of a file system: every file has one, and a file that
looks the same in two of the states has the same outline in both. -/
structure Steady (outliner : Outliner) (seen : List FileSystem) : Prop where
  named : ∀ fs ∈ seen, fs.root.WellNamed
  outlined : ∀ fs ∈ seen, ∀ place f, fs.fingerprintAt? place = some f →
    ∃ outline, outliner fs place = .ok outline
  stable : ∀ fs ∈ seen, ∀ fs' ∈ seen, ∀ place f, fs.fingerprintAt? place = some f →
    fs'.fingerprintAt? place = some f → outliner fs place = outliner fs' place

theorem Steady.mono {outliner : Outliner} {seen seen' : List FileSystem} (steady : outliner.Steady seen')
    (fewer : seen ⊆ seen') : outliner.Steady seen where
  named fs h := steady.named fs (fewer h)
  outlined fs h := steady.outlined fs (fewer h)
  stable fs h fs' h' := steady.stable fs (fewer h) fs' (fewer h')

end Outliner

namespace IndexAction
variable {α β : Type}

/-- What an action makes of a state. -/
def exec (a : IndexAction α) (s : IndexState) : Except Failure α × IndexState := a.run.run s

theorem exec_bind (a : IndexAction α) (f : α → IndexAction β) (s : IndexState) :
    exec (a >>= f) s = match exec a s with
      | (.ok x, s') => exec (f x) s'
      | (.error e, s') => (.error e, s') := by
  change (ExceptT.bindCont f (exec a s).1).run (exec a s).2 = _
  cases exec a s with
  | mk outcome s' => cases outcome <;> rfl

@[simp]
theorem exec_pure (a : α) (s : IndexState) : exec (pure a) s = (.ok a, s) := rfl

@[simp]
theorem exec_throw (e : Failure) (s : IndexState) : exec (throw e : IndexAction α) s = (.error e, s) := rfl

@[simp]
theorem exec_get (s : IndexState) : exec get s = (.ok s, s) := rfl

@[simp]
theorem exec_set (t s : IndexState) : exec (set t) s = (.ok (), t) := rfl

@[simp]
theorem exec_liftExcept (e : Except Failure α) (s : IndexState) :
    exec (SymbolIndex.store.liftExcept e) s = (e, s) := rfl

-- From here on an action is taken apart by the equations above only.
attribute [irreducible] exec

end IndexAction

open IndexAction

/-- What has come of an index so far: the files and the index now, the states in which passes found the
files, and the snapshots that passes made, each with its root. -/
structure IndexRun where
  state : IndexState
  seen : List FileSystem := []
  stored : List (Place × Bytes) := []

namespace IndexRun

/-- A pass over a root. -/
def pass (outliner : Outliner) (settings : Settings) (root : Place) (r : IndexRun) : IndexRun where
  state := (exec (SymbolIndex.pass outliner settings root) r.state).2
  seen := r.state.files :: r.seen
  stored := match SymbolIndex.scanAll outliner settings r.state.files
      (r.state.index.previousFor root) root with
    | .ok scans => match Snapshot.encode (SymbolIndex.assemble scans) with
      | .ok blob => (root, blob) :: r.stored
      | .error _ => r.stored
    | .error _ => r.stored

/-- A new index that loads the snapshot of a root. -/
def restart (settings : Settings) (root : Place) (r : IndexRun) : IndexRun :=
  { r with state := (exec (SymbolIndex.loadSnapshot settings root) { r.state with index := {} }).2 }

/-- The runs of an index. Files change in any way, passes go over any roots, and a new index takes the place
of the old one, with nothing in it or with a snapshot that an earlier pass over its root made. -/
inductive Reached (outliner : Outliner) : IndexRun → Prop
  | start (files : FileSystem) : Reached outliner { state := { files, index := {} } }
  | change {r : IndexRun} (before : Reached outliner r) (files : FileSystem) :
      Reached outliner { r with state := { r.state with files } }
  | pass {r : IndexRun} (before : Reached outliner r) (settings : Settings) (root : Place) :
      Reached outliner (r.pass outliner settings root)
  | restart {r : IndexRun} (before : Reached outliner r) (settings : Settings) (root : Place)
      (own : ∀ blob, r.state.files.readBytes (settings.statePaths root.path).snapshot = .ok blob →
        (root, blob) ∈ r.stored) :
      Reached outliner (r.restart settings root)

end IndexRun

namespace SymbolIndex

/-- The path of a place in the workspace at a root. -/
def pathIn (root place : Place) : String := ({ root } : Walk).relativePlace place

/-- What an index has of a path is what the file of that path had in one of the states seen. -/
structure Stands (outliner : Outliner) (seen : List FileSystem) (root : Place) (data : IndexData)
    (path : String) (f : Fingerprint) (fs : FileSystem) (place : Place) (outline : List OutlineSymbol) :
    Prop where
  seen : fs ∈ seen
  within : root.Within place
  named : pathIn root place = path
  looks : fs.fingerprintAt? place = some f
  outlined : outliner fs place = .ok outline
  symbols : data.symbols.get? path = some (OutlineSymbol.flattenList path none outline)
  outlines : data.outlines.get? path = some outline

/-- Everything in an index stands for a file that was seen. -/
def Faithful (outliner : Outliner) (seen : List FileSystem) (root : Place) (data : IndexData) : Prop :=
  ∀ path f, data.files.get? path = some f →
    ∃ fs place outline, Stands outliner seen root data path f fs place outline

theorem Faithful.empty (outliner : Outliner) (seen : List FileSystem) (root : Place) :
    Faithful outliner seen root {} := by
  intro path f found
  contradiction

theorem Faithful.mono {outliner : Outliner} {seen seen' : List FileSystem} {root : Place} {data : IndexData}
    (faithful : Faithful outliner seen root data) (more : seen ⊆ seen') :
    Faithful outliner seen' root data := by
  intro path f found
  obtain ⟨fs, place, outline, stands⟩ := faithful path f found
  exact ⟨fs, place, outline, { stands with seen := more stands.seen }⟩

/-- A snapshot is that of an index in which everything stands for a file that was seen. -/
def Backed (outliner : Outliner) (seen : List FileSystem) (root : Place) (blob : Bytes) : Prop :=
  ∃ data, Faithful outliner seen root data ∧ data.Distinct ∧ data.normal = data ∧
    Snapshot.encode data = .ok blob

theorem Backed.mono {outliner : Outliner} {seen seen' : List FileSystem} {root : Place} {blob : Bytes}
    (backed : Backed outliner seen root blob) (more : seen ⊆ seen') : Backed outliner seen' root blob := by
  obtain ⟨data, faithful, rest⟩ := backed
  exact ⟨data, faithful.mono more, rest⟩

section scans
variable {outliner : Outliner} {fs : FileSystem} {previous : IndexData} {place : Place} {path : String}
  {f : Fingerprint} {outline : List OutlineSymbol}

theorem scan_missing (missing : fs.fingerprintAt? place = none) :
    scan outliner fs previous place path = none := by
  rw [FileSystem.fingerprintAt?] at missing
  cases there : fs.root.at? place with
  | none => simp [scan, there]
  | some n =>
    rw [there, Option.bind_some] at missing
    simp [scan, there, missing]

/-- A file is scanned as it is now if what is known of it is known from a look that it still has. -/
theorem scan_current (looks : fs.fingerprintAt? place = some f) (outlined : outliner fs place = .ok outline)
    (known : previous.files.get? path = some f →
      previous.symbols.get? path = some (OutlineSymbol.flattenList path none outline) ∧
        previous.outlines.get? path = some outline) :
    ∃ asked, scan outliner fs previous place path =
      some ⟨path, f, OutlineSymbol.flattenList path none outline, outline, asked⟩ := by
  rw [FileSystem.fingerprintAt?, Option.bind_eq_some_iff] at looks
  obtain ⟨n, there, looks⟩ := looks
  simp only [scan, there, looks, outlined, bind, Option.bind]
  split
  · next reuse =>
    rw [Bool.and_eq_true, decide_eq_true_iff] at reuse
    obtain ⟨symbols, outlines⟩ := known reuse.2
    exact ⟨false, by rw [symbols, outlines]; rfl⟩
  · exact ⟨true, rfl⟩

end scans

/-- What a scan finds of a file with a given fingerprint and outline. -/
def scanOf (root place : Place) (f : Fingerprint) (outline : List OutlineSymbol) (asked : Bool) :
    FileScan :=
  ⟨pathIn root place, f, OutlineSymbol.flattenList (pathIn root place) none outline, outline, asked⟩

section scans
variable {outliner : Outliner} {fs : FileSystem} {seen : List FileSystem} {root : Place}
  {previous : IndexData}

/-- A faithful index does not change what a scan finds: the file as it is now. -/
theorem scan_faithful (steady : outliner.Steady (fs :: seen))
    (faithful : Faithful outliner seen root previous) {place : Place} (within : root.Within place)
    {f : Fingerprint} (looks : fs.fingerprintAt? place = some f) :
    ∃ outline, outliner fs place = .ok outline ∧ ∃ asked,
      scan outliner fs previous place (pathIn root place) = some (scanOf root place f outline asked) := by
  obtain ⟨outline, outlined⟩ := steady.outlined fs List.mem_cons_self place f looks
  refine ⟨outline, outlined, scan_current looks outlined fun known => ?_⟩
  obtain ⟨fs', place', outline', stands⟩ := faithful _ f known
  obtain rfl := Walk.relativePlace_injective (w := { root }) stands.within within stands.named
  have same : outliner fs place' = outliner fs' place' :=
    steady.stable fs List.mem_cons_self fs' (List.mem_cons_of_mem _ stands.seen) place' f looks stands.looks
  obtain rfl := Except.ok.inj (outlined.symm.trans (same.trans stands.outlined))
  exact ⟨stands.symbols, stands.outlines⟩

/-- What a scan finds, whether the outline was asked for or not. -/
def found (s : FileScan) : FileScan := { s with outlined := true }

theorem scan_found_eq (steady : outliner.Steady (fs :: seen))
    (faithful : Faithful outliner seen root previous) {place : Place} (within : root.Within place) :
    (scan outliner fs previous place (pathIn root place)).map found =
      (scan outliner fs {} place (pathIn root place)).map found := by
  cases looks : fs.fingerprintAt? place with
  | none => rw [scan_missing looks, scan_missing looks]
  | some f =>
    obtain ⟨outline, outlined, asked, again⟩ := scan_faithful steady faithful within looks
    obtain ⟨outline', outlined', asked', anew⟩ :=
      scan_faithful steady (Faithful.empty outliner seen root) within looks
    obtain rfl := Except.ok.inj (outlined.symm.trans outlined')
    rw [again, anew]
    rfl

theorem assemble_found (scans : List FileScan) : assemble (scans.map found) = assemble scans := by
  simp [assemble, found, Function.comp_def]

/-- The scans of the files that a walk found. -/
structure Scanned (outliner : Outliner) (fs : FileSystem) (root : Place) (places : List Place)
    (scans : List FileScan) : Prop where
  once : (scans.map (·.path)).Nodup
  sound : ∀ s ∈ scans, ∃ place ∈ places, ∃ f outline asked, root.Within place ∧
    fs.fingerprintAt? place = some f ∧ outliner fs place = .ok outline ∧
    s = scanOf root place f outline asked
  complete : ∀ place ∈ places, ∀ f, fs.fingerprintAt? place = some f →
    ∃ outline asked, outliner fs place = .ok outline ∧ scanOf root place f outline asked ∈ scans

theorem scan_path {place : Place} {path : String} {s : FileScan}
    (made : scan outliner fs previous place path = some s) : s.path = path := by
  simp only [scan, bind, Option.bind_eq_some_iff] at made
  obtain ⟨n, -, f, -, made⟩ := made
  split at made
  · exact Option.some.inj made ▸ rfl
  · split at made <;> exact Option.some.inj made ▸ rfl

/-- Scans of different files have different paths. -/
theorem paths_nodup {places : List Place} (finds : Walk.Finds root places) {look : Place → Option FileScan}
    (named : ∀ p s, look p = some s → s.path = pathIn root p) : ((places.filterMap look).map (·.path)).Nodup := by
  refine List.pairwise_map.mpr (List.pairwise_filterMap.mpr (finds.once.imp_of_mem ?_))
  intro p q hp hq different s made t made'
  rw [named p s made, named q t made']
  exact fun same => different
    (Walk.relativePlace_injective (w := { root }) (finds.within p hp) (finds.within q hq) same)

theorem scanned_filterMap {places : List Place} (finds : Walk.Finds root places)
    (steady : outliner.Steady (fs :: seen)) (faithful : Faithful outliner seen root previous) :
    Scanned outliner fs root places
      (places.filterMap fun p => scan outliner fs previous p (pathIn root p)) where
  once := paths_nodup finds fun _ _ made => scan_path made
  sound s hs := by
    obtain ⟨place, member, made⟩ := List.mem_filterMap.mp hs
    have within := finds.within place member
    cases looks : fs.fingerprintAt? place with
    | none => rw [scan_missing looks] at made; contradiction
    | some f =>
      obtain ⟨outline, outlined, asked, current⟩ := scan_faithful steady faithful within looks
      exact ⟨place, member, f, outline, asked, within, looks, outlined,
        Option.some.inj (made.symm.trans current)⟩
  complete place member f looks := by
    obtain ⟨outline, outlined, asked, current⟩ :=
      scan_faithful steady faithful (finds.within place member) looks
    exact ⟨outline, asked, outlined, List.mem_filterMap.mpr ⟨place, member, current⟩⟩

theorem get?_scans {α : Type} {scans : List FileScan} (once : (scans.map (·.path)).Nodup)
    (part : FileScan → α) {s : FileScan} (member : s ∈ scans) :
    OrderedMap.get? (scans.map fun s => (s.path, part s)) s.path = some (part s) := by
  refine OrderedMap.get?_of_mem ?_ (List.mem_map_of_mem member)
  rwa [OrderedMap.keys, List.map_map]

/-- An index has of each file that was scanned what the scan found. -/
theorem assemble_scan {scans : List FileScan} (once : (scans.map (·.path)).Nodup) {s : FileScan}
    (member : s ∈ scans) :
    (assemble scans).files.get? s.path = some s.fingerprint ∧
      (assemble scans).symbols.get? s.path = some s.symbols ∧
      (assemble scans).outlines.get? s.path = some s.outline := by
  have known : s.path ∈ OrderedMap.keys (scans.map fun s => (s.path, s.fingerprint)) :=
    OrderedMap.mem_keys_iff.mpr ⟨_, get?_scans once FileScan.fingerprint member⟩
  rw [assemble, IndexData.files_build, IndexData.symbols_build, IndexData.outlines_build, if_pos known,
    if_pos known, get?_scans once FileScan.fingerprint member, get?_scans once FileScan.symbols member,
    get?_scans once FileScan.outline member]
  exact ⟨rfl, rfl, rfl⟩

theorem exists_scan {scans : List FileScan} {path : String} {f : Fingerprint}
    (known : (assemble scans).files.get? path = some f) :
    ∃ s ∈ scans, s.path = path ∧ s.fingerprint = f := by
  rw [assemble, IndexData.files_build] at known
  obtain ⟨s, member, same⟩ := List.mem_map.mp (OrderedMap.mem_of_get? known)
  exact ⟨s, member, (Prod.mk.inj same).1, (Prod.mk.inj same).2⟩

theorem distinct_assemble {scans : List FileScan} (once : (scans.map (·.path)).Nodup) :
    (assemble scans).Distinct := by
  refine (IndexData.coherent_build ?_ _ _).distinct
  rwa [OrderedMap.keys, List.map_map]

theorem normal_assemble (scans : List FileScan) : (assemble scans).normal = assemble scans :=
  IndexData.normal_build _ _ _

/-- The index that a pass makes stands for the files as they are. -/
theorem faithful_assemble {places : List Place} {scans : List FileScan}
    (scanned : Scanned outliner fs root places scans) :
    Faithful outliner (fs :: seen) root (assemble scans) := by
  intro path f known
  obtain ⟨s, member, rfl, rfl⟩ := exists_scan known
  obtain ⟨-, symbols, outlines⟩ := assemble_scan scanned.once member
  obtain ⟨place, -, f, outline, asked, within, looks, outlined, rfl⟩ := scanned.sound s member
  exact ⟨fs, place, outline, List.mem_cons_self, within, rfl, looks, outlined, symbols, outlines⟩

/-- An index says of every file of a workspace what it is now, and nothing else. -/
structure Mirrors (outliner : Outliner) (fs : FileSystem) (root : Place) (places : List Place)
    (data : IndexData) : Prop where
  complete : ∀ place ∈ places, ∀ f, fs.fingerprintAt? place = some f →
    ∃ outline, outliner fs place = .ok outline ∧ data.files.get? (pathIn root place) = some f ∧
      data.symbols.get? (pathIn root place) =
        some (OutlineSymbol.flattenList (pathIn root place) none outline) ∧
      data.outlines.get? (pathIn root place) = some outline
  files : ∀ path f, data.files.get? path = some f →
    ∃ place ∈ places, pathIn root place = path ∧ fs.fingerprintAt? place = some f
  flat : ∀ s ∈ data.flat, ∃ place ∈ places, ∃ outline, outliner fs place = .ok outline ∧
    s ∈ OutlineSymbol.flattenList (pathIn root place) none outline

theorem mirrors_assemble {places : List Place} {scans : List FileScan}
    (scanned : Scanned outliner fs root places scans) :
    Mirrors outliner fs root places (assemble scans) where
  complete place member f looks := by
    obtain ⟨outline, asked, outlined, known⟩ := scanned.complete place member f looks
    exact ⟨outline, outlined, assemble_scan scanned.once known⟩
  files path f known := by
    obtain ⟨s, member, rfl, rfl⟩ := exists_scan known
    obtain ⟨place, there, f, outline, asked, -, looks, -, rfl⟩ := scanned.sound s member
    exact ⟨place, there, rfl, looks⟩
  flat symbol member := by
    rw [assemble] at member
    obtain ⟨path, known, inside⟩ := IndexData.mem_flat_build _ _ _ member
    rw [OrderedMap.keys, List.map_map] at known
    obtain ⟨s, scanned_file, rfl⟩ := List.mem_map.mp known
    obtain ⟨place, there, f, outline, asked, -, -, outlined, rfl⟩ := scanned.sound s scanned_file
    have symbols := get?_scans scanned.once FileScan.symbols scanned_file
    have inside : symbol ∈ (scanOf root place f outline asked).symbols := by simpa [symbols] using inside
    exact ⟨place, there, outline, outlined, inside⟩

end scans

section passes
variable {outliner : Outliner} {settings : Settings} {root : Place} {s : IndexState}

/-- Storing changes files only. -/
theorem store_index (paths : StatePaths) (data : IndexData) (s : IndexState) :
    (exec (store paths data) s).2.index = s.index := by
  rw [store, exec_bind, exec_liftExcept]
  cases Snapshot.encode data with
  | error e => rfl
  | ok blob =>
    dsimp only
    rw [exec_bind, exec_get]
    dsimp only
    split
    rw [exec_bind, exec_set]
    dsimp only
    split <;> simp

/-- A pass that cannot walk leaves everything as it is. -/
theorem pass_broken {b : Breakdown}
    (broken : scanAll outliner settings s.files (s.index.previousFor root) root = .error b) :
    exec (pass outliner settings root) s = (.error (.breakdown b), s) := by
  simp [pass, exec_bind, broken]

/-- Any other pass puts the new index in place and stores it. -/
theorem pass_walked {scans : List FileScan}
    (walked : scanAll outliner settings s.files (s.index.previousFor root) root = .ok scans) :
    exec (pass outliner settings root) s =
      let stored := exec (store (settings.statePaths root.path) (assemble scans))
        { s with index := { data := assemble scans, root := some root, passed := true } }
      (stored.1.map fun _ => (scans.filter (·.outlined)).map (·.path), stored.2) := by
  simp only [pass, exec_bind, exec_get, walked, exec_set]
  split
  · next x s' done => rw [done, exec_pure]; rfl
  · next e s' done => rw [done]; rfl

theorem pass_index {scans : List FileScan}
    (walked : scanAll outliner settings s.files (s.index.previousFor root) root = .ok scans) :
    (exec (pass outliner settings root) s).2.index = ⟨assemble scans, some root, true⟩ := by
  rw [pass_walked walked]
  exact store_index _ _ _

/-- Loading a snapshot changes nothing but the index, and the index only to what the snapshot holds. -/
theorem load_state (settings : Settings) (root : Place) (s : IndexState) :
    (exec (loadSnapshot settings root) s).2 = s ∨
      ∃ blob data, s.files.readBytes (settings.statePaths root.path).snapshot = .ok blob ∧
        Snapshot.decode blob = .ok data ∧ (exec (loadSnapshot settings root) s).2 =
          { s with index := { s.index with data, root := some root } } := by
  simp only [loadSnapshot, exec_bind, exec_get]
  split
  · exact .inl (by rw [exec_throw])
  · exact .inl (by rw [exec_pure])
  · split
    · exact .inl (by rw [exec_pure])
    · next blob read =>
      split
      · exact .inl (by rw [exec_pure])
      · exact .inl (by rw [exec_throw])
      · next data decoded =>
        refine .inr ⟨blob, data, read, decoded, ?_⟩
        rw [exec_bind, exec_set]
        dsimp only
        rw [exec_pure]

theorem scanAll_broken (outliner : Outliner) {fs : FileSystem} {b : Breakdown}
    (broken : (walk settings root).files fs.root = .error b) (previous : IndexData) :
    scanAll outliner settings fs previous root = .error b := by
  simp [scanAll, broken, bind, Except.bind]

theorem scanAll_walked (outliner : Outliner) {fs : FileSystem} {places : List Place}
    (walked : (walk settings root).files fs.root = .ok places) (previous : IndexData) :
    scanAll outliner settings fs previous root =
      .ok (places.filterMap fun p => scan outliner fs previous p (pathIn root p)) := by
  simp [scanAll, walked, bind, Except.bind]
  rfl

end passes

end SymbolIndex

namespace IndexRun
open SymbolIndex
variable {outliner : Outliner} {r : IndexRun}

/-- The index stands for files that were seen, and so does every snapshot that a pass made. -/
structure Sound (outliner : Outliner) (r : IndexRun) : Prop where
  index : ∀ root, r.state.index.root = some root → Faithful outliner r.seen root r.state.index.data
  stored : ∀ root blob, (root, blob) ∈ r.stored → Backed outliner r.seen root blob

theorem Sound.previousFor (sound : r.Sound outliner) (root : Place) :
    Faithful outliner r.seen root (r.state.index.previousFor root) := by
  rw [SymbolIndex.previousFor]
  split
  · next same => exact sound.index root same
  · exact Faithful.empty outliner r.seen root

theorem Sound.pass (sound : r.Sound outliner) (settings : Settings) (root : Place)
    (steady : outliner.Steady (r.state.files :: r.seen)) :
    (r.pass outliner settings root).Sound outliner := by
  have faithful := sound.previousFor root
  have more : r.seen ⊆ r.state.files :: r.seen := List.subset_cons_self _ _
  have older {root' : Place} {blob : Bytes} (member : (root', blob) ∈ r.stored) :
      Backed outliner (r.state.files :: r.seen) root' blob := (sound.stored root' blob member).mono more
  cases walked : (walk settings root).files r.state.files.root with
  | error b =>
    have broken := scanAll_broken outliner walked (r.state.index.previousFor root)
    have state : (r.pass outliner settings root).state = r.state := by
      rw [IndexRun.pass, pass_broken broken]
    have stored : (r.pass outliner settings root).stored = r.stored := by
      simp only [IndexRun.pass, broken]
    refine ⟨fun root' same => ?_, fun root' blob member => older (stored ▸ member)⟩
    rw [state] at same ⊢
    exact (sound.index root' same).mono more
  | ok places =>
    have finds : Walk.Finds root places :=
      Walk.finds_files (w := walk settings root) (steady.named _ List.mem_cons_self) walked
    have scanned := scanned_filterMap finds steady faithful
    have scans := scanAll_walked outliner walked (r.state.index.previousFor root)
    generalize places.filterMap _ = found at scans scanned
    have current : Faithful outliner (r.state.files :: r.seen) root (assemble found) :=
      faithful_assemble scanned
    refine ⟨fun root' same => ?_, fun root' blob member => ?_⟩
    · have index : (r.pass outliner settings root).state.index = ⟨assemble found, some root, true⟩ :=
        pass_index scans
      rw [index] at same ⊢
      obtain rfl := Option.some.inj same
      exact current
    · simp only [IndexRun.pass, scans] at member
      split at member
      · next new encoded =>
        obtain same | member := List.mem_cons.mp member
        · obtain ⟨rfl, rfl⟩ := Prod.mk.inj same
          exact ⟨_, current, distinct_assemble scanned.once, normal_assemble found, encoded⟩
        · exact older member
      · exact older member

theorem restart_state (settings : Settings) (root : Place) (r : IndexRun) :
    (r.restart settings root).state =
      (exec (loadSnapshot settings root) { r.state with index := {} }).2 := rfl

theorem Sound.restart (sound : r.Sound outliner) (settings : Settings) (root : Place)
    (own : ∀ blob, r.state.files.readBytes (settings.statePaths root.path).snapshot = .ok blob →
        (root, blob) ∈ r.stored) : (r.restart settings root).Sound outliner := by
  refine ⟨fun root' same => ?_, sound.stored⟩
  rw [restart_state] at same ⊢
  obtain state | ⟨blob, loaded, read, decoded, state⟩ :=
    load_state settings root { r.state with index := {} }
  · rw [state] at same
    contradiction
  · obtain ⟨data, stands, distinct, normal, encoded⟩ := sound.stored root blob (own blob read)
    obtain rfl := (Snapshot.decode_encode distinct encoded decoded).trans normal
    rw [state] at same ⊢
    obtain rfl := Option.some.inj same
    exact stands

theorem restart_files (settings : Settings) (root : Place) (r : IndexRun) :
    (r.restart settings root).state.files = r.state.files := by
  rw [restart_state]
  obtain state | ⟨_, _, -, -, state⟩ := load_state settings root { r.state with index := {} } <;> rw [state]

/-- What a run has of its files, now and in its snapshots, it has from states that passes saw. -/
theorem Reached.sound (reached : r.Reached outliner) (steady : outliner.Steady r.seen) :
    r.Sound outliner := by
  induction reached with
  | start files => exact ⟨by simp, by simp⟩
  | change before files ih => exact ⟨(ih steady).index, (ih steady).stored⟩
  | pass before settings root ih =>
    exact (ih (steady.mono (List.subset_cons_self _ _))).pass settings root steady
  | restart before settings root own ih => exact (ih steady).restart settings root own

/-- An outline with one symbol, which spans as many lines as the file has bytes. -/
def sizeOutliner : Outliner := fun fs place => match fs.fingerprintAt? place with
  | some f => .ok [.mk "all" .file none 1 f.size []]
  | none => .error (.breakdown .badValue)

theorem steady_sizeOutliner {seen : List FileSystem} (named : ∀ fs ∈ seen, fs.root.WellNamed) :
    Outliner.Steady sizeOutliner seen where
  named := named
  outlined fs _ place f looks := ⟨_, by rw [sizeOutliner, looks]⟩
  stable fs _ fs' _ place f looks looks' := by rw [sizeOutliner, sizeOutliner, looks, looks']

/-- A workspace with two files. -/
def filesBefore : FileSystem where
  root := .folder [("w", .folder [("a.py", .file [1] 100), ("b.py", .file [1, 2] 100)])]

/-- The workspace with one file changed, one deleted and one new, and with a snapshot. -/
def filesAfter (blob : Bytes) : FileSystem where
  root := .folder [("w", .folder [(".cognitive", .folder [("symbols-v1.bin", .file blob 110)]),
    ("a.py", .file [1, 3, 3] 105), ("c.py", .file [] 100)])]

/-- What the first pass finds. -/
def scansBefore : List FileScan :=
  [scanOf ["w"] ["w", "a.py"] ⟨100, 1⟩ [.mk "all" .file none 1 1 []] true,
    scanOf ["w"] ["w", "b.py"] ⟨100, 2⟩ [.mk "all" .file none 1 2 []] true]

/-- The snapshot of the first pass. -/
def blobBefore : Bytes := Snapshot.ofPayload (Snapshot.payload (assemble scansBefore))

/-- A pass, and a restart on changed files. -/
def restartedRun : IndexRun :=
  let first := IndexRun.pass sizeOutliner {} ["w"] { state := { files := filesBefore, index := {} } }
  IndexRun.restart {} ["w"] { first with state := { first.state with files := filesAfter blobBefore } }

theorem walk_default (root : Place) :
    walk {} root = { root, extensions := some extensions, skipped := [".cognitive"] } := rfl

set_option maxRecDepth 10000 in
theorem files_filesBefore :
    (walk {} ["w"]).files filesBefore.root = .ok [["w", "a.py"], ["w", "b.py"]] := by
  rw [walk_default]
  cbv

set_option maxRecDepth 10000 in
theorem files_filesAfter (blob : Bytes) :
    (walk {} ["w"]).files (filesAfter blob).root = .ok [["w", "a.py"], ["w", "c.py"]] := by
  rw [walk_default]
  cbv

theorem scanAll_filesBefore : scanAll sizeOutliner {} filesBefore {} ["w"] = .ok scansBefore := by
  rw [scanAll_walked sizeOutliner files_filesBefore]
  rfl

theorem encode_scansBefore : Snapshot.encode (assemble scansBefore) = .ok blobBefore := by
  have shallow : Snapshot.tooDeep (assemble scansBefore) = false := by cbv
  rw [Snapshot.encode, shallow]
  rfl

theorem readBytes_snapshot (blob : Bytes) : (filesAfter blob).readBytes
    (({} : Settings).statePaths (Place.path ["w"])).snapshot = .ok blob := by
  have spot : (({} : Settings).statePaths (Place.path ["w"])).snapshot =
      ⟨1, ["w", ".cognitive", "symbols-v1.bin"]⟩ := by decide +kernel
  rw [spot]
  rfl

theorem restartedRun_reached : restartedRun.Reached sizeOutliner := by
  refine .restart (.change (.pass (.start filesBefore) {} ["w"]) (filesAfter blobBefore)) {} ["w"] ?_
  intro blob read
  obtain rfl := Except.ok.inj ((readBytes_snapshot blobBefore).symm.trans read)
  have scans : scanAll sizeOutliner {} filesBefore (SymbolIndex.previousFor {} ["w"]) ["w"] =
      .ok scansBefore := scanAll_filesBefore
  simp [IndexRun.pass, scans, encode_scansBefore]

theorem restartedRun_files : restartedRun.state.files = filesAfter blobBefore := restart_files _ _ _

theorem wellNamed_filesBefore : filesBefore.root.WellNamed :=
  .of_entries (by decide) (by decide) (.of_entries (by decide) (by decide) ⟨.file _ _, .file _ _⟩)

theorem restartedRun_steady :
    Outliner.Steady sizeOutliner (restartedRun.state.files :: restartedRun.seen) := by
  refine steady_sizeOutliner ?_
  rw [restartedRun_files]
  refine List.forall_mem_cons.mpr ⟨?_, List.forall_mem_singleton.mpr wellNamed_filesBefore⟩
  have state : (Node.folder [("symbols-v1.bin", .file blobBefore 110)]).WellNamed :=
    .of_entries (by decide) (by decide) (.file _ _)
  exact .of_entries (by decide) (by decide) (.of_entries (by decide) (by decide) ⟨state, .file _ _, .file _ _⟩)

end IndexRun
end CodeAgent
