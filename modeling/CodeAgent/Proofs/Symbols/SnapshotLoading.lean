import CodeAgent.Proofs.Symbols.Rebuild
import CodeAgent.Proofs.Symbols.SnapshotRoundTrip

/-! Loading snapshots. A snapshot that cannot be used is passed over, unless the text in it is beyond the limits of
the reader or the file system does not take its path; then neither a snapshot is loaded nor a pass made. -/
namespace CodeAgent
open CodeAgent.Text IndexAction

namespace Snapshot

/-- Bytes that cannot be decoded are reported as a fault, unless the text in them is beyond the limits of the
reader. -/
theorem decode_eq_error_cases {blob : Bytes} {e : Failure} (failed : decode blob = .error e) :
    (∃ f, e = .fault f) ∨ ∃ text cause, payload? blob = some text ∧ Json.readChars? text = .error cause ∧
      cause ≠ .malformed ∧ e = .breakdown (Failure.ofRead cause) := by
  rw [decode] at failed
  split at failed
  · cases failed
    exact .inl ⟨_, rfl⟩
  next body framed =>
    split at failed
    · cases failed
      exact .inl ⟨_, rfl⟩
    next text held =>
      split at failed
      · cases failed
        exact .inl ⟨_, rfl⟩
      · next cause other unread =>
        cases failed
        exact .inr ⟨text, cause, payload?_eq_some_iff.mpr ⟨body, framed, held⟩, unread, other, rfl⟩
      next v found =>
        split at failed
        · cases failed
          exact .inl ⟨_, rfl⟩
        · cases failed

theorem decode_of_unread {blob : Bytes} {text : List Char} {cause : Json.ReadError} (held : payload? blob = some text)
    (unread : Json.readChars? text = .error cause) (other : cause ≠ .malformed) :
    decode blob = .error (.breakdown (Failure.ofRead cause)) := by
  obtain ⟨body, framed, held⟩ := payload?_eq_some_iff.mp held
  rw [decode, framed]
  dsimp only
  rw [held]
  dsimp only
  rw [unread]
  cases cause with
  | malformed => exact absurd rfl other
  | integerTooLong | tooDeep => rfl

end Snapshot

namespace FileSystem

/-- Where a file can be read, there is one. -/
theorem isThere_of_readBytes {fs : FileSystem} {p : Path} {content : Bytes} (read : fs.readBytes p = .ok content) :
    fs.isThere p = .ok true := by
  obtain ⟨n, there, -⟩ := exists_of_bind_eq_ok read
  obtain ⟨spot, found, known⟩ := exists_of_bind_eq_ok there
  have node : fs.node? p = .ok spot.node? := by rw [node?, found]
  rw [isThere, node]
  cases held : spot.node? with
  | none =>
    rw [held] at known
    cases known
  | some m => rfl

end FileSystem

namespace SymbolIndex

/-- The path of the snapshot of a root. -/
def snapshotPath (settings : Settings) (root : Place) : Path := (settings.statePaths root.path).snapshot

/-- A snapshot stops the loading: the file system does not take its path, or the text in it is JSON beyond the
limits of the reader. -/
inductive Blocks (settings : Settings) (root : Place) (fs : FileSystem) : Failure → Prop
  | path {e : FileError} (lost : fs.isThere (snapshotPath settings root) = .error e) : Blocks settings root fs (.file e)
  | text {blob : Bytes} {text : List Char} {cause : Json.ReadError}
    (read : fs.readBytes (snapshotPath settings root) = .ok blob) (held : Snapshot.payload? blob = some text)
    (unread : Json.readChars? text = .error cause) (other : cause ≠ .malformed) :
    Blocks settings root fs (.breakdown (Failure.ofRead cause))

/-- An index is in the snapshot of a root. -/
def Stored (settings : Settings) (root : Place) (fs : FileSystem) (data : IndexData) : Prop :=
  ∃ blob, fs.readBytes (snapshotPath settings root) = .ok blob ∧ Snapshot.decode blob = .ok data

section load
variable {settings : Settings} {root : Place} {s : IndexState}

theorem load_of_blocks {e : Failure} (blocks : Blocks settings root s.files e) :
    exec (loadSnapshot settings root) s = (.error e, s) := by
  rw [loadSnapshot, exec_bind, exec_get]
  cases blocks with
  | path lost =>
    rw [snapshotPath] at lost
    dsimp only
    rw [lost]
    dsimp only
    rw [exec_throw]
  | text read held unread other =>
    have there := FileSystem.isThere_of_readBytes read
    rw [snapshotPath] at there read
    dsimp only
    rw [there]
    dsimp only
    rw [read]
    dsimp only
    rw [Snapshot.decode_of_unread held unread other]
    dsimp only
    rw [exec_throw]

/-- No pass is made then. -/
theorem loadOrPass_of_blocks {e : Failure} (blocks : Blocks settings root s.files e) (outliner : Outliner) :
    exec (loadOrPass outliner settings root) s = (.error e, s) := by
  rw [loadOrPass, exec_bind, load_of_blocks blocks]

theorem load_of_stored {data : IndexData} (stored : Stored settings root s.files data) :
    exec (loadSnapshot settings root) s =
      (.ok true, { s with index := { s.index with data, root := some root } }) := by
  obtain ⟨blob, read, decoded⟩ := stored
  have there := FileSystem.isThere_of_readBytes read
  rw [snapshotPath] at there read
  rw [loadSnapshot, exec_bind, exec_get]
  dsimp only
  rw [there]
  dsimp only
  rw [read]
  dsimp only
  rw [decoded]
  dsimp only
  rw [exec_bind, exec_set]
  dsimp only
  rw [exec_pure]

/-- Every other snapshot is passed over. -/
theorem load_cases (settings : Settings) (root : Place) (s : IndexState) :
    (∃ e, Blocks settings root s.files e) ∨ (∃ data, Stored settings root s.files data) ∨
      exec (loadSnapshot settings root) s = (.ok false, s) := by
  rw [loadSnapshot, exec_bind, exec_get]
  dsimp only
  split
  · next e lost => exact .inl ⟨_, .path lost⟩
  · exact .inr (.inr (exec_pure _ _))
  split
  · exact .inr (.inr (exec_pure _ _))
  next blob read =>
    split
    · exact .inr (.inr (exec_pure _ _))
    · next e other failed =>
      obtain ⟨f, rfl⟩ | ⟨text, cause, held, unread, beyond, rfl⟩ := Snapshot.decode_eq_error_cases failed
      · exact absurd rfl (other f)
      · exact .inl ⟨_, .text read held unread beyond⟩
    · next data decoded => exact .inr (.inl ⟨data, blob, read, decoded⟩)

/-- For every state of the files and whatever bytes the snapshot holds. Loading fails just if the snapshot blocks it,
and then it changes nothing and no pass is made; it loads an index just if that index is in the snapshot; in every
other case nothing is changed and nothing loaded. Unless it was blocked, a pass follows. -/
theorem load_fails_iff_blocked (settings : Settings) (root : Place) (s : IndexState) :
    (∀ e, (exec (loadSnapshot settings root) s).1 = .error e ↔ Blocks settings root s.files e) ∧
    match exec (loadSnapshot settings root) s with
      | (.error e, after) => after = s ∧ (∀ data, ¬ Stored settings root s.files data) ∧
        ∀ outliner, exec (loadOrPass outliner settings root) s = (.error e, s)
      | (.ok false, after) => after = s ∧ (∀ data, ¬ Stored settings root s.files data) ∧
        ∀ outliner, exec (loadOrPass outliner settings root) s = exec (pass outliner settings root) s
      | (.ok true, after) => ∃ data, Stored settings root s.files data ∧
        after = { s with index := { s.index with data, root := some root } } ∧
        ∀ outliner, exec (loadOrPass outliner settings root) s = exec (pass outliner settings root) after := by
  obtain ⟨e, blocks⟩ | ⟨data, stored⟩ | passed := load_cases settings root s
  · have load := load_of_blocks blocks
    rw [load]
    refine ⟨fun e' => ⟨?_, fun blocks' => ?_⟩, rfl, fun data stored => ?_, loadOrPass_of_blocks blocks⟩
    · rintro ⟨⟩
      exact blocks
    · exact congrArg Prod.fst (load.symm.trans (load_of_blocks blocks'))
    · exact absurd (congrArg Prod.fst (load.symm.trans (load_of_stored stored))) nofun
  · have load := load_of_stored stored
    have goes_on (outliner : Outliner) : exec (loadOrPass outliner settings root) s =
        exec (pass outliner settings root) { s with index := { s.index with data, root := some root } } := by
      rw [loadOrPass, exec_bind, load]
    rw [load]
    refine ⟨fun e => ⟨nofun, fun blocks => ?_⟩, data, stored, rfl, goes_on⟩
    exact congrArg Prod.fst (load.symm.trans (load_of_blocks blocks))
  · have goes_on (outliner : Outliner) :
        exec (loadOrPass outliner settings root) s = exec (pass outliner settings root) s := by
      rw [loadOrPass, exec_bind, passed]
    rw [passed]
    refine ⟨fun e => ⟨nofun, fun blocks => ?_⟩, rfl, fun data stored => ?_, goes_on⟩
    · exact congrArg Prod.fst (passed.symm.trans (load_of_blocks blocks))
    · exact absurd (congrArg Prod.fst (passed.symm.trans (load_of_stored stored))) nofun

/-- A snapshot whose text only opens arrays. -/
def bracketsBlob (n : Nat) : Bytes := Snapshot.ofPayload (String.ofList (List.replicate n '['))

theorem blocks_of_brackets {n : Nat} (deep : Json.maxDepth < n) :
    Blocks {} ["w"] (IndexRun.filesAfter (bracketsBlob n)) (.breakdown .tooNested) := by
  change Blocks _ _ _ (.breakdown (Failure.ofRead .tooDeep))
  exact .text (IndexRun.readBytes_snapshot (bracketsBlob n)) (Snapshot.payload?_ofPayload _)
    (Json.read_brackets deep) nofun

/-- A snapshot that is nested too deep lets neither a snapshot be loaded nor a pass be made. -/
theorem load_fails_on_nested_snapshot :
    let s : IndexState := { files := IndexRun.filesAfter (bracketsBlob 3000), index := {} }
    exec (loadSnapshot {} ["w"]) s = (.error (.breakdown .tooNested), s) ∧
      ∀ outliner, exec (loadOrPass outliner {} ["w"]) s = (.error (.breakdown .tooNested), s) := by
  have blocks := blocks_of_brackets (n := 3000) (by decide)
  exact ⟨load_of_blocks blocks, loadOrPass_of_blocks blocks⟩

end load
end SymbolIndex
end CodeAgent
