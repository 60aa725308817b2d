import Mathlib.Data.Set.Basic
import CodeAgent.Proofs.Action
import CodeAgent.Proofs.Workspace.Holdings

/-! What the operations of a file system change. An operation is described by the places where it may write
a file and by those where it may make a folder; every other place keeps what it holds. -/
namespace CodeAgent
open CodeAgent.Text CodeAgent.Action

/-- What may become of a place. Only a place that holds nothing can become a folder, and a place that is
written is no folder before or after. -/
inductive Holding.Became (writable makable : Prop) : Holding → Holding → Prop
  | kept (holding : Holding) : Became writable makable holding holding
  | made (allowed : makable) : Became writable makable .nothing .folder
  | written {before after : Holding} (allowed : writable) (unfolded : before ≠ .folder) (file : after ≠ .folder) :
    Became writable makable before after

namespace Holding.Became
variable {writable writable' makable makable' : Prop} {before mid after : Holding}

theorem mono (became : Became writable makable before after) (more : writable → writable')
    (more' : makable → makable') : Became writable' makable' before after := by
  cases became with
  | kept => exact .kept _
  | made allowed => exact .made (more' allowed)
  | written allowed unfolded file => exact .written (more allowed) unfolded file

theorem trans (first : Became writable makable before mid) (second : Became writable' makable' mid after)
    (apart : writable → ¬ makable') : Became (writable ∨ writable') (makable ∨ makable') before after := by
  cases first with
  | kept => exact second.mono .inr .inr
  | made allowed =>
    cases second with
    | kept => exact .made (.inl allowed)
    | written _ unfolded => exact absurd rfl unfolded
  | written allowed unfolded file =>
    cases second with
    | kept => exact .written (.inl allowed) unfolded file
    | made folder => exact absurd folder (apart allowed)
    | written _ _ file => exact .written (.inl allowed) unfolded file

end Holding.Became

namespace FileSystem

/-- The changes from one file system to another: files are written at some places, and folders are made at
some places where there was nothing. -/
structure Changes (writable makable : Set Place) (fs fs' : FileSystem) : Prop where
  current : fs'.current = fs.current
  home : fs'.home = fs.home
  now : fs'.now = fs.now
  places : ∀ q, Holding.Became (q ∈ writable) (q ∈ makable) (fs.root.holding q) (fs'.root.holding q)

/-- The place that a path names, if it names one. -/
def placeOf (fs : FileSystem) (p : Path) : Set Place := { q | fs.resolve p = .ok q }

/-- The places that a path leads through, and the one that it names. -/
def placesOn (fs : FileSystem) (p : Path) : Set Place :=
  { q | ∃ names, names <+: p.names ∧ q ∈ fs.placeOf { p with names } }

variable {fs mid fs' : FileSystem} {writable writable' makable makable' : Set Place}

namespace Changes

theorem refl (fs : FileSystem) : fs.Changes writable makable fs := ⟨rfl, rfl, rfl, fun _ => .kept _⟩

theorem mono (changes : fs.Changes writable makable fs') (more : writable ⊆ writable') (more' : makable ⊆ makable') :
    fs.Changes writable' makable' fs' where
  current := changes.current
  home := changes.home
  now := changes.now
  places q := (changes.places q).mono (@more q) (@more' q)

/-- Changes one after the other. A file that is taken away must not give way to a folder. -/
theorem trans (first : fs.Changes writable makable mid) (second : mid.Changes writable' makable' fs')
    (apart : ∀ q ∈ writable, q ∉ makable') :
    fs.Changes (writable ∪ writable') (makable ∪ makable') fs' where
  current := second.current.trans first.current
  home := second.home.trans first.home
  now := second.now.trans first.now
  places q := (first.places q).trans (second.places q) (apart q)

/-- The folders are made first, then the files are written. -/
theorem made_then_written (first : fs.Changes ∅ makable mid) (second : mid.Changes writable ∅ fs') :
    fs.Changes writable makable fs' :=
  (first.trans second fun _ none => none.elim).mono (by simp) (by simp)

theorem made_then_made (first : fs.Changes ∅ makable mid) (second : mid.Changes ∅ makable fs') :
    fs.Changes ∅ makable fs' :=
  (first.trans second fun _ none => none.elim).mono (by simp) (by simp)

theorem placeOf (changes : fs.Changes writable makable fs') (p : Path) : fs'.placeOf p = fs.placeOf p := by
  unfold FileSystem.placeOf resolve
  rw [changes.current]

theorem placesOn (changes : fs.Changes writable makable fs') (p : Path) : fs'.placesOn p = fs.placesOn p := by
  unfold FileSystem.placesOn
  simp only [changes.placeOf]

end Changes

section look
variable {root : Node} {p : Path} {spot : Spot}

theorem lookFrom_spec {here : Place} {names : List String} (found : lookFrom root here names = .ok spot) :
    spot.place = Place.follow here names ∧ spot.node? = root.at? spot.place ∧ root.Leads spot.place := by
  induction names generalizing here with
  | nil =>
    unfold lookFrom at found
    cases there : root.at? here with
    | none => rw [there] at found; cases found
    | some n =>
      rw [there] at found
      cases found
      refine ⟨rfl, there.symm, Node.Leads.of_holding fun nothing => ?_⟩
      rw [Node.holding_eq_nothing_iff, there] at nothing
      cases nothing
  | cons name names ih =>
    unfold lookFrom at found
    split at found
    · cases found
    · cases found
    next entries there =>
      split at found
      · cases found
      split at found
      · next up => exact (ih found).imp_left fun place => by rw [place, Place.follow, Place.follow, List.foldl_cons, if_pos up]
      next down =>
        have next : Place.follow here (name :: names) = Place.follow (here ++ [name]) names := by
          rw [Place.follow, Place.follow, List.foldl_cons, if_neg down]
        rw [next]
        split at found
        · exact ih found
        next nothing =>
          split at found
          · next last =>
            cases found
            rw [List.isEmpty_iff.mp last]
            refine ⟨rfl, ?_, Node.Leads.child (Node.holding_eq_folder_iff.mpr ⟨entries, there⟩) name⟩
            exact (Option.not_isSome_iff_eq_none.mp nothing).symm
          · cases found

/-- What a path leads to is at the place that it names, and the folders on the way are there. -/
structure Seen (fs : FileSystem) (p : Path) (spot : Spot) : Prop where
  named : fs.resolve p = .ok spot.place
  node : spot.node? = fs.root.at? spot.place
  leads : fs.root.Leads spot.place

theorem look_seen (found : fs.look p = .ok spot) : fs.Seen p spot := by
  unfold look at found
  split at found
  · cases found
  next proper =>
    split at found
    · cases found
    split at found
    · next spot' walked =>
      cases found
      obtain ⟨place, node, leads⟩ := lookFrom_spec walked
      refine ⟨?_, node, leads⟩
      rw [resolve, if_neg proper, place]
    · cases found

theorem Seen.mem_placeOf (seen : fs.Seen p spot) : spot.place ∈ fs.placeOf p := seen.named

theorem Seen.holding (seen : fs.Seen p spot) : fs.root.holding spot.place = .of spot.node? := by
  rw [seen.node, Node.holding]

theorem Seen.ne_folder (seen : fs.Seen p spot) (other : ¬ (spot.node?.map Node.isFolder).getD false) :
    fs.root.holding spot.place ≠ .folder := by
  rw [seen.holding]
  intro folder
  cases node : spot.node? with
  | none => rw [node] at folder; cases folder
  | some n =>
    rw [node] at folder other
    cases n with
    | file => cases folder
    | folder => exact other rfl

end look

section operations
variable {p : Path}

/-- A folder is made at the place that its path names, where there was nothing yet. -/
theorem makeFolder_spec (done : fs.makeFolder p = .ok fs') :
    ∃ place, fs.resolve p = .ok place ∧ fs.root.Leads place ∧ fs.root.holding place = .nothing ∧
      fs' = { fs with root := fs.root.put place (.folder []) } := by
  obtain ⟨spot, found, rest⟩ := exists_of_bind_eq_ok done
  have seen := look_seen found
  split at rest
  · cases rest
  next free =>
    cases rest
    refine ⟨spot.place, seen.named, seen.leads, ?_, rfl⟩
    rw [seen.holding, Option.not_isSome_iff_eq_none.mp free]
    rfl

theorem makeFolder_changes (done : fs.makeFolder p = .ok fs') : fs.Changes ∅ (fs.placeOf p) fs' := by
  obtain ⟨place, named, leads, free, rfl⟩ := makeFolder_spec done
  refine ⟨rfl, rfl, rfl, fun q => ?_⟩
  by_cases here : q = place
  · subst here
    rw [free, Node.holding_put_self]
    exact .made named
  · rw [Node.holding_put_of_ne rfl leads (by rw [free]; exact nofun) here]
    exact .kept _

/-- A file is written at the place that its path names, where there was no folder. -/
theorem writeBytes_spec {content : Bytes} (done : fs.writeBytes p content = .ok fs') :
    ∃ place, fs.resolve p = .ok place ∧ fs.root.Leads place ∧ fs.root.holding place ≠ .folder ∧
      fs' = { fs with root := fs.root.put place (.file content fs.now) } := by
  obtain ⟨spot, found, rest⟩ := exists_of_bind_eq_ok done
  have seen := look_seen found
  split at rest
  · cases rest
  next free =>
    cases rest
    exact ⟨spot.place, seen.named, seen.leads, seen.ne_folder free, rfl⟩

theorem writeBytes_changes {content : Bytes} (done : fs.writeBytes p content = .ok fs') :
    fs.Changes (fs.placeOf p) ∅ fs' ∧
      ∃ place, fs.resolve p = .ok place ∧ fs'.root.holding place = .file content fs.now := by
  obtain ⟨place, named, leads, free, rfl⟩ := writeBytes_spec done
  refine ⟨⟨rfl, rfl, rfl, fun q => ?_⟩, place, named, Node.holding_put_self _ _ _⟩
  by_cases here : q = place
  · subst here
    refine .written named free ?_
    rw [Node.holding_put_self]
    exact nofun
  · rw [Node.holding_put_of_ne rfl leads free here]
    exact .kept _

/-- Missing folders on a path are made, one after the other. -/
inductive FoldersMade (p : Path) (fs : FileSystem) : FileSystem → Prop
  | none : FoldersMade p fs fs
  | one {mid fs' : FileSystem} (before : FoldersMade p fs mid) {names : List String} (up : names <+: p.names)
    (made : mid.makeFolder { p with names } = .ok fs') : FoldersMade p fs fs'

namespace FoldersMade

theorem trans (first : FoldersMade p fs mid) (second : FoldersMade p mid fs') : FoldersMade p fs fs' := by
  induction second with
  | none => exact first
  | one _ up made ih => exact .one ih up made

theorem mono {slashes : Nat} {names names' : List String} (made : FoldersMade ⟨slashes, names⟩ fs fs')
    (up : names <+: names') : FoldersMade ⟨slashes, names'⟩ fs fs' := by
  induction made with
  | none => exact .none
  | one _ below made ih => exact .one ih (below.trans up) made

theorem changes (made : FoldersMade p fs fs') : fs.Changes ∅ (fs.placesOn p) fs' := by
  induction made with
  | none => exact .refl _
  | one _ up made ih =>
    refine ih.made_then_made ((makeFolder_changes made).mono subset_rfl ?_)
    rw [ih.placeOf]
    exact fun q named => ⟨_, up, named⟩

end FoldersMade

end operations
end FileSystem

namespace FileAction
open FileSystem
variable {fs fs' : FileSystem} {p : Path}

@[simp]
theorem exec_view {α : Type} (f : FileSystem → Except FileError α) (fs : FileSystem) :
    exec (view f) fs = (f fs, fs) := rfl

theorem exec_change (f : FileSystem → Except FileError FileSystem) (fs : FileSystem) :
    exec (change f) fs = match f fs with
      | .ok fs' => (.ok (), fs')
      | .error e => (.error e, fs) := by
  rw [change, exec_bind, exec_view]
  cases f fs <;> rfl

/-- To look whether there is a folder changes nothing. -/
theorem exec_allowFolder (p : Path) (e : FileError) (fs : FileSystem) : (exec (allowFolder p e) fs).2 = fs := by
  unfold allowFolder
  split
  · rfl
  · rw [exec_bind, exec_view]
    cases fs.isFolder p with
    | error e => rfl
    | ok folder => cases folder <;> rfl

/-- An attempt to make a folder of a path makes it, if what follows a failure makes folders of the path only. -/
theorem makeFolder_or_made {names : List String} {handle : FileError → FileAction Unit} (up : names <+: p.names)
    (handled : ∀ e, fs.FoldersMade p (exec (handle e) fs).2) :
    fs.FoldersMade p (exec (tryCatch (change (·.makeFolder { p with names })) handle) fs).2 := by
  rw [exec_tryCatch, exec_change]
  cases made : fs.makeFolder { p with names } with
  | ok fs' => exact .one .none up made
  | error e => exact handled e

theorem makeFoldersFrom_made (slashes : Nat) (above : List String) (fs : FileSystem) :
    fs.FoldersMade ⟨slashes, above.reverse⟩ (exec (makeFoldersFrom slashes above) fs).2 := by
  induction above generalizing fs with
  | nil =>
    refine makeFolder_or_made (p := ⟨slashes, []⟩) List.prefix_rfl fun e => ?_
    split
    · exact .none
    · rw [exec_allowFolder]
      exact .none
  | cons name above ih =>
    refine makeFolder_or_made (p := ⟨slashes, (name :: above).reverse⟩) List.prefix_rfl fun e => ?_
    split
    · have first : fs.FoldersMade ⟨slashes, (name :: above).reverse⟩ (exec (makeFoldersFrom slashes above) fs).2 :=
        (ih fs).mono (by simp)
      rw [exec_bind]
      rcases run : exec (makeFoldersFrom slashes above) fs with ⟨_ | _, mid⟩
      all_goals rw [run] at first
      · exact first
      · refine first.trans (makeFolder_or_made (p := ⟨slashes, (name :: above).reverse⟩) List.prefix_rfl fun e => ?_)
        rw [exec_allowFolder]
        exact .none
    · rw [exec_allowFolder]
      exact .none

theorem makeFolders_made (p : Path) (fs : FileSystem) : fs.FoldersMade p (exec (makeFolders p) fs).2 := by
  have made := makeFoldersFrom_made p.slashes p.names.reverse fs
  rw [List.reverse_reverse] at made
  exact made

theorem makeFolders_changes (p : Path) (fs : FileSystem) :
    fs.Changes ∅ (fs.placesOn p) (exec (makeFolders p) fs).2 :=
  (makeFolders_made p fs).changes

/-- Where a folder cannot be made, and not because the one above is missing, the outcome depends on what is there. -/
theorem exec_makeFolders_of_error {e : FileError} (failed : fs.makeFolder p = .error e) (other : e.isMissing = false) :
    exec (makeFolders p) fs = exec (allowFolder p e) fs := by
  have tried {handle : FileError → FileAction Unit} (own : handle e = allowFolder p e) :
      exec (tryCatch (change (·.makeFolder p)) handle) fs = exec (allowFolder p e) fs := by
    rw [exec_tryCatch, exec_change, failed]
    dsimp only
    rw [own]
  have same : (⟨p.slashes, p.names.reverse.reverse⟩ : Path) = p := by rw [List.reverse_reverse]
  unfold makeFolders
  cases above : p.names.reverse with
  | nil =>
    rw [above] at same
    have same : (⟨p.slashes, []⟩ : Path) = p := same
    unfold makeFoldersFrom
    rw [same]
    exact tried (if_neg (by simp [other]))
  | cons name above' =>
    rw [above] at same
    unfold makeFoldersFrom
    rw [same]
    exact tried (if_neg (by simp [other]))

/-- A file that could not be written has left folders behind at most. -/
theorem writeFile_failed {e : FileError} {content : Bytes} (failed : exec (writeFile p content) fs = (.error e, fs')) :
    fs.Changes ∅ (fs.placesOn p.parent) fs' := by
  have made := makeFolders_changes p.parent fs
  rw [writeFile, exec_bind] at failed
  rcases run : exec (makeFolders p.parent) fs with ⟨_ | _, mid⟩
  all_goals rw [run] at made failed
  · cases failed
    exact made
  · dsimp only at made failed
    rw [exec_change] at failed
    cases written : mid.writeBytes p content with
    | error e =>
      rw [written] at failed
      cases failed
      exact made
    | ok fs' =>
      rw [written] at failed
      cases failed

/-- A file that was written holds the content, and nothing else has changed but for missing folders on the way to
it. -/
theorem writeFile_done {content : Bytes} (done : exec (writeFile p content) fs = (.ok (), fs')) :
    fs.Changes (fs.placeOf p) (fs.placesOn p.parent) fs' ∧
      ∃ place, fs.resolve p = .ok place ∧ fs'.root.holding place = .file content fs.now := by
  have made := makeFolders_changes p.parent fs
  rw [writeFile, exec_bind] at done
  rcases run : exec (makeFolders p.parent) fs with ⟨_ | _, mid⟩
  all_goals rw [run] at made done
  · cases done
  · dsimp only at made done
    rw [exec_change] at done
    cases written : mid.writeBytes p content with
    | error e =>
      rw [written] at done
      cases done
    | ok fs'' =>
      rw [written] at done
      cases done
      obtain ⟨changes, place, named, holds⟩ := writeBytes_changes written
      refine ⟨made.made_then_written (changes.mono (made.placeOf p).subset subset_rfl), place, ?_, ?_⟩
      · exact (made.placeOf p).subset named
      · rw [holds, made.now]

end FileAction
end CodeAgent

/-! How operations on paths fail. A path with a null character is not taken at all; on every other path it is the file
system that refuses. -/
namespace CodeAgent
open CodeAgent.Text CodeAgent.Action

theorem Path.hasNull_of_prefix {p : Path} {names : List String} (proper : p.hasNull = false) (up : names <+: p.names) :
    ({ p with names } : Path).hasNull = false := by
  rw [hasNull, List.any_eq_false] at proper ⊢
  exact fun name mem => proper name (up.subset mem)

namespace FileSystem
variable {fs fs' : FileSystem} {p : Path} {e : FileError}

theorem look_of_null (null : p.hasNull = true) : fs.look p = .error .nullCharacter := by
  rw [look, if_pos null]

theorem look_error (proper : p.hasNull = false) (failed : fs.look p = .error e) : e.isTextual = false := by
  rw [look, proper, if_neg Bool.false_ne_true] at failed
  split at failed
  · cases failed
    rfl
  · split at failed <;> cases failed
    rfl

theorem makeFolder_error (proper : p.hasNull = false) (failed : fs.makeFolder p = .error e) : e.isTextual = false := by
  obtain failed | ⟨spot, -, failed⟩ := eq_error_of_bind failed
  · exact look_error proper failed
  · split at failed <;> cases failed
    rfl

theorem writeBytes_error {content : Bytes} (proper : p.hasNull = false) (failed : fs.writeBytes p content = .error e) :
    e.isTextual = false := by
  obtain failed | ⟨spot, -, failed⟩ := eq_error_of_bind failed
  · exact look_error proper failed
  · split at failed <;> cases failed
    rfl

theorem existing_error (proper : p.hasNull = false) (failed : fs.existing p = .error e) : e.isTextual = false := by
  obtain failed | ⟨spot, -, failed⟩ := eq_error_of_bind failed
  · exact look_error proper failed
  · split at failed <;> cases failed
    rfl

theorem isFolder_error (failed : fs.isFolder p = .error e) : e.isTextual = false := by
  obtain failed | ⟨_, -, failed⟩ := eq_error_of_bind failed
  · unfold node? at failed
    split at failed <;> cases failed
    rfl
  · cases failed

end FileSystem

namespace FileAction
open FileSystem
variable {fs : FileSystem} {p : Path} {e e' : FileError}

theorem allowFolder_error (refused : e.isTextual = false) (failed : (exec (allowFolder p e) fs).1 = .error e') :
    e'.isTextual = false := by
  rw [allowFolder, if_neg (by simp [refused]), exec_bind, exec_view] at failed
  cases folder : fs.isFolder p with
  | error e'' =>
    rw [folder] at failed
    cases failed
    exact isFolder_error folder
  | ok there =>
    rw [folder] at failed
    cases there with
    | true => cases failed
    | false =>
      cases failed
      exact refused

theorem makeFolder_or_error {handle : FileError → FileAction Unit} (proper : p.hasNull = false)
    (handled : ∀ e, e.isTextual = false → ∀ e', (exec (handle e) fs).1 = .error e' → e'.isTextual = false)
    (failed : (exec (tryCatch (change (·.makeFolder p)) handle) fs).1 = .error e) : e.isTextual = false := by
  rw [exec_tryCatch, exec_change] at failed
  cases made : fs.makeFolder p with
  | ok fs' =>
    rw [made] at failed
    cases failed
  | error e' =>
    rw [made] at failed
    exact handled e' (makeFolder_error proper made) e failed

theorem makeFoldersFrom_error {slashes : Nat} {above : List String} (proper : Path.hasNull ⟨slashes, above.reverse⟩ = false)
    (failed : (exec (makeFoldersFrom slashes above) fs).1 = .error e) : e.isTextual = false := by
  induction above generalizing fs e with
  | nil =>
    refine makeFolder_or_error proper (fun e refused e' failed => ?_) failed
    split at failed
    · cases failed
      exact refused
    · exact allowFolder_error refused failed
  | cons name above ih =>
    refine makeFolder_or_error proper (fun e refused e' failed => ?_) failed
    split at failed
    · rw [exec_bind] at failed
      rcases run : exec (makeFoldersFrom slashes above) fs with ⟨e'' | _, mid⟩
      all_goals rw [run] at failed
      · cases failed
        exact ih (Path.hasNull_of_prefix proper (by simp)) (congrArg Prod.fst run)
      · exact makeFolder_or_error proper (fun _ refused _ failed => allowFolder_error refused failed) failed
    · exact allowFolder_error refused failed

theorem makeFolders_error (proper : p.hasNull = false) (failed : (exec (makeFolders p) fs).1 = .error e) :
    e.isTextual = false := by
  have proper : Path.hasNull ⟨p.slashes, p.names.reverse.reverse⟩ = false := by
    rw [List.reverse_reverse]
    exact proper
  exact makeFoldersFrom_error proper failed

theorem exec_makeFolders_of_null (null : p.hasNull = true) : exec (makeFolders p) fs = (.error .nullCharacter, fs) := by
  have lost : fs.makeFolder p = .error .nullCharacter := by
    rw [makeFolder, look_of_null null]
    rfl
  rw [exec_makeFolders_of_error lost rfl]
  rfl

end FileAction
end CodeAgent
