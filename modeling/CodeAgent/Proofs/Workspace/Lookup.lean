import CodeAgent.Proofs.Text.Lines
import CodeAgent.Proofs.Workspace.FileChanges
import CodeAgent.Proofs.Workspace.Walked

/-! What a path leads to, within the limits for names and paths: what is at a place is found under the path of the
place, and a file that was written is found under the path that it was written to. -/
namespace CodeAgent
open CodeAgent.Text CodeAgent.Action

/-- The names that lead to what there is in a well-named tree are names. -/
theorem Node.WellNamed.isName_of_at? {n m : Node} (well : n.WellNamed) {place : Place} (found : n.at? place = some m) :
    ∀ name ∈ place, IsName name := by
  induction place generalizing n with
  | nil => exact nofun
  | cons name names ih =>
    obtain ⟨entries, child, rfl, entry, -, rest⟩ := Node.exists_entry_of_at? found
    cases well with
    | folder _ proper below => exact List.forall_mem_cons.mpr ⟨proper _ entry, ih (below _ entry) rest⟩

/-- The path of a place is read back from its text. -/
theorem Path.ofText_text {place : Place} (proper : ∀ name ∈ place, IsName name) :
    Path.ofText place.text = Place.path place := by
  have chars : place.text.toList = '/' :: (String.intercalate "/" place).toList := by
    simp [Place.text, Place.path, Path.text]
  have start : (String.intercalate "/" place).toList.takeWhile (· == '/') = [] := by
    cases place with
    | nil => rfl
    | cons name names =>
      obtain ⟨first, -⟩ := List.forall_mem_cons.mp proper
      obtain ⟨c, cs, filled⟩ := List.exists_cons_of_ne_nil (mt String.toList_eq_nil_iff.mp first.filled)
      have other : c ≠ '/' := fun same => first.no_slash (by rw [filled, same]; exact List.mem_cons_self)
      cases names <;> simp [String.toList_intercalate, List.intercalate, filled, other]
  have split : splitAtEach '/' place.text.toList = [] :: if place = [] then [[]] else place.map String.toList := by
    rw [chars, splitAtEach, if_pos (beq_self_eq_true _), splitAtEach_eq_splitOn]
    cases place with
    | nil => rfl
    | cons name names =>
      have apart : ∀ l ∈ (name :: names).map String.toList, '/' ∉ l := by
        intro l hl
        obtain ⟨x, hx, rfl⟩ := List.mem_map.mp hl
        exact (proper x hx).no_slash
      rw [String.toList_intercalate, if_neg (List.cons_ne_nil _ _)]
      exact congrArg _ (List.splitOn_intercalate '/' apart (by simp))
  have slashes : (place.text.toList.takeWhile (· == '/')).length = 1 := by
    rw [chars, List.takeWhile_cons, start]
    rfl
  have kept : (place.map String.toList).map String.ofList = place := by
    rw [List.map_map]
    exact (List.map_congr_left fun name _ => String.ofList_toList).trans (List.map_id place)
  have names : ∀ name ∈ place, name != "" && name != "." := by
    intro name mem
    simpa using ⟨(proper name mem).filled, (proper name mem).no_dot⟩
  rw [ofText, split, slashes, Place.path]
  congr 1
  split
  · next empty => rw [empty]; rfl
  · rw [List.map_cons, kept, List.filter_cons_of_neg (by decide), List.filter_eq_self.mpr names]

/-- A name alone is the path of what has it in the current folder. -/
theorem Path.ofText_name {name : String} (proper : IsName name) : Path.ofText name = ⟨0, [name]⟩ := by
  have start : name.toList.takeWhile (· == '/') = [] := by
    cases chars : name.toList with
    | nil => rfl
    | cons c cs =>
      have other : c ≠ '/' := fun same => proper.no_slash (by rw [chars, same]; exact List.mem_cons_self)
      exact List.takeWhile_cons_of_neg (by simpa using other)
  have split : splitAtEach '/' name.toList = [name.toList] := by
    have apart : ∀ l ∈ [name.toList], '/' ∉ l := List.forall_mem_singleton.mpr proper.no_slash
    have whole := List.splitOn_intercalate '/' apart (by simp)
    rwa [List.intercalate_singleton, ← splitAtEach_eq_splitOn] at whole
  rw [ofText, start, split]
  simp [proper.filled, proper.no_dot]

namespace Path

/-- A path is within the limits for names and for paths. -/
structure WithinLimits (p : Path) : Prop where
  names : ∀ name ∈ p.names, name.utf8ByteSize ≤ FileSystem.maxNameBytes
  text : p.text.utf8ByteSize ≤ FileSystem.maxPathBytes

/-- A path that leads down from the root by names that files can have, within the limits. -/
structure Usable (p : Path) : Prop extends WithinLimits p where
  absolute : p.isAbsolute
  no_null : p.hasNull = false
  no_way_up : ".." ∉ p.names

theorem utf8ByteSize_intercalate_concat (sep : String) (names : List String) (name : String) :
    (String.intercalate sep names).utf8ByteSize ≤ (String.intercalate sep (names ++ [name])).utf8ByteSize := by
  induction names with
  | nil => exact Nat.zero_le _
  | cons first names ih =>
    cases names with
    | nil =>
      rw [List.singleton_append, String.intercalate_cons_cons]
      simp only [String.utf8ByteSize_append, String.intercalate_singleton]
      omega
    | cons next names =>
      rw [List.cons_append] at ih ⊢
      rw [List.cons_append, String.intercalate_cons_cons, String.intercalate_cons_cons]
      simp only [String.utf8ByteSize_append]
      omega

/-- The text of the folder of a path is no longer than that of the path, but for the point that stands for the current
folder. -/
theorem utf8ByteSize_text_parent (p : Path) : p.parent.text.utf8ByteSize ≤ max 1 p.text.utf8ByteSize := by
  have shorter : (String.intercalate "/" p.names.dropLast).utf8ByteSize ≤
      (String.intercalate "/" p.names).utf8ByteSize := by
    obtain none | ⟨names, name, last⟩ := List.eq_nil_or_concat p.names
    · rw [none]
      exact Nat.le_refl _
    · rw [last, List.concat_eq_append, List.dropLast_concat]
      exact utf8ByteSize_intercalate_concat "/" names name
  unfold text parent
  dsimp only
  split
  · exact Nat.le_max_left _ _
  next more =>
    have named : ¬ (p.slashes == 0 && p.names.isEmpty) := by
      intro none
      simp only [Bool.and_eq_true, List.isEmpty_iff] at none more
      exact more ⟨none.1, by rw [none.2]; rfl⟩
    rw [if_neg named, String.utf8ByteSize_append, String.utf8ByteSize_append]
    exact (Nat.add_le_add_left shorter _).trans (Nat.le_max_right _ _)

theorem WithinLimits.parent {p : Path} (limits : p.WithinLimits) : p.parent.WithinLimits where
  names name mem := limits.names name (List.mem_of_mem_dropLast mem)
  text := (utf8ByteSize_text_parent p).trans (Nat.max_le.mpr ⟨by decide, limits.text⟩)

theorem hasNull_parent {p : Path} (none : p.hasNull = false) : p.parent.hasNull = false := by
  rw [hasNull, List.any_eq_false] at none ⊢
  exact fun name mem => none name (List.mem_of_mem_dropLast mem)

end Path

/-- No name leads up or has a null character in it. -/
def Place.Plain (place : Place) : Prop := ∀ name ∈ place, name ≠ ".." ∧ '\x00' ∉ name.toList

namespace Place
variable {place : Place} {names : List String}

theorem Plain.child {name : String} (plain : place.Plain) (down : name ≠ "..") (proper : '\x00' ∉ name.toList) :
    (place ++ [name]).Plain := by
  intro other mem
  obtain mem | mem := List.mem_append.mp mem
  · exact plain other mem
  · rw [List.mem_singleton.mp mem]
    exact ⟨down, proper⟩

theorem Plain.follow (plain : place.Plain) (fits : ∀ name ∈ names, '\x00' ∉ name.toList) :
    (place.follow names).Plain := by
  induction names generalizing place with
  | nil => exact plain
  | cons name names ih =>
    obtain ⟨own, others⟩ := List.forall_mem_cons.mp fits
    rw [Place.follow, List.foldl_cons]
    refine ih ?_ others
    split
    · exact fun _ mem => plain _ (List.mem_of_mem_dropLast mem)
    · next forth =>
      exact plain.child (by simpa using forth) own

theorem follow_of_plain (start : Place) (plain : place.Plain) : Place.follow start place = start ++ place := by
  induction place generalizing start with
  | nil => exact (List.append_nil start).symm
  | cons name names ih =>
    obtain ⟨own, others⟩ := List.forall_mem_cons.mp plain
    rw [Place.follow, List.foldl_cons, if_neg (by simpa using own.1)]
    exact (ih _ others).trans (List.append_cons start name names).symm

end Place

namespace FileSystem
variable {fs : FileSystem} {place : Place}

theorem resolve_of_plain (plain : place.Plain) : fs.resolve place.path = .ok place := by
  have fits : ¬ place.path.hasNull := by
    simpa [Path.hasNull, Place.path] using fun name mem => (plain name mem).2
  rw [resolve, if_neg fits]
  exact congrArg Except.ok (Place.follow_of_plain [] plain)

theorem plain_of_resolve (current : fs.current.Plain) {p : Path} (named : fs.resolve p = .ok place) : place.Plain := by
  rw [resolve] at named
  split at named
  · cases named
  · next fits =>
    cases named
    refine Place.Plain.follow ?_ (by simpa [Path.hasNull] using fits)
    split
    · exact List.forall_mem_nil _
    · exact current

end FileSystem

namespace FileSystem
variable {fs fs' : FileSystem} {p : Path} {root : Node} {here : Place} {name : String} {names : List String}
  {spot : Spot} {content : Bytes} {modified : Int}

/-- A first name that is followed leads from a folder up, or down to what is there, or it is the last one and names
what is not there yet. -/
inductive Follows (root : Node) (here : Place) (name : String) (names : List String) (spot : Spot) : Prop
  | up (way : name = "..") (rest : lookFrom root here.dropLast names = .ok spot)
  | down (way : name ≠ "..") (there : (root.at? (here ++ [name])).isSome)
      (rest : lookFrom root (here ++ [name]) names = .ok spot)
  | new (way : name ≠ "..") (free : root.at? (here ++ [name]) = none) (last : names = [])
      (place : spot = ⟨here ++ [name], none⟩)

theorem lookFrom_cons_eq_ok_iff : lookFrom root here (name :: names) = .ok spot ↔
    root.holding here = .folder ∧ name.utf8ByteSize ≤ maxNameBytes ∧ Follows root here name names spot := by
  have follows : Follows root here name names spot ↔
      (if name == ".." then lookFrom root here.dropLast names
        else if (root.at? (here ++ [name])).isSome then lookFrom root (here ++ [name]) names
        else if names.isEmpty then .ok ⟨here ++ [name], none⟩
        else .error .missing) = .ok spot := by
    constructor
    · rintro (⟨way, rest⟩ | ⟨way, there, rest⟩ | ⟨way, free, rfl, rfl⟩)
      · rw [if_pos (beq_iff_eq.mpr way), rest]
      · rw [if_neg (mt beq_iff_eq.mp way), if_pos there, rest]
      · rw [if_neg (mt beq_iff_eq.mp way), free]
        rfl
    · intro found
      split at found
      · next way => exact .up (beq_iff_eq.mp way) found
      next way =>
        split at found
        · next there => exact .down (mt beq_iff_eq.mpr way) there found
        · next free =>
          split at found
          · next last =>
            cases found
            exact .new (mt beq_iff_eq.mpr way) (Option.not_isSome_iff_eq_none.mp free) (List.isEmpty_iff.mp last) rfl
          · cases found
  rw [follows, Node.holding_eq_folder_iff, lookFrom.eq_2]
  cases there : root.at? here with
  | none => simp
  | some n =>
    cases n with
    | file => simp
    | folder entries =>
      dsimp only
      by_cases short : name.utf8ByteSize ≤ maxNameBytes
      · rw [if_neg (Nat.not_lt.mpr short)]
        simp [short]
      · rw [if_pos (Nat.lt_of_not_le short)]
        simp [short]

theorem lookFrom_down {entries : List (String × Node)} (folder : root.at? here = some (.folder entries))
    (short : name.utf8ByteSize ≤ maxNameBytes) (way : name ≠ "..") (there : (root.at? (here ++ [name])).isSome = true) :
    lookFrom root here (name :: names) = lookFrom root (here ++ [name]) names := by
  rw [lookFrom, folder]
  dsimp only
  rw [if_neg (Nat.not_lt.mpr short), if_neg (mt beq_iff_eq.mp way), if_pos there]

theorem lookFrom_tooLong {entries : List (String × Node)} (folder : root.at? here = some (.folder entries))
    (long : maxNameBytes < name.utf8ByteSize) : lookFrom root here (name :: names) = .error .nameTooLong := by
  rw [lookFrom, folder]
  exact if_pos long

theorem lookFrom_nil_eq_ok_iff : lookFrom root here [] = .ok spot ↔
    ∃ n, root.at? here = some n ∧ spot = ⟨here, some n⟩ := by
  unfold lookFrom
  cases root.at? here with
  | none => simp
  | some n => simp [eq_comm]

theorem lookFrom_at? {n : Node} (short : ∀ name ∈ names, name.utf8ByteSize ≤ maxNameBytes) (down : ".." ∉ names)
    (found : root.at? (here ++ names) = some n) : lookFrom root here names = .ok ⟨here ++ names, some n⟩ := by
  induction names generalizing here with
  | nil =>
    rw [List.append_nil] at found ⊢
    exact lookFrom_nil_eq_ok_iff.mpr ⟨n, found, rfl⟩
  | cons name names ih =>
    obtain ⟨first, short⟩ := List.forall_mem_cons.mp short
    have below : root.at? (here ++ [name] ++ names) = some n := by rw [List.append_assoc]; exact found
    have leads : root.Leads (here ++ name :: names) := Node.Leads.of_holding fun nothing => by
      rw [Node.holding_eq_nothing_iff, found] at nothing
      cases nothing
    have folder : root.holding here = .folder := leads here (List.prefix_append _ _) (by simp)
    have there : (root.at? (here ++ [name])).isSome := by
      rw [Node.at?_append] at below
      obtain ⟨child, there, -⟩ := Option.bind_eq_some_iff.mp below
      exact Option.isSome_of_eq_some there
    have rest := ih short (fun up => down (List.mem_cons_of_mem _ up)) below
    rw [List.append_assoc] at rest
    exact lookFrom_cons_eq_ok_iff.mpr ⟨folder, first, .down (fun up => down (up ▸ List.mem_cons_self)) there rest⟩

/-- What is at a place is found under its path. -/
theorem look_path {place : Place} (usable : (Place.path place).Usable) {n : Node} (found : fs.root.at? place = some n) :
    fs.look place.path = .ok ⟨place, some n⟩ := by
  have walked : lookFrom fs.root [] place = .ok ⟨place, some n⟩ :=
    lookFrom_at? usable.names usable.no_way_up found
  rw [look, usable.no_null, if_neg Bool.false_ne_true, if_neg (Nat.not_lt.mpr usable.text), if_pos usable.absolute]
  rw [show (Place.path place).names = place from rfl, walked]

/-- Names within the limits are never refused as too long. -/
theorem lookFrom_ne_tooLong (short : ∀ name ∈ names, name.utf8ByteSize ≤ maxNameBytes) :
    lookFrom root here names ≠ .error .nameTooLong := by
  induction names generalizing here with
  | nil =>
    unfold lookFrom
    split <;> rintro ⟨⟩
  | cons name names ih =>
    obtain ⟨first, short⟩ := List.forall_mem_cons.mp short
    unfold lookFrom
    split
    · rintro ⟨⟩
    · rintro ⟨⟩
    · rw [if_neg (Nat.not_lt.mpr first)]
      split
      · exact ih short
      split
      · exact ih short
      split <;> rintro ⟨⟩

theorem node?_of_tooLong (proper : p.hasNull = false) (short : p.text.utf8ByteSize ≤ maxPathBytes)
    (walked : lookFrom fs.root (if p.isAbsolute then [] else fs.current) p.names = .error .nameTooLong) :
    fs.node? p = .error (.refused .nameTooLong p) := by
  rw [node?, look, proper, if_neg Bool.false_ne_true, if_neg (Nat.not_lt.mpr short), walked]

theorem node?_of_look (found : fs.look p = .ok spot) : fs.node? p = .ok spot.node? := by
  rw [node?, found]

theorem readBytes_of_look {place : Place} (found : fs.look p = .ok ⟨place, some (.file content modified)⟩) :
    fs.readBytes p = .ok content := by
  rw [readBytes, existing, found]
  rfl

theorem look_of_readBytes (bytes : fs.readBytes p = .ok content) :
    ∃ place modified, fs.look p = .ok ⟨place, some (.file content modified)⟩ := by
  obtain ⟨node, there, file⟩ := exists_of_bind_eq_ok bytes
  obtain ⟨⟨place, node?⟩, found, own⟩ := exists_of_bind_eq_ok there
  cases node? with
  | none => cases own
  | some node' =>
    cases own
    cases node with
    | folder entries => cases file
    | file content' modified =>
      cases file
      exact ⟨place, modified, found⟩

/-- Names that are followed are within their limit. -/
theorem short_of_lookFrom (walked : lookFrom root here names = .ok spot) :
    ∀ name ∈ names, name.utf8ByteSize ≤ maxNameBytes := by
  induction names generalizing here with
  | nil => exact nofun
  | cons first names ih =>
    obtain ⟨-, short, ⟨-, rest⟩ | ⟨-, -, rest⟩ | ⟨-, -, rfl, -⟩⟩ := lookFrom_cons_eq_ok_iff.mp walked
    · exact List.forall_mem_cons.mpr ⟨short, ih rest⟩
    · exact List.forall_mem_cons.mpr ⟨short, ih rest⟩
    · exact List.forall_mem_singleton.mpr short

/-- A path that leads somewhere is within the limits. -/
theorem withinLimits_of_look (found : fs.look p = .ok spot) : p.WithinLimits := by
  unfold look at found
  split at found
  · cases found
  split at found
  · cases found
  next short =>
    split at found
    · next walked => exact ⟨short_of_lookFrom walked, Nat.le_of_not_lt short⟩
    · cases found

/-- What is found under a path is at the place that it names. -/
theorem at?_of_node? {n : Node} {place : Place} (found : fs.node? p = .ok (some n)) (named : fs.resolve p = .ok place) :
    fs.root.at? place = some n := by
  unfold node? at found
  split at found
  · next spot looked =>
    have seen := look_seen looked
    obtain rfl : spot.place = place := Except.ok.inj (seen.named.symm.trans named)
    rw [← seen.node]
    exact Except.ok.inj found
  · cases found
  · cases found

/-- Where a path names a place that holds nothing, there is nothing under the path. -/
theorem node?_of_nothing (limits : p.WithinLimits) (nothing : ∀ q ∈ fs.placeOf p, fs.root.holding q = .nothing) :
    fs.node? p = .ok none := by
  unfold node?
  cases found : fs.look p with
  | ok spot =>
    have seen := look_seen found
    have free := nothing _ seen.mem_placeOf
    rw [Node.holding_eq_nothing_iff, ← seen.node] at free
    exact congrArg Except.ok free
  | error e =>
    have proper : ∀ q, e ≠ .refused .nameTooLong q := by
      rintro q rfl
      unfold look at found
      split at found
      · cases found
      rw [if_neg (Nat.not_lt.mpr limits.text)] at found
      split at found
      · cases found
      · next walked =>
        cases found
        exact lookFrom_ne_tooLong limits.names walked
    split
    · next same => cases same
    · next q same => exact absurd (Except.error.inj same) (proper q)
    · rfl

/-- A file that takes the place where a path leads is found under that path. -/
theorem lookFrom_put (found : lookFrom root here names = .ok spot) (free : root.holding spot.place ≠ .folder) :
    lookFrom (root.put spot.place (.file content modified)) here names =
      .ok ⟨spot.place, some (.file content modified)⟩ := by
  have leads := (lookFrom_spec found).2.2
  have own : (root.put spot.place (.file content modified)).at? spot.place = some (.file content modified) := by
    have put := Node.at?_put_append root (.file content modified) spot.place []
    rwa [List.append_nil] at put
  have other {q : Place} (ne : q ≠ spot.place) :
      (root.put spot.place (.file content modified)).holding q = root.holding q :=
    Node.holding_put_of_ne rfl leads free ne
  have folder {q : Place} (held : root.holding q = .folder) :
      (root.put spot.place (.file content modified)).holding q = .folder := by
    rw [other fun same => free (same ▸ held), held]
  have kept {q : Place} (there : (root.at? q).isSome) :
      ((root.put spot.place (.file content modified)).at? q).isSome := by
    by_cases here : q = spot.place
    · rw [here, own]
      rfl
    · rw [Option.isSome_iff_ne_none] at there ⊢
      rw [Ne, ← Node.holding_eq_nothing_iff] at there ⊢
      rwa [other here]
  clear leads other
  induction names generalizing here with
  | nil =>
    obtain ⟨n, -, rfl⟩ := lookFrom_nil_eq_ok_iff.mp found
    exact lookFrom_nil_eq_ok_iff.mpr ⟨_, own, rfl⟩
  | cons name names ih =>
    obtain ⟨held, short, ⟨way, rest⟩ | ⟨way, there, rest⟩ | ⟨way, -, rfl, rfl⟩⟩ := lookFrom_cons_eq_ok_iff.mp found
    · exact lookFrom_cons_eq_ok_iff.mpr ⟨folder held, short, .up way (ih rest)⟩
    · exact lookFrom_cons_eq_ok_iff.mpr ⟨folder held, short, .down way (kept there) (ih rest)⟩
    · have here_now := lookFrom_nil_eq_ok_iff.mpr ⟨_, own, rfl⟩
      exact lookFrom_cons_eq_ok_iff.mpr ⟨folder held, short, .down way (Option.isSome_of_eq_some own) here_now⟩

/-- A file that was written is found under its path. -/
theorem look_of_writeBytes (done : fs.writeBytes p content = .ok fs') :
    ∃ place, fs'.look p = .ok ⟨place, some (.file content fs.now)⟩ := by
  obtain ⟨spot, found, rest⟩ := exists_of_bind_eq_ok done
  have seen := look_seen found
  split at rest
  · cases rest
  next free =>
    cases rest
    refine ⟨spot.place, ?_⟩
    unfold look at found ⊢
    split at found
    · cases found
    next proper =>
      rw [if_neg proper]
      split at found
      · cases found
      next short =>
        rw [if_neg short]
        split at found
        · next walked =>
          cases found
          dsimp only
          rw [lookFrom_put walked (seen.ne_folder free)]
        · cases found

/-- The names up to the last one lead to a folder. -/
theorem lookFrom_folder (found : lookFrom root here (names ++ [name]) = .ok spot) :
    ∃ place entries, lookFrom root here names = .ok ⟨place, some (.folder entries)⟩ := by
  induction names generalizing here with
  | nil =>
    obtain ⟨held, -⟩ := lookFrom_cons_eq_ok_iff.mp found
    obtain ⟨entries, there⟩ := Node.holding_eq_folder_iff.mp held
    exact ⟨here, entries, lookFrom_nil_eq_ok_iff.mpr ⟨_, there, rfl⟩⟩
  | cons first names ih =>
    obtain ⟨held, short, ⟨way, rest⟩ | ⟨way, there, rest⟩ | ⟨-, -, last, -⟩⟩ := lookFrom_cons_eq_ok_iff.mp found
    · obtain ⟨place, entries, rest⟩ := ih rest
      exact ⟨place, entries, lookFrom_cons_eq_ok_iff.mpr ⟨held, short, .up way rest⟩⟩
    · obtain ⟨place, entries, rest⟩ := ih rest
      exact ⟨place, entries, lookFrom_cons_eq_ok_iff.mpr ⟨held, short, .down way there rest⟩⟩
    · cases names <;> cases last

/-- What stands under a path stands in a folder under the path of that. -/
theorem look_parent (limits : p.WithinLimits) (named : p.names ≠ []) (found : fs.look p = .ok spot) :
    ∃ place entries, fs.look p.parent = .ok ⟨place, some (.folder entries)⟩ := by
  obtain ⟨names, name, last⟩ : ∃ names name, p.names = names ++ [name] :=
    ⟨_, _, (List.dropLast_append_getLast named).symm⟩
  have parent : p.parent.names = names := by rw [Path.parent, last, List.dropLast_concat]
  unfold look at found ⊢
  split at found
  · cases found
  next proper =>
    rw [if_neg (by rw [Path.hasNull_parent (by simpa using proper)]; exact Bool.false_ne_true),
      if_neg (Nat.not_lt.mpr limits.parent.text), parent]
    split at found
    · cases found
    split at found
    · next walked =>
      rw [last] at walked
      obtain ⟨place, entries, walked⟩ := lookFrom_folder walked
      have absolute : p.parent.isAbsolute = p.isAbsolute := rfl
      exact ⟨place, entries, by rw [absolute, walked]⟩
    · cases found

end FileSystem

namespace FileAction
open FileSystem
variable {fs fs' : FileSystem} {p : Path} {content : Bytes}

/-- To make a folder that is there is no failure. -/
theorem exec_makeFolders_of_folder {place : Place} {entries : List (String × Node)}
    (found : fs.look p = .ok ⟨place, some (.folder entries)⟩) : exec (makeFolders p) fs = (.ok (), fs) := by
  have there : fs.makeFolder p = .error (.refused .alreadyThere p) := by
    rw [makeFolder, found]
    rfl
  have folder : fs.isFolder p = .ok true := by
    rw [FileSystem.isFolder, node?, found]
    rfl
  rw [exec_makeFolders_of_error there rfl]
  change exec (do if ← view (·.isFolder p) then pure () else throw _) fs = _
  rw [exec_bind, exec_view, folder]
  rfl

/-- A file that is there can be written anew, and is then found under its path. -/
theorem writeFile_again (limits : p.WithinLimits) (named : p.names ≠ []) {place : Place} {before : Bytes}
    {modified : Int} (found : fs.look p = .ok ⟨place, some (.file before modified)⟩) :
    ∃ fs', exec (writeFile p content) fs = (.ok (), fs') ∧
      fs'.look p = .ok ⟨place, some (.file content fs.now)⟩ := by
  obtain ⟨folder, entries, parent⟩ := look_parent limits named found
  have written : fs.writeBytes p content = .ok { fs with root := fs.root.put place (.file content fs.now) } := by
    rw [writeBytes, found]
    rfl
  obtain ⟨place', again⟩ := look_of_writeBytes written
  refine ⟨{ fs with root := fs.root.put place (.file content fs.now) }, ?_, ?_⟩
  · rw [writeFile, exec_bind, exec_makeFolders_of_folder parent]
    dsimp only
    rw [exec_change, written]
  · have first := (look_seen found).named
    have second := (look_seen again).named
    obtain rfl : place' = place := Except.ok.inj (second.symm.trans first)
    exact again

/-- A file that was written is found under its path. -/
theorem look_of_writeFile (done : exec (writeFile p content) fs = (.ok (), fs')) :
    ∃ place modified, fs'.look p = .ok ⟨place, some (.file content modified)⟩ := by
  rw [writeFile, exec_bind] at done
  rcases run : exec (makeFolders p.parent) fs with ⟨_ | _, mid⟩
  all_goals rw [run] at done
  · cases done
  · dsimp only at done
    rw [exec_change] at done
    cases written : mid.writeBytes p content with
    | error e =>
      rw [written] at done
      cases done
    | ok fs'' =>
      rw [written] at done
      cases done
      obtain ⟨place, found⟩ := look_of_writeBytes written
      exact ⟨place, mid.now, found⟩

/-- A place that holds nothing holds nothing after a file could not be written there, unless it lies on the way. -/
theorem nothing_of_writeFile_failed {e : FileError} (failed : exec (writeFile p content) fs = (.error e, fs'))
    (clear : ∀ q ∈ fs.placeOf p, q ∉ fs.placesOn p.parent)
    (nothing : ∀ q ∈ fs.placeOf p, fs.root.holding q = .nothing) :
    ∀ q ∈ fs'.placeOf p, fs'.root.holding q = .nothing := by
  have changes := writeFile_failed failed
  intro q own
  rw [changes.placeOf] at own
  have became := changes.places q
  rw [nothing q own] at became
  generalize fs'.root.holding q = after at became ⊢
  cases became with
  | kept => rfl
  | made on => exact absurd on (clear q own)
  | written none => exact none.elim

end FileAction
end CodeAgent
