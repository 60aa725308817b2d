import CodeAgent.Proofs.OrderedMap
import CodeAgent.Proofs.Workspace.WalkBelow

/-! A folder that a walk never enters. What is done in it, to make it or to fill it, changes nothing that the walk finds,
and nothing at the places that it finds. -/
namespace CodeAgent
open CodeAgent.Text

/-- Quiet steps can be left out of a loop. -/
theorem forM_filter {ε α : Type} {f : α → Except ε PUnit} {keep : α → Bool} (as : List α)
    (quiet : ∀ a, keep a = false → f a = .ok ⟨⟩) : (as.filter keep).forM f = as.forM f := by
  induction as with
  | nil => rfl
  | cons a as ih =>
    cases kept : keep a with
    | true =>
      rw [List.filter_cons_of_pos kept]
      change (f a >>= fun _ => (as.filter keep).forM f) = f a >>= fun _ => as.forM f
      rw [ih]
    | false =>
      rw [List.filter_cons_of_neg (by simp [kept])]
      change _ = f a >>= fun _ => as.forM f
      rw [quiet a kept, ih]
      rfl

namespace Node
variable {hidden name : String} {entries entries' : List (String × Node)} {n n' child : Node}

/-- The entries of a folder besides a folder of some name. -/
def besides (hidden : String) (entries : List (String × Node)) : List (String × Node) :=
  entries.filter fun e => !(e.2.isFolder && e.1 == hidden)

/-- What has some name is a folder. -/
def FoldersAt (hidden : String) (entries : List (String × Node)) : Prop := ∀ e ∈ entries, e.1 = hidden → e.2.isFolder

/-- Two nodes are the same, but for what is in a folder of some name, and for whether there is one. -/
inductive AlikeBut (hidden : String) : Node → Node → Prop
  | same (n : Node) : AlikeBut hidden n n
  | folders {entries entries' : List (String × Node)} (hides : FoldersAt hidden entries)
    (hides' : FoldersAt hidden entries') (same : besides hidden entries = besides hidden entries') :
    AlikeBut hidden (.folder entries) (.folder entries')

theorem AlikeBut.trans {m : Node} (first : AlikeBut hidden n m) (second : AlikeBut hidden m n') :
    AlikeBut hidden n n' := by
  cases first with
  | same => exact second
  | folders hides hides' same =>
    cases second with
    | same => exact .folders hides hides' same
    | folders _ hides'' same' => exact .folders hides hides'' (same.trans same')

/-- A name leads to one entry at most that is of any use: if that is no file, all entries of the name are folders. -/
def Ready (hidden : String) (n : Node) : Prop :=
  (∀ content modified, n.member? hidden ≠ some (.file content modified)) → FoldersAt hidden n.entries

theorem WellNamed.ready (well : n.WellNamed) (hidden : String) : Ready hidden n := by
  intro unfiled e mem own
  cases well with
  | file => cases mem
  | @folder entries distinct _ _ =>
    have found : (Node.folder entries).member? hidden = some e.2 := by
      rw [← own]
      exact OrderedMap.get?_of_mem distinct mem
    cases held : e.2 with
    | file content modified => exact absurd (held ▸ found) (unfiled content modified)
    | folder => rfl

theorem WellNamed.besides (well : (Node.folder entries).WellNamed) (hidden : String) :
    (Node.folder (Node.besides hidden entries)).WellNamed := by
  have some_of : ∀ e ∈ Node.besides hidden entries, e ∈ entries := fun e mem => List.mem_of_mem_filter mem
  cases well with
  | folder distinct names below =>
    exact .folder (distinct.sublist (List.filter_sublist.map _)) (fun e mem => names e (some_of e mem))
      fun e mem => below e (some_of e mem)

theorem AlikeBut.ready (alike : AlikeBut hidden n n') (ready : Ready hidden n) : Ready hidden n' := by
  cases alike with
  | same => exact ready
  | folders _ hides' => exact fun _ => hides'

theorem member?_besides (other : name ≠ hidden) :
    (folder (besides hidden entries)).member? name = (folder entries).member? name := by
  rw [member?, member?, Node.entries, Node.entries, besides, List.find?_filter]
  congr 2
  funext e
  by_cases own : e.1 = name
  · have visible : e.1 ≠ hidden := own ▸ other
    simp [own, other]
  · simp [own]

/-- An entry besides the hidden folder is the same in nodes that are alike. -/
theorem AlikeBut.member? (alike : AlikeBut hidden n n') (other : name ≠ hidden) : n.member? name = n'.member? name := by
  cases alike with
  | same => rfl
  | folders _ _ same => rw [← member?_besides other, same, member?_besides other]

theorem mem_insertEntry {e : String × Node} (mem : e ∈ insertEntry name child entries) :
    e = (name, child) ∨ e ∈ entries := by
  induction entries with
  | nil => exact .inl (List.mem_singleton.mp mem)
  | cons first entries ih =>
    rw [insertEntry] at mem
    split at mem
    · exact (List.mem_cons.mp mem).imp_right (List.mem_cons_of_mem _)
    split at mem
    · exact List.mem_cons.mp mem
    · obtain rfl | mem := List.mem_cons.mp mem
      · exact .inr List.mem_cons_self
      · exact (ih mem).imp_right (List.mem_cons_of_mem _)

/-- To put a folder where it is hidden changes nothing besides it. -/
theorem AlikeBut.insertEntry (hides : FoldersAt hidden entries) (folder : child.isFolder) :
    AlikeBut hidden (.folder entries) (.folder (insertEntry hidden child entries)) := by
  refine .folders hides (fun e mem own => ?_) ?_
  · obtain rfl | mem := mem_insertEntry mem
    · exact folder
    · exact hides e mem own
  · induction entries with
    | nil => rw [Node.insertEntry, besides, besides, List.filter_cons_of_neg (by simp [folder])]
    | cons e entries ih =>
      obtain ⟨first, hides⟩ := List.forall_mem_cons.mp hides
      rw [Node.insertEntry]
      by_cases own : e.1 = hidden
      · rw [if_pos (beq_iff_eq.mpr own), besides, besides, List.filter_cons_of_neg (by simp [own, first own]),
          List.filter_cons_of_neg (by simp [folder])]
      rw [if_neg (mt beq_iff_eq.mp own)]
      split
      · rw [besides, besides, List.filter_cons_of_neg (a := (hidden, child)) (by simp [folder])]
      · rw [besides, besides, List.filter_cons_of_pos (by simp [own]), List.filter_cons_of_pos (by simp [own])]
        exact congrArg (e :: ·) (ih hides)

/-- What is at a place, as a folder if there is nothing. -/
def top (root : Node) (place : Place) : Node := (root.at? place).getD (.folder [])

variable {root : Node} {place rest : Place}

theorem at?_top (below : rest ≠ []) : root.at? (place ++ rest) = (root.top place).at? rest := by
  rw [top, at?_append]
  cases root.at? place with
  | some n => rfl
  | none => exact (at?_of_bare rfl below).symm

theorem at?_of_top_file {content : Bytes} {modified : Int} (file : root.top place = .file content modified) :
    root.at? place = some (.file content modified) := by
  rw [top] at file
  cases there : root.at? place with
  | some n =>
    rw [there] at file
    exact congrArg some file
  | none =>
    rw [there] at file
    cases file

theorem WellNamed.top (well : root.WellNamed) (place : Place) : (root.top place).WellNamed := by
  rw [Node.top]
  cases there : root.at? place with
  | some n => exact well.at? there
  | none => exact .folder List.nodup_nil (List.forall_mem_nil _) (List.forall_mem_nil _)

theorem top_cons (root : Node) (name : String) (names : Place) :
    root.top (name :: names) = ((root.member? name).getD (.folder [])).top names := by
  rw [top, at?]
  cases root.member? name with
  | some child => rfl
  | none =>
    cases names with
    | nil => rfl
    | cons => rfl

/-- To put a node below a place puts an entry into what is at the place. -/
theorem top_put (root : Node) (place : Place) (name : String) (rest : Place) (new : Node) :
    (root.put (place ++ name :: rest) new).top place = .folder (Node.insertEntry name
      ((((root.top place).member? name).getD (.folder [])).put rest new) (root.top place).entries) := by
  induction place generalizing root with
  | nil => rfl
  | cons first names ih =>
    rw [List.cons_append, put, top_cons, top_cons, member?_insertEntry, if_pos rfl]
    exact ih _

/-- To take a node away from below an entry of a place puts what is left there. -/
theorem top_remove {place : Place} {name name' : String} {rest : Place}
    (there : root.at? (place ++ [name]) = some child) :
    (remove (place ++ name :: name' :: rest) root).top place =
      .folder (Node.insertEntry name (remove (name' :: rest) child) (root.top place).entries) := by
  induction place generalizing root with
  | nil =>
    have member : root.member? name = some child := by
      rw [List.nil_append, at?] at there
      cases found : root.member? name with
      | none =>
        rw [found] at there
        cases there
      | some m =>
        rw [found] at there
        exact there
    rw [List.nil_append, remove, member]
    · rfl
    · simp
  | cons first names ih =>
    rw [List.cons_append, at?] at there
    obtain ⟨m, member, there⟩ := Option.bind_eq_some_iff.mp there
    rw [List.cons_append, remove, member]
    · dsimp only
      rw [top_cons, top_cons, member?_insertEntry, if_pos rfl, member]
      exact ih there
    · simp

/-- To make an empty folder on the way to a place where there was nothing leaves nothing at the place but that. -/
theorem top_put_above (up : rest <+: place) (free : root.holding rest = .nothing) :
    (root.put rest (.folder [])).top place = root.top place := by
  obtain ⟨names, rfl⟩ := up
  rw [holding_eq_nothing_iff] at free
  rw [top, top, at?_put_append, at?_append, free]
  cases names with
  | nil => rfl
  | cons => rfl

theorem exists_top_of_folder (held : root.holding place = .folder) (ready : Ready hidden (root.top place))
    (unfiled : ∀ content modified, root.holding (place ++ [hidden]) ≠ .file content modified) :
    ∃ entries, root.top place = .folder entries ∧ FoldersAt hidden entries := by
  obtain ⟨entries, there⟩ := holding_eq_folder_iff.mp held
  have here : root.top place = .folder entries := by
    rw [top, there]
    rfl
  refine ⟨entries, here, ?_⟩
  rw [here] at ready
  refine ready fun content modified member => unfiled content modified ?_
  rw [holding, at?_append, there, Option.bind_some, at?, member]
  rfl

/-- To put something into the hidden folder, or to make it, changes nothing besides it. -/
theorem alikeBut_put {new : Node} (held : root.holding place = .folder) (ready : Ready hidden (root.top place))
    (unfiled : ∀ content modified, root.holding (place ++ [hidden]) ≠ .file content modified)
    (folder : rest = [] → new.isFolder) :
    AlikeBut hidden (root.top place) ((root.put (place ++ hidden :: rest) new).top place) := by
  obtain ⟨entries, here, hides⟩ := exists_top_of_folder held ready unfiled
  rw [top_put, here]
  apply AlikeBut.insertEntry hides
  cases rest with
  | nil => exact folder rfl
  | cons => rfl

/-- To take something out of the hidden folder changes nothing besides it. -/
theorem alikeBut_remove (held : root.holding (place ++ [hidden]) = .folder) (ready : Ready hidden (root.top place)) :
    AlikeBut hidden (root.top place) ((remove (place ++ hidden :: name :: rest) root).top place) := by
  have above : root.holding place = .folder := by
    refine Leads.of_holding ?_ place (List.prefix_append place [hidden]) (by simp)
    simp [held]
  obtain ⟨entries, here, hides⟩ := exists_top_of_folder above ready (by simp [held])
  obtain ⟨inner, there⟩ := holding_eq_folder_iff.mp held
  rw [top_remove there, here]
  apply AlikeBut.insertEntry hides
  cases rest with
  | nil => rfl
  | cons next rest =>
    rw [remove]
    · cases (Node.folder inner).member? name <;> rfl
    · simp

end Node

namespace Walk
open Node
variable {w : Walk} {hidden : String} {rules : List PlacedRules} {here : Place} {entries : List (String × Node)}
  {root root' : Node} {places : List Place} {place : Place}

theorem admits_hidden {e : String × Node} (skips : hidden ∈ w.skipped)
    (gone : (!(e.2.isFolder && e.1 == hidden)) = false) : w.admits rules place e.1 e.2 = .ok false := by
  simp only [Bool.not_eq_false', Bool.and_eq_true, beq_iff_eq] at gone
  rw [admits, if_pos gone.1, if_pos]
  simp [gone.2, skips]

theorem filesAmong_besides (skips : hidden ∈ w.skipped) (rules : List PlacedRules) (here : Place)
    (entries : List (String × Node)) :
    w.filesAmong rules here (besides hidden entries) = w.filesAmong rules here entries := by
  induction entries with
  | nil => rfl
  | cons e entries ih =>
    rw [besides] at ih ⊢
    cases gone : !(e.2.isFolder && e.1 == hidden) with
    | true => rw [List.filter_cons_of_pos (by simpa using gone), filesAmong, filesAmong, ih]
    | false =>
      rw [List.filter_cons_of_neg (by simp [gone]), filesAmong, admits_hidden skips gone, ih]
      cases w.filesAmong rules here entries <;> rfl

theorem judgeAll_besides (skips : hidden ∈ w.skipped) (rules : List PlacedRules) (here : Place)
    (entries : List (String × Node)) :
    w.judgeAll rules here (besides hidden entries) = w.judgeAll rules here entries := by
  have folders : (besides hidden entries).filter (·.2.isFolder) =
      (entries.filter (·.2.isFolder)).filter fun e => !(e.2.isFolder && e.1 == hidden) := by
    rw [besides, List.filter_filter, List.filter_filter]
    simp only [Bool.and_comm]
  have files : (besides hidden entries).filter (·.2.isFile) = entries.filter (·.2.isFile) := by
    rw [besides, List.filter_filter]
    refine List.filter_congr fun e _ => ?_
    cases folder : e.2.isFolder <;> simp [Node.isFile, folder]
  rw [judgeAll, judgeAll, folders, files, forM_filter]
  intro e gone
  rw [admits_hidden skips gone]
  rfl

theorem enter_of_foldersAt (hides : FoldersAt ".gitignore" entries) (rules : List PlacedRules) (here : Place) :
    PlacedRules.enter rules here entries = .ok rules := by
  unfold PlacedRules.enter
  split
  · next content modified found =>
    rw [Node.member?, Option.map_eq_some_iff] at found
    obtain ⟨e, entry, file⟩ := found
    have folder := hides e (List.mem_of_find?_eq_some entry) (by simpa using List.find?_some entry)
    rw [file] at folder
    cases folder
  · rfl

theorem enter_besides (hides : FoldersAt hidden entries) (rules : List PlacedRules) (here : Place) :
    PlacedRules.enter rules here (besides hidden entries) = PlacedRules.enter rules here entries := by
  by_cases own : ".gitignore" = hidden
  · subst own
    have hides' : FoldersAt ".gitignore" (besides ".gitignore" entries) :=
      fun e mem => hides e (List.mem_of_mem_filter mem)
    rw [enter_of_foldersAt hides, enter_of_foldersAt hides']
  · unfold PlacedRules.enter
    rw [member?_besides own]

theorem filesAt_besides (skips : hidden ∈ w.skipped) (hides : FoldersAt hidden entries) (rules : List PlacedRules)
    (here : Place) : w.filesAt rules here (.folder (besides hidden entries)) = w.filesAt rules here (.folder entries) := by
  rw [filesAt, filesAt, enter_besides hides]
  simp only [judgeAll_besides skips, filesAmong_besides skips]

theorem filesAt_empty (w : Walk) (here : Place) : w.filesAt [] here (.folder []) = .ok [] := by
  rw [filesAt, enter_of_foldersAt fun _ mem => absurd mem List.not_mem_nil]
  change w.judgeAll [] here [] >>= (fun _ => w.filesAmong [] here []) = _
  rw [filesAmong]
  rfl

/-- A walk depends on what is at its root. -/
theorem files_eq_of_top (w : Walk) (root : Node) : w.files root = match root.top w.root with
    | .file .. => .ok (if w.wants (w.root.getLastD "") then [w.root] else [])
    | .folder entries => (w.filesAt [] w.root (.folder entries)).map inOrder := by
  have self : Place.within? w.root w.root = some [] := by simpa using Place.within?_append w.root []
  rw [top]
  cases there : root.at? w.root with
  | none =>
    rw [files, filesFrom, there, self, Option.getD_none]
    dsimp only
    rw [filesAt_empty, rulesAlong]
    change _ = Except.ok (inOrder [])
    rw [inOrder, List.mergeSort_nil]
    rfl
  | some n =>
    cases n with
    | file =>
      rw [files, filesFrom, there]
      rfl
    | folder entries => exact files_of_folder there rfl

theorem files_of_alikeBut (skips : hidden ∈ w.skipped) (alike : AlikeBut hidden (root.top w.root) (root'.top w.root)) :
    w.files root = w.files root' := by
  rw [files_eq_of_top, files_eq_of_top]
  generalize root.top w.root = n at alike ⊢
  generalize root'.top w.root = n' at alike ⊢
  cases alike with
  | same => rfl
  | folders hides hides' same =>
    dsimp only
    rw [← filesAt_besides skips hides, same, filesAt_besides skips hides']

theorem exists_entry_of_mem_filesAt (well : (Node.folder entries).WellNamed)
    (found : w.filesAt rules here (.folder entries) = .ok places) (there : place ∈ places) :
    ∃ e ∈ entries, ∃ rest, place = here ++ e.1 :: rest := by
  obtain ⟨inner, -, among⟩ := filesAt_folder found
  obtain ⟨distinct, names, below⟩ : (entries.map (·.1)).Nodup ∧ (∀ e ∈ entries, IsName e.1) ∧
      ∀ e ∈ entries, e.2.WellNamed := by
    cases well with
    | folder distinct names below => exact ⟨distinct, names, below⟩
  obtain ⟨name, member, rest, rfl, -⟩ := (finds_filesAmong entries distinct names below among).2 place there
  obtain ⟨e, mem, rfl⟩ := List.mem_map.mp member
  exact ⟨e, mem, rest, by rw [List.append_assoc]; rfl⟩

/-- What a walk finds is at its root, or under a name that is not that of a folder that it never enters. -/
theorem mem_files_cases (skips : hidden ∈ w.skipped) (well : (root.top w.root).WellNamed)
    (found : w.files root = .ok places) (there : place ∈ places) :
    (place = w.root ∧ ∃ content modified, root.top w.root = .file content modified) ∨
      ∃ entries name rest, root.top w.root = .folder entries ∧ place = w.root ++ name :: rest ∧
        (FoldersAt hidden entries → name ≠ hidden) := by
  rw [files_eq_of_top] at found
  generalize root.top w.root = n at well found ⊢
  cases n with
  | file content modified =>
    obtain rfl := Except.ok.inj found
    refine .inl ⟨?_, content, modified, rfl⟩
    split at there
    · exact List.mem_singleton.mp there
    · cases there
  | folder entries =>
    dsimp only at found
    cases inside : w.filesAt [] w.root (.folder entries) with
    | error b =>
      rw [inside] at found
      cases found
    | ok unsorted =>
      rw [inside] at found
      cases found
      have mem := (inOrder_perm unsorted).mem_iff.mp there
      obtain ⟨e, -, rest, rfl⟩ := exists_entry_of_mem_filesAt well inside mem
      refine .inr ⟨entries, e.1, rest, rfl, rfl, fun hides own => ?_⟩
      rw [← filesAt_besides skips hides] at inside
      obtain ⟨e', visible, rest', same⟩ := exists_entry_of_mem_filesAt (well.besides hidden) inside mem
      obtain ⟨same, -⟩ := List.cons.inj (List.append_cancel_left same)
      obtain ⟨entry, visible⟩ := List.mem_filter.mp visible
      have folder := hides e' entry (same ▸ own)
      simp [folder, same ▸ own] at visible

/-- At a place that a walk finds, there is the same whatever is in the hidden folder. -/
theorem at?_of_alikeBut (skips : hidden ∈ w.skipped) (well : (root.top w.root).WellNamed)
    (alike : AlikeBut hidden (root.top w.root) (root'.top w.root)) (found : w.files root = .ok places)
    (there : place ∈ places) : root.at? place = root'.at? place := by
  obtain ⟨rfl, content, modified, file⟩ | ⟨entries, name, rest, folder, rfl, other⟩ :=
    mem_files_cases skips well found there
  · rw [file] at alike
    generalize file' : root'.top w.root = n' at alike
    cases alike
    rw [at?_of_top_file file, at?_of_top_file file']
  · rw [at?_top (List.cons_ne_nil _ _), at?_top (List.cons_ne_nil _ _), folder]
    rw [folder] at alike
    generalize root'.top w.root = n' at alike ⊢
    cases alike with
    | same => rfl
    | folders hides hides' same =>
      rw [at?, at?, (AlikeBut.folders hides hides' same).member? (other hides)]

end Walk
end CodeAgent
