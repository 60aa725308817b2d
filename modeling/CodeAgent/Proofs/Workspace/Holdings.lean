import Mathlib.Data.List.Infix
import CodeAgent.Workspace.FileTree

/-! What the places of a file tree hold, after a node is put in it or taken away. -/
namespace CodeAgent
open CodeAgent.Text

/-- What a place of a file tree holds. -/
inductive Holding where
  | nothing
  | file (content : Bytes) (modified : Int)
  | folder
  deriving DecidableEq, Repr

/-- What is seen of a node without looking into folders. -/
def Holding.of : Option Node → Holding
  | none => .nothing
  | some (.file content modified) => .file content modified
  | some (.folder _) => .folder

namespace Node

/-- What a place below a node holds. -/
def holding (n : Node) (place : Place) : Holding := .of (n.at? place)

theorem holding_eq_nothing_iff {n : Node} {place : Place} : n.holding place = .nothing ↔ n.at? place = none := by
  unfold holding
  cases n.at? place with
  | none => exact iff_of_true rfl rfl
  | some m => cases m <;> exact iff_of_false nofun nofun

theorem holding_eq_folder_iff {n : Node} {place : Place} :
    n.holding place = .folder ↔ ∃ entries, n.at? place = some (.folder entries) := by
  unfold holding
  cases n.at? place with
  | none => simp [Holding.of]
  | some m => cases m <;> simp [Holding.of]

theorem at?_append (n : Node) (place rest : Place) :
    n.at? (place ++ rest) = (n.at? place).bind fun m => m.at? rest := by
  induction place generalizing n with
  | nil => rfl
  | cons name names ih =>
    rw [List.cons_append, at?, at?]
    cases n.member? name with
    | none => rfl
    | some child => exact ih child

theorem at?_of_bare {n : Node} (bare : n.entries = []) {place : Place} (below : place ≠ []) :
    n.at? place = none := by
  obtain ⟨name, names, rfl⟩ := List.exists_cons_of_ne_nil below
  rw [at?, member?, bare]
  rfl

/-- Below what is no folder there is nothing. -/
theorem holding_append_of_ne_folder {n : Node} {place : Place} (other : n.holding place ≠ .folder) {rest : Place}
    (below : rest ≠ []) : n.holding (place ++ rest) = .nothing := by
  rw [holding_eq_nothing_iff, at?_append]
  cases found : n.at? place with
  | none => rfl
  | some m =>
    cases m with
    | file => exact at?_of_bare rfl below
    | folder entries => exact absurd (holding_eq_folder_iff.mpr ⟨entries, found⟩) other

/-- The folders on the way to a place are there. -/
def Leads (n : Node) (place : Place) : Prop :=
  ∀ names, names <+: place → names ≠ place → n.holding names = .folder

theorem Leads.root (n : Node) : n.Leads [] := fun _ up other => absurd (List.prefix_nil.mp up) other

theorem Leads.of_holding {n : Node} {place : Place} (there : n.holding place ≠ .nothing) : n.Leads place := by
  rintro names ⟨rest, rfl⟩ other
  have below : rest ≠ [] := fun none => other (by rw [none, List.append_nil])
  by_contra file
  exact there (holding_append_of_ne_folder file below)

theorem Leads.child {n : Node} {place : Place} (folder : n.holding place = .folder) (name : String) :
    n.Leads (place ++ [name]) := by
  intro names up other
  obtain same | above := List.prefix_concat_iff.mp up
  · exact absurd same other
  · by_cases here : names = place
    · rw [here, folder]
    · refine Leads.of_holding ?_ names above here
      rw [folder]
      exact nofun

section entries
variable (name other : String) (new : Node) (entries : List (String × Node))

theorem member?_cons (e : String × Node) : (folder (e :: entries)).member? other =
    if e.1 = other then some e.2 else (folder entries).member? other := by
  simp only [member?, Node.entries, List.find?_cons]
  by_cases found : e.1 = other
  · rw [if_pos found, beq_iff_eq.mpr found]
    rfl
  · rw [if_neg found, beq_false_of_ne found]

theorem member?_insertEntry : (folder (insertEntry name new entries)).member? other =
    if name = other then some new else (folder entries).member? other := by
  induction entries with
  | nil => exact member?_cons other [] (name, new)
  | cons e es ih =>
    simp only [insertEntry, beq_iff_eq]
    by_cases known : e.1 = name
    · rw [if_pos known, member?_cons, member?_cons, known]
      by_cases same : name = other
      · rw [if_pos same, if_pos same]
      · rw [if_neg same, if_neg same, if_neg same]
    rw [if_neg known]
    split
    · exact member?_cons other (e :: es) (name, new)
    · rw [member?_cons, member?_cons, ih]
      by_cases found : e.1 = other
      · rw [if_pos found, if_pos found, if_neg fun same => known (found.trans same.symm)]
      · rw [if_neg found, if_neg found]

theorem member?_filter : (folder (entries.filter (·.1 != name))).member? other =
    if name = other then none else (folder entries).member? other := by
  induction entries with
  | nil => exact (ite_self _).symm
  | cons e es ih =>
    rw [List.filter_cons, member?_cons]
    by_cases gone : e.1 = name
    · rw [if_neg (by simp [gone]), ih, gone]
      by_cases same : name = other
      · rw [if_pos same, if_pos same]
      · rw [if_neg same, if_neg same, if_neg same]
    · rw [if_pos (by simp [gone]), member?_cons, ih]
      by_cases found : e.1 = other
      · rw [if_pos found, if_pos found, if_neg fun same => gone (found.trans same.symm)]
      · rw [if_neg found, if_neg found]

end entries

section put
variable {n new : Node} {place q : Place}

theorem at?_put_append (n new : Node) (place rest : Place) : (n.put place new).at? (place ++ rest) = new.at? rest := by
  induction place generalizing n with
  | nil => rfl
  | cons name names ih =>
    rw [List.cons_append, put, at?, member?_insertEntry, if_pos rfl, Option.bind_some]
    exact ih _

theorem at?_put_of_apart (n new : Node) (not_above : ¬ place <+: q) (not_below : ¬ q <+: place) :
    (n.put place new).at? q = n.at? q := by
  induction place generalizing n q with
  | nil => exact absurd (List.nil_prefix) not_above
  | cons name names ih =>
    cases q with
    | nil => exact absurd (List.nil_prefix) not_below
    | cons name' q =>
      rw [put, at?, at?, member?_insertEntry]
      by_cases same : name = name'
      · subst same
        have not_above : ¬ names <+: q := fun up => not_above (List.prefix_cons_inj name |>.mpr up)
        have not_below : ¬ q <+: names := fun up => not_below (List.prefix_cons_inj name |>.mpr up)
        rw [if_pos rfl, Option.bind_some, ih _ not_above not_below]
        cases n.member? name with
        | some child => rfl
        | none => exact at?_of_bare rfl fun none => not_below (none ▸ List.nil_prefix)
      · rw [if_neg same]
        rfl

theorem holding_put_self (n new : Node) (place : Place) : (n.put place new).holding place = new.holding [] := by
  unfold holding
  have put := at?_put_append n new place []
  rw [List.append_nil] at put
  rw [put]

/-- A file or an empty folder that takes a free place, or that of a file, changes no other place. -/
theorem holding_put_of_ne (bare : new.entries = []) (leads : n.Leads place) (free : n.holding place ≠ .folder)
    (other : q ≠ place) : (n.put place new).holding q = n.holding q := by
  by_cases above : place <+: q
  · obtain ⟨rest, rfl⟩ := above
    have below : rest ≠ [] := fun none => other (by rw [none, List.append_nil])
    rw [holding_append_of_ne_folder free below, holding_eq_nothing_iff, at?_put_append, at?_of_bare bare below]
  by_cases below : q <+: place
  · rw [leads q below other]
    obtain ⟨rest, rfl⟩ := below
    have more : rest ≠ [] := fun none => other (by rw [none, List.append_nil])
    by_contra file
    have gone := holding_append_of_ne_folder file more
    rw [holding_put_self] at gone
    cases new <;> cases gone
  · unfold holding
    rw [at?_put_of_apart n new above below]

end put

/-- What is taken away is gone with all below it, and nothing else is. -/
theorem holding_remove {n : Node} {place : Place} (there : n.holding place ≠ .nothing) (inner : place ≠ [])
    (q : Place) : (remove place n).holding q = if place <+: q then .nothing else n.holding q := by
  induction place generalizing n q with
  | nil => exact absurd rfl inner
  | cons name names ih =>
    have root : n.holding [] = .folder := Leads.of_holding there [] List.nil_prefix (Ne.symm inner)
    obtain ⟨entries, here⟩ := holding_eq_folder_iff.mp root
    obtain rfl : n = folder entries := Option.some.inj here
    cases q with
    | nil =>
      rw [if_neg (by simp), root]
      cases names with
      | nil => rfl
      | cons =>
        unfold remove
        split <;> rfl
    | cons name' q =>
      cases names with
      | nil =>
        have next : ([name] <+: name' :: q) ↔ name = name' := by simp
        rw [remove, holding, at?, Node.entries, member?_filter]
        by_cases same : name = name'
        · rw [if_pos same, if_pos (next.mpr same)]
          rfl
        · rw [if_neg same, if_neg fun up => same (next.mp up)]
          rfl
      | cons name'' names =>
        unfold remove
        cases member : (folder entries).member? name with
        | none =>
          refine absurd ?_ there
          rw [holding_eq_nothing_iff, at?, member]
          rfl
        | some child =>
          have below : child.holding (name'' :: names) ≠ .nothing := by
            rw [holding, at?, member] at there
            exact there
          have next : (name :: name'' :: names <+: name' :: q) ↔ name = name' ∧ name'' :: names <+: q :=
            List.cons_prefix_cons
          dsimp only
          rw [holding, at?, Node.entries, member?_insertEntry]
          by_cases same : name = name'
          · subst same
            have rest := ih below (by simp) q
            rw [if_pos rfl, Option.bind_some]
            rw [holding] at rest
            rw [rest]
            by_cases up : name'' :: names <+: q
            · rw [if_pos up, if_pos (next.mpr ⟨rfl, up⟩)]
            · rw [if_neg up, if_neg fun all => up (next.mp all).2, holding, holding, at?, member]
              rfl
          · rw [if_neg same, if_neg fun all => same (next.mp all).1]
            rfl

/-- To take away a file changes no other place. -/
theorem holding_remove_file {n : Node} {place q : Place} (there : n.holding place ≠ .nothing)
    (file : n.holding place ≠ .folder) (inner : place ≠ []) :
    (remove place n).holding q = if q = place then .nothing else n.holding q := by
  rw [holding_remove there inner]
  by_cases here : q = place
  · rw [if_pos here, if_pos (here ▸ List.prefix_rfl)]
  rw [if_neg here]
  split
  · next above =>
    obtain ⟨rest, rfl⟩ := above
    exact (holding_append_of_ne_folder file fun none => here (by rw [none, List.append_nil])).symm
  · rfl

/-- What a file that is moved leaves behind: nothing at its old place, itself at the new one, and all other places
as they are. -/
theorem holding_move {n : Node} {source target q : Place} {content : Bytes} {modified : Int}
    (file : n.at? source = some (.file content modified)) (leads : n.Leads target)
    (free : n.holding target ≠ .folder) :
    ((remove source n).put target (.file content modified)).holding q =
      if q = target then .file content modified else if q = source then .nothing else n.holding q := by
  have held : n.holding source = .file content modified := by
    rw [holding, file]
    rfl
  have there : n.holding source ≠ .nothing := by rw [held]; exact nofun
  have unfolded : n.holding source ≠ .folder := by rw [held]; exact nofun
  by_cases here : q = target
  · rw [here, holding_put_self, if_pos rfl]
    rfl
  rw [if_neg here]
  by_cases inner : source = []
  · -- The whole tree is one file, so that there is no other place.
    subst inner
    have outer : target = [] := by
      by_contra below
      exact unfolded (leads [] List.nil_prefix (Ne.symm below))
    subst outer
    rw [if_neg here, ← List.nil_append q, holding_append_of_ne_folder unfolded here, holding_eq_nothing_iff]
    exact at?_of_bare rfl here
  · have kept (q : Place) := holding_remove_file (q := q) there unfolded inner
    have leads' : (remove source n).Leads target := by
      intro names up other
      rw [kept, if_neg ?_]
      · exact leads names up other
      · rintro rfl
        exact unfolded (leads names up other)
    have free' : (remove source n).holding target ≠ .folder := by
      rw [kept]
      split
      · exact nofun
      · exact free
    rw [holding_put_of_ne rfl leads' free' here, kept]

end Node
end CodeAgent
