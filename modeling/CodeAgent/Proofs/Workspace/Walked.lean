import Mathlib.Data.List.Nodup
import CodeAgent.Proofs.Action
import CodeAgent.Workspace.Walk

/-! The files that a walk finds: each of them once, below the root, and with a path of its own. -/
namespace CodeAgent

/-- A text that can name an entry of a folder. -/
structure IsName (s : String) : Prop where
  filled : s ≠ ""
  no_dot : s ≠ "."
  no_slash : '/' ∉ s.toList

/-- The entries of every folder have different names. -/
inductive Node.WellNamed : Node → Prop
  | file (content : Text.Bytes) (modified : Int) : WellNamed (.file content modified)
  | folder {entries : List (String × Node)} (distinct : (entries.map (·.1)).Nodup)
      (names : ∀ e ∈ entries, IsName e.1) (below : ∀ e ∈ entries, WellNamed e.2) :
      WellNamed (.folder entries)

/-- The names of a folder can be checked one by one. -/
theorem Node.WellNamed.of_entries {entries : List (String × Node)}
    (proper : entries.all (fun e => e.1 != "" && e.1 != "." && !e.1.toList.contains '/') = true)
    (distinct : (entries.map (·.1)).Nodup) (below : List.Forall (fun e => e.2.WellNamed) entries) :
    (Node.folder entries).WellNamed := by
  refine .folder distinct (fun e he => ?_) (List.forall_iff_forall_mem.mp below)
  have name := List.all_eq_true.mp proper e he
  simp only [Bool.and_eq_true, bne_iff_ne, Bool.not_eq_true', List.contains_eq_mem,
    decide_eq_false_iff_not] at name
  exact ⟨name.1.1, name.1.2, name.2⟩

/-- Names lead on from a folder, by its entry of the first name. -/
theorem Node.exists_entry_of_at? {n m : Node} {name : String} {names : List String}
    (found : n.at? (name :: names) = some m) :
    ∃ entries child, n = .folder entries ∧ (name, child) ∈ entries ∧ n.at? [name] = some child ∧
      child.at? names = some m := by
  rw [Node.at?, Option.bind_eq_some_iff] at found
  obtain ⟨child, member, rest⟩ := found
  have first : n.at? [name] = some child := by rw [Node.at?, member]; rfl
  rw [Node.member?, Option.map_eq_some_iff] at member
  obtain ⟨e, entry, rfl⟩ := member
  cases n with
  | file => simp [Node.entries] at entry
  | folder entries =>
    have same : e.1 = name := by simpa using List.find?_some entry
    exact ⟨entries, e.2, rfl, same ▸ List.mem_of_find?_eq_some entry, first, rest⟩

theorem Node.isFolder_of_at? {n m : Node} {names : List String} (found : n.at? names = some m) (folder : m.isFolder) :
    n.isFolder := by
  cases names with
  | nil => exact Option.some.inj found ▸ folder
  | cons name names =>
    obtain ⟨entries, _, rfl, -⟩ := Node.exists_entry_of_at? found
    rfl

theorem Node.WellNamed.at? {n m : Node} (well : n.WellNamed) {place : Place}
    (found : n.at? place = some m) : m.WellNamed := by
  induction place generalizing n with
  | nil => exact Option.some.inj found ▸ well
  | cons name names ih =>
    obtain ⟨entries, child, rfl, entry, -, rest⟩ := Node.exists_entry_of_at? found
    cases well with
    | folder _ _ below => exact ih (below _ entry) rest

namespace Place

/-- A place at or below another one, by names that folders can have. -/
def Within (here place : Place) : Prop := ∃ names, place = here ++ names ∧ ∀ x ∈ names, IsName x

theorem Within.refl (here : Place) : Within here here := ⟨[], by simp, by simp⟩

theorem Within.step {here place : Place} {name : String} (proper : IsName name)
    (below : Within (here ++ [name]) place) : Within here place := by
  obtain ⟨names, rfl, all⟩ := below
  exact ⟨name :: names, by simp, List.forall_mem_cons.mpr ⟨proper, all⟩⟩

theorem within?_append (here names : Place) : within? here (here ++ names) = some names := by
  induction here with
  | nil => rfl
  | cons a here ih => rw [List.cons_append, within?, if_pos (beq_self_eq_true a), ih]

end Place

/-- Different names make different paths. -/
theorem Path.text_injective {names names' : List String} (proper : ∀ x ∈ names, IsName x)
    (proper' : ∀ x ∈ names', IsName x) (same : (Path.mk 0 names).text = (Path.mk 0 names').text) :
    names = names' := by
  have parts {names : List String} (proper : ∀ x ∈ names, IsName x) :
      ((Path.mk 0 names).text).toList.splitOn '/' =
        if names = [] then [['.']] else names.map String.toList := by
    cases names with
    | nil =>
      have apart : ∀ l ∈ [['.']], '/' ∉ l := by simp
      have split := List.splitOn_intercalate '/' apart (by simp)
      simpa [Path.text] using split
    | cons name names =>
      have apart : ∀ l ∈ (name :: names).map String.toList, '/' ∉ l := by
        intro l hl
        obtain ⟨x, hx, rfl⟩ := List.mem_map.mp hl
        exact (proper x hx).no_slash
      have split := List.splitOn_intercalate '/' apart (by simp)
      simpa [Path.text, String.toList_intercalate] using split
  have dot {names : List String} (proper : ∀ x ∈ names, IsName x) :
      names.map String.toList ≠ [['.']] := by
    intro single
    obtain ⟨x, rfl, text⟩ := List.map_eq_singleton_iff.mp single
    exact (proper x List.mem_cons_self).no_dot (String.toList_inj.mp text)
  have split : (if names = [] then [['.']] else names.map String.toList) =
      if names' = [] then [['.']] else names'.map String.toList := by
    rw [← parts proper, ← parts proper', same]
  split at split <;> split at split
  · next empty empty' => rw [empty, empty']
  · exact absurd split.symm (dot proper')
  · exact absurd split (dot proper)
  · exact List.map_injective_iff.mpr (fun _ _ => String.toList_inj.mp) split

namespace Walk
variable {w : Walk}

/-- Each place is found once, at or below a given one. -/
structure Finds (here : Place) (places : List Place) : Prop where
  once : places.Nodup
  within : ∀ p ∈ places, here.Within p

/-- The files of the entries of a folder are those of the first one, unless it is left out, and of the
others. -/
theorem filesAmong_cons {rules : List PlacedRules} {here : Place} {name : String} {n : Node}
    {es : List (String × Node)} {places : List Place}
    (found : w.filesAmong rules here ((name, n) :: es) = .ok places) :
    ∃ admitted first later, w.admits rules (here ++ [name]) name n = .ok admitted ∧
      (if admitted then w.filesAt rules (here ++ [name]) n = .ok first else first = []) ∧
      w.filesAmong rules here es = .ok later ∧ places = first ++ later := by
  rw [filesAmong] at found
  obtain ⟨admitted, judged, found⟩ := exists_of_bind_eq_ok found
  cases admitted with
  | false =>
    obtain ⟨first, none, found⟩ := exists_of_bind_eq_ok found
    obtain ⟨later, others, found⟩ := exists_of_bind_eq_ok found
    exact ⟨false, first, later, judged, (Except.ok.inj none).symm, others, (Except.ok.inj found).symm⟩
  | true =>
    obtain ⟨first, inside, found⟩ := exists_of_bind_eq_ok found
    obtain ⟨later, others, found⟩ := exists_of_bind_eq_ok found
    exact ⟨true, first, later, judged, inside, others, (Except.ok.inj found).symm⟩

/-- The files of a folder are those of its entries, by the rules that hold in it. -/
theorem filesAt_folder {rules : List PlacedRules} {here : Place} {entries : List (String × Node)}
    {places : List Place} (found : w.filesAt rules here (.folder entries) = .ok places) :
    ∃ inner, PlacedRules.enter rules here entries = .ok inner ∧ w.filesAmong inner here entries = .ok places := by
  rw [filesAt] at found
  obtain ⟨inner, entered, found⟩ := exists_of_bind_eq_ok found
  obtain ⟨-, -, found⟩ := exists_of_bind_eq_ok found
  exact ⟨inner, entered, found⟩

mutual

theorem finds_filesAt : ∀ (n : Node) {rules : List PlacedRules} {here : Place} {places : List Place},
    n.WellNamed → w.filesAt rules here n = .ok places → Finds here places
  | .file _ _, _, here, _, _, found => by
    rw [filesAt] at found
    obtain rfl := Except.ok.inj found
    exact ⟨List.nodup_singleton here, by simpa using Place.Within.refl here⟩
  | .folder entries, _, here, places, .folder distinct names below, found => by
    obtain ⟨inner, -, found⟩ := filesAt_folder found
    obtain ⟨once, within⟩ := finds_filesAmong entries distinct names below found
    refine ⟨once, fun p hp => ?_⟩
    obtain ⟨name, member, inside⟩ := within p hp
    obtain ⟨e, he, rfl⟩ := List.mem_map.mp member
    exact inside.step (names e he)

theorem finds_filesAmong : ∀ (entries : List (String × Node)) {rules : List PlacedRules} {here : Place}
    {places : List Place}, (entries.map (·.1)).Nodup → (∀ e ∈ entries, IsName e.1) →
    (∀ e ∈ entries, e.2.WellNamed) → w.filesAmong rules here entries = .ok places →
    places.Nodup ∧ ∀ p ∈ places, ∃ name ∈ entries.map (·.1), (here ++ [name]).Within p
  | [], _, _, _, _, _, _, found => by
    rw [filesAmong] at found
    obtain rfl := Except.ok.inj found
    simp
  | (name, n) :: es, rules, here, places, distinct, names, below, found => by
    obtain ⟨admitted, first, later, -, own, others, rfl⟩ := filesAmong_cons found
    obtain ⟨fresh, distinct⟩ := List.nodup_cons.mp distinct
    have inside : Finds (here ++ [name]) first := by
      cases admitted with
      | false =>
        obtain rfl : first = [] := own
        exact ⟨List.nodup_nil, by simp⟩
      | true => exact finds_filesAt n (below _ List.mem_cons_self) own
    obtain ⟨once, within⟩ := finds_filesAmong es distinct (fun e he => names e (List.mem_cons_of_mem _ he))
      (fun e he => below e (List.mem_cons_of_mem _ he)) others
    refine ⟨List.nodup_append.mpr ⟨inside.once, once, fun p hp q hq same => ?_⟩, fun p hp => ?_⟩
    · obtain ⟨xs, rfl, -⟩ := inside.within p hp
      obtain ⟨other, member, ys, rfl, -⟩ := within q hq
      rw [List.append_assoc, List.append_assoc, List.append_cancel_left_eq] at same
      exact fresh ((List.cons.inj same).1 ▸ member)
    · obtain hp | hp := List.mem_append.mp hp
      · exact ⟨name, List.mem_cons_self, inside.within p hp⟩
      · obtain ⟨other, member, inside⟩ := within p hp
        exact ⟨other, List.mem_cons_of_mem _ member, inside⟩

end

/-- A walk finds each file once, at or below its root. -/
theorem finds_files {root : Node} (well : root.WellNamed) {places : List Place}
    (found : w.files root = .ok places) : Finds w.root places := by
  have alone (wanted : Bool) : Finds w.root (if wanted then [w.root] else []) := by
    cases wanted with
    | false => exact ⟨List.nodup_nil, by simp⟩
    | true => exact ⟨List.nodup_singleton _, by simpa using Place.Within.refl w.root⟩
  rw [files, filesFrom] at found
  split at found
  · obtain rfl := Except.ok.inj found
    exact alone _
  · have self : Place.within? w.root w.root = some [] := by simpa using Place.within?_append w.root []
    rw [self] at found
    obtain ⟨rules, -, found⟩ := exists_of_bind_eq_ok found
    split at found
    · obtain rfl := Except.ok.inj found
      exact alone false
    · next n there =>
      obtain ⟨unsorted, inside, found⟩ := exists_of_bind_eq_ok found
      obtain rfl := Except.ok.inj found
      have order := List.mergeSort_perm unsorted fun a b => decide (a.text ≤ b.text)
      obtain ⟨once, within⟩ := finds_filesAt n (well.at? there) inside
      exact ⟨order.nodup_iff.mpr once, fun p hp => within p (order.mem_iff.mp hp)⟩

/-- Different files have different paths. -/
theorem relativePlace_injective {p q : Place} (hp : w.root.Within p) (hq : w.root.Within q)
    (same : w.relativePlace p = w.relativePlace q) : p = q := by
  obtain ⟨names, rfl, proper⟩ := hp
  obtain ⟨names', rfl, proper'⟩ := hq
  simp only [relativePlace, Place.within?_append] at same
  rw [Path.text_injective proper proper' same]

end Walk
end CodeAgent
