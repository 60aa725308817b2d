import CodeAgent.Proofs.Workspace.Lookup

/-! A walk from a folder of a workspace against the walk over the workspace. A walk reads the ignore files from its
own root on, so that the walk from the folder finds all that the walk over the workspace finds there, and also what
only the rules above the folder hide. -/
namespace CodeAgent
open CodeAgent.Text

namespace PlacedRules
variable {above rules : List PlacedRules} {here place : Place} {entries : List (String × Node)}

/-- Some of the rules are known to ignore a place. -/
def ignored (rules : List PlacedRules) (place : Place) : Bool := (ignores place rules).toOption.getD false

/-- Rules hide what names lead to from a place: they ignore it, or a folder on the way. -/
def hides (rules : List PlacedRules) (here : Place) : List String → Bool
  | [] => false
  | name :: names => ignored rules (here ++ [name]) || hides rules (here ++ [name]) names

/-- Rules are asked in order, up to the first that ignores the place. -/
theorem ignores_append (place : Place) (above rules : List PlacedRules) :
    ignores place (above ++ rules) =
      (ignores place above).bind fun hit => if hit then .ok true else ignores place rules := by
  induction above with
  | nil => rfl
  | cons r rs ih =>
    rw [List.cons_append, ignores, ignores]
    cases r.rules.ignores (String.intercalate "/" (place.drop r.base.length)) with
    | error b => rfl
    | ok hit =>
      cases hit with
      | true => rfl
      | false => exact ih

theorem enter_append (above rules : List PlacedRules) (here : Place) (entries : List (String × Node)) :
    enter (above ++ rules) here entries = (enter rules here entries).map (above ++ ·) := by
  unfold enter
  split
  · next content _ _ =>
    cases IgnoreRules.ofBytes content with
    | error b => rfl
    | ok own? =>
      cases own? with
      | none => rfl
      | some own => exact congrArg Except.ok (List.append_assoc above rules _)
  · rfl

end PlacedRules

namespace Place
variable {here p : Place} {name other : String}

theorem Within.proper (within : here.Within p) (above : ∀ name ∈ here, IsName name) : ∀ name ∈ p, IsName name := by
  obtain ⟨names, rfl, below⟩ := within
  exact fun name mem => (List.mem_append.mp mem).elim (above name) (below name)

theorem Within.begins (within : here.Within p) : here <+: p := by
  obtain ⟨names, rfl, -⟩ := within
  exact List.prefix_append _ _

/-- Different places have different paths. -/
theorem text_injective {q : Place} (proper : ∀ name ∈ p, IsName name) (proper' : ∀ name ∈ q, IsName name)
    (same : p.text = q.text) : p = q := by
  have paths : Place.path p = Place.path q := by rw [← Path.ofText_text proper, ← Path.ofText_text proper', same]
  exact congrArg Path.names paths

/-- What is below one name is not below another one. -/
theorem Within.not_begins (within : (here ++ [other]).Within p) (apart : other ≠ name) : ¬ here ++ [name] <+: p := by
  rintro ⟨names, same⟩
  obtain ⟨names', rfl, -⟩ := within
  rw [List.append_assoc, List.append_assoc, List.append_cancel_left_eq] at same
  exact apart (List.cons.inj same).1.symm

end Place

namespace Walk
open PlacedRules
variable {w : Walk} {above rules : List PlacedRules} {here place : Place} {name : String} {n : Node}
  {root : Node} {names : List String}

/-- More rules from above only keep out more. -/
theorem admits_append {admitted own : Bool} (all : w.admits (above ++ rules) place name n = .ok admitted)
    (alone : w.admits rules place name n = .ok own) : admitted = (own && !ignored above place) := by
  have judged {admitted own : Bool} (all : (ignores place (above ++ rules)).map (!·) = .ok admitted)
      (alone : (ignores place rules).map (!·) = .ok own) : admitted = (own && !ignored above place) := by
    rw [ignores_append] at all
    unfold ignored
    cases hit : ignores place above with
    | error b =>
      rw [hit] at all
      cases all
    | ok hit' =>
      rw [hit] at all
      cases hit' with
      | true =>
        cases all
        exact (Bool.and_false own).symm
      | false => exact (Except.ok.inj (all.symm.trans alone)).trans (Bool.and_true own).symm
  have out {admitted own : Bool} (all : (.ok false : Except Breakdown Bool) = .ok admitted)
      (alone : (.ok false : Except Breakdown Bool) = .ok own) : admitted = (own && !ignored above place) := by
    cases all
    cases alone
    rfl
  unfold admits at all alone
  split at all
  · next folder =>
    rw [if_pos folder] at alone
    split at all
    · next skip =>
      rw [if_pos skip] at alone
      exact out all alone
    · next enters =>
      rw [if_neg enters] at alone
      exact judged all alone
  · next file =>
    rw [if_neg file] at alone
    split at all
    · next wanted =>
      rw [if_pos wanted] at alone
      exact judged all alone
    · next other =>
      rw [if_neg other] at alone
      exact out all alone

/-- What is found at or below an entry, counted from the entry and from its folder. -/
theorem filter_hides_of_within {places : List Place} (within : ∀ p ∈ places, (here ++ [name]).Within p) :
    places.filter (fun p => !hides above here (p.drop here.length)) =
      if ignored above (here ++ [name]) then []
      else places.filter fun p => !hides above (here ++ [name]) (p.drop (here ++ [name]).length) := by
  have each : ∀ p ∈ places, hides above here (p.drop here.length) =
      (ignored above (here ++ [name]) || hides above (here ++ [name]) (p.drop (here ++ [name]).length)) := by
    intro p mem
    obtain ⟨names, rfl, -⟩ := within p mem
    rw [List.drop_left, List.append_assoc, List.drop_left, List.singleton_append, hides]
  rw [List.filter_congr fun p mem => by rw [each p mem]]
  cases ignored above (here ++ [name]) with
  | true => simp
  | false => simp

mutual

/-- With rules from above, a walk finds what it finds without them, but for what they hide. -/
theorem filesAt_append : ∀ (n : Node) {above rules : List PlacedRules} {here : Place} {places own : List Place},
    n.WellNamed → w.filesAt (above ++ rules) here n = .ok places → w.filesAt rules here n = .ok own →
    places = own.filter fun p => !hides above here (p.drop here.length)
  | .file _ _, above, rules, here, places, own, _, found, alone => by
    rw [filesAt] at found alone
    cases found
    cases alone
    rw [List.filter_singleton, List.drop_length, hides]
    rfl
  | .folder entries, above, rules, here, places, own, .folder distinct names below, found, alone => by
    obtain ⟨inner, entered, found⟩ := filesAt_folder found
    obtain ⟨inner', entered', alone⟩ := filesAt_folder alone
    rw [enter_append, entered'] at entered
    cases entered
    exact filesAmong_append entries names below found alone

theorem filesAmong_append : ∀ (entries : List (String × Node)) {above rules : List PlacedRules} {here : Place}
    {places own : List Place}, (∀ e ∈ entries, IsName e.1) → (∀ e ∈ entries, e.2.WellNamed) →
    w.filesAmong (above ++ rules) here entries = .ok places → w.filesAmong rules here entries = .ok own →
    places = own.filter fun p => !hides above here (p.drop here.length)
  | [], _, _, _, _, _, _, _, found, alone => by
    rw [filesAmong] at found alone
    cases found
    cases alone
    rfl
  | (name, n) :: es, above, rules, here, places, own, names, below, found, alone => by
    obtain ⟨admitted, first, later, judged, inside, others, rfl⟩ := filesAmong_cons found
    obtain ⟨admitted', first', later', judged', inside', others', rfl⟩ := filesAmong_cons alone
    have rest := filesAmong_append es (fun e he => names e (List.mem_cons_of_mem _ he))
      (fun e he => below e (List.mem_cons_of_mem _ he)) others others'
    have well := below _ List.mem_cons_self
    have same := admits_append judged judged'
    rw [List.filter_append, ← rest]
    congr 1
    -- An entry that its own rules leave out is left out by both walks; another one can be ignored from above only.
    cases admitted' with
    | false =>
      obtain rfl : first' = [] := inside'
      rw [Bool.false_and] at same
      subst same
      exact inside
    | true =>
      rw [filter_hides_of_within (finds_filesAt n well inside').within]
      cases hit : ignored above (here ++ [name]) with
      | true =>
        rw [hit] at same
        cases same
        exact inside
      | false =>
        rw [hit] at same
        cases same
        exact filesAt_append n well inside inside'

end

mutual

/-- The root of a walk plays no part below it. -/
theorem filesAt_root (top : Place) : ∀ (n : Node) (rules : List PlacedRules) (here : Place),
    filesAt { w with root := top } rules here n = w.filesAt rules here n
  | .file _ _, _, _ => by rw [filesAt, filesAt]
  | .folder entries, rules, here => by
    rw [filesAt, filesAt]
    have judged (rules : List PlacedRules) :
        judgeAll { w with root := top } rules here entries = w.judgeAll rules here entries := rfl
    simp only [judged, filesAmong_root top entries]

theorem filesAmong_root (top : Place) : ∀ (entries : List (String × Node)) (rules : List PlacedRules) (here : Place),
    filesAmong { w with root := top } rules here entries = w.filesAmong rules here entries
  | [], _, _ => by rw [filesAmong, filesAmong]
  | (name, n) :: es, rules, here => by
    rw [filesAmong, filesAmong]
    have judged (rules : List PlacedRules) (place : Place) :
        admits { w with root := top } rules place name n = w.admits rules place name n := rfl
    simp only [judged, filesAt_root top n, filesAmong_root top es]

end

/-- Below one name, a folder has nothing but what its entry of that name has. -/
theorem filter_filesAmong {entries : List (String × Node)} {child : Node} {places : List Place}
    (well : (Node.folder entries).WellNamed) (entry : (name, child) ∈ entries)
    (goes : w.admits rules (here ++ [name]) name child ≠ .ok false)
    (found : w.filesAmong rules here entries = .ok places) :
    w.filesAt rules (here ++ [name]) child = .ok (places.filter (here ++ [name] <+: ·)) := by
  -- The induction is on the entries, and what it needs to know is stated of any list of them.
  obtain ⟨distinct, proper, below⟩ : (entries.map (·.1)).Nodup ∧ (∀ e ∈ entries, IsName e.1) ∧
      ∀ e ∈ entries, e.2.WellNamed := by
    cases well with
    | folder distinct proper below => exact ⟨distinct, proper, below⟩
  clear well
  induction entries generalizing places with
  | nil => cases entry
  | cons e es ih =>
    obtain ⟨own, n⟩ := e
    obtain ⟨judged, first, later, judgement, inside, rest, rfl⟩ := filesAmong_cons found
    obtain ⟨fresh, once⟩ := List.nodup_cons.mp distinct
    obtain ⟨-, propers⟩ := List.forall_mem_cons.mp proper
    obtain ⟨well, wells⟩ := List.forall_mem_cons.mp below
    rw [List.filter_append]
    obtain same | entry := List.mem_cons.mp entry
    · obtain ⟨rfl, rfl⟩ := Prod.mk.inj same
      cases judged with
      | false => exact absurd judgement goes
      | true =>
        have inside : w.filesAt rules (here ++ [name]) child = .ok first := inside
        have first_in : first.filter (here ++ [name] <+: ·) = first :=
          List.filter_eq_self.mpr fun p mem => decide_eq_true ((finds_filesAt child well inside).within p mem).begins
        have later_out : later.filter (here ++ [name] <+: ·) = [] := by
          refine List.filter_eq_nil_iff.mpr fun p mem => ?_
          obtain ⟨other, member, within⟩ := (finds_filesAmong es once propers wells rest).2 p mem
          exact mt of_decide_eq_true (within.not_begins fun same => fresh (same ▸ member))
        rw [first_in, later_out, List.append_nil, inside]
    · have first_out : first.filter (here ++ [name] <+: ·) = [] := by
        refine List.filter_eq_nil_iff.mpr fun p mem => mt of_decide_eq_true ?_
        cases judged with
        | false =>
          obtain rfl : first = [] := inside
          cases mem
        | true =>
          refine ((finds_filesAt n well inside).within p mem).not_begins fun same => ?_
          exact fresh (List.mem_map.mpr ⟨_, entry, same.symm⟩)
      rw [first_out, List.nil_append]
      exact ih entry rest once propers wells

theorem rulesAlong_append (root : Node) (here : Place) (way names : List String) :
    rulesAlong root here (way ++ names) =
      (rulesAlong root here way).bind fun rules => (rulesAlong root (here ++ way) names).map (rules ++ ·) := by
  induction way generalizing here with
  | nil =>
    rw [List.nil_append, List.append_nil, rulesAlong]
    change _ = (rulesAlong root here names).map ([] ++ ·)
    cases rulesAlong root here names <;> rfl
  | cons name way ih =>
    rw [List.cons_append, rulesAlong, rulesAlong, ih]
    cases enter [] here (((root.at? here).map Node.entries).getD []) with
    | error b => rfl
    | ok own =>
      cases rulesAlong root (here ++ [name]) way with
      | error b => rfl
      | ok rules =>
        rw [List.append_assoc]
        change (rulesAlong root (here ++ name :: way) names).map _ >>= _ = _
        cases rulesAlong root (here ++ name :: way) names with
        | error b => rfl
        | ok later => exact congrArg Except.ok (List.append_assoc own rules later).symm

/-- A walk goes down from its root along names: no folder on the way is left out because of its name, or ignored by
the rules of the folders above it. -/
def GoesDown (w : Walk) (root : Node) (names : List String) : Prop :=
  ∀ way name later, names = way ++ name :: later → name ≠ historyFolder ∧ name ∉ w.skipped ∧
    ∀ rules, rulesAlong root w.root (way ++ [name]) = .ok rules → ¬ ignored rules (w.root ++ way ++ [name])

/-- What a walk finds below a folder that it comes to, it finds there with the rules from above. -/
theorem filter_filesAt {way : List String} {places : List Place} {n m : Node} (well : n.WellNamed)
    (known : rulesAlong root w.root way = .ok rules) (there : root.at? (w.root ++ way) = some n)
    (below : n.at? names = some m) (down : w.GoesDown root (way ++ names))
    (found : w.filesAt rules (w.root ++ way) n = .ok places) (folder : m.isFolder) :
    ∃ rules', rulesAlong root w.root (way ++ names) = .ok rules' ∧
      w.filesAt rules' (w.root ++ way ++ names) m = .ok (places.filter (w.root ++ way ++ names <+: ·)) := by
  induction names generalizing way rules n places with
  | nil =>
    obtain rfl : n = m := Option.some.inj below
    rw [List.append_nil, List.append_nil]
    refine ⟨rules, known, ?_⟩
    rw [List.filter_eq_self.mpr fun p mem => decide_eq_true ((finds_filesAt n well found).within p mem).begins, found]
  | cons name names ih =>
    obtain ⟨entries, child, rfl, entry, first, below⟩ := Node.exists_entry_of_at? below
    obtain ⟨inner, entered, found⟩ := filesAt_folder found
    have along : rulesAlong root w.root (way ++ [name]) = .ok inner := by
      rw [← List.append_nil rules, enter_append] at entered
      rw [rulesAlong_append, known]
      change (rulesAlong root (w.root ++ way) [name]).map _ = _
      rw [rulesAlong, there]
      change ((enter [] (w.root ++ way) entries) >>= fun own => .ok (own ++ [])).map _ = _
      cases own : enter [] (w.root ++ way) entries with
      | error b =>
        rw [own] at entered
        cases entered
      | ok own' =>
        rw [own] at entered
        rw [← entered]
        exact congrArg (fun more => Except.ok (rules ++ more)) (List.append_nil own')
    have inside : child.isFolder := Node.isFolder_of_at? below folder
    have goes : w.admits inner (w.root ++ way ++ [name]) name child ≠ .ok false := by
      obtain ⟨visible, entered, heard⟩ := down way name names rfl
      have enters : ¬ (name == historyFolder || w.skipped.contains name) = true := by simpa using ⟨visible, entered⟩
      rw [admits, if_pos inside, if_neg enters]
      intro refused
      have hit : ignores (w.root ++ way ++ [name]) inner = .ok true := by
        cases verdict : ignores (w.root ++ way ++ [name]) inner with
        | error b =>
          rw [verdict] at refused
          cases refused
        | ok hit =>
          rw [verdict] at refused
          cases hit with
          | true => rfl
          | false => cases refused
      exact heard inner along (by rw [ignored, hit]; rfl)
    have next : root.at? (w.root ++ (way ++ [name])) = some child := by
      rw [← List.append_assoc, Node.at?_append, there]
      exact first
    have step := filter_filesAmong well entry goes found
    have whole : way ++ name :: names = way ++ [name] ++ names := List.append_cons way name names
    rw [whole] at down
    rw [List.append_assoc w.root] at step
    obtain ⟨rules', along', found'⟩ := ih (well.at? first) along next below down step
    refine ⟨rules', whole ▸ along', ?_⟩
    rw [List.append_assoc w.root] at found' ⊢
    rw [whole, found', List.filter_filter]
    refine congrArg Except.ok (List.filter_congr fun p _ => ?_)
    rw [Bool.and_eq_left_iff_imp]
    intro below
    have above : w.root ++ (way ++ [name]) <+: w.root ++ (way ++ [name] ++ names) := by
      rw [← List.append_assoc w.root (way ++ [name])]
      exact List.prefix_append _ _
    exact decide_eq_true (above.trans (of_decide_eq_true below))

/-- The order in which a walk gives its files. -/
def inOrder (places : List Place) : List Place := places.mergeSort fun p q => decide (p.text ≤ q.text)

theorem inOrder_perm (places : List Place) : (inOrder places).Perm places :=
  List.mergeSort_perm places fun p q => decide (p.text ≤ q.text)

theorem sorted_inOrder (places : List Place) : (inOrder places).Pairwise fun p q => p.text ≤ q.text := by
  refine (List.pairwise_mergeSort ?_ ?_ _).imp of_decide_eq_true
  · exact fun a b c ab bc => decide_eq_true (String.le_trans (of_decide_eq_true ab) (of_decide_eq_true bc))
  · intro a b
    rw [Bool.or_eq_true, decide_eq_true_iff, decide_eq_true_iff]
    exact String.le_total a.text b.text

/-- Files that are in order are the same if they are the same in any order. -/
theorem eq_of_sorted {places places' : List Place} (same : places.Perm places')
    (proper : ∀ p ∈ places, ∀ name ∈ p, IsName name) (sorted : places.Pairwise fun p q => p.text ≤ q.text)
    (sorted' : places'.Pairwise fun p q => p.text ≤ q.text) : places = places' :=
  same.eq_of_pairwise (fun _ _ mem mem' le ge => Place.text_injective (proper _ mem) (proper _ (same.mem_iff.mpr mem'))
    (String.le_antisymm le ge)) sorted sorted'

/-- Some of the files are in the same order as all of them. -/
theorem filter_inOrder {places : List Place} (proper : ∀ p ∈ places, ∀ name ∈ p, IsName name) (keep : Place → Bool) :
    (inOrder places).filter keep = inOrder (places.filter keep) := by
  have kept : ∀ p ∈ (inOrder places).filter keep, ∀ name ∈ p, IsName name := fun p mem =>
    proper p ((inOrder_perm places).mem_iff.mp (List.mem_filter.mp mem).1)
  have same : ((inOrder places).filter keep).Perm (inOrder (places.filter keep)) :=
    ((inOrder_perm places).filter keep).trans (inOrder_perm _).symm
  exact eq_of_sorted same kept ((sorted_inOrder places).filter keep) (sorted_inOrder _)

/-- A walk over a folder starts there without any rules. -/
theorem files_of_folder {n : Node} (there : root.at? w.root = some n) (folder : n.isFolder) :
    w.files root = (w.filesAt [] w.root n).map inOrder := by
  have self : Place.within? w.root w.root = some [] := by simpa using Place.within?_append w.root []
  cases n with
  | file => cases folder
  | folder entries =>
    rw [files, filesFrom, there]
    dsimp only
    rw [self]
    rfl

/-- A walk over a workspace finds in a folder what a walk from that folder finds, but for what the rules above the
folder hide. -/
theorem filter_files {m : Node} {places own : List Place} (well : root.WellNamed) (down : w.GoesDown root names)
    (there : root.at? (w.root ++ names) = some m) (folder : m.isFolder) (found : w.files root = .ok places)
    (alone : files { w with root := w.root ++ names } root = .ok own) :
    ∃ rules, rulesAlong root w.root names = .ok rules ∧ places.filter (w.root ++ names <+: ·) =
      own.filter fun p => !hides rules (w.root ++ names) (p.drop (w.root ++ names).length) := by
  have path := there
  rw [Node.at?_append, Option.bind_eq_some_iff] at path
  obtain ⟨n, top, below⟩ := path
  rw [files_of_folder top (Node.isFolder_of_at? below folder)] at found
  rw [files_of_folder there folder, filesAt_root] at alone
  cases all : w.filesAt [] w.root n with
  | error b =>
    rw [all] at found
    cases found
  | ok all' =>
    rw [all] at found
    cases found
    cases part : w.filesAt [] (w.root ++ names) m with
    | error b =>
      rw [part] at alone
      cases alone
    | ok part' =>
      rw [part] at alone
      cases alone
      have start : root.at? (w.root ++ []) = some n := by rw [List.append_nil, top]
      have whole : w.filesAt [] (w.root ++ []) n = .ok all' := by rw [List.append_nil, all]
      obtain ⟨rules, along, inside⟩ := filter_filesAt (well.at? top) rfl start below down whole folder
      rw [List.append_nil] at inside
      rw [← List.append_nil rules] at inside
      refine ⟨rules, along, ?_⟩
      have proper : ∀ p ∈ all', ∀ name ∈ p, IsName name := fun p mem =>
        ((finds_filesAt n (well.at? top) all).within p mem).proper (well.isName_of_at? top)
      have proper' : ∀ p ∈ part', ∀ name ∈ p, IsName name := fun p mem =>
        ((finds_filesAt m (well.at? there) part).within p mem).proper (well.isName_of_at? there)
      rw [filter_inOrder proper, filter_inOrder proper', filesAt_append m (well.at? there) inside part]

end Walk
end CodeAgent
