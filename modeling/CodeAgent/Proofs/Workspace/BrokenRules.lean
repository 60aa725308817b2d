import CodeAgent.Proofs.Workspace.Walked

/-! Walks that break down: only over an ignore file with a line that makes no pattern. -/
namespace CodeAgent
variable {α β : Type}

/-- An outcome breaks down only in ways that a property holds of. -/
def FailsBy (P : Breakdown → Prop) (x : Except Breakdown α) : Prop := ∀ b, x = .error b → P b

namespace FailsBy
variable {P Q : Breakdown → Prop}

theorem ok (x : α) : FailsBy P (.ok x) := nofun

theorem error {b : Breakdown} (h : P b) : FailsBy P (.error b : Except Breakdown α) := by
  rintro _ ⟨⟩
  exact h

theorem mono {x : Except Breakdown α} (h : FailsBy P x) (weaker : ∀ b, P b → Q b) : FailsBy Q x :=
  fun b failed => weaker b (h b failed)

theorem bind {x : Except Breakdown α} {f : α → Except Breakdown β} (first : FailsBy P x)
    (rest : ∀ y, x = .ok y → FailsBy P (f y)) : FailsBy P (x >>= f) := by
  cases x with
  | error b => exact error (first b rfl)
  | ok y => exact rest y rfl

theorem map {x : Except Breakdown α} (h : FailsBy P x) (f : α → β) : FailsBy P (x.map f) := by
  cases x with
  | error b => exact error (h b rfl)
  | ok y => exact ok _

theorem mapM {f : α → Except Breakdown β} {xs : List α} (each : ∀ x ∈ xs, FailsBy P (f x)) :
    FailsBy P (xs.mapM f) := by
  induction xs with
  | nil => exact ok []
  | cons x xs ih =>
    rw [List.mapM_cons]
    exact .bind (each x (by simp)) fun _ _ => .bind (ih fun y hy => each y (by simp [hy])) fun _ _ => ok _

theorem forM {f : α → Except Breakdown Unit} {xs : List α} (each : ∀ x ∈ xs, FailsBy P (f x)) :
    FailsBy P (xs.forM f) := by
  induction xs with
  | nil => exact ok ()
  | cons x xs ih => exact .bind (each x (by simp)) fun _ _ => ih fun y hy => each y (by simp [hy])

end FailsBy

namespace IgnoreRule

/-- Nothing is left of a glob where a character is needed. -/
abbrev Exhausted (b : Breakdown) : Prop := b = .outOfRange

theorem failsBy_headOf (cs : List Char) : FailsBy Exhausted (headOf cs) := by
  cases cs with
  | nil => exact .error rfl
  | cons c cs => exact .ok c

theorem failsBy_dropSlash (cs : List Char) : FailsBy Exhausted (dropSlash cs) := by
  refine .bind (failsBy_headOf cs) fun c _ => ?_
  split <;> exact .ok _

theorem failsBy_dropLastSlash (cs : List Char) : FailsBy Exhausted (dropLastSlash cs) := by
  refine .bind (failsBy_headOf cs.reverse) fun c _ => ?_
  split <;> exact .ok _

theorem failsBy_dropMark (cs : List Char) : FailsBy Exhausted (dropMark cs) := by
  refine .bind (failsBy_headOf cs) fun c _ => ?_
  split
  · refine .bind (failsBy_headOf _) fun d _ => ?_
    split <;> exact .ok _
  · exact .ok _

theorem failsBy_bareGlob (cs : List Char) : FailsBy Exhausted (bareGlob cs) :=
  .bind (failsBy_dropSlash cs) fun _ _ => .bind (failsBy_headOf _) fun _ _ =>
    .bind (failsBy_dropSlash _) fun _ _ => .bind (failsBy_dropLastSlash _) fun _ _ =>
      .bind (failsBy_dropMark _) fun _ _ => .ok _

theorem failsBy_classPattern (inside : List Char) : FailsBy Exhausted (classPattern inside) := by
  unfold classPattern
  dsimp only
  split
  · exact .error rfl
  all_goals exact .ok _

theorem failsBy_globBody (n : Nat) (cs : List Char) : FailsBy Exhausted (globBody n cs) := by
  fun_induction globBody n cs with
  | case1 => exact .ok _
  | case2 => exact .ok _
  | case9 n cs inside rest found ih => exact .bind (failsBy_classPattern inside) fun _ _ => .bind ih fun _ _ => .ok _
  | _ =>
    rename_i ih
    exact .bind ih fun _ _ => .ok _

theorem failsBy_ofLine (line : List Char) : FailsBy Exhausted (ofLine line) := by
  unfold ofLine
  split
  · exact .ok none
  dsimp only
  generalize mergeStarsBefore _ = glob
  split
  · exact .ok none
  exact .bind (failsBy_headOf _) fun _ _ => .bind (failsBy_bareGlob _) fun _ _ =>
    .bind (failsBy_globBody _ _) fun _ _ => .ok _

/-- A rule whose pattern cannot be read. -/
def Unreadable (rule : IgnoreRule) : Prop := ∃ e, Pattern.read {} rule.pattern = .error e

theorem failsBy_hits (rule : IgnoreRule) (relative : String) :
    FailsBy (fun b => b = .badPattern ∧ rule.Unreadable) (rule.hits relative) := by
  unfold hits
  cases read : Pattern.read {} rule.pattern with
  | ok e => exact .ok _
  | error e => exact .error ⟨rfl, e, read⟩

theorem failsBy_anyHits (relative : String) (rules : List IgnoreRule) :
    FailsBy (fun b => b = .badPattern ∧ ∃ rule ∈ rules, rule.Unreadable) (anyHits relative rules) := by
  induction rules with
  | nil => exact .ok false
  | cons rule rules ih =>
    refine .bind ((failsBy_hits rule relative).mono fun b bad => ⟨bad.1, rule, by simp, bad.2⟩) fun hit _ => ?_
    split
    · exact .ok true
    · exact ih.mono fun b ⟨bad, r, mem, unreadable⟩ => ⟨bad, r, by simp [mem], unreadable⟩

theorem failsBy_firstVerdict (relative : String) (rules : List IgnoreRule) :
    FailsBy (fun b => b = .badPattern ∧ ∃ rule ∈ rules, rule.Unreadable) (firstVerdict relative rules) := by
  induction rules with
  | nil => exact .ok false
  | cons rule rules ih =>
    refine .bind ((failsBy_hits rule relative).mono fun b bad => ⟨bad.1, rule, by simp, bad.2⟩) fun hit _ => ?_
    split
    · exact .ok _
    · exact ih.mono fun b ⟨bad, r, mem, unreadable⟩ => ⟨bad, r, by simp [mem], unreadable⟩

end IgnoreRule

namespace IgnoreRules

/-- The content of an ignore file breaks down: nothing is left of the glob on a line where a character is
needed, or a rule makes no pattern. -/
def Broken (content : Text.Bytes) (b : Breakdown) : Prop :=
  (b = .outOfRange ∧ ofBytes content = .error b) ∨
    b = .badPattern ∧ ∃ rules, ofBytes content = .ok (some rules) ∧ ∃ rule ∈ rules, rule.Unreadable

theorem failsBy_ofBytes (content : Text.Bytes) : FailsBy (Broken content) (ofBytes content) := by
  have exhausted : FailsBy IgnoreRule.Exhausted (ofBytes content) := by
    have read (lines : List (List Char)) : FailsBy IgnoreRule.Exhausted (ofLines lines) :=
      .bind (.mapM fun line _ => IgnoreRule.failsBy_ofLine line) fun _ _ => .ok _
    unfold ofBytes
    dsimp only
    split
    · exact .ok none
    · split
      · exact .bind (read _) fun _ _ => .ok _
      · exact .bind (read _) fun _ _ => .ok _
  exact fun b failed => .inl ⟨exhausted b failed, failed⟩

theorem failsBy_ignores {content : Text.Bytes} {rules : IgnoreRules}
    (read : ofBytes content = .ok (some rules)) (relative : String) :
    FailsBy (Broken content) (rules.ignores relative) := by
  unfold ignores
  split
  · refine (IgnoreRule.failsBy_firstVerdict relative rules.reverse).mono ?_
    rintro b ⟨bad, rule, mem, unreadable⟩
    exact .inr ⟨bad, rules, read, rule, List.mem_reverse.mp mem, unreadable⟩
  · refine (IgnoreRule.failsBy_anyHits relative rules).mono ?_
    rintro b ⟨bad, rule, mem, unreadable⟩
    exact .inr ⟨bad, rules, read, rule, mem, unreadable⟩

end IgnoreRules

/-- An ignore file of some content stands somewhere in a tree. -/
inductive Node.HoldsRules (content : Text.Bytes) : Node → Prop
  | direct {entries : List (String × Node)} {modified : Int} :
    (Node.folder entries).member? ".gitignore" = some (.file content modified) →
      HoldsRules content (.folder entries)
  | within {entries : List (String × Node)} {e : String × Node} : e ∈ entries → HoldsRules content e.2 →
    HoldsRules content (.folder entries)

theorem Node.HoldsRules.of_at? {content : Text.Bytes} {n m : Node} {place : Place}
    (found : n.at? place = some m) (holds : m.HoldsRules content) : n.HoldsRules content := by
  induction place generalizing n with
  | nil => exact Option.some.inj found ▸ holds
  | cons name names ih =>
    rw [Node.at?, Option.bind_eq_some_iff] at found
    obtain ⟨child, member, rest⟩ := found
    rw [Node.member?, Option.map_eq_some_iff] at member
    obtain ⟨e, entry, rfl⟩ := member
    cases n with
    | file => simp [Node.entries] at entry
    | folder entries => exact .within (List.mem_of_find?_eq_some entry) (ih rest)

/-- A tree has an ignore file that breaks down. -/
def Node.BrokenRules (n : Node) (b : Breakdown) : Prop :=
  ∃ content, n.HoldsRules content ∧ IgnoreRules.Broken content b

theorem Node.BrokenRules.cases {n : Node} {b : Breakdown} (broken : n.BrokenRules b) :
    b = .outOfRange ∨ b = .badPattern := by
  rcases broken with ⟨content, -, ⟨exhausted, -⟩ | ⟨unreadable, -⟩⟩
  · exact .inl exhausted
  · exact .inr unreadable

namespace PlacedRules

/-- Rules that all stand in ignore files of a tree. -/
def Known (root : Node) (rules : List PlacedRules) : Prop :=
  ∀ r ∈ rules, ∃ content, root.HoldsRules content ∧ IgnoreRules.ofBytes content = .ok (some r.rules)

variable {root : Node} {rules : List PlacedRules}

theorem failsBy_ignores (known : Known root rules) (place : Place) :
    FailsBy root.BrokenRules (ignores place rules) := by
  induction rules with
  | nil => exact .ok false
  | cons r rs ih =>
    obtain ⟨content, holds, read⟩ := known r (by simp)
    refine .bind ((IgnoreRules.failsBy_ignores read _).mono fun b broken => ⟨content, holds, broken⟩)
      fun hit _ => ?_
    split
    · exact .ok true
    · exact ih fun r' mem => known r' (by simp [mem])

/-- Entering a folder of a tree breaks down over its ignore file, or adds the rules of that file. -/
theorem enter_spec (known : Known root rules) (here : Place) {entries : List (String × Node)}
    (inside : ∀ content, (Node.folder entries).HoldsRules content → root.HoldsRules content) :
    FailsBy root.BrokenRules (enter rules here entries) ∧
      ∀ rules', enter rules here entries = .ok rules' → Known root rules' := by
  unfold enter
  split
  · next content modified member =>
    have holds := inside content (.direct member)
    cases read : IgnoreRules.ofBytes content with
    | error b =>
      refine ⟨.error ⟨content, holds, IgnoreRules.failsBy_ofBytes content b read⟩, ?_⟩
      rintro rules' ⟨⟩
    | ok own? =>
      cases own? with
      | none =>
        refine ⟨.ok rules, ?_⟩
        rintro rules' ⟨⟩
        exact known
      | some own =>
        refine ⟨.ok _, ?_⟩
        rintro rules' ⟨⟩ r mem
        rcases List.mem_append.mp mem with old | new
        · exact known r old
        · obtain rfl := List.mem_singleton.mp new
          exact ⟨content, holds, read⟩
  · refine ⟨.ok rules, ?_⟩
    rintro rules' ⟨⟩
    exact known

end PlacedRules

namespace Walk
open PlacedRules
variable {w : Walk} {root : Node} {rules : List PlacedRules}

theorem failsBy_admits (known : Known root rules) (place : Place) (name : String) (n : Node) :
    FailsBy root.BrokenRules (w.admits rules place name n) := by
  unfold admits
  split
  · split
    · exact .ok false
    · exact (failsBy_ignores known place).map _
  · split
    · exact (failsBy_ignores known place).map _
    · exact .ok false

theorem failsBy_judgeAll (known : Known root rules) (here : Place) (entries : List (String × Node)) :
    FailsBy root.BrokenRules (w.judgeAll rules here entries) := by
  have judge (e : String × Node) : FailsBy root.BrokenRules (do
      let _ ← w.admits rules (here ++ [e.1]) e.1 e.2) :=
    .bind (failsBy_admits known _ _ _) fun _ _ => .ok ()
  exact .bind (.forM fun e _ => judge e) fun _ _ => .forM fun e _ => judge e

mutual

theorem failsBy_filesAt : ∀ (n : Node) {rules : List PlacedRules} (here : Place), Known root rules →
    (∀ content, n.HoldsRules content → root.HoldsRules content) →
    FailsBy root.BrokenRules (w.filesAt rules here n)
  | .file .., _, here, _, _ => by
    rw [filesAt]
    exact .ok [here]
  | .folder entries, rules, here, known, inside => by
    rw [filesAt]
    obtain ⟨entering, entered⟩ := enter_spec known here inside
    refine .bind entering fun rules' made => .bind (failsBy_judgeAll (entered rules' made) here entries)
      fun _ _ => failsBy_filesAmong entries here (entered rules' made) ?_
    exact fun e mem content holds => inside content (.within mem holds)

theorem failsBy_filesAmong : ∀ (entries : List (String × Node)) {rules : List PlacedRules} (here : Place),
    Known root rules → (∀ e ∈ entries, ∀ content, e.2.HoldsRules content → root.HoldsRules content) →
    FailsBy root.BrokenRules (w.filesAmong rules here entries)
  | [], _, _, _, _ => by
    rw [filesAmong]
    exact .ok []
  | (name, n) :: es, rules, here, known, inside => by
    rw [filesAmong]
    have later := failsBy_filesAmong es here known fun e mem => inside e (by simp [mem])
    refine .bind (failsBy_admits known _ _ _) fun admitted _ => ?_
    cases admitted with
    | false => exact .bind (.ok []) fun _ _ => .bind later fun _ _ => .ok _
    | true =>
      have first := failsBy_filesAt n (here ++ [name]) known (inside (name, n) (by simp))
      exact .bind first fun _ _ => .bind later fun _ _ => .ok _

end

theorem holdsRules_entries {place : Place} {content : Text.Bytes}
    (holds : (Node.folder (((root.at? place).map Node.entries).getD [])).HoldsRules content) :
    root.HoldsRules content := by
  have empty : ¬ (Node.folder []).HoldsRules content := by
    rintro (member | ⟨mem, -⟩)
    · simp [Node.member?, Node.entries] at member
    · simp at mem
  cases found : root.at? place with
  | none =>
    rw [found] at holds
    exact absurd holds empty
  | some n =>
    rw [found] at holds
    cases n with
    | file => exact absurd holds empty
    | folder entries => exact .of_at? found holds

theorem rulesAlong_spec (root : Node) (here : Place) (names : List String) :
    FailsBy root.BrokenRules (rulesAlong root here names) ∧
      ∀ rules, rulesAlong root here names = .ok rules → Known root rules := by
  induction names generalizing here with
  | nil =>
    refine ⟨.ok [], ?_⟩
    rintro rules ⟨⟩
    exact nofun
  | cons name names ih =>
    obtain ⟨entering, entered⟩ := enter_spec (nofun : Known root []) here
      fun content => holdsRules_entries
    obtain ⟨further, known⟩ := ih (here ++ [name])
    refine ⟨.bind entering fun _ _ => .bind further fun _ _ => .ok _, fun rules made => ?_⟩
    obtain ⟨own, first, made⟩ := exists_of_bind_eq_ok made
    obtain ⟨others, rest, made⟩ := exists_of_bind_eq_ok made
    cases made
    intro r mem
    rcases List.mem_append.mp mem with mem | mem
    · exact entered own first r mem
    · exact known others rest r mem

/-- A walk breaks down only over an ignore file of the tree that does. -/
theorem failsBy_filesFrom (w : Walk) (root : Node) (start : Place) :
    FailsBy root.BrokenRules (w.filesFrom root start) := by
  have along (names : List String) := rulesAlong_spec root w.root names
  unfold filesFrom
  cases found : root.at? start with
  | none =>
    dsimp only
    split
    · exact .bind (along _).1 fun _ _ => .ok []
    · exact .bind (.ok []) fun _ _ => .ok []
  | some n =>
    have files (rules : List PlacedRules) (known : Known root rules) : FailsBy root.BrokenRules (do
        return (← w.filesAt rules start n).mergeSort fun a b => decide (a.text ≤ b.text)) :=
      .bind (failsBy_filesAt n start known fun _ => .of_at? found) fun _ _ => .ok _
    cases n with
    | file => exact .ok _
    | folder entries =>
      dsimp only
      split
      · exact .bind (along _).1 fun rules made => files rules ((along _).2 rules made)
      · exact .bind (.ok []) fun rules made => files rules (by cases made; exact nofun)

end Walk
end CodeAgent
