import CodeAgent.Proofs.Pattern.Literal
import CodeAgent.Proofs.Workspace.WalkListing
import CodeAgent.Workspace.Search

/-! Searching for a text as it stands. The matching lines make up one list, in order of files and of lines, and a search
answers with the first lines of that list; the same holds of files that are looked for by their names. As a whole word
a text is found wherever it stands by itself only if it begins and ends with a part of a word. -/
namespace CodeAgent
open CodeAgent.Text CodeAgent.Action

namespace SearchParameters
variable {p : SearchParameters}

/-- The modes in which a text is searched for. -/
def modes (p : SearchParameters) : Pattern.Modes := { foldCase := !p.caseSensitive }

/-- What is searched for is a text as it stands, in its own case, anywhere in a line. -/
structure IsLiteral (p : SearchParameters) : Prop where
  plain : p.regex = false
  cased : p.caseSensitive = true
  anywhere : p.wholeWord = false

theorem matcher_of_plain (plain : p.regex = false) (anywhere : p.wholeWord = false) :
    p.matcher = .ok (.literal p.modes p.query.toList) := by
  have read : Pattern.read { foldCase := !p.caseSensitive } p.source = .ok (.literal p.modes p.query.toList) := by
    unfold source
    rw [plain, anywhere]
    exact Pattern.read_escaped rfl p.query.toList
  unfold matcher
  rw [read]

theorem matcher_of_word (plain : p.regex = false) (whole : p.wholeWord = true) :
    p.matcher = .ok (.wholeWord p.modes p.query.toList) := by
  have read : Pattern.read { foldCase := !p.caseSensitive } p.source = .ok (.wholeWord p.modes p.query.toList) := by
    unfold source
    rw [plain, whole]
    exact Pattern.read_escaped_word rfl p.query.toList
  unfold matcher
  rw [read]

/-- A search for a text as a whole word finds a line exactly if the text stands in it, in some case if case does not
count, with an edge of a word at both of its ends. It finds all lines in which the text stands by itself exactly if the
text begins and ends with a part of a word. -/
theorem whole_word_finds_delimited_iff (plain : p.regex = false) (whole : p.wholeWord = true) (filled : p.query ≠ "") :
    ∃ e, p.matcher = .ok e ∧
      (∀ line, e.foundIn line = true ↔ ∃ pre mid post, line = pre ++ mid ++ post ∧
        List.Forall₂ (fun c d => Pattern.sameChar p.modes c d = true) p.query.toList mid ∧
        Pattern.WordEdge pre (mid ++ post) ∧ Pattern.WordEdge (pre ++ mid) post) ∧
      ((∀ line, Pattern.Delimited p.query.toList line → e.foundIn line = true) ↔
        Pattern.EndsInWords p.query.toList) := by
  have filled : p.query.toList ≠ [] := fun empty => filled (String.toList_inj.mp empty)
  exact ⟨_, matcher_of_word plain whole, fun _ => Pattern.foundIn_wholeWord_iff rfl,
    Pattern.finds_delimited_iff rfl filled⟩

/-- The sign of an addition as a whole word. -/
def plusWord : SearchParameters := { query := "+", caseSensitive := true, wholeWord := true }

/-- The sign of an addition is not found where it stands by itself, but where it stands between parts of words. -/
theorem plus_missed_by_itself :
    plusWord.query ≠ "" ∧ Pattern.Delimited plusWord.query.toList "a + b".toList ∧
      ∃ e, plusWord.matcher = .ok e ∧ e.foundIn "a + b".toList = false ∧ e.foundIn "a+b".toList = true :=
  ⟨by decide, ⟨['a', ' '], [' ', 'b'], by decide, by decide, by decide⟩, _, matcher_of_word rfl rfl,
    by decide +kernel, by decide +kernel⟩

/-- A word is found between a space and a comma. -/
theorem word_found_before_comma :
    let p : SearchParameters := { query := "save", wholeWord := true }
    p.regex = false ∧ p.wholeWord = true ∧ p.query ≠ "" ∧
      ∃ e, p.matcher = .ok e ∧ e.foundIn "to save, now".toList = true := by
  intro p
  have filled : p.query ≠ "" := by decide
  obtain ⟨e, matcher, -, finds⟩ := whole_word_finds_delimited_iff (p := p) rfl rfl filled
  refine ⟨rfl, rfl, filled, e, matcher, finds.mpr ⟨by decide, by decide⟩ _ ?_⟩
  exact ⟨"to ".toList, ", now".toList, by decide, by decide, by decide⟩

/-- A path, or the last segment of it, matches one of some globs. -/
def AnyGlob (globs : List String) (path : String) : Prop :=
  ∃ g ∈ globs, Pattern.globMatches g path = true ∨ Pattern.globMatches g (Pattern.lastSegment path) = true

/-- The files that a search looks at: those that match one of the globs to include, if there are any, and none of those
to exclude. -/
structure Covers (p : SearchParameters) (relative : String) : Prop where
  included : Pattern.splitGlobs (p.includePattern.getD "") ≠ [] →
    AnyGlob (Pattern.splitGlobs (p.includePattern.getD "")) relative
  not_excluded : ¬ AnyGlob (Pattern.splitGlobs (p.excludePattern.getD "")) relative

theorem matchesAnyGlob_iff {globs : List String} {path : String} :
    Pattern.matchesAnyGlob globs path = true ↔ AnyGlob globs path := by
  simp only [Pattern.matchesAnyGlob, List.any_eq_true, Bool.or_eq_true]
  rfl

theorem covers_iff {relative : String} : p.covers relative = true ↔ p.Covers relative := by
  have empty (path : String) : ¬ AnyGlob [] path := nofun
  simp only [covers, Bool.and_eq_true, Bool.or_eq_true, Bool.not_eq_true', List.isEmpty_iff, Bool.and_eq_false_iff,
    Bool.not_eq_false', ← Bool.not_eq_true (Pattern.matchesAnyGlob _ _), matchesAnyGlob_iff]
  constructor
  · rintro ⟨included, excluded⟩
    refine ⟨fun some => included.resolve_left some, excluded.elim (fun none => ?_) id⟩
    rw [none]
    exact empty relative
  · rintro ⟨included, excluded⟩
    exact ⟨or_iff_not_imp_left.mpr included, .inr excluded⟩

end SearchParameters

namespace LineHit

/-- In the order of files, and within a file in the order of lines. -/
def Before (h h' : LineHit) : Prop := h.path < h'.path ∨ h.path = h'.path ∧ h.number < h'.number

/-- A line of the text file at a place that has a text in it, with its number. -/
def ShowsIn (h : LineHit) (query : String) (root : Node) (place : Place) : Prop :=
  ∃ content modified n line, root.at? place = some (.file content modified) ∧ 0 ∉ content.take sniffedBytes ∧
    (lines (Utf8.decode content))[n]? = some line ∧ query.toList <:+: line ∧
    h = ⟨place.text, n + 1, String.ofList line⟩

end LineHit

section hits
variable {e : Pattern.Expr} {path : String} {number : Nat} {ls : List (List Char)} {h : LineHit} {root : Node}
  {place : Place}

theorem mem_hitsFrom_iff : h ∈ hitsFrom e path number ls ↔
    ∃ n line, ls[n]? = some line ∧ e.foundIn line = true ∧ h = ⟨path, number + n, String.ofList line⟩ := by
  induction ls generalizing number with
  | nil => simp [hitsFrom]
  | cons line more ih =>
    have first : h ∈ hitsFrom e path number (line :: more) ↔
        (e.foundIn line = true ∧ h = ⟨path, number, String.ofList line⟩) ∨ h ∈ hitsFrom e path (number + 1) more := by
      rw [hitsFrom]
      split
      · next found => simp [found]
      · next missed => simp [missed]
    refine first.trans ((or_congr_right ih).trans ⟨?_, ?_⟩)
    · rintro (⟨found, rfl⟩ | ⟨n, line', there, found, rfl⟩)
      · exact ⟨0, line, rfl, found, rfl⟩
      · exact ⟨n + 1, line', there, found, by rw [Nat.add_right_comm]; rfl⟩
    · rintro ⟨n, line', there, found, rfl⟩
      cases n with
      | zero =>
        cases there
        exact .inl ⟨found, rfl⟩
      | succ n => exact .inr ⟨n, line', there, found, by rw [Nat.add_right_comm]; rfl⟩

theorem pairwise_hitsFrom (e : Pattern.Expr) (path : String) (number : Nat) (ls : List (List Char)) :
    (hitsFrom e path number ls).Pairwise (·.number < ·.number) := by
  induction ls generalizing number with
  | nil => exact .nil
  | cons line more ih =>
    rw [hitsFrom]
    split
    · refine List.pairwise_cons.mpr ⟨fun h mem => ?_, ih (number + 1)⟩
      obtain ⟨n, _, -, -, rfl⟩ := mem_hitsFrom_iff.mp mem
      dsimp only
      omega
    · exact ih (number + 1)

/-- The lines that a literal search finds in the file at a place. -/
theorem mem_fileHits_iff {m : Pattern.Modes} (cased : m.foldCase = false) {query : String} :
    h ∈ fileHits (.literal m query.toList) root place ↔ h.ShowsIn query root place := by
  unfold fileHits LineHit.ShowsIn
  constructor
  · intro mem
    split at mem
    · next content modified file =>
      split at mem
      · next ls text =>
        unfold textLines? at text
        split at text
        · cases text
        · next sound =>
          cases text
          obtain ⟨n, line, there, found, rfl⟩ := mem_hitsFrom_iff.mp mem
          exact ⟨content, modified, n, line, file, fun null => sound (List.contains_iff_mem.mpr null), there,
            (Pattern.foundIn_literal_iff_infix cased).mp found, by rw [Nat.add_comm]⟩
      · cases mem
    · cases mem
  · rintro ⟨content, modified, n, line, file, sound, there, found, rfl⟩
    have text : textLines? content = some (lines (Utf8.decode content)) :=
      if_neg fun null => sound (List.contains_iff_mem.mp null)
    rw [file]
    dsimp only
    rw [text]
    exact mem_hitsFrom_iff.mpr
      ⟨n, line, there, (Pattern.foundIn_literal_iff_infix cased).mpr found, by rw [Nat.add_comm]⟩

theorem before_fileHits (e : Pattern.Expr) (root : Node) (place : Place) :
    (fileHits e root place).Pairwise LineHit.Before ∧ ∀ h ∈ fileHits e root place, h.path = place.text := by
  unfold fileHits
  split
  · split
    · next ls _ =>
      have same : ∀ h ∈ hitsFrom e place.text 1 ls, h.path = place.text := fun h mem => by
        obtain ⟨_, _, -, -, rfl⟩ := mem_hitsFrom_iff.mp mem
        rfl
      refine ⟨(pairwise_hitsFrom e place.text 1 ls).imp_of_mem fun mem mem' less => ?_, same⟩
      exact .inr ⟨(same _ mem).trans (same _ mem').symm, less⟩
    · exact ⟨.nil, nofun⟩
  · exact ⟨.nil, nofun⟩

/-- The lines found in files that are in order are in order. -/
theorem before_flatMap_fileHits (e : Pattern.Expr) (root : Node) {places : List Place}
    (sorted : places.Pairwise fun p q => p.text < q.text) :
    (places.flatMap (fileHits e root)).Pairwise LineHit.Before := by
  induction sorted with
  | nil => exact .nil
  | @cons place places first _ ih =>
    obtain ⟨own, path⟩ := before_fileHits e root place
    rw [List.flatMap_cons]
    refine List.pairwise_append.mpr ⟨own, ih, fun h mem h' mem' => ?_⟩
    obtain ⟨place', later, mem'⟩ := List.mem_flatMap.mp mem'
    rw [LineHit.Before, path h mem, (before_fileHits e root place').2 h' mem']
    exact .inl (first place' later)

end hits

/-- What a walk over its whole tree gives is in order of paths, each once. -/
theorem Walk.sorted_files {w : Walk} {root : Node} (well : root.WellNamed) {places : List Place}
    (found : w.files root = .ok places) : places.Pairwise fun p q => p.text < q.text := by
  have self : Place.within? w.root w.root = some [] := by simpa using Place.within?_append w.root []
  cases there : root.at? w.root with
  | none =>
    rw [files, filesFrom, there] at found
    dsimp only at found
    rw [self] at found
    cases found
    exact .nil
  | some n =>
    cases n with
    | file =>
      rw [files, filesFrom, there] at found
      obtain rfl := Except.ok.inj found
      split
      · exact List.pairwise_singleton _ _
      · exact .nil
    | folder entries =>
      have walked := finds_files well found
      have proper : ∀ p ∈ places, ∀ name ∈ p, IsName name := fun p mem =>
        (walked.within p mem).proper (well.isName_of_at? there)
      obtain ⟨unsorted, -, rfl⟩ : ∃ unsorted, w.filesAt [] w.root (.folder entries) = .ok unsorted ∧
          inOrder unsorted = places := by
        rw [files_of_folder there rfl] at found
        cases inside : w.filesAt [] w.root (.folder entries) with
        | error b =>
          rw [inside] at found
          cases found
        | ok unsorted =>
          rw [inside] at found
          exact ⟨unsorted, rfl, Except.ok.inj found⟩
      refine ((sorted_inOrder unsorted).and walked.once).imp_of_mem fun {p q} mem mem' both =>
        String.not_le.mp fun ge => both.2 ?_
      exact Place.text_injective (proper p mem) (proper q mem') (String.le_antisymm both.1 ge)

namespace FileSystem
variable {fs : FileSystem} {target : Path} {node : Node} {skipped : List String}

/-- The walk of a search from a path: its root is the folder at the path, or the folder of the file there. -/
structure SearchWalk (fs : FileSystem) (target : Path) (node : Node) (skipped : List String) (w : Walk)
    (start : Place) : Prop where
  named : fs.resolve target = .ok start
  there : fs.root.at? start = some node
  rooted : fs.resolve (if node.isFile then target.parent else target) = .ok w.root
  skipped : w.skipped = skipped
  every : w.extensions = none

theorem exists_searchWalk (there : fs.node? target = .ok (some node)) (skipped : List String) :
    ∃ w start, fs.SearchWalk target node skipped w start := by
  obtain ⟨start, named⟩ : ∃ start, fs.resolve target = .ok start := by
    unfold node? at there
    split at there
    · next looked => exact ⟨_, (look_seen looked).named⟩
    · cases there
    · cases there
  have proper : target.hasNull = false := by
    unfold resolve at named
    split at named
    · cases named
    · next proper => exact Bool.eq_false_iff.mpr proper
  obtain ⟨top, rooted⟩ : ∃ top, fs.resolve (if node.isFile then target.parent else target) = .ok top := by
    split
    · exact ⟨_, if_neg (Bool.eq_false_iff.mp (Path.hasNull_parent proper))⟩
    · exact ⟨start, named⟩
  exact ⟨{ root := top, skipped }, start, named, at?_of_node? there named, rooted, rfl, rfl⟩

/-- A search answers with the first lines of those found in the files of its walk that it covers. -/
theorem SearchWalk.searchLines_eq {w : Walk} {start : Place} (walk : fs.SearchWalk target node skipped w start)
    (there : fs.node? target = .ok (some node)) (p : SearchParameters) (e : Pattern.Expr) (most : Nat) :
    searchLines fs p e target skipped most = ((w.filesFrom fs.root start).mapError .breakdown).map fun places =>
      ((places.filter fun q => p.covers (w.relativePlace q)).flatMap (fileHits e fs.root)).take most := by
  obtain ⟨top, extensions, kept⟩ := w
  obtain rfl : kept = skipped := walk.skipped
  obtain rfl : extensions = none := walk.every
  have read : searchLines fs p e target kept most =
      ((fs.resolve (if node.isFile then target.parent else target)).mapError Failure.file >>= fun root =>
        (fs.resolve target).mapError Failure.file >>= fun start =>
          ((Walk.mk root none kept).filesFrom fs.root start).mapError Failure.breakdown >>= fun places =>
            return ((places.filter fun q => p.covers ((Walk.mk root none kept).relativePlace q)).flatMap
              (fileHits e fs.root)).take most) := by
    unfold searchLines
    rw [there]
    rfl
  rw [read, walk.named, walk.rooted]
  change ((Walk.filesFrom _ fs.root start).mapError Failure.breakdown >>= fun places => _) = _
  cases Walk.filesFrom _ fs.root start <;> rfl

theorem SearchWalk.sorted {w : Walk} {start : Place} (walk : fs.SearchWalk target node skipped w start)
    (well : fs.root.WellNamed) {places : List Place} (found : w.filesFrom fs.root start = .ok places) :
    places.Pairwise fun p q => p.text < q.text := by
  cases node with
  | file =>
    rw [Walk.filesFrom, walk.there] at found
    obtain rfl := Except.ok.inj found
    split
    · exact List.pairwise_singleton _ _
    · exact .nil
  | folder =>
    obtain rfl : start = w.root := Except.ok.inj (walk.named.symm.trans walk.rooted)
    exact Walk.sorted_files well found

end FileSystem

/-- Either a walk breaks down, over an ignore file of the tree, and then so does the answer at every limit; or the
answers at all limits are the starts of one list, which holds in order and once each what is to be shown of the files of
the walk. -/
def FirstUnlessBroken {α : Type} (root : Node) (walked : Except Breakdown (List Place))
    (answer : Nat → Except Failure (List α)) (before : α → α → Prop) (shown : Place → α → Prop) : Prop :=
  match walked with
  | .error b => root.BrokenRules b ∧ ∀ most, answer most = .error (.breakdown b)
  | .ok places => ∃ all : List α, all.Pairwise before ∧ (∀ a, a ∈ all ↔ ∃ place ∈ places, shown place a) ∧
      ∀ most, 1 ≤ most → answer most = .ok (all.take most) ∧ all.take most <+: all.take (most + 1)

/-- The test of names that a pattern gives: the pattern is found in the name in any case, or, if it cannot be read, its
text is a part of the name in any case. -/
def TestsNames (pattern : String) (test : String → Bool) : Prop :=
  match Pattern.read { foldCase := true } pattern.toList with
  | .ok e => ∀ name, test name = e.foundIn name.toList
  | .error _ => ∀ name, test name = containsText (lower name) (lower pattern)

namespace FileSystem
variable {fs : FileSystem} {skipped : List String}

/-- A search for files by name answers with the first of those files of its walk whose names pass the test. -/
theorem findFiles_first (fs : FileSystem) (well : fs.root.WellNamed) {workspace : Path} {top : Place}
    (named : fs.resolve workspace = .ok top) (test : String → Bool) :
    FirstUnlessBroken fs.root (Walk.files { root := top, skipped } fs.root) (findFiles fs test workspace skipped)
      (fun f f' => f.path < f'.path) fun place f => f = ⟨place.getLastD "", place.text⟩ ∧ test f.name = true := by
  have answer (most : Nat) : findFiles fs test workspace skipped most =
      ((Walk.files { root := top, skipped } fs.root).mapError .breakdown).map fun places =>
        ((places.map fun q => NamedFile.mk (q.getLastD "") q.text).filter fun f => test f.name).take most := by
    unfold findFiles
    rw [named]
    change ((Walk.files _ fs.root).mapError Failure.breakdown >>= fun places => _) = _
    cases Walk.files _ fs.root <;> rfl
  unfold FirstUnlessBroken
  cases walked : Walk.files { root := top, skipped } fs.root with
  | error b =>
    refine ⟨Walk.failsBy_filesFrom _ fs.root top b walked, fun most => ?_⟩
    rw [answer, walked]
    rfl
  | ok places =>
    have sorted : (places.map fun q => NamedFile.mk (q.getLastD "") q.text).Pairwise (·.path < ·.path) :=
      List.pairwise_map.mpr (Walk.sorted_files well walked)
    refine ⟨(places.map fun q => NamedFile.mk (q.getLastD "") q.text).filter fun f => test f.name, sorted.filter _,
      fun f => ?_, fun most _ => ⟨?_, ?_⟩⟩
    · rw [List.mem_filter, List.mem_map]
      constructor
      · rintro ⟨⟨place, mem, rfl⟩, passes⟩
        exact ⟨place, mem, rfl, passes⟩
      · rintro ⟨place, mem, rfl, passes⟩
        exact ⟨⟨place, mem, rfl⟩, passes⟩
    · rw [answer, walked]
      rfl
    · exact List.take_prefix_take_left (Nat.le_succ most)

end FileSystem

end CodeAgent
