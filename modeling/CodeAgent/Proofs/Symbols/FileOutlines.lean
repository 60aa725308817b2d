import CodeAgent.Proofs.Symbols.DocText
import CodeAgent.Proofs.Workspace.FileChanges
import CodeAgent.Symbols.FileOutline

/-! The outlines of files. That of Python source has a symbol for each class and each function, in the ones around it,
unless the text that documents one is a block of white space; then there is no outline, and that is the only failure
which is not reported as one of the outline. -/
namespace CodeAgent
open CodeAgent.Text

namespace Source
open Definition

/-- Source is that of a program with some definitions. -/
def Parses (source : List Char) (ds : List Definition) : Prop :=
  '\x00' ∉ source ∧ definitions? source = some ds

namespace Definition

mutual

/-- The texts that document a definition and those inside it. -/
def docs : Definition → List (List Char)
  | mk _ _ doc _ _ inside => doc.toList ++ docsOfList inside

/-- The texts that document some definitions and those inside them. -/
def docsOfList : List Definition → List (List Char)
  | [] => []
  | d :: ds => docs d ++ docsOfList ds

end

/-- Symbols are those of some definitions, one for each in order, with those of the definitions directly inside it. Functions
are methods where the definitions stand in a class. -/
inductive Outlined : Bool → List Definition → List OutlineSymbol → Prop
  | nil {inClass : Bool} : Outlined inClass [] []
  | cls {inClass : Bool} {name : String} {doc : Option (List Char)} {first last : Nat} {inside rest : List Definition}
    {children symbols : List OutlineSymbol} (inner : Outlined true inside children)
    (after : Outlined inClass rest symbols) :
    Outlined inClass (mk true name doc first last inside :: rest)
      (.mk name .cls (doc.bind docDetail) first last children :: symbols)
  | function {inClass : Bool} {name : String} {doc : Option (List Char)} {first last : Nat}
    {inside rest : List Definition} {children symbols : List OutlineSymbol} (inner : Outlined false inside children)
    (after : Outlined inClass rest symbols) :
    Outlined inClass (mk false name doc first last inside :: rest)
      (.mk name (if inClass then .method else .function) (doc.bind docDetail) first last children :: symbols)

section cons
variable {inClass isClass : Bool} {name : String} {doc : Option (List Char)} {first last : Nat}
  {inside rest : List Definition}

theorem mem_docsOfList_cons {text : List Char} : text ∈ docsOfList (mk isClass name doc first last inside :: rest) ↔
    text ∈ doc ∨ text ∈ docsOfList inside ∨ text ∈ docsOfList rest := by
  rw [docsOfList, docs, List.mem_append, List.mem_append, Option.mem_toList, Option.mem_def, or_assoc]

/-- A definition whose own text has a first line, or that has none, gives a symbol if those inside it and after it do. -/
theorem toSymbols_cons (own : ∀ text ∈ doc, ¬ BlankBlock text) :
    toSymbols inClass (mk isClass name doc first last inside :: rest) = do
      let children ← toSymbols isClass inside
      let later ← toSymbols inClass rest
      return .mk name (if isClass then .cls else if inClass then .method else .function) (doc.bind docDetail) first last
        children :: later := by
  rw [toSymbols, toSymbol.eq_def]
  dsimp only
  cases doc with
  | none => cases toSymbols isClass inside <;> rfl
  | some text =>
    dsimp only
    rw [firstDocLine_eq, if_neg (own text rfl)]
    cases toSymbols isClass inside <;> rfl

theorem toSymbols_cons_of_block {text : List Char} (block : BlankBlock text) :
    toSymbols inClass (mk isClass name (some text) first last inside :: rest) = .error .outOfRange := by
  rw [toSymbols, toSymbol.eq_def]
  dsimp only
  rw [firstDocLine_eq, if_pos block]
  rfl

end cons

/-- The outline of some definitions is had if the text that documents one is no block of white space, and else it breaks
down. -/
theorem toSymbols_outcome (inClass : Bool) : ∀ ds : List Definition,
    (∀ doc ∈ docsOfList ds, ¬ BlankBlock doc) ∧ (∃ symbols, toSymbols inClass ds = .ok symbols ∧ Outlined inClass ds symbols) ∨
      (∃ doc ∈ docsOfList ds, BlankBlock doc) ∧ toSymbols inClass ds = .error .outOfRange
  | [] => .inl ⟨nofun, [], rfl, .nil⟩
  | mk isClass name doc first last inside :: rest => by
    have inner := toSymbols_outcome isClass inside
    have after := toSymbols_outcome inClass rest
    simp only [mem_docsOfList_cons]
    by_cases own : ∃ text ∈ doc, BlankBlock text
    · obtain ⟨text, rfl, block⟩ := own
      exact .inr ⟨⟨text, .inl rfl, block⟩, toSymbols_cons_of_block block⟩
    · have own : ∀ text ∈ doc, ¬ BlankBlock text := fun text mem block => own ⟨text, mem, block⟩
      rw [toSymbols_cons own]
      obtain ⟨clear, children, done, below⟩ | ⟨⟨text, mem, block⟩, failed⟩ := inner
      · obtain ⟨clear', later, done', behind⟩ | ⟨⟨text, mem, block⟩, failed⟩ := after
        · refine .inl ⟨fun text mem => ?_, _, by rw [done, done']; rfl, ?_⟩
          · obtain mem | mem | mem := mem
            · exact own text mem
            · exact clear text mem
            · exact clear' text mem
          · cases isClass with
            | true => exact .cls below behind
            | false => exact .function below behind
        · exact .inr ⟨⟨text, .inr (.inr mem), block⟩, by rw [done, failed]; rfl⟩
      · exact .inr ⟨⟨text, .inr (.inl mem), block⟩, by rw [failed]; rfl⟩

end Definition

/-- The outline of Python source is had if it parses and the text that documents a definition is no block of white
space. -/
theorem pythonOutline_outcome (source : List Char) :
    ('\x00' ∈ source ∧ pythonOutline source = .error .nullCharacter) ∨
      (definitions? source = none ∧ pythonOutline source = .error .syntactic) ∨
      ∃ ds, Parses source ds ∧
        ((∀ doc ∈ docsOfList ds, ¬ BlankBlock doc) ∧
            (∃ symbols, pythonOutline source = .ok symbols ∧ Outlined false ds symbols) ∨
          (∃ doc ∈ docsOfList ds, BlankBlock doc) ∧ pythonOutline source = .error (.breakdown .outOfRange)) := by
  unfold pythonOutline
  by_cases null : '\x00' ∈ source
  · exact .inl ⟨null, if_pos (List.contains_iff_mem.mpr null)⟩
  · rw [if_neg (mt List.contains_iff_mem.mp null)]
    refine .inr ?_
    cases parsed : definitions? source with
    | none => exact .inl ⟨rfl, rfl⟩
    | some ds =>
      refine .inr ⟨ds, ⟨null, parsed⟩, (toSymbols_outcome false ds).imp ?_ ?_⟩
      · rintro ⟨clear, symbols, done, outlined⟩
        exact ⟨clear, symbols, congrArg (Except.mapError _) done, outlined⟩
      · rintro ⟨blocked, failed⟩
        exact ⟨blocked, congrArg (Except.mapError _) failed⟩

end Source

/-- A failure is a fault that is reported of an outline. -/
def Failure.OfOutline (e : Failure) : Prop := ∃ f, e = .fault f ∧ f.kind = .symbolIndex

theorem ofOutline_notParsed (p : Path) (why : String) : (notParsed p why).OfOutline := ⟨_, rfl, rfl⟩

theorem ofOutline_unreadable (p : Path) {e : FileError} (proper : e ≠ .nullCharacter) : (unreadable p e).OfOutline := by
  rw [unreadable, if_neg proper]
  exact ⟨_, rfl, rfl⟩

section files
variable {grammars : Grammars} {most : Int} {fs : FileSystem} {p : Path} {content : Bytes} {format : OutlineFormat}

/-- The outline of a file that can be read is that of what it holds, unless it is too large. -/
theorem fileOutlineBy_of_readBytes (named : OutlineFormat.ofName? p.name = some format)
    (bytes : fs.readBytes p = .ok content) :
    fileOutlineBy grammars most fs p =
      if most < content.length then .ok [] else format.outline grammars p content := by
  obtain ⟨node, there, file⟩ := exists_of_bind_eq_ok bytes
  cases node with
  | folder entries => cases file
  | file content' modified =>
    cases file
    unfold fileOutlineBy
    rw [named, there]
    rfl

/-- Files of no known format have no symbols. -/
theorem fileOutlineBy_of_no_format (unnamed : OutlineFormat.ofName? p.name = none) :
    fileOutlineBy grammars most fs p = .ok [] := by
  unfold fileOutlineBy
  rw [unnamed]
  rfl

/-- An outline is not had because the file cannot be read, or because what it holds has none. -/
theorem fileOutlineBy_error_cases {e : Failure} (failed : fileOutlineBy grammars most fs p = .error e) :
    (∃ fe, (fs.existing p = .error fe ∨ fe = .refused .isAFolder p) ∧ e = unreadable p fe) ∨
      ∃ format content, OutlineFormat.ofName? p.name = some format ∧ fs.readBytes p = .ok content ∧
        content.length ≤ most ∧ format.outline grammars p content = .error e := by
  cases named : OutlineFormat.ofName? p.name with
  | none =>
    rw [fileOutlineBy_of_no_format named] at failed
    cases failed
  | some format =>
    cases there : fs.existing p with
    | error fe =>
      unfold fileOutlineBy at failed
      rw [named, there] at failed
      cases failed
      exact .inl ⟨fe, .inl rfl, rfl⟩
    | ok node =>
      cases node with
      | folder entries =>
        unfold fileOutlineBy at failed
        rw [named, there] at failed
        change (if most < 4096 then Except.ok [] else .error (unreadable p (.refused .isAFolder p))) = .error e at failed
        split at failed
        · cases failed
        · cases failed
          exact .inl ⟨_, .inr rfl, rfl⟩
      | file content modified =>
        have bytes : fs.readBytes p = .ok content := by
          rw [FileSystem.readBytes, there]
          rfl
        rw [fileOutlineBy_of_readBytes named bytes] at failed
        split at failed
        · cases failed
        · next small => exact .inr ⟨format, content, rfl, bytes, Int.not_lt.mp small, failed⟩

/-- A file holds the source of a Python program with some definitions, and is not too large. -/
structure PythonFile (most : Int) (fs : FileSystem) (p : Path) (ds : List Source.Definition) : Prop where
  named : OutlineFormat.ofName? p.name = some .python
  holds : ∃ content, fs.readBytes p = .ok content ∧ content.length ≤ most ∧ Source.Parses (Utf8.decode content) ds

theorem OutlineFormat.outline_error {e : Failure} (failed : format.outline grammars p content = .error e) :
    e.OfOutline ∨ format = .python ∧ e = .breakdown .outOfRange ∧ ∃ ds, Source.Parses (Utf8.decode content) ds ∧
      ∃ doc ∈ Source.Definition.docsOfList ds, BlankBlock doc := by
  cases format with
  | markdown => cases failed
  | tree language =>
    unfold OutlineFormat.outline at failed
    dsimp only at failed
    split at failed
    · cases failed
    · cases failed
      exact .inl (ofOutline_notParsed p _)
  | python =>
    unfold OutlineFormat.outline at failed
    obtain ⟨-, outcome⟩ | ⟨-, outcome⟩ | ⟨ds, parsed, ⟨-, symbols, outcome, -⟩ | ⟨blocked, outcome⟩⟩ :=
      Source.pythonOutline_outcome (Utf8.decode content)
    all_goals
      dsimp only at failed
      rw [outcome] at failed
      cases failed
    · exact .inl (ofOutline_notParsed p _)
    · exact .inl (ofOutline_notParsed p _)
    · exact .inr ⟨rfl, rfl, ds, parsed, blocked⟩

theorem PythonFile.outline_outcome {ds : List Source.Definition} (file : PythonFile most fs p ds) (grammars : Grammars) :
    ((∀ doc ∈ Source.Definition.docsOfList ds, ¬ BlankBlock doc) → ∃ symbols,
      fileOutlineBy grammars most fs p = .ok symbols ∧ Source.Definition.Outlined false ds symbols) ∧
    ((∃ doc ∈ Source.Definition.docsOfList ds, BlankBlock doc) →
      fileOutlineBy grammars most fs p = .error (.breakdown .outOfRange)) := by
  obtain ⟨named, content, bytes, small, proper, parsed⟩ := file
  rw [fileOutlineBy_of_readBytes named bytes, if_neg (Int.not_lt.mpr small)]
  unfold OutlineFormat.outline
  obtain ⟨null, -⟩ | ⟨none, -⟩ | ⟨ds', ⟨-, parsed'⟩, outcome⟩ := Source.pythonOutline_outcome (Utf8.decode content)
  · exact absurd null proper
  · rw [none] at parsed
    cases parsed
  · obtain rfl : ds' = ds := Option.some.inj (parsed'.symm.trans parsed)
    obtain ⟨clear, symbols, done, outlined⟩ | ⟨blocked, failed⟩ := outcome
    · dsimp only
      rw [done]
      exact ⟨fun _ => ⟨symbols, rfl, outlined⟩, fun ⟨doc, mem, block⟩ => absurd block (clear doc mem)⟩
    · dsimp only
      rw [failed]
      exact ⟨fun clear => blocked.elim fun doc ⟨mem, block⟩ => absurd block (clear doc mem), fun _ => rfl⟩

end files

/-- A folder with one Python file. -/
def onePython (text : String) : FileSystem :=
  { root := .folder [("a.py", .file (utf8Bytes text) 0)] }

theorem pythonFile_onePython {text : String} {ds : List Source.Definition}
    (small : (utf8Bytes text).length ≤ maxOutlineBytes) (parsed : Source.Parses text.toList ds) :
    PythonFile maxOutlineBytes (onePython text) (Place.path ["a.py"]) ds := by
  refine ⟨by rfl, utf8Bytes text, by rfl, small, ?_⟩
  rw [utf8Bytes, Utf8.decode_encode]
  exact parsed

/-- Source that parses has some definitions, and their texts are known. -/
theorem exists_parses {source : List Char} {docs : List (List Char)} (proper : '\x00' ∉ source)
    (known : (Source.definitions? source).map Source.Definition.docsOfList = some docs) :
    ∃ ds, Source.Parses source ds ∧ Source.Definition.docsOfList ds = docs := by
  obtain ⟨ds, parsed, same⟩ := Option.map_eq_some_iff.mp known
  exact ⟨ds, ⟨proper, parsed⟩, same⟩

end CodeAgent
