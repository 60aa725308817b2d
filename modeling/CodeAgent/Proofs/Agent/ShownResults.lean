import CodeAgent.Proofs.Agent.ToolChanges
import CodeAgent.Proofs.Json.CutText
import CodeAgent.Proofs.Json.Limits
import CodeAgent.Proofs.Symbols.SearchResults

/-! What the model reads of the result of a tool: all of it, or its start and how long it is. A result that is cut is
never laid out as a list, and a listing that is not cut is laid out with all its files, or as many of its symbols as are
shown. -/
namespace CodeAgent
open CodeAgent.Text CodeAgent.Action CodeAgent.Decimal CodeAgent.Json

/-- Found files as they are listed. -/
def NamedFile.listing (files : List NamedFile) : String :=
  Json.write .line (.arr (files.map NamedFile.toJson))

/-- Found symbols as they are listed. -/
def IndexedSymbol.listing (symbols : List IndexedSymbol) : String :=
  Json.write .line (.arr (symbols.map IndexedSymbol.toJson))

/-- One line on a symbol. -/
def IndexedSymbol.shown (s : IndexedSymbol) : String :=
  s.name ++ " (" ++ s.kind ++ ") in " ++ s.file ++ " (line " ++ intText s.startLine ++ ")"

/-- The lines of a symbol are numbers of no more digits than are read; no listing has others, for they are not written
either. -/
def IndexedSymbol.Readable (s : IndexedSymbol) : Prop := ShortInteger s.startLine ∧ ShortInteger s.endLine

namespace ToolReport

theorem listsFiles_iff {tool : String} : listsFiles tool = true ↔ tool ∈ ["search_files", "find_by_name"] := by
  have names : Tool.searchFiles.name = "search_files" ∧ Tool.findByName.name = "find_by_name" := ⟨rfl, rfl⟩
  simp [listsFiles, names]

theorem takeUpTo_of_nonneg {α : Type} {count : Int} (nonneg : 0 ≤ count) (l : List α) :
    takeUpTo count l = l.take count.toNat := if_neg (Int.not_lt.mpr nonneg)

/-- What is said of a text that is cut. -/
def cutMark (length : Nat) : String := "... (truncated, total length: " ++ natText length ++ ")"

/-- The mark opens no list. -/
theorem flat_cutMark (length : Nat) : Flat (cutMark length).toList := by
  have digits : Flat (natDigits length) := fun c mem =>
    have digit : IsAsciiDigit c := natDigits_ascii length c mem
    ⟨digit.ne (by decide), digit.ne (by decide)⟩
  have words : Flat "... (truncated, total length: ".toList := .of_all (by decide)
  unfold cutMark natText
  simp only [String.toList_append, String.toList_ofList]
  exact (words.append digits).append (.of_all (by decide))

/-- The mark ends in a character that closes no list. -/
theorem exists_cutMark_eq (length : Nat) : ∃ words, (cutMark length).toList = words ++ [')'] := by
  have close : ")".toList = [')'] := by decide
  unfold cutMark
  simp only [String.toList_append, close]
  exact ⟨_, rfl⟩

theorem truncated_of_le {limit : Int} {r : String} (short : (r.length : Int) ≤ limit) : truncated limit r = r :=
  if_pos short

theorem truncated_of_lt {limit : Int} (nonneg : 0 ≤ limit) {r : String} (long : limit < r.length) :
    truncated limit r = String.ofList (r.toList.take limit.toNat) ++ cutMark r.length := by
  unfold truncated cutMark
  rw [if_neg (Int.not_le.mpr long), takeUpTo_of_nonneg nonneg]
  simp only [String.append_assoc]

/-- A text that is cut is no list, and not nested too deep unless it was so as a whole. -/
theorem read_cut {r : String} (shallow : Json.read r ≠ .error .tooDeep) (kept : Nat) :
    Json.read (String.ofList (r.toList.take kept) ++ cutMark r.length) ≠ .error .tooDeep ∧
      ∀ items, Json.read (String.ofList (r.toList.take kept) ++ cutMark r.length) ≠ .ok (.arr items) := by
  unfold Json.read
  rw [String.toList_append, String.toList_ofList]
  constructor
  · intro deep
    have whole := readChars?_tooDeep_append (flat_cutMark r.length) deep (r.toList.drop kept)
    rw [List.take_append_drop] at whole
    exact shallow whole
  · intro items
    obtain ⟨words, mark⟩ := exists_cutMark_eq r.length
    rw [mark, ← List.append_assoc]
    exact readChars?_ne_array (by decide) (by decide) items

/-- A result that is cut is shown as it is cut, whatever the tool. -/
theorem formatted_of_lt {limit : Int} (nonneg : 0 ≤ limit) {r : String} (long : limit < r.length)
    {tool : String} (shallow : (listsFiles tool || tool == Tool.searchCodebase.name) = true →
      Json.read r ≠ .error .tooDeep) (most : Int) :
    formatted tool most (truncated limit r) =
      .ok (String.ofList (r.toList.take limit.toNat) ++ cutMark r.length) := by
  rw [truncated_of_lt nonneg long, formatted]
  split
  · next lists =>
    obtain ⟨not_deep, not_list⟩ := read_cut (shallow lists) limit.toNat
    split
    · next items list => exact absurd list (not_list items)
    · next deep => exact absurd deep not_deep
    · rfl
  · rfl

/-- The result of a tool that is no such search is shown as it is. -/
theorem formatted_of_other {tool : String} (other : (listsFiles tool || tool == Tool.searchCodebase.name) = false)
    (most : Int) (r : String) : formatted tool most r = .ok r := by
  rw [formatted, other]
  rfl

/-- A listing is read back. -/
theorem read_listing {items : List Json} (fits : ∀ v ∈ items, Fits 1 v) :
    Json.read (Json.write .line (.arr items)) = .ok (.arr items) :=
  read_write straight_line.spaced (fits_arr_iff.mpr fun v mem => (fits v mem).mono (by decide))

theorem fits_namedFile (f : NamedFile) : Fits 1 f.toJson :=
  fits_obj_iff.mpr ⟨by simp [OrderedMap.keys], by simp⟩

theorem fits_indexedSymbol {s : IndexedSymbol} (readable : s.Readable) : Fits 1 s.toJson := by
  have text (t : Option String) : Fits 0 (Json.ofOption t) := by cases t <;> simp [Json.ofOption]
  refine fits_obj_iff.mpr ⟨by simp [OrderedMap.keys], ?_⟩
  simpa [text] using And.intro readable.1 readable.2

theorem fits_files (files : List NamedFile) : ∀ v ∈ files.map NamedFile.toJson, Fits 1 v :=
  List.forall_mem_map.mpr fun f _ => fits_namedFile f

theorem fits_symbols {symbols : List IndexedSymbol} (readable : ∀ s ∈ symbols, s.Readable) :
    ∀ v ∈ symbols.map IndexedSymbol.toJson, Fits 1 v :=
  List.forall_mem_map.mpr fun s own => fits_indexedSymbol (readable s own)

theorem symbolLine_toJson (s : IndexedSymbol) : symbolLine s.toJson = s.shown := rfl

theorem foundPath?_toJson (f : NamedFile) : foundPath? f.toJson = some f.path := rfl

/-- A listing of files is laid out with the paths of all of them. -/
theorem formatted_files {tool : String} (lists : listsFiles tool = true) (most : Int) {files : List NamedFile}
    (some : files ≠ []) : formatted tool most (NamedFile.listing files) =
      .ok ("Found files:\n" ++ String.intercalate "\n" (files.map (·.path))) := by
  have filled : (files.map NamedFile.toJson).isEmpty = false := by simpa using some
  have paths : (files.map NamedFile.toJson).filterMap foundPath? = files.map (·.path) := by
    have each : foundPath? ∘ NamedFile.toJson = Option.some ∘ NamedFile.path := funext foundPath?_toJson
    rw [List.filterMap_map, each, List.filterMap_eq_map]
  rw [formatted, lists, Bool.true_or, if_pos rfl, NamedFile.listing, read_listing (fits_files files)]
  dsimp only
  rw [if_pos rfl, fileList, filled, paths]
  rfl

/-- A listing of symbols is laid out with the first of them. -/
theorem formatted_symbols {most : Int} (nonneg : 0 ≤ most) {symbols : List IndexedSymbol} (some : symbols ≠ [])
    (readable : ∀ s ∈ symbols, s.Readable) :
    formatted Tool.searchCodebase.name most (IndexedSymbol.listing symbols) =
      .ok ("Found symbols:\n" ++ String.intercalate "\n" ((symbols.take most.toNat).map IndexedSymbol.shown)) := by
  have filled : (symbols.map IndexedSymbol.toJson).isEmpty = false := by simpa using some
  have lines : (takeUpTo most (symbols.map IndexedSymbol.toJson)).map symbolLine =
      (symbols.take most.toNat).map IndexedSymbol.shown := by
    have each : symbolLine ∘ IndexedSymbol.toJson = IndexedSymbol.shown := funext symbolLine_toJson
    rw [takeUpTo_of_nonneg nonneg, ← List.map_take, List.map_map, each]
  rw [formatted, IndexedSymbol.listing, read_listing (fits_symbols readable), if_pos (by decide)]
  dsimp only
  rw [if_neg (by decide), symbolList, filled, lines]
  rfl

end ToolReport
namespace Toolbox
variable {box : Toolbox} {bench bench' : Workbench} {call : ToolCall} {answer : String}

/-- The files of the workspace whose names fit a pattern, before they are listed. -/
def namedFiles (box : Toolbox) (fs : FileSystem) (pattern : String) : Except Failure (List NamedFile) := do
  let root ← box.needWorkspace Tool.findByName.name
  (do findFiles fs (← nameTest pattern) root box.skipped box.settings.maxSearchResults.toNat).mapError
    (report Tool.findByName.name SearchParameters.modeConflict root)

theorem findByName_eq_map_namedFiles (box : Toolbox) (fs : FileSystem) (pattern : String) :
    box.findByName fs pattern = (box.namedFiles fs pattern).map NamedFile.listing := by
  unfold findByName namedFiles
  cases box.needWorkspace Tool.findByName.name with
  | error e => rfl
  | ok root =>
    change (Except.mapError _ (do findFiles fs (← nameTest pattern) root box.skipped _) >>= fun files => _) =
      (Except.mapError _ (do findFiles fs (← nameTest pattern) root box.skipped _)).map _
    cases (do findFiles fs (← nameTest pattern) root box.skipped box.settings.maxSearchResults.toNat) <;> rfl

/-- The symbols of an index that answer a query, before they are listed. -/
def foundSymbols (box : Toolbox) (data : IndexData) (query : String) : List IndexedSymbol :=
  data.search box.settings.shortQueryLength (box.settings.resultLimit none) query

/-- A tool that searches for files answers with the listing of what it finds. -/
theorem exists_files_of_run {tool : Tool} {parameters : Parameters} (shape : Parameters.Of tool parameters)
    (lists : ToolReport.listsFiles tool.name = true) (ran : (exec (box.run tool parameters) bench).1 = .ok answer) :
    ∃ pattern files, parameters = .findByName pattern ∧ box.namedFiles bench.files pattern = .ok files ∧
      answer = NamedFile.listing files := by
  have of_find {pattern : String} (found : box.findByName bench.files pattern = .ok answer) :
      ∃ files, box.namedFiles bench.files pattern = .ok files ∧ answer = NamedFile.listing files := by
    rw [findByName_eq_map_namedFiles] at found
    cases named : box.namedFiles bench.files pattern with
    | error e =>
      rw [named] at found
      cases found
    | ok files =>
      rw [named] at found
      exact ⟨files, rfl, (Except.ok.inj found).symm⟩
  cases shape with
  | searchFiles pattern =>
    obtain ⟨files, named, listed⟩ := of_find ran
    exact ⟨pattern, files, rfl, named, listed⟩
  | findByName pattern =>
    obtain ⟨files, named, listed⟩ := of_find ran
    exact ⟨pattern, files, rfl, named, listed⟩
  | _ => exact absurd lists (by decide)

/-- The tool that searches for symbols answers with the listing of what it finds. -/
theorem exists_symbols_of_run {tool : Tool} {parameters : Parameters} (shape : Parameters.Of tool parameters)
    (called : tool.name = Tool.searchCodebase.name) (ran : (exec (box.run tool parameters) bench).1 = .ok answer) :
    tool = .searchCodebase ∧ ∃ query, parameters = .searchCodebase query ∧
      answer = IndexedSymbol.listing (box.foundSymbols bench.index.data query) := by
  cases shape with
  | searchCodebase query => exact ⟨rfl, query, rfl, (Except.ok.inj ran).symm⟩
  | _ => exact absurd called (by decide)

/-- What a search for files or symbols answers with is not nested too deep to be laid out. -/
theorem read_answer_ne_tooDeep {tool : Tool} {parameters : Parameters}
    (readable : tool.name = Tool.searchCodebase.name → ∀ s ∈ bench.index.data.flat, s.Readable)
    (shape : Parameters.Of tool parameters)
    (searches : (ToolReport.listsFiles tool.name || tool.name == Tool.searchCodebase.name) = true)
    (ran : (exec (box.run tool parameters) bench).1 = .ok answer) : Json.read answer ≠ .error .tooDeep := by
  have of_list {items : List Json} (fits : ∀ v ∈ items, Fits 1 v) :
      Json.read (Json.write .line (.arr items)) ≠ .error .tooDeep := by
    rw [ToolReport.read_listing fits]
    exact nofun
  rcases Bool.or_eq_true_iff.mp searches with lists | called
  · obtain ⟨-, files, -, -, rfl⟩ := exists_files_of_run shape lists ran
    exact of_list (ToolReport.fits_files files)
  · have called := eq_of_beq called
    obtain ⟨-, query, -, rfl⟩ := exists_symbols_of_run shape called ran
    exact of_list (ToolReport.fits_symbols fun s found => readable called s (IndexData.mem_flat_of_mem_search found))

/-- A call that is answered is one of a tool, and what the tool answers with. -/
theorem exists_run_of_execute (answered : exec (box.execute call) bench = (.ok answer, bench')) :
    ∃ tool parameters, Parameters.ofCall call = .ok (tool, parameters) ∧ call.name = tool.name ∧
      Parameters.Of tool parameters ∧ (exec (box.run tool parameters) bench).1 = .ok answer := by
  cases typed : Parameters.ofCall call with
  | error f =>
    rw [exec_execute_refused box bench typed] at answered
    cases answered
  | ok pair =>
    obtain ⟨tool, parameters⟩ := pair
    rw [exec_execute box bench typed] at answered
    refine ⟨tool, parameters, rfl, ?_, Parameters.of_ofCall typed, eq_ok_of_mapError (Prod.mk.inj answered).1⟩
    unfold Parameters.ofCall at typed
    split at typed
    · cases typed
    · next known =>
      have name := List.find?_some known
      split at typed
      · cases typed
        exact (eq_of_beq name).symm
      · cases typed

/-- What the model reads of an answer. A longer one than is shown is cut, and says how long it is. Any other is shown as
it is, but of files that were found the paths are shown, and of symbols as many of the first as are listed; where
symbols are searched, their lines are numbers that are read. -/
theorem answer_shown_whole_or_cut
    (readable : call.name = "search_codebase" → ∀ s ∈ bench.index.data.flat, s.Readable)
    (answered : exec (box.execute call) bench = (.ok answer, bench')) {limit most : Int} (positive : 1 ≤ limit)
    (nonneg : 0 ≤ most) :
    let shown := ToolReport.formatted call.name most (ToolReport.truncated limit answer)
    (limit < answer.length →
      shown = .ok (String.ofList (answer.toList.take limit.toNat) ++ ToolReport.cutMark answer.length)) ∧
    (answer.length ≤ limit →
      (call.name ∉ ["search_files", "find_by_name", "search_codebase"] → shown = .ok answer) ∧
      (call.name ∈ ["search_files", "find_by_name"] → ∃ tool pattern files,
        Parameters.ofCall call = .ok (tool, .findByName pattern) ∧
        box.namedFiles bench.files pattern = .ok files ∧ answer = NamedFile.listing files ∧
        (files ≠ [] → shown = .ok ("Found files:\n" ++ String.intercalate "\n" (files.map (·.path))))) ∧
      (call.name = "search_codebase" → ∃ query symbols,
        Parameters.ofCall call = .ok (.searchCodebase, .searchCodebase query) ∧
        box.foundSymbols bench.index.data query = symbols ∧ answer = IndexedSymbol.listing symbols ∧
        (symbols ≠ [] → shown = .ok ("Found symbols:\n" ++
          String.intercalate "\n" ((symbols.take most.toNat).map IndexedSymbol.shown))))) := by
  obtain ⟨tool, parameters, typed, name, shape, ran⟩ := exists_run_of_execute answered
  rw [name] at readable ⊢
  rw [typed]
  refine ⟨fun long => ToolReport.formatted_of_lt (by omega) long
    (fun searches => read_answer_ne_tooDeep readable shape searches ran) most, fun short => ?_⟩
  rw [ToolReport.truncated_of_le short]
  refine ⟨fun other => ?_, fun searches => ?_, fun searches => ?_⟩
  · refine ToolReport.formatted_of_other (Bool.eq_false_iff.mpr fun searches => other ?_) most answer
    rcases Bool.or_eq_true_iff.mp searches with lists | called
    · exact List.mem_append_left ["search_codebase"] (ToolReport.listsFiles_iff.mp lists)
    · exact List.mem_append_right ["search_files", "find_by_name"] (List.mem_singleton.mpr (eq_of_beq called))
  · have lists := ToolReport.listsFiles_iff.mpr searches
    obtain ⟨pattern, files, rfl, named, rfl⟩ := exists_files_of_run shape lists ran
    exact ⟨tool, pattern, files, rfl, named, rfl, ToolReport.formatted_files lists most⟩
  · obtain ⟨rfl, query, rfl, rfl⟩ := exists_symbols_of_run shape searches ran
    exact ⟨query, _, rfl, rfl, rfl, fun some => ToolReport.formatted_symbols nonneg some fun s found =>
      readable rfl s (IndexData.mem_flat_of_mem_search found)⟩

/-- Of three symbols that are found two are listed, or none if the answer is cut. -/
theorem first_namesakes_shown :
    let box : Toolbox := { settings := {}, outliner := standardOutliner }
    let bench : Workbench := { files := {}, index := { data := IndexData.namesakes } }
    let call : ToolCall := { name := "search_codebase", parameters := [("query", .str "save")] }
    ∃ answer, exec (box.execute call) bench = (.ok answer, bench) ∧ (∀ s ∈ bench.index.data.flat, s.Readable) ∧
      ToolReport.formatted call.name 2 (ToolReport.truncated 1000 answer) =
        .ok "Found symbols:\nsave (Class) in a.py (line 1)\nsave (Function) in b.py (line 1)" ∧
      ToolReport.formatted call.name 2 (ToolReport.truncated 15 answer) =
        .ok ("[\x7b\"name\": \"save" ++ ToolReport.cutMark answer.length) := by
  intro box bench call
  have typed : Parameters.ofCall call = .ok (.searchCodebase, .searchCodebase "save") := rfl
  have found : box.foundSymbols bench.index.data "save" = IndexData.namesakes.flat.eraseIdx 2 := by
    have text : (SymbolQuery.ofText "save").text ≠ "" := by decide +kernel
    rw [foundSymbols, IndexData.search, if_neg (by simpa using text), IndexData.ranked_namesakes]
    decide +kernel
  have readable : ∀ s ∈ bench.index.data.flat, s.Readable := by
    have small : ∀ s ∈ IndexData.namesakes.flat, s.startLine.natAbs < 10 ^ 18 ∧ s.endLine.natAbs < 10 ^ 18 := by
      decide
    exact fun s own => ⟨shortInteger_of_lt (small s own).1, shortInteger_of_lt (small s own).2⟩
  have answered : exec (box.execute call) bench =
      (.ok (IndexedSymbol.listing (box.foundSymbols bench.index.data "save")), bench) := by
    rw [exec_execute box bench typed]
    rfl
  have shown {limit : Int} (positive : 1 ≤ limit) :=
    answer_shown_whole_or_cut (fun _ => readable) answered positive (by decide : (0 : Int) ≤ 2)
  refine ⟨_, answered, readable, ?_, ?_⟩
  · have short : (IndexedSymbol.listing (box.foundSymbols bench.index.data "save")).length ≤ (1000 : Int) := by
      rw [found, IndexedSymbol.listing, Json.write, String.length_ofList]
      decide +kernel
    obtain ⟨-, -, symbols⟩ := (shown (by decide)).2 short
    obtain ⟨query, symbols, typed', found', -, laid_out⟩ := symbols rfl
    cases typed.symm.trans typed'
    obtain rfl := found.symm.trans found'
    have lines : "Found symbols:\n" ++ String.intercalate "\n"
        (((IndexData.namesakes.flat.eraseIdx 2).take (2 : Int).toNat).map IndexedSymbol.shown) =
        "Found symbols:\nsave (Class) in a.py (line 1)\nsave (Function) in b.py (line 1)" := by decide +kernel
    rw [← lines]
    exact laid_out (by decide)
  · have long : (15 : Int) < (IndexedSymbol.listing (box.foundSymbols bench.index.data "save")).length := by
      rw [found, IndexedSymbol.listing, Json.write, String.length_ofList]
      decide +kernel
    have start : (IndexedSymbol.listing (box.foundSymbols bench.index.data "save")).toList.take (15 : Int).toNat =
        "[\x7b\"name\": \"save".toList := by
      rw [found, IndexedSymbol.listing, Json.write, String.toList_ofList]
      decide +kernel
    rw [(shown (by decide)).1 long, start, String.ofList_toList]

end Toolbox
end CodeAgent
