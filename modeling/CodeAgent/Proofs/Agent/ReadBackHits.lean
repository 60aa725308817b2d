import CodeAgent.Symbols.FileOutline
import CodeAgent.Proofs.Workspace.Lookup
import CodeAgent.Proofs.Agent.SearchHits

/-! Lines that a search found, read back by their numbers. A search numbers the lines of running text, and a file is
read by the lines of a file. -/
namespace CodeAgent
open CodeAgent.Text CodeAgent.Action

/-- A file system as there can be: its names are names, and every path to what is there can be used. -/
structure FileSystem.Proper (fs : FileSystem) : Prop where
  named : fs.root.WellNamed
  usable : ∀ place, fs.root.at? place ≠ none → (Place.path place).Usable

/-- The call that reads one line of the file at a path. -/
def ToolCall.lineReading (path : String) (number : Int) : ToolCall :=
  { name := Tool.readFile.name
    parameters := [("path", .str path), ("start_line", .int number), ("end_line", .int number)] }

/-- The call that reads the line of a hit. -/
def LineHit.reading (h : LineHit) : ToolCall :=
  { name := Tool.readFile.name
    parameters := [("path", .str h.path), ("start_line", .int h.number), ("end_line", .int h.number)] }

namespace Toolbox
variable {box : Toolbox} {bench : Workbench} {h : LineHit} {place : Place}

theorem ofCall_lineReading (path : String) (number : Int) : Parameters.ofCall (.lineReading path number) =
    .ok (.readFile, .readFile path (some number) (some number)) := by
  rfl

/-- To read one line of a file shows the line of that number when only the ends of lines in files count. -/
theorem exec_lineReading {path : String} {content : Bytes} (n : Nat)
    (bytes : bench.files.readBytes (box.pathOf path) = .ok content) :
    exec (box.execute (.lineReading path (n + 1 : Nat))) bench =
      (.ok (shownLine (joinedRuns (lineRuns (Utf8.decode content)))[n]?), bench) := by
  have read : box.readFile bench.files path (some (n + 1 : Nat)) (some (n + 1 : Nat)) =
      .ok (shownLine (joinedRuns (lineRuns (Utf8.decode content)))[n]?) := by
    rw [readFile, FileSystem.readText, bytes]
    change Except.ok (lineRange _ _ _) = _
    rw [lineRange_single, String.toList_ofList, fileLines_unifyLineEnds]
  rw [exec_execute box bench (ofCall_lineReading path _)]
  change ((box.readFile bench.files path (some (n + 1 : Nat)) (some (n + 1 : Nat))).mapError _, bench) = _
  rw [read]
  rfl

/-- The text of the path of a place stands for the place, whatever workspace is open. -/
theorem pathOf_text (box : Toolbox) (proper : ∀ name ∈ place, IsName name) :
    box.pathOf place.text = Place.path place := by
  unfold pathOf
  rw [Path.ofText_text proper]
  cases box.workspace <;> rfl

theorem readBytes_path {fs : FileSystem} {content : Bytes} {modified : Int} (usable : (Place.path place).Usable)
    (file : fs.root.at? place = some (.file content modified)) : fs.readBytes place.path = .ok content :=
  FileSystem.readBytes_of_look (FileSystem.look_path usable file)

/-- To read the line of a hit back shows the line of its number in the file. -/
theorem exec_reading {content : Bytes} {modified : Int} {n : Nat} (proper : bench.files.Proper)
    (file : bench.files.root.at? place = some (.file content modified)) (path : h.path = place.text)
    (number : h.number = n + 1) :
    exec (box.execute h.reading) bench =
      (.ok (shownLine (joinedRuns (lineRuns (Utf8.decode content)))[n]?), bench) := by
  have there : bench.files.root.at? place ≠ none := by rw [file]; exact nofun
  have bytes : bench.files.readBytes (box.pathOf h.path) = .ok content := by
    rw [path, pathOf_text box (proper.named.isName_of_at? file)]
    exact readBytes_path (proper.usable place there) file
  have reading : h.reading = .lineReading h.path (n + 1 : Nat) := by
    rw [← number]
    rfl
  rw [reading, exec_lineReading n bytes]

/-- Every line that a search lists is the line of its number in the running text of its file, and to read it back
shows the line of that number in the file itself. As long as the lines before it end as those of a file do, that is the
line found exactly if it ends so, too. -/
theorem search_hits_read_back_iff_ended (box : Toolbox) (bench : Workbench) (proper : bench.files.Proper)
    {call : ToolCall} {tool : Tool} {request : SearchParameters} {hits : List LineHit}
    (typed : Parameters.ofCall call = .ok (tool, .search request)) (found : box.hits bench.files request = .ok hits) :
    exec (box.execute call) bench = (.ok (LineHit.listing hits), bench) ∧
      ∀ h ∈ hits, ∃ content n ending,
        bench.files.readBytes (Path.ofText h.path) = .ok content ∧
        h.number = n + 1 ∧ (lineRuns (Utf8.decode content))[n]? = some (h.line.toList, ending) ∧
        exec (box.execute h.reading) bench =
          (.ok (shownLine (joinedRuns (lineRuns (Utf8.decode content)))[n]?), bench) ∧
        ((∀ earlier ∈ (lineRuns (Utf8.decode content)).take n, earlier.2 ∈ fileEnds) →
          (exec (box.execute h.reading) bench = (.ok h.line, bench) ↔ ending ∈ fileEnds)) := by
  obtain ⟨e, -, searched⟩ := searchLines_of_hits found
  refine ⟨by rw [exec_search box bench typed, found]; rfl, fun h mem => ?_⟩
  obtain ⟨place, content, modified, n, ending, file, path, number, run⟩ := exists_isIn_of_searchLines searched mem
  have read : exec (box.execute h.reading) bench =
      (.ok (shownLine (joinedRuns (lineRuns (Utf8.decode content)))[n]?), bench) :=
    exec_reading proper file path number
  have bytes : bench.files.readBytes (Path.ofText h.path) = .ok content := by
    have there : bench.files.root.at? place ≠ none := by rw [file]; exact nofun
    rw [path, Path.ofText_text (proper.named.isName_of_at? file), FileSystem.readBytes, FileSystem.existing,
      FileSystem.look_path (proper.usable place there) file]
    rfl
  refine ⟨content, n, ending, bytes, number, run, read, fun earlier => ?_⟩
  obtain ⟨own, line, same⟩ := joinedRuns_getElem?_of_file run earlier
  rw [read, line, ← same]
  simp [shownLine, String.ext_iff]

/-- A file system with one file, whose second line a form feed ends. -/
def formFeedFiles : FileSystem :=
  { root := .folder [("a.txt", .file (utf8Bytes "one\ntwo\x0cthree\n") 0)] }

theorem proper_formFeedFiles : formFeedFiles.Proper where
  named := .of_entries (by decide) (by decide) (.file _ _)
  usable place there := by
    cases place with
    | nil => exact ⟨⟨by decide, by decide +kernel⟩, by decide, by decide, by decide⟩
    | cons name names =>
      rw [Node.at?, formFeedFiles, Node.member?_cons] at there
      split at there
      · next same =>
        cases names with
        | nil =>
          subst same
          exact ⟨⟨by decide +kernel, by decide +kernel⟩, by decide, by decide, by decide⟩
        | cons => exact absurd rfl there
      · exact absurd rfl there

/-- Of two lines that a search finds, the one that a line feed ends is read back, and the one that a form feed ends is
not. -/
theorem line_before_form_feed_not_read_back :
    let box : Toolbox := { settings := {}, workspace := some (Place.path []), outliner := standardOutliner }
    let bench : Workbench := { files := formFeedFiles, index := {} }
    let first : LineHit := ⟨"/a.txt", 1, "one"⟩
    let second : LineHit := ⟨"/a.txt", 2, "two"⟩
    exec (box.execute first.reading) bench = (.ok "one", bench) ∧
      exec (box.execute second.reading) bench ≠ (.ok "two", bench) := by
  intro box bench first second
  let call : ToolCall := { name := "grep", parameters := [("query", .str "o")] }
  have typed : Parameters.ofCall call = .ok (.grep, .search { query := "o" }) := by rfl
  have found : box.hits bench.files { query := "o" } = .ok [first, second] := eq_ok_of_toOption (by decide +kernel)
  obtain ⟨-, each⟩ := search_hits_read_back_iff_ended box bench proper_formFeedFiles typed found
  have bytes : bench.files.readBytes (Path.ofText "/a.txt") = .ok (utf8Bytes "one\ntwo\x0cthree\n") :=
    eq_ok_of_toOption (by decide +kernel)
  have runs : lineRuns (Utf8.decode (utf8Bytes "one\ntwo\x0cthree\n")) =
      [("one".toList, ['\n']), ("two".toList, ['\x0c']), ("three".toList, ['\n'])] := by decide +kernel
  constructor
  · obtain ⟨content, n, ending, file, number, run, -, back⟩ := each first (by simp)
    obtain rfl : n = 0 := Nat.succ.inj number.symm
    obtain rfl := Except.ok.inj (bytes.symm.trans file)
    rw [runs] at run back
    obtain rfl : ['\n'] = ending := (Prod.mk.inj (Option.some.inj run)).2
    exact (back (by simp)).mpr (by decide)
  · obtain ⟨content, n, ending, file, number, run, -, back⟩ := each second (by simp)
    obtain rfl : n = 1 := Nat.succ.inj number.symm
    obtain rfl := Except.ok.inj (bytes.symm.trans file)
    rw [runs] at run back
    obtain rfl : ['\x0c'] = ending := (Prod.mk.inj (Option.some.inj run)).2
    exact mt (back (by decide)).mp (by decide)

/-- What follows the form feed is the third line of the text, but the file has two, so that to read it back shows that
there is none. -/
theorem line_after_form_feed_not_read_back :
    let box : Toolbox := { settings := {}, workspace := some (Place.path []), outliner := standardOutliner }
    let bench : Workbench := { files := formFeedFiles, index := {} }
    let hit : LineHit := ⟨"/a.txt", 3, "three"⟩
    exec (box.execute { name := "grep", parameters := [("query", .str "three")] }) bench =
        (.ok (LineHit.listing [hit]), bench) ∧
      exec (box.execute hit.reading) bench = (.ok emptyRange, bench) := by
  intro box bench hit
  have typed : Parameters.ofCall { name := "grep", parameters := [("query", .str "three")] } =
      .ok (.grep, .search { query := "three" }) := by rfl
  have found : box.hits bench.files { query := "three" } = .ok [hit] :=
    eq_ok_of_toOption (by decide +kernel)
  constructor
  · rw [exec_search box bench typed, found]
    rfl
  · have file : bench.files.root.at? ["a.txt"] = some (.file (utf8Bytes "one\ntwo\x0cthree\n") 0) := by rfl
    rw [exec_reading (n := 2) proper_formFeedFiles file (by decide +kernel) rfl]
    have none : shownLine (joinedRuns (lineRuns (Utf8.decode (utf8Bytes "one\ntwo\x0cthree\n"))))[2]? = emptyRange := by
      decide +kernel
    rw [none]

end Toolbox
end CodeAgent
