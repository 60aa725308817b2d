import CodeAgent.Proofs.Agent.ReadBackHits
import CodeAgent.Proofs.Symbols.FileOutlines
import CodeAgent.Proofs.Symbols.Sections

/-! The lines of sections, read back by their numbers. An outline numbers the lines of running text, and a file is read
by the lines of a file. -/
namespace CodeAgent
open CodeAgent.Text CodeAgent.Action

theorem OutlineFormat.ofName?_markdown {name : String} (extension : lower (Path.extensionOf name) = "md") :
    OutlineFormat.ofName? name = some .markdown := by
  rw [ofName?, extension]
  rfl

/-- The outline of a Markdown file is the one of its text, unless the file is too large. -/
theorem fileOutline_markdown {most : Int} {fs : FileSystem} {p : Path} {content : Bytes}
    (markdown : lower (Path.extensionOf p.name) = "md") (bytes : fs.readBytes p = .ok content) :
    fileOutline most fs p = .ok (if most < content.length then [] else markdownOutline (Utf8.decode content)) := by
  rw [fileOutline, fileOutlineBy_of_readBytes (OutlineFormat.ofName?_markdown markdown) bytes]
  split <;> rfl

namespace Toolbox
variable {bench : Workbench} {path : String} {content : Bytes}

/-- Every symbol in the outline of a Markdown file stands for a heading, which is the line of its number in the running
text of the file, and to read it back shows the line of that number in the file itself. As long as the lines before it
end as those of a file do, that is the heading exactly if it ends so, too. -/
theorem markdown_symbols_read_back_iff_ended (box : Toolbox) (bench : Workbench)
    (markdown : lower (Path.extensionOf (box.pathOf path).name) = "md")
    (bytes : bench.files.readBytes (box.pathOf path) = .ok content) :
    ∃ outline, fileOutline maxOutlineBytes bench.files (box.pathOf path) = .ok outline ∧
      ∀ s ∈ OutlineSymbol.preorderOfList outline, ∃ n line ending,
        s.startLine = (n + 1 : Nat) ∧ (lineRuns (Utf8.decode content))[n]? = some (line, ending) ∧
        (∃ parts : Heading.Parts, parts.FirstOf line ∧ String.ofList parts.title = s.name) ∧
        exec (box.execute (.lineReading path s.startLine)) bench =
          (.ok (shownLine (joinedRuns (lineRuns (Utf8.decode content)))[n]?), bench) ∧
        ((∀ earlier ∈ (lineRuns (Utf8.decode content)).take n, earlier.2 ∈ fileEnds) →
          (exec (box.execute (.lineReading path s.startLine)) bench = (.ok (String.ofList line), bench) ↔
            ending ∈ fileEnds)) := by
  refine ⟨_, fileOutline_markdown markdown bytes, fun s mem => ?_⟩
  split at mem
  · cases mem
  obtain ⟨h, ⟨n, line, number, there, -, -, parts, first, -, title⟩, name, start⟩ :=
    exists_standsIn_of_mem_markdownOutline mem
  rw [lines, List.getElem?_map, Option.map_eq_some_iff] at there
  obtain ⟨⟨line, ending⟩, run, rfl⟩ := there
  have at_line : s.startLine = (n + 1 : Nat) := by rw [start, number]
  have read := exec_lineReading n bytes
  rw [← at_line] at read
  refine ⟨n, line, ending, at_line, run, ⟨parts, first, title.trans name.symm⟩, read, fun earlier => ?_⟩
  obtain ⟨own, shown, same⟩ := joinedRuns_getElem?_of_file run earlier
  rw [read, shown, ← same]
  simp [shownLine, String.ext_iff]

/-- A file system with one file. -/
def oneFile (name text : String) : FileSystem :=
  { root := .folder [(name, .file (utf8Bytes text) 0)] }

/-- Of two headings, the one whose line a line feed ends is read back, and the one whose line a form feed ends is not. -/
theorem heading_before_form_feed_not_read_back :
    let box : Toolbox := { settings := {}, workspace := some (Place.path []), outliner := standardOutliner }
    let bench : Workbench := { files := oneFile "a.md" "# One\n## Two\x0c", index := {} }
    fileOutline maxOutlineBytes bench.files (box.pathOf "a.md") =
        .ok [.mk "One" .string (some "#") 1 2 [.mk "Two" .string (some "##") 2 2 []]] ∧
      exec (box.execute (.lineReading "a.md" 1)) bench = (.ok "# One", bench) ∧
      exec (box.execute (.lineReading "a.md" 2)) bench ≠ (.ok "## Two", bench) := by
  intro box bench
  have markdown : lower (Path.extensionOf (box.pathOf "a.md").name) = "md" := by decide +kernel
  have bytes : bench.files.readBytes (box.pathOf "a.md") = .ok (utf8Bytes "# One\n## Two\x0c") :=
    eq_ok_of_toOption (by decide +kernel)
  have runs : lineRuns (Utf8.decode (utf8Bytes "# One\n## Two\x0c")) =
      [("# One".toList, ['\n']), ("## Two".toList, ['\x0c'])] := by decide +kernel
  have headings : Heading.collect false 1 (lines (Utf8.decode (utf8Bytes "# One\n## Two\x0c"))) =
      [⟨1, "One", 1⟩, ⟨2, "Two", 2⟩] := by decide +kernel
  have outlined : fileOutline maxOutlineBytes bench.files (box.pathOf "a.md") =
      .ok [.mk "One" .string (some "#") 1 2 [.mk "Two" .string (some "##") 2 2 []]] := by
    rw [fileOutline_markdown markdown bytes, if_neg (by decide +kernel), markdownOutline, headings, lines, runs]
    simp [Heading.sections, Heading.below, Heading.after]
  obtain ⟨outline, same, each⟩ := markdown_symbols_read_back_iff_ended box bench markdown bytes
  obtain rfl := Except.ok.inj (outlined.symm.trans same)
  rw [runs] at each
  refine ⟨outlined, ?_, ?_⟩
  · obtain ⟨n, line, ending, start, run, -, -, back⟩ := each _ List.mem_cons_self
    obtain rfl : n = 0 := Nat.succ.inj (Int.ofNat.inj start.symm)
    obtain ⟨rfl, rfl⟩ : "# One".toList = line ∧ ['\n'] = ending := Prod.mk.inj (Option.some.inj run)
    rw [String.ofList_toList] at back
    exact (back (by simp)).mpr (by decide)
  · obtain ⟨n, line, ending, start, run, -, -, back⟩ := each _ (List.mem_cons_of_mem _ List.mem_cons_self)
    obtain rfl : n = 1 := Nat.succ.inj (Int.ofNat.inj start.symm)
    obtain ⟨rfl, rfl⟩ : "## Two".toList = line ∧ ['\x0c'] = ending := Prod.mk.inj (Option.some.inj run)
    rw [String.ofList_toList] at back
    exact mt (back (by decide)).mp (by decide)

/-- The heading after a form feed is in the third line of the text, but the file has two, so that to read it back shows
that there is none. -/
theorem heading_after_form_feed_not_read_back :
    let box : Toolbox := { settings := {}, workspace := some (Place.path []), outliner := standardOutliner }
    let bench : Workbench := { files := oneFile "a.md" "one\x0ctwo\n# Title\n", index := {} }
    fileOutline maxOutlineBytes bench.files (box.pathOf "a.md") = .ok [.mk "Title" .string (some "#") 3 3 []] ∧
      exec (box.execute (.lineReading "a.md" 3)) bench = (.ok emptyRange, bench) := by
  intro box bench
  have markdown : lower (Path.extensionOf (box.pathOf "a.md").name) = "md" := by decide +kernel
  have bytes : bench.files.readBytes (box.pathOf "a.md") = .ok (utf8Bytes "one\x0ctwo\n# Title\n") :=
    eq_ok_of_toOption (by decide +kernel)
  have headings : Heading.collect false 1 (lines (Utf8.decode (utf8Bytes "one\x0ctwo\n# Title\n"))) =
      [⟨1, "Title", 3⟩] := by decide +kernel
  have length : (lines (Utf8.decode (utf8Bytes "one\x0ctwo\n# Title\n"))).length = 3 := by decide +kernel
  constructor
  · rw [fileOutline_markdown markdown bytes, if_neg (by decide +kernel), markdownOutline, headings, length]
    simp [Heading.sections, Heading.below, Heading.after]
  · have none : shownLine (joinedRuns (lineRuns (Utf8.decode (utf8Bytes "one\x0ctwo\n# Title\n"))))[2]? =
        emptyRange := by decide +kernel
    rw [← none]
    exact exec_lineReading 2 bytes

end Toolbox
end CodeAgent
