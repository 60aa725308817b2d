import CodeAgent.Symbols.FileOutline
import CodeAgent.Proofs.Agent.ToolChanges
import CodeAgent.Proofs.Text.LineRanges
import CodeAgent.Proofs.Text.Utf8
import CodeAgent.Proofs.Workspace.Lookup

/-! A file that was written, read back: as a whole and in ranges of its lines. -/
namespace CodeAgent
open CodeAgent.Text CodeAgent.Action

namespace Toolbox
variable {box : Toolbox} {bench after : Workbench} {path content answer : String}

/-- A call that wrote a file left its content under its path. -/
theorem readBytes_of_written {call : ToolCall} (asked : Parameters.ofCall call = .ok (.writeFile, .writeFile path content))
    (done : exec (box.execute call) bench = (.ok answer, after)) :
    after.files.readBytes (box.pathOf path) = .ok (utf8Bytes content) := by
  rw [exec_execute box bench asked] at done
  obtain ⟨answered, left⟩ := Prod.mk.inj done
  replace answered := eq_ok_of_mapError answered
  change (exec (box.writeFile path content) bench).1 = _ at answered
  change (exec (box.writeFile path content) bench).2 = _ at left
  rw [writeFile, exec_bind, ToolAction.exec_onFiles] at answered left
  rcases run : exec (FileAction.writeFile (box.pathOf path) (utf8Bytes content)) bench.files with ⟨_ | _, files⟩
  all_goals rw [run] at answered left
  · cases answered
  · obtain rfl := left
    obtain ⟨place, modified, found⟩ := FileAction.look_of_writeFile run
    exact FileSystem.readBytes_of_look found

/-- To read a range of a file shows the lines whose numbers are in it. -/
theorem exec_rangeReading {call : ToolCall} {first last : Option Int} {bytes : Bytes}
    (asked : Parameters.ofCall call = .ok (.readFile, .readFile path first last))
    (there : bench.files.readBytes (box.pathOf path) = .ok bytes) :
    exec (box.execute call) bench =
      (.ok (shownLines (linesBetween first last (fedLines (unifyLineEnds (Utf8.decode bytes))))), bench) := by
  have read : box.readFile bench.files path first last =
      .ok (shownLines (linesBetween first last (fedLines (unifyLineEnds (Utf8.decode bytes))))) := by
    rw [readFile, FileSystem.readText, there]
    change Except.ok (lineRange _ _ _) = _
    rw [lineRange_eq_shownLines, String.toList_ofList, fileLines_of_no_return (return_notMem_unifyLineEnds _)]
  rw [exec_execute box bench asked]
  change ((box.readFile bench.files path first last).mapError _, bench) = _
  rw [read]
  rfl

/-- After a call wrote a file, to read all of it shows its content, with every line end as a line feed and without the
last one, or that there is none. Two ranges that follow each other show the same, and each range shows the lines whose
numbers are in it. -/
theorem written_file_read_back (box : Toolbox) (bench after : Workbench) {call : ToolCall} {path content answer : String}
    (asked : Parameters.ofCall call = .ok (.writeFile, .writeFile path content))
    (done : exec (box.execute call) bench = (.ok answer, after)) :
    let text := unifyLineEnds content.toList
    let ls := fedLines text
    ∃ reading : Option Int → Option Int → String,
      (∀ read first last, Parameters.ofCall read = .ok (.readFile, .readFile path first last) →
        exec (box.execute read) after = (.ok (reading first last), after)) ∧
      reading none none = (if content = "" then emptyRange else String.ofList (dropLastFeed text)) ∧
      (∀ k : Nat, 1 ≤ k → k < ls.length →
        reading (some 1) (some k) ++ "\n" ++ reading (some (k + 1)) none = reading none none) ∧
      ∀ first last, reading first last =
        shownLines (((ls.zipIdx 1).filter fun l => InRange first last ls.length l.2).map (·.1)) := by
  intro text ls
  have all : linesBetween none none ls = ls := by simp [linesBetween]
  have empty : text = [] ↔ content = "" := unifyLineEnds_eq_nil_iff.trans String.toList_eq_nil_iff
  refine ⟨fun first last => shownLines (linesBetween first last ls), fun read first last reads => ?_, ?_,
    fun k low high => ?_, fun first last => ?_⟩
  · have there := readBytes_of_written asked done
    rw [exec_rangeReading reads there]
    unfold ls text utf8Bytes
    rw [Utf8.decode_encode]
  · dsimp only
    rw [all, shownLines_fedLines]
    exact if_congr empty rfl rfl
  · dsimp only
    rw [all]
    exact shownLines_take_drop low high
  · exact congrArg shownLines (linesBetween_eq_filter first last ls)

/-- The call that writes a file. -/
def writingCall (path content : String) : ToolCall :=
  { name := Tool.writeFile.name, parameters := [("path", .str path), ("content", .str content)] }

/-- The call that reads a file between two lines. -/
def readingCall (path : String) (first last : Int) : ToolCall :=
  { name := Tool.readFile.name
    parameters := [("path", .str path), ("start_line", .int first), ("end_line", .int last)] }

/-- A file in a new folder, with all three ends of lines, has three lines; the lines from the second on are read back, also
where the range goes past the end, and before the first line there are none. -/
theorem written_file_read_back_in_ranges :
    let box : Toolbox := { settings := {}, workspace := some (Place.path ["w"]), outliner := standardOutliner }
    let bench : Workbench := { files := { root := .folder [("w", .folder [])] }, index := {} }
    let content := "one\r\ntwo\rthree\n"
    let after := (exec (box.execute (writingCall "new/a.txt" content)) bench).2
    (exec (box.execute (writingCall "new/a.txt" content)) bench).1.isOk ∧
      exec (box.execute (readingCall "new/a.txt" 2 9)) after = (.ok "two\nthree", after) ∧
      exec (box.execute (readingCall "new/a.txt" (-4) 0)) after = (.ok emptyRange, after) := by
  intro box bench content after
  have done : (exec (box.execute (writingCall "new/a.txt" content)) bench).1 = .ok "File written successfully" :=
    eq_ok_of_toOption (by decide +kernel)
  have wrote : exec (box.execute (writingCall "new/a.txt" content)) bench = (.ok "File written successfully", after) :=
    Prod.ext done rfl
  obtain ⟨reading, reads, -, -, ranges⟩ := written_file_read_back box bench after rfl wrote
  refine ⟨by rw [done]; rfl, ?_, ?_⟩
  · rw [reads _ (some 2) (some 9) rfl, ranges]
    exact congrArg (fun s => (Except.ok s, after)) (by decide +kernel)
  · rw [reads _ (some (-4)) (some 0) rfl, ranges]
    exact congrArg (fun s => (Except.ok s, after)) (by decide +kernel)

end Toolbox
end CodeAgent
