import CodeAgent.Proofs.Agent.ToolChanges
import CodeAgent.Proofs.Workspace.LiteralSearch

/-! The lines that a search answers with, before they are listed. -/
namespace CodeAgent
open CodeAgent.Text CodeAgent.Action

/-- Found lines as they are listed. -/
def LineHit.listing (hits : List LineHit) : String :=
  Json.write .line (.arr (hits.map LineHit.toJson))

/-- A found line is the one of its number in the file at a place. -/
def LineHit.IsIn (h : LineHit) (root : Node) (place : Place) : Prop :=
  ∃ content modified n ending, root.at? place = some (.file content modified) ∧ h.path = place.text ∧
    h.number = n + 1 ∧ (lineRuns (Utf8.decode content))[n]? = some (h.line.toList, ending)

theorem mem_hitsFrom {e : Pattern.Expr} {path : String} {number : Nat} {ls : List (List Char)} {h : LineHit}
    (mem : h ∈ hitsFrom e path number ls) :
    h.path = path ∧ ∃ n, h.number = number + n ∧ ls[n]? = some h.line.toList := by
  obtain ⟨n, line, there, -, rfl⟩ := mem_hitsFrom_iff.mp mem
  exact ⟨rfl, n, rfl, by rwa [String.toList_ofList]⟩

theorem mem_fileHits {e : Pattern.Expr} {root : Node} {place : Place} {h : LineHit}
    (mem : h ∈ fileHits e root place) : h.IsIn root place := by
  unfold fileHits at mem
  split at mem
  · next content modified file =>
    split at mem
    · next ls text =>
      unfold textLines? at text
      split at text
      · cases text
      cases text
      obtain ⟨path, n, number, there⟩ := mem_hitsFrom mem
      rw [lines, List.getElem?_map, Option.map_eq_some_iff] at there
      obtain ⟨⟨line, ending⟩, there, rfl⟩ := there
      exact ⟨content, modified, n, ending, file, path, by omega, there⟩
    · cases mem
  · cases mem

/-- What a search finds stands in files of the tree. -/
theorem exists_isIn_of_searchLines {fs : FileSystem} {p : SearchParameters} {e : Pattern.Expr} {target : Path}
    {skipped : List String} {most : Nat} {hits : List LineHit}
    (found : searchLines fs p e target skipped most = .ok hits) {h : LineHit} (mem : h ∈ hits) :
    ∃ place, h.IsIn fs.root place := by
  obtain ⟨node?, -, found⟩ := exists_of_bind_eq_ok found
  split at found
  · obtain ⟨root, -, found⟩ := exists_of_bind_eq_ok found
    obtain ⟨start, -, found⟩ := exists_of_bind_eq_ok found
    obtain ⟨places, -, found⟩ := exists_of_bind_eq_ok found
    cases found
    obtain ⟨place, -, mem⟩ := List.mem_flatMap.mp (List.mem_of_mem_take mem)
    exact ⟨place, mem_fileHits mem⟩
  · cases found

namespace Toolbox

/-- The lines that a search finds. -/
def hits (box : Toolbox) (fs : FileSystem) (request : SearchParameters) : Except Failure (List LineHit) :=
  let target := box.pathOf request.path
  (do searchLines fs request (← request.matcher) target box.skipped box.settings.maxSearchResults.toNat).mapError
    (report Tool.search.name SearchParameters.modeConflict target)

theorem search_eq_map_hits (box : Toolbox) (fs : FileSystem) (request : SearchParameters) :
    box.search fs request = (box.hits fs request).map LineHit.listing := by
  unfold search
  change (box.hits fs request >>= fun hits => .ok (LineHit.listing hits)) = _
  cases box.hits fs request <;> rfl

theorem searchLines_of_hits {box : Toolbox} {fs : FileSystem} {request : SearchParameters} {hits : List LineHit}
    (found : box.hits fs request = .ok hits) :
    ∃ e, request.matcher = .ok e ∧ searchLines fs request e (box.pathOf request.path) box.skipped
      box.settings.maxSearchResults.toNat = .ok hits :=
  exists_of_bind_eq_ok (eq_ok_of_mapError found)

/-- A call that searches answers with the listing of what it finds, and changes nothing. -/
theorem exec_search (box : Toolbox) (bench : Workbench) {call : ToolCall} {tool : Tool} {request : SearchParameters}
    (typed : Parameters.ofCall call = .ok (tool, .search request)) :
    exec (box.execute call) bench =
      (((box.hits bench.files request).map LineHit.listing).mapError (ascribe call.name), bench) := by
  rw [exec_execute box bench typed, ← search_eq_map_hits]
  rfl

end Toolbox
end CodeAgent
