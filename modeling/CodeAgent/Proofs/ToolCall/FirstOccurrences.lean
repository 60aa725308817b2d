import Mathlib.Data.Prod.Lex
import CodeAgent.Proofs.FirstOfEach
import CodeAgent.ToolCall.Extractor

/-! The calls of a text are the first occurrences among the candidates: one for each identity, in order. -/
namespace CodeAgent

namespace Candidate

/-- The order of a candidate with its position among those found: by offset, then by the rank of the
extractor, and then the earlier found one goes first. -/
def order (x : Candidate × Nat) : ℕ ×ₗ ℕ ×ₗ ℕ := toLex (x.1.offset, toLex (x.1.rank, x.2))

theorem order_le_iff {x y : Candidate × Nat} : order x ≤ order y ↔
    x.1.offset < y.1.offset ∨ x.1.offset = y.1.offset ∧
      (x.1.rank < y.1.rank ∨ x.1.rank = y.1.rank ∧ x.2 ≤ y.2) := by
  simp [order, Prod.Lex.toLex_le_toLex]

theorem before_iff {a b : Candidate} :
    a.before b = true ↔ a.offset < b.offset ∨ a.offset = b.offset ∧ a.rank ≤ b.rank := by
  simp [before]

/-- Sorting by offset and rank keeps the order of finding. -/
theorem zipIdxLE_before_iff {x y : Candidate × Nat} :
    List.zipIdxLE before x y = true ↔ order x ≤ order y := by
  rw [order_le_iff, List.zipIdxLE]
  by_cases first : x.1.before y.1 = true
  · rw [if_pos first]
    by_cases second : y.1.before x.1 = true
    · rw [if_pos second, decide_eq_true_iff]
      rw [before_iff] at first second
      omega
    · rw [if_neg second, eq_self_iff_true, true_iff]
      rw [before_iff] at first second
      omega
  · rw [if_neg first, Bool.false_eq_true, false_iff]
    rw [before_iff] at first
    omega

/-- The candidates in order, each with its position among those found. -/
def ranked (found : List Candidate) : List (Candidate × Nat) :=
  found.zipIdx.mergeSort (List.zipIdxLE before)

theorem map_ranked (found : List Candidate) :
    (ranked found).map (·.1) = found.mergeSort before :=
  List.mergeSort_zipIdx

theorem mem_ranked {found : List Candidate} {x : Candidate × Nat} :
    x ∈ ranked found ↔ x ∈ found.zipIdx :=
  List.mem_mergeSort

theorem ranked_pairwise (found : List Candidate) :
    (ranked found).Pairwise fun x y => order x ≤ order y := by
  have sorted : (ranked found).Pairwise fun x y => List.zipIdxLE before x y = true := by
    refine List.pairwise_mergeSort ?_ ?_ _
    · intro x y z first second
      rw [zipIdxLE_before_iff] at first second ⊢
      exact first.trans second
    · intro x y
      rw [Bool.or_eq_true, zipIdxLE_before_iff, zipIdxLE_before_iff]
      exact le_total _ _
  exact sorted.imp fun h => zipIdxLE_before_iff.mp h

/-- Candidates, each with its position, are the first allowed ones of each identity among those found. -/
structure FirstOccurrences (found : List Candidate) (chosen : List (Candidate × Nat)) : Prop where
  sound : ∀ x ∈ chosen, x ∈ found.zipIdx ∧ Tool.isAllowed x.1.call.name = true
  nodup : (chosen.map (·.1.call.dedupKey)).Nodup
  complete : ∀ c ∈ found, Tool.isAllowed c.call.name = true →
    ∃ x ∈ chosen, x.1.call.dedupKey = c.call.dedupKey
  least : ∀ x ∈ chosen, ∀ y ∈ found.zipIdx, y.1.call.dedupKey = x.1.call.dedupKey → order x ≤ order y
  ordered : chosen.Pairwise fun x y => order x < order y

private theorem distinct_map (seen : List (String × String)) (candidates : List (Candidate × Nat)) :
    distinct seen (candidates.map (·.1)) = (firstOfEach (·.1.call.dedupKey) seen
      (candidates.filter fun x => Tool.isAllowed x.1.call.name)).map (·.1.call) := by
  induction candidates generalizing seen with
  | nil => rfl
  | cons c candidates ih =>
    rw [List.map_cons, distinct]
    by_cases allowed : Tool.isAllowed c.1.call.name = true
    · rw [List.filter_cons, if_pos allowed, firstOfEach, allowed, Bool.not_true, Bool.false_or]
      by_cases old : c.1.call.dedupKey ∈ seen
      · rw [if_pos (List.contains_iff_mem.mpr old), if_pos old, ih]
      · rw [if_neg (mt List.contains_iff_mem.mp old), if_neg old, ih, List.map_cons]
    · rw [List.filter_cons, if_neg allowed, if_pos (by simp [allowed]), ih]

/-- Going through candidates in order keeps the first allowed one of each identity not yet seen. -/
private theorem exists_distinct (seen : List (String × String)) {candidates : List (Candidate × Nat)}
    (sorted : candidates.Pairwise fun x y => order x ≤ order y) :
    ∃ chosen : List (Candidate × Nat),
      distinct seen (candidates.map (·.1)) = chosen.map (·.1.call) ∧ chosen.Sublist candidates ∧
      (∀ x ∈ chosen, Tool.isAllowed x.1.call.name = true ∧ x.1.call.dedupKey ∉ seen) ∧
      (chosen.map (·.1.call.dedupKey)).Nodup ∧
      ∀ y ∈ candidates, Tool.isAllowed y.1.call.name = true → y.1.call.dedupKey ∉ seen →
        ∃ x ∈ chosen, x.1.call.dedupKey = y.1.call.dedupKey ∧ order x ≤ order y := by
  have kept : (candidates.filter fun x => Tool.isAllowed x.1.call.name).Sublist candidates := List.filter_sublist
  refine ⟨_, distinct_map seen candidates, (firstOfEach_sublist _ _).trans kept, fun x mem => ⟨?_, ?_⟩,
    nodup_firstOfEach _ _, fun y mem allowed fresh => ?_⟩
  · exact (List.mem_filter.mp ((firstOfEach_sublist _ _).subset mem)).2
  · exact key_notMem_of_mem_firstOfEach (fun z : Candidate × Nat => z.1.call.dedupKey) mem
  · obtain ⟨x, own, same, first⟩ :=
      exists_mem_firstOfEach (fun z : Candidate × Nat => z.1.call.dedupKey) (sorted.sublist kept)
        (List.mem_filter.mpr ⟨mem, allowed⟩) fresh
    refine ⟨x, own, same, ?_⟩
    rcases first with rfl | le
    · exact le_rfl
    · exact le

/-- Positions tell candidates apart. -/
private theorem eq_of_order_eq {found : List Candidate} {x y : Candidate × Nat}
    (hx : x ∈ found.zipIdx) (hy : y ∈ found.zipIdx) (same : order x = order y) : x = y := by
  have position : x.2 = y.2 := by
    have first := order_le_iff.mp same.le
    have second := order_le_iff.mp same.ge
    omega
  have left := List.mk_mem_zipIdx_iff_getElem?.mp hx
  have right := List.mk_mem_zipIdx_iff_getElem?.mp hy
  rw [position, right] at left
  exact Prod.ext (Option.some.inj left).symm position

end Candidate

namespace Extractor
open Candidate

/-- Of the candidates with an allowed name, the calls of a text keep exactly the first of each identity,
in order. -/
theorem calls_are_first_occurrences (extractors : List Extractor) (s : String) :
    ∃ chosen, Extractor.calls extractors s = chosen.map (·.1.call) ∧
      FirstOccurrences (found extractors s.toList) chosen := by
  obtain ⟨chosen, made, sub, allowed, nodup, complete⟩ :=
    exists_distinct [] (ranked_pairwise (found extractors s.toList))
  have sound : ∀ x ∈ chosen, x ∈ (found extractors s.toList).zipIdx := fun x hx =>
    mem_ranked.mp (sub.subset hx)
  refine ⟨chosen, by rw [← made, map_ranked]; rfl, {
    sound := fun x hx => ⟨sound x hx, (allowed x hx).1⟩
    nodup
    complete := fun c hc ok => ?_
    least := fun x hx y hy key => ?_
    ordered := ?_ }⟩
  · obtain ⟨i, hi⟩ := List.mem_iff_getElem?.mp hc
    obtain ⟨x, hx, key, -⟩ := complete (c, i)
      (mem_ranked.mpr (List.mk_mem_zipIdx_iff_getElem?.mpr hi)) ok (by simp)
    exact ⟨x, hx, key⟩
  · have name : y.1.call.name = x.1.call.name := congrArg Prod.fst key
    obtain ⟨z, hz, same, le⟩ := complete y (mem_ranked.mpr hy) (name ▸ (allowed x hx).1) (by simp)
    rwa [List.inj_on_of_nodup_map nodup hz hx (same.trans key)] at le
  · have sorted := (ranked_pairwise (found extractors s.toList)).sublist sub
    have apart : chosen.Pairwise (· ≠ ·) := (List.Nodup.of_map _ nodup)
    refine (sorted.and apart).imp_of_mem fun hx hy both => ?_
    exact lt_of_le_of_ne both.1 fun same => both.2 (eq_of_order_eq (sound _ hx) (sound _ hy) same)

end Extractor
end CodeAgent
