import CodeAgent.Proofs.Json.Limits
import CodeAgent.Proofs.Symbols.Snapshot

/-! Snapshots that are decoded. An index that was assembled comes back from its snapshot just if it is within the
limits of what is stored; and whatever bytes are decoded, the index is in good order. -/
namespace CodeAgent
open CodeAgent.Json CodeAgent.Checked

@[simp]
theorem fits_ofOption (depth : Nat) (s : Option String) : Fits depth (ofOption s) := by
  cases s <;> constructor

namespace Fingerprint

/-- The numbers are short enough to be read. -/
structure Short (f : Fingerprint) : Prop where
  modified : ShortInteger f.modified
  size : ShortInteger f.size

theorem fits_toJson_iff {depth : Nat} {f : Fingerprint} : Fits (depth + 1) f.toJson ↔ f.Short := by
  have distinct : (OrderedMap.keys [("last_modified", Json.int f.modified), ("size", .int f.size)]).Nodup :=
    (by decide : ["last_modified", "size"].Nodup)
  rw [toJson, fits_obj_iff]
  constructor
  · rintro ⟨-, all⟩
    exact ⟨fits_int_iff.mp (all _ List.mem_cons_self), fits_int_iff.mp (all ("size", _) (by simp))⟩
  · rintro ⟨modified, size⟩
    exact ⟨distinct, by simp [modified, size]⟩

end Fingerprint

namespace IndexedSymbol

/-- The numbers of the lines are short enough to be read. -/
structure Short (s : IndexedSymbol) : Prop where
  first : ShortInteger s.startLine
  last : ShortInteger s.endLine

theorem fits_toJson_iff {depth : Nat} {s : IndexedSymbol} : Fits (depth + 1) s.toJson ↔ s.Short := by
  rw [toJson, fits_obj_iff]
  constructor
  · rintro ⟨-, all⟩
    exact ⟨fits_int_iff.mp (all ("start_line", _) (by simp)), fits_int_iff.mp (all ("end_line", _) (by simp))⟩
  · rintro ⟨first, last⟩
    refine ⟨(by decide : ["name", "parent_name", "kind", "detail", "file_path", "start_line", "end_line"].Nodup), ?_⟩
    simp [first, last]

end IndexedSymbol

namespace OutlineSymbol

/-- The numbers of the lines are short enough to be read, and so are those of the symbols inside. -/
inductive Short : OutlineSymbol → Prop
  | mk {name : String} {kind : SymbolKind} {detail : Option String} {startLine endLine : Int}
    {children : List OutlineSymbol} (first : ShortInteger startLine) (last : ShortInteger endLine)
    (inside : ∀ c ∈ children, Short c) : Short (.mk name kind detail startLine endLine children)

/-- A symbol takes two levels, one for itself and one for the list of the symbols inside. -/
theorem Short.fits_toJson {s : OutlineSymbol} (short : s.Short) {levels : Nat} (enough : 2 * s.depth ≤ levels) :
    Fits levels s.toJson := by
  induction short generalizing levels with
  | @mk name kind detail startLine endLine children first last _ ih =>
    rw [depth] at enough
    obtain ⟨levels, rfl⟩ : ∃ n, levels = n + 1 + 1 := ⟨levels - 2, by omega⟩
    have inside : Fits (levels + 1) (.arr (listToJson children)) := by
      rw [listToJson_eq_map, fits_arr_iff, List.forall_mem_map]
      intro c hc
      have smaller := depth_le_depthOfList hc
      exact ih c hc (by omega)
    rw [toJson, fits_obj_iff]
    refine ⟨(by decide : ["name", "kind", "detail", "start_line", "end_line", "children"].Nodup), ?_⟩
    simp [first, last, inside]

theorem short_of_fits {levels : Nat} {s : OutlineSymbol} (fits : Fits levels s.toJson) : s.Short := by
  induction levels using Nat.strong_induction_on generalizing s with
  | _ levels ih =>
    obtain ⟨name, kind, detail, startLine, endLine, children⟩ := s
    rw [toJson] at fits
    cases levels with
    | zero => cases fits
    | succ levels =>
      rw [fits_obj_iff] at fits
      have inside := fits.2 ("children", .arr (listToJson children)) (by simp)
      refine .mk (fits_int_iff.mp (fits.2 ("start_line", _) (by simp)))
        (fits_int_iff.mp (fits.2 ("end_line", _) (by simp))) fun c hc => ?_
      cases levels with
      | zero => cases inside
      | succ levels =>
        rw [listToJson_eq_map, fits_arr_iff, List.forall_mem_map] at inside
        exact ih levels (by omega) (inside c hc)

end OutlineSymbol

namespace IndexData

/-- An index can be stored and loaded: its outlines have not too many levels, and no number is too long. -/
structure WithinLimits (d : IndexData) : Prop where
  levels : ∀ o ∈ d.outlines, OutlineSymbol.depthOfList o.2 ≤ OutlineSymbol.maxDepth
  symbols : ∀ e ∈ d.symbols, ∀ s ∈ e.2, s.Short
  outlines : ∀ o ∈ d.outlines, ∀ s ∈ o.2, s.Short
  files : ∀ e ∈ d.files, e.2.Short

theorem fits_mapJson_iff {α : Type} {f : α → Json} {m : OrderedMap α} {depth : Nat} :
    Fits (depth + 1) (mapJson f m) ↔ (OrderedMap.keys m).Nodup ∧ ∀ e ∈ m, Fits depth (f e.2) := by
  have names : OrderedMap.keys (m.map fun e => (e.1, f e.2)) = OrderedMap.keys m := by
    rw [OrderedMap.keys, List.map_map]
    rfl
  rw [mapJson, fits_obj_iff]
  exact and_congr (by rw [← names]) List.forall_mem_map

theorem fits_toJson_iff {d : IndexData} (coherent : d.Coherent)
    (levels : ∀ o ∈ d.outlines, OutlineSymbol.depthOfList o.2 ≤ OutlineSymbol.maxDepth) :
    Fits Json.maxDepth d.toJson ↔ d.WithinLimits := by
  have list (ss : List IndexedSymbol) (depth : Nat) :
      Fits (depth + 2) (.arr (ss.map IndexedSymbol.toJson)) ↔ ∀ s ∈ ss, s.Short := by
    simp only [fits_arr_iff, List.forall_mem_map, IndexedSymbol.fits_toJson_iff]
  rw [toJson, Json.maxDepth, fits_obj_iff]
  constructor
  · rintro ⟨-, all⟩
    simp only [List.forall_mem_cons, fits_mapJson_iff] at all
    obtain ⟨⟨-, bySymbols⟩, -, ⟨-, byOutlines⟩, ⟨-, byFiles⟩, -⟩ := all
    refine ⟨levels, fun e he => (list e.2 976).mp (bySymbols e he), fun o ho s hs => ?_,
      fun e he => Fingerprint.fits_toJson_iff.mp (byFiles e he)⟩
    have outline := byOutlines o ho
    rw [OutlineSymbol.listToJson_eq_map, fits_arr_iff, List.forall_mem_map] at outline
    exact OutlineSymbol.short_of_fits (outline s hs)
  · intro limits
    have distinct := coherent.distinct
    have bySymbols : Fits 979 (mapJson (fun ss => .arr (ss.map IndexedSymbol.toJson)) d.symbols) :=
      fits_mapJson_iff.mpr ⟨distinct.symbols, fun e he => (list e.2 976).mpr (limits.symbols e he)⟩
    have byOutlines : Fits 979 (mapJson (fun ss => .arr (OutlineSymbol.listToJson ss)) d.outlines) := by
      refine fits_mapJson_iff.mpr ⟨distinct.outlines, fun o ho => ?_⟩
      rw [OutlineSymbol.listToJson_eq_map, fits_arr_iff, List.forall_mem_map]
      intro s hs
      have deep := Nat.le_trans (OutlineSymbol.depth_le_depthOfList hs) (levels o ho)
      rw [OutlineSymbol.maxDepth] at deep
      exact (limits.outlines o ho s hs).fits_toJson (by omega)
    have byFiles : Fits 979 (mapJson Fingerprint.toJson d.files) :=
      fits_mapJson_iff.mpr ⟨distinct.files, fun e he => Fingerprint.fits_toJson_iff.mpr (limits.files e he)⟩
    have flat : Fits 979 (.arr (d.flat.map IndexedSymbol.toJson)) := by
      rw [coherent.flat]
      refine (list _ 977).mpr fun s hs => ?_
      obtain ⟨e, he, inside⟩ := List.mem_flatMap.mp hs
      exact limits.symbols e he s inside
    refine ⟨(by decide : ["file_symbols", "flat_symbols", "file_outline_cache", "file_metadata"].Nodup), ?_⟩
    simp [bySymbols, byOutlines, byFiles, flat]

/-- An index is within the limits if the parts are that it was assembled of. -/
theorem withinLimits_build {symbols : OrderedMap (List IndexedSymbol)} {outlines : OrderedMap (List OutlineSymbol)}
    {files : OrderedMap Fingerprint}
    (levels : ∀ o ∈ outlines, OutlineSymbol.depthOfList o.2 ≤ OutlineSymbol.maxDepth)
    (short : ∀ e ∈ symbols, ∀ s ∈ e.2, s.Short) (short' : ∀ o ∈ outlines, ∀ s ∈ o.2, s.Short)
    (short'' : ∀ e ∈ files, e.2.Short) : (build symbols outlines files).WithinLimits := by
  have outlined {o : String × List OutlineSymbol} (ho : o ∈ (build symbols outlines files).outlines) : o ∈ outlines := by
    obtain ⟨p, -, found⟩ := List.mem_filterMap.mp ho
    obtain ⟨os, known, rfl⟩ := Option.map_eq_some_iff.mp found
    exact OrderedMap.mem_of_get? known
  refine ⟨fun o ho => levels o (outlined ho), fun e he s hs => ?_, fun o ho => short' o (outlined ho), fun e he => ?_⟩
  · obtain ⟨p, -, rfl⟩ := List.mem_map.mp he
    cases known : symbols.get? p with
    | none =>
      rw [known] at hs
      cases hs
    | some ss =>
      rw [known] at hs
      exact short _ (OrderedMap.mem_of_get? known) s hs
  · obtain ⟨p, -, found⟩ := List.mem_filterMap.mp he
    obtain ⟨f, known, rfl⟩ := Option.map_eq_some_iff.mp found
    exact short'' _ (OrderedMap.mem_of_get? known)

/-- The files of an index that is read are different. -/
theorem nodup_files_of_read {v : Json} {d : IndexData} {depth : Nat} (fits : Fits depth v) (done : read v = ok d) :
    (OrderedMap.keys d.files).Nodup := by
  cases v with
  | obj fields =>
    rw [read] at done
    obtain ⟨_, files, three, byFiles, rfl⟩ := eq_ok_of_seq done
    obtain ⟨_, outlines, two, -, rfl⟩ := eq_ok_of_seq three
    obtain ⟨_, flat, one, -, rfl⟩ := eq_ok_of_seq two
    obtain ⟨symbols, -, rfl⟩ := eq_ok_of_map one
    obtain ⟨-, rfl⟩ | ⟨v, there, byFiles⟩ := eq_ok_of_fieldOr byFiles
    · exact List.nodup_nil
    · obtain ⟨members, rfl, names⟩ := keys_of_map byFiles
      cases fits with
      | obj _ all =>
        cases all _ (OrderedMap.mem_of_get? there) with
        | obj distinct _ =>
          rw [← names] at distinct
          exact distinct
  | _ => cases done

end IndexData

namespace Snapshot

/-- Whatever bytes are decoded, the index is in good order. -/
theorem coherent_of_decode {blob : Text.Bytes} {d : IndexData} (decoded : decode blob = .ok d) : d.Coherent := by
  obtain ⟨text, v, e, -, found, described, rfl⟩ := decode_eq_ok_iff.mp decoded
  exact IndexData.coherent_build (IndexData.nodup_files_of_read (fits_readChars? found) described) _ _

/-- An index in good order is read back from its text, put in order, just if it is within the limits. -/
theorem read_payload_iff {d : IndexData} (coherent : d.Coherent)
    (levels : ∀ o ∈ d.outlines, OutlineSymbol.depthOfList o.2 ≤ OutlineSymbol.maxDepth) :
    (∃ v, readChars? (payload d).toList = .ok v) ↔ d.WithinLimits := by
  have text : (payload d).toList = render .compact 0 d.toJson := by
    rw [payload, write, String.toList_ofList]
  rw [text, ← IndexData.fits_toJson_iff coherent levels, ← readChars?_compact_iff]
  constructor
  · rintro ⟨v, found⟩
    rw [found, eq_sorted_of_readChars?_compact (IndexData.storable coherent.distinct) found]
  · exact fun found => ⟨_, found⟩

/-- An index that was assembled is stored and comes back the same just if it is within the limits. -/
theorem comes_back_iff {files : OrderedMap Fingerprint} (distinct : (OrderedMap.keys files).Nodup)
    (symbols : OrderedMap (List IndexedSymbol)) (outlines : OrderedMap (List OutlineSymbol)) :
    (∃ blob, encode (.build symbols outlines files) = .ok blob ∧
      decode blob = .ok (.build symbols outlines files)) ↔ (IndexData.build symbols outlines files).WithinLimits := by
  have coherent := IndexData.coherent_build distinct symbols outlines
  have normal := IndexData.normal_build symbols outlines files
  generalize IndexData.build symbols outlines files = d at coherent normal
  constructor
  · rintro ⟨blob, encoded, decoded⟩
    obtain ⟨levels, rfl⟩ := encode_eq_ok_iff.mp encoded
    obtain ⟨text, v, e, held, found, -⟩ := decode_eq_ok_iff.mp decoded
    obtain rfl := Option.some.inj ((payload?_ofPayload _).symm.trans held)
    exact (read_payload_iff coherent levels).mp ⟨v, found⟩
  · intro limits
    have encoded : encode d = .ok (ofPayload (payload d)) := encode_eq_ok_iff.mpr ⟨limits.levels, rfl⟩
    obtain ⟨v, found⟩ := (read_payload_iff coherent limits.levels).mpr limits
    have described := read_of_payload coherent.distinct limits.levels found
    refine ⟨_, encoded, decode_eq_ok_iff.mpr ⟨_, v, _, payload?_ofPayload _, found, described, ?_⟩⟩
    rw [IndexData.normal, IndexData.build_inOrder]
    exact normal

/-- A class with a method. -/
def nestedOutline : List OutlineSymbol :=
  [.mk "Größe" .cls (some "\"€\"") 1 9 [.mk "run" .method none 2 3 []]]

/-- The symbols of two files, of which one has an outline, and those of a file that is gone. -/
def nestedSymbols : OrderedMap (List IndexedSymbol) :=
  [("b.py", OutlineSymbol.flattenList "b.py" none nestedOutline), ("a.md", [⟨"x", none, "Key", none, "a.md", -1, 1⟩]),
    ("gone.py", [⟨"y", none, "Key", none, "gone.py", 1, 1⟩])]

def nestedFiles : OrderedMap Fingerprint := [("b.py", ⟨1700000000, 5⟩), ("a.md", ⟨-1, 0⟩)]

theorem withinLimits_nested :
    (IndexData.build nestedSymbols [("b.py", nestedOutline)] nestedFiles).WithinLimits := by
  have inner : (OutlineSymbol.mk "run" .method none 2 3 []).Short :=
    .mk (shortInteger_of_lt (by decide)) (shortInteger_of_lt (by decide)) nofun
  have outer : (OutlineSymbol.mk "Größe" .cls (some "\"€\"") 1 9 [.mk "run" .method none 2 3 []]).Short :=
    .mk (shortInteger_of_lt (by decide)) (shortInteger_of_lt (by decide)) (List.forall_mem_singleton.mpr inner)
  have lines : ∀ e ∈ nestedSymbols, ∀ s ∈ e.2, s.startLine.natAbs < 10 ^ 18 ∧ s.endLine.natAbs < 10 ^ 18 := by decide
  have looks : ∀ e ∈ nestedFiles, e.2.modified.natAbs < 10 ^ 18 ∧ e.2.size.natAbs < 10 ^ 18 := by decide
  refine IndexData.withinLimits_build (by decide) (fun e he s hs => ?_) ?_ (fun e he => ?_)
  · exact ⟨shortInteger_of_lt (lines e he s hs).1, shortInteger_of_lt (lines e he s hs).2⟩
  · exact List.forall_mem_singleton.mpr (List.forall_mem_singleton.mpr outer)
  · exact ⟨shortInteger_of_lt (looks e he).1, shortInteger_of_lt (looks e he).2⟩

end Snapshot
end CodeAgent
