import CodeAgent.Proofs.Backend.StreamedReply
import CodeAgent.Proofs.Deflate.Stored
import CodeAgent.Proofs.Json.ReadBack
import CodeAgent.Proofs.OrderedMap
import CodeAgent.Proofs.Record
import CodeAgent.Symbols.IndexData
import CodeAgent.Symbols.Snapshot

/-! What an assembled index has for each path, and that putting it in order changes nothing. A snapshot that is read
at all gives back the index that was stored, in order. -/
namespace CodeAgent

namespace IndexData
open OrderedMap
variable (symbols : OrderedMap (List IndexedSymbol)) (outlines : OrderedMap (List OutlineSymbol))
  (files : OrderedMap Fingerprint) (path : String)

theorem mem_sortedPaths : path ∈ sortedPaths files ↔ path ∈ keys files :=
  (List.mergeSort_perm _ _).mem_iff

theorem symbols_build : (build symbols outlines files).symbols.get? path =
    if path ∈ keys files then some ((symbols.get? path).getD []) else none := by
  have tabulated := get?_tabulate (sortedPaths files) (fun p => some ((symbols.get? p).getD [])) path
  simp only [Option.map_some, List.filterMap_eq_map', mem_sortedPaths] at tabulated
  exact tabulated

theorem outlines_build : (build symbols outlines files).outlines.get? path =
    if path ∈ keys files then outlines.get? path else none := by
  rw [build, get?_tabulate]
  simp only [mem_sortedPaths]

theorem files_build : (build symbols outlines files).files.get? path = files.get? path := by
  rw [build, get?_tabulate]
  simp only [mem_sortedPaths]
  split
  · rfl
  · next missing =>
    cases found : files.get? path with
    | none => rfl
    | some a => exact absurd (mem_keys_iff.mpr ⟨a, found⟩) missing

theorem mem_flat_build {s : IndexedSymbol} (member : s ∈ (build symbols outlines files).flat) :
    ∃ path ∈ keys files, s ∈ (symbols.get? path).getD [] := by
  obtain ⟨p, hp, hs⟩ := List.mem_flatMap.mp member
  obtain ⟨path, known, rfl⟩ := List.mem_map.mp hp
  exact ⟨path, (mem_sortedPaths files path).mp known, hs⟩

theorem keys_files_build : keys (build symbols outlines files).files = sortedPaths files :=
  keys_tabulate fun p hp => mem_keys_iff.mp ((mem_sortedPaths files p).mp hp)

theorem keys_outlines_build (all : keys files ⊆ keys outlines) :
    keys (build symbols outlines files).outlines = sortedPaths files :=
  keys_tabulate fun p hp => mem_keys_iff.mp (all ((mem_sortedPaths files p).mp hp))

theorem sortedPaths_pairwise : (sortedPaths files).Pairwise (· ≤ ·) := by
  refine (List.pairwise_mergeSort ?_ ?_ _).imp of_decide_eq_true
  · intro a b c first second
    exact decide_eq_true (String.le_trans (of_decide_eq_true first) (of_decide_eq_true second))
  · intro a b
    rw [Bool.or_eq_true, decide_eq_true_iff, decide_eq_true_iff]
    exact String.le_total a b

/-- The paths in order depend on the paths only. -/
theorem sortedPaths_perm {files files' : OrderedMap Fingerprint} (same : (keys files).Perm (keys files')) :
    sortedPaths files = sortedPaths files' := by
  have paths : (sortedPaths files).Perm (sortedPaths files') :=
    ((List.mergeSort_perm _ _).trans same).trans (List.mergeSort_perm _ _).symm
  exact paths.eq_of_pairwise (fun a b _ _ le ge => String.le_antisymm le ge) (sortedPaths_pairwise files)
    (sortedPaths_pairwise files')

theorem sortedPaths_build : sortedPaths (build symbols outlines files).files = sortedPaths files := by
  apply sortedPaths_perm
  rw [keys_files_build]
  exact List.mergeSort_perm _ _

/-- An assembled index is in order. -/
theorem normal_build : (build symbols outlines files).normal = build symbols outlines files := by
  have known {p : String} (hp : p ∈ sortedPaths files) : p ∈ keys files := (mem_sortedPaths files p).mp hp
  have ordered :
      (sortedPaths files).map (fun p => (p, ((build symbols outlines files).symbols.get? p).getD [])) =
        (sortedPaths files).map fun p => (p, (symbols.get? p).getD []) :=
    List.map_congr_left fun p hp => by rw [symbols_build, if_pos (known hp), Option.getD_some]
  rw [normal]
  conv_lhs => rw [build, sortedPaths_build, ordered]
  conv_rhs => rw [build]
  congr 1
  · exact List.filterMap_congr fun p hp => by rw [outlines_build, if_pos (known hp)]
  · exact List.filterMap_congr fun p _ => by rw [files_build]

theorem sortedPaths_inOrder : sortedPaths (inOrder files) = sortedPaths files :=
  sortedPaths_perm ((inOrder_perm files).map _)

/-- The order in which the parts of an index are given does not matter. -/
theorem build_inOrder : build (inOrder symbols) (inOrder outlines) (inOrder files) =
    build symbols outlines files := by
  simp only [build, sortedPaths_inOrder, get?_inOrder]

theorem build_perm {symbols symbols' : OrderedMap (List IndexedSymbol)}
    {outlines outlines' : OrderedMap (List OutlineSymbol)} {files files' : OrderedMap Fingerprint}
    (once : (keys symbols).Nodup) (once' : (keys outlines).Nodup) (once'' : (keys files).Nodup)
    (same : symbols.Perm symbols') (same' : outlines.Perm outlines') (same'' : files.Perm files') :
    build symbols outlines files = build symbols' outlines' files' := by
  simp only [build, sortedPaths_perm (same''.map _), get?_perm once same, get?_perm once' same', get?_perm once'' same'']

/-- What holds of every index that was assembled: its files are in order of paths, each with its symbols, and its
flat list has the symbols of one file after those of another in that order. -/
structure Coherent (d : IndexData) : Prop where
  symbols : keys d.symbols = keys d.files
  outlines : (keys d.outlines).Sublist (keys d.files)
  order : (keys d.files).Pairwise (· < ·)
  flat : d.flat = d.symbols.flatMap (·.2)

theorem coherent_build {files : OrderedMap Fingerprint} (distinct : (keys files).Nodup)
    (symbols : OrderedMap (List IndexedSymbol)) (outlines : OrderedMap (List OutlineSymbol)) :
    (build symbols outlines files).Coherent where
  symbols := by
    rw [keys_files_build, build, keys, List.map_map]
    exact List.map_id _
  outlines := by
    rw [keys_files_build]
    exact keys_tabulate_sublist _ _
  order := by
    rw [keys_files_build]
    have once : (sortedPaths files).Nodup := (List.mergeSort_perm _ _).nodup_iff.mpr distinct
    refine ((sortedPaths_pairwise files).and once).imp fun both => ?_
    exact String.not_le.mp fun ge => both.2 (String.le_antisymm both.1 ge)
  flat := rfl

/-- The paths in each part of an index are different. -/
structure Distinct (d : IndexData) : Prop where
  symbols : (OrderedMap.keys d.symbols).Nodup
  outlines : (OrderedMap.keys d.outlines).Nodup
  files : (OrderedMap.keys d.files).Nodup

theorem Coherent.distinct {d : IndexData} (coherent : d.Coherent) : d.Distinct := by
  have files : (keys d.files).Nodup := coherent.order.imp fun {a b} less same => by
    subst same
    exact String.lt_irrefl a less
  exact ⟨coherent.symbols ▸ files, coherent.outlines.nodup files, files⟩

end IndexData
end CodeAgent

namespace CodeAgent
open CodeAgent.Json CodeAgent.Checked

theorem text_sorted (s : String) : Checked.text (sorted (.str s)) = ok s := rfl

theorem integer_sorted (n : Int) : Checked.integer (sorted (.int n)) = ok n := rfl

theorem optionalText_ofOption (s : Option String) : optionalText (sorted (ofOption s)) = ok s := by
  cases s <;> rfl

theorem storable_ofOption (s : Option String) : Storable (ofOption s) := by
  cases s <;> constructor

/-- The value of every member of a short object is storable, and so is the object. -/
theorem storable_record {fields : List (String × Json)} (distinct : (OrderedMap.keys fields).Nodup)
    (all : List.Forall (fun m => Storable m.2) fields) : Storable (.obj fields) :=
  .obj distinct (List.forall_iff_forall_mem.mp all)

namespace Fingerprint

theorem read_sorted (f : Fingerprint) : read (sorted f.toJson) = ok f := by
  rw [toJson, sorted, read, field_sorted (v := .int f.modified) rfl (integer_sorted _),
    field_sorted (v := .int f.size) rfl (integer_sorted _), map_ok, seq_ok]

theorem storable (f : Fingerprint) : Storable f.toJson :=
  storable_record (by decide : ["last_modified", "size"].Nodup) ⟨.int _, .int _⟩

end Fingerprint

namespace IndexedSymbol

theorem read_sorted (s : IndexedSymbol) : read (sorted s.toJson) = ok s := by
  rw [toJson, sorted, read, field_sorted (v := .str s.name) rfl (text_sorted _),
    fieldOr_sorted _ (v := ofOption s.parent) rfl (optionalText_ofOption _),
    field_sorted (v := .str s.kind) rfl (text_sorted _),
    fieldOr_sorted _ (v := ofOption s.detail) rfl (optionalText_ofOption _),
    field_sorted (v := .str s.file) rfl (text_sorted _),
    field_sorted (v := .int s.startLine) rfl (integer_sorted _),
    field_sorted (v := .int s.endLine) rfl (integer_sorted _)]
  rfl

theorem storable (s : IndexedSymbol) : Storable s.toJson :=
  storable_record (by decide : ["name", "parent_name", "kind", "detail", "file_path", "start_line",
      "end_line"].Nodup)
    ⟨.str _, storable_ofOption _, .str _, storable_ofOption _, .str _, .int _, .int _⟩

end IndexedSymbol

namespace OutlineSymbol

theorem readKind_text (kind : SymbolKind) : readKind (sorted (.str kind.text)) = ok kind := by
  cases kind <;> rfl

theorem listToJson_eq_map (ss : List OutlineSymbol) : listToJson ss = ss.map toJson := by
  induction ss with
  | nil => rw [listToJson, List.map_nil]
  | cons s ss ih => rw [listToJson, ih, List.map_cons]

theorem depth_le_depthOfList {s : OutlineSymbol} {ss : List OutlineSymbol} (member : s ∈ ss) :
    s.depth ≤ depthOfList ss := by
  induction ss with
  | nil => contradiction
  | cons t ss ih =>
    rw [depthOfList]
    obtain rfl | later := List.mem_cons.mp member
    · exact Nat.le_max_left _ _
    · exact Nat.le_trans (ih later) (Nat.le_max_right _ _)

/-- Outlines are read back if their levels are allowed. -/
theorem readWithin_sorted (levels : Nat) {s : OutlineSymbol} (shallow : s.depth ≤ levels) :
    readWithin levels (sorted s.toJson) = ok s := by
  induction levels generalizing s with
  | zero =>
    obtain ⟨name, kind, detail, startLine, endLine, children⟩ := s
    rw [depth] at shallow
    omega
  | succ levels ih =>
    obtain ⟨name, kind, detail, startLine, endLine, children⟩ := s
    rw [depth] at shallow
    have inside : Checked.list (readWithin levels) (sorted (.arr (listToJson children))) = ok children := by
      rw [sorted, sortedItems_eq_map, listToJson_eq_map, List.map_map]
      refine elements_map (fun c hc => ih ?_) 0
      have bound := depth_le_depthOfList hc
      omega
    rw [toJson, sorted, readWithin, field_sorted (v := .str name) rfl (text_sorted _),
      field_sorted (v := .str kind.text) rfl (readKind_text kind),
      fieldOr_sorted _ (v := ofOption detail) rfl (optionalText_ofOption _),
      field_sorted (v := .int startLine) rfl (integer_sorted _),
      field_sorted (v := .int endLine) rfl (integer_sorted _),
      fieldOr_sorted _ (v := .arr (listToJson children)) rfl inside]
    rfl

theorem storable (s : OutlineSymbol) : Storable s.toJson := by
  induction bound : s.depth using Nat.strong_induction_on generalizing s with
  | _ n ih =>
    obtain ⟨name, kind, detail, startLine, endLine, children⟩ := s
    have inside : Storable (.arr (listToJson children)) := by
      rw [listToJson_eq_map]
      refine .arr fun v hv => ?_
      obtain ⟨c, hc, rfl⟩ := List.mem_map.mp hv
      have smaller := depth_le_depthOfList hc
      exact ih c.depth (by rw [← bound, depth]; omega) c rfl
    rw [toJson]
    exact storable_record
      (by decide : ["name", "kind", "detail", "start_line", "end_line", "children"].Nodup)
      ⟨.str _, .str _, storable_ofOption _, .int _, .int _, inside⟩

end OutlineSymbol

namespace IndexData

/-- The names of a map as an object are its own. -/
theorem storable_mapJson {α : Type} {f : α → Json} {m : OrderedMap α} (distinct : (OrderedMap.keys m).Nodup)
    (all : ∀ p ∈ m, Storable (f p.2)) : Storable (mapJson f m) := by
  refine .obj ?_ fun q hq => ?_
  · rw [OrderedMap.keys, List.map_map]
    exact distinct
  · obtain ⟨p, hp, rfl⟩ := List.mem_map.mp hq
    exact all p hp

theorem storable {d : IndexData} (distinct : d.Distinct) : Storable d.toJson := by
  have list {α : Type} {f : α → Json} (as : List α) (all : ∀ a, Storable (f a)) :
      Storable (.arr (as.map f)) := by
    refine .arr fun v hv => ?_
    obtain ⟨a, -, rfl⟩ := List.mem_map.mp hv
    exact all a
  have bySymbols : Storable (mapJson (fun ss => .arr (ss.map IndexedSymbol.toJson)) d.symbols) :=
    storable_mapJson distinct.symbols fun p _ => list p.2 IndexedSymbol.storable
  have byOutlines : Storable (mapJson (fun ss => .arr (OutlineSymbol.listToJson ss)) d.outlines) := by
    refine storable_mapJson distinct.outlines fun p _ => ?_
    rw [OutlineSymbol.listToJson_eq_map]
    exact list p.2 OutlineSymbol.storable
  have byFiles : Storable (mapJson Fingerprint.toJson d.files) :=
    storable_mapJson distinct.files fun p _ => p.2.storable
  exact storable_record (by decide : ["file_symbols", "flat_symbols", "file_outline_cache",
    "file_metadata"].Nodup) ⟨bySymbols, list d.flat IndexedSymbol.storable, byOutlines, byFiles⟩

/-- A list is read back if its elements are. -/
theorem list_sorted {α : Type} {f : α → Json} {read : Json → Checked α} {as : List α}
    (gives : ∀ a ∈ as, read (sorted (f a)) = ok a) :
    Checked.list read (sorted (.arr (as.map f))) = ok as := by
  rw [sorted, sortedItems_eq_map, List.map_map]
  exact elements_map gives 0

/-- A map is read back in the order of its names. -/
theorem map_sorted {α : Type} {f : α → Json} {read : Json → Checked α} {m : OrderedMap α}
    (gives : ∀ p ∈ m, read (sorted (f p.2)) = ok p.2) :
    Checked.map read (sorted (mapJson f m)) = ok (OrderedMap.inOrder m) := by
  have order := OrderedMap.inOrder_map (fun a => sorted (f a)) m
  rw [mapJson, sorted, sortedFields_eq_map, List.map_map]
  have back : members read ((OrderedMap.inOrder m).map fun p => (p.1, sorted (f p.2))) =
      ok (OrderedMap.inOrder m) :=
    @members_map _ (fun a => sorted (f a)) _ _ fun p hp =>
      gives p ((OrderedMap.inOrder_perm m).mem_iff.mp hp)
  exact (congrArg (members read) order).trans back

/-- An index whose outlines are not too deep is read back, its parts in order. -/
theorem read_sorted {d : IndexData}
    (shallow : ∀ o ∈ d.outlines, OutlineSymbol.depthOfList o.2 ≤ OutlineSymbol.maxDepth) :
    read (sorted d.toJson) = ok
      { symbols := OrderedMap.inOrder d.symbols, flat := d.flat,
        outlines := OrderedMap.inOrder d.outlines, files := OrderedMap.inOrder d.files } := by
  have symbols (ss : List IndexedSymbol) :
      Checked.list IndexedSymbol.read (sorted (.arr (ss.map IndexedSymbol.toJson))) = ok ss :=
    list_sorted fun s _ => s.read_sorted
  have outlines : ∀ o ∈ d.outlines,
      Checked.list OutlineSymbol.read (sorted (.arr (OutlineSymbol.listToJson o.2))) = ok o.2 := by
    intro o ho
    rw [OutlineSymbol.listToJson_eq_map]
    refine list_sorted fun s hs => OutlineSymbol.readWithin_sorted _ ?_
    exact Nat.le_trans (OutlineSymbol.depth_le_depthOfList hs) (shallow o ho)
  have bySymbols := map_sorted (m := d.symbols) (f := fun ss => .arr (ss.map IndexedSymbol.toJson))
    fun p _ => symbols p.2
  have byOutlines := map_sorted (f := fun ss => .arr (OutlineSymbol.listToJson ss)) outlines
  have byFiles := map_sorted (m := d.files) fun p _ => p.2.read_sorted
  rw [toJson, sorted, read, fieldOr_sorted _ rfl bySymbols, fieldOr_sorted _ rfl (symbols d.flat),
    fieldOr_sorted _ rfl byOutlines, fieldOr_sorted _ rfl byFiles]
  rfl

end IndexData

namespace Snapshot

theorem dropMagic?_append (magic bs : Text.Bytes) : dropMagic? magic (magic ++ bs) = some bs := by
  induction magic with
  | nil => rfl
  | cons b magic ih => rw [List.cons_append, dropMagic?, if_pos (beq_self_eq_true b), ih]

theorem payload?_eq_some_iff {blob : Text.Bytes} {text : List Char} :
    payload? blob = some text ↔ ∃ body, dropMagic? magic blob = some body ∧
      (Deflate.unframe? body).bind Text.Utf8.decode? = some text :=
  Option.bind_eq_some_iff

theorem payload?_ofPayload (text : String) : payload? (ofPayload text) = some text.toList := by
  rw [payload?_eq_some_iff]
  refine ⟨_, dropMagic?_append _ _, ?_⟩
  rw [Deflate.unframe?_frame, Option.bind_some, Text.utf8Bytes, Text.Utf8.decode?_encode]

/-- Bytes are decoded just if the text in them describes an index, which is then put in order. -/
theorem decode_eq_ok_iff {blob : Text.Bytes} {d : IndexData} :
    decode blob = .ok d ↔ ∃ text v e, payload? blob = some text ∧ readChars? text = .ok v ∧
      IndexData.read v = ok e ∧ e.normal = d := by
  constructor
  · intro decoded
    rw [decode] at decoded
    split at decoded
    · cases decoded
    next body framed =>
      split at decoded
      · cases decoded
      next text held =>
        split at decoded
        · cases decoded
        · cases decoded
        next v found =>
          split at decoded
          · cases decoded
          · next e described =>
            cases decoded
            have described : IndexData.read v = ok e := congrArg Checked.mk described
            exact ⟨text, v, e, payload?_eq_some_iff.mpr ⟨body, framed, held⟩, found, described, rfl⟩
  · rintro ⟨text, v, e, held, found, described, rfl⟩
    obtain ⟨body, framed, held⟩ := payload?_eq_some_iff.mp held
    rw [decode, framed]
    dsimp only
    rw [held]
    dsimp only
    rw [found]
    dsimp only
    rw [described, ok]

theorem encode_eq_ok_iff {d : IndexData} {blob : Text.Bytes} :
    encode d = .ok blob ↔ (∀ o ∈ d.outlines, OutlineSymbol.depthOfList o.2 ≤ OutlineSymbol.maxDepth) ∧
      ofPayload (payload d) = blob := by
  have shallow : tooDeep d = false ↔ ∀ o ∈ d.outlines, OutlineSymbol.depthOfList o.2 ≤ OutlineSymbol.maxDepth := by
    simp [tooDeep]
  rw [← shallow, encode]
  cases tooDeep d <;> simp

/-- What is read from the text of an index describes it, its parts in order. -/
theorem read_of_payload {d : IndexData} {v : Json} (distinct : d.Distinct)
    (shallow : ∀ o ∈ d.outlines, OutlineSymbol.depthOfList o.2 ≤ OutlineSymbol.maxDepth)
    (found : readChars? (payload d).toList = .ok v) :
    IndexData.read v = ok
      { symbols := OrderedMap.inOrder d.symbols, flat := d.flat, outlines := OrderedMap.inOrder d.outlines,
        files := OrderedMap.inOrder d.files } := by
  rw [payload, write, String.toList_ofList] at found
  rw [eq_sorted_of_readChars?_compact (IndexData.storable distinct) found]
  exact IndexData.read_sorted shallow

/-- A snapshot that is read gives back the index that it was made of, in order. -/
theorem decode_encode {d e : IndexData} {blob : Text.Bytes} (distinct : d.Distinct)
    (stored : encode d = .ok blob) (read : decode blob = .ok e) : e = d.normal := by
  obtain ⟨shallow, rfl⟩ := encode_eq_ok_iff.mp stored
  obtain ⟨text, v, described, held, found, reads, rfl⟩ := decode_eq_ok_iff.mp read
  obtain rfl := Option.some.inj ((payload?_ofPayload _).symm.trans held)
  cases (read_of_payload distinct shallow found).symm.trans reads
  exact IndexData.build_inOrder d.symbols d.outlines d.files

end Snapshot
end CodeAgent
