import Mathlib.Data.List.Lex
import CodeAgent.Symbols.Outline

/-! Outlines as lists: their symbols in order, each before those inside it, and with what it stands in. A symbol's
position is the way down to it, and the flat list of an outline goes through all positions in lexicographic order. -/
namespace CodeAgent.OutlineSymbol

/-- A symbol without those inside it. -/
structure Head where
  name : String
  kind : SymbolKind
  detail : Option String
  startLine : Int
  endLine : Int
  deriving DecidableEq, Repr

/-- A symbol without those inside it. -/
def head : OutlineSymbol → Head
  | mk name kind detail startLine endLine _ => { name, kind, detail, startLine, endLine }

mutual

/-- A symbol, and the symbols inside it in order. -/
def preorder : OutlineSymbol → List OutlineSymbol
  | mk name kind detail startLine endLine children =>
    mk name kind detail startLine endLine children :: preorderOfList children

/-- The symbols of an outline in order, each before those inside it. -/
def preorderOfList : List OutlineSymbol → List OutlineSymbol
  | [] => []
  | s :: ss => preorder s ++ preorderOfList ss

end

mutual

/-- A symbol that stands in others and the symbols inside it, each with all it stands in, from the inmost one on. -/
def trails (above : List Head) : OutlineSymbol → List (List Head × Head)
  | mk name kind detail startLine endLine children =>
    (above, { name, kind, detail, startLine, endLine }) ::
      trailsOfList ({ name, kind, detail, startLine, endLine } :: above) children

/-- The symbols of an outline that stands in others, each with all it stands in, from the inmost one on. -/
def trailsOfList (above : List Head) : List OutlineSymbol → List (List Head × Head)
  | [] => []
  | s :: ss => trails above s ++ trailsOfList above ss

end

theorem head_name (s : OutlineSymbol) : s.head.name = s.name := by
  cases s; rfl

theorem head_detail (s : OutlineSymbol) : s.head.detail = s.detail := by
  cases s; rfl

theorem head_startLine (s : OutlineSymbol) : s.head.startLine = s.startLine := by
  cases s; rfl

theorem head_endLine (s : OutlineSymbol) : s.head.endLine = s.endLine := by
  cases s; rfl

theorem preorder_eq (s : OutlineSymbol) : s.preorder = s :: preorderOfList s.children := by
  cases s; rfl

theorem trails_eq (above : List Head) (s : OutlineSymbol) :
    s.trails above = (above, s.head) :: trailsOfList (s.head :: above) s.children := by
  cases s; rfl

theorem ext_head {s t : OutlineSymbol} (head : s.head = t.head) (children : s.children = t.children) : s = t := by
  cases s
  cases t
  obtain ⟨rfl, rfl, rfl, rfl, rfl⟩ := Head.mk.inj head
  obtain rfl := children
  rfl

theorem mem_preorderOfList_of_mem {s : OutlineSymbol} {ss : List OutlineSymbol} (mem : s ∈ ss) :
    s ∈ preorderOfList ss := by
  induction ss with
  | nil => exact absurd mem (List.not_mem_nil)
  | cons t ss ih =>
    rw [preorderOfList, List.mem_append]
    obtain rfl | later := List.mem_cons.mp mem
    · exact .inl (preorder_eq s ▸ List.mem_cons_self)
    · exact .inr (ih later)

theorem trailsOfList_append (above : List Head) (ss ts : List OutlineSymbol) :
    trailsOfList above (ss ++ ts) = trailsOfList above ss ++ trailsOfList above ts := by
  induction ss with
  | nil => rfl
  | cons s ss ih => rw [List.cons_append, trailsOfList, trailsOfList, ih, List.append_assoc]

mutual

theorem length_le_of_mem_trails {above : List Head} {trail : List Head × Head} : ∀ {s : OutlineSymbol},
    trail ∈ s.trails above → above.length ≤ trail.1.length
  | mk _ _ _ _ _ children => fun mem => by
    rw [trails] at mem
    obtain rfl | inside := List.mem_cons.mp mem
    · exact Nat.le_refl _
    · exact Nat.le_of_succ_le (length_le_of_mem_trailsOfList inside)

theorem length_le_of_mem_trailsOfList {above : List Head} {trail : List Head × Head} : ∀ {ss : List OutlineSymbol},
    trail ∈ trailsOfList above ss → above.length ≤ trail.1.length
  | [] => fun mem => absurd mem List.not_mem_nil
  | s :: ss => fun mem => by
    rw [trailsOfList] at mem
    obtain first | later := List.mem_append.mp mem
    · exact length_le_of_mem_trails first
    · exact length_le_of_mem_trailsOfList later

end

/-- What is inside the first symbol ends where the next symbol stands in no more than the first one. -/
theorem takeWhile_trailsOfList (above : List Head) (s : OutlineSymbol) (ss : List OutlineSymbol) :
    (trailsOfList (s.head :: above) s.children ++ trailsOfList above ss).takeWhile (above.length < ·.1.length) =
      trailsOfList (s.head :: above) s.children := by
  have inside : ∀ trail ∈ trailsOfList (s.head :: above) s.children, decide (above.length < trail.1.length) = true :=
    fun trail mem => decide_eq_true (length_le_of_mem_trailsOfList mem)
  rw [List.takeWhile_append_of_pos inside]
  cases ss with
  | nil => exact List.append_nil _
  | cons t ss => rw [trailsOfList, trails_eq, List.cons_append, List.takeWhile_cons_of_neg (by simp), List.append_nil]

/-- An outline is determined by its symbols in order, each with all it stands in. -/
theorem eq_of_trailsOfList_eq : ∀ {above : List Head} {ss ts : List OutlineSymbol},
    trailsOfList above ss = trailsOfList above ts → ss = ts
  | _, [], [], _ => rfl
  | _, [], t :: _, same => by
    rw [trailsOfList, trailsOfList, trails_eq] at same
    exact nomatch same
  | _, s :: _, [], same => by
    rw [trailsOfList, trailsOfList, trails_eq] at same
    exact nomatch same
  | above, s :: ss, t :: ts, same => by
    rw [trailsOfList, trailsOfList, trails_eq, trails_eq, List.cons_append, List.cons_append] at same
    obtain ⟨first, rest⟩ := List.cons.inj same
    have head : s.head = t.head := congrArg Prod.snd first
    have inside : trailsOfList (s.head :: above) s.children = trailsOfList (s.head :: above) t.children := by
      have both := congrArg (List.takeWhile (above.length < ·.1.length)) rest
      rwa [takeWhile_trailsOfList, takeWhile_trailsOfList, ← head] at both
    rw [inside, ← head] at rest
    have children : s.children = t.children := eq_of_trailsOfList_eq inside
    have after : ss = ts := eq_of_trailsOfList_eq (List.append_cancel_left rest)
    rw [ext_head head children, after]
termination_by _ ss => sizeOf ss
decreasing_by
  · cases s
    simp only [List.cons.sizeOf_spec, mk.sizeOf_spec, children]
    omega
  · simp only [List.cons.sizeOf_spec]
    omega

/-! ### Positions and the flat list -/

/-- The way down to a symbol: at each level, how many symbols stand before the one to go into. -/
abbrev Position := List Nat

/-- The symbol at a position below another one; the empty way leads to that one itself. -/
def descend? : Position → OutlineSymbol → Option OutlineSymbol
  | [], s => some s
  | i :: p, s => s.children[i]?.bind (descend? p)

/-- The symbol at a position of an outline. -/
def at? (outline : List OutlineSymbol) : Position → Option OutlineSymbol
  | [] => none
  | i :: p => outline[i]?.bind (descend? p)

mutual

/-- How many symbols there are in a symbol, itself included. -/
def size : OutlineSymbol → Nat
  | mk _ _ _ _ _ children => sizeOfList children + 1

/-- How many symbols there are in an outline. -/
def sizeOfList : List OutlineSymbol → Nat
  | [] => 0
  | s :: ss => size s + sizeOfList ss

end

/-- A symbol where it stands, with the name of the symbol it stands in. -/
structure Place where
  position : Position
  parent : Option String
  symbol : OutlineSymbol

namespace Place

/-- A place seen from further up. -/
def under (above : Position) (x : Place) : Place := { x with position := above ++ x.position }

/-- What the flat list says of a place. -/
def entry (file : String) (x : Place) : IndexedSymbol where
  name := x.symbol.name
  parent := x.parent
  kind := x.symbol.kind.text
  detail := x.symbol.detail
  file
  startLine := x.symbol.startLine
  endLine := x.symbol.endLine

/-- A place of an outline: the symbol stands there, and the other name is that of the symbol one level up. An
outermost symbol stands in none. -/
structure IsIn (outline : List OutlineSymbol) (x : Place) : Prop where
  symbol_eq : at? outline x.position = some x.symbol
  parent_eq : x.parent = (at? outline x.position.dropLast).map name

theorem under_nil : under [] = id := rfl

theorem under_append (p q : Position) (x : Place) : x.under (p ++ q) = (x.under q).under p := by
  simp [under]

theorem entry_under (file : String) (p : Position) (x : Place) : (x.under p).entry file = x.entry file := rfl

end Place

mutual

/-- The places from a symbol down. -/
def places (parent : Option String) : OutlineSymbol → List Place
  | mk name kind detail startLine endLine children =>
    ⟨[], parent, mk name kind detail startLine endLine children⟩ :: placesFrom (some name) 0 children

/-- The places from some symbols down, when others stand before them on their level. -/
def placesFrom (parent : Option String) (others : Nat) : List OutlineSymbol → List Place
  | [] => []
  | s :: ss => (places parent s).map (.under [others]) ++ placesFrom parent (others + 1) ss

end

theorem places_eq (parent : Option String) (s : OutlineSymbol) :
    s.places parent = ⟨[], parent, s⟩ :: placesFrom (some s.name) 0 s.children := by
  cases s; rfl

theorem size_eq (s : OutlineSymbol) : s.size = sizeOfList s.children + 1 := by
  cases s; rfl

mutual

theorem length_places (parent : Option String) : ∀ s : OutlineSymbol, (s.places parent).length = s.size
  | mk _ _ _ _ _ children => by
    rw [places, List.length_cons, length_placesFrom, size]

theorem length_placesFrom (parent : Option String) (others : Nat) :
    ∀ ss : List OutlineSymbol, (placesFrom parent others ss).length = sizeOfList ss
  | [] => rfl
  | s :: ss => by
    rw [placesFrom, List.length_append, List.length_map, length_places, length_placesFrom, sizeOfList]

end

mutual

/-- The flat list goes from place to place. -/
theorem flatten_eq (file : String) (parent : Option String) :
    ∀ s : OutlineSymbol, s.flatten file parent = (s.places parent).map (Place.entry file)
  | mk name _ _ _ _ children => by
    rw [flatten, places, List.map_cons, flattenList_eq file (some name) 0 children]
    rfl

theorem flattenList_eq (file : String) (parent : Option String) (others : Nat) :
    ∀ ss : List OutlineSymbol, flattenList file parent ss = (placesFrom parent others ss).map (Place.entry file)
  | [] => rfl
  | s :: ss => by
    rw [flattenList, placesFrom, List.map_append, flatten_eq, flattenList_eq file parent (others + 1) ss,
      List.map_map]
    rfl

end

mutual

/-- Places come in the order of their symbols, each before those inside it. -/
theorem map_symbol_places (parent : Option String) :
    ∀ s : OutlineSymbol, (s.places parent).map Place.symbol = s.preorder
  | mk name _ _ _ _ children => by
    rw [places, List.map_cons, map_symbol_placesFrom, preorder]

theorem map_symbol_placesFrom (parent : Option String) (others : Nat) :
    ∀ ss : List OutlineSymbol, (placesFrom parent others ss).map Place.symbol = preorderOfList ss
  | [] => rfl
  | s :: ss => by
    have symbols : Place.symbol ∘ Place.under [others] = Place.symbol := rfl
    rw [placesFrom, List.map_append, List.map_map, symbols, map_symbol_places, map_symbol_placesFrom, preorderOfList]

end

theorem flattenList_append (file : String) (parent : Option String) (ss ts : List OutlineSymbol) :
    flattenList file parent (ss ++ ts) = flattenList file parent ss ++ flattenList file parent ts := by
  induction ss with
  | nil => rfl
  | cons s ss ih => rw [List.cons_append, flattenList, flattenList, ih, List.append_assoc]

/-! ### Every position, and each once -/

theorem mem_placesFrom_iff {parent : Option String} {others : Nat} {ss : List OutlineSymbol} {x : Place} :
    x ∈ placesFrom parent others ss ↔
      ∃ (i : Nat) (s : OutlineSymbol), ss[i]? = some s ∧ ∃ y ∈ s.places parent, x = y.under [others + i] := by
  induction ss generalizing others with
  | nil => simp [placesFrom]
  | cons s ss ih =>
    rw [placesFrom, List.mem_append, ih, List.mem_map]
    constructor
    · rintro (⟨y, mem, rfl⟩ | ⟨i, t, found, y, mem, rfl⟩)
      · exact ⟨0, s, rfl, y, mem, rfl⟩
      · exact ⟨i + 1, t, found, y, mem, by rw [Nat.add_assoc, Nat.add_comm 1]⟩
    · rintro ⟨i, t, found, y, mem, rfl⟩
      cases i with
      | zero =>
        cases found
        exact .inl ⟨y, mem, rfl⟩
      | succ i => exact .inr ⟨i, t, found, y, mem, by rw [Nat.add_assoc, Nat.add_comm 1]⟩

theorem descend?_cons {s t : OutlineSymbol} {i : Nat} (child : s.children[i]? = some t) (p : Position) :
    descend? (i :: p) s = descend? p t := by
  rw [descend?, child, Option.bind_some]

theorem at?_cons {outline : List OutlineSymbol} {s : OutlineSymbol} {i : Nat} (top : outline[i]? = some s)
    (p : Position) : at? outline (i :: p) = descend? p s := by
  rw [at?, top, Option.bind_some]

theorem descend?_append (p q : Position) (s : OutlineSymbol) :
    descend? (p ++ q) s = (descend? p s).bind (descend? q) := by
  induction p generalizing s with
  | nil => rfl
  | cons i p ih =>
    rw [List.cons_append, descend?, descend?]
    cases s.children[i]? with
    | none => rfl
    | some t => exact ih t

theorem at?_append {outline : List OutlineSymbol} {p : Position} {s : OutlineSymbol}
    (found : at? outline p = some s) (q : Position) : at? outline (p ++ q) = descend? q s := by
  cases p with
  | nil => contradiction
  | cons i p =>
    obtain ⟨t, top, below⟩ := Option.bind_eq_some_iff.mp found
    rw [List.cons_append, at?_cons top, descend?_append, below, Option.bind_some]

/-- A place below a symbol is where the way down leads to; the name is that of the symbol one level up. -/
theorem mem_places_iff {parent : Option String} {s : OutlineSymbol} {x : Place} :
    x ∈ s.places parent ↔ descend? x.position s = some x.symbol ∧
      x.parent = if x.position = [] then parent else (descend? x.position.dropLast s).map name := by
  obtain ⟨position, outer, symbol⟩ := x
  induction position generalizing s parent with
  | nil =>
    rw [places_eq, List.mem_cons, mem_placesFrom_iff]
    constructor
    · rintro (same | ⟨_, _, -, _, -, same⟩)
      · cases same
        exact ⟨rfl, rfl⟩
      · cases same
    · rintro ⟨found, named⟩
      cases found
      cases named
      exact .inl rfl
  | cons i p ih =>
    have outer_eq {t : OutlineSymbol} (child : s.children[i]? = some t) :
        (if p = [] then some s.name else (descend? p.dropLast t).map name) =
          (descend? (i :: p).dropLast s).map name := by
      cases p with
      | nil => rfl
      | cons j p =>
        rw [if_neg (List.cons_ne_nil _ _), List.dropLast_cons_of_ne_nil (List.cons_ne_nil _ _), descend?_cons child]
    rw [places_eq, List.mem_cons, mem_placesFrom_iff]
    dsimp only
    rw [if_neg (List.cons_ne_nil i p)]
    constructor
    · rintro (same | ⟨j, t, child, ⟨q, above, symbol⟩, mem, same⟩)
      · cases same
      · rw [Nat.zero_add] at same
        cases same
        obtain ⟨below, named⟩ := ih.mp mem
        exact ⟨(descend?_cons child _).trans below, named.trans (outer_eq child)⟩
    · rintro ⟨below, named⟩
      obtain ⟨t, child, below⟩ := Option.bind_eq_some_iff.mp below
      exact .inr ⟨i, t, child, ⟨p, outer, symbol⟩, ih.mpr ⟨below, named.trans (outer_eq child).symm⟩, by
        rw [Nat.zero_add]; rfl⟩

theorem exists_mem_places {s t : OutlineSymbol} {p : Position} (found : descend? p s = some t)
    (parent : Option String) : ∃ outer, ⟨p, outer, t⟩ ∈ s.places parent :=
  ⟨if p = [] then parent else (descend? p.dropLast s).map name, mem_places_iff.mpr ⟨found, rfl⟩⟩

/-- The places of an outline in the order of the flat list. -/
def listing (outline : List OutlineSymbol) : List Place := placesFrom none 0 outline

theorem mem_listing_iff {outline : List OutlineSymbol} {x : Place} : x ∈ listing outline ↔ x.IsIn outline := by
  have outer_eq {i : Nat} {s : OutlineSymbol} (top : outline[i]? = some s) (p : Position) :
      (if p = [] then none else (descend? p.dropLast s).map name) = (at? outline (i :: p).dropLast).map name := by
    cases p with
    | nil => rfl
    | cons j p =>
      rw [if_neg (List.cons_ne_nil _ _), List.dropLast_cons_of_ne_nil (List.cons_ne_nil _ _), at?_cons top]
  rw [listing, mem_placesFrom_iff]
  constructor
  · rintro ⟨i, s, top, y, mem, rfl⟩
    obtain ⟨below, named⟩ := mem_places_iff.mp mem
    rw [Nat.zero_add]
    exact ⟨(at?_cons top y.position).trans below, named.trans (outer_eq top y.position)⟩
  · obtain ⟨position, outer, symbol⟩ := x
    rintro ⟨found, named⟩
    cases position with
    | nil => contradiction
    | cons i p =>
      obtain ⟨s, top, below⟩ := Option.bind_eq_some_iff.mp found
      exact ⟨i, s, top, ⟨p, outer, symbol⟩, mem_places_iff.mpr ⟨below, named.trans (outer_eq top p).symm⟩, by
        rw [Nat.zero_add]; rfl⟩

mutual

theorem places_increasing (parent : Option String) :
    ∀ s : OutlineSymbol, (s.places parent).Pairwise (·.position < ·.position)
  | mk name _ _ _ _ children => by
    rw [places, List.pairwise_cons]
    refine ⟨fun x mem => ?_, placesFrom_increasing (some name) 0 children⟩
    obtain ⟨i, s, -, y, -, rfl⟩ := mem_placesFrom_iff.mp mem
    exact List.nil_lt_cons _ _

theorem placesFrom_increasing (parent : Option String) (others : Nat) :
    ∀ ss : List OutlineSymbol, (placesFrom parent others ss).Pairwise (·.position < ·.position)
  | [] => .nil
  | s :: ss => by
    rw [placesFrom, List.pairwise_append, List.pairwise_map]
    refine ⟨(places_increasing parent s).imp fun before => ?_, placesFrom_increasing parent (others + 1) ss, ?_⟩
    · exact List.cons_lt_cons_iff.mpr (.inr ⟨rfl, before⟩)
    · intro x first y later
      obtain ⟨x, -, rfl⟩ := List.mem_map.mp first
      obtain ⟨i, t, -, y, -, rfl⟩ := mem_placesFrom_iff.mp later
      exact List.cons_lt_cons_iff.mpr (.inl (by omega))

end

/-! ### What is inside a symbol -/

/-- A list of places in which all places below one of them stand together, from that one on. -/
def GroupsBelow (xs : List Place) (x : Place) : Prop :=
  ∃ before after, xs = before ++ ((x.symbol.places x.parent).map (.under x.position) ++ after)

theorem GroupsBelow.append {xs : List Place} {x : Place} (groups : GroupsBelow xs x)
    (more : List Place) : GroupsBelow (xs ++ more) x := by
  obtain ⟨before, after, rfl⟩ := groups
  exact ⟨before, after ++ more, by simp⟩

theorem GroupsBelow.after {xs : List Place} {x : Place} (groups : GroupsBelow xs x)
    (more : List Place) : GroupsBelow (more ++ xs) x := by
  obtain ⟨before, after, rfl⟩ := groups
  exact ⟨more ++ before, after, by simp⟩

theorem GroupsBelow.under {xs : List Place} {x : Place} (groups : GroupsBelow xs x) (p : Position) :
    GroupsBelow (xs.map (.under p)) (x.under p) := by
  obtain ⟨before, after, rfl⟩ := groups
  refine ⟨before.map (.under p), after.map (.under p), ?_⟩
  have twice : Place.under p ∘ Place.under x.position = Place.under (p ++ x.position) :=
    funext fun y => (y.under_append p x.position).symm
  rw [List.map_append, List.map_append, List.map_map, twice]
  rfl

mutual

theorem groupsBelow_places {parent : Option String} {x : Place} :
    ∀ {s : OutlineSymbol}, x ∈ s.places parent → GroupsBelow (s.places parent) x
  | mk name _ _ _ _ children => fun mem => by
    rw [places] at mem ⊢
    obtain rfl | inside := List.mem_cons.mp mem
    · exact ⟨[], [], by rw [List.nil_append, Place.under_nil, List.map_id, List.append_nil, places]⟩
    · exact (groupsBelow_placesFrom inside).after [_]

theorem groupsBelow_placesFrom {parent : Option String} {x : Place} {others : Nat} :
    ∀ {ss : List OutlineSymbol}, x ∈ placesFrom parent others ss → GroupsBelow (placesFrom parent others ss) x
  | [] => fun mem => absurd mem List.not_mem_nil
  | s :: ss => fun mem => by
    rw [placesFrom] at mem ⊢
    obtain first | later := List.mem_append.mp mem
    · obtain ⟨y, inside, rfl⟩ := List.mem_map.mp first
      exact ((groupsBelow_places inside).under [others]).append _
    · exact (groupsBelow_placesFrom later).after _

end

section Listing
variable {outline : List OutlineSymbol} {i : Nat} {x : Place} (listed : (listing outline)[i]? = some x)
include listed

theorem eq_of_position_eq {j : Nat} {y : Place} (also : (listing outline)[j]? = some y)
    (same : x.position = y.position) : i = j := by
  have increasing := placesFrom_increasing none 0 outline
  have nodup : ((listing outline).map Place.position).Nodup :=
    List.pairwise_map.mpr (increasing.imp fun before => ne_of_lt before)
  have inside : i < ((listing outline).map Place.position).length := by
    rw [List.length_map]
    exact (List.getElem?_eq_some_iff.mp listed).1
  refine (List.getElem?_inj inside nodup).mp ?_
  rw [List.getElem?_map, List.getElem?_map, listed, also, Option.map_some, Option.map_some, same]

/-- What the list says before a place and what it says after those below it. -/
theorem exists_split : ∃ before after, before.length = i ∧
    listing outline = before ++ ((x.symbol.places x.parent).map (.under x.position) ++ after) := by
  obtain ⟨before, after, split⟩ := groupsBelow_placesFrom (List.mem_of_getElem? listed)
  have here : (listing outline)[before.length]? = some (Place.under x.position ⟨[], x.parent, x.symbol⟩) := by
    rw [listing, split, List.getElem?_append_right (Nat.le_refl _), Nat.sub_self, places_eq]
    rfl
  exact ⟨before, after, eq_of_position_eq here listed (List.append_nil _), split⟩

/-- The places below one are as many as the symbol has symbols, and come from that one on. -/
theorem position_prefix_iff {j : Nat} {y : Place} (also : (listing outline)[j]? = some y) :
    x.position <+: y.position ↔ i ≤ j ∧ j < i + x.symbol.size := by
  obtain ⟨before, after, rfl, split⟩ := exists_split listed
  constructor
  · rintro ⟨q, down⟩
    have top := (mem_listing_iff.mp (List.mem_of_getElem? listed)).symbol_eq
    have below := (mem_listing_iff.mp (List.mem_of_getElem? also)).symbol_eq
    rw [← down, at?_append top] at below
    obtain ⟨outer, mem⟩ := exists_mem_places below x.parent
    obtain ⟨k, short, found⟩ := List.mem_iff_getElem.mp mem
    have there : (listing outline)[before.length + k]? = some (Place.under x.position ⟨q, outer, y.symbol⟩) := by
      rw [split, List.getElem?_append_right (Nat.le_add_right _ _), Nat.add_sub_cancel_left,
        List.getElem?_append_left (by rwa [List.length_map]), List.getElem?_map, List.getElem?_eq_getElem short, found]
      rfl
    have same := eq_of_position_eq there also down
    rw [length_places] at short
    omega
  · rintro ⟨from_on, until_end⟩
    have short : j - before.length < ((x.symbol.places x.parent).map (Place.under x.position)).length := by
      rw [List.length_map, length_places]
      omega
    rw [split, List.getElem?_append_right from_on, List.getElem?_append_left short] at also
    obtain ⟨z, -, rfl⟩ := List.mem_map.mp (List.mem_of_getElem? also)
    exact List.prefix_append _ _

/-- The entries after that of a symbol, as many as there are symbols inside it, are those of its children. -/
theorem take_drop_flattenList (file : String) :
    ((flattenList file none outline).drop (i + 1)).take (x.symbol.size - 1) =
      flattenList file (some x.symbol.name) x.symbol.children := by
  obtain ⟨before, after, rfl, split⟩ := exists_split listed
  have inner : (placesFrom (some x.symbol.name) 0 x.symbol.children).length = x.symbol.size - 1 := by
    rw [length_placesFrom, size_eq, Nat.add_sub_cancel]
  have entries : Place.entry file ∘ Place.under x.position = Place.entry file :=
    funext fun y => y.entry_under file x.position
  rw [flattenList_eq file none 0, ← listing, split, ← List.map_drop, ← List.map_take, List.drop_length_add_append,
    places_eq, List.map_cons, List.cons_append, List.drop_succ_cons, List.drop_zero,
    List.take_left' (by rw [List.length_map, inner]), List.map_map, entries, flattenList_eq file _ 0]

end Listing

/-- Flattening lists every symbol of an outline once, each before those inside it and these before the symbols after
it: in the order of their positions, with its own data, the given file, and the name of the symbol it stands in.
The symbols inside one are the entries next to it, as many as there are. Outlines one after the other are flattened one
after the other. -/
theorem flattenList_lists_places (file : String) (outline : List OutlineSymbol) :
    ∃ listed : List Place,
      flattenList file none outline = listed.map (Place.entry file) ∧
      listed.map Place.symbol = preorderOfList outline ∧
      (∀ x, x ∈ listed ↔ x.IsIn outline) ∧
      listed.Pairwise (·.position < ·.position) ∧
      (∀ (i : Nat) (x : Place), listed[i]? = some x →
        (∀ (j : Nat) (y : Place), listed[j]? = some y →
          (x.position <+: y.position ↔ i ≤ j ∧ j < i + x.symbol.size)) ∧
        ((flattenList file none outline).drop (i + 1)).take (x.symbol.size - 1) =
          flattenList file (some x.symbol.name) x.symbol.children) ∧
      ∀ (parent : Option String) (others : List OutlineSymbol),
        flattenList file parent (outline ++ others) =
          flattenList file parent outline ++ flattenList file parent others :=
  ⟨listing outline, flattenList_eq file none 0 outline, map_symbol_placesFrom none 0 outline,
    fun _ => mem_listing_iff, placesFrom_increasing none 0 outline,
    fun _ _ listed => ⟨fun _ _ also => position_prefix_iff listed also, take_drop_flattenList listed file⟩,
    fun parent others => flattenList_append file parent outline others⟩

end CodeAgent.OutlineSymbol
