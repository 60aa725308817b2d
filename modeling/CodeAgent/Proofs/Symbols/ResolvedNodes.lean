import CodeAgent.Proofs.Symbols.OutlineTree
import CodeAgent.Symbols.SyntaxTree

/-! The outline of a syntax tree: the named nodes in which the rules of the language find a symbol, each in the nearest
such node around it. Nodes in which they find none do not count. -/
namespace CodeAgent
open CodeAgent.Text

namespace SyntaxNode
variable {language : Language} {ls : List (List Char)}

/-- The row of the first character. -/
def firstRow : SyntaxNode → Nat
  | mk _ _ _ _ row _ _ => row

/-- The row of the last character. -/
def lastRow : SyntaxNode → Nat
  | mk _ _ _ _ _ row _ => row

mutual

/-- A named node below others and the named nodes below it in order, each with all it is below, from the inmost one
on. -/
def trails (above : List SyntaxNode) : SyntaxNode → List (List SyntaxNode × SyntaxNode)
  | mk type field named source firstRow lastRow children =>
    let n := mk type field named source firstRow lastRow children
    if named then (above, n) :: trailsOfList (n :: above) children else []

/-- The named nodes among some nodes below others and below them in order, each with all it is below, from the inmost
one on. -/
def trailsOfList (above : List SyntaxNode) : List SyntaxNode → List (List SyntaxNode × SyntaxNode)
  | [] => []
  | n :: ns => trails above n ++ trailsOfList above ns

end

end SyntaxNode

namespace Language
open OutlineSymbol

/-- The nearest node with a symbol among those above a node holds methods. -/
def methodsBelow (language : Language) (above : List SyntaxNode) : Bool :=
  ((above.findSome? language.resolve?).map (·.1.holdsMethods)).getD false

/-- The symbol that is found in a node below others. -/
def head? (language : Language) (ls : List (List Char)) (above : List SyntaxNode) (n : SyntaxNode) : Option Head :=
  (language.resolve? n).map fun (_, name, kind) =>
    { name, kind := if kind = .function && language.methodsBelow above then .method else kind
      detail := declarationLine ls n.firstRow, startLine := (n.firstRow + 1 : Nat), endLine := (n.lastRow + 1 : Nat) }

/-- The symbols that are found in nodes, each of which is below those after it. -/
def headsOf (language : Language) (ls : List (List Char)) : List SyntaxNode → List Head
  | [] => []
  | n :: above => (language.head? ls above n).toList ++ language.headsOf ls above

/-- The symbol that is found in a node, with those that are found in the nodes it is below. -/
def trail? (language : Language) (ls : List (List Char)) (trail : List SyntaxNode × SyntaxNode) :
    Option (List Head × Head) :=
  (language.head? ls trail.1 trail.2).map (language.headsOf ls trail.1, ·)

end Language

namespace SyntaxNode
variable {language : Language} {ls : List (List Char)} {n : SyntaxNode}

theorem headsOf_of_some {head : OutlineSymbol.Head} {above : List SyntaxNode}
    (here : language.head? ls above n = some head) :
    language.headsOf ls (n :: above) = head :: language.headsOf ls above := by
  rw [Language.headsOf, here]
  rfl

section resolved
variable {rule : SymbolRule} {name : String} {kind : SymbolKind} (found : language.resolve? n = some (rule, name, kind))
  (ls : List (List Char)) (above : List SyntaxNode)
include found

theorem methodsBelow_of_some : language.methodsBelow (n :: above) = rule.holdsMethods := by
  rw [Language.methodsBelow, List.findSome?_cons, found]
  rfl

theorem symbolsAt_of_some (named : n.isNamed = true) : ∃ head, language.head? ls above n = some head ∧
    symbolsAt language ls (language.methodsBelow above) n =
      [.mk head.name head.kind head.detail head.startLine head.endLine
        (symbolsAmong language ls rule.holdsMethods n.children)] := by
  obtain ⟨type, field, _, source, firstRow, lastRow, children⟩ := n
  obtain rfl : _ = true := named
  rw [Language.head?, found]
  refine ⟨_, rfl, ?_⟩
  rw [symbolsAt, if_neg (by decide), found]
  rfl

end resolved

section unresolved
variable (nothing : language.resolve? n = none) (ls : List (List Char)) (above : List SyntaxNode)
include nothing

theorem methodsBelow_of_none : language.methodsBelow (n :: above) = language.methodsBelow above := by
  rw [Language.methodsBelow, Language.methodsBelow, List.findSome?_cons, nothing]

theorem head?_of_none : language.head? ls above n = none := by
  rw [Language.head?, nothing]
  rfl

theorem headsOf_of_none : language.headsOf ls (n :: above) = language.headsOf ls above := by
  rw [Language.headsOf, head?_of_none nothing]
  rfl

/-- A node without a symbol of its own has the symbols of its children. -/
theorem symbolsAt_of_none (inMethods : Bool) (named : n.isNamed = true) :
    symbolsAt language ls inMethods n = symbolsAmong language ls inMethods n.children := by
  obtain ⟨type, field, _, source, firstRow, lastRow, children⟩ := n
  obtain rfl : _ = true := named
  rw [symbolsAt, if_neg (by decide), nothing]
  rfl

end unresolved

mutual

/-- The symbols in a node and below it are those that are found in the named nodes there. -/
theorem trails_symbolsAt (language : Language) (ls : List (List Char)) (above : List SyntaxNode) : ∀ n : SyntaxNode,
    OutlineSymbol.trailsOfList (language.headsOf ls above) (symbolsAt language ls (language.methodsBelow above) n) =
      (trails above n).filterMap (language.trail? ls)
  | mk type field false source firstRow lastRow children => rfl
  | mk type field true source firstRow lastRow children => by
    let n := mk type field true source firstRow lastRow children
    have inside := trails_symbolsAmong language ls (n :: above) children
    rw [trails, if_pos rfl, List.filterMap_cons, Language.trail?]
    cases found : language.resolve? n with
    | none =>
      -- What is above the children counts as what is above the node does.
      rw [headsOf_of_none found, methodsBelow_of_none found] at inside
      rw [symbolsAt_of_none found ls _ rfl, head?_of_none found]
      exact inside
    | some resolved =>
      obtain ⟨rule, name, kind⟩ := resolved
      obtain ⟨head, here, symbols⟩ := symbolsAt_of_some found ls above rfl
      rw [headsOf_of_some here, methodsBelow_of_some found] at inside
      rw [symbols, here, OutlineSymbol.trailsOfList, OutlineSymbol.trails]
      exact congrArg _ ((List.append_nil _).trans inside)

/-- The symbols in some nodes and below them are those that are found in the named nodes there. -/
theorem trails_symbolsAmong (language : Language) (ls : List (List Char)) (above : List SyntaxNode) :
    ∀ ns : List SyntaxNode,
    OutlineSymbol.trailsOfList (language.headsOf ls above) (symbolsAmong language ls (language.methodsBelow above) ns) =
      (trailsOfList above ns).filterMap (language.trail? ls)
  | [] => rfl
  | n :: ns => by
    rw [symbolsAmong, trailsOfList, OutlineSymbol.trailsOfList_append, List.filterMap_append,
      trails_symbolsAt language ls above n, trails_symbolsAmong language ls above ns]

end

/-- A syntax tree has exactly one outline, the one with a symbol for each named node in which one is found, in the
symbols that are found in the nodes around it. -/
theorem outline_eq_iff (root : SyntaxNode) (language : Language) (source : Bytes) (symbols : List OutlineSymbol) :
    root.outline language source = symbols ↔
      OutlineSymbol.trailsOfList [] symbols =
        (trailsOfList [] root.children).filterMap (language.trail? (lines (Utf8.decode source))) := by
  have own := trails_symbolsAmong language (lines (Utf8.decode source)) [] root.children
  constructor
  · rintro rfl
    exact own
  · exact fun same => OutlineSymbol.eq_of_trailsOfList_eq (own.trans same.symm)

/-- Nodes of which some, wherever they stand, are put into a new one in which nothing is found, while in all others there
is found what was found before. -/
inductive Regrouped (language : Language) : List SyntaxNode → List SyntaxNode → Prop
  | nil : Regrouped language [] []
  | kept {type : String} {field : Option String} {named : Bool} {source : Option Bytes} {firstRow lastRow : Nat}
    {children children' rest rest' : List SyntaxNode}
    (found : language.resolve? (mk type field named source firstRow lastRow children') =
      language.resolve? (mk type field named source firstRow lastRow children))
    (inside : Regrouped language children children') (after : Regrouped language rest rest') :
    Regrouped language (mk type field named source firstRow lastRow children :: rest)
      (mk type field named source firstRow lastRow children' :: rest')
  | grouped {type : String} {field : Option String} {source : Option Bytes} {firstRow lastRow : Nat}
    {run run' rest rest' : List SyntaxNode}
    (nothing : language.resolve? (mk type field true source firstRow lastRow run') = none)
    (inside : Regrouped language run run') (after : Regrouped language rest rest') :
    Regrouped language (run ++ rest) (mk type field true source firstRow lastRow run' :: rest')

theorem symbolsAmong_append (language : Language) (ls : List (List Char)) (inMethods : Bool)
    (ns ms : List SyntaxNode) : symbolsAmong language ls inMethods (ns ++ ms) =
      symbolsAmong language ls inMethods ns ++ symbolsAmong language ls inMethods ms := by
  induction ns with
  | nil => rfl
  | cons n ns ih => rw [List.cons_append, symbolsAmong, symbolsAmong, ih, List.append_assoc]

theorem Regrouped.symbolsAmong_eq {ns ns' : List SyntaxNode} (same : Regrouped language ns ns')
    (ls : List (List Char)) (inMethods : Bool) :
    symbolsAmong language ls inMethods ns' = symbolsAmong language ls inMethods ns := by
  induction same generalizing inMethods with
  | nil => rfl
  | kept found _ _ inside after =>
    rw [symbolsAmong, symbolsAmong, after, symbolsAt, symbolsAt, found]
    simp only [inside]
  | grouped nothing _ _ inside after =>
    rw [symbolsAmong_append, symbolsAmong, symbolsAt_of_none nothing ls inMethods rfl, after]
    exact congrArg (· ++ _) (inside inMethods)

/-- The fields that rules look into. -/
def ruleFields : List String := ["name", "body", "value", "type", "trait", "declarator"]

/-- Rules do not look into the field that a node stands in, if it stands in one. -/
def Unseen (field : Option String) : Prop := ∀ looked ∈ ruleFields, field ≠ some looked

theorem unseen_none : Unseen none :=
  fun looked _ => (Option.some_ne_none looked).symm

/-- Nodes of which some, wherever no rule looks into them, are put into a new one of a type without a rule. -/
inductive Wrapped (language : Language) : List SyntaxNode → List SyntaxNode → Prop
  | nil : Wrapped language [] []
  | kept {type : String} {field : Option String} {named : Bool} {source : Option Bytes} {firstRow lastRow : Nat}
    {children children' rest rest' : List SyntaxNode}
    (declarator : field = some "declarator" → children' = children)
    (inside : Wrapped language children children') (after : Wrapped language rest rest') :
    Wrapped language (mk type field named source firstRow lastRow children :: rest)
      (mk type field named source firstRow lastRow children' :: rest')
  | wrapped {type : String} {field : Option String} {source : Option Bytes} {firstRow lastRow : Nat}
    {run run' rest rest' : List SyntaxNode} (unknown : language.rule? type = none)
    (unseen : Unseen field) (others : ∀ n ∈ run, Unseen n.field)
    (inside : Wrapped language run run') (after : Wrapped language rest rest') :
    Wrapped language (run ++ rest) (mk type field true source firstRow lastRow run' :: rest')

theorem Wrapped.refl (language : Language) : ∀ ns : List SyntaxNode, Wrapped language ns ns
  | [] => .nil
  | mk _ _ _ _ _ _ children :: rest => .kept (fun _ => rfl) (refl language children) (refl language rest)

theorem Wrapped.cons (n : SyntaxNode) {rest rest' : List SyntaxNode} (after : Wrapped language rest rest') :
    Wrapped language (n :: rest) (n :: rest') := by
  cases n
  exact .kept (fun _ => rfl) (.refl language _) after

theorem Wrapped.within {type : String} {field : Option String} {named : Bool} {source : Option Bytes}
    {firstRow lastRow : Nat} {children children' : List SyntaxNode} (other : field ≠ some "declarator")
    (inside : Wrapped language children children') :
    Wrapped language [mk type field named source firstRow lastRow children]
      [mk type field named source firstRow lastRow children'] :=
  .kept (fun here => absurd here other) inside .nil

/-- What rules see of the node in a field. -/
def face (n : SyntaxNode) : String × Option String := (n.type, n.text?)

/-- In a field of some nodes rules see what they see in the field of others; they look further into declarators only. -/
def SeenAlike (looked : String) (ns ns' : List SyntaxNode) : Prop :=
  (ns'.find? (·.field == some looked)).map face = (ns.find? (·.field == some looked)).map face ∧
    (looked = "declarator" → ns'.find? (·.field == some looked) = ns.find? (·.field == some looked))

section wrapped
variable {ns ns' ms ms' rest : List SyntaxNode} {looked : String}

theorem find?_of_field (here : n.field = some looked) :
    (n :: rest).find? (·.field == some looked) = some n :=
  List.find?_cons_of_pos (by simpa using here)

theorem find?_of_other_field (elsewhere : n.field ≠ some looked) :
    (n :: rest).find? (·.field == some looked) = rest.find? (·.field == some looked) :=
  List.find?_cons_of_neg (by simpa using elsewhere)

theorem find?_append_of_unseen (seen : looked ∈ ruleFields) {run : List SyntaxNode}
    (unseen : ∀ n ∈ run, Unseen n.field) :
    (run ++ rest).find? (·.field == some looked) = rest.find? (·.field == some looked) := by
  have none : run.find? (·.field == some looked) = none :=
    List.find?_eq_none.mpr fun n mem => by simpa using unseen n mem looked seen
  rw [List.find?_append, none, Option.none_or]

theorem SeenAlike.of_find?_eq (alike : SeenAlike looked ns ns')
    (same : ms.find? (·.field == some looked) = ns.find? (·.field == some looked))
    (same' : ms'.find? (·.field == some looked) = ns'.find? (·.field == some looked)) : SeenAlike looked ms ms' := by
  unfold SeenAlike
  rwa [same, same']

/-- Rules see in each field what they saw before. -/
theorem Wrapped.seenAlike (same : Wrapped language ns ns') (seen : looked ∈ ruleFields) : SeenAlike looked ns ns' := by
  induction same with
  | nil => exact ⟨rfl, fun _ => rfl⟩
  | @kept type field named source firstRow lastRow children children' rest rest' declarator _ _ _ after =>
    by_cases here : field = some looked
    · -- The node in the field is this one, with the children it had if it is a declarator.
      have first (kids ns : List SyntaxNode) :
          (mk type field named source firstRow lastRow kids :: ns).find? (·.field == some looked) =
            some (mk type field named source firstRow lastRow kids) := find?_of_field here
      unfold SeenAlike
      rw [first, first]
      exact ⟨rfl, fun looked => by rw [declarator (looked ▸ here)]⟩
    · exact after.of_find?_eq (find?_of_other_field here) (find?_of_other_field here)
  | wrapped _ unseen others _ _ _ after =>
    exact after.of_find?_eq (find?_append_of_unseen seen others) (find?_of_other_field (unseen looked seen))

end wrapped

section sight
variable {α : Type} {n' : SyntaxNode}

theorem bind_eq_of_face {seen seen' : Option SyntaxNode} (same : seen'.map face = seen.map face)
    {f : SyntaxNode → Option α} (sees : ∀ {m m'}, face m' = face m → f m' = f m) : seen'.bind f = seen.bind f := by
  cases seen with
  | none =>
    rw [Option.map_eq_none_iff.mp same]
  | some m =>
    obtain ⟨m', rfl, faces⟩ := Option.map_eq_some_iff.mp same
    exact sees faces

theorem bind_bind_eq_of_face {seen seen' other other' : Option SyntaxNode} (same : seen'.map face = seen.map face)
    (same' : other'.map face = other.map face) {f : SyntaxNode → SyntaxNode → Option α}
    (sees : ∀ {m m' k k'}, face m' = face m → face k' = face k → f m' k' = f m k) :
    seen'.bind (fun m => other'.bind (f m)) = seen.bind fun m => other.bind (f m) := by
  have inner (m : SyntaxNode) : other'.bind (f m) = other.bind (f m) :=
    bind_eq_of_face same' fun faces' => sees rfl faces'
  simp only [inner]
  refine bind_eq_of_face same fun faces => congrArg (Option.bind other) (funext fun k => ?_)
  exact sees faces rfl

/-- A rule finds the same in nodes in whose fields it sees the same. -/
theorem resolve?_of_seenAlike (rule : SymbolRule)
    (alike : ∀ looked ∈ ruleFields, SeenAlike looked n.children n'.children) :
    rule.resolve? n' = rule.resolve? n := by
  have faces (looked : String) (seen : looked ∈ ruleFields) :
      (n'.child? looked).map face = (n.child? looked).map face := (alike looked seen).1
  have text (looked : String) (seen : looked ∈ ruleFields) : n'.childText? looked = n.childText? looked :=
    bind_eq_of_face (faces looked seen) fun same => congrArg Prod.snd same
  have name : n'.childText? "name" = n.childText? "name" := text "name" (by decide)
  cases rule with
  | named kind => exact congrArg (Option.map _) name
  | withBody kind =>
    have body : (n'.child? "body").isSome = (n.child? "body").isSome := by
      rw [← Option.isSome_map (f := face), faces "body" (by decide), Option.isSome_map]
    change (if (n'.child? "body").isSome then (n'.childText? "name").map _ else none) =
      if (n.child? "body").isSome then (n.childText? "name").map _ else none
    rw [body, name]
  | functionValue =>
    refine bind_bind_eq_of_face (faces "value" (by decide)) (faces "name" (by decide)) fun same same' => ?_
    obtain ⟨type, -⟩ := Prod.mk.inj same
    obtain ⟨type', text'⟩ := Prod.mk.inj same'
    rw [type, type', text']
  | implementation =>
    rw [SymbolRule.resolve?, SymbolRule.resolve?, text "type" (by decide), text "trait" (by decide)]
  | typeName =>
    have type : (n'.child? "type").map SyntaxNode.type = (n.child? "type").map SyntaxNode.type := by
      have same := congrArg (Option.map Prod.fst) (faces "type" (by decide))
      rwa [Option.map_map, Option.map_map] at same
    rw [SymbolRule.resolve?, SymbolRule.resolve?, type]
    split
    · exact congrArg (Option.map (·, SymbolKind.struct)) name
    · exact congrArg (Option.map (·, SymbolKind.interface)) name
    · rfl
  | declarator =>
    exact congrArg (fun m : Option SyntaxNode => (m.bind declaredName?).map (·, SymbolKind.function))
      ((alike "declarator" (by decide)).2 rfl)

/-- Where no rule looks into the new nodes, there is found what was found before. -/
theorem Wrapped.regrouped {ns ns' : List SyntaxNode} (same : Wrapped language ns ns') : Regrouped language ns ns' := by
  induction same with
  | nil => exact .nil
  | @kept type field named source firstRow lastRow children children' rest rest' _ kids _ inside after =>
    refine .kept ?_ inside after
    unfold Language.resolve?
    change (language.rule? type).bind _ = (language.rule? type).bind _
    refine congrArg _ (funext fun rule => congrArg (Option.map _) ?_)
    exact resolve?_of_seenAlike rule fun looked seen => kids.seenAlike seen
  | wrapped unknown _ _ _ _ inside after =>
    refine .grouped ?_ inside after
    unfold Language.resolve?
    rw [type, unknown]
    rfl

end sight

/-- The outline of a syntax tree is the one that has a symbol for each named node in which one is found, in order, with
the symbols that are found in the nodes around it. It stays as it is when nodes are put into new ones in which nothing is
found while in the others there is found what was found before, as it is wherever no rule looks into the new nodes. -/
theorem outline_of_resolved_nodes (root : SyntaxNode) (language : Language) (source : Bytes) :
    (∀ symbols, root.outline language source = symbols ↔ OutlineSymbol.trailsOfList [] symbols =
      (trailsOfList [] root.children).filterMap (language.trail? (lines (Utf8.decode source)))) ∧
    (∀ root' : SyntaxNode, Regrouped language root.children root'.children →
      root'.outline language source = root.outline language source) ∧
    ∀ root' : SyntaxNode, Wrapped language root.children root'.children →
      root'.outline language source = root.outline language source :=
  ⟨outline_eq_iff root language source, fun _ same => same.symbolsAmong_eq _ false,
    fun _ same => same.regrouped.symbolsAmong_eq _ false⟩

/-- A function in an implementation is a method, also within a node of an unknown type. -/
theorem outline_of_wrapped_function :
    let function := mk "function_item" none true none 1 2
      [mk "identifier" (some "name") true (some (utf8Bytes "f")) 1 1 []]
    let target := mk "type_identifier" (some "type") true (some (utf8Bytes "T")) 0 0 []
    let root (members : List SyntaxNode) := mk "source_file" none true none 0 3
      [mk "impl_item" none true none 0 3 [target, mk "declaration_list" (some "body") true none 0 3 members]]
    (root [function]).outline .rust [] = [.mk "impl T" .nameScope none 1 4 [.mk "f" .method none 2 3 []]] ∧
      (root [mk "wrapper" none true none 1 2 [function]]).outline .rust [] = (root [function]).outline .rust [] := by
  intro function target root
  obtain ⟨forest, -, wrapping⟩ := outline_of_resolved_nodes (root [function]) .rust []
  refine ⟨(forest _).mpr (by decide +kernel), wrapping _ ?_⟩
  have inside : Wrapped .rust ([function] ++ []) [mk "wrapper" none true none 1 2 [function]] :=
    .wrapped (by rfl) unseen_none (List.forall_mem_singleton.mpr unseen_none) (.refl _ _) .nil
  exact .within (by decide) (.cons target (.within (by decide) inside))

end SyntaxNode
end CodeAgent
