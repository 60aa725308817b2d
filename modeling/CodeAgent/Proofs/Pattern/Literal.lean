import CodeAgent.Pattern.Glob
import Mathlib.Data.List.Forall2
import Mathlib.Data.List.Infix

/-! Patterns that are a text: how the text is read when the characters that mean something in a pattern are marked,
where it is found, and where it is found as a whole word. -/
namespace CodeAgent.Pattern
open CodeAgent.Text

/-- A text between two edges of words. -/
def Expr.wholeWord (m : Modes) (query : List Char) : Expr :=
  .ofList [.place m .wordEdge, .literal m query, .place m .wordEdge]

/-- A token that stands for its character. -/
def Token.IsLiteral (t : Token) : Prop :=
  if t.escaped then isAsciiLetter t.char = false ∧ ¬ ('0' ≤ t.char ∧ t.char ≤ '9')
  else t.char ∉ ['(', ')', '[', '\x7b', '?', '*', '+', '|', '^', '$', '.']

/-- The token of a character that stands for itself. -/
def literalToken (c : Char) : Token := ⟨isMarked c, c⟩

theorem isLiteral_literalToken (c : Char) : (literalToken c).IsLiteral := by
  have marked : "()[]\x7b\x7d?*+-|^$\\.&~# \t\n\r\x0b\x0c".toList.all
      (fun c => isAsciiLetter c = false ∧ ¬ ('0' ≤ c ∧ c ≤ '9')) = true := by decide
  have bare : ['(', ')', '[', '\x7b', '?', '*', '+', '|', '^', '$', '.'].all isMarked = true := by decide
  unfold Token.IsLiteral literalToken
  split
  · next yes => exact of_decide_eq_true (List.all_eq_true.mp marked c (List.contains_iff_mem.mp yes))
  · next no => exact fun mem => no (List.all_eq_true.mp bare c mem)

theorem isLiteral_of_mem (query : List Char) : ∀ t ∈ query.map literalToken, t.IsLiteral := by
  intro t mem
  obtain ⟨c, -, rfl⟩ := List.mem_map.mp mem
  exact isLiteral_literalToken c

theorem char_literalToken (query : List Char) : (query.map literalToken).map (·.char) = query := by
  rw [List.map_map]
  exact List.map_id query

theorem tokens?_cons {c : Char} (other : c ≠ '\\') (cs : List Char) :
    tokens? (c :: cs) = (tokens? cs).map (⟨false, c⟩ :: ·) := by
  rw [tokens?]
  · rintro rfl; exact absurd rfl other
  · rintro _ _ rfl; exact absurd rfl other

theorem tokens?_mark (c : Char) (cs : List Char) : tokens? ('\\' :: c :: cs) = (tokens? cs).map (⟨true, c⟩ :: ·) := by
  rw [tokens?]

theorem tokens?_escapedChar (c : Char) (rest : List Char) : tokens? (escapedChar c ++ rest) =
    (tokens? rest).map (literalToken c :: ·) := by
  unfold escapedChar literalToken
  split
  · next marked =>
    rw [marked]
    exact tokens?_mark c rest
  · next bare =>
    rw [Bool.eq_false_iff.mpr bare]
    refine tokens?_cons ?_ rest
    rintro rfl
    exact bare (by decide)

theorem tokens?_escaped (query rest : List Char) : tokens? (query.flatMap escapedChar ++ rest) =
    (tokens? rest).map (query.map literalToken ++ ·) := by
  induction query with
  | nil => simp
  | cons c query ih =>
    rw [List.flatMap_cons, List.append_assoc, tokens?_escapedChar, ih, Option.map_map]
    rfl

theorem escape_literal {m : Modes} {c : Char} (letter : isAsciiLetter c = false) (digit : ¬ ('0' ≤ c ∧ c ≤ '9')) :
    escape m c = pure (.char m c) := by
  have other (d : Char) (h : isAsciiLetter d = true) : c ≠ d := by
    rintro rfl
    rw [h] at letter
    cases letter
  have place : placeEscape? c = none := by
    unfold placeEscape?
    split <;> first | rfl | exact absurd rfl (other _ (by decide))
  have cls : classEscape? c = none := by
    unfold classEscape?
    split <;> first | rfl | exact absurd rfl (other _ (by decide))
  have control : controlEscape? c = none ∨ c = '\\' := by
    unfold controlEscape?
    split <;> first | exact .inl rfl | exact .inr rfl | exact absurd rfl (other _ (by decide))
  rcases control with control | rfl
  · unfold escape
    rw [place, cls, control]
    simp [other 'x' (by decide), other 'u' (by decide), other 'U' (by decide), letter, digit]
  · rfl

section reading
variable {α β : Type} {s s' : Progress}

/-- A step of reading that succeeds hands on its value and what is left. -/
theorem run_bind_of_ok {x : ReadM α} {a : α} (done : x.run s = .ok (a, s')) (f : α → ReadM β) :
    (x >>= f).run s = (f a).run s' := by
  rw [StateT.run_bind, done]
  rfl

theorem run_peek? (s : Progress) : peek?.run s = .ok (s.rest.head?, s) := rfl

theorem run_next? {t : Token} {ts : List Token} (here : s.rest = t :: ts) :
    next?.run s = .ok (some t, { s with rest := ts }) := by
  unfold next?
  rw [run_bind_of_ok (rfl : (get : ReadM Progress).run s = .ok (s, s)), here]
  rfl

theorem run_sequence_literal {m : Modes} (plain : m.spaced = false) {t : Token} (literal : t.IsLiteral) (first : Bool)
    (pieces : List Piece) (fuel : Nat) {ts : List Token} (here : s.rest = t :: ts) :
    (sequence m first pieces (fuel + 1)).run s =
      (sequence m first (.plain (.char m t.char) :: pieces) fuel).run { s with rest := ts } := by
  rw [sequence, run_bind_of_ok (run_peek? s), here]
  dsimp only [List.head?_cons]
  split
  · next h => cases h
  · next h =>
    cases h
    exact absurd literal (by unfold Token.IsLiteral; decide)
  · next h =>
    cases h
    exact absurd literal (by unfold Token.IsLiteral; decide)
  · next h =>
    cases h
    rw [run_bind_of_ok (run_next? here)]
    unfold Token.IsLiteral at literal
    split at literal
    · next escaped =>
      rw [if_pos escaped, escape_literal literal.1 literal.2]
      rfl
    · next bare =>
      simp only [List.mem_cons, List.not_mem_nil, or_false, not_or] at literal
      simp [bare, plain, literal]

theorem run_sequence_literals {m : Modes} (plain : m.spaced = false) {ts : List Token}
    (literal : ∀ t ∈ ts, t.IsLiteral) (first : Bool) (pieces : List Piece) (fuel : Nat) {rest : List Token}
    (here : s.rest = ts ++ rest) :
    (sequence m first pieces (fuel + ts.length)).run s =
      (sequence m first (ts.reverse.map (fun t => .plain (.char m t.char)) ++ pieces) fuel).run { s with rest } := by
  induction ts generalizing s pieces with
  | nil =>
    obtain rfl : s.rest = rest := here
    rfl
  | cons t ts ih =>
    obtain ⟨own, others⟩ := List.forall_mem_cons.mp literal
    rw [List.length_cons, ← Nat.add_assoc, run_sequence_literal plain own first pieces _ here,
      ih others _ rfl]
    simp

theorem run_sequence_end {m : Modes} {first : Bool} (pieces : List Piece) (fuel : Nat)
    (ends : s.rest = [] ∨ ∃ more, s.rest = ⟨false, ')'⟩ :: more) :
    (sequence m first pieces (fuel + 1)).run s = .ok (.ofList (pieces.reverse.map Piece.expr), s) := by
  rw [sequence, run_bind_of_ok (run_peek? s)]
  obtain none | ⟨more, close⟩ := ends
  · rw [none]
    rfl
  · rw [close]
    rfl

theorem run_accept {c : Char} {more : List Token} (here : s.rest = ⟨false, c⟩ :: more) :
    (accept c).run s = .ok (true, { s with rest := more }) := by
  unfold accept
  rw [run_bind_of_ok (rfl : (get : ReadM Progress).run s = .ok (s, s)), here]
  dsimp only
  rw [if_pos (beq_self_eq_true c)]
  rfl

theorem run_accept_other {c : Char} (other : ∀ t ∈ s.rest.head?, t ≠ ⟨false, c⟩) :
    (accept c).run s = .ok (false, s) := by
  unfold accept
  rw [run_bind_of_ok (rfl : (get : ReadM Progress).run s = .ok (s, s))]
  split
  · next d rest here =>
    rw [here] at other
    rw [if_neg fun same => other _ rfl (by rw [beq_iff_eq.mp same])]
    rfl
  · rfl

/-- The alternatives of a text of literal tokens are the one that is the text. -/
theorem run_alternatives_literals {m : Modes} (plain : m.spaced = false) {ts : List Token}
    (literal : ∀ t ∈ ts, t.IsLiteral) (top : Bool) {fuel : Nat} (enough : ts.length + 2 ≤ fuel) {rest : List Token}
    (here : s.rest = ts ++ rest) (ends : rest = [] ∨ ∃ more, rest = ⟨false, ')'⟩ :: more) :
    (alternatives m top fuel).run s = .ok (.literal m (ts.map (·.char)), { s with rest }) := by
  obtain ⟨k, rfl⟩ := Nat.exists_eq_add_of_le enough
  have whole : Expr.ofList
      ((ts.reverse.map (fun t : Token => Piece.plain (.char m t.char)) ++ []).reverse.map Piece.expr) =
      .literal m (ts.map (·.char)) := by
    rw [List.append_nil, ← List.map_reverse, List.reverse_reverse, List.map_map, Expr.literal, List.map_map]
    rfl
  rw [show ts.length + 2 + k = (k + 1 + ts.length) + 1 by omega, alternatives]
  have read := run_sequence_literals plain literal top [] (k + 1) here
  rw [run_sequence_end (s := { s with rest }) _ k ends, whole] at read
  rw [run_bind_of_ok read, run_bind_of_ok (run_accept_other _)]
  · rfl
  · intro t head
    obtain rfl | ⟨more, rfl⟩ := ends
    · cases head
    · cases head
      decide

theorem run_sequence_edge (m : Modes) (first : Bool) (pieces : List Piece) (fuel : Nat) {ts : List Token}
    (here : s.rest = ⟨true, 'b'⟩ :: ts) :
    (sequence m first pieces (fuel + 1)).run s =
      (sequence m first (.plain (.place m .wordEdge) :: pieces) fuel).run { s with rest := ts } := by
  rw [sequence, run_bind_of_ok (run_peek? s), here]
  dsimp only [List.head?_cons]
  rw [run_bind_of_ok (run_next? here)]
  rfl

theorem run_sequence_group (m : Modes) (plain : m.spaced = false) (first : Bool) (pieces : List Piece) (fuel : Nat)
    {ts : List Token} (here : s.rest = ⟨false, '('⟩ :: ⟨false, '?'⟩ :: ⟨false, ':'⟩ :: ts) :
    (sequence m first pieces (fuel + 2)).run s =
      (inside m fuel >>= fun e => sequence m first (.wrapped e :: pieces) fuel).run { s with rest := ts } := by
  rw [sequence, run_bind_of_ok (run_peek? s), here]
  dsimp only [List.head?_cons]
  change (next? >>= _).run s = _
  rw [run_bind_of_ok (run_next? here)]
  simp only [plain, Bool.false_and, Bool.false_eq_true, if_false]
  change (accept '?' >>= _).run _ = _
  rw [run_bind_of_ok (run_accept rfl), if_pos rfl, run_bind_of_ok (run_next? rfl)]
  dsimp only
  rw [special]
  rfl

theorem run_inside {m : Modes} {fuel : Nat} {e : Expr} {more : List Token}
    (read : (alternatives m false fuel).run s = .ok (e, s')) (close : s'.rest = ⟨false, ')'⟩ :: more) :
    (inside m (fuel + 1)).run s = .ok (e, { s' with rest := more }) := by
  rw [inside, run_bind_of_ok read, run_bind_of_ok (run_accept close)]
  rfl

end reading

/-- A text whose characters are marked where they have to be is read as the pattern that is the text. -/
theorem read_escaped {m : Modes} (plain : m.spaced = false) (query : List Char) :
    read m (query.flatMap escapedChar) = .ok (.literal m query) := by
  have toks : tokens? (query.flatMap escapedChar) = some (query.map literalToken) := by
    have := tokens?_escaped query []
    simpa [tokens?] using this
  unfold read
  rw [toks]
  dsimp only
  rw [run_alternatives_literals plain (isLiteral_of_mem query) true (by omega) (List.append_nil _).symm (.inl rfl),
    char_literalToken]
  rfl

/-- The same text between marks for the edges of words is read as the text between two such edges. -/
theorem read_escaped_word {m : Modes} (plain : m.spaced = false) (query : List Char) :
    read m ("\\b(?:".toList ++ query.flatMap escapedChar ++ ")\\b".toList) =
      .ok (.wholeWord m query) := by
  have toks : tokens? ("\\b(?:".toList ++ query.flatMap escapedChar ++ ")\\b".toList) =
      some (⟨true, 'b'⟩ :: ⟨false, '('⟩ :: ⟨false, '?'⟩ :: ⟨false, ':'⟩ ::
        (query.map literalToken ++ [⟨false, ')'⟩, ⟨true, 'b'⟩])) := by
    rw [List.append_assoc]
    change tokens? ('\\' :: 'b' :: '(' :: '?' :: ':' :: (query.flatMap escapedChar ++ ")\\b".toList)) = _
    rw [tokens?_mark, tokens?_cons (by decide), tokens?_cons (by decide), tokens?_cons (by decide), tokens?_escaped]
    rfl
  unfold read
  rw [toks]
  dsimp only
  have length : 3 * (⟨true, 'b'⟩ :: ⟨false, '('⟩ :: ⟨false, '?'⟩ :: ⟨false, ':'⟩ ::
      (query.map literalToken ++ [⟨false, ')'⟩, ⟨true, 'b'⟩])).length + 8 = ((3 * query.length + 20 + 1) + 1 + 2) + 1 + 1 := by
    simp
    omega
  rw [length, alternatives]
  have enough : (query.map literalToken).length + 2 ≤ 3 * query.length + 20 + 1 := by
    rw [List.length_map]
    omega
  have group := run_inside
    (run_alternatives_literals (s := { rest := query.map literalToken ++ [⟨false, ')'⟩, ⟨true, 'b'⟩], modes := m }) plain
      (isLiteral_of_mem query) false enough rfl (.inr ⟨_, rfl⟩)) rfl
  rw [char_literalToken] at group
  have whole : (sequence m true [] (((3 * query.length + 20 + 1) + 1 + 2) + 1)).run
      { rest := ⟨true, 'b'⟩ :: ⟨false, '('⟩ :: ⟨false, '?'⟩ :: ⟨false, ':'⟩ ::
          (query.map literalToken ++ [⟨false, ')'⟩, ⟨true, 'b'⟩]), modes := m } =
      .ok (.wholeWord m query, { rest := [], modes := m }) := by
    rw [run_sequence_edge m true [] _ rfl, run_sequence_group m plain true _ _ rfl, run_bind_of_ok group,
      run_sequence_edge m true _ _ rfl, run_sequence_end _ _ (.inl rfl)]
    rfl
  rw [run_bind_of_ok whole, run_bind_of_ok (run_accept_other (by simp))]
  rfl

theorem eraseDups_toList {α : Type} [BEq α] (o : Option α) : o.toList.eraseDups = o.toList := by
  cases o <;> rfl

theorem flatMap_toList {α β : Type} (o : Option α) (f : α → Option β) :
    (o.toList.flatMap fun a => (f a).toList) = (o.bind f).toList := by
  cases o <;> simp

/-- A text matches where its characters stand one after the other. -/
theorem run_literal (keep : Bool) (m : Modes) (cs : List Char) (s : Cursor) :
    run keep (.literal m cs) s = (stepText m cs s).toList := by
  induction cs generalizing s with
  | nil => rfl
  | cons c cs ih =>
    cases cs with
    | nil =>
      change (s.step? (sameChar m c)).toList = _
      cases h : s.step? (sameChar m c) <;> simp [stepText, h]
    | cons d cs =>
      change (((s.step? (sameChar m c)).toList).flatMap (run keep (.literal m (d :: cs)))).eraseDups = _
      rw [funext ih, flatMap_toList, eraseDups_toList]
      rfl

/-- A text takes the characters at a position that are the same as its own, and only these. -/
theorem stepText_eq_some_iff {m : Modes} {cs : List Char} {s t : Cursor} : stepText m cs s = some t ↔
    ∃ used rest, s.after = used ++ rest ∧ List.Forall₂ (fun c d => sameChar m c d = true) cs used ∧
      t = { s with before := used.reverse ++ s.before, after := rest } := by
  induction cs generalizing s with
  | nil =>
    constructor
    · intro done
      cases done
      exact ⟨[], _, rfl, .nil, rfl⟩
    · rintro ⟨used, rest, after, same, rfl⟩
      cases same
      rw [List.nil_append] at after
      subst after
      rfl
  | cons c cs ih =>
    rw [stepText, Option.bind_eq_some_iff]
    simp only [ih]
    constructor
    · rintro ⟨next, stepped, used, rest, after, same, rfl⟩
      unfold Cursor.step? at stepped
      split at stepped
      · cases stepped
      · next d ds here =>
        split at stepped
        · next equal =>
          cases stepped
          refine ⟨d :: used, rest, by rw [here]; exact congrArg _ after, .cons equal same, ?_⟩
          simp
        · cases stepped
    · rintro ⟨used, rest, after, same, rfl⟩
      cases same with
      | @cons _ d _ used equal same =>
        refine ⟨{ s with before := d :: s.before, after := used ++ rest }, ?_, used, rest, rfl, same, ?_⟩
        · unfold Cursor.step?
          rw [after]
          dsimp only [List.cons_append]
          rw [if_pos equal]
        · simp

/-- A pattern is found in a text if it matches at one of its positions. -/
theorem foundFrom_iff {keep : Bool} {e : Expr} {before cs : List Char} : foundFrom keep e before cs = true ↔
    ∃ pre post, cs = pre ++ post ∧ run keep e ⟨pre.reverse ++ before, post, []⟩ ≠ [] := by
  have here (s : Cursor) : (!(run keep e s).isEmpty) = true ↔ run keep e s ≠ [] := by
    rw [Bool.not_eq_true', List.isEmpty_eq_false_iff]
  induction cs generalizing before with
  | nil =>
    rw [foundFrom, here]
    constructor
    · exact fun found => ⟨[], [], rfl, found⟩
    · rintro ⟨pre, post, whole, found⟩
      obtain ⟨rfl, rfl⟩ := List.nil_eq_append_iff.mp whole
      exact found
  | cons c cs ih =>
    rw [foundFrom, Bool.or_eq_true, here]
    constructor
    · rintro (found | found)
      · exact ⟨[], c :: cs, rfl, found⟩
      · obtain ⟨pre, post, rfl, there⟩ := ih.mp found
        exact ⟨c :: pre, post, rfl, by simpa using there⟩
    · rintro ⟨pre, post, whole, found⟩
      cases pre with
      | nil =>
        obtain rfl : c :: cs = post := whole
        exact .inl found
      | cons d pre =>
        obtain ⟨rfl, rfl⟩ := List.cons.inj whole
        exact .inr (ih.mpr ⟨pre, post, rfl, by simpa using found⟩)

/-- A text is found in another one where characters that are the same as its own stand one after the other. -/
theorem foundIn_literal_iff {m : Modes} {query line : List Char} : (Expr.literal m query).foundIn line = true ↔
    ∃ pre mid post, line = pre ++ mid ++ post ∧ List.Forall₂ (fun c d => sameChar m c d = true) query mid := by
  rw [Expr.foundIn, foundFrom_iff]
  simp only [run_literal]
  constructor
  · rintro ⟨pre, rest, rfl, found⟩
    cases stepped : stepText m query ⟨pre.reverse ++ [], rest, []⟩ with
    | none =>
      rw [stepped] at found
      exact absurd rfl found
    | some t =>
      obtain ⟨mid, post, after, same, -⟩ := stepText_eq_some_iff.mp stepped
      exact ⟨pre, mid, post, by rw [List.append_assoc]; exact congrArg _ after, same⟩
  · rintro ⟨pre, mid, post, rfl, same⟩
    refine ⟨pre, mid ++ post, List.append_assoc _ _ _, ?_⟩
    rw [stepText_eq_some_iff.mpr ⟨mid, post, rfl, same, rfl⟩]
    exact List.cons_ne_nil _ _

/-- Where case counts, a text is found in another one exactly if it is a part of it. -/
theorem foundIn_literal_iff_infix {m : Modes} (cased : m.foldCase = false) {query line : List Char} :
    (Expr.literal m query).foundIn line = true ↔ query <:+: line := by
  have same : (fun c d => sameChar m c d = true) = (Eq : Char → Char → Prop) := by
    funext c d
    rw [sameChar, cased]
    exact propext beq_iff_eq
  rw [foundIn_literal_iff, same]
  simp only [List.forall₂_eq_eq_eq]
  constructor
  · rintro ⟨pre, _, post, rfl, rfl⟩
    exact ⟨pre, post, rfl⟩
  · rintro ⟨pre, post, rfl⟩
    exact ⟨pre, query, post, rfl, rfl⟩

/-- A character, if there is one, is part of a word. -/
def inWord (c? : Option Char) : Bool := c?.any isWordChar

/-- Between what is before a place of a text and what is after it, a word starts or ends. -/
def WordEdge (before after : List Char) : Prop := inWord before.getLast? ≠ inWord after.head?

theorem holds_wordEdge {m : Modes} (general : m.asciiOnly = false) (s : Cursor) :
    Place.wordEdge.holds m s = true ↔ WordEdge s.before.reverse s.after := by
  have word (c? : Option Char) : (c?.map (CharClass.word.has m.asciiOnly)).getD false = inWord c? := by
    rw [general]
    cases c? <;> rfl
  unfold Place.holds atEdge WordEdge
  dsimp only
  rw [word, word, List.getLast?_reverse]
  cases before : s.before <;> cases after : s.after <;> simp [inWord]

theorem run_wholeWord (keep : Bool) (m : Modes) (query : List Char) (s : Cursor) :
    run keep (.wholeWord m query) s = ((if Place.wordEdge.holds m s then stepText m query s else none).bind
      fun t => if Place.wordEdge.holds m t then some t else none).toList := by
  have edge (s : Cursor) : run keep (.place m .wordEdge) s =
      (if Place.wordEdge.holds m s then some s else none).toList := by
    rw [run]
    split <;> rfl
  have inner (s : Cursor) : run keep (.seq (.literal m query) (.place m .wordEdge)) s =
      ((stepText m query s).bind fun t => if Place.wordEdge.holds m t then some t else none).toList := by
    rw [run, run_literal, funext edge, flatMap_toList, eraseDups_toList]
  change (((run keep (.place m .wordEdge) s).flatMap
    (run keep (.seq (.literal m query) (.place m .wordEdge)))).eraseDups) = _
  rw [edge, funext inner, flatMap_toList, eraseDups_toList]
  split <;> rfl

/-- A text is found as a whole word where characters that are the same as its own stand between edges of words. -/
theorem foundIn_wholeWord_iff {m : Modes} (general : m.asciiOnly = false) {query line : List Char} :
    (Expr.wholeWord m query).foundIn line = true ↔
      ∃ pre mid post, line = pre ++ mid ++ post ∧ List.Forall₂ (fun c d => sameChar m c d = true) query mid ∧
        WordEdge pre (mid ++ post) ∧ WordEdge (pre ++ mid) post := by
  rw [Expr.foundIn, foundFrom_iff]
  simp only [run_wholeWord, List.append_nil]
  constructor
  · rintro ⟨pre, rest, rfl, found⟩
    split at found
    · next first =>
      cases stepped : stepText m query ⟨pre.reverse, rest, []⟩ with
      | none =>
        rw [stepped] at found
        exact absurd rfl found
      | some t =>
        obtain ⟨mid, post, rfl, same, rfl⟩ := stepText_eq_some_iff.mp stepped
        rw [stepped, Option.bind_some] at found
        split at found
        · next last =>
          rw [holds_wordEdge general] at first last
          simp only [List.reverse_append, List.reverse_reverse] at first last
          exact ⟨pre, mid, post, (List.append_assoc _ _ _).symm, same, first, last⟩
        · exact absurd rfl found
    · exact absurd rfl found
  · rintro ⟨pre, mid, post, rfl, same, first, last⟩
    refine ⟨pre, mid ++ post, List.append_assoc _ _ _, ?_⟩
    have first : Place.wordEdge.holds m ⟨pre.reverse, mid ++ post, []⟩ = true := by
      rw [holds_wordEdge general, List.reverse_reverse]
      exact first
    have last : Place.wordEdge.holds m ⟨mid.reverse ++ pre.reverse, post, []⟩ = true := by
      rw [holds_wordEdge general, ← List.reverse_append, List.reverse_reverse]
      exact last
    rw [if_pos first, stepText_eq_some_iff.mpr ⟨mid, post, rfl, same, rfl⟩, Option.bind_some, if_pos last]
    exact List.cons_ne_nil _ _

/-- A text stands in a line with no part of a word right before or after it. -/
def Delimited (query line : List Char) : Prop :=
  ∃ pre post, line = pre ++ query ++ post ∧ inWord pre.getLast? = false ∧ inWord post.head? = false

/-- A text begins and ends with a part of a word. -/
structure EndsInWords (query : List Char) : Prop where
  first : inWord query.head? = true
  last : inWord query.getLast? = true

theorem sameChar_self (m : Modes) (c : Char) : sameChar m c c = true := by
  unfold sameChar
  split
  · dsimp only
    rw [beq_self_eq_true, Bool.true_or]
  · exact beq_self_eq_true c

/-- Wherever a text stands in a line by itself, it is found there as a whole word, if it begins and ends with a part of
a word. For no other text is this so: it is not even found in itself. -/
theorem finds_delimited_iff {m : Modes} (general : m.asciiOnly = false) {query : List Char} (filled : query ≠ []) :
    (∀ line, Delimited query line → (Expr.wholeWord m query).foundIn line = true) ↔ EndsInWords query := by
  have head (post : List Char) : (query ++ post).head? = query.head? := List.head?_append_of_ne_nil _ filled
  have last (pre : List Char) : (pre ++ query).getLast? = query.getLast? := List.getLast?_append_of_ne_nil _ filled
  constructor
  · intro finds
    obtain ⟨pre, mid, post, whole, same, first, second⟩ :=
      (foundIn_wholeWord_iff general).mp (finds query ⟨[], [], by simp, rfl, rfl⟩)
    have length := congrArg List.length whole
    rw [List.length_append, List.length_append, ← same.length_eq] at length
    obtain rfl : pre = [] := List.length_eq_zero_iff.mp (by omega)
    obtain rfl : post = [] := List.length_eq_zero_iff.mp (by omega)
    rw [List.nil_append, List.append_nil] at whole
    subst whole
    rw [List.append_nil] at first
    exact ⟨Bool.ne_false_iff.mp first.symm, Bool.ne_false_iff.mp second⟩
  · rintro ends line ⟨pre, post, rfl, before, after⟩
    refine (foundIn_wholeWord_iff general).mpr ⟨pre, query, post, rfl,
      List.forall₂_same.mpr fun c _ => sameChar_self m c, ?_, ?_⟩
    · rw [WordEdge, before, head, ends.first]
      exact Bool.false_ne_true
    · rw [WordEdge, after, last, ends.last]
      exact Bool.false_ne_true.symm

end CodeAgent.Pattern
