import CodeAgent.Pattern.Expr
import CodeAgent.Json.Reader
import CodeAgent.Text.Identifier

/-! Reading the written form of patterns. -/
namespace CodeAgent.Pattern
open CodeAgent.Text

/-- Why a text is no pattern. -/
inductive PatternError where
  | malformed
  | countTooLarge
  | modeConflict
  deriving DecidableEq, Repr

/-- A character of a pattern, or a backslash with the character after it. -/
structure Token where
  escaped : Bool
  char : Char
  deriving DecidableEq, Repr

/-- The tokens of a text; a backslash at its end is an error. -/
def tokens? : List Char → Option (List Token)
  | [] => some []
  | ['\\'] => none
  | '\\' :: c :: cs => (tokens? cs).map (⟨true, c⟩ :: ·)
  | c :: cs => (tokens? cs).map (⟨false, c⟩ :: ·)

/-- What is known while a pattern is read: the tokens left, the modes set for the whole pattern,
whether they asked for general character classes and for ASCII ones too, the names of groups, the
width of each group that is complete, the number of groups that were open before the look-behind
being read, and the groups that conditions refer to. -/
structure Progress where
  rest : List Token
  modes : Modes
  unicodeSet : Bool := false
  conflict : Bool := false
  names : List (String × Nat) := []
  widths : List (Option (Nat × Nat)) := [none]
  behindGroups : Option Nat := none
  conditions : List Nat := []

/-- Steps of reading a pattern. -/
abbrev ReadM := StateT Progress (Except PatternError)

private def fail {α : Type} : ReadM α := throw .malformed

def peek? : ReadM (Option Token) := do
  return (← get).rest.head?

def next? : ReadM (Option Token) := do
  let s ← get
  match s.rest with
  | [] => return none
  | t :: rest =>
    set { s with rest }
    return some t

def accept (c : Char) : ReadM Bool := do
  let s ← get
  match s.rest with
  | ⟨false, d⟩ :: rest =>
    if c == d then
      set { s with rest }
      return true
    else return false
  | _ => return false

private def takeUpTo (p : Char → Bool) : Nat → List Token → List Char × List Token
  | n + 1, ⟨false, c⟩ :: ts =>
    if p c then
      let (cs, rest) := takeUpTo p n ts
      (c :: cs, rest)
    else ([], ⟨false, c⟩ :: ts)
  | _, ts => ([], ts)

private def readWhile (n : Nat) (p : Char → Bool) : ReadM (List Char) := do
  let s ← get
  let (cs, rest) := takeUpTo p n s.rest
  set { s with rest }
  return cs

private def isOctal (c : Char) : Bool := '0' ≤ c && c ≤ '7'

def isAsciiLetter (c : Char) : Bool := c.toNat < 128 && c.isAlpha

private def charOf (n : Nat) : ReadM Char :=
  if n.isValidChar then return Char.ofNat n
  else if n < 0x110000 then return '\ufffd'
  else fail

private def octalValue (cs : List Char) : Nat :=
  cs.foldl (fun n c => n * 8 + (c.toNat - 48)) 0

private def hexEscape (digits : Nat) : ReadM Char := do
  let cs ← readWhile digits fun c => (Json.hexValue? c).isSome
  if cs.length != digits then fail
  else charOf (cs.foldl (fun n c => n * 16 + (Json.hexValue? c).getD 0) 0)

def controlEscape? : Char → Option Char
  | 'a' => some '\x07'
  | 'f' => some '\x0c'
  | 'n' => some '\n'
  | 'r' => some '\r'
  | 't' => some '\t'
  | 'v' => some '\x0b'
  | '\\' => some '\\'
  | _ => none

def classEscape? : Char → Option (Bool × CharClass)
  | 'd' => some (false, .digit)
  | 'D' => some (true, .digit)
  | 's' => some (false, .blank)
  | 'S' => some (true, .blank)
  | 'w' => some (false, .word)
  | 'W' => some (true, .word)
  | _ => none

def placeEscape? : Char → Option Place
  | 'A' => some .textStart
  | 'Z' => some .textEnd
  | 'b' => some .wordEdge
  | 'B' => some .notWordEdge
  | _ => none

private def isComplete (s : Progress) (index : Nat) : Bool :=
  ((s.widths[index]?).bind id).isSome

private def checkBehind (index : Nat) : ReadM Unit := do
  let s ← get
  match s.behindGroups with
  | none => return ()
  | some n => if isComplete s index && index < n then return () else fail

private def groupReference (m : Modes) (index : Nat) : ReadM Expr := do
  let s ← get
  if isComplete s index then
    checkBehind index
    return .again m index
  else fail

private def digitEscape (m : Modes) (d : Char) : ReadM Expr := do
  if d == '0' then
    let more ← readWhile 2 isOctal
    return .char m (← charOf (octalValue more))
  else
    let second ← readWhile 1 Char.isDigit
    match second with
    | [e] =>
      let octal := isOctal d && isOctal e
      let third ← if octal then readWhile 1 isOctal else pure []
      match third with
      | [f] =>
        let n := octalValue [d, e, f]
        if 0o377 < n then fail else return .char m (← charOf n)
      | _ => groupReference m ((d.toNat - 48) * 10 + (e.toNat - 48))
    | _ => groupReference m (d.toNat - 48)

def escape (m : Modes) (c : Char) : ReadM Expr := do
  match placeEscape? c, classEscape? c, controlEscape? c with
  | some p, _, _ => return .place m p
  | _, some (negated, k), _ => return .set m false [.cls negated k]
  | _, _, some d => return .char m d
  | none, none, none =>
    if c == 'x' then return .char m (← hexEscape 2)
    else if c == 'u' then return .char m (← hexEscape 4)
    else if c == 'U' then return .char m (← hexEscape 8)
    else if '0' ≤ c && c ≤ '9' then digitEscape m c
    else if isAsciiLetter c then fail
    else return .char m c

private def setEscape (c : Char) : ReadM SetItem := do
  match classEscape? c, controlEscape? c with
  | some (negated, k), _ => return .cls negated k
  | _, some d => return .char d
  | none, none =>
    if c == 'b' then return .char '\x08'
    else if c == 'x' then return .char (← hexEscape 2)
    else if c == 'u' then return .char (← hexEscape 4)
    else if c == 'U' then return .char (← hexEscape 8)
    else if isOctal c then
      let more ← readWhile 2 isOctal
      let n := octalValue (c :: more)
      if 0o377 < n then fail else return .char (← charOf n)
    else if c.isDigit || isAsciiLetter c then fail
    else return .char c

private def setMember (t : Token) : ReadM SetItem :=
  if t.escaped then setEscape t.char else return .char t.char

/-- The members of a set after its opening bracket, through the closing one. -/
private def setMembers : Nat → List SetItem → ReadM (List SetItem)
  | 0, _ => fail
  | fuel + 1, found => do
    match ← next? with
    | none => fail
    | some t =>
      if t == ⟨false, ']'⟩ && !found.isEmpty then return found.reverse
      else
        let low ← setMember t
        if ← accept '-' then
          match ← next? with
          | none => fail
          | some u =>
            if u == ⟨false, ']'⟩ then return (.char '-' :: low :: found).reverse
            else
              let high ← setMember u
              match low, high with
              | .char a, .char b => if b < a then fail else setMembers fuel (.range a b :: found)
              | _, _ => fail
        else setMembers fuel (low :: found)

private def readSet (m : Modes) : ReadM Expr := do
  let negated ← accept '^'
  let items ← setMembers ((← get).rest.length + 1) []
  match items with
  | [.char c] => return if negated then .notChar m c else .char m c
  | _ => return .set m negated items

private def nameUpTo (stop : Char) : ReadM (List Char × Bool) := do
  let s ← get
  let name := s.rest.takeWhile (· != ⟨false, stop⟩)
  match s.rest.dropWhile (· != ⟨false, stop⟩) with
  | [] => fail
  | _ :: rest =>
    set { s with rest }
    if name.isEmpty then fail else return (name.map (·.char), name.any (·.escaped))

private def isIdentifier (cs : List Char) : Bool :=
  match cs with
  | [] => false
  | c :: rest => isIdentifierStart c && rest.all isIdentifierPart

private def groupName (stop : Char) : ReadM String := do
  let (cs, escaped) ← nameUpTo stop
  if escaped || !isIdentifier cs then fail else return String.ofList cs

private def openGroup (name : Option String) : ReadM Nat := do
  let s ← get
  let index := s.widths.length
  let names ← match name with
    | none => pure s.names
    | some n => if s.names.any (·.1 == n) then fail else pure ((n, index) :: s.names)
  set { s with widths := s.widths ++ [none], names }
  return index

private def widthOf (s : Progress) (e : Expr) : Nat × Nat :=
  e.width fun i => ((s.widths[i]?).bind id).getD (0, 0)

private def closeGroup (index : Nat) (e : Expr) : ReadM Unit :=
  modify fun s => { s with widths := s.widths.set index (some (widthOf s e)) }

/-- The largest count of repetitions that can be written. -/
def maxCount : Nat := 4294967295

private def countOf (cs : List Char) : ReadM Nat :=
  let n := cs.foldl (fun n c => n * 10 + (c.toNat - 48)) 0
  if maxCount ≤ n then throw .countTooLarge else return n

/-- The counts of a repetition in braces, or nothing if the brace stands for itself. -/
private def braceCounts : ReadM (Option (Nat × Option Nat)) := do
  let s ← get
  let (low, rest) := takeUpTo Char.isDigit s.rest.length s.rest
  let (high, rest) := match rest with
    | ⟨false, ','⟩ :: more => takeUpTo Char.isDigit more.length more
    | _ => (low, rest)
  match rest with
  | ⟨false, '\x7d'⟩ :: after =>
    if s.rest.head? == some ⟨false, '\x7d'⟩ then return none
    else
      set { s with rest := after }
      let least ← if low.isEmpty then pure 0 else countOf low
      if high.isEmpty then return some (least, none)
      else
        let most ← countOf high
        if most < least then fail else return some (least, some most)
  | _ => return none

/-- The mode that a letter stands for: a change of the modes, or one of the two marks that fix the
character classes. -/
private def modeLetter? : Char → Option (Modes → Modes)
  | 'i' => some fun m => { m with foldCase := true }
  | 'm' => some fun m => { m with multiLine := true }
  | 's' => some fun m => { m with dotAll := true }
  | 'x' => some fun m => { m with spaced := true }
  | 'a' => some fun m => { m with asciiOnly := true }
  | 'u' => some fun m => { m with asciiOnly := false }
  | 't' => some id
  | _ => none

private def modeOff? : Char → Option (Modes → Modes)
  | 'i' => some fun m => { m with foldCase := false }
  | 'm' => some fun m => { m with multiLine := false }
  | 's' => some fun m => { m with dotAll := false }
  | 'x' => some fun m => { m with spaced := false }
  | _ => none

/-- The letters of a change of modes, from a given one on, up to the character after them. -/
private def modeLetters : Nat → List Char → Token → ReadM (List Char × Char)
  | 0, _, _ => fail
  | fuel + 1, found, t => do
    if t.escaped then fail
    else match modeLetter? t.char with
      | some _ => match ← next? with
        | none => fail
        | some u => modeLetters fuel (t.char :: found) u
      | none => return (found.reverse, t.char)

/-- A change of modes after a question mark: for the rest of the pattern (nothing), or for a
group. -/
private def modeChange (m : Modes) (t : Token) : ReadM (Option Modes) := do
  let fuel := (← get).rest.length + 2
  let (on, stop) ← modeLetters fuel [] t
  if on.contains 'a' && on.contains 'u' then fail
  else
    let changed := on.foldl (fun m c => ((modeLetter? c).getD id) m) m
    if stop == ')' && on.isEmpty then fail
    else if stop == ')' then
      modify fun s => { s with
        modes := changed
        unicodeSet := s.unicodeSet || on.contains 'u'
        conflict := s.conflict || (s.unicodeSet && on.contains 'a') ||
          (on.contains 'u' && m.asciiOnly) }
      return none
    else if on.contains 't' then fail
    else if stop == ':' then
      if on.isEmpty then fail else return some changed
    else if stop == '-' then
      match ← next? with
      | none => fail
      | some u =>
        let (off, stop) ← modeLetters fuel [] u
        if stop != ':' || off.isEmpty || off.any (fun c => (modeOff? c).isNone || on.contains c) then
          fail
        else return some (off.foldl (fun m c => ((modeOff? c).getD id) m) changed)
    else fail

/-- A part of a sequence: an expression, or the inside of a group that takes no name or number. -/
inductive Piece where
  | plain (e : Expr)
  | wrapped (e : Expr)

def Piece.expr : Piece → Expr
  | .plain e => e
  | .wrapped e => e

private def Piece.canRepeat : Piece → Bool
  | .plain (.place ..) => false
  | .plain (.repeat ..) => false
  | _ => true

private def skipComment : ReadM Unit := do
  let s ← get
  match s.rest.dropWhile (· != ⟨false, ')'⟩) with
  | [] => fail
  | _ :: rest => set { s with rest }

private def skipLine : ReadM Unit :=
  modify fun s => { s with rest := (s.rest.dropWhile (· != ⟨false, '\n'⟩)).drop 1 }

/-- The first of two marks that is there, as one of two values, and a third value if none is. -/
private def mark {α : Type} (c : Char) (a : α) (d : Char) (b : α) (other : ReadM α) : ReadM α := do
  if ← accept c then return a
  let second ← accept d
  if second then return b else other

private def repeated (pieces : List Piece) (least : Nat) (most : Option Nat) :
    ReadM (List Piece) := do
  match pieces with
  | [] => fail
  | p :: before =>
    if !p.canRepeat then fail
    else
      let greed ← mark '?' Greed.fewest '+' Greed.possessive (return .most)
      return .plain (.repeat greed least most p.expr) :: before

private def conditionGroup : ReadM Nat := do
  let (cs, escaped) ← nameUpTo ')'
  if escaped then fail
  else if isIdentifier cs then
    match (← get).names.find? (·.1 == String.ofList cs) with
    | some (_, index) => return index
    | none => fail
  else if cs.all isDigitChar then
    let index := cs.foldl (fun n c => n * 10 + (digitValue? c).getD 0) 0
    if index = 0 then fail
    else
      modify fun s => { s with conditions := index :: s.conditions }
      return index
  else fail

mutual

/-- Alternatives up to a closing parenthesis or the end. -/
def alternatives (m : Modes) (top : Bool) : Nat → ReadM Expr
  | 0 => fail
  | fuel + 1 => do
    let first ← sequence m top [] fuel
    if ← accept '|' then
      let s ← get
      let m := if top then s.modes else m
      return .either first (← moreAlternatives m fuel)
    else return first

/-- The alternatives after the first bar. -/
def moreAlternatives (m : Modes) : Nat → ReadM Expr
  | 0 => fail
  | fuel + 1 => do
    let e ← sequence m false [] fuel
    if ← accept '|' then return .either e (← moreAlternatives m fuel) else return e

/-- Pieces up to a bar, a closing parenthesis or the end; those found so far come reversed. -/
def sequence (m : Modes) (first : Bool) (pieces : List Piece) : Nat → ReadM Expr
  | 0 => fail
  | fuel + 1 => do
    let whole : ReadM Expr := return .ofList (pieces.reverse.map Piece.expr)
    match ← peek? with
    | none => whole
    | some ⟨false, '|'⟩ => whole
    | some ⟨false, ')'⟩ => whole
    | some t =>
      let _ ← next?
      let add (e : Expr) : ReadM Expr := sequence m first (.plain e :: pieces) fuel
      if t.escaped then add (← escape m t.char)
      else if m.spaced && (t.char == ' ' || (9 ≤ t.char.toNat && t.char.toNat ≤ 13)) then
        sequence m first pieces fuel
      else if m.spaced && t.char == '#' then
        skipLine
        sequence m first pieces fuel
      else if t.char == '[' then add (← readSet m)
      else if t.char == '?' then sequence m first (← repeated pieces 0 (some 1)) fuel
      else if t.char == '*' then sequence m first (← repeated pieces 0 none) fuel
      else if t.char == '+' then sequence m first (← repeated pieces 1 none) fuel
      else if t.char == '\x7b' then
        match ← braceCounts with
        | none => add (.char m '\x7b')
        | some (least, most) => sequence m first (← repeated pieces least most) fuel
      else if t.char == '.' then add (.any m)
      else if t.char == '^' then add (.place m (if m.multiLine then .lineStart else .textStart))
      else if t.char == '$' then add (.place m (if m.multiLine then .lineEnd else .lastEnd))
      else if t.char == '(' then
        if ← accept '?' then
          match ← next? with
          | none => fail
          | some t => special m first pieces t fuel
        else
          let index ← openGroup none
          let e ← inside m fuel
          closeGroup index e
          add (.group index e)
      else add (.char m t.char)

/-- The inside of a parenthesis through the closing one. -/
def inside (m : Modes) : Nat → ReadM Expr
  | 0 => fail
  | fuel + 1 => do
    let e ← alternatives m false fuel
    if ← accept ')' then return e else fail

/-- A parenthesis whose question mark is followed by a given token. -/
def special (m : Modes) (first : Bool) (pieces : List Piece) (t : Token) : Nat → ReadM Expr
  | 0 => fail
  | fuel + 1 => do
    let add (e : Expr) : ReadM Expr := sequence m first (.plain e :: pieces) fuel
    if t == ⟨false, 'P'⟩ then
      if ← accept '<' then
        let name ← groupName '>'
        let index ← openGroup (some name)
        let e ← inside m fuel
        closeGroup index e
        add (.group index e)
      else if ← accept '=' then
        let name ← groupName ')'
        match (← get).names.find? (·.1 == name) with
        | some (_, index) => add (← groupReference m index)
        | none => fail
      else fail
    else if t == ⟨false, ':'⟩ then
      let e ← inside m fuel
      sequence m first (.wrapped e :: pieces) fuel
    else if t == ⟨false, '#'⟩ then
      skipComment
      sequence m first pieces fuel
    else if t == ⟨false, '='⟩ then add (.ahead false (← inside m fuel))
    else if t == ⟨false, '!'⟩ then add (.ahead true (← inside m fuel))
    else if t == ⟨false, '<'⟩ then
      let negated ← mark '=' false '!' true fail
      let outer := (← get).behindGroups
      if outer.isNone then modify fun s => { s with behindGroups := some s.widths.length }
      let e ← inside m fuel
      if outer.isNone then modify fun s => { s with behindGroups := none }
      let s ← get
      let (least, most) := widthOf s e
      if least != most then fail else add (.behind negated least e)
    else if t == ⟨false, '('⟩ then
      let index ← conditionGroup
      checkBehind index
      let yes ← sequence m false [] fuel
      let no ← if ← accept '|' then sequence m false [] fuel else pure .empty
      if ← accept ')' then add (.ifGroup index yes no) else fail
    else if t == ⟨false, '>'⟩ then add (.atomic (← inside m fuel))
    else
      match ← modeChange m t with
      | none =>
        let s ← get
        if !first || !pieces.isEmpty then fail
        else sequence s.modes first pieces fuel
      | some changed =>
        let e ← inside changed fuel
        add (.group 0 e)

end

/-- The pattern that a text writes. -/
def read (m : Modes) (cs : List Char) : Except PatternError Expr :=
  match tokens? cs with
  | none => .error .malformed
  | some ts => do
    let start : Progress := { rest := ts, modes := m }
    let (e, s) ← (alternatives m true (3 * ts.length + 8)).run start
    if !s.rest.isEmpty || s.conditions.any (fun i => s.widths.length ≤ i) then .error .malformed
    else if s.conflict then .error .modeConflict
    else .ok e

end CodeAgent.Pattern
