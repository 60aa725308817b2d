import CodeAgent.Json.Value
import CodeAgent.Decimal.Shortest
import CodeAgent.Text.Printable

/-! Writing JSON text, and values as they are shown in running text. -/
namespace CodeAgent.Json
open CodeAgent.Decimal CodeAgent.Text

/-- How JSON text is laid out. -/
structure Style where
  afterItem : List Char
  afterKey : List Char
  asciiOnly : Bool
  sorted : Bool
  indent : Option Nat

/-- One line, ASCII only, a space after every comma and colon. -/
def Style.line : Style := ⟨[',', ' '], [':', ' '], true, false, none⟩

/-- One line with sorted keys, ASCII only: equal objects have equal text. -/
def Style.canonical : Style := { Style.line with sorted := true }

/-- One line with sorted keys and no spaces, characters beyond ASCII as they are. -/
def Style.compact : Style := ⟨[','], [':'], false, true, none⟩

/-- One element a line, indented by two spaces, characters beyond ASCII as they are. -/
def Style.pretty : Style := ⟨[','], [':', ' '], false, false, some 2⟩

/-- Floating-point numbers in JSON. -/
def floatFormat : FloatFormat := ⟨"Infinity", "NaN"⟩

/-- The numeric escape of a number below `2 ^ 16`. -/
def unitEscape (n : Nat) : List Char :=
  '\\' :: 'u' :: hexPadded 4 n

/-- One character of a string. -/
def escapeChar (asciiOnly : Bool) (c : Char) : List Char :=
  if c == '"' then ['\\', '"']
  else if c == '\\' then ['\\', '\\']
  else if c == '\n' then ['\\', 'n']
  else if c == '\r' then ['\\', 'r']
  else if c == '\t' then ['\\', 't']
  else if c == '\x0c' then ['\\', 'f']
  else if c == '\x08' then ['\\', 'b']
  else if c.toNat < 32 then unitEscape c.toNat
  else if c.toNat < 127 || !asciiOnly then [c]
  else if c.toNat < 0x10000 then unitEscape c.toNat
  else
    let n := c.toNat - 0x10000
    unitEscape (0xd800 + n / 0x400) ++ unitEscape (0xdc00 + n % 0x400)

/-- A string with its quotes. -/
def stringText (asciiOnly : Bool) (s : String) : List Char :=
  '"' :: s.toList.flatMap (escapeChar asciiOnly) ++ ['"']

/-- Texts one after the other, with a separator between neighbours. -/
def joined (sep : List Char) : List (List Char) → List Char
  | [] => []
  | [x] => x
  | x :: xs => x ++ sep ++ joined sep xs

/-- Elements between brackets, each on a line of its own where the style indents. -/
def bracketed (style : Style) (level : Nat) (left right : Char) (items : List (List Char)) :
    List Char :=
  if items.isEmpty then [left, right]
  else match style.indent with
    | none => left :: joined style.afterItem items ++ [right]
    | some width =>
      let newline (n : Nat) : List Char := '\n' :: List.replicate (width * n) ' '
      left :: newline (level + 1) ++ joined (style.afterItem ++ newline (level + 1)) items ++
        newline level ++ [right]

mutual

/-- The text of a value that stands at a given depth. -/
def render (style : Style) (level : Nat) : Json → List Char
  | .null => ['n', 'u', 'l', 'l']
  | .bool true => ['t', 'r', 'u', 'e']
  | .bool false => ['f', 'a', 'l', 's', 'e']
  | .int n => intDigits n
  | .float x => (floatFormat.text x).toList
  | .str s => stringText style.asciiOnly s
  | .arr items => bracketed style level '[' ']' (renderItems style (level + 1) items)
  | .obj fields =>
    let members := renderFields style (level + 1) fields
    let members := if style.sorted then members.mergeSort (fun a b => decide (a.1 ≤ b.1)) else members
    bracketed style level '{' '}' (members.map fun m =>
      stringText style.asciiOnly m.1 ++ style.afterKey ++ m.2)

/-- The texts of the elements of an array. -/
def renderItems (style : Style) (level : Nat) : List Json → List (List Char)
  | [] => []
  | v :: vs => render style level v :: renderItems style level vs

/-- The keys of an object with the texts of their values. -/
def renderFields (style : Style) (level : Nat) : List (String × Json) → List (String × List Char)
  | [] => []
  | (k, v) :: fs => (k, render style level v) :: renderFields style level fs

end

/-- The text of a value. -/
def write (style : Style) (v : Json) : String :=
  String.ofList (render style 0 v)

mutual

/-- A value inside another one that is shown in running text: strings stand in quotes. -/
def shown : Json → String
  | .null => "None"
  | .bool true => "True"
  | .bool false => "False"
  | .int n => intText n
  | .float x => plainFormat.text x
  | .str s => quoted s
  | .arr items => "[" ++ String.intercalate ", " (shownItems items) ++ "]"
  | .obj fields => "\x7b" ++ String.intercalate ", " (shownFields fields) ++ "\x7d"

/-- The elements of an array as they are shown. -/
def shownItems : List Json → List String
  | [] => []
  | v :: vs => shown v :: shownItems vs

/-- The members of an object as they are shown. -/
def shownFields : List (String × Json) → List String
  | [] => []
  | (k, v) :: fs => (quoted k ++ ": " ++ shown v) :: shownFields fs

end

/-- A value in running text: a string stands for itself. -/
def display : Json → String
  | .str s => s
  | v => shown v

end CodeAgent.Json
