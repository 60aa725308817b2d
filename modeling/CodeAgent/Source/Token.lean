/-! The tokens of Python source. -/
namespace CodeAgent.Source

/-- What a token is. The indentation of lines shows in tokens of its own. -/
inductive Lexeme where
  | name (s : String)
  | keyword (s : String)
  | number (imaginary : Bool)
  /-- A string literal, with its value. -/
  | text (value : List Char)
  | bytes
  /-- A formatted string literal, with the source of the expressions in it. -/
  | formatted (holes : List (List Char))
  | op (s : String)
  | newline
  | indent
  | dedent
  deriving DecidableEq, Repr

/-- A token with the lines of its first and its last character. -/
structure Token where
  lexeme : Lexeme
  first : Nat
  last : Nat
  deriving DecidableEq, Repr

namespace Lexeme

/-- The words that are no names. -/
def keywords : List String :=
  ["False", "None", "True", "and", "as", "assert", "async", "await", "break", "class", "continue",
    "def", "del", "elif", "else", "except", "finally", "for", "from", "global", "if", "import", "in",
    "is", "lambda", "nonlocal", "not", "or", "pass", "raise", "return", "try", "while", "with",
    "yield"]

/-- A word: a keyword or a name. -/
def ofWord (s : String) : Lexeme := if keywords.contains s then keyword s else name s

/-- The token shows the layout of lines, and stands for no text. -/
def isLayout : Lexeme → Bool
  | newline | indent | dedent => true
  | _ => false

end Lexeme
end CodeAgent.Source
