import CodeAgent.Text.LetterCase
import CodeAgent.Text.Search
import CodeAgent.Wire.Values

/-! The three kinds of model backends, and how a model's name picks one. -/
namespace CodeAgent
open CodeAgent.Text

/-- A kind of model backend: two hosted ones, and one on the local machine. -/
inductive BackendKind where
  | openai
  | gemini
  | ollama
  deriving DecidableEq, Repr

namespace BackendKind

/-- The name of a kind. -/
def name : BackendKind → String
  | openai => "openai"
  | gemini => "gemini"
  | ollama => "ollama"

/-- The kind of a given name. -/
def ofName? (s : String) : Option BackendKind :=
  [openai, gemini, ollama].find? (·.name == s)

/-- The kind that serves a model, by its name. -/
def ofModel (model : String) : BackendKind :=
  let s := lower model
  if containsText s "gpt" then openai
  else if containsText s "gemini" then gemini
  else ollama

/-- The address of a kind, unless another one is given. -/
def defaultAddress : BackendKind → String
  | openai => "https://api.openai.com/v1"
  | gemini => "https://generativelanguage.googleapis.com/v1beta"
  | ollama => "http://127.0.0.1:11434"

/-- A kind needs a key. -/
def needsKey : BackendKind → Bool
  | ollama => false
  | _ => true

/-- The decoder for a streamed reply. -/
def decoder : BackendKind → Wire.Decoder
  | openai => .lines .events []
  | gemini => .values {}
  | ollama => .lines .objects []

end BackendKind

/-- A text without the slashes at its end. -/
def dropSlashes (s : String) : String :=
  String.ofList (trimEndBy (· == '/') s.toList)

/-- The address of a local server: a missing scheme is added, the name of the local machine becomes
its number, and slashes at the end fall away. -/
def localAddress (given : String) : String :=
  let s := trim given
  if s == "" then BackendKind.ollama.defaultAddress
  else
    let hasScheme := startsWith "http://".toList s.toList || startsWith "https://".toList s.toList
    let full := if hasScheme then s.toList else "http://".toList ++ s.toList
    dropSlashes (String.ofList
      (replaceEach "://localhost".toList "://127.0.0.1".toList full))

/-- The address that a backend of a kind uses. -/
def BackendKind.address (kind : BackendKind) (given : String) : String :=
  match kind with
  | .ollama => dropSlashes (localAddress given)
  | _ => dropSlashes (if given == "" then kind.defaultAddress else given)

end CodeAgent
