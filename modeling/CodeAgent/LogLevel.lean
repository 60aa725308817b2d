import CodeAgent.Text.LetterCase

/-! How loud the lines of a log are. -/
namespace CodeAgent
open CodeAgent.Text

/-- How loud a line is. -/
inductive LogLevel where
  | debug
  | info
  | warning
  | error
  | critical
  deriving DecidableEq, Repr

namespace LogLevel

/-- The name of a level. -/
def text : LogLevel → String
  | debug => "DEBUG"
  | info => "INFO"
  | warning => "WARNING"
  | error => "ERROR"
  | critical => "CRITICAL"

/-- The rank of a level. -/
def number : LogLevel → Nat
  | debug => 10
  | info => 20
  | warning => 30
  | error => 40
  | critical => 50

/-- Every level. -/
def all : List LogLevel := [debug, info, warning, error, critical]

/-- The level of a given name. -/
def ofText? (s : String) : Option LogLevel := all.find? (·.text == s)

/-- The rank that a name in any case sets: a level's own, or that of an alias, or else that of
information. -/
def threshold (name : String) : Nat :=
  match upper name with
  | "WARN" => 30
  | "FATAL" => 50
  | "NOTSET" => 0
  | s => ((ofText? s).getD info).number

/-- The loggers of libraries that only report warnings. -/
def quietLoggers : List String := ["httpcore", "httpx", "asyncio"]

end LogLevel
end CodeAgent
