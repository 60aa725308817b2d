import CodeAgent.Decimal.Digits
import CodeAgent.Text.Blank

/-! Arguments of a command: options by their names, and the others by their places. -/
namespace CodeAgent.CommandLine
open CodeAgent.Text CodeAgent.Decimal

/-- An option: its name, a letter for it, and whether a value follows. -/
structure OptionSpec where
  name : String
  letter : Option Char := none
  takesValue : Bool := true

/-- An option as given: its name, and its value if it takes one. -/
structure Given where
  name : String
  value : Option String := none

/-- Arguments sorted out. -/
structure Arguments where
  options : List Given := []
  positional : List String := []

namespace Arguments

/-- An option has been given. -/
def has (a : Arguments) (name : String) : Bool := a.options.any (·.name == name)

/-- The value of an option; the last one counts. -/
def value? (a : Arguments) (name : String) : Option String :=
  (a.options.reverse.find? (·.name == name)).bind (·.value)

/-- What one argument gives: options, and perhaps the name of one that waits for its value. -/
structure Reading where
  options : List Given := []
  waiting : Option String := none

/-- The options that letters after a dash stand for. One with a value takes the rest as its value. -/
def readLetters (specs : List OptionSpec) : List Char → Option Reading
  | [] => some {}
  | c :: cs => match specs.find? (·.letter == some c) with
    | none => none
    | some spec =>
      if !spec.takesValue then
        (readLetters specs cs).map fun r => { r with options := ⟨spec.name, none⟩ :: r.options }
      else if cs.isEmpty then some { waiting := some spec.name }
      else some { options := [⟨spec.name, some (String.ofList cs)⟩] }

/-- The option that an argument names, with its value if there is one after an equality sign. -/
def readOption (specs : List OptionSpec) (argument : String) : Option Reading :=
  let cs := argument.toList
  let name := String.ofList (cs.takeWhile (· != '='))
  let attached := (cs.dropWhile (· != '=')).tail?.map String.ofList
  match specs.find? (·.name == name), attached with
  | some spec, some v =>
    if spec.takesValue then some { options := [⟨spec.name, some v⟩] } else none
  | some spec, none =>
    some (if spec.takesValue then { waiting := some spec.name } else { options := [⟨spec.name, none⟩] })
  | none, _ => if "--".toList.isPrefixOf cs then none else readLetters specs (cs.drop 1)

private def withOptions (given : List Given) (a : Arguments) : Arguments :=
  { a with options := given ++ a.options }

/-- Sort out arguments, unless one is no option or lacks its value. Two dashes end the options, and so
does the first other argument unless they may be mixed. -/
def read? (specs : List OptionSpec) (mixed : Bool) : List String → Option Arguments
  | [] => some {}
  | argument :: rest =>
    if argument == "--" then some { positional := rest }
    else if argument.startsWith "-" && argument != "-" then
      match readOption specs argument with
      | none => none
      | some { options, waiting := none } => (read? specs mixed rest).map (withOptions options)
      | some { options, waiting := some name } => match rest with
        | [] => none
        | v :: more => (read? specs mixed more).map (withOptions (options ++ [⟨name, some v⟩]))
    else if mixed then
      (read? specs mixed rest).map fun a => { a with positional := argument :: a.positional }
    else some { positional := argument :: rest }

end Arguments

/-! The commands, and how they are called. -/

/-- A command. -/
inductive Command where
  | chat (message : String) (model workspace : Option String)
  | index (workspace : String)
  | search (query workspace : String) (limit : Int)
  | tool (name parameters : String) (workspace : Option String)
  | prompt (workspace : Option String)
  | models
  deriving DecidableEq, Repr

/-- What a user asks for. -/
inductive Call (α : Type) where
  | run (what : α)
  | help
  | misuse
  deriving DecidableEq, Repr

/-- The name of a command. -/
inductive CommandName where
  | chat
  | index
  | search
  | tool
  | prompt
  | models
  deriving DecidableEq, Repr

namespace CommandName

/-- The name as it is written. -/
def text : CommandName → String
  | chat => "chat"
  | index => "index"
  | search => "search"
  | tool => "tool"
  | prompt => "prompt"
  | models => "models"

/-- All names. -/
def all : List CommandName := [chat, index, search, tool, prompt, models]

/-- The command of a name. -/
def ofText? (s : String) : Option CommandName := all.find? (·.text == s)

private def help : OptionSpec := { name := "--help", takesValue := false }
private def model : OptionSpec := ⟨"--model", some 'm', true⟩
private def workspace : OptionSpec := ⟨"--workspace", some 'w', true⟩
private def limit : OptionSpec := ⟨"--limit", some 'n', true⟩
private def parameters : OptionSpec := ⟨"--args", some 'a', true⟩

/-- The options of a command. -/
def options : CommandName → List OptionSpec
  | chat => [model, workspace, help]
  | index | models => [help]
  | search => [workspace, limit, help]
  | tool => [parameters, workspace, help]
  | prompt => [workspace, help]

end CommandName

private def plainDigits? : List Char → Option (List Char)
  | [] => none
  | [d] => if (digitValue? d).isSome then some [d] else none
  | d :: '_' :: cs => if (digitValue? d).isSome then (plainDigits? cs).map (d :: ·) else none
  | d :: cs => if (digitValue? d).isSome then (plainDigits? cs).map (d :: ·) else none

/-- An integer as an argument: a sign and digits, with single underscores between them. -/
def integer? (s : String) : Option Int :=
  let cs := trimChars s.toList
  let (negative, unsigned) := match cs with
    | '-' :: rest => (true, rest)
    | '+' :: rest => (false, rest)
    | _ => (false, cs)
  match plainDigits? unsigned with
  | some digits =>
    if maxIntegerDigits < digits.length then none
    else
      let n : Int := digitsValue digits
      some (if negative then -n else n)
  | none => none

/-- The command of a name with arguments that were sorted out. -/
def Command.ofArguments? (name : CommandName) (a : Arguments) : Option Command :=
  let workspace := a.value? "--workspace"
  match name, a.positional with
  | .chat, [message] => some (.chat message (a.value? "--model") workspace)
  | .index, [] => some (.index ".")
  | .index, [folder] => some (.index folder)
  | .search, [query] => match a.value? "--limit" with
    | none => some (.search query (workspace.getD ".") 20)
    | some n => (integer? n).map (.search query (workspace.getD "."))
  | .tool, [called] => some (.tool called ((a.value? "--args").getD "\x7b\x7d") workspace)
  | .prompt, [] => some (.prompt workspace)
  | .models, [] => some .models
  | _, _ => none

/-- The call of a command with arguments. -/
def Command.read (name : CommandName) (arguments : List String) : Call Command :=
  match Arguments.read? name.options true arguments with
  | none => .misuse
  | some a =>
    if a.has "--help" then .help
    else match Command.ofArguments? name a with
      | some c => .run c
      | none => .misuse

/-- A call of the program: the options before the name of a command, and what is left for the
command. -/
structure Invocation where
  config : Option String
  logLevel : Option String
  command : CommandName
  arguments : List String
  deriving DecidableEq, Repr

/-- What the program is asked for as a whole. -/
inductive Asked where
  | version
  | call (c : Call Invocation)
  deriving DecidableEq, Repr

namespace Asked

/-- The options of the program. -/
def options : List OptionSpec :=
  [⟨"--config", some 'c', true⟩, ⟨"--log-level", none, true⟩, ⟨"--version", some 'v', false⟩,
    ⟨"--help", none, false⟩]

/-- What arguments ask for. The version and the help come before all else, the first one first. -/
def read (arguments : List String) : Asked :=
  match Arguments.read? options false arguments with
  | none => .call .misuse
  | some a =>
    match a.options.find? fun g => g.name == "--version" || g.name == "--help" with
    | some g => if g.name == "--version" then .version else .call .help
    | none => match a.positional with
      | [] => .call .misuse
      | name :: rest => match CommandName.ofText? name with
        | some command => .call (.run {
            config := a.value? "--config", logLevel := a.value? "--log-level", command
            arguments := rest })
        | none => .call .misuse

end Asked
end CodeAgent.CommandLine
