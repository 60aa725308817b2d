import CodeAgent.Agent.Service
import CodeAgent.CommandLine.Command
import CodeAgent.Config.Overlay
import CodeAgent.Console.Table
import CodeAgent.Json.Reader
import CodeAgent.Symbols.FileOutline

/-! What the commands do, and what they show on the console. -/
namespace CodeAgent.CommandLine
open CodeAgent.Console CodeAgent.Text

/-- The version of the program. -/
def version : String := "0.4.0"

/-- Where the program runs: the environment, the width of the console, the system, and how outlines
are had. -/
structure Shell where
  environment : Environment := []
  width : Nat := 80
  osName : String := "linux"
  outliner : Outliner := standardOutliner

/-- A program under way: the world, and what was shown so far. -/
structure Screen where
  world : ServiceWorld
  output : List Char := []

/-- Why a program stops: with an exit code, or with a failure that nothing catches. -/
inductive Stop where
  | exit (code : Nat)
  | failed (e : Failure)

/-- A part of the program. -/
abbrev Program := ExceptT Stop (StateM Screen)

/-- How a program ended: its exit code, what it showed, and the failure that ended it. -/
structure Outcome where
  code : Nat
  output : String
  failure : Option Failure := none

/-- A failure in words. -/
def failureText : Failure → String
  | .fault f => f.text
  | .invalid issues =>
    Decimal.natText issues.length ++
      (if issues.length = 1 then " validation error for Settings"
        else " validation errors for Settings")
  | .file e => e.text
  | .breakdown _ => "invalid value"

namespace Program
variable {α : Type}

/-- Show characters. -/
def write (cs : List Char) : Program Unit :=
  modify fun s => { s with output := s.output ++ cs }

/-- Show a text as it is. -/
def printPlain (s : String) : Program Unit := write (unbroken (visible (withPictures s.toList)))

/-- What a failure that nothing catches does. -/
def orFail (e : Except Failure α) : Program α := ExceptT.mk (pure (e.mapError .failed))

/-- Show a styled text on lines of its own. -/
def print (shell : Shell) (s : String) : Program Unit := do
  let text ← orFail ((shown s).mapError .breakdown)
  write (stacked (layOut { width := shell.width } text) ++ ['\n'])

/-- Show a table. -/
def printTable (shell : Shell) (t : Table) : Program Unit := do
  write (← orFail ((t.render shell.width).mapError .breakdown))

/-- Show what went wrong, and stop. -/
def giveUp (shell : Shell) (message : String) (start : String := "") : Program α := do
  print shell (start ++ "[bold red]Error:[/] " ++ message)
  throw (.exit 1)

/-- Let something act on the world. -/
def onWorld (a : StateM ServiceWorld α) : Program α :=
  ExceptT.mk do
    let s ← get
    let (result, world) := a.run s.world
    set { s with world }
    return .ok result

/-- An operation whose faults are shown, and whose other failures nothing catches. -/
def orShow (shell : Shell) (start : String) : Except Failure α → Program α
  | .ok a => pure a
  | .error (.fault f) => giveUp shell (escaped f.message) start
  | .error e => throw (.failed e)

/-- A service on a workspace, if there is one. -/
def openService (shell : Shell) (settings : Settings) (workspace : Option String) :
    Program (Except Failure Service) := do
  let s : Service := { settings, osName := shell.osName, outliner := shell.outliner }
  match workspace with
  | none => return .ok s
  | some w => onWorld (s.openWorkspace (some w)).run

/-- Show an event of a turn. -/
def showEvent (shell : Shell) : Event → Program Unit
  | .chunk delta => printPlain delta
  | .toolStart _ name parameters =>
    print shell ("\n[dim]> " ++ name ++ " " ++ escaped (Json.write .line (.obj parameters)) ++ "[/]")
  | .toolResult _ name result =>
    print shell ("[green]ok[/] " ++ name ++ " (" ++ Decimal.natText result.length ++ " chars)")
  | .toolError _ name message => print shell ("[red]error[/] " ++ name ++ ": " ++ escaped message)

/-- Run a turn and show it. -/
def chat (shell : Shell) (settings : Settings) (message : String) (model workspace : Option String) :
    Program Unit := do
  let service ← orShow shell "\n" (← openService shell settings workspace)
  let (outcome, events) ← onWorld (service.turn [⟨.user, message⟩] model)
  events.forM (showEvent shell)
  let result ← orShow shell "\n" outcome
  write ['\n']
  print shell ("[dim]" ++ Decimal.natText result.iterations ++ " iteration(s), stopped: " ++
    result.reason.text ++ "[/]")

/-- Load the index of a folder and bring it up to date. -/
def indexFolder (shell : Shell) (settings : Settings) (folder : String) :
    Program (Except Failure SymbolIndex) :=
  onWorld do
    match (← get).bench.files.resolve (Path.ofText folder) with
    | .error e => return .error (.file e)
    | .ok place =>
      let pass := ToolAction.onIndex id (SymbolIndex.loadOrPass shell.outliner settings place)
      let outcome ← ServiceWorld.onBench pass.run
      let index := (← get).bench.index
      return outcome.map fun _ => index

/-- Bring the index of a folder up to date, and show how large it is. -/
def index (shell : Shell) (settings : Settings) (folder : String) : Program Unit := do
  match ← indexFolder shell settings folder with
  | .ok index =>
    print shell ("Indexed [cyan]" ++ Decimal.natText index.data.files.length ++ "[/] files, [cyan]" ++
      Decimal.natText index.data.flat.length ++ "[/] symbols in " ++
      (index.root.map Place.text).getD "None")
  | .error (.file .nullCharacter) => throw (.failed (.file .nullCharacter))
  | .error (.file .badText) => throw (.failed (.file .badText))
  | .error (.file e) => giveUp shell (escaped e.text)
  | .error (.fault f) => giveUp shell (escaped f.text)
  | .error e => throw (.failed e)

/-- Show the symbols of a folder that answer a query. -/
def search (shell : Shell) (settings : Settings) (query folder : String) (limit : Int) :
    Program Unit := do
  let index ← orFail (← indexFolder shell settings folder)
  match index.data.search settings.shortQueryLength (settings.resultLimit (some limit)) query with
  | [] => print shell "[yellow]No symbols found[/]"
  | found =>
    printTable shell {
      title := "Symbols matching '" ++ query ++ "'"
      columns := [⟨"Name", .left⟩, ⟨"Kind", .left⟩, ⟨"Location", .left⟩]
      rows := found.map fun s =>
        [s.name, s.kind, s.file ++ ":" ++ Decimal.intText s.startLine] }

/-- Run a tool with parameters in JSON, and show its result. -/
def tool (shell : Shell) (settings : Settings) (name parameters : String)
    (workspace : Option String) : Program Unit := do
  match Json.read parameters with
  | .error .tooDeep => throw (.failed (.breakdown .tooNested))
  | .error _ => giveUp shell "invalid --args JSON: malformed"
  | .ok (.obj fields) =>
    let service ← orShow shell "" (← openService shell settings workspace)
    let result ← onWorld (service.executeTool { name, parameters := fields }).run
    printPlain (← orShow shell "" result)
    write ['\n']
  | .ok _ => giveUp shell "--args must be a JSON object"

/-- Show the system prompt. -/
def prompt (shell : Shell) (settings : Settings) (workspace : Option String) : Program Unit := do
  let place ← match workspace with
    | none => pure none
    | some w => (orFail (Service.placeOf (← get).world.bench.files w)).map some
  let service : Service :=
    { settings, workspace := place, osName := shell.osName, outliner := shell.outliner }
  printPlain (service.prompt none)
  write ['\n']

/-- Show the models of the local server. -/
def models (shell : Shell) (settings : Settings) : Program Unit := do
  let service : Service := { settings, osName := shell.osName, outliner := shell.outliner }
  match ← orShow shell "" (← onWorld service.models.run) with
  | [] => print shell "[yellow]No models installed[/]"
  | installed =>
    printTable shell {
      title := "Ollama models"
      columns := [⟨"Name", .left⟩, ⟨"Size", .right⟩, ⟨"Modified", .left⟩]
      rows := installed.map fun m => [m.name, Decimal.groupedText m.size, m.modifiedAt] }

/-- Run a command. -/
def command (shell : Shell) (settings : Settings) : Command → Program Unit
  | .chat message model workspace => chat shell settings message model workspace
  | .index folder => index shell settings folder
  | .search query folder limit => search shell settings query folder limit
  | .tool name parameters workspace => tool shell settings name parameters workspace
  | .prompt workspace => prompt shell settings workspace
  | .models => models shell settings

/-- How the program is called. -/
def usage : String := "Usage: cognitive [OPTIONS] COMMAND [ARGS]...\n"

/-- Go on with what is to be run; help and misuse end the program. -/
def called : Call α → Program α
  | .run a => pure a
  | .help => do
    write usage.toList
    throw (.exit 0)
  | .misuse => throw (.exit 2)

/-- The settings for a call. Faults and values that are no settings are shown. -/
def loadSettings (shell : Shell) (config logLevel : Option String) : Program Settings := do
  let given : Json.Fields := match logLevel with
    | none | some "" => []
    | some l => [("log_level", .str l)]
  let file := config.map fun c => if c == "" then "." else c
  let files := (← get).world.bench.files
  match Settings.load files shell.environment file given with
  | .ok loaded => return loaded.settings
  | .error e =>
    let isShown : Bool := match e with
      | .fault _ | .invalid _ | .file .badText | .breakdown .badValue => true
      | _ => false
    if isShown then giveUp shell (escaped (failureText e)) else throw (.failed e)

/-- The whole program. -/
def whole (shell : Shell) (arguments : List String) : Program Unit := do
  match Asked.read arguments with
  | .version => print shell ("Cognitive v" ++ version)
  | .call c =>
    let invocation ← called c
    let settings ← loadSettings shell invocation.config invocation.logLevel
    command shell settings (← called (Command.read invocation.command invocation.arguments))

end Program

/-- Run the program with some arguments in a world. -/
def run (shell : Shell) (arguments : List String) (world : ServiceWorld) : Outcome × ServiceWorld :=
  let (result, screen) := (Program.whole shell arguments).run.run { world }
  let output := String.ofList screen.output
  let outcome : Outcome := match result with
    | .ok () => { code := 0, output }
    | .error (.exit code) => { code, output }
    | .error (.failed e) => { code := 1, output, failure := some e }
  (outcome, screen.world)

end CodeAgent.CommandLine
