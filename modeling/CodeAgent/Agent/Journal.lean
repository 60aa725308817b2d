import CodeAgent.Agent.Conversation
import CodeAgent.Agent.ReplyStream
import CodeAgent.Json.Writer
import CodeAgent.LogLevel
import CodeAgent.Text.Blank
import CodeAgent.Text.Line

/-! The journal of a turn: one line for each step, and running counts. -/
namespace CodeAgent
open CodeAgent.Text CodeAgent.Decimal

/-- Running counts of a turn. -/
structure TurnStats where
  iterations : Int := 0
  toolCalls : Nat := 0
  toolFailures : Nat := 0
  historyMessages : Nat := 0
  historyChars : Nat := 0
  started : Float

/-- A journal: whether it writes lines, its counts and its clock. -/
structure Journal where
  enabled : Bool := true
  stats : TurnStats
  clock : Clock

/-- A step of a turn, as it is noted. -/
inductive JournalEntry where
  | iteration (number most : Int)
  | response (text : String) (calls : Int)
  | call (tool : String) (parameters : Json.Fields)
  | result (tool : String) (succeeded : Bool) (output : String) (milliseconds : Float)
  | summary (messages : List Message) (reason : String)

namespace Journal

/-- A new journal; it looks at the clock once. -/
def start (enabled : Bool) (clock : Clock) : Journal :=
  { enabled, stats := { started := clock.now }, clock := clock.tick }

/-- Start counting anew. -/
def reset (j : Journal) : Journal := start j.enabled j.clock

/-- The most arguments of a call that are shown. -/
def shownArguments : Nat := 3

private def brief (limit : Int) (s : String) : String := preview limit (squeeze s)

private def argumentsText (parameters : Json.Fields) : String :=
  let shown := (parameters.take shownArguments).map fun (k, v) => k ++ "=" ++ brief 30 v.display
  let hidden := parameters.length - shown.length
  String.intercalate ", " (if hidden = 0 then shown else shown ++ ["+" ++ natText hidden ++ " more"])

/-- The counts after an entry. -/
def count (stats : TurnStats) : JournalEntry → TurnStats
  | .iteration number _ => { stats with iterations := number }
  | .response .. => stats
  | .call .. => { stats with toolCalls := stats.toolCalls + 1 }
  | .result _ true _ _ => stats
  | .result _ false _ _ => { stats with toolFailures := stats.toolFailures + 1 }
  | .summary messages _ => { stats with
      historyMessages := messages.length
      historyChars := messages.foldl (fun n m => n + m.content.length) 0 }

/-- The counts in words. -/
def statsText (stats : TurnStats) (now : Float) : String :=
  intText stats.iterations ++ " iteration(s), " ++ natText stats.toolCalls ++ " tool call(s) (" ++
    natText stats.toolFailures ++ " failed), history " ++ natText stats.historyMessages ++
    " msgs / " ++ groupedText stats.historyChars ++ " chars, " ++
    fixedText 1 (now - stats.started) ++ "s"

/-- The line for an entry, with the counts that include it. -/
def line (stats : TurnStats) (now : Float) : JournalEntry → LogLevel × String
  | .iteration number most =>
    (.info, "── iteration " ++ intText number ++ "/" ++ intText most ++ " ──")
  | .response text calls =>
    let found := if calls = 0 then "" else ", " ++ intText calls ++ " tool call(s)"
    (.debug, "   reply " ++ natText text.length ++ " chars" ++ found ++ ": " ++ brief 60 text)
  | .call tool parameters => (.info, "   -> " ++ tool ++ "(" ++ argumentsText parameters ++ ")")
  | .result tool succeeded output ms =>
    (.info, "   <- " ++ tool ++ (if succeeded then " ok: " else " failed: ") ++
      groupedText output.length ++ " chars in " ++ fixedText 0 ms ++ "ms")
  | .summary _ reason =>
    (.info, "   turn ended (" ++ reason ++ "): " ++ statsText stats now)

/-- Note an entry: the journal after it and the lines that it writes. Only the line of a summary looks
at the clock. -/
def note (j : Journal) (e : JournalEntry) : Journal × List (LogLevel × String) :=
  let stats := count j.stats e
  if !j.enabled then ({ j with stats }, [])
  else
    let clock := match e with
      | .summary .. => j.clock.tick
      | _ => j.clock
    ({ j with stats, clock }, [line stats j.clock.now e])

end Journal
end CodeAgent
