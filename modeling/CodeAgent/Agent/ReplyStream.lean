import CodeAgent.Decimal.Shortest

/-! Draining the stream of a reply: its text, and what it took. -/
namespace CodeAgent
open CodeAgent.Decimal

/-- What a clock shows at successive looks; the last time stays. -/
structure Clock where
  now : Float
  later : List Float := []

namespace Clock

/-- The clock after a look. -/
def tick (c : Clock) : Clock :=
  match c.later with
  | [] => c
  | t :: ts => ⟨t, ts⟩

end Clock

/-- The counters of a drained stream. -/
structure StreamMetrics where
  opened : Float
  firstDelta : Option Float := none
  closed : Float
  chunks : Nat := 0
  length : Nat := 0

namespace StreamMetrics

/-- The time up to the first piece of text. -/
def latency (m : StreamMetrics) : Option Float := m.firstDelta.map (· - m.opened)

/-- The time from opening to closing. -/
def elapsed (m : StreamMetrics) : Float := m.closed - m.opened

/-- The counters in words. -/
def describe (m : StreamMetrics) : String :=
  let first := match m.latency with
    | none => "n/a"
    | some t => fixedText 2 t ++ "s"
  natText m.chunks ++ " chunks / " ++ natText m.length ++ " chars, first delta " ++ first ++
    ", elapsed " ++ fixedText 2 m.elapsed ++ "s"

end StreamMetrics

/-- A drained stream. -/
structure StreamResult where
  content : String
  metrics : StreamMetrics

/-- Give the pieces of a stream to a listener, and return those that it took: a listener that refuses
a piece and a stream that breaks off both end it. Empty pieces are passed over. -/
def drain {ε : Type} {m : Type → Type} [Monad m] (listen : String → ExceptT ε m Unit) :
    List (Except ε String) → ExceptT ε m (List String)
  | [] => pure []
  | .error e :: _ => throw e
  | .ok piece :: rest => do
    if piece == "" then drain listen rest
    else
      listen piece
      return piece :: (← drain listen rest)

/-- The text and the counters of a stream that delivered some pieces. -/
def StreamResult.of (clock : Clock) (pieces : List String) : StreamResult :=
  let content := String.join pieces
  let atFirst := clock.tick
  if pieces.isEmpty then ⟨content, { opened := clock.now, closed := atFirst.now }⟩
  else ⟨content, {
    opened := clock.now
    firstDelta := some atFirst.now
    closed := atFirst.tick.now
    chunks := pieces.length
    length := content.length }⟩

end CodeAgent
