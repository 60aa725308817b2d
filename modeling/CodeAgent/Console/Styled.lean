import CodeAgent.Text.Blank
import CodeAgent.Text.LetterCase
import CodeAgent.Failure

/-! Pictures written as names between colons. -/
namespace CodeAgent.Console
open CodeAgent.Text

/-- The pictures that have names. -/
def pictures : List (String × String) :=
  [("+1", "👍"), ("-1", "👎"), ("100", "💯"), ("a", "🅰"), ("alarm_clock", "⏰"), ("alien", "👽"),
    ("ambulance", "🚑"), ("anchor", "⚓"), ("ant", "🐜"), ("apple", "🍎"), ("arrow_down", "⬇"),
    ("arrow_left", "⬅"), ("arrow_right", "➡"), ("arrow_up", "⬆"), ("art", "🎨"), ("b", "🅱"),
    ("battery", "🔋"), ("beer", "🍺"), ("bell", "🔔"), ("book", "📖"), ("bookmark", "🔖"),
    ("books", "📚"), ("boom", "💥"), ("bug", "🐛"), ("bulb", "💡"), ("cat", "🐱"),
    ("chart_with_upwards_trend", "📈"), ("checkered_flag", "🏁"), ("clap", "👏"),
    ("construction", "🚧"), ("cry", "😢"), ("dog", "🐶"), ("exclamation", "❗"), ("eyes", "👀"),
    ("fire", "🔥"), ("gear", "⚙"), ("ghost", "👻"), ("gift", "🎁"), ("green_heart", "💚"),
    ("hammer", "🔨"), ("heart", "❤"), ("heavy_check_mark", "✔"), ("hourglass", "⌛"), ("id", "🆔"),
    ("joy", "😂"), ("key", "🔑"), ("link", "🔗"), ("lock", "🔒"), ("m", "Ⓜ"), ("mag", "🔍"),
    ("memo", "📝"), ("moon", "🌔"), ("new", "🆕"), ("no_entry", "⛔"), ("o", "⭕"), ("ok", "🆗"),
    ("on", "🔛"), ("package", "📦"), ("pencil", "📝"), ("poop", "💩"), ("pushpin", "📌"),
    ("question", "❓"), ("recycle", "♻"), ("robot", "🤖"), ("rocket", "🚀"), ("skull", "💀"),
    ("smile", "😄"), ("smiley", "😃"), ("snake", "🐍"), ("sparkles", "✨"), ("star", "⭐"),
    ("sun", "☀"), ("tada", "🎉"), ("test_tube", "🧪"), ("thinking_face", "🤔"),
    ("thumbs_down", "👎"), ("thumbs_up", "👍"), ("thumbsdown", "👎"), ("thumbsup", "👍"),
    ("top", "🔝"), ("trophy", "🏆"), ("truck", "🚚"), ("unlock", "🔓"), ("up", "🆙"), ("v", "✌"),
    ("vampire", "🧛"), ("vs", "🆚"), ("warning", "⚠"), ("wave", "👋"), ("white_check_mark", "✅"),
    ("wrench", "🔧"), ("x", "❌"), ("zap", "⚡"), ("zzz", "💤")]

/-- A name without the suffix that asks for a way of drawing it, and the mark for that way. -/
def drawing (name : List Char) : List Char × List Char :=
  if "-emoji".toList.isSuffixOf name then (name.take (name.length - 6), ['\ufe0f'])
  else if "-text".toList.isSuffixOf name then (name.take (name.length - 5), ['\ufe0e'])
  else (name, [])

/-- The picture of a name. -/
def picture? (name : List Char) : Option (List Char) :=
  let (name, mark) := drawing name
  (pictures.find? (·.1 == lower (String.ofList name))).map fun p => p.2.toList ++ mark

private def picturesFrom : Nat → List Char → List Char
  | _, [] => []
  | skip + 1, _ :: cs => picturesFrom skip cs
  | 0, c :: cs =>
    let name := cs.takeWhile fun d => d != ':' && !isBlank d
    if c == ':' && (cs.drop name.length).head? == some ':' then
      (picture? name).getD (':' :: name ++ [':']) ++ picturesFrom (name.length + 1) cs
    else c :: picturesFrom 0 cs

/-- A text with pictures in the place of their names; a name that has none stays. -/
def withPictures (cs : List Char) : List Char := picturesFrom 0 cs

/-! Text with style tags in brackets, and what a console without styles shows of it. -/

/-- A character that a tag can start with. -/
def startsTag (c : Char) : Bool :=
  ('a' ≤ c && c ≤ 'z') || c == '#' || c == '/' || c == '@'

/-- The content of the tag after an opening bracket. -/
def tagContent? : List Char → Option (List Char)
  | [] => none
  | c :: cs =>
    let more := cs.takeWhile fun d => d != '[' && d != ']'
    if startsTag c && (cs.drop more.length).head? == some ']' then some (c :: more) else none

private def escapeFrom : Nat → List Char → List Char
  | pending, [] => List.replicate pending '\\'
  | pending, c :: cs =>
    if c == '\\' then escapeFrom (pending + 1) cs
    else if c == '[' && (tagContent? cs).isSome then
      List.replicate (2 * pending + 1) '\\' ++ c :: escapeFrom 0 cs
    else List.replicate pending '\\' ++ c :: escapeFrom 0 cs

/-- A text in which what looks like a tag is none. A single backslash at the end is doubled. -/
def escaped (s : String) : String :=
  let cs := escapeFrom 0 s.toList
  let single := match cs.reverse with
    | '\\' :: '\\' :: _ => false
    | '\\' :: _ => true
    | _ => false
  String.ofList (if single then cs ++ ['\\'] else cs)

/-- A piece of a styled text. -/
inductive Piece where
  | text (cs : List Char)
  | tag (content : List Char)
  deriving DecidableEq, Repr

private def run (reversed : List Char) : List Piece :=
  if reversed.isEmpty then [] else [.text reversed.reverse]

private def piecesFrom : (skip pending : Nat) → (reversed : List Char) → List Char → List Piece
  | _, pending, reversed, [] => run (List.replicate pending '\\' ++ reversed)
  | skip + 1, _, _, _ :: cs => piecesFrom skip 0 [] cs
  | 0, pending, reversed, c :: cs =>
    if c == '\\' then piecesFrom 0 (pending + 1) reversed cs
    else match if c == '[' then tagContent? cs else none with
      | some content =>
        let tag : Piece := if pending % 2 == 0 then .tag content else .text (c :: content ++ [']'])
        run reversed ++ run (List.replicate (pending / 2) '\\') ++
          tag :: piecesFrom (content.length + 1) 0 [] cs
      | none => piecesFrom 0 0 (c :: (List.replicate pending '\\' ++ reversed)) cs

/-- The pieces of a styled text. Of backslashes in front of a tag every second one stays, and an odd
one makes the tag a text. -/
def pieces (s : String) : List Piece := piecesFrom 0 0 [] s.toList

/-- A text in which no bracket has a backslash. -/
def bareBrackets : List Char → List Char
  | '\\' :: '[' :: cs => '[' :: bareBrackets cs
  | c :: cs => c :: bareBrackets cs
  | [] => []

/-- The name of a style: short names stand for long ones, and letter case does not count. -/
def styleName (cs : List Char) : String :=
  let name := lower (trim (String.ofList cs))
  match name with
  | "b" => "bold" | "d" => "dim" | "i" => "italic" | "u" => "underline" | "s" => "strike"
  | "r" => "reverse" | "o" => "overline" | "c" => "conceal" | "uu" => "underline2"
  | _ => name

/-- A character that moves the cursor or rings. -/
def isControl (c : Char) : Bool :=
  c == '\x07' || c == '\x08' || c == '\x0b' || c == '\x0c' || c == '\r'

/-- The open styles after a tag. A closing tag without a name closes the last one, and a tag that
closes nothing is no tag. -/
def openAfter (styles : List String) (content : List Char) : Except Breakdown (List String) :=
  match content.takeWhile (· != '=') with
  | '/' :: name =>
    if (trimChars name).isEmpty then
      match styles with
      | _ :: rest => .ok rest
      | [] => .error .badMarkup
    else
      let style := styleName name
      if styles.contains style then .ok (styles.erase style) else .error .badMarkup
  | name => .ok (styleName name :: styles)

private def shownFrom (styles : List String) : List Piece → Except Breakdown (List Char)
  | [] => .ok []
  | .tag content :: ps => do shownFrom (← openAfter styles content) ps
  | .text cs :: ps => do
    return withPictures (bareBrackets cs) ++ (← shownFrom styles ps)

/-- A text without the characters that a console does not show. -/
def visible (cs : List Char) : List Char := cs.filter (!isControl ·)

/-- What is shown of a styled text. -/
def shown (s : String) : Except Breakdown (List Char) :=
  if s.toList.contains '[' then (shownFrom [] (pieces s)).map visible
  else .ok (visible (withPictures s.toList))

end CodeAgent.Console
