import CodeAgent.Decimal.Digits
import CodeAgent.Text.LetterCase
import CodeAgent.Text.Line
import CodeAgent.Text.Printable
import CodeAgent.Text.Search
import CodeAgent.Text.Utf8

/-! URLs: their parts, percent encoding, and the normal form in which requests carry them. -/
namespace CodeAgent.Http
open CodeAgent.Text CodeAgent.Decimal

/-- A URL with parts in normal form. The host stands without the brackets of an address. -/
structure Url where
  scheme : List Char
  userInfo : List Char
  host : List Char
  port : Option Nat
  path : List Char
  query : Option (List Char)
  fragment : Option (List Char)
  deriving DecidableEq, Repr

/-- Characters that never need encoding. -/
def isUnreserved (c : Char) : Bool :=
  c.isAlphanum || c == '-' || c == '.' || c == '_' || c == '~'

/-- Characters of ASCII that can be printed, less some. -/
def printableBut (taken : List Char) (c : Char) : Bool :=
  0x20 ≤ c.toNat && c.toNat < 0x7f && !taken.contains c

/-- Characters that stand for themselves in a fragment. -/
def fragmentSafe : Char → Bool := printableBut [' ', '"', '<', '>', '\x60']

/-- Characters that stand for themselves in a query. -/
def querySafe : Char → Bool := printableBut [' ', '"', '#', '<', '>']

/-- Characters that stand for themselves in a path. -/
def pathSafe : Char → Bool :=
  printableBut [' ', '"', '#', '<', '>', '?', '\x60', '{', '}']

/-- Characters that stand for themselves in a name and password. -/
def userInfoSafe (c : Char) : Bool :=
  pathSafe c && !(['/', ';', '=', '@', '[', '\\', ']', '^', '|'].contains c)

/-- Characters that stand for themselves in the name of a host. -/
def hostSafe (c : Char) : Bool :=
  isUnreserved c || "!$&'()*+,;=\"\x60\x7b\x7d%|\\".toList.contains c

private def upperHex (c : Char) : Char := if c.isLower then c.toUpper else c

/-- A byte as a percent sign and two digits. -/
def percentByte (b : UInt8) : List Char :=
  '%' :: (hexPadded 2 b.toNat).map upperHex

/-- The bytes of a character, percent encoded. -/
def percentChar (c : Char) : List Char :=
  (Utf8.encode [c]).flatMap percentByte

private def isHex (c : Char) : Bool :=
  c.isDigit || ('a' ≤ c && c ≤ 'f') || ('A' ≤ c && c ≤ 'F')

/-- Encode the characters that are not safe; what is encoded already stays. -/
def percentEncode (safe : Char → Bool) : List Char → List Char
  | '%' :: a :: b :: cs =>
    if isHex a && isHex b then '%' :: a :: b :: percentEncode safe cs
    else (if safe '%' then ['%'] else percentChar '%') ++ percentEncode safe (a :: b :: cs)
  | c :: cs => (if safe c then [c] else percentChar c) ++ percentEncode safe cs
  | [] => []

/-- Encode a value of a form: a space is a plus sign. -/
def formEncode (cs : List Char) : List Char :=
  cs.flatMap fun c => if c == ' ' then ['+'] else if isUnreserved c then [c] else percentChar c

/-- Drop the segments `.` and take back those before `..`. -/
def dropDots (kept : List (List Char)) : List (List Char) → List (List Char)
  | [] => kept
  | segment :: more =>
    if segment == ['.'] then dropDots kept more
    else if segment == ['.', '.'] then
      dropDots (if kept.isEmpty || kept == [[]] then kept else kept.dropLast) more
    else dropDots (kept ++ [segment]) more

/-- A path without dot segments. -/
def normalPath (path : List Char) : List Char :=
  ['/'].intercalate (dropDots [] (splitAtEach '/' path))

private def isSchemeChar (c : Char) : Bool :=
  c.isAlphanum || c == '+' || c == '.' || c == '-'

/-- The scheme before a colon, and the text after it. -/
def cutScheme (cs : List Char) : List Char × List Char :=
  match cs with
  | ':' :: rest => ([], rest)
  | c :: _ =>
    if !c.isAlpha then ([], cs)
    else match cs.dropWhile isSchemeChar with
      | ':' :: rest => (cs.takeWhile isSchemeChar, rest)
      | _ => ([], cs)
  | [] => ([], [])

/-- The authority after two slashes, and the text after it. -/
def cutAuthority (cs : List Char) : List Char × List Char :=
  let isEnd (c : Char) : Bool := c == '/' || c == '?' || c == '#'
  match cs with
  | '/' :: '/' :: rest => (rest.takeWhile (!isEnd ·), rest.dropWhile (!isEnd ·))
  | _ => ([], cs)

private def cutLast (c : Char) (cs : List Char) : Option (List Char × List Char) :=
  match cs.reverse.dropWhile (· != c) with
  | [] => none
  | _ :: before => some (before.reverse, (cs.reverse.takeWhile (· != c)).reverse)

/-- The name and password, the host and the port of an authority. An address in brackets is kept with
them. -/
def splitAuthority (cs : List Char) : List Char × List Char × List Char :=
  let (userInfo, rest) := (cutLast '@' cs).getD ([], cs)
  let (host, after) := match rest with
    | '[' :: _ => match cutLast ']' rest with
      | some (inside, after) => (inside ++ [']'], after)
      | none => rest.span (· != ':')
    | _ => rest.span (· != ':')
  (userInfo, host, match after with
    | ':' :: port => port
    | _ => after)

private def octet? (cs : List Char) : Bool :=
  !cs.isEmpty && cs.length ≤ 3 && digitsValue cs ≤ 255 && (cs.length == 1 || cs.head? != some '0')

/-- A host of four groups of digits looks like an address. -/
def looksNumeric (host : List Char) : Bool :=
  host.all (fun c => c.isDigit || c == '.') &&
    (splitAtEach '.' host).length == 4 && (splitAtEach '.' host).all (!·.isEmpty)

private def isHextet (cs : List Char) : Bool :=
  !cs.isEmpty && cs.length ≤ 4 && cs.all isHex

private def isNumericAddress (cs : List Char) : Bool :=
  looksNumeric cs && (splitAtEach '.' cs).all octet?

/-- The groups of an address with colons; a numeric address at the end counts as two. -/
private def groupCount? (groups : List (List Char)) : Option Nat :=
  match groups.reverse with
  | [] => some 0
  | last :: before =>
    if !before.all isHextet then none
    else if isHextet last then some groups.length
    else if isNumericAddress last then some (groups.length + 1)
    else none

/-- A text is an address of eight groups, of which one run may be left out. -/
def isColonAddress (cs : List Char) : Bool :=
  let bare := cs.takeWhile (· != '%')
  let zone := cs.dropWhile (· != '%')
  let zoneFits := zone.isEmpty || (1 < zone.length && !(zone.drop 1).contains '%')
  let groupsOf (part : List Char) : List (List Char) :=
    if part.isEmpty then [] else splitAtEach ':' part
  zoneFits && match cutAt? [':', ':'] bare with
    | none => groupCount? (splitAtEach ':' bare) == some 8
    | some (left, right) => match groupCount? (groupsOf left), groupCount? (groupsOf right) with
      | some a, some b => a + b ≤ 7 && (groupsOf left).all isHextet
      | _, _ => false

/-- The host in normal form, if it can be one. -/
def normalHost? (host : List Char) : Option (List Char) :=
  if looksNumeric host then if isNumericAddress host then some host else none
  else match host with
    | '[' :: rest =>
      if rest.getLast? == some ']' then
        if isColonAddress rest.dropLast then some rest.dropLast else none
      else some (percentEncode hostSafe (host.map Char.toLower))
    | _ =>
      if host.all fun c => c.toNat < 128 then some (percentEncode hostSafe (host.map Char.toLower))
      else none

/-- The port that a scheme has if none is given. -/
def defaultPort (scheme : List Char) : Option Nat :=
  match String.ofList scheme with
  | "ftp" => some 21
  | "http" | "ws" => some 80
  | "https" | "wss" => some 443
  | _ => none

/-- The port in normal form, if it is a number: the usual one is left out. -/
def normalPort? (scheme port : List Char) : Option (Option Nat) :=
  if port.isEmpty then some none
  else if port.all isDigitChar && port.length ≤ maxIntegerDigits then
    let n := digitsValue port
    some (if defaultPort scheme == some n then none else some n)
  else none

private def isControl (c : Char) : Bool := c.toNat < 0x20 || c.toNat == 0x7f

namespace Url

/-- The longest URL that is taken. -/
def maxLength : Nat := 65536

/-- A URL has no path that could be taken for another part. -/
def pathFits (hasScheme hasAuthority : Bool) (path : List Char) : Bool :=
  (!hasAuthority || path.isEmpty || path.head? == some '/') &&
    (hasScheme || hasAuthority || !(startsWith ['/', '/'] path || startsWith [':'] path))

/-- The URL that a text writes, if it writes one. -/
def read? (text : List Char) : Option Url := do
  if maxLength < text.length || text.any isControl then none
  else
    let (scheme, rest) := cutScheme text
    let (authority, rest) := cutAuthority rest
    let path := rest.takeWhile fun c => c != '?' && c != '#'
    let rest := rest.dropWhile fun c => c != '?' && c != '#'
    let (query, rest) := match rest with
      | '?' :: more => (some (more.takeWhile (· != '#')), more.dropWhile (· != '#'))
      | _ => (none, rest)
    let fragment := rest.tail?
    let (userInfo, host, port) := splitAuthority authority
    let host ← normalHost? host
    let port ← normalPort? scheme port
    let userInfo := percentEncode userInfoSafe userInfo
    let hasScheme := !scheme.isEmpty
    let hasAuthority := !userInfo.isEmpty || !host.isEmpty || port.isSome
    if !pathFits hasScheme hasAuthority path then none
    else some {
      scheme := scheme.map Char.toLower
      userInfo, host, port
      path := percentEncode pathSafe (if hasScheme || hasAuthority then normalPath path else path)
      query := query.map (percentEncode querySafe)
      fragment := fragment.map (percentEncode fragmentSafe) }

/-- A URL that says where to connect. -/
def isAbsolute (u : Url) : Bool := !u.scheme.isEmpty && !u.host.isEmpty

/-- The URL that a request is sent to: one that is not absolute is a path below the root. -/
def target (u : Url) : Url :=
  if u.isAbsolute then u
  else
    let below := u.path.dropWhile (· == '/')
    { u with scheme := [], userInfo := [], host := [], port := none, path := '/' :: below,
             fragment := none }

/-- Give a URL a query of one field. -/
def withField (u : Url) (key value : String) : Url :=
  { u with query := some (formEncode key.toList ++ '=' :: formEncode value.toList) }

private def authority (u : Url) : List Char :=
  (if u.userInfo.isEmpty then [] else u.userInfo ++ ['@']) ++
    (if u.host.contains ':' then '[' :: u.host ++ [']'] else u.host) ++
    match u.port with
    | some n => ':' :: natDigits n
    | none => []

/-- The text of a URL. -/
def text (u : Url) : String :=
  String.ofList ((if u.scheme.isEmpty then [] else u.scheme ++ [':']) ++
    (if u.authority.isEmpty then [] else '/' :: '/' :: u.authority) ++ u.path ++
    (match u.query with
      | some q => '?' :: q
      | none => []) ++
    match u.fragment with
    | some f => '#' :: f
    | none => [])

end Url
end CodeAgent.Http
