import CodeAgent.ToolCall.Markup

/-! Tool calls written as an invoke element with one parameter element for each value. -/
namespace CodeAgent.InvokeBlock
open CodeAgent.Text

/-- The text after some white space. -/
def skipBlanks (cs : List Char) : List Char :=
  cs.dropWhile isBlank

/-- The text after white space that must be there. -/
def skipBlanks? : List Char → Option (List Char)
  | [] => none
  | c :: cs => if isBlank c then some (skipBlanks cs) else none

/-- The text up to the first quote that the end of the tag follows, and the text after the tag. -/
def quotedToTagEnd? (quote : Char) : List Char → Option (List Char × List Char)
  | [] => none
  | c :: cs =>
    let further := (quotedToTagEnd? quote cs).map fun r => (c :: r.1, r.2)
    if c == quote then
      match skipBlanks cs with
      | '>' :: rest => some ([], rest)
      | _ => further
    else further

/-- An opening tag with the single attribute `name`: its value and the text after the tag. -/
def openTag? (element cs : List Char) : Option (List Char × List Char) := do
  let rest ← dropStart? ('<' :: element) cs
  let rest ← skipBlanks? rest
  let rest ← dropStart? ['n', 'a', 'm', 'e'] rest
  let rest ← dropStart? ['='] (skipBlanks rest)
  match skipBlanks rest with
  | '"' :: value => quotedToTagEnd? '"' value
  | '\'' :: value => quotedToTagEnd? '\'' value
  | _ => none

/-- The text up to the first closing tag of an element, and the text after that tag. -/
def closeTag? (element : List Char) : List Char → Option (List Char × List Char)
  | [] => none
  | c :: cs =>
    let further := (closeTag? element cs).map fun r => (c :: r.1, r.2)
    match dropStart? ('<' :: '/' :: element) (c :: cs) with
    | none => further
    | some rest => match skipBlanks rest with
      | '>' :: after => some ([], after)
      | _ => further

/-- An element with the single attribute `name`. -/
structure Element where
  name : List Char
  body : List Char

/-- An element at the start of a text, through its first closing tag. -/
def element? (element cs : List Char) : Option (Element × List Char) := do
  let (name, rest) ← openTag? element cs
  let (body, after) ← closeTag? element rest
  some (⟨name, body⟩, after)

/-- The element that holds a call. -/
def invokeName : List Char := ['i', 'n', 'v', 'o', 'k', 'e']

/-- The element that holds a parameter. -/
def parameterName : List Char := ['p', 'a', 'r', 'a', 'm', 'e', 't', 'e', 'r']

/-- The decoded and trimmed value of the attribute. -/
def Element.key (e : Element) : List Char :=
  trimChars (Markup.unescape e.name)

/-- The keys and decoded values of the parameter elements in the body of a call. -/
def parameters (body : List Char) : List (String × List Char) :=
  (findEach (element? parameterName) 0 body).filterMap fun (_, e) =>
    if e.key.isEmpty then none else some (String.ofList e.key, Markup.decodeText e.body)

/-- The calls written as invoke blocks, with their offsets. -/
def extract (cs : List Char) : List (Nat × ToolCall) :=
  Markup.callsOf (fun e => String.ofList e.key) (fun e => parameters e.body)
    (findEach (element? invokeName) 0 cs)

end CodeAgent.InvokeBlock
