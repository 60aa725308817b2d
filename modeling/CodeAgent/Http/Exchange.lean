import CodeAgent.Failure
import CodeAgent.Http.Url

/-! Requests and responses. -/
namespace CodeAgent.Http
open CodeAgent.Text

/-- A request: its method, its URL, the credentials in its header, and its JSON body. -/
structure Request where
  method : String
  url : String
  authorization : Option String := none
  body : Option Json := none

/-- What happens on the way of a response: bytes arrive, or the connection fails. -/
inductive Arrival where
  | bytes (bs : Bytes)
  | failure (message : String)
  deriving DecidableEq, Repr

/-- What becomes of a request: no connection, or a status and the arrivals of the body. -/
inductive Response where
  | unreachable (message : String)
  | answered (status : Int) (body : List Arrival)
  deriving DecidableEq, Repr

/-- A status says that the request succeeded. -/
def isSuccess (status : Int) : Bool := 200 ≤ status && status ≤ 299

/-- The whole body, or the message of the failure that cuts it off. -/
def wholeBody : List Arrival → Except String Bytes
  | [] => .ok []
  | .failure message :: _ => .error message
  | .bytes bs :: more => do return bs ++ (← wholeBody more)

/-- The chunks that arrive before the body ends or is cut off, and the failure that cuts it off. -/
def chunksOf : List Arrival → List Bytes × Option String
  | [] => ([], none)
  | .failure message :: _ => ([], some message)
  | .bytes bs :: more =>
    let (chunks, failure) := chunksOf more
    (if bs.isEmpty then chunks else bs :: chunks, failure)

private def base64Char (n : Nat) : Char :=
  if n < 26 then Char.ofNat (65 + n)
  else if n < 52 then Char.ofNat (71 + n)
  else if n < 62 then Char.ofNat (n - 4)
  else if n = 62 then '+' else '/'

/-- Bytes in groups of six bits, filled up with equality signs. -/
def base64 : Bytes → List Char
  | a :: b :: c :: more =>
    let n := a.toNat * 65536 + b.toNat * 256 + c.toNat
    base64Char (n / 262144) :: base64Char (n / 4096 % 64) :: base64Char (n / 64 % 64) ::
      base64Char (n % 64) :: base64 more
  | [a, b] =>
    let n := a.toNat * 1024 + b.toNat * 4
    [base64Char (n / 4096), base64Char (n / 64 % 64), base64Char (n % 64), '=']
  | [a] =>
    let n := a.toNat * 16
    [base64Char (n / 64), base64Char (n % 64), '=', '=']
  | [] => []

/-- Take back percent encoding, byte by byte. -/
def percentDecode (cs : List Char) : List Char :=
  Utf8.decode (go cs)
where
  go : List Char → Bytes
    | '%' :: a :: b :: more => match Json.hexValue? a, Json.hexValue? b with
      | some x, some y => UInt8.ofNat (16 * x + y) :: go more
      | _, _ => Utf8.encode ['%'] ++ go (a :: b :: more)
    | c :: more => Utf8.encode [c] ++ go more
    | [] => []

/-- The credentials that a URL carries, as a header. -/
def Url.credentials? (u : Url) : Option String :=
  let name := percentDecode (u.userInfo.takeWhile (· != ':'))
  let password := percentDecode ((u.userInfo.dropWhile (· != ':')).drop 1)
  if name.isEmpty && password.isEmpty then none
  else some ("Basic " ++ String.ofList (base64 (Utf8.encode (name ++ ':' :: password))))

mutual

/-- No number in a value is infinite or undefined. -/
def isFinite : Json → Bool
  | .float x => !(x.isNaN || x.isInf)
  | .arr items => areFinite items
  | .obj fields => fieldsFinite fields
  | _ => true

/-- No number in a list of values is infinite or undefined. -/
def areFinite : List Json → Bool
  | [] => true
  | v :: vs => isFinite v && areFinite vs

/-- No number in the members of an object is infinite or undefined. -/
def fieldsFinite : List (String × Json) → Bool
  | [] => true
  | (_, v) :: fs => isFinite v && fieldsFinite fs

end

/-- Build a request: the address must be a URL, a header plain text, and a body finite. Credentials in
the address go before those of the header. -/
def Request.build (method address : String) (field : Option (String × String))
    (authorization : Option String) (body : Option Json) : Except Failure Request := do
  let some url := Url.read? address.toList | throw (.breakdown .badAddress)
  let url := match field with
    | some (key, value) => url.target.withField key value
    | none => url.target
  if (authorization.getD "").toList.any (fun c => 127 < c.toNat) then
    throw (.breakdown .badHeader)
  if !(body.map isFinite).getD true then throw (.breakdown .badValue)
  return { method, url := url.text, authorization := url.credentials?.or authorization, body }

/-! The network: what it answers to the requests that are sent, in order. -/

/-- The network as its users see it: the responses that will come, and the requests sent so far. -/
structure Network where
  responses : List Response := []
  sent : List Request := []

namespace Network

/-- The response to the next request; the last one is given again and again, and without any the
answer is empty. -/
def next (n : Network) : Response := n.responses.head?.getD (.answered 200 [])

/-- Send a request. -/
def send (r : Request) : StateM Network Response := do
  let n ← get
  set { n with
    responses := if 1 < n.responses.length then n.responses.drop 1 else n.responses
    sent := n.sent ++ [r] }
  return n.next

end Network
end CodeAgent.Http
