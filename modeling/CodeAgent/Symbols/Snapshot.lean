import CodeAgent.Deflate
import CodeAgent.Failure
import CodeAgent.Json.Writer
import CodeAgent.Symbols.IndexData

/-! Snapshots: an index as bytes. Equal indexes have equal snapshots. -/
namespace CodeAgent
open CodeAgent.Text

namespace Snapshot

/-- The first bytes of a snapshot. -/
def magic : Bytes := utf8Bytes "CGIX1\n"

/-- The text that a snapshot holds. -/
def payload (d : IndexData) : String := Json.write .compact d.toJson

/-- The outlines of an index have too many levels to be stored. -/
def tooDeep (d : IndexData) : Bool :=
  d.outlines.any fun o => OutlineSymbol.maxDepth < OutlineSymbol.depthOfList o.2

/-- Text as a snapshot. -/
def ofPayload (text : String) : Bytes := magic ++ Deflate.frame (utf8Bytes text)

/-- An index as a snapshot. -/
def encode (d : IndexData) : Except Failure Bytes :=
  if tooDeep d then .error (.breakdown .badValue) else .ok (ofPayload (payload d))

/-- Bytes after some that they must start with. -/
def dropMagic? : Bytes → Bytes → Option Bytes
  | [], bs => some bs
  | _ :: _, [] => none
  | a :: as, b :: bs => if a == b then dropMagic? as bs else none

private def corrupt (why : String) : Failure :=
  .fault (Fault.indexFailed ("Corrupt symbol snapshot: " ++ why) none)

/-- The text in a snapshot. -/
def payload? (blob : Bytes) : Option (List Char) := do
  Utf8.decode? (← Deflate.unframe? (← dropMagic? magic blob))

/-- The index in a snapshot, in order. -/
def decode (blob : Bytes) : Except Failure IndexData :=
  match dropMagic? magic blob with
  | none => .error (.fault (Fault.indexFailed "Unrecognized symbol snapshot header" none))
  | some body =>
    match (Deflate.unframe? body).bind Utf8.decode? with
    | none => .error (corrupt "no text")
    | some text => match Json.readChars? text with
      | .error .malformed => .error (corrupt "no JSON")
      | .error e => .error (.breakdown (Failure.ofRead e))
      | .ok v => match (IndexData.read v).result with
        | .error _ => .error (corrupt "no index")
        | .ok d => .ok d.normal

end Snapshot
end CodeAgent
