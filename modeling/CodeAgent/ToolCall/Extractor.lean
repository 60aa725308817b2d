import CodeAgent.ToolCall.InvokeBlock
import CodeAgent.ToolCall.CompactTag
import CodeAgent.ToolCall.JsonCall

/-! All the tool calls of a text, in the order in which they appear and each of them once. -/
namespace CodeAgent
open CodeAgent.Text

/-- A way to find calls in a text: the calls with their offsets, in the order of finding. One that
breaks off keeps what it found before. There is no call in an empty text. -/
structure Extractor where
  find : List Char → List (Nat × ToolCall)
  find_nil : find [] = []

/-- A written form of tool calls. -/
inductive CallForm where
  | invokeBlock
  | compactTag
  | embeddedJson
  | markedLine
  deriving DecidableEq, Repr

namespace CallForm

/-- The forms in the order of their priority. -/
def all : List CallForm := [invokeBlock, compactTag, embeddedJson, markedLine]

/-- The calls of a text that are written in a form, with their offsets. -/
def extract : CallForm → List Char → List (Nat × ToolCall)
  | invokeBlock => InvokeBlock.extract
  | compactTag => CompactTag.extract
  | embeddedJson => JsonCall.extractEmbedded
  | markedLine => JsonCall.extractMarked

theorem extract_nil (form : CallForm) : form.extract [] = [] := by
  cases form with
  | invokeBlock => simp [extract, InvokeBlock.extract, findEach, Markup.callsOf]
  | compactTag => simp [extract, CompactTag.extract, findEach, Markup.callsOf]
  | embeddedJson => simp [extract, JsonCall.extractEmbedded, JsonCall.embeddedFrom]
  | markedLine => rfl

/-- A form as a way to find calls. -/
def extractor (form : CallForm) : Extractor := ⟨form.extract, form.extract_nil⟩

end CallForm

/-- A call found at an offset by a form of a given rank; a lower rank goes first. -/
structure Candidate where
  offset : Nat
  rank : Nat
  call : ToolCall

namespace Candidate

/-- Candidates go by offset, and by rank at the same offset. -/
def before (a b : Candidate) : Bool :=
  a.offset < b.offset || (a.offset == b.offset && a.rank ≤ b.rank)

/-- The candidates that extractors find in a text, in the order of finding; an extractor's rank is its
position. -/
def found (extractors : List Extractor) (cs : List Char) : List Candidate :=
  extractors.zipIdx.flatMap fun (e, rank) => (e.find cs).map fun (offset, call) => ⟨offset, rank, call⟩

/-- The first call of each identity. -/
def distinct (seen : List (String × String)) : List Candidate → List ToolCall
  | [] => []
  | c :: cs =>
    if !Tool.isAllowed c.call.name || seen.contains c.call.dedupKey then distinct seen cs
    else c.call :: distinct (c.call.dedupKey :: seen) cs

/-- All candidates of a text in order. -/
def all (forms : List CallForm) (cs : List Char) : List Candidate :=
  (found (forms.map CallForm.extractor) cs).mergeSort before

end Candidate

/-- The allowed calls that extractors find in a text, each once, in the order in which they appear. -/
def Extractor.calls (extractors : List Extractor) (s : String) : List ToolCall :=
  Candidate.distinct [] ((Candidate.found extractors s.toList).mergeSort Candidate.before)

/-- The allowed calls of a text in some forms. -/
def extractCalls (forms : List CallForm) (s : String) : List ToolCall :=
  Extractor.calls (forms.map CallForm.extractor) s

/-- The calls of a text in any form. -/
def ToolCall.ofText (s : String) : List ToolCall :=
  extractCalls CallForm.all s

end CodeAgent
