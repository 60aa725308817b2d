import CodeAgent.Coercion
import CodeAgent.Fault
import CodeAgent.Json.Reader
import CodeAgent.Workspace.FileTree

/-! Everything that an operation can end in besides its result. -/
namespace CodeAgent

/-- A failure that no operation foresees: a value, a text or a host that breaks the assumptions of
the code that works on it. -/
inductive Breakdown where
  | tooNested
  | wrongType
  | badValue
  | outOfRange
  | missingKey
  | missingMember
  | tooLarge
  | badEncoding
  | badHeader
  | badAddress
  | hostRefused
  | badPattern
  | badMarkup
  deriving DecidableEq, Repr

/-- How an operation fails: with a fault that its callers know of, with values that are refused, with
an error of the file system, or with a breakdown. -/
inductive Failure where
  | fault (f : Fault)
  | invalid (issues : List Coercion.Issue)
  | file (e : FileError)
  | breakdown (b : Breakdown)

namespace Failure

/-- A value that was read, or the breakdown that stands for the reason why not. -/
def ofRead (e : Json.ReadError) : Breakdown :=
  match e with
  | .malformed | .integerTooLong => .badValue
  | .tooDeep => .tooNested

/-- The fault, if the failure is one. -/
def fault? : Failure → Option Fault
  | fault f => some f
  | _ => none

end Failure
end CodeAgent
