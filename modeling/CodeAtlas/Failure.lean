import CodeAtlas.Decimal.Notation
import CodeAtlas.Json.Basic
import CodeAtlas.Json.Record
import CodeAtlas.Text.Basic
import CodeAtlas.Text.Lower

/-!
Failures as they are reported: a name that programs go by, and a text for people where there is one that
does not depend on the machine.
-/
namespace CodeAtlas

/-- A failure as it is reported. -/
structure Fault where
  name : String
  message : Option String := none

/-- Encode a fault. -/
def Fault.encode (f : Fault) : Json :=
  .obj (("error", .str f.name) :: Json.fieldIfSome "message" .str f.message)

end CodeAtlas

/-!
What kind of failure a remote call ended in, by its status or by its message, and which kinds are worth
another try.
-/
namespace CodeAtlas

/-- Kinds of failure. -/
inductive FailureKind where
  | transient
  | server
  | timeout
  | client
  | unknown
deriving DecidableEq, Repr

namespace FailureKind

/-- The word for a kind of failure. -/
def text : FailureKind → String
  | transient => "transient"
  | server => "server"
  | timeout => "timeout"
  | client => "client"
  | unknown => "unknown"

/-- All kinds of failure. -/
def all : List FailureKind := [transient, server, timeout, client, unknown]

/-- Whether another try may help. -/
def isRetryable : FailureKind → Bool
  | transient => true
  | server => true
  | timeout => true
  | _ => false

/-- The kind of an HTTP status. -/
def ofStatus (status : Nat) : FailureKind :=
  if status = 429 then transient
  else if status = 408 then timeout
  else if 400 ≤ status ∧ status ≤ 499 then client
  else if 500 ≤ status ∧ status ≤ 599 then server
  else unknown

/-- Words in a message and the kind they tell, the first that occurs deciding. -/
def signs : List (List String × FailureKind) := [
  (["timeout", "timed out"], timeout), (["429", "rate limit", "rate_limit"], transient),
  (["500", "502", "503", "504"], server), (["connection", "econnrefused"], transient),
  (["400", "401", "403", "404"], client)]

/-- The kind that a message tells. -/
def ofMessage (message : String) : FailureKind :=
  let message := Text.asciiLower message
  match signs.find? fun sign => sign.1.any (Text.contains message ·) with
  | some (_, kind) => kind
  | none => unknown

/-- Decode a kind of failure. -/
def decode? : Json → Option FailureKind := Json.oneOf? all text

end FailureKind
end CodeAtlas

/-!
How a store fails.
-/
namespace CodeAtlas.Store

/-- Why a store could not do what it was asked for. -/
inductive Failure where
  /-- It refused, or could not be reached. -/
  | backend (message : String)
  /-- A vector has not the length of the others. -/
  | dimension (expected actual : Nat)
  /-- Files could not be read or written. -/
  | files
deriving DecidableEq

/-- The text of a failure. -/
def Failure.message : Failure → String
  | backend message => "Storage backend error: " ++ message
  | dimension expected actual =>
    "Dimension mismatch: expected " ++ Decimal.natText expected ++ ", got " ++ Decimal.natText actual
  | files => "IO error"

/-- A failure as it is reported. -/
def Failure.fault (f : Failure) : Fault :=
  match f with
  | backend _ => ⟨"Backend", f.message⟩
  | dimension .. => ⟨"DimensionMismatch", f.message⟩
  | files => ⟨"Io", none⟩

end CodeAtlas.Store
