import CodeAtlas.Json.Record

/-!
How sure the atlas is of a finding: three levels for single model findings, and a score with its
provenance for everything that enters a graph.
-/
namespace CodeAtlas

/-- How sure the model is of one finding. -/
inductive Level where
  | high
  | medium
  | low
deriving DecidableEq, Repr

namespace Level

/-- The word for a level. -/
def text : Level → String
  | high => "high"
  | medium => "medium"
  | low => "low"

/-- The score of a finding of this level. -/
def score : Level → Float
  | high => 0.90
  | medium => 0.70
  | low => 0.50

/-- All levels. -/
def all : List Level := [high, medium, low]

end Level

/-- Which reading of the code a finding comes from. -/
inductive Provenance where
  | deterministic
  | probabilistic
  | crossValidated
deriving DecidableEq, Repr

namespace Provenance

/-- The word for a provenance. -/
def text : Provenance → String
  | deterministic => "deterministic"
  | probabilistic => "probabilistic"
  | crossValidated => "cross_validated"

/-- All provenances. -/
def all : List Provenance := [deterministic, probabilistic, crossValidated]

end Provenance

/-- A score, where it comes from and why. -/
structure Confidence where
  value : Float
  provenance : Provenance
  explanation : String := ""

namespace Confidence

/-- The score of an entity that both readings found. -/
def crossValidated : Float := 0.95

/-- The score of an entity that the scanner alone found. -/
def scannerOnly : Float := 0.90

/-- The score of a rule that the model alone stated. -/
def modelOnly : Float := 0.70

/-- The score of a workflow. -/
def workflow : Float := 0.60

/-- The score of endpoints and tables. -/
def declared : Float := 0.95

/-- Whether the score lies between zero and one. -/
def isValid (c : Confidence) : Bool := 0.0 ≤ c.value && c.value ≤ 1.0

end Confidence

/-- Decode a level. -/
def Level.decode? : Json → Option Level := Json.oneOf? Level.all Level.text

/-- Encode a level. -/
def Level.encode (l : Level) : Json := .str l.text

/-- Decode a provenance. -/
def Provenance.decode? : Json → Option Provenance := Json.oneOf? Provenance.all Provenance.text

/-- Encode a confidence. -/
def Confidence.encode (c : Confidence) : Json :=
  .obj [("value", .float c.value), ("provenance", .str c.provenance.text),
    ("explanation", .str c.explanation)]

/-- Decode a confidence. -/
def Confidence.decode? (j : Json) : Option Confidence := do
  let r ← j.record? ["value", "provenance", "explanation"]
  return {
    value := ← r.need "value" Json.float?
    provenance := ← r.need "provenance" Provenance.decode?
    explanation := ← r.orElse "explanation" Json.text? "" }

end CodeAtlas
