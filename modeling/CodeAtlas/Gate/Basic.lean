import CodeAtlas.Json.Record

/-!
What a section of the document must satisfy, and the verdict on one: the checks that failed, whether any of
them forbids the section, and the share of checks that did not fail.
-/
namespace CodeAtlas

namespace Gate

/-- What is asked of a section. -/
structure Rules where
  /-- The least number of characters, white space around the text not counted. -/
  minLength : Nat := 200
  headings : List String := []
  checkPlaceholders : Bool := true
  checkRepetition : Bool := true
  /-- How often the section may be written, the first time included. -/
  maxIterations : Nat := 2

/-- The rules for a section by its name. -/
def Rules.forSection (name : String) : Rules :=
  if name == "executive_overview" then { minLength := 300 }
  else if name == "features" then { headings := ["Feature Areas"] }
  else if name == "system_overview" then { headings := ["Architecture Diagram"] }
  else if name == "security_considerations" then { headings := ["Coverage Summary"] }
  else if ["data_models", "api_specs", "interfaces"].contains name then { minLength := 100 }
  else {}

/-- Whether a failed check forbids a section. -/
inductive Severity where
  | error
  | warning
deriving DecidableEq, Repr

/-- The word for a severity. -/
def Severity.text : Severity → String
  | error => "error"
  | warning => "warning"

/-- A check that failed. -/
structure Failure where
  field : String
  expected : String
  actual : String
  severity : Severity
  remedy : String
deriving DecidableEq

end Gate

/-- The verdict on a section. -/
structure Gate where
  sectionName : String
  passed : Bool
  score : Float
  failures : List Gate.Failure

namespace Gate

/-- The failures that forbid a section. -/
def errors (failures : List Failure) : List Failure := failures.filter (·.severity = .error)

/-- What failed, in one line. -/
def summary (g : Gate) : String :=
  "; ".intercalate (g.failures.map fun f => f.field ++ ": " ++ f.actual)

/-- Encode rules. -/
def Rules.encode (r : Rules) : Json :=
  .obj [("min_length", .nat r.minLength), ("required_headings", Json.strings r.headings),
    ("check_placeholders", .bool r.checkPlaceholders), ("check_repetition", .bool r.checkRepetition),
    ("max_iterations", .nat r.maxIterations)]

/-- Decode rules. -/
def Rules.decode? (j : Json) : Option Rules := do
  let r ← j.record? ["min_length", "required_headings", "check_placeholders", "check_repetition",
    "max_iterations"]
  return {
    minLength := ← r.need "min_length" (Json.nat? 64)
    headings := ← r.need "required_headings" (Json.list? Json.text?)
    checkPlaceholders := ← r.need "check_placeholders" Json.bool?
    checkRepetition := ← r.need "check_repetition" Json.bool?
    maxIterations := ← r.need "max_iterations" (Json.nat? 32) }

/-- Encode a failed check. -/
def Failure.encode (f : Failure) : Json :=
  .obj [("field", .str f.field), ("expected", .str f.expected), ("actual", .str f.actual),
    ("severity", .str f.severity.text), ("remediation", .str f.remedy)]

/-- Decode a failed check. -/
def Failure.decode? (j : Json) : Option Failure := do
  let r ← j.record? ["field", "expected", "actual", "severity", "remediation"]
  return {
    field := ← r.need "field" Json.text?
    expected := ← r.need "expected" Json.text?
    actual := ← r.need "actual" Json.text?
    severity := ← r.need "severity" (Json.oneOf? [.error, .warning] Severity.text)
    remedy := ← r.need "remediation" Json.text? }

/-- Encode a verdict. -/
def encode (g : Gate) : Json :=
  .obj [("section_name", .str g.sectionName), ("passed", .bool g.passed), ("score", .float g.score),
    ("failures", Json.list Failure.encode g.failures)]

/-- Decode a verdict. -/
def decode? (j : Json) : Option Gate := do
  let r ← j.record? ["section_name", "passed", "score", "failures"]
  return {
    sectionName := ← r.need "section_name" Json.text?
    passed := ← r.need "passed" Json.bool?
    score := ← r.need "score" Json.float?
    failures := ← r.need "failures" (Json.list? Failure.decode?) }

end Gate
end CodeAtlas
