import CodeAtlas.Citation.Check
import CodeAtlas.Document.Writer
import CodeAtlas.Graph.Build
import CodeAtlas.Graph.Codec
import CodeAtlas.Models.Usage
import CodeAtlas.Stage.Basic
import CodeAtlas.Width

/-!
What a survey of a project brings back: how its stages ended, the sections of the document, and what was
counted on the way. A survey that breaks off still tells how far it came.
-/
namespace CodeAtlas

namespace Survey

/-- How far both readings of the code agree. -/
structure Validation where
  crossValidated : Nat
  scannerOnly : Nat
  modelOnly : Nat
  conflicts : List String

/-- How many citations were checked, and the checks that failed. -/
structure CitationTally where
  checked : Nat := 0
  failed : List Citation.Check := []

/-- Take in the checks of one more section. -/
def CitationTally.add (t : CitationTally) (checks : List Citation.Check) : CitationTally where
  checked := t.checked + checks.length
  failed := t.failed ++ checks.filter (!·.passed)

end Survey

/-- What a survey of a project brought back. -/
structure Survey where
  id : String
  project : String
  commit : Option String := none
  success : Bool := false
  error : Option String := none
  stages : List Stage.Status := []
  sections : List Document.Section := []
  validation : Option Survey.Validation := none
  stats : Option Graph.Stats := none
  citations : Option Survey.CitationTally := none
  checkpointHits : Nat := 0
  degradedChunks : Nat := 0
  usage : Models.Usage := {}
  duration : Duration := 0
  atlas : Option Atlas := none

namespace Survey

/-- The section of a name. -/
def section? (s : Survey) (name : String) : Option Document.Section := s.sections.find? (·.name == name)

/-- The status of a stage. -/
def stage? (s : Survey) (name : String) : Option Stage.Status := s.stages.find? (·.name == name)

/-- How far a report's two sides agree. -/
def Validation.ofReport (r : Report) : Validation :=
  ⟨r.crossValidated, r.deterministicOnly, r.modelOnly, r.conflicts⟩

/-- Encode a validation. -/
def Validation.encode (v : Validation) : Json :=
  .obj [("cross_validated", .nat v.crossValidated), ("deterministic_only", .nat v.scannerOnly),
    ("model_only", .nat v.modelOnly), ("conflicts", Json.strings v.conflicts)]

/-- Encode a tally of citations. -/
def CitationTally.encode (t : CitationTally) : Json :=
  .obj [("checked", .nat t.checked), ("failed", Json.list Citation.Check.encode t.failed)]

/-- Encode a survey, without its atlas. -/
def encode (s : Survey) : Json :=
  .obj [("run_id", .str s.id), ("project_id", .str s.project), ("commit_sha", Json.optional .str s.commit),
    ("success", .bool s.success), ("error", Json.optional .str s.error),
    ("stages", Json.list Stage.Status.encode s.stages),
    ("sections", Json.list Document.Section.encode s.sections),
    ("validation", Json.optional Validation.encode s.validation),
    ("graph", Json.optional Graph.Stats.encode s.stats),
    ("citations", Json.optional CitationTally.encode s.citations),
    ("checkpoint_hits", .nat s.checkpointHits), ("degraded_chunks", .nat s.degradedChunks),
    ("usage", s.usage.encode), ("total_cost", .float s.usage.totalCost),
    ("duration_ms", .nat (Width.wrap 64 s.duration.toMillis))]

end Survey
end CodeAtlas
