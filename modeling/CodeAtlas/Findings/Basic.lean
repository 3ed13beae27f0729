import CodeAtlas.Confidence

/-!
What the model says about source text: a narrative for each chunk, the business rules and the risks it
sees. `Findings.push` adds up the findings of chunks; `push` is the only way findings grow.
-/
namespace CodeAtlas
namespace Findings

/-- The purpose written down when no model answered. -/
def unavailablePurpose : String := "Analysis unavailable"

/-- The purpose written down when the answer could not be read. -/
def unreadablePurpose : String := "Failed to parse response"

/-- Something the code does, with the lines it was read from. -/
structure Behavior where
  description : String
  lineStart : Nat := 0
  lineEnd : Nat := 0
deriving DecidableEq

/-- What a chunk of a file is for. -/
structure Narrative where
  file : String
  purpose : String
  behaviors : List Behavior := []
  concepts : List String := []
  level : Level := .medium
deriving DecidableEq

/-- A rule of the business that the code enforces. -/
structure Rule where
  text : String
  kind : String := ""
  condition : String := ""
  consequence : String := ""
  file : String := ""
  lineStart : Nat := 0
  lineEnd : Nat := 0
  level : Level := .medium
deriving DecidableEq

/-- How bad a risk is. -/
inductive Severity where
  | critical
  | high
  | medium
  | low
deriving DecidableEq, Repr

/-- Something that may go wrong. -/
structure Risk where
  title : String
  kind : String := ""
  severity : Severity := .medium
  description : String := ""
  file : String := ""
  line : Nat := 0
  recommendations : List String := []
  level : Level := .medium
deriving DecidableEq

namespace Severity

/-- The word for a severity. -/
def text : Severity → String
  | critical => "critical"
  | high => "high"
  | medium => "medium"
  | low => "low"

/-- The word for a severity as a heading writes it. -/
def title : Severity → String
  | critical => "Critical"
  | high => "High"
  | medium => "Medium"
  | low => "Low"

/-- All severities, the worst first. -/
def all : List Severity := [critical, high, medium, low]

end Severity

/-- A narrative that stands in for one that could not be had. -/
def Narrative.standIn (file purpose : String) : Narrative where
  file := file
  purpose := purpose
  level := .low

/-- Whether a narrative only stands in for a missing one, and so confirms nothing. -/
def Narrative.isStandIn (n : Narrative) : Bool :=
  n.behaviors.isEmpty && n.concepts.isEmpty &&
    (n.purpose == unavailablePurpose || n.purpose == unreadablePurpose)

/-- All free text of a narrative. -/
def Narrative.mentions (n : Narrative) : List String :=
  n.purpose :: n.behaviors.map Behavior.description ++ n.concepts

end Findings

/-- What the model says about one chunk. -/
structure ChunkFindings where
  narrative : Findings.Narrative
  rules : List Findings.Rule := []
  risks : List Findings.Risk := []
deriving DecidableEq

namespace ChunkFindings

/-- The findings when no model answered. -/
def unavailable (file : String) : ChunkFindings := ⟨.standIn file Findings.unavailablePurpose, [], []⟩

/-- The findings when the answer could not be read. -/
def unreadable (file : String) : ChunkFindings := ⟨.standIn file Findings.unreadablePurpose, [], []⟩

/-- Whether the findings are worth little: a narrative of low level and nothing else. -/
def isDegraded (f : ChunkFindings) : Bool :=
  f.narrative.level == .low && f.rules.isEmpty && f.risks.isEmpty

end ChunkFindings

/-- The findings of all chunks, with the number served from checkpoints and the number degraded. -/
structure Findings where
  narratives : List Findings.Narrative := []
  rules : List Findings.Rule := []
  risks : List Findings.Risk := []
  checkpointHits : Nat := 0
  degradedChunks : Nat := 0

namespace Findings

/-- No findings. -/
def empty : Findings := {}

/-- Add the findings of one more chunk. -/
def push (f : Findings) (c : ChunkFindings) : Findings :=
  { f with
    narratives := f.narratives ++ [c.narrative]
    rules := f.rules ++ c.rules
    risks := f.risks ++ c.risks
    degradedChunks := f.degradedChunks + (if c.isDegraded then 1 else 0) }

/-- Whether nothing was found. -/
def isEmpty (f : Findings) : Bool := f.narratives.isEmpty && f.rules.isEmpty && f.risks.isEmpty

end Findings
end CodeAtlas
