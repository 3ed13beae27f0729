import CodeAtlas.Facts.Codec
import CodeAtlas.Findings.Basic

/-!
Findings as documents. The same form is stored in checkpoints, so findings served from a checkpoint and
fresh ones cannot be told apart.
-/
namespace CodeAtlas
namespace Findings

/-- Decode a severity. -/
def Severity.decode? : Json → Option Severity := Json.oneOf? Severity.all Severity.text

/-- Encode a behaviour. -/
def Behavior.encode (b : Behavior) : Json :=
  .obj [("description", .str b.description), ("line_start", .nat b.lineStart),
    ("line_end", .nat b.lineEnd)]

/-- Decode a behaviour. -/
def Behavior.decode? (j : Json) : Option Behavior := do
  let r ← j.record? ["description", "line_start", "line_end"]
  return {
    description := ← r.need "description" Json.text?
    lineStart := ← r.orElse "line_start" Json.line? 0
    lineEnd := ← r.orElse "line_end" Json.line? 0 }

/-- Encode a narrative. -/
def Narrative.encode (n : Narrative) : Json :=
  .obj [("file_path", .str n.file), ("purpose", .str n.purpose),
    ("behaviors", Json.list Behavior.encode n.behaviors), ("concepts", Json.strings n.concepts),
    ("confidence", n.level.encode)]

/-- Decode a narrative. -/
def Narrative.decode? (j : Json) : Option Narrative := do
  let r ← j.record? ["file_path", "purpose", "behaviors", "concepts", "confidence"]
  return {
    file := ← r.need "file_path" Json.text?
    purpose := ← r.need "purpose" Json.text?
    behaviors := ← r.orElse "behaviors" (Json.list? Behavior.decode?) []
    concepts := ← r.orElse "concepts" (Json.list? Json.text?) []
    level := ← r.orElse "confidence" Level.decode? .medium }

/-- Encode a rule. -/
def Rule.encode (x : Rule) : Json :=
  .obj [("rule_text", .str x.text), ("rule_type", .str x.kind), ("condition", .str x.condition),
    ("consequence", .str x.consequence), ("file_path", .str x.file), ("line_start", .nat x.lineStart),
    ("line_end", .nat x.lineEnd), ("confidence", x.level.encode)]

/-- Decode a rule. -/
def Rule.decode? (j : Json) : Option Rule := do
  let r ← j.record? ["rule_text", "rule_type", "condition", "consequence", "file_path", "line_start",
    "line_end", "confidence"]
  return {
    text := ← r.need "rule_text" Json.text?
    kind := ← r.orElse "rule_type" Json.text? ""
    condition := ← r.orElse "condition" Json.text? ""
    consequence := ← r.orElse "consequence" Json.text? ""
    file := ← r.orElse "file_path" Json.text? ""
    lineStart := ← r.orElse "line_start" Json.line? 0
    lineEnd := ← r.orElse "line_end" Json.line? 0
    level := ← r.orElse "confidence" Level.decode? .medium }

/-- Encode a risk. -/
def Risk.encode (x : Risk) : Json :=
  .obj [("title", .str x.title), ("risk_type", .str x.kind), ("severity", .str x.severity.text),
    ("description", .str x.description), ("file_path", .str x.file), ("line", .nat x.line),
    ("recommendations", Json.strings x.recommendations), ("confidence", x.level.encode)]

/-- Decode a risk. -/
def Risk.decode? (j : Json) : Option Risk := do
  let r ← j.record? ["title", "risk_type", "severity", "description", "file_path", "line",
    "recommendations", "confidence"]
  return {
    title := ← r.need "title" Json.text?
    kind := ← r.orElse "risk_type" Json.text? ""
    severity := ← r.orElse "severity" Severity.decode? .medium
    description := ← r.orElse "description" Json.text? ""
    file := ← r.orElse "file_path" Json.text? ""
    line := ← r.orElse "line" Json.line? 0
    recommendations := ← r.orElse "recommendations" (Json.list? Json.text?) []
    level := ← r.orElse "confidence" Level.decode? .medium }

end Findings

/-- Encode the findings of a chunk. -/
def ChunkFindings.encode (f : ChunkFindings) : Json :=
  .obj [("narrative", f.narrative.encode), ("rules", Json.list Findings.Rule.encode f.rules),
    ("risks", Json.list Findings.Risk.encode f.risks)]

/-- Decode the findings of a chunk. -/
def ChunkFindings.decode? (j : Json) : Option ChunkFindings := do
  let r ← j.record? ["narrative", "rules", "risks"]
  return {
    narrative := ← r.need "narrative" Findings.Narrative.decode?
    rules := ← r.orElse "rules" (Json.list? Findings.Rule.decode?) []
    risks := ← r.orElse "risks" (Json.list? Findings.Risk.decode?) [] }

namespace Findings

/-- Encode findings. -/
def encode (f : Findings) : Json :=
  .obj [("narratives", Json.list Narrative.encode f.narratives), ("rules", Json.list Rule.encode f.rules),
    ("risks", Json.list Risk.encode f.risks), ("checkpoint_hits", .nat f.checkpointHits),
    ("degraded_chunks", .nat f.degradedChunks)]

/-- Decode findings; the three lists must be given. -/
def decode? (j : Json) : Option Findings := do
  let r ← j.record? ["narratives", "rules", "risks", "checkpoint_hits", "degraded_chunks"]
  return {
    narratives := ← r.need "narratives" (Json.list? Narrative.decode?)
    rules := ← r.need "rules" (Json.list? Rule.decode?)
    risks := ← r.need "risks" (Json.list? Risk.decode?)
    checkpointHits := ← r.orElse "checkpoint_hits" (Json.nat? 64) 0
    degradedChunks := ← r.orElse "degraded_chunks" (Json.nat? 64) 0 }

end Findings
end CodeAtlas
