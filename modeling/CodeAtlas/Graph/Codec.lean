import CodeAtlas.Facts.Codec
import CodeAtlas.Findings.Codec
import CodeAtlas.Graph.Build

/-!
Reports, graphs and reasoning as documents.
-/
namespace CodeAtlas

/-- The keys shared by the documents of entities and nodes. -/
def Report.entityKeys : List String :=
  ["name", "kind", "file_path", "start_line", "end_line", "language", "signature", "description",
    "confidence"]

/-- Encode a reconciled entity. -/
def Report.Entity.encode (e : Report.Entity) : Json :=
  .obj ([("name", .str e.name), ("kind", e.kind.encode), ("file_path", .str e.file),
      ("start_line", .nat e.startLine), ("end_line", .nat e.endLine), ("language", .str e.language)]
    ++ Json.fieldIfSome "signature" .str e.signature
    ++ Json.fieldIfSome "description" .str e.description ++ [("confidence", e.confidence.encode)])

/-- Decode a reconciled entity. -/
def Report.Entity.decode? (j : Json) : Option Report.Entity := do
  let r ← j.record? Report.entityKeys
  return {
    name := ← r.need "name" Json.text?
    kind := ← r.need "kind" EntityKind.decode?
    file := ← r.need "file_path" Json.text?
    startLine := ← r.need "start_line" Json.line?
    endLine := ← r.need "end_line" Json.line?
    language := ← r.orElse "language" Json.text? ""
    signature := ← r.maybeOrElse "signature" Json.text?
    description := ← r.maybeOrElse "description" Json.text?
    confidence := ← r.need "confidence" Confidence.decode? }

/-- Encode a report. -/
def Report.encode (r : Report) : Json :=
  .obj [("entities", Json.list Report.Entity.encode r.entities), ("cross_validated", .nat r.crossValidated),
    ("deterministic_only", .nat r.deterministicOnly), ("model_only", .nat r.modelOnly),
    ("conflicts", Json.strings r.conflicts)]

/-- Decode a report. -/
def Report.decode? (j : Json) : Option Report := do
  let r ← j.record? ["entities", "cross_validated", "deterministic_only", "model_only", "conflicts"]
  return {
    entities := ← r.need "entities" (Json.list? Report.Entity.decode?)
    crossValidated := ← r.need "cross_validated" (Json.nat? 64)
    deterministicOnly := ← r.need "deterministic_only" (Json.nat? 64)
    modelOnly := ← r.need "model_only" (Json.nat? 64)
    conflicts := ← r.need "conflicts" (Json.list? Json.text?) }

namespace Graph

/-- Decode a kind of edge. -/
def EdgeKind.decode? : Json → Option EdgeKind := Json.oneOf? EdgeKind.all EdgeKind.text

/-- Encode a node. -/
def Node.encode (n : Node) : Json :=
  .obj ([("id", .str n.id), ("name", .str n.name), ("kind", n.kind.encode), ("file_path", .str n.file),
      ("start_line", .nat n.startLine), ("end_line", .nat n.endLine), ("language", .str n.language)]
    ++ Json.fieldIfSome "signature" .str n.signature
    ++ Json.fieldIfSome "description" .str n.description ++ [("confidence", n.confidence.encode)])

/-- Decode a node. -/
def Node.decode? (j : Json) : Option Node := do
  let r ← j.record? ("id" :: Report.entityKeys)
  return {
    id := ← r.need "id" Json.text?
    name := ← r.need "name" Json.text?
    kind := ← r.need "kind" EntityKind.decode?
    file := ← r.need "file_path" Json.text?
    startLine := ← r.need "start_line" Json.line?
    endLine := ← r.need "end_line" Json.line?
    language := ← r.orElse "language" Json.text? ""
    signature := ← r.maybeOrElse "signature" Json.text?
    description := ← r.maybeOrElse "description" Json.text?
    confidence := ← r.need "confidence" Confidence.decode? }

/-- Encode an edge. -/
def Edge.encode (e : Edge) : Json :=
  .obj ([("id", .str e.id), ("source_id", .str e.source), ("target_id", .str e.target),
      ("kind", .str e.kind.text), ("weight", .float e.weight)]
    ++ Json.fieldIfSome "context" .str e.context)

/-- Decode an edge. -/
def Edge.decode? (j : Json) : Option Edge := do
  let r ← j.record? ["id", "source_id", "target_id", "kind", "weight", "context"]
  return {
    id := ← r.need "id" Json.text?
    source := ← r.need "source_id" Json.text?
    target := ← r.need "target_id" Json.text?
    kind := ← r.need "kind" EdgeKind.decode?
    weight := ← r.need "weight" Json.float?
    context := ← r.maybeOrElse "context" Json.text? }

/-- Encode the sizes of a graph. -/
def Stats.encode (s : Stats) : Json :=
  .obj [("entities", .nat s.nodes), ("relationships", .nat s.edges), ("files", .nat s.files),
    ("dangling_targets", .nat s.danglingTargets)]

end Graph

namespace Reasoning

/-- Encode a purpose. -/
def Purpose.encode (p : Purpose) : Json :=
  .obj [("entity_id", .str p.subject), ("statement", .str p.statement),
    ("confidence", p.confidence.encode)]

/-- Decode a purpose. -/
def Purpose.decode? (j : Json) : Option Purpose := do
  let r ← j.record? ["entity_id", "statement", "confidence"]
  return {
    subject := ← r.need "entity_id" Json.text?
    statement := ← r.need "statement" Json.text?
    confidence := ← r.need "confidence" Confidence.decode? }

/-- Encode a rule. -/
def Rule.encode (x : Rule) : Json :=
  .obj [("id", .str x.id), ("rule_text", .str x.text), ("rule_type", .str x.kind),
    ("condition", .str x.condition), ("consequence", .str x.consequence), ("file_path", .str x.file),
    ("line_start", .nat x.lineStart), ("line_end", .nat x.lineEnd), ("confidence", x.confidence.encode)]

/-- Decode a rule. -/
def Rule.decode? (j : Json) : Option Rule := do
  let r ← j.record? ["id", "rule_text", "rule_type", "condition", "consequence", "file_path",
    "line_start", "line_end", "confidence"]
  return {
    id := ← r.need "id" Json.text?
    text := ← r.need "rule_text" Json.text?
    kind := ← r.need "rule_type" Json.text?
    condition := ← r.need "condition" Json.text?
    consequence := ← r.need "consequence" Json.text?
    file := ← r.need "file_path" Json.text?
    lineStart := ← r.need "line_start" Json.line?
    lineEnd := ← r.need "line_end" Json.line?
    confidence := ← r.need "confidence" Confidence.decode? }

/-- Encode a risk. -/
def Risk.encode (x : Risk) : Json :=
  .obj [("id", .str x.id), ("title", .str x.title), ("risk_type", .str x.kind),
    ("severity", .str x.severity.text), ("description", .str x.description), ("file_path", .str x.file),
    ("line", .nat x.line), ("recommendations", Json.strings x.recommendations),
    ("confidence", x.confidence.encode)]

/-- Decode a risk. -/
def Risk.decode? (j : Json) : Option Risk := do
  let r ← j.record? ["id", "title", "risk_type", "severity", "description", "file_path", "line",
    "recommendations", "confidence"]
  return {
    id := ← r.need "id" Json.text?
    title := ← r.need "title" Json.text?
    kind := ← r.need "risk_type" Json.text?
    severity := ← r.need "severity" Findings.Severity.decode?
    description := ← r.need "description" Json.text?
    file := ← r.need "file_path" Json.text?
    line := ← r.need "line" Json.line?
    recommendations := ← r.need "recommendations" (Json.list? Json.text?)
    confidence := ← r.need "confidence" Confidence.decode? }

/-- Encode a step of a workflow. -/
def Step.encode (s : Step) : Json :=
  .obj [("order", .nat s.order), ("entity_id", .str s.node), ("description", .str s.description)]

/-- Decode a step of a workflow. -/
def Step.decode? (j : Json) : Option Step := do
  let r ← j.record? ["order", "entity_id", "description"]
  return {
    order := ← r.need "order" (Json.nat? 64)
    node := ← r.need "entity_id" Json.text?
    description := ← r.need "description" Json.text? }

/-- Encode a workflow. -/
def Workflow.encode (w : Workflow) : Json :=
  .obj [("id", .str w.id), ("name", .str w.name), ("description", .str w.description),
    ("steps", Json.list Step.encode w.steps), ("confidence", w.confidence.encode)]

/-- Decode a workflow. -/
def Workflow.decode? (j : Json) : Option Workflow := do
  let r ← j.record? ["id", "name", "description", "steps", "confidence"]
  return {
    id := ← r.need "id" Json.text?
    name := ← r.need "name" Json.text?
    description := ← r.need "description" Json.text?
    steps := ← r.need "steps" (Json.list? Step.decode?)
    confidence := ← r.need "confidence" Confidence.decode? }

/-- Encode everything known, as maps by key. -/
def encode (r : Reasoning) : Json :=
  .obj [("purposes", .obj (r.purposeMap.toList.map fun (k, p) => (k, p.encode))),
    ("rules", .obj (r.ruleMap.toList.map fun (k, x) => (k, x.encode))),
    ("risks", .obj (r.riskMap.toList.map fun (k, x) => (k, x.encode))),
    ("workflows", .obj (r.workflowMap.toList.map fun (k, w) => (k, w.encode)))]

/-- Decode a map; of equal keys the last one stays. -/
def decodeMap? (decode : Json → Option α) : Json → Option (Std.TreeMap String α)
  | .obj fields => fields.foldlM (fun map (k, j) => (decode j).map (map.insert k ·)) {}
  | _ => none

/-- Decode everything known. -/
def decode? (j : Json) : Option Reasoning := do
  let r ← j.record? ["purposes", "rules", "risks", "workflows"]
  return {
    purposeMap := ← r.need "purposes" (decodeMap? Purpose.decode?)
    ruleMap := ← r.need "rules" (decodeMap? Rule.decode?)
    riskMap := ← r.need "risks" (decodeMap? Risk.decode?)
    workflowMap := ← r.need "workflows" (decodeMap? Workflow.decode?) }

end Reasoning
end CodeAtlas
