import CodeAtlas.Chunk.Basic
import CodeAtlas.Findings.Basic
import CodeAtlas.Json.Record
import CodeAtlas.Models.Basic
import CodeAtlas.Text.Lower
import CodeAtlas.Width

/-!
Reading what a model says about a chunk. Models vary: the narrative may stand in a field of its own or among
the others, rules and risks may be left out, behaviours and concepts may be texts or objects. Every finding is
attributed to the file of the chunk. A reply without a purpose is none.
-/
namespace CodeAtlas.Findings.Reply

/-- Put fields under their proper keys. -/
def renamed (proper : List (String × String)) : Json → Json
  | .obj fields => .obj (fields.map fun (k, v) => ((proper.lookup k).getD k, v))
  | j => j

/-- A level by its word, medium for any other word and for none. -/
def levelOf (word : Option String) : Level :=
  match word.map fun w => Text.asciiLower (Text.trim w) with
  | some "high" => .high
  | some "low" => .low
  | _ => .medium

/-- A severity by its word, medium for any other word and for none. -/
def severityOf (word : Option String) : Severity :=
  match word.map fun w => Text.asciiLower (Text.trim w) with
  | some "critical" => .critical
  | some "high" => .high
  | some "low" => .low
  | _ => .medium

/-- The name of a concept: a text, or an object's name. -/
def conceptName? (j : Json) : Option String :=
  let name := match j with
    | .str s => some s
    | .obj _ => ((j.get? "name").or (j.get? "concept")).bind Json.text?
    | _ => none
  (name.map Text.trim).filter fun n => !n.isEmpty

/-- A line number of an object, zero when there is none. -/
def lineOf (j : Json) (key : String) : Nat := Width.wrap 32 (((j.get? key).bind (Json.nat? 64)).getD 0)

/-- A behaviour: a text, or an object with a description. -/
def behavior? (j : Json) : Option Behavior :=
  match j with
  | .str s => some ⟨s, 0, 0⟩
  | .obj _ => ((j.get? "description").bind Json.text?).map fun d =>
      ⟨d, lineOf j "line_start", lineOf j "line_end"⟩
  | _ => none

/-- A narrative as a model writes it. -/
structure RawNarrative where
  purpose : Option String
  behaviors : List Json
  concepts : List Json
  domainConcepts : List Json
  level : Option String

/-- The keys of a narrative. -/
def narrativeKeys : List String :=
  ["purpose", "behaviors", "concepts", "domain_concepts", "confidence"]

/-- An item as it is. -/
def anyItem? (j : Json) : Option Json := some j.canonical

/-- Decode a narrative. -/
def RawNarrative.decode? (j : Json) : Option RawNarrative := do
  let r ← j.record? narrativeKeys
  return {
    purpose := ← r.maybeOrElse "purpose" Json.text?
    behaviors := ← r.orElse "behaviors" (Json.list? anyItem?) []
    concepts := ← r.orElse "concepts" (Json.list? anyItem?) []
    domainConcepts := ← r.orElse "domain_concepts" (Json.list? anyItem?) []
    level := ← r.maybeOrElse "confidence" Json.text? }

/-- A narrative about a file; none without a purpose. -/
def RawNarrative.toNarrative? (n : RawNarrative) (file : String) : Option Narrative :=
  (n.purpose.filter fun p => !Text.blank p).map fun purpose => {
    file := file
    purpose := purpose
    behaviors := n.behaviors.filterMap behavior?
    concepts := (n.concepts ++ n.domainConcepts).filterMap conceptName?
    level := levelOf n.level }

/-- Decode a rule about a file. -/
def rule? (file : String) (j : Json) : Option Rule := do
  let r ← (renamed [("rule", "rule_text"), ("description", "rule_text")] j).record?
    ["rule_text", "rule_type", "condition", "consequence", "line_start", "line_end", "confidence"]
  return {
    text := ← r.orElse "rule_text" Json.text? ""
    kind := ← r.orElse "rule_type" Json.text? ""
    condition := ← r.orElse "condition" Json.text? ""
    consequence := ← r.orElse "consequence" Json.text? ""
    file := file
    lineStart := ← r.orElse "line_start" (Json.nat? 32) 0
    lineEnd := ← r.orElse "line_end" (Json.nat? 32) 0
    level := levelOf (← r.maybeOrElse "confidence" Json.text?) }

/-- Decode a risk in a file. -/
def risk? (file : String) (j : Json) : Option Risk := do
  let r ← j.record? ["title", "risk_type", "severity", "description", "line", "recommendations",
    "recommendation", "confidence"]
  let several ← r.orElse "recommendations" (Json.list? Json.text?) []
  let single ← r.maybeOrElse "recommendation" Json.text?
  return {
    title := ← r.orElse "title" Json.text? ""
    kind := ← r.orElse "risk_type" Json.text? ""
    severity := severityOf (← r.maybeOrElse "severity" Json.text?)
    description := ← r.orElse "description" Json.text? ""
    file := file
    line := ← r.orElse "line" (Json.nat? 32) 0
    recommendations := several ++ single.toList
    level := levelOf (← r.maybeOrElse "confidence" Json.text?) }

/-- The fields of a reply that do not belong to a narrative among them. -/
def ownKeys : List String := ["narrative", "business_rules", "risks"]

/-- The fields of a reply that may belong to a narrative among them. -/
def otherFields : Json → Json
  | .obj fields => .obj (fields.filter fun f => !ownKeys.contains f.1)
  | j => j

/-- Read a document about a chunk of a file. -/
def findings? (file : String) (j : Json) : Option ChunkFindings := do
  let j := renamed [("rules", "business_rules")] j
  let r ← j.keyedRecord? ownKeys
  let own ← r.maybeOrElse "narrative" RawNarrative.decode?
  let rules ← r.orElse "business_rules" (Json.list? (rule? file)) []
  let risks ← r.orElse "risks" (Json.list? (risk? file)) []
  let among ← RawNarrative.decode? (otherFields j)
  let narrative ← (own.getD among).toNarrative? file
  return {
    narrative := narrative
    rules := rules.filter fun x => !Text.blank x.text
    risks := risks.filter fun x => !Text.blank x.title }

/-- Read a reply about a chunk; a fence around the document does not matter. -/
def read? (text : String) (c : Chunk) : Option ChunkFindings :=
  (Models.documentOf? text).bind (findings? c.file)

end CodeAtlas.Findings.Reply
