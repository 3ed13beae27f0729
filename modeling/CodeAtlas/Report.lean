import CodeAtlas.Facts.Basic
import CodeAtlas.Findings.Basic
import CodeAtlas.Words

/-!
Reconciling the scanner's definitions with the model's findings. The scanner decides what exists, and the
model can only raise confidence: a definition is confirmed when all words of its name occur in one single
mention for the same file. Rules that the scanner cannot see enter as entities of their own.
-/
namespace CodeAtlas

/-- An entity that both readings have been asked about. -/
structure Report.Entity where
  name : String
  kind : EntityKind
  file : String
  startLine : Nat
  endLine : Nat
  language : String := ""
  signature : Option String := none
  description : Option String := none
  confidence : Confidence

/-- The outcome of reconciling both readings. -/
structure Report where
  entities : List Report.Entity := []
  crossValidated : Nat := 0
  deterministicOnly : Nat := 0
  modelOnly : Nat := 0
  conflicts : List String := []

/-- The identifier of a named thing in a file. -/
def entityId (file name : String) : String := file ++ "::" ++ name

namespace Report

/-- The identifier of an entity. -/
def Entity.id (e : Entity) : String := entityId e.file e.name

/-- Whether the two readings contradict each other. -/
def hasConflict (r : Report) : Bool := !r.conflicts.isEmpty

/-- What is reported when both readings have results and none of them agree. -/
def disagreement : String :=
  "No cross-validated entities found despite both analysis paths producing results"

/-- How many characters of a rule's text name it. -/
def ruleNameLength : Nat := 80

/-- The words of one mention in one file. -/
structure Mention where
  file : String
  words : List String

/-- The mentions of the narratives that count, one for each text. -/
def mentions (narratives : List Findings.Narrative) : List Mention :=
  narratives.flatMap fun n => n.mentions.map fun text => ⟨n.file, Words.words text⟩

/-- Whether a name has words, all of which occur in one mention of the same file. -/
def confirmed (mentions : List Mention) (file name : String) : Bool :=
  let own := Words.words name
  !own.isEmpty && mentions.any fun m => m.file == file && Words.allAmong own m.words

/-- Keep the first definition of each name in each file. -/
def firstDefinitions (seen : List (String × String)) : List Facts.Definition → List Facts.Definition
  | [] => []
  | d :: rest =>
    if seen.contains (d.name, d.file) then firstDefinitions seen rest
    else d :: firstDefinitions ((d.name, d.file) :: seen) rest

/-- The confidence in a definition. -/
def definitionConfidence (isConfirmed : Bool) : Confidence :=
  if isConfirmed then
    ⟨Confidence.crossValidated, .crossValidated, "Confirmed by parser and model narrative"⟩
  else ⟨Confidence.scannerOnly, .deterministic, "Found by parser only"⟩

/-- The entity of a definition. -/
def ofDefinition (mentions : List Mention) (d : Facts.Definition) : Entity where
  name := d.name
  kind := d.kind
  file := d.file
  startLine := d.startLine
  endLine := d.endLine
  language := d.language
  signature := d.signature
  description := d.docstring
  confidence := definitionConfidence (confirmed mentions d.file d.name)

/-- The name of a rule: the first characters of its text. -/
def ruleName (r : Findings.Rule) : String := Text.take ruleNameLength r.text

/-- The entity of a rule. -/
def ofRule (r : Findings.Rule) : Entity where
  name := ruleName r
  kind := .businessRule
  file := r.file
  startLine := r.lineStart
  endLine := max r.lineEnd r.lineStart
  description := if r.consequence.isEmpty then none else some r.consequence
  confidence := ⟨Confidence.modelOnly, .probabilistic, "Inferred by model only"⟩

/-- Whether a rule enters the report: its name is not blank and no definition has that name there. -/
def admitsRule (definitions : List Facts.Definition) (r : Findings.Rule) : Bool :=
  !Text.blank (ruleName r) && !definitions.any fun d => d.name == ruleName r && d.file == r.file

/-- Reconcile facts and findings. -/
def reconcile (facts : Facts) (findings : Findings) : Report :=
  let narratives := findings.narratives.filter fun n => !n.isStandIn
  let mentions := mentions narratives
  let definitions := firstDefinitions [] facts.definitions
  let found := definitions.map (ofDefinition mentions)
  let confirmedCount := found.countP fun e => e.confidence.provenance == .crossValidated
  let rules := findings.rules.filter (admitsRule definitions)
  { entities := found ++ rules.map ofRule
    crossValidated := confirmedCount
    deterministicOnly := found.length - confirmedCount
    modelOnly := rules.length
    conflicts :=
      if confirmedCount = 0 ∧ !definitions.isEmpty ∧ !narratives.isEmpty then [disagreement] else [] }

end Report
end CodeAtlas
