import CodeAtlas.Document.Sketch
import CodeAtlas.Text.Lower

/-!
Sections that draw conclusions: what may be unsafe, and the stories that rules and workflows tell.
-/
namespace CodeAtlas.Document

open Markdown

/-- Words in the names of dangerous operations. -/
def dangerWords : List String := [
  "eval", "exec", "system", "popen", "subprocess", "shell", "pickle", "deserialize", "unsafe",
  "raw_sql", "sql", "inject"]

/-- Words in the names of what is to be kept secret. -/
def secretWords : List String := ["password", "secret", "key", "token", "credential", "private"]

/-- Words in the names of what decides who may enter. -/
def accessWords : List String := ["auth", "login", "logout", "session", "permission", "role"]

/-- The nodes whose names contain one of some words, each with that word. -/
def nodesWith (words : List String) (nodes : List Graph.Node) : List (Graph.Node × String) :=
  nodes.filterMap fun n => (wordIn? words n).map fun w => (n, w)

/-- The place of a severity in the order of listing. -/
def severityRank : Findings.Severity → Nat
  | .critical => 0
  | .high => 1
  | .medium => 2
  | .low => 3

/-- Whether a risk is listed before another: by severity, then by file and line. -/
def riskBefore (a b : Reasoning.Risk) : Bool :=
  if severityRank a.severity ≠ severityRank b.severity then
    decide (severityRank a.severity < severityRank b.severity)
  else if a.file ≠ b.file then decide (a.file < b.file)
  else decide (a.line ≤ b.line)

/-- The row of a risk. -/
def riskRow (r : Reasoning.Risk) : List String :=
  [r.severity.text, cell r.title, code (r.file ++ ":" ++ count r.line),
    cell (r.recommendations.head?.getD "-")]

/-- Dangerous operations, secrets and risks. -/
def securityConsiderations (s : Source) : Sketch :=
  let dangers := nodesWith dangerWords s.callables
  let secrets := nodesWith secretWords s.nodes
  let accesses := nodesWith accessWords s.nodes
  let rules := s.atlas.reasoning.rules.filter fun r => r.kind == "validation" || r.kind == "access_control"
  let risks := s.atlas.reasoning.risks.mergeSort riskBefore
  let riskTable := if risks.isEmpty then []
    else [.text "\n## LLM-Detected Risks\n\n",
      .table ["Severity", "Title", "Location", "Recommendation"] (risks.map riskRow)]
  let sketch := Sketch.ofNodes ([
    .text "# Security Considerations\n\n## Potential Vulnerabilities\n\n",
    tableOr "No functions matched known dangerous-operation patterns." ["Name", "Location", "Pattern"]
      (dangers.map fun (n, word) => [code n.name, placeOf n, code word]),
    .text "\n## Sensitive Data Handling\n\n",
    tableOr "No identifiers suggest direct handling of secrets or credentials."
      ["Name", "Kind", "Location", "Pattern"]
      (secrets.map fun (n, word) => [code n.name, n.kind.text, placeOf n, code word])] ++ riskTable ++ [
    .text "\n## Coverage Summary\n\n",
    .bullets [
      "Authentication-related entities: " ++ count accesses.length,
      "Validation and access rules: " ++ count rules.length,
      "Potential vulnerabilities flagged: " ++ count dangers.length,
      "Sensitive identifiers: " ++ count secrets.length,
      "Model-detected risks: " ++ count risks.length]]) ((dangers ++ secrets).map (·.1))
  { sketch with
    citations := sketch.citations ++
      (risks.filter (0 < ·.line)).map fun r => ⟨r.file, r.line, r.line⟩
    itemCount := sketch.itemCount + risks.length }

/-- A text whose first letter is small. -/
def lowerFirst (s : String) : String :=
  match s.toList with
  | [] => ""
  | c :: rest => String.ofList (Text.lowerChar c ++ rest)

/-- What the user gains from rules of a kind. -/
def gains : List (String × String) := [
  ("validation", "the data I submit is always valid"),
  ("pricing", "charges are calculated correctly"),
  ("workflow", "my work moves through the right steps"),
  ("access_control", "only authorized people can act on my behalf"),
  ("data_constraint", "records stay consistent")]

/-- What the user gains from a rule. -/
def gainOf (r : Reasoning.Rule) : String :=
  match gains.lookup r.kind with
  | some gain => gain
  | none =>
    if Text.blank r.consequence then "the system behaves predictably"
    else lowerFirst (Text.trim r.consequence)

/-- What the user wants, by a rule: its text without full stops at its end. -/
def wishOf (r : Reasoning.Rule) : String :=
  lowerFirst (String.ofList (Text.dropEndWhile (· == '.') (Text.trimChars r.text.toList)))

/-- The story of a rule. -/
def ruleStory (r : Reasoning.Rule) : String :=
  "- **As a** user, **I want** " ++ wishOf r ++ ", **so that** " ++ gainOf r ++ "."

/-- The story of a workflow: what it calls, one after the other. -/
def workflowStory (g : Graph) (w : Reasoning.Workflow) : String :=
  let steps := (w.steps.drop 1).map fun step => code (((g.node? step.node).map (·.name)).getD step.node)
  "- **As a** user, **I want** " ++ code w.name ++ " to run end to end (" ++ " then ".intercalate steps ++ ")."

/-- The stories that rules and workflows tell. -/
def userStories (s : Source) : Sketch :=
  let g := s.atlas.graph
  let rules := s.atlas.reasoning.rules
  let workflows := s.atlas.reasoning.workflows
  let starts := (workflows.filterMap (·.steps.head?)).filterMap fun step => g.node? step.node
  let ruleLines := if rules.isEmpty
    then ["No business rules were extracted, so no user stories could be derived."]
    else rules.map ruleStory
  let closing := if workflows.isEmpty then []
    else [.text "\n## From Workflows\n\n", .text (linesText (workflows.map (workflowStory g)))]
  let sketch := Sketch.ofNodes
    ([.text "# User Stories\n\n## From Business Rules\n\n", .text (linesText ruleLines)] ++ closing) starts
  { sketch with
    citations := sketch.citations ++
      (rules.filter (0 < ·.lineStart)).map fun r => ⟨r.file, r.lineStart, max r.lineEnd r.lineStart⟩
    itemCount := sketch.itemCount + rules.length
    confidence := if starts.isEmpty && !rules.isEmpty then mean (rules.map (·.confidence.value))
      else sketch.confidence }

end CodeAtlas.Document
