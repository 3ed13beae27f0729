import CodeAtlas.Findings.Basic
import Std.Data.TreeMap

/-!
What is known about the intent of the code: purposes, rules, risks and workflows, each kept by its key and
listed in the order of keys. A purpose gives way only to a more confident one; for the others the last
one under a key stays.
-/
namespace CodeAtlas

namespace Reasoning

/-- What a file or an entity is for. -/
structure Purpose where
  subject : String
  statement : String
  confidence : Confidence

/-- A business rule. -/
structure Rule where
  id : String
  text : String
  kind : String
  condition : String
  consequence : String
  file : String
  lineStart : Nat
  lineEnd : Nat
  confidence : Confidence

/-- A risk. -/
structure Risk where
  id : String
  title : String
  kind : String
  severity : Findings.Severity
  description : String
  file : String
  line : Nat
  recommendations : List String
  confidence : Confidence

/-- One step of a workflow. -/
structure Step where
  order : Nat
  node : String
  description : String

/-- A callable and what it calls. -/
structure Workflow where
  id : String
  name : String
  description : String
  steps : List Step
  confidence : Confidence

end Reasoning

/-- Purposes, rules, risks and workflows by key. -/
structure Reasoning where
  purposeMap : Std.TreeMap String Reasoning.Purpose := {}
  ruleMap : Std.TreeMap String Reasoning.Rule := {}
  riskMap : Std.TreeMap String Reasoning.Risk := {}
  workflowMap : Std.TreeMap String Reasoning.Workflow := {}

namespace Reasoning

/-- Nothing known. -/
def empty : Reasoning := {}

/-- Add a purpose; the one that is there stays unless the new one is more confident. -/
def addPurpose (r : Reasoning) (p : Purpose) : Reasoning :=
  match r.purposeMap[p.subject]? with
  | some old =>
    if p.confidence.value ≤ old.confidence.value then r
    else { r with purposeMap := r.purposeMap.insert p.subject p }
  | none => { r with purposeMap := r.purposeMap.insert p.subject p }

/-- Add a rule, in place of one with the same identifier. -/
def addRule (r : Reasoning) (x : Rule) : Reasoning := { r with ruleMap := r.ruleMap.insert x.id x }

/-- Add a risk, in place of one with the same identifier. -/
def addRisk (r : Reasoning) (x : Risk) : Reasoning := { r with riskMap := r.riskMap.insert x.id x }

/-- Add a workflow, in place of one with the same identifier. -/
def addWorkflow (r : Reasoning) (w : Workflow) : Reasoning :=
  { r with workflowMap := r.workflowMap.insert w.id w }

/-- The purpose of a file or an entity. -/
def purpose? (r : Reasoning) (subject : String) : Option Purpose := r.purposeMap[subject]?

/-- All purposes by subject. -/
def purposes (r : Reasoning) : List Purpose := r.purposeMap.values

/-- All rules by identifier. -/
def rules (r : Reasoning) : List Rule := r.ruleMap.values

/-- All risks by identifier. -/
def risks (r : Reasoning) : List Risk := r.riskMap.values

/-- All workflows by identifier. -/
def workflows (r : Reasoning) : List Workflow := r.workflowMap.values

/-- The numbers of purposes, rules, risks and workflows. -/
def counts (r : Reasoning) : List Nat :=
  [r.purposeMap.size, r.ruleMap.size, r.riskMap.size, r.workflowMap.size]

end Reasoning
end CodeAtlas
