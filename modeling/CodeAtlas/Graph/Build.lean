import CodeAtlas.Graph.Walk
import CodeAtlas.Hash.Blake3
import CodeAtlas.Reasoning

/-!
Building the atlas of a project: the graph of its entities, calls, imports, endpoints and tables, and what
the model's findings and the calls say about intent. Refused nodes and edges end the build; calls whose
ends cannot be resolved are passed over, and low findings are dropped.
-/
namespace CodeAtlas

/-- The graph of a project and what is known about its intent. -/
structure Atlas where
  project : String
  graph : Graph
  reasoning : Reasoning

namespace Report

/-- The node of an entity. -/
def Entity.toNode (e : Entity) : Graph.Node where
  id := e.id
  name := e.name
  kind := e.kind
  file := e.file
  startLine := e.startLine
  endLine := e.endLine
  language := e.language
  signature := e.signature
  description := e.description
  confidence := e.confidence

end Report

namespace Graph

/-- How many lines an entity is taken to cover when its end is not known. -/
def openRangeLines : Nat := 1000

/-- The last line of a node's range. -/
def Node.lastLine (n : Node) : Nat := if 0 < n.endLine then n.endLine else n.startLine + openRangeLines

/-- Whether a line lies in the range of a node. -/
def Node.covers (n : Node) (line : Nat) : Bool := n.startLine ≤ line && line ≤ n.lastLine

/-- How far a node's end lies behind its start; zero when its end is not known. -/
def Node.extent (n : Node) : Nat := n.endLine - n.startLine

/-- Whether a node stands for a piece of code. -/
def Node.isCode (n : Node) : Bool := n.kind.isCode

/-- The first of the nodes with the smallest extent. -/
def innermost? : List Node → Option Node
  | [] => none
  | n :: rest =>
    match innermost? rest with
    | none => some n
    | some m => if n.extent ≤ m.extent then some n else some m

/-- The node that makes a call: the innermost piece of code around the line, else the file's first one. -/
def resolveCaller (g : Graph) (c : Facts.Call) : Option String :=
  let candidates := (g.nodesInFile c.file).filter (·.isCode)
  ((innermost? (candidates.filter (·.covers c.line))).or candidates.head?).map (·.id)

/-- The node that is called: by qualified name, else by name in the same file, else by name anywhere. -/
def resolveCallee (g : Graph) (c : Facts.Call) : Option String :=
  let qualified := c.receiver.bind fun receiver =>
    (g.nodesNamed (receiver ++ "." ++ c.callee)).find? (·.isCode)
  let named := (g.nodesNamed c.callee).filter (·.isCode)
  ((qualified.or (named.find? (·.file == c.file))).or named.head?).map (·.id)

/-- The weight of a call that the scanner is sure of, and of any other. -/
def callWeight (level : Level) : Float := if level == .high then 1.0 else 0.6

/-- Append an edge, whether its identifier is new or not. -/
def link (g : Graph) (e : Edge) : Except Refusal Graph := (g.addEdge e).map (·.1)

/-- Add the edge of a call when both its ends are known. -/
def addCall (g : Graph) (c : Facts.Call) : Except Refusal Graph :=
  match g.resolveCaller c, g.resolveCallee c with
  | some source, some target =>
    g.link {
      id := "call:" ++ source ++ ":" ++ target
      source := source
      target := target
      kind := .calls
      weight := callWeight c.level }
  | _, _ => .ok g

/-- Add the edge of an import, from the file's first node or else from the file itself. -/
def addImport (g : Graph) (i : Facts.Import) : Except Refusal Graph :=
  let source := ((g.nodesInFile i.file).head?.map (·.id)).getD i.file
  g.link {
    id := "import:" ++ source ++ ":" ++ i.target
    source := source
    target := i.target
    kind := .imports }

/-- The node of an endpoint. -/
def endpointNode (e : Facts.Endpoint) : Node where
  id := entityId e.file (e.method ++ "_" ++ e.path)
  name := e.method ++ " " ++ e.path
  kind := .endpoint
  file := e.file
  startLine := e.line
  endLine := e.line
  signature := e.handler
  description := some (e.method ++ " " ++ e.path)
  confidence := ⟨Confidence.declared, .deterministic, "Discovered from route declaration"⟩

/-- Add the node of an endpoint, and an edge to its handler when the handler's file has a node so named. -/
def addEndpoint (g : Graph) (e : Facts.Endpoint) : Except Refusal Graph := do
  let handler := e.handler.bind fun name => (g.nodesNamed name).find? (·.file == e.file)
  let node := endpointNode e
  let g ← g.addNode node
  match handler with
  | none => .ok g
  | some h =>
    g.link {
      id := "route:" ++ node.id ++ ":" ++ h.id
      source := node.id
      target := h.id
      kind := .uses }

/-- The identifier of a table. -/
def tableId (file name : String) : String := entityId file ("table:" ++ name)

/-- How many columns a table's description names. -/
def describedColumns : Nat := 5

/-- What a table's node says about the table: where it comes from and its first columns. -/
def schemaDescription (s : Facts.Schema) : String :=
  let names := (s.attributes.take describedColumns).map (·.name)
  let extra := s.attributes.length - describedColumns
  let names := if extra = 0 then names else names ++ ["(+" ++ Decimal.natText extra ++ " more)"]
  if names.isEmpty then s.source else s.source ++ ": " ++ ", ".intercalate names

/-- The node of a table. -/
def schemaNode (s : Facts.Schema) : Node where
  id := tableId s.file s.name
  name := s.name
  kind := .table
  file := s.file
  startLine := s.startLine
  endLine := s.startLine
  description := some (schemaDescription s)
  confidence := ⟨Confidence.declared, .deterministic, "Extracted from " ++ s.source⟩

/-- The table that a name refers to: the last schema of that name, else a table of the same file. -/
def referencedTable (schemas : List Facts.Schema) (file name : String) : String :=
  match schemas.reverse.find? (·.name == name) with
  | some s => tableId s.file s.name
  | none => tableId file name

/-- Add the edge of a reference between tables. -/
def addReference (schemas : List Facts.Schema) (s : Facts.Schema) (g : Graph) (r : Facts.Relation) :
    Except Refusal Graph :=
  let source := tableId s.file s.name
  let target := referencedTable schemas s.file r.target
  g.link {
    id := "schema_ref:" ++ source ++ ":" ++ target
    source := source
    target := target
    kind := .references
    context := some r.kind }

/-- Add the node of a table and the edges of its references. -/
def addSchema (schemas : List Facts.Schema) (g : Graph) (s : Facts.Schema) : Except Refusal Graph := do
  let g ← g.addNode (schemaNode s)
  s.relations.foldlM (addReference schemas s) g

/-- The graph of reconciled entities and facts. -/
def build (report : Report) (facts : Facts) : Except Refusal Graph := do
  let g ← report.entities.foldlM (fun g e => g.addNode e.toNode) empty
  let g ← facts.calls.foldlM addCall g
  let g ← facts.imports.foldlM addImport g
  let g ← facts.endpoints.foldlM addEndpoint g
  facts.schemas.foldlM (addSchema facts.schemas) g

end Graph

namespace Reasoning

/-- An identifier made of the first twelve hexadecimal digits of a hash over parts. -/
def shortId (kind : String) (parts : List String) : String :=
  let bytes := parts.flatMap fun (part : String) => part.toUTF8.toList ++ [0]
  kind ++ ":" ++ Text.take 12 (Hash.hashBytes bytes)

/-- The confidence in a model finding of some level. -/
def levelConfidence (level : Level) (lead : String) : Confidence :=
  ⟨level.score, .probabilistic, lead ++ ": " ++ level.text⟩

/-- The purpose that a narrative states. -/
def ofNarrative (n : Findings.Narrative) : Purpose :=
  ⟨n.file, n.purpose, levelConfidence n.level "Narrated"⟩

/-- The rule that the model states. -/
def ofRule (r : Findings.Rule) : Rule where
  id := shortId "rule" [r.file, r.text]
  text := r.text
  kind := r.kind
  condition := r.condition
  consequence := r.consequence
  file := r.file
  lineStart := r.lineStart
  lineEnd := r.lineEnd
  confidence := levelConfidence r.level "Extracted rule"

/-- The risk that the model states. -/
def ofRisk (r : Findings.Risk) : Risk where
  id := shortId "risk" [r.file, r.title, Decimal.natText r.line]
  title := r.title
  kind := r.kind
  severity := r.severity
  description := r.description
  file := r.file
  line := r.line
  recommendations := r.recommendations
  confidence := levelConfidence r.level "Detected risk"

/-- Take over the findings that are not of low level; purposes must not be blank. -/
def addFindings (r : Reasoning) (f : Findings) : Reasoning :=
  let narratives := f.narratives.filter fun n => n.level ≠ .low ∧ !Text.blank n.purpose
  let r := narratives.foldl (fun r n => r.addPurpose (ofNarrative n)) r
  let r := (f.rules.filter (·.level ≠ .low)).foldl (fun r x => r.addRule (ofRule x)) r
  (f.risks.filter (·.level ≠ .low)).foldl (fun r x => r.addRisk (ofRisk x)) r

/-- The workflow of a callable with at least two direct callees. -/
def workflowOf? (g : Graph) (n : Graph.Node) : Option Workflow :=
  let callees := g.callees n.id 1
  if !n.kind.isCallable || callees.length < 2 then none
  else some {
    id := "workflow:" ++ n.id
    name := n.name ++ " workflow"
    description := n.name ++ " calls " ++ Decimal.natText callees.length ++ " functions"
    steps := ⟨0, n.id, "Entry: " ++ n.name⟩ ::
      callees.zipIdx.map fun (c, i) => ⟨i + 1, c.id, "Calls " ++ c.name⟩
    confidence := ⟨Confidence.workflow, .deterministic, "Inferred from call chain"⟩ }

/-- Add the workflows of a graph. -/
def addWorkflows (r : Reasoning) (g : Graph) : Reasoning :=
  (g.sortedNodes.filterMap (workflowOf? g)).foldl addWorkflow r

end Reasoning

/-- Build the atlas of a project. -/
def Atlas.build (project : String) (report : Report) (facts : Facts) (findings : Findings) :
    Except Graph.Refusal Atlas := do
  let graph ← Graph.build report facts
  return ⟨project, graph, (Reasoning.empty.addFindings findings).addWorkflows graph⟩

end CodeAtlas
