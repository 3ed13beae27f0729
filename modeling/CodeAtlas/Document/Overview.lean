import CodeAtlas.Document.Sketch

/-!
Sections about the whole: a summary with its numbers, and the tree of modules with a diagram of calls and
imports.
-/
namespace CodeAtlas.Document

open Markdown

/-- The languages with their numbers of files, in one line. -/
def languageLine (languages : List (String × Nat)) : String :=
  if languages.isEmpty then "none detected"
  else ", ".intercalate (languages.map fun (name, files) => name ++ " (" ++ count files ++ ")")

/-- The numbers of the atlas. -/
def glance (s : Source) : List String :=
  let stats := s.atlas.graph.stats
  let crossValidated := s.nodes.countP (·.confidence.provenance == .crossValidated)
  [ "**Entities:** " ++ count stats.nodes,
    "**Cross-validated entities:** " ++ count crossValidated,
    "**Files:** " ++ count stats.files,
    "**Languages:** " ++ languageLine s.languages,
    "**Relationships:** " ++ count stats.edges,
    "**Business rules:** " ++ count s.atlas.reasoning.rules.length,
    "**Workflows:** " ++ count s.atlas.reasoning.workflows.length,
    "**Risks:** " ++ count s.atlas.reasoning.risks.length ]

/-- The summary: the first purpose. -/
def summary (s : Source) : String :=
  match s.atlas.reasoning.purposes.head? with
  | some p => Text.trim p.statement
  | none => "No narrative summary is available for this codebase."

/-- The first five purposes with their subjects. -/
def keyComponents (s : Source) : List String :=
  (s.atlas.reasoning.purposes.take 5).map fun p => code p.subject ++ ": " ++ cell p.statement

/-- A summary, the numbers of the atlas, and the first purposes. -/
def executiveOverview (s : Source) : Sketch :=
  let components := keyComponents s
  let blocks := [
    .text ("# Executive Overview\n\n## Summary\n\n" ++ summary s ++ "\n\n## At a Glance\n\n"),
    .bullets (glance s)]
  let closing := if components.isEmpty then []
    else [.text "\n## Key Components\n\n", .bullets components]
  .ofNodes (blocks ++ closing) s.nodes

/-- The directory of a file. -/
def directoryOf (file : String) : String :=
  let above := file.toList.reverse.dropWhile (· != '/')
  if above.isEmpty then "./" else String.ofList above.reverse

/-- Files with their numbers of nodes, by directory. -/
abbrev ModuleTree := Std.TreeMap String (Std.TreeMap String Nat)

/-- Count one more node of a file. -/
def ModuleTree.note (tree : ModuleTree) (n : Graph.Node) : ModuleTree :=
  tree.alter (directoryOf n.file) fun files =>
    some ((files.getD {}).alter n.file fun number => some (number.getD 0 + 1))

/-- The tree of modules, one line for each directory and each file. -/
def moduleLines (nodes : List Graph.Node) : List String :=
  (nodes.foldl ModuleTree.note {}).toList.flatMap fun (directory, files) =>
    ("- " ++ code directory) :: files.toList.map fun (file, number) =>
      "  - " ++ code file ++ " (" ++ count number ++ (if number = 1 then " entity)" else " entities)")

/-- How many edges a diagram shows. -/
def maxDiagramEdges : Nat := 40

/-- The edges that a diagram shows. -/
def diagramEdges (g : Graph) : List Graph.Edge :=
  (g.edges.toList.filter fun e => e.kind == .calls || e.kind == .imports).take maxDiagramEdges

/-- The line of a diagram for a node. -/
def diagramNode (g : Graph) (id : String) : String :=
  let label := ((g.node? id).map (·.name)).getD id
  "    " ++ nodeName id ++ "[\"" ++ label.map (fun c => if c == '"' then '\x27' else c) ++ "\"]"

/-- The line of a diagram for an edge. -/
def diagramEdge (e : Graph.Edge) : String :=
  "    " ++ nodeName e.source ++ (if e.kind == .calls then " -->|calls| " else " -.->|imports| ") ++
    nodeName e.target

/-- The lines of the diagram: nodes in order and once each, then edges. -/
def diagramLines (g : Graph) : List String :=
  let edges := diagramEdges g
  if edges.isEmpty then ["    empty[\"No relationships discovered\"]"]
  else
    let nodes := edges.flatMap fun e => [diagramNode g e.source, diagramNode g e.target]
    (Std.TreeSet.ofList nodes compare).toList ++ edges.map diagramEdge

/-- The tree of modules and a diagram. -/
def systemOverview (s : Source) : Sketch :=
  let tree := moduleLines s.nodes
  .ofNodes [
    .text "# System Overview\n\n## Module Tree\n\n",
    .text (linesText (if tree.isEmpty then ["No modules were discovered."] else tree)),
    .text "\n## Architecture Diagram\n\n```mermaid\ngraph TD\n",
    .text (linesText (diagramLines s.atlas.graph)),
    .text "```\n"] s.nodes

end CodeAtlas.Document
