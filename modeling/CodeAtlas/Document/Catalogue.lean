import CodeAtlas.Document.Sketch
import CodeAtlas.Graph.Walk

/-!
Sections that list what there is: features by file, data models, endpoints with their handlers, and
interfaces.
-/
namespace CodeAtlas.Document

open Markdown

/-- How many names a row lists. -/
def maxNames : Nat := 8

/-- Nodes by file. -/
abbrev FileGroups := Std.TreeMap String (List Graph.Node)

/-- Put a node with the others of its file. -/
def FileGroups.note (groups : FileGroups) (n : Graph.Node) : FileGroups :=
  groups.alter n.file fun nodes => some (nodes.getD [] ++ [n])

/-- The names of nodes, the first few of them in full. -/
def nameList (nodes : List Graph.Node) : String :=
  let names := (nodes.take maxNames).map fun n => cell n.name
  let more := if maxNames < nodes.length then ["+" ++ count (nodes.length - maxNames) ++ " more"] else []
  ", ".intercalate (names ++ more)

/-- The row of a file: what it is for, and what it holds. -/
def featureRow (r : Reasoning) (file : String) (nodes : List Graph.Node) : List String :=
  [code file, ((r.purpose? file).map fun p => cell p.statement).getD "-", nameList nodes]

/-- Whether a node comes before another by name and file. -/
def byName (a b : Graph.Node) : Bool :=
  if a.name = b.name then !decide (b.file < a.file) else decide (a.name < b.name)

/-- The signature of a node as code. -/
def signature (n : Graph.Node) : String := code (n.signature.getD "")

/-- What can be called, by file and by name. -/
def features (s : Source) : Sketch :=
  let callables := s.callables
  let files := (callables.foldl FileGroups.note {}).toList
  let opening := "# Main Application Features\n\nCapabilities discovered from " ++ count callables.length ++
    " functions across " ++ count files.length ++ " files.\n\n## Feature Areas\n\n"
  let listing :=
    if callables.isEmpty then []
    else [.text "## Functions\n\n", .table ["Name", "File", "Signature"]
      ((callables.mergeSort byName).map fun n => [code n.name, code n.file, signature n])]
  .ofNodes ([.text opening,
    tableOr "No functions or methods were discovered." ["File", "Purpose", "Entities"]
      (files.map fun (file, nodes) => featureRow s.atlas.reasoning file nodes),
    .text "\n"] ++ listing) callables

/-- What comes after the last colon. -/
def afterLastColon (s : String) : String :=
  String.ofList (s.toList.reverse.takeWhile (· != ':')).reverse

/-- What an edge between data models says. -/
def referenceLine (g : Graph) (e : Graph.Edge) : String :=
  let source := ((g.node? e.source).map (·.name)).getD e.source
  let target := ((g.node? e.target).map (·.name)).getD (afterLastColon e.target)
  code source ++ " references " ++ code target ++
    match e.context with
    | some kind => " (" ++ kind ++ ")"
    | none => ""

/-- The row of a data model. -/
def modelRow (n : Graph.Node) : List String :=
  [code n.name, n.kind.text, placeOf n, cell (n.description.getD "-")]

/-- Classes and tables, and what refers to what. -/
def dataModels (s : Source) : Sketch :=
  let g := s.atlas.graph
  let models := s.nodes.filter fun n => n.kind == .type || n.kind == .table
  let isModel (id : String) : Bool := (g.node? id).any fun n => n.kind == .type || n.kind == .table
  let references := g.edges.toList.filter fun e => e.kind == .references && isModel e.source
  let opening := .text "# Data Models\n\n"
  if models.isEmpty then
    .ofNodes [opening, .text "No data model entities (class, table) discovered in the codebase.\n"] models
  else
    let listing := [opening, .text "## Entities\n\n",
      .table ["Name", "Kind", "Location", "Description"] (models.map modelRow)]
    let closing := if references.isEmpty then []
      else [.text "\n## Relationships\n\n", .bullets (references.map (referenceLine g))]
    .ofNodes (listing ++ closing) models

/-- The method and the path in the name of an endpoint; a dash stands for a method that is not there. -/
def methodAndPath (name : String) : String × String :=
  match Text.splitFirst? [' '] name.toList with
  | some (method, path) => (String.ofList method, String.ofList path)
  | none => ("-", name)

/-- The row of an endpoint. -/
def endpointRow (n : Graph.Node) : List String :=
  let (method, path) := methodAndPath n.name
  [method, code path, signature n, placeOf n]

/-- Words in the names of handlers. -/
def handlerWords : List String := ["route", "handler", "endpoint", "view"]

/-- Endpoints, and what handles them by its name. -/
def apiSpecs (s : Source) : Sketch :=
  let endpoints := s.atlas.graph.nodesOfKind .endpoint
  let handlers := s.callables.filter fun n => (wordIn? handlerWords n).isSome
  .ofNodes [
    .text "# API Specifications\n\n## Endpoints\n\n",
    tableOr "No HTTP endpoints were declared in the analyzed code."
      ["Method", "Path", "Handler", "Location"] (endpoints.map endpointRow),
    .text "\n## Route Handlers\n\n",
    tableOr "No route handler functions were identified by name." ["Name", "Location", "Signature"]
      (handlers.map fun n => [code n.name, placeOf n, signature n])] (endpoints ++ handlers)

/-- Words in the names of services. -/
def serviceWords : List String := ["service", "repository", "handler", "controller"]

/-- The row of an interface. -/
def interfaceRow (n : Graph.Node) : List String :=
  [code n.name, placeOf n, cell (clip (n.description.getD "-") 120)]

/-- The row of a service. -/
def serviceRow (g : Graph) (n : Graph.Node) : List String :=
  [code n.name, placeOf n, count (g.callers n.id 1).length]

/-- Interfaces, and classes that are services by their names. -/
def interfaces (s : Source) : Sketch :=
  let g := s.atlas.graph
  let protocols := g.nodesOfKind .interface
  let services := (g.nodesOfKind .type).filter fun n => (wordIn? serviceWords n).isSome
  .ofNodes [
    .text "# Interface Specifications\n\n## Interfaces / Protocols\n\n",
    tableOr "No interfaces, traits or protocols were declared." ["Name", "Location", "Description"]
      (protocols.map interfaceRow),
    .text "\n## Service Boundaries\n\n",
    tableOr "No service, repository, handler or controller classes were found."
      ["Name", "Location", "Direct callers"] (services.map (serviceRow g))] (protocols ++ services)

end CodeAtlas.Document
