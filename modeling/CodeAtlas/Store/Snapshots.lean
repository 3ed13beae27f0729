import CodeAtlas.Activity.Basic
import CodeAtlas.Calendar
import CodeAtlas.Citation
import CodeAtlas.Graph.Snapshot
import CodeAtlas.Failure
import CodeAtlas.Text.Lower

/-!
What an analysis leaves behind: the sections of the document and the graph. Saving replaces all that was
kept of a project.
-/
namespace CodeAtlas.Store

/-- A section as it is kept. -/
structure Snapshots.Section where
  name : String
  title : String
  content : String
  confidence : Float
  citations : List Citation := []
  generatedAt : Instant := 0

/-- What is kept of a project. -/
structure Snapshots.Record where
  project : String
  commit : String
  sections : List Snapshots.Section
  graph : Graph.Snapshot
  savedAt : Instant := 0

/-- What is kept of all projects. -/
structure Snapshots where
  projects : Std.TreeMap String Snapshots.Record := {}

namespace Snapshots

/-- Keep a record in place of what was kept of its project. -/
def save (s : Snapshots) (r : Record) : Snapshots := ⟨s.projects.insert r.project r⟩

/-- What is kept of a project. -/
def load? (s : Snapshots) (project : String) : Option Record := s.projects[project]?

/-- Keep nothing of a project any more. -/
def delete (s : Snapshots) (project : String) : Snapshots := ⟨s.projects.erase project⟩

/-- The numbers of sections and of nodes that are kept of a project. -/
def counts (s : Snapshots) (project : String) : Nat × Nat :=
  match s.load? project with
  | some r => (r.sections.length, r.graph.nodes.length)
  | none => (0, 0)

/-- Whether a node's name or file holds a text in small letters. -/
def mentions (n : Graph.Node) (text : String) : Bool :=
  text.isEmpty || Text.contains (Text.lowercase n.name) text || Text.contains (Text.lowercase n.file) text

/-- At most `limit` nodes of a project whose name or file holds a text, in small or capital letters. -/
def search (s : Snapshots) (project text : String) (limit : Nat) : List Graph.Node :=
  match s.load? project with
  | some r => (r.graph.nodes.filter (mentions · (Text.lowercase text))).take limit
  | none => []

/-- Encode a section. -/
def Section.encode (x : Section) : Json :=
  .obj [("section_name", .str x.name), ("title", .str x.title), ("content", .str x.content),
    ("confidence", .float x.confidence), ("citations", Json.list Citation.encode x.citations),
    ("generated_at", .str x.generatedAt.text)]

/-- Decode a section. -/
def Section.decode? (j : Json) : Option Section := do
  let r ← j.record? ["section_name", "title", "content", "confidence", "citations", "generated_at"]
  return {
    name := ← r.need "section_name" Json.text?
    title := ← r.need "title" Json.text?
    content := ← r.need "content" Json.text?
    confidence := ← r.need "confidence" Json.float?
    citations := ← r.orElse "citations" (Json.list? Citation.decode?) []
    generatedAt := ← (← r.need "generated_at" Json.text?) |> Instant.read? }

/-- Encode a record. -/
def Record.encode (r : Record) : Json :=
  .obj [("project_id", .str r.project), ("commit_sha", .str r.commit),
    ("sections", Json.list Section.encode r.sections), ("graph", r.graph.encode),
    ("saved_at", .str r.savedAt.text)]

/-- Decode a record. -/
def Record.decode? (j : Json) : Option Record := do
  let r ← j.record? ["project_id", "commit_sha", "sections", "graph", "saved_at"]
  return {
    project := ← r.need "project_id" Json.text?
    commit := ← r.need "commit_sha" Json.text?
    sections := ← r.need "sections" (Json.list? Section.decode?)
    graph := ← r.need "graph" Graph.Snapshot.decode?
    savedAt := ← (← r.need "saved_at" Json.text?) |> Instant.read? }

/-- Whoever keeps what analyses leave behind. -/
structure Service (σ : Type) where
  save : Record → Activity σ (Except Failure Unit)
  load? : String → Activity σ (Except Failure (Option Record))
  search : String → String → Nat → Activity σ (Except Failure (List Graph.Node))

/-- What analyses leave behind, kept in a part of the state. -/
def service {σ : Type} (part : Activity.Part σ Snapshots) : Service σ where
  save r := Activity.updatePart part fun _ s => (.ok (), s.save r)
  load? project := Activity.updatePart part fun _ s => (.ok (s.load? project), s)
  search project text limit := Activity.updatePart part fun _ s => (.ok (s.search project text limit), s)

end Snapshots
end CodeAtlas.Store
