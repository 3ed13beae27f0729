import CodeAtlas.Json.Record
import CodeAtlas.Retrieval.Retriever
import CodeAtlas.Store.Snapshots
import CodeAtlas.Survey.Basic

/-!
Results in brief: without moments, lengths of time and names that differ from run to run.
-/
namespace CodeAtlas.Rehearsal

/-- How large a text or a list is. -/
def sizeOf : Json → Json
  | .str s => .str (Decimal.natText s.length ++ " chars")
  | .arr items => .nat items.length
  | j => j

/-- A section with the sizes of its content and citations. -/
def briefSection (j : Json) : Json := (j.mapField "content" sizeOf).mapField "citations" sizeOf

/-- What tests look at first: how often the features were written, whether the models' reading was
completed, and the graph if it is to be shown. -/
def probe (showsGraph : Bool) (s : Survey) : Json :=
  .obj [("features", Json.optional (fun x => .nat x.attempts) (s.section? "features")),
    ("model_ok", Json.optional (fun x => .bool (x.outcome == .completed)) (s.stage? "model")),
    ("graph", if showsGraph then Json.optional (fun a => a.graph.snapshot.encode) s.atlas else .null)]

/-- A survey in brief. -/
def briefSurvey (showsContent showsGraph : Bool) (s : Survey) : Json :=
  let sections := if showsContent then id else Json.mapItems briefSection
  ((((s.encode.without ["run_id", "duration_ms"]).mapField "total_cost"
    fun _ => .str s.usage.costText).mapField "sections" sections).mapField "stages"
    (Json.mapItems (Json.without ["duration_ms"]))).extend [("probe", probe showsGraph s)]

/-- What is kept of a project, without moments. -/
def briefRecord (r : Store.Snapshots.Record) : Json :=
  (r.encode.without ["saved_at"]).mapField "sections" (Json.mapItems (Json.without ["generated_at"]))

/-- What was retrieved: hits and nodes by their identifiers, and the text made of them. -/
def briefRetrieval (limits : Settings.Retrieval) (r : Retrieval) : Json :=
  .obj [("keywords", Json.strings r.keywords),
    ("hits", Json.list (fun h => .arr [.str (Retrieval.resultId h.file h.startLine), .float32 h.distance]) r.hits),
    ("entities", Json.strings (r.nodes.map (·.id))), ("degraded", .bool r.degraded),
    ("context", .str (r.text limits.snippetChars limits.maxContextBytes))]

/-- A document without moments, lengths of time, names and costs that differ from run to run. -/
def timeless : Json → Json :=
  .withoutAny ["run_id", "duration_ms", "saved_at", "generated_at", "total_cost"]

/-- The line of a stage without its length of time; none when the line is of another kind. -/
def untimed? (line : List Char) : Option (List Char) := do
  let rest ← Text.dropStart? " ms".toList.reverse line.reverse
  let head := (rest.dropWhile Char.isDigit).dropWhile Text.isBlank
  if (Text.dropStart? " ok".toList.reverse head).isSome ||
      (Text.dropStart? " FAILED".toList.reverse head).isSome then some head.reverse
  else none

/-- A printed line without the length of a stage, and with a cost of nothing without its sign. -/
def briefLine (line : String) : String :=
  match untimed? line.toList with
  | some head => String.ofList head
  | none => Text.replace "$-0.0000" "$0.0000" line

end CodeAtlas.Rehearsal
