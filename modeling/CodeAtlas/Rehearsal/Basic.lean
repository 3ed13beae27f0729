import CodeAtlas.Findings.Analyst
import CodeAtlas.Gate.Basic
import CodeAtlas.Rehearsal.Script
import CodeAtlas.Retrieval.Retriever
import CodeAtlas.Store.Checkpoints

/-!
A rehearsal: everything around an analysis in one state. Models follow a script, stores are kept in memory
and can be made to fail, and what is asked of them is on record. The calendar stands still.
-/
namespace CodeAtlas

/-- What a rehearsal consists of. -/
structure Rehearsal where
  breakers : Breakers := .ofSettings {}
  usage : Models.Usage := {}
  script : Rehearsal.Script := []
  embedder : Option Rehearsal.Embedder := none
  /-- The requests made, the latest first. -/
  requests : List Models.Request := []
  /-- The sizes of the batches embedded, the latest first. -/
  batches : List Nat := []
  vectors : Store.Vectors := {}
  checkpoints : Store.Checkpoints := []
  snapshots : Store.Snapshots := {}
  searchMemory : Retrieval.Memory := []
  answerMemory : Retrieval.Memory := []
  /-- The events told, the latest first. -/
  events : List Progress.Event := []
  /-- What writers were told about the drafts before, each with the place of the writer, the latest first. -/
  feedback : List (Nat × Option Gate) := []

namespace Rehearsal

/-- The breakers of a rehearsal. -/
def breakersPart : Activity.Part Rehearsal Breakers := ⟨breakers, fun b w => { w with breakers := b }⟩

/-- The accounts of a rehearsal. -/
def usagePart : Activity.Part Rehearsal Models.Usage := ⟨usage, fun u w => { w with usage := u }⟩

/-- The vectors that the search of a rehearsal keeps. -/
def searchMemoryPart : Activity.Part Rehearsal Retrieval.Memory :=
  ⟨searchMemory, fun m w => { w with searchMemory := m }⟩

/-- The vectors that the answers of a rehearsal keep. -/
def answerMemoryPart : Activity.Part Rehearsal Retrieval.Memory :=
  ⟨answerMemory, fun m w => { w with answerMemory := m }⟩

/-- A model that follows the script. -/
def completion : Models.CompletionService Rehearsal := fun r => do
  let cue ← Activity.update fun _ (w : Rehearsal) =>
    let (cue, script) := w.script.cueFor r
    (cue, { w with script := script, requests := r :: w.requests })
  cue.answer r

/-- An embedder that answers at once. -/
def embedding : Models.EmbeddingService Rehearsal := fun _ texts =>
  Activity.update fun _ w =>
    let w := { w with batches := texts.length :: w.batches }
    ((w.embedder.map fun e => e.answer w.batches.length texts).getD (.error .noEmbedding), w)

/-- The models of a rehearsal. -/
def models (s : Settings) (hasEmbedding : Bool) : Models Rehearsal :=
  .ofSettings s completion (if hasEmbedding then some embedding else none) breakersPart usagePart

/-- The vectors of a rehearsal. -/
def vectorsPart : Activity.Part Rehearsal Store.Vectors := ⟨vectors, fun v w => { w with vectors := v }⟩

/-- The checkpoints of a rehearsal. -/
def checkpointsPart : Activity.Part Rehearsal Store.Checkpoints :=
  ⟨checkpoints, fun c w => { w with checkpoints := c }⟩

/-- What surveys leave behind in a rehearsal. -/
def snapshotsPart : Activity.Part Rehearsal Store.Snapshots :=
  ⟨snapshots, fun s w => { w with snapshots := s }⟩

/-- Use a store, or fail with a message if one is given. -/
def unlessRefused {α : Type} (refusal : Option String) (use : Activity Rehearsal (Except Store.Failure α)) :
    Activity Rehearsal (Except Store.Failure α) :=
  match refusal with
  | some message => return .error (.backend message)
  | none => use

/-- The vector index; searches fail with a message if one is given. -/
def vectorIndex (refusal : Option String) : Store.Vectors.Service Rehearsal :=
  let s := Store.Vectors.service vectorsPart
  { s with nearest := fun project vector count maxDistance =>
      unlessRefused refusal (s.nearest project vector count maxDistance) }

/-- The checkpoints; looking up and putting fail with a message if one is given. -/
def checkpointStore (getRefusal putRefusal : Option String) : Store.Checkpoints.Service Rehearsal :=
  let s := Store.Checkpoints.service checkpointsPart
  { put := fun r => unlessRefused putRefusal (s.put r)
    get? := fun project fingerprint => unlessRefused getRefusal (s.get? project fingerprint) }

/-- What surveys leave behind; every use fails with a message if one is given. -/
def snapshotStore (refusal : Option String) : Store.Snapshots.Service Rehearsal :=
  let s := Store.Snapshots.service snapshotsPart
  { save := fun r => unlessRefused refusal (s.save r)
    load? := fun project => unlessRefused refusal (s.load? project)
    search := fun project text limit => unlessRefused refusal (s.search project text limit) }

/-- A retriever that keeps its vectors in a part of the rehearsal. -/
def retriever (s : Settings) (hasEmbedding : Bool) (refusal : Option String)
    (memory : Activity.Part Rehearsal Retrieval.Memory) : Retriever Rehearsal where
  models := models s hasEmbedding
  vectors := vectorIndex refusal
  store := snapshotStore none
  settings := s.retrieval
  memory := memory
  calendar := return 0

/-- A listener that puts events on record; it may crash after each. -/
def listener (crashes : Bool) : Progress.Listener Rehearsal := fun e w =>
  ({ w with events := e :: w.events }, if crashes then some "the listener is gone" else none)

/-- A request as it is put on record. -/
def recordOf (withMessages : Bool) (r : Models.Request) : Json :=
  .obj ([("model", .str r.model), ("json_mode", .bool r.jsonMode),
    ("timeout_ms", .nat r.timeout.toMillis), ("max_output_tokens", .nat r.maxOutputTokens)] ++
    if withMessages then [("messages", Json.list Models.Message.encode r.messages)] else [])

/-- The requests on record, in order. -/
def log (w : Rehearsal) (withMessages : Bool) : Json :=
  Json.list (recordOf withMessages) w.requests.reverse

/-- The events told, in order, and without lengths of time. -/
def eventLog (w : Rehearsal) : Json :=
  Json.list (fun e => Progress.Event.encode { e with millis := none }) w.events.reverse

/-- The sizes of the batches embedded, in order; null without an embedder. -/
def batchLog (w : Rehearsal) : Json :=
  if w.embedder.isSome then Json.list .nat w.batches.reverse else .null

end Rehearsal
end CodeAtlas
