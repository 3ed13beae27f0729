import CodeAtlas.Chunk.Basic
import CodeAtlas.Facts.Codec
import CodeAtlas.Findings.Codec
import CodeAtlas.Guard.Retry
import CodeAtlas.Json.Record
import CodeAtlas.Models.Basic
import CodeAtlas.Rehearsal.Basic
import CodeAtlas.Rehearsal.Script
import CodeAtlas.Repository.Ingest
import CodeAtlas.Scan.Sql
import CodeAtlas.Settings.Codec
import CodeAtlas.Stage.Basic
import CodeAtlas.Store.Snapshots
import CodeAtlas.Survey.Surveyor
import CodeAtlas.Text.Basic

/-!
Material for rehearsals that is described in part: what is not given is empty, or has its usual value.
-/
namespace CodeAtlas.Rehearsal

/-- An object with some lists of another; those that are not given are empty. -/
def filled (keys : List String) (j : Json) : Json :=
  .obj (keys.map fun key => (key, (j.given? key).getD (.arr [])))

/-- Decode facts. -/
def facts? (j : Json) : Option Facts :=
  Facts.decode? (filled ["entities", "calls", "imports", "schemas", "endpoints"] j)

/-- Decode findings. -/
def findings? (j : Json) : Option Findings := Findings.decode? (filled ["narratives", "rules", "risks"] j)

/-- Decode a piece of code that ends with its last line. -/
def excerpt? (j : Json) : Option Chunk := do
  if let some c ← j.ifGiven? "chunk" Chunk.decode? then return c
  let content ← j.required? "content" Json.text?
  let start ← j.orDefault? "start" (Json.nat? 32) 1
  return {
    file := ← j.orDefault? "path" Json.text? "f"
    language := ← j.required? "language" Json.text?
    startLine := start
    endLine := start + (Text.lines content).length - 1
    content := content }

/-- Decode a conversation: its messages, or a prompt, or a greeting. -/
def messages? (j : Json) : Option (List Models.Message) := do
  if let some m ← j.ifGiven? "messages" (Json.list? Models.Message.decode?) then return m
  match ← j.ifGiven? "prompt" Json.text? with
  | some p => return [⟨.system, "sys"⟩, ⟨.user, p⟩]
  | none => return [⟨.user, "hi"⟩]

/-- Decode how requests are tried again. -/
def retryPlan? (j : Json) : Option RetryPlan := do
  if let some n ← j.ifGiven? "immediate" (Json.nat? 32) then return .immediate n
  let p := RetryPlan.ofSettings (← j.orDefault? "retry" Settings.Retry.decode? {})
  return { p with multiplier := ← j.orDefault? "multiplier" Json.float? p.multiplier }

/-- Decode a section to be kept. -/
def keptSection? (j : Json) : Option Store.Snapshots.Section := do
  return {
    name := ← j.required? "section_name" Json.text?
    title := ← j.orDefault? "title" Json.text? ""
    content := ← j.orDefault? "content" Json.text? ""
    confidence := ← j.orDefault? "confidence" Json.float? 0.0
    citations := ← j.orDefault? "citations" (Json.list? Citation.decode?) [] }

/-!
Stages whose work is given by what it takes and how it ends: a task waits, and then crashes, fails, or adds
to a number.
-/

/-- Decode the failure of a stage by its kind. -/
def stageFailure? (j : Json) : Option Stage.Failure := do
  let message ← j.orDefault? "message" Json.text? ""
  match ← j.required? "kind" Json.text? with
  | "ingestion" => return .ingestion message
  | "stage" => return .refused ("/".intercalate (← j.orDefault? "names" (Json.list? Json.text?) [])) message
  | "pipeline_timeout" => return .timedOut (.ofMillis (← j.orDefault? "ms" (Json.nat? 64) 0))
  | "core_config" => return .settings message
  | "backend" => return .store (.backend message)
  | _ => return .models (← failure? j)

/-- The work of a stage. -/
structure Task where
  name : String
  wait : Duration := 0
  added : Int := 0
  failure : Option Stage.Failure := none
  crash : Option String := none

/-- The stage that does a task. -/
def Task.stage {σ : Type} (t : Task) (start : Int) : Stage σ Int where
  name := t.name
  work := do
    Activity.sleep t.wait
    match t.crash, t.failure with
    | some message, _ => .crash message
    | none, some f => return .error f
    | none, none => return .ok (start + t.added)

/-- The message of a crash: a text, a fixed one, or one for whatever else a crash may carry. -/
def crashMessage : Json → String
  | .str message => message
  | .bool true => "a fixed text"
  | _ => "stage panicked"

/-- Decode a task. -/
def Task.decode? (j : Json) : Option Task := do
  return {
    name := ← j.required? "name" Json.text?
    wait := .ofMillis (← j.orDefault? "sleep_ms" (Json.nat? 64) 0)
    added := ← j.orDefault? "add" Json.int? 0
    failure := ← j.ifGiven? "error" stageFailure?
    crash := (j.given? "panic").map crashMessage }

/-!
Rehearsals described by documents: the settings, how the models answer, where the repository comes from, which
stores fail, and who writes which sections.
-/

/-- Decode settings and models. -/
def decode? (j : Json) : Option (Settings × Rehearsal) := do
  let s ← j.orDefault? "config" Settings.decode? {}
  return (s, {
    breakers := .ofSettings s.resilience
    script := ← j.orDefault? "replies" (Json.list? Cue.decode?) []
    embedder := ← j.ifGiven? "embedding" Embedder.decode? })

/-- How the stores behave, and who listens. -/
structure Setting where
  /-- What looking up a checkpoint fails with. -/
  getRefusal : Option String := none
  /-- What putting a checkpoint fails with. -/
  putRefusal : Option String := none
  /-- What storing a survey fails with. -/
  saveRefusal : Option String := none
  /-- Whether checkpoints are kept where nobody else sees them. -/
  hidesCheckpoints : Bool := false
  /-- Whether surveys are kept where nobody else sees them. -/
  hidesSnapshots : Bool := false
  keepsVectors : Bool := true
  listenerCrashes : Bool := false

/-- Decode how the stores behave. -/
def Setting.decode? (j : Json) : Option Setting := do
  let checkpoints ← j.orDefault? "checkpoints" Json.text? "memory"
  let snapshots ← j.orDefault? "persistence" Json.text? "memory"
  return {
    getRefusal := if checkpoints == "fail_get" then some "get refused" else none
    putRefusal := if checkpoints == "fail_put" then some "put refused" else none
    saveRefusal := if snapshots == "fail" then some "read-only" else none
    hidesCheckpoints := checkpoints == "default"
    hidesSnapshots := snapshots == "default"
    keepsVectors := ← j.orDefault? "vectors" Json.bool? true
    listenerCrashes := ← j.orDefault? "sink_panics" Json.bool? false }

/-- Decode a checkpoint about one of some chunks. -/
def plantedRecord? (project : String) (chunks : List Chunk) (j : Json) : Option Store.Checkpoints.Record := do
  let c ← chunks[← j.required? "chunk" (Json.nat? 64)]?
  return {
    project := ← j.orDefault? "project" Json.text? project
    commit := ← j.orDefault? "commit" Json.text? "c"
    fingerprint := c.fingerprint
    file := c.file
    result := ((j.get? "value").getD .null).canonical }

/-- Decode the checkpoints that are there from the start. -/
def planted? (project : String) (chunks : List Chunk) (j : Json) : Option Store.Checkpoints :=
  (j.orDefault? "planted" (Json.list? (plantedRecord? project chunks)) []).map (·.foldl .put [])

/-- Whoever has the models read chunks in a rehearsal. -/
def analyst (s : Settings) (x : Setting) (hasEmbedding : Bool) (capacity : Nat) : Analyst Rehearsal where
  models := models s hasEmbedding
  checkpoints := checkpointStore x.getRefusal x.putRefusal
  vectors := if x.keepsVectors then some (vectorIndex none) else none
  capacity := capacity
  progress := ⟨listener x.listenerCrashes⟩
  calendar := return 0

/-- Where a repository comes from. -/
inductive Origin where
  | tree (files : FileTree)
  | chunks (commit : String) (chunks : List Chunk)
  | failing (failure : Stage.Failure)

/-- The bytes that hexadecimal digits stand for. -/
def hexBytes : List Char → List UInt8
  | a :: b :: rest =>
    (16 * ((Json.hexValue? a).getD 0) + (Json.hexValue? b).getD 0).toUInt8 :: hexBytes rest
  | _ => []

/-- Decode a file by its path: a directory if the path ends in a slash, a text, or bytes. -/
def treeEntry? (path : String) (j : Json) : Option FileTree.Entry := do
  let parts := FileTree.components path
  if path.endsWith "/" then return ⟨parts, none⟩
  match j.get? "hex" with
  | some digits => return ⟨parts, some ⟨(hexBytes (← digits.text?).toList).toArray⟩⟩
  | none => return ⟨parts, some (← j.text?).toUTF8⟩

/-- Decode a tree of files. -/
def fileTree? : Json → Option FileTree
  | .obj files => files.mapM fun (path, j) => treeEntry? path j
  | _ => none

/-- Decode where a repository comes from, if that is said. -/
def origin? (j : Json) : Option (Option Origin) := do
  if let some f ← j.ifGiven? "ingest_error" stageFailure? then return some (.failing f)
  if let some t ← j.ifGiven? "files" fileTree? then return some (.tree t)
  match ← j.ifGiven? "chunks" (Json.list? Chunk.decode?) with
  | some cs => return some (.chunks (← j.orDefault? "commit" Json.text? "c") cs)
  | none => return none

/-- The repository of an origin. -/
def Origin.repository (maxLines : Nat) : Origin → Except Stage.Failure Repository
  | tree files => (Repository.ingest files "" maxLines).mapError fun e => .ingestion e.message
  | chunks commit cs => .ok (.ofChunks commit cs)
  | failing f => .error f

/-- The chunks that are given. -/
def Origin.given : Origin → List Chunk
  | chunks _ cs => cs
  | _ => []

/-- The number of files that are given. -/
def Origin.fileCount : Origin → Nat
  | tree files => files.countP (·.bytes.isSome)
  | _ => 0

/-- How chunks are scanned: with some more facts for each chunk, after a while, or not at all. -/
structure Scanning where
  wait : Duration := 0
  extra : Facts := Facts.empty
  failure : Option Stage.Failure := none
  crash : Option String := none

/-- Decode how chunks are scanned. -/
def Scanning.decode? (j : Json) : Option Scanning := do
  return {
    wait := .ofMillis (← j.orDefault? "sleep_ms" (Json.nat? 64) 0)
    extra := ← j.orDefault? "extra" facts? Facts.empty
    failure := ← j.ifGiven? "error" stageFailure?
    crash := ← j.ifGiven? "panic" Json.text? }

/-- Scan a chunk. -/
def Scanning.scan (x : Scanning) (c : Chunk) : Activity Rehearsal (Except Stage.Failure Facts) := do
  match x.crash, x.failure with
  | some message, _ => .crash message
  | none, some f => return .error f
  | none, none =>
    Activity.sleep x.wait
    return .ok (Scan.scan c ++ x.extra)

/-- Drafts of a section in the order in which they are handed out; the last one is handed out for ever. -/
structure Drafts where
  name : String
  title : String
  drafts : List (Except Stage.Failure Document.Draft)

/-- Decode a draft, or the failure to write one. -/
def draft? (j : Json) : Option (Except Stage.Failure Document.Draft) := do
  if let some f ← j.ifGiven? "error" stageFailure? then return .error f
  return .ok {
    content := ← j.orDefault? "content" Json.text? ""
    confidence := ← j.orDefault? "confidence" Json.float? 0.9
    citations := ← j.orDefault? "citations" (Json.list? Citation.decode?) [] }

/-- Decode drafts of a section with a name and a title. -/
def Drafts.decode? (name title : String) (j : Json) : Option Drafts := do
  return {
    name := ← j.orDefault? "name" Json.text? name
    title := ← j.orDefault? "title" Json.text? title
    drafts := ← j.orDefault? "drafts" (Json.list? draft?) [] }

/-- Whoever hands out drafts, at a place among all who do. -/
def Drafts.writer (place : Nat) (d : Drafts) : Document.Writer Rehearsal where
  name := d.name
  title := d.title
  write _ feedback := Activity.update fun _ w =>
    let n := w.feedback.countP (·.1 == place)
    (((d.drafts[n]?).or d.drafts.getLast?).getD (.ok ⟨"", 0.9, []⟩),
      { w with feedback := (place, feedback) :: w.feedback })

/-- Decode those who write sections. -/
def writers? (s : Settings) (m : Models Rehearsal) (j : Json) : Option (Document.Writers Rehearsal) := do
  match ← j.ifGiven? "custom_sections" (Json.list? (Drafts.decode? "" "")) with
  | none => return Surveyor.writersOf s m
  | some own => return (own.mapIdx Drafts.writer).foldl .put (Document.writers none)

/-- What is said when it is not said where a repository comes from. -/
def noOrigin : Stage.Failure := .ingestion "no ingestor configured"

/-- Decode whoever surveys projects in a rehearsal. -/
def surveyor? (s : Settings) (x : Setting) (hasEmbedding : Bool) (origin : Origin) (j : Json) :
    Option (Surveyor Rehearsal) := do
  let scanning ← j.orDefault? "facts_provider" Scanning.decode? {}
  let a := analyst s x hasEmbedding s.models.maxConcurrency
  return {
    settings := s
    fetch := fun _ => return origin.repository s.analysis.chunkMaxLines
    scan := scanning.scan
    models := a.models
    checkpoints := a.checkpoints
    vectors := a.vectors
    snapshots := snapshotStore x.saveRefusal
    writers := ← writers? s a.models j
    progress := a.progress
    calendar := a.calendar
    newId := return "" }

end CodeAtlas.Rehearsal
