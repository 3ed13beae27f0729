import CodeAtlas.Document.Topics
import CodeAtlas.Findings.Analyst
import CodeAtlas.Repository.Ingest
import CodeAtlas.Store.Snapshots
import CodeAtlas.Survey.Basic

/-!
Surveyors: they take a project through all stages of a survey. The repository is fetched; scanner and models
read the code at once; both readings are reconciled into the atlas; the sections of the document are written
and their citations checked; what came of it is stored. Only a repository that cannot be fetched and an atlas
that cannot be built end a survey early. Every other stage that fails is reported, and the survey goes on
without what it would have brought.
-/
namespace CodeAtlas

/-- Whoever surveys projects, with everything that a survey needs. -/
structure Surveyor (σ : Type) where
  settings : Settings
  /-- Fetch the repository of a project. -/
  fetch : String → Activity σ (Except Stage.Failure Repository)
  /-- Read the facts off a chunk. -/
  scan : Chunk → Activity σ (Except Stage.Failure Facts)
  models : Models σ
  checkpoints : Store.Checkpoints.Service σ
  vectors : Option (Store.Vectors.Service σ) := none
  snapshots : Store.Snapshots.Service σ
  writers : Document.Writers σ
  progress : Progress σ := {}
  calendar : Activity σ Instant
  /-- Name a survey that begins. -/
  newId : Activity σ String

namespace Surveyor

variable {σ α : Type}

/-- Those who write the sections on offer; with settings that ask for it, models put them into prose. -/
def writersOf (s : Settings) (models : Models σ) : Document.Writers σ :=
  Document.writers (if s.models.synthesizeSections then some models else none)

/-- What is told of a stage that has ended: some detail, or what went wrong. -/
def messageOf (report : Stage.Report α) (detail : α → String) : String :=
  match report.ending with
  | .completed a => detail a
  | .failed e => e
  | .skipped (some e) => e
  | .skipped none => "Skipped"

/-- Tell of a stage that has ended and put it on record. -/
def note (v : Surveyor σ) (survey : Survey) (report : Stage.Report α) (detail : α → String) :
    Activity σ Survey := do
  v.progress.emit
    (.finished report.name report.isCompleted report.duration (messageOf report detail))
  return { survey with stages := survey.stages ++ [report.status] }

/-- Finish a survey that began at a moment. -/
def close (v : Surveyor σ) (start : Moment) (survey : Survey) : Activity σ Survey := do
  let stop ← Activity.now
  let state ← Activity.get
  return { survey with duration := stop - start, usage := v.models.usage.get state }

/-- Counts with their units, in one line. -/
def tally (counts : List (Nat × String)) : String :=
  ", ".intercalate (counts.map fun (n, unit) => Decimal.natText n ++ " " ++ unit)

/-- How many chunks are scanned at once. -/
def scanCapacity : Nat := 8

/-- How long both readings are waited for after their time is up, so that the models' reading can hand over
what it has. -/
def grace : Duration := .ofSeconds 5

/-- What a crash says when a time limit lies beyond the end of the clock. -/
def clockMessage : String := "overflow when adding duration to instant"

/-- What one of both readings brings. -/
inductive Harvest where
  | facts (facts : Facts)
  | findings (findings : Findings)

/-- What both readings bring together. -/
structure Harvests where
  facts : Facts := Facts.empty
  findings : Findings := {}

/-- Take in what one reading brought, if anything. -/
def Harvests.add (h : Harvests) : Option Harvest → Harvests
  | some (.facts f) => { h with facts := f }
  | some (.findings f) => { h with findings := f }
  | none => h

/-- What a reading brought, in one line. -/
def Harvest.line : Harvest → String
  | .facts f => tally [(f.definitions.length, "entities"), (f.calls.length, "calls"), (f.imports.length, "imports")]
  | .findings f => tally [(f.narratives.length, "narratives"), (f.rules.length, "rules"), (f.risks.length, "risks")]

/-- The facts of all chunks, appended in order; the first failure in that order counts. -/
def gather (parts : List (Option (Except Stage.Failure Facts))) : Except Stage.Failure Facts :=
  (parts.filterMap id).foldlM (fun all part => part.map (all ++ ·)) Facts.empty

/-- Scan the chunks of a repository. -/
def scanAll (v : Surveyor σ) (chunks : List Chunk) : Activity σ (Except Stage.Failure Harvest) := do
  let parts ← Activity.together scanCapacity none (chunks.map v.scan)
  return (gather parts).map .facts

/-- Whoever has the models read the chunks. -/
def analyst (v : Surveyor σ) : Analyst σ where
  models := v.models
  checkpoints := v.checkpoints
  vectors := v.vectors
  capacity := v.settings.models.maxConcurrency
  progress := v.progress
  calendar := v.calendar

/-- Have the models read the chunks, up to a moment. -/
def readAll (v : Surveyor σ) (project : String) (r : Repository) (deadline : Moment) :
    Activity σ (Except Stage.Failure Harvest) := do
  return .ok (.findings (← v.analyst.analyze project r.commit r.chunks (some deadline)))

/-- Note how each reading ended and take in what it brought. -/
def noteReadings (v : Surveyor σ) :
    List (Stage.Report Harvest) → Survey × Harvests → Activity σ (Survey × Harvests)
  | [], done => return done
  | report :: rest, (survey, harvests) => do
    let survey ← v.note survey report Harvest.line
    v.noteReadings rest (survey, harvests.add report.output?)

/-- Let the scanner and the models read the code at once. -/
def readBothWays (v : Surveyor σ) (project : String) (r : Repository) (survey : Survey) :
    Activity σ (Survey × Harvests) := do
  v.progress.emit
    (.running "dual_analysis" ("Analyzing " ++ Decimal.natText r.chunks.length ++ " chunks"))
  let timeout := v.settings.analysisTimeout
  match (← Activity.now).after? timeout with
  | none => .crash clockMessage
  | some deadline =>
    let group : StageGroup σ Harvest := {
      name := "dual_analysis"
      stages := [⟨"static", v.scanAll r.chunks⟩, ⟨Analyst.stage, v.readAll project r deadline⟩]
      timeout := some (timeout + grace) }
    let reports ← group.run
    v.noteReadings reports (survey, {})

/-- Reconcile both readings and build the atlas. -/
def reconcile (project : String) (h : Harvests) : Except Stage.Failure (Report × Atlas) :=
  let report := Report.reconcile h.facts h.findings
  match Atlas.build project report h.facts h.findings with
  | .ok atlas => .ok (report, atlas)
  | .error refusal => .error (.graph refusal)

/-- What the atlas holds, in one line. -/
def atlasLine (x : Report × Atlas) : String :=
  tally [(x.1.crossValidated, "cross-validated"), (x.2.graph.nodeCount, "entities"),
    (x.2.graph.edges.size, "relationships")]

/-- The name of the stage in which a section is written. -/
def sectionStage (name : String) : String := "generate_" ++ name

/-- The rules for a section, by its name and the settings. -/
def rulesFor (s : Settings) (name : String) : Gate.Rules :=
  { Gate.Rules.forSection name with maxIterations := max 1 s.quality.maxIterations }

/-- The stage in which a section is written. -/
def stageOf (v : Surveyor σ) (source : Document.Source) (name : String) : Stage σ Document.Section where
  name := sectionStage name
  work :=
    match v.writers.named? name with
    | none => return .error (.refused (sectionStage name) ("no generator registered for section '" ++ name ++ "'"))
    | some writer => do
      v.progress.emit (.running (sectionStage name) ("Generating " ++ writer.title))
      return .ok (← writer.compose source (rulesFor v.settings name) v.settings.quality)

/-- A section in one line. -/
def sectionLine (s : Document.Section) : String :=
  "confidence " ++ Decimal.fixed 2 s.confidence ++ ", " ++ Decimal.natText s.attempts ++ " attempt(s)"

/-- The section that a stage brought, or a stand-in. -/
def sectionOf (v : Surveyor σ) (name : String) (report : Stage.Report Document.Section) : Document.Section :=
  match report.output? with
  | some s => s
  | none =>
    .standIn name (((v.writers.named? name).map (·.title)).getD name)
      (report.error?.getD "section stage did not finish") 0

/-- Note how the writing of each section ended and take in the sections. -/
def noteSections (v : Surveyor σ) :
    List (String × Stage.Report Document.Section) → Survey → Activity σ Survey
  | [], survey => return survey
  | (name, report) :: rest, survey => do
    let survey ← v.note survey report sectionLine
    v.noteSections rest { survey with sections := survey.sections ++ [v.sectionOf name report] }

/-- Write the sections of the document. -/
def write (v : Surveyor σ) (source : Document.Source) (survey : Survey) : Activity σ Survey := do
  let names := v.settings.analysis.sections
  v.progress.emit
    (.running "section_generation" ("Generating " ++ Decimal.natText names.length ++ " sections"))
  let group : StageGroup σ Document.Section := {
    name := "section_generation"
    stages := names.map (v.stageOf source)
    capacity := some v.settings.analysis.maxConcurrency }
  let reports ← group.run
  v.noteSections (names.zip reports) survey

/-- The tally of all citations of sections. -/
def tallyCitations (lengths : Repository.LineCounts) (sections : List Document.Section) :
    Survey.CitationTally :=
  sections.foldl (fun t s => t.add (Citation.checkAll s.citations lengths)) {}

/-- A tally of citations in one line. -/
def citationLine (t : Survey.CitationTally) : String :=
  Decimal.natText (t.checked - t.failed.length) ++ "/" ++ Decimal.natText t.checked ++ " citations resolved"

/-- Check the citations of all sections, if the settings ask for it. -/
def verify (v : Surveyor σ) (r : Repository) (survey : Survey) : Activity σ Survey := do
  if v.settings.analysis.verifyCitations then
    let t := tallyCitations r.lineCounts survey.sections
    let survey ← v.note survey ⟨"citation_verification", 0, .completed t⟩ citationLine
    return { survey with citations := some t }
  else return survey

/-- What is stored of a survey. -/
def recordOf (survey : Survey) (r : Repository) (atlas : Atlas) (now : Instant) : Store.Snapshots.Record where
  project := survey.project
  commit := r.commit
  sections := survey.sections.map fun s => ⟨s.name, s.title, s.content, s.confidence, s.citations, now⟩
  graph := atlas.graph.snapshot
  savedAt := now

/-- Store what came of a survey. -/
def save (v : Surveyor σ) (r : Repository) (atlas : Atlas) (survey : Survey) : Activity σ Survey := do
  v.progress.emit (.running "persistence" "Saving results")
  let now ← v.calendar
  let report ← Stage.perform "persistence" do
    return (← v.snapshots.save (recordOf survey r atlas now)).mapError .store
  v.note survey report fun _ => "Results saved"

/-- Write, verify and store the document of an atlas. -/
def publish (v : Surveyor σ) (r : Repository) (report : Report) (atlas : Atlas) (survey : Survey) :
    Activity σ Survey := do
  let survey := { survey with
    validation := some (.ofReport report)
    stats := some atlas.graph.stats
    atlas := some atlas }
  let survey ← v.write ⟨atlas, r.languages⟩ survey
  let survey ← v.verify r survey
  let survey ← v.save r atlas survey
  return { survey with success := true }

/-- Survey a repository: read it both ways, build the atlas and write the document. -/
def chart (v : Surveyor σ) (r : Repository) (survey : Survey) : Activity σ Survey := do
  let (survey, harvests) ← v.readBothWays survey.project r { survey with commit := some r.commit }
  let survey := { survey with
    checkpointHits := harvests.findings.checkpointHits
    degradedChunks := harvests.findings.degradedChunks }
  v.progress.emit (.running "reconciliation" "Cross-validating findings")
  let report ← Stage.perform "reconciliation" (return reconcile survey.project harvests)
  let survey ← v.note survey report atlasLine
  match report.output? with
  | some (report, atlas) => v.publish r report atlas survey
  | none => return { survey with error := some ("Graph build failed: " ++ report.error?.getD "") }

/-- What a repository holds, in one line. -/
def repositoryLine (r : Repository) : String :=
  tally [(r.files.length, "files"), (r.chunks.length, "chunks")]

/-- Survey a project. -/
def run (v : Surveyor σ) (project : String) : Activity σ Survey := do
  let start ← Activity.now
  let survey : Survey := { id := ← v.newId, project := project }
  v.progress.emit (.running "ingestion" "Resolving repository")
  let report ← Stage.perform "ingestion" (v.fetch project)
  let survey ← v.note survey report repositoryLine
  match report.output? with
  | some r => v.close start (← v.chart r survey)
  | none => v.close start { survey with error := some ("Ingestion failed: " ++ report.error?.getD "") }

/-- Survey projects at once. Those who ask for the same project share one survey. -/
def runAll (v : Surveyor σ) (projects : List String) : Activity σ (List Survey) := do
  let distinct := projects.eraseDups
  let surveys ← Activity.together distinct.length none (distinct.map v.run)
  return projects.filterMap fun p => ((distinct.zip surveys).lookup p).join

end Surveyor
end CodeAtlas
