import CodeAtlas.Answer
import CodeAtlas.CommandLine.Command
import CodeAtlas.Models.Wire
import CodeAtlas.Repository.Ingest
import CodeAtlas.Scan.Sql
import CodeAtlas.Settings.Load
import CodeAtlas.Store.Keeper
import CodeAtlas.Survey.Surveyor

/-!
The desk at which a command is carried out: everything that surveys and questions keep between two steps.
-/
namespace CodeAtlas.CommandLine

/-- What is on the desk. -/
structure Desk where
  breakers : Breakers
  usage : Models.Usage := {}
  keeper : Store.Keeper := .memory []
  vectors : Store.Vectors := {}
  snapshots : Store.Snapshots := {}
  memory : Retrieval.Memory := []

namespace Desk

/-- The breakers on the desk. -/
def breakersPart : Activity.Part Desk Breakers := ⟨breakers, fun b d => { d with breakers := b }⟩

/-- The accounts on the desk. -/
def usagePart : Activity.Part Desk Models.Usage := ⟨usage, fun u d => { d with usage := u }⟩

/-- The checkpoints on the desk. -/
def keeperPart : Activity.Part Desk Store.Keeper := ⟨keeper, fun k d => { d with keeper := k }⟩

/-- The vectors on the desk. -/
def vectorsPart : Activity.Part Desk Store.Vectors := ⟨vectors, fun v d => { d with vectors := v }⟩

/-- What surveys left behind on the desk. -/
def snapshotsPart : Activity.Part Desk Store.Snapshots := ⟨snapshots, fun s d => { d with snapshots := s }⟩

/-- The vectors of questions on the desk. -/
def memoryPart : Activity.Part Desk Retrieval.Memory := ⟨memory, fun m d => { d with memory := m }⟩

/-- A desk with nothing on it yet. -/
def ofSettings (s : Settings) : Desk := { breakers := .ofSettings s.resilience }

end Desk

/-- What surrounds a command, and does not change while it is carried out. -/
structure Surroundings where
  /-- The directory that paths start from. -/
  directory : List String
  environment : Settings.Environment
  /-- Whoever carries requests to models. -/
  carrier : Models.Wire.Carrier Desk
  now : Instant
  /-- The name of the next survey. -/
  surveyId : String

/-- The models that settings ask for, reached with a key. -/
def modelsOf (x : Surroundings) (s : Settings) (key : String) : Models Desk :=
  let endpoint : Models.Wire.Endpoint := ⟨s.models.apiBase, key⟩
  .ofSettings s (Models.Wire.completionService x.carrier endpoint)
    (some (Models.Wire.embeddingService x.carrier endpoint)) Desk.breakersPart Desk.usagePart

/-- Whoever surveys the repository at a place in a tree. -/
def surveyorOf (x : Surroundings) (s : Settings) (models : Models Desk) (tree : FileTree) (place : List String) :
    Surveyor Desk where
  settings := s
  fetch _ :=
    let root := "/" ++ "/".intercalate place
    return (Repository.ingest tree root s.analysis.chunkMaxLines).mapError fun e => .ingestion e.message
  scan c := return .ok (Scan.scan c)
  models := models
  checkpoints := Store.Keeper.service Desk.keeperPart
  vectors := some (Store.Vectors.service Desk.vectorsPart)
  snapshots := Store.Snapshots.service Desk.snapshotsPart
  writers := Surveyor.writersOf s models
  calendar := return x.now
  newId := return x.surveyId

/-- Whoever answers questions. -/
def retrieverOf (x : Surroundings) (s : Settings) (models : Models Desk) : Retriever Desk where
  models := models
  vectors := Store.Vectors.service Desk.vectorsPart
  store := Store.Snapshots.service Desk.snapshotsPart
  settings := s.retrieval
  memory := Desk.memoryPart
  calendar := return x.now

end CodeAtlas.CommandLine

/-!
Carrying out commands on a tree of files. A command prints lines, changes files, and may end with an error.
What was printed and changed before an error stays. A project's identifier names files, so it must be a single
plain component of a path.
-/
namespace CodeAtlas.CommandLine

/-- What a command works on. -/
structure Work where
  tree : FileTree
  output : String := ""

/-- How a command breaks off. -/
inductive Halt where
  | error (message : String)
  | crash (message : String)

/-- A step of a command. -/
abbrev Step := EStateM Halt Work

/-- Break off with an error. -/
def fail {α : Type} (message : String) : Step α := throw (.error message)

/-- A value, or an error without one. -/
def orFail {α : Type} (value : Option α) (message : String) : Step α :=
  match value with
  | some a => return a
  | none => fail message

/-- Print a line. -/
def say (line : String) : Step Unit := modify fun w => { w with output := w.output ++ line ++ "\n" }

/-- Let an activity happen at a desk. -/
def happen {α : Type} (a : Activity Desk α) (d : Desk) : Step (α × Desk) :=
  match a.run 0 d with
  | .finished value _ d => return (value, d)
  | .crashed message _ _ => throw (.crash message)
  | .stuck _ _ => throw (.crash "nothing left to wait for")

/-- A path that leads on from another one; a path from the root stands for itself. -/
def joined (path next : String) : String :=
  if next.startsWith "/" then next
  else if path.isEmpty || path.endsWith "/" then path ++ next
  else path ++ "/" ++ next

/-- Whether a character may occur in the identifier of a project. -/
def isPlain (c : Char) : Bool := c.isAlphanum || c == '-' || c == '_' || c == '.'

/-- Whether a text may be the identifier of a project. -/
def isProjectId (project : String) : Bool :=
  !project.isEmpty && !project.toList.all (· == '.') && project.toList.all isPlain

/-- Break off unless a text may be the identifier of a project. -/
def checkProject (project : String) : Step Unit := do
  if !isProjectId project then
    fail ("Invalid project id '" ++ project ++ "': use letters, digits, '-', '_' or '.'")

/-- Where the record of a project is kept. -/
def recordPath (out project : String) : String := joined out (project ++ ".json")

/-- Where the sections of a project are written. -/
def sectionDirectory (out project : String) : String := joined out project

/-- Where a section is written. -/
def sectionPath (out project name : String) : String := joined (sectionDirectory out project) (name ++ ".md")

/-- The text of a settings file; none when there is nothing at its path. -/
def settingsText (x : Surroundings) (file : Option String) : Step (Option String) := do
  let tree := (← get).tree
  match file with
  | none => return none
  | some path =>
    match tree.locate? x.directory path with
    | none => return none
    | some place => return some (← orFail (tree.read? place) "Failed to load configuration")

/-- The settings from a file and the environment. -/
def loadSettings (x : Surroundings) (file : Option String) : Step Settings := do
  match Settings.load (← settingsText x file) x.environment with
  | .ok s => return s
  | .error _ => fail "Failed to load configuration"

/-- The models that settings ask for; they need a key. -/
def findModels (x : Surroundings) (s : Settings) : Step (Models Desk) := do
  let key ← orFail s.models.apiKey "No API key configured; set REPOGRAPH_API_KEY or OPENAI_API_KEY"
  return modelsOf x s key

/-- Files as a store of checkpoints sees them; what is no text counts as empty. -/
def checkpointFiles (tree : FileTree) : Store.CheckpointFiles where
  files := tree.filterMap fun e => e.bytes.map fun b => (e.path, (String.fromUTF8? b).getD "")

/-- Open the store of checkpoints at a path; gives its place, too. -/
def openCheckpoints (x : Surroundings) (path : String) : Step (List String × Store.CheckpointFiles) := do
  let (tree, place) ← orFail ((← get).tree.makeDirectory? x.directory path)
    ("Failed to open checkpoints at " ++ path)
  modify fun w => { w with tree := tree }
  return (place, checkpointFiles (tree.within place))

/-- Whether nothing is left of what a store held at a path: of a file, or of all that lay in a directory. -/
def isGone (before after : Store.CheckpointFiles) (path : List String) : Bool :=
  if before.isFile path then !after.isFile path
  else !path.isEmpty && !(before.below path).isEmpty && (after.below path).isEmpty

/-- A tree in which the store at a place has changed: what is gone is dropped, new files are put. -/
def restored (tree : FileTree) (place : List String) (before after : Store.CheckpointFiles) : FileTree :=
  let gone (e : FileTree.Entry) : Bool := (FileTree.below? place e.path).any (isGone before after)
  let fresh := after.files.filter fun (path, _) => !before.isFile path
  fresh.foldl (fun tree (path, text) => tree.put (place ++ path) text.toUTF8) (tree.filter (!gone ·))

/-- Put the files of a store of checkpoints back to their place. -/
def storeCheckpoints (place : List String) (before after : Store.CheckpointFiles) : Step Unit :=
  modify fun w => { w with tree := restored w.tree place before after }

/-- Write a text to the end of a path. -/
def writeText (x : Surroundings) (path text : String) : Step Unit := do
  let tree ← orFail ((← get).tree.write? x.directory path text.toUTF8) ("Failed to write " ++ path)
  modify fun w => { w with tree := tree }

/-- A text followed by spaces up to a width. -/
def padEnd (width : Nat) (s : String) : String :=
  s ++ String.ofList (List.replicate (width - s.length) ' ')

/-- A text with spaces before it up to a width. -/
def padStart (width : Nat) (s : String) : String :=
  String.ofList (List.replicate (width - s.length) ' ') ++ s

/-- A stage in one line. -/
def stageLine (s : Stage.Status) : String :=
  padEnd 28 s.name ++ " " ++ padEnd 7 (if s.outcome = .completed then "ok" else "FAILED") ++ " " ++
    padStart 8 (Decimal.natText s.millis) ++ " ms"

/-- A section in one line. -/
def sectionLine (s : Document.Section) : String :=
  padEnd 28 s.name ++ " confidence " ++ Decimal.fixed 2 s.confidence ++ if s.degraded then " (degraded)" else ""

/-- A survey in lines. -/
def surveyLines (s : Survey) : List String :=
  s.stages.map stageLine ++ [""] ++ s.sections.map sectionLine ++
    ["", "Total cost: $" ++ Decimal.fixed 4 s.usage.totalCost]

/-- Print a survey. -/
def report (asJson : Bool) (s : Survey) : Step Unit :=
  if asJson then say s.encode.pretty else (surveyLines s).forM say

/-- Write the sections of a project, and what is kept of it. -/
def writeDocument (x : Surroundings) (out project : String) (sections : List Document.Section)
    (record : Option Store.Snapshots.Record) : Step Unit := do
  let directory := sectionDirectory out project
  let (tree, _) ← orFail ((← get).tree.makeDirectory? x.directory directory) ("Failed to create " ++ directory)
  modify fun w => { w with tree := tree }
  sections.forM fun s => writeText x (sectionPath out project s.name) s.content
  match record with
  | some r => writeText x (recordPath out project) r.encode.pretty
  | none => return ()

/-- The identifier of a project: the one given, or else the name of the directory. -/
def projectOf (project : Option String) (place : List String) : Step String :=
  match project with
  | some project => return project
  | none => orFail place.getLast? "Cannot derive a project id from the path; pass --project"

/-- Survey the repository at a path and write its document. -/
def survey (x : Surroundings) (s : Settings) (path : String) (project : Option String) (sections : List String)
    (out checkpoints : String) (asJson : Bool) : Step Unit := do
  let place ← orFail ((← get).tree.locate? x.directory path) ("Repository not found: " ++ path)
  let project ← projectOf project place
  checkProject project
  let s := if sections.isEmpty then s else { s with analysis := { s.analysis with sections := sections } }
  let models ← findModels x s
  let (checkpointPlace, files) ← openCheckpoints x checkpoints
  let desk := { Desk.ofSettings s with keeper := .files files }
  let (result, desk) ← happen ((surveyorOf x s models (← get).tree place).run project) desk
  storeCheckpoints checkpointPlace files desk.keeper.stored
  report asJson result
  if !result.success then fail ("Analysis failed: " ++ result.error.getD "unknown error")
  writeDocument x out project result.sections (desk.snapshots.load? project)

/-- Answer a question about a project that was surveyed. -/
def ask (x : Surroundings) (s : Settings) (project question out : String) : Step Unit := do
  checkProject project
  let path := recordPath out project
  let bytes ← orFail ((← get).tree.bytesAt? x.directory path)
    ("No saved analysis for '" ++ project ++ "' at " ++ path)
  let record ← orFail ((String.fromUTF8? bytes).bind Json.parse? >>= Store.Snapshots.Record.decode?)
    ("Corrupt analysis file " ++ path)
  let models ← findModels x s
  let desk := { Desk.ofSettings s with snapshots := ({} : Store.Snapshots).save record }
  let threshold := s.quality.lowConfidenceThreshold
  let (answer, _) ← happen ((retrieverOf x s models).answer threshold project question) desk
  match answer with
  | .ok a => say a.text
  | .error e => fail e.message

/-- A result of a store, or its failure as an error. -/
def orReport {α : Type} : Except Store.Failure α → Step α
  | .ok a => return a
  | .error e => fail e.message

/-- Count the checkpoints of a project, or drop them. -/
def lookAfter (x : Surroundings) (project directory : String) (drops : Bool) : Step Unit := do
  let (place, files) ← openCheckpoints x directory
  if drops then
    let (removed, left) ← orReport (files.invalidate project)
    storeCheckpoints place files left
    say ("Removed " ++ Decimal.natText removed ++ " checkpoints for " ++ project)
  else
    let n ← orReport (files.count project)
    say (Decimal.natText n ++ " checkpoints for " ++ project)

/-- Carry out a command. -/
def perform (x : Surroundings) (s : Settings) : Command → Step Unit
  | .survey path project sections out checkpoints asJson =>
    survey x s path project sections out checkpoints asJson
  | .ask project question out => ask x s project question out
  | .checkpoints project directory drops => lookAfter x project directory drops

/-- How a command came out. -/
structure Outcome where
  tree : FileTree
  output : String
  error : Option String := none
  exitCode : Nat := 0

/-- Read the words of a command and carry it out. -/
def run (x : Surroundings) (tree : FileTree) (words : List String) : Outcome :=
  match read words with
  | .error .help => { tree := tree, output := "" }
  | .error .misuse => { tree := tree, output := "", exitCode := 2 }
  | .ok i =>
    let step := do perform x (← loadSettings x i.settingsFile) i.command
    match step.run { tree := tree } with
    | .ok _ w => { tree := w.tree, output := w.output }
    | .error (.error message) w => { tree := w.tree, output := w.output, error := some message, exitCode := 1 }
    | .error (.crash _) w => { tree := w.tree, output := w.output, exitCode := 101 }

end CodeAtlas.CommandLine

/-!
What a command looks at. A file system is too large to be read as a whole, so only the places that a command can
look at are read into the tree on which it is carried out.
-/
namespace CodeAtlas.CommandLine

/-- A part of a file system that is read: everything that a path leads through, and, if asked for, everything
below its end that passes a test on the way down. -/
structure Sight where
  path : String
  enters : List String → Bool := fun _ => false

/-- Whether what lies at a path of a repository can matter to its survey. -/
def mattersToSurvey : List String → Bool
  | ".git" :: rest => rest.isEmpty || ["HEAD", "packed-refs", "refs"].contains (rest.headD "")
  | path => !path.any Repository.skippedDirectories.contains

/-- Where a survey from a directory writes its sections. -/
def surveyDirectory (start : List String) (path : String) (project : Option String) (out : String) : String :=
  let place := (FileTree.trail start path).getLast?.getD []
  sectionDirectory out (project.getD (place.getLast?.getD ""))

/-- What a command looks at besides its settings. -/
def Command.sights (start : List String) : Command → List Sight
  | .survey path project _ out store _ =>
    [⟨path, mattersToSurvey⟩, ⟨surveyDirectory start path project out, fun _ => false⟩,
      ⟨store, fun _ => true⟩]
  | .ask project _ out => [⟨recordPath out project, fun _ => false⟩]
  | .checkpoints _ directory _ => [⟨directory, fun _ => true⟩]

/-- What a command with its settings file looks at. -/
def Invocation.sights (start : List String) (i : Invocation) : List Sight :=
  i.settingsFile.toList.map (⟨·, fun _ => false⟩) ++ i.command.sights start

/-- How the program is called. -/
def usage : String :=
  "Usage: atlas [-c FILE] [-v] [--log-json] COMMAND\n\n" ++
  "  analyze PATH [--project ID] [--sections NAME,...] [-o DIRECTORY] [--checkpoints DIRECTORY] [--json]\n" ++
  "  ask PROJECT QUESTION [-o DIRECTORY]\n" ++
  "  checkpoints PROJECT [--dir DIRECTORY] [--clear]\n"

end CodeAtlas.CommandLine
