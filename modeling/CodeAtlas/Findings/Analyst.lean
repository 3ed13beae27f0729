import CodeAtlas.Activity.Pool
import CodeAtlas.Chunk.Basic
import CodeAtlas.Findings.Codec
import CodeAtlas.Findings.Reply
import CodeAtlas.Models.Basic
import CodeAtlas.Models.Guarded
import CodeAtlas.Progress
import CodeAtlas.Store.Checkpoints
import CodeAtlas.Store.Vectors
import CodeAtlas.Text.Basic

/-!
What a model is asked about a chunk.
-/
namespace CodeAtlas.Findings

/-- What a model is told to do. -/
def instruction : String :=
  "You are a senior software analyst. Read the code chunk and describe what it does for the business, " ++
  "which rules it enforces and which risks it carries. Respond with a single JSON object and nothing else."

/-- The shape that answers should have. -/
def answerShape : String :=
  "\n".intercalate [
    "\x7b",
    "  \"narrative\": \x7b",
    "    \"purpose\": \"one sentence\",",
    "    \"behaviors\": [\x7b\"description\": \"...\", \"line_start\": 1, " ++
      "\"line_end\": 1\x7d],",
    "    \"concepts\": [\"domain concept\"],",
    "    \"confidence\": \"high|medium|low\"",
    "  \x7d,",
    "  \"business_rules\": [\x7b\"rule_text\": \"...\", " ++
      "\"rule_type\": \"validation|pricing|workflow|access_control|data_constraint\", " ++
      "\"condition\": \"...\", \"consequence\": \"...\", \"line_start\": 1, " ++
      "\"line_end\": 1, \"confidence\": \"high|medium|low\"\x7d],",
    "  \"risks\": [\x7b\"title\": \"...\", " ++
      "\"risk_type\": \"security|performance|reliability|maintainability\", " ++
      "\"severity\": \"critical|high|medium|low\", \"description\": \"...\", \"line\": 1, " ++
      "\"recommendations\": [\"...\"], \"confidence\": \"high|medium|low\"\x7d]",
    "\x7d"]

/-- A number at the right end of a column. -/
def rightAligned (width n : Nat) : String :=
  let digits := Decimal.natText n
  String.ofList (List.replicate (width - digits.length) ' ') ++ digits

/-- The lines of a chunk with their numbers in the file. -/
def numberedLines (c : Chunk) : String :=
  String.join ((Text.lines c.content).zipIdx.map fun (line, i) =>
    rightAligned 5 (c.startLine + i) ++ " | " ++ line ++ "\n")

/-- What a model is asked about a chunk. -/
def question (c : Chunk) : String :=
  "File: " ++ c.file ++ "\nLanguage: " ++ c.language ++ "\nLines: " ++ Decimal.natText c.startLine ++ "-" ++
    Decimal.natText c.endLine ++ "\n\n```" ++ c.language ++ "\n" ++ numberedLines c ++
    "```\n\nReturn JSON shaped like:\n" ++ answerShape

/-- The conversation about a chunk. -/
def conversation (c : Chunk) : List Models.Message := [⟨.system, instruction⟩, ⟨.user, question c⟩]

end CodeAtlas.Findings

/-!
Analysts: they have the models read the chunks of a program. A chunk that was read before is looked up among
the checkpoints by its fingerprint, and only a new reading that could be understood becomes a checkpoint.
Whatever fails, every chunk that is read in time has findings: those of a failed reading are stand-ins. When
all chunks were read, their vectors are stored for later searches.
-/
namespace CodeAtlas

/-- What goes wrong while a chunk is read. -/
inductive Analyst.Mishap where
  /-- The checkpoints could not be looked up. -/
  | lookupFailed (failure : Store.Failure)
  /-- An answer could not be understood. -/
  | unreadable (reason : String)
  /-- No model answered. -/
  | unavailable (failure : Models.Failure)
  /-- The checkpoint could not be made. -/
  | notKept (failure : Store.Failure)

/-- Whoever reads chunks: with which models, where the checkpoints and vectors are, how many chunks are read
at once, who hears of it, and what is written down when something goes wrong with a chunk of a file. -/
structure Analyst (σ : Type) where
  models : Models σ
  checkpoints : Store.Checkpoints.Service σ
  vectors : Option (Store.Vectors.Service σ) := none
  capacity : Nat := 1
  progress : Progress σ := {}
  calendar : Activity σ Instant
  note : String → Analyst.Mishap → σ → σ := fun _ _ s => s

namespace Analyst

variable {σ : Type}

/-- The stage of an analysis in which chunks are read. -/
def stage : String := "model"

/-- The findings of a chunk, and whether they come from a checkpoint. -/
structure Reading where
  findings : ChunkFindings
  fromCheckpoint : Bool

/-- What stands in for the findings of a file. -/
def Mishap.standIn (file : String) : Mishap → ChunkFindings
  | .unreadable _ => .unreadable file
  | _ => .unavailable file

/-- The findings in a model's answer. -/
def understood (c : Chunk) : Except Models.Failure Models.Completion → Except Mishap ChunkFindings
  | .ok completion =>
    match Findings.Reply.read? completion.content c with
    | some findings => .ok findings
    | none => .error (.unreadable ("model " ++ completion.model ++ " returned no usable JSON"))
  | .error (.invalidResponse reason) => .error (.unreadable reason)
  | .error e => .error (.unavailable e)

/-- Write down what went wrong with a chunk. -/
def warn (a : Analyst σ) (c : Chunk) (m : Mishap) : Activity σ Unit := Activity.modify (a.note c.file m)

/-- The checkpoint that findings become. -/
def checkpointOf (project commit : String) (c : Chunk) (findings : ChunkFindings) (now : Instant) :
    Store.Checkpoints.Record where
  project := project
  commit := commit
  fingerprint := c.fingerprint
  file := c.file
  result := findings.encode.canonical
  createdAt := now

/-- Have the models read a chunk; a failure to make a checkpoint does not matter. -/
def readAnew (a : Analyst σ) (project commit : String) (c : Chunk) : Activity σ Reading := do
  match understood c (← a.models.completeWithFallback (Findings.conversation c) true) with
  | .ok findings =>
    let now ← a.calendar
    match ← a.checkpoints.put (checkpointOf project commit c findings now) with
    | .ok _ => return ⟨findings, false⟩
    | .error e =>
      a.warn c (.notKept e)
      return ⟨findings, false⟩
  | .error m =>
    a.warn c m
    return ⟨m.standIn c.file, false⟩

/-- Read a chunk, or look up what was found before; a value that cannot be decoded counts as none. -/
def read (a : Analyst σ) (project commit : String) (c : Chunk) : Activity σ Reading := do
  match ← a.checkpoints.get? project c.fingerprint with
  | .ok value =>
    match value.bind ChunkFindings.decode? with
    | some findings => return ⟨findings, true⟩
    | none => a.readAnew project commit c
  | .error e =>
    a.warn c (.lookupFailed e)
    a.readAnew project commit c

/-- What has been found so far, and in how many chunks. -/
structure Tally where
  findings : Findings := {}
  completed : Nat := 0

/-- Take in the reading of one more chunk. -/
def Tally.add (t : Tally) (r : Reading) : Tally where
  findings :=
    let findings := t.findings.push r.findings
    { findings with checkpointHits := findings.checkpointHits + (if r.fromCheckpoint then 1 else 0) }
  completed := t.completed + 1

/-- The event that tells how many chunks have been read. -/
def Tally.event (t : Tally) (total : Nat) : Progress.Event :=
  .counted stage t.completed total
    ("Analyzed " ++ Decimal.natText t.completed ++ "/" ++ Decimal.natText total ++ " code chunks")

/-- Takes in readings as they come, and tells of each. -/
def collector (progress : Progress σ) (total : Nat) : Activity.Collector σ Reading Tally where
  collect _ reading _ s tally :=
    let tally := tally.add reading
    (tally, progress.notify (tally.event total) s)

/-- What a chunk is embedded as. -/
def embeddedText (c : Chunk) : String := c.file ++ "\n" ++ c.content

/-- The vector of a chunk as it is stored. -/
def vectorRecord (c : Chunk) (vector : Models.Vector) : Store.Vectors.Record :=
  ⟨c.file, c.symbol, c.content, c.startLine, c.endLine, vector⟩

/-- The vectors to store: one for each chunk that has one. -/
def vectorRecords (chunks : List Chunk) (vectors : List (Option Models.Vector)) : List Store.Vectors.Record :=
  (chunks.zip vectors).filterMap fun (c, v) => v.map (vectorRecord c)

/-- Store the vectors of chunks, if there is a place for them; a failure does not matter. -/
def storeVectors (a : Analyst σ) (project : String) (chunks : List Chunk) : Activity σ Unit :=
  match a.vectors with
  | none => return ()
  | some store =>
    if a.models.embedding.isNone || chunks.isEmpty then return ()
    else do
      match ← a.models.embedTexts (chunks.map embeddedText) with
      | .error _ => return ()
      | .ok vectors =>
        let _ ← store.replace project (vectorRecords chunks vectors)
        return ()

/-- Read the chunks that can be analysed, up to a moment if one is given. -/
def readAll (a : Analyst σ) (project commit : String) (chunks : List Chunk) (deadline : Option Moment) :
    Activity σ Tally :=
  Activity.pool (max 1 a.capacity) (deadline.map Duration.roundUp) (collector a.progress chunks.length)
    (chunks.map (a.read project commit)) {}

/-- Read the chunks of a program. When the deadline passes, what was found until then is the result. -/
def analyze (a : Analyst σ) (project commit : String) (chunks : List Chunk) (deadline : Option Moment) :
    Activity σ Findings := do
  let chunks := chunks.filter (·.isAnalyzable)
  let tally ← a.readAll project commit chunks deadline
  if tally.completed = chunks.length then a.storeVectors project chunks
  return tally.findings

end Analyst
end CodeAtlas
