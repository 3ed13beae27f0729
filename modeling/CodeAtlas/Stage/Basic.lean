import CodeAtlas.Activity.Pool
import CodeAtlas.Graph.Basic
import CodeAtlas.Json.Record
import CodeAtlas.Models.Basic
import CodeAtlas.Settings.Load
import CodeAtlas.Failure
import CodeAtlas.Width

/-!
How a stage of an analysis fails.
-/
namespace CodeAtlas.Stage

/-- Why a stage failed. -/
inductive Failure where
  | ingestion (message : String)
  /-- Whoever does a stage's work turned its input down. -/
  | refused (stage message : String)
  | timedOut (after : Duration)
  | settings (message : String)
  | graph (refusal : Graph.Refusal)
  | models (failure : Models.Failure)
  | store (failure : Store.Failure)

/-- The text of a failure. -/
def Failure.message : Failure → String
  | ingestion message => "Ingestion failed: " ++ message
  | refused stage message => stage ++ " failed: " ++ message
  | timedOut after => "Timed out after " ++ Duration.text after
  | settings message => "Configuration error: " ++ message
  | graph refusal => refusal.message
  | models failure => failure.message
  | store failure => failure.message

/-- A failure as it is reported. -/
def Failure.fault (f : Failure) : Fault :=
  match f with
  | ingestion _ => ⟨"Ingestion", f.message⟩
  | refused .. => ⟨"Stage", f.message⟩
  | timedOut _ => ⟨"Timeout", f.message⟩
  | settings _ => ⟨"Config", f.message⟩
  | graph refusal => refusal.fault
  | models failure => failure.fault
  | store failure => failure.fault

end CodeAtlas.Stage

/-!
Stages of an analysis. A stage always comes to an end that can be reported: errors and crashes of its work
are caught. Stages of a group run at once and are reported in the order in which they are declared; what has
not ended when the group's time is up is skipped.
-/
namespace CodeAtlas

namespace Stage

/-- How a stage ended. -/
inductive Ending (α : Type) where
  | completed (output : α)
  | failed (error : String)
  | skipped (error : Option String)

/-- A stage that has ended. -/
structure Report (α : Type) where
  name : String
  duration : Duration
  ending : Ending α

variable {σ α : Type}

/-- What a stage ended with, if it was completed. -/
def Report.output? (r : Report α) : Option α :=
  match r.ending with
  | .completed a => some a
  | _ => none

/-- The error of a stage. -/
def Report.error? (r : Report α) : Option String :=
  match r.ending with
  | .completed _ => none
  | .failed e => some e
  | .skipped e => e

/-- Whether a stage was completed. -/
def Report.isCompleted (r : Report α) : Bool := r.output?.isSome

/-- The ways in which a stage can end. -/
inductive Outcome where
  | completed
  | failed
  | skipped
deriving DecidableEq, Repr

/-- The word for an outcome. -/
def Outcome.text : Outcome → String
  | completed => "completed"
  | failed => "failed"
  | skipped => "skipped"

/-- The way in which a stage ended. -/
def Report.outcome (r : Report α) : Outcome :=
  match r.ending with
  | .completed _ => .completed
  | .failed _ => .failed
  | .skipped _ => .skipped

/-- A stage that has ended, without its output. -/
structure Status where
  name : String
  outcome : Outcome
  millis : Nat
  error : Option String
deriving DecidableEq

/-- A report without the output. -/
def Report.status (r : Report α) : Status where
  name := r.name
  outcome := r.outcome
  millis := Width.wrap 64 r.duration.toMillis
  error := r.error?

/-- Encode a status. -/
def Status.encode (s : Status) : Json :=
  .obj ([("name", .str s.name), ("outcome", .str s.outcome.text), ("duration_ms", .nat s.millis)] ++
    Json.fieldIfSome "error" .str s.error)

/-- How work ended that may fail or crash. -/
def endingOf : Except String (Except Failure α) → Ending α
  | .ok (.ok a) => .completed a
  | .ok (.error e) => .failed e.message
  | .error crash => .failed crash

/-- Do the work of a stage. The work gives way before it begins, and what follows it gives way, too. -/
def perform (name : String) (work : Activity σ (Except Failure α)) : Activity σ (Report α) := do
  let start ← Activity.now
  Activity.giveWay
  let result ← work.catchCrash
  Activity.giveWay
  let stop ← Activity.now
  return ⟨name, stop - start, endingOf result⟩

end Stage

/-- A stage: its name and its work. -/
structure Stage (σ α : Type) where
  name : String
  work : Activity σ (Except Stage.Failure α)

namespace Stage

variable {σ α : Type}

/-- Do the work of a stage. -/
def run (s : Stage σ α) : Activity σ (Report α) := perform s.name s.work

/-- Do the work of a stage and note when it ended. -/
def runNoting (s : Stage σ α) : Activity σ (Report α × Moment) := do
  let report ← s.run
  let stop ← Activity.now
  return (report, stop)

end Stage

/-- Stages that run at once: at most `capacity` of them if it is given, and no longer than `timeout`. -/
structure StageGroup (σ α : Type) where
  name : String
  stages : List (Stage σ α)
  capacity : Option Nat := none
  timeout : Option Duration := none

namespace StageGroup

variable {σ α : Type}

/-- The greatest capacity that a group can have. -/
def maxCapacity : Nat := Width.size 61 - 1

/-- What a crash says when a group is to have a greater capacity. -/
def capacityMessage : String :=
  "a semaphore may not have more than MAX_PERMITS permits (2305843009213693951)"

/-- The report on a stage that had not ended when the time was up. -/
def skip (g : StageGroup σ α) (s : Stage σ α) : Stage.Report α :=
  ⟨s.name, 0, .skipped (some (g.name ++ " timed out"))⟩

/-- The report on a stage, given how it ended and when; an end at the limit comes too late. -/
def reportOf (g : StageGroup σ α) (limit : Option Moment) (s : Stage σ α)
    (ended : Option (Stage.Report α × Moment)) : Stage.Report α :=
  match ended with
  | some (report, stop) => if limit.any (· ≤ stop) then g.skip s else report
  | none => g.skip s

/-- Run all stages and report on each, in order. -/
def run (g : StageGroup σ α) : Activity σ (List (Stage.Report α)) := do
  if g.stages.isEmpty then return []
  if g.capacity.any (maxCapacity < ·) then .crash capacityMessage
  else
    let start ← Activity.now
    let limit := g.timeout.map fun d => Duration.roundUp (start + d)
    let capacity := (g.capacity.map (max 1)).getD g.stages.length
    let ended ← Activity.together capacity limit (g.stages.map Stage.runNoting)
    return (g.stages.zip ended).map fun (s, e) => g.reportOf limit s e

end StageGroup
end CodeAtlas
