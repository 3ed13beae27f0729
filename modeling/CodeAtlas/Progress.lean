import CodeAtlas.Activity.Basic
import CodeAtlas.Duration
import CodeAtlas.Json.Record
import CodeAtlas.Text.Basic
import CodeAtlas.Width

/-!
Events that tell how an analysis proceeds, and who listens to them. A listener takes an event at once; if it
crashes, the analysis does not notice.
-/
namespace CodeAtlas

namespace Progress

/-- Where a stage stands. -/
inductive Status where
  | running
  | done
  | error
deriving DecidableEq, Repr

/-- The word for a status. -/
def Status.text : Status → String
  | running => "running"
  | done => "done"
  | error => "error"

/-- Something that happened in a stage. -/
structure Event where
  stage : String
  label : String
  status : Status
  message : String := ""
  millis : Option Nat := none
  completed : Option Nat := none
  total : Option Nat := none
  percent : Option Float := none

/-- What people call the stages. -/
def labels : List (String × String) := [
  ("ingestion", "Scanning codebase"), ("static", "Parsing code structure"), ("model", "AI analysis"),
  ("dual_analysis", "Analyzing code"), ("reconciliation", "Building Intelligence Model"),
  ("section_generation", "Generating documentation"), ("citation_verification", "Verifying citations"),
  ("persistence", "Saving results")]

/-- What people call a stage. -/
def labelOf (stage : String) : String :=
  match labels.lookup stage with
  | some label => label
  | none => if Text.startsWith stage "generate_" then "Generating documentation" else stage

/-- An event with the label of its stage. -/
def Event.of (stage : String) (status : Status) (message : String) : Event :=
  { stage := stage, label := labelOf stage, status := status, message := message }

/-- A stage is at work. -/
def Event.running (stage message : String) : Event := .of stage .running message

/-- A stage has ended. -/
def Event.finished (stage : String) (ok : Bool) (duration : Duration) (message : String) : Event :=
  { Event.of stage (if ok then .done else .error) message with
    millis := some (Width.wrap 64 duration.toMillis) }

/-- A share in percent, with one place. -/
def percentOf (completed total : Nat) : Float :=
  (completed.toUInt64.toFloat / total.toUInt64.toFloat * 100.0 * 10.0).round / 10.0

/-- A stage has completed some of its tasks. -/
def Event.counted (stage : String) (completed total : Nat) (message : String) : Event :=
  { Event.running stage message with
    completed := some completed
    total := some total
    percent := if 0 < total then some (percentOf completed total) else none }

/-- Encode an event. -/
def Event.encode (e : Event) : Json :=
  .obj ([("stage", .str e.stage), ("label", .str e.label), ("status", .str e.status.text),
    ("message", .str e.message)] ++ Json.fieldIfSome "duration_ms" .nat e.millis ++
    Json.fieldIfSome "completed" .nat e.completed ++ Json.fieldIfSome "total" .nat e.total ++
    Json.fieldIfSome "percent" .float e.percent)

/-- Decode an event. -/
def Event.decode? (j : Json) : Option Event := do
  let r ← j.record? ["stage", "label", "status", "message", "duration_ms", "completed", "total",
    "percent"]
  return {
    stage := ← r.need "stage" Json.text?
    label := ← r.need "label" Json.text?
    status := ← r.need "status" (Json.oneOf? [.running, .done, .error] Status.text)
    message := ← r.orElse "message" Json.text? ""
    millis := ← r.maybeOrElse "duration_ms" (Json.nat? 64)
    completed := ← r.maybeOrElse "completed" (Json.nat? 64)
    total := ← r.maybeOrElse "total" (Json.nat? 64)
    percent := ← r.maybeOrElse "percent" Json.float? }

/-- A listener: what an event does to the state, and the message of a crash if the listener crashes. -/
abbrev Listener (σ : Type) := Event → σ → σ × Option String

end Progress

/-- Whoever listens to an analysis, if anyone does. -/
structure Progress (σ : Type) where
  listener : Option (Progress.Listener σ) := none

namespace Progress

variable {σ : Type}

/-- Tell the listener of an event. -/
def notify (p : Progress σ) (e : Event) (s : σ) : σ :=
  match p.listener with
  | some listen => (listen e s).1
  | none => s

/-- Tell the listener of an event. -/
def emit (p : Progress σ) (e : Event) : Activity σ Unit := Activity.modify (p.notify e)

/-- Whether anyone listens, as text. -/
def text (p : Progress σ) : String :=
  "Progress \x7b enabled: " ++ (if p.listener.isSome then "true" else "false") ++ " \x7d"

end Progress
end CodeAtlas
