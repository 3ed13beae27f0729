import CodeAtlas.Activity.Basic
import CodeAtlas.Citation
import CodeAtlas.Document.Sketch
import CodeAtlas.Gate.Basic
import CodeAtlas.Gate.Checks
import CodeAtlas.Settings.Basic
import CodeAtlas.Stage.Basic
import CodeAtlas.Text.Basic

/-!
Sections of the document, written or stood in for.
-/
namespace CodeAtlas
namespace Document

/-- A section of the document. -/
structure Section where
  name : String
  title : String
  content : String
  confidence : Float
  citations : List Citation
  /-- How often the section was written. -/
  attempts : Nat
  gate : Option Gate
  /-- Whether the section failed its gate or could not be written. -/
  degraded : Bool
  /-- Whether the content starts with a warning. -/
  lowConfidence : Bool
  error : Option String

/-- How many characters of an error a stand-in shows. -/
def maxErrorLength : Nat := 200

/-- The stand-in for a section that nobody could write. -/
def Section.standIn (name title error : String) (attempts : Nat) : Section :=
  let error := Text.take maxErrorLength error
  { name := name
    title := title
    content := "# " ++ title ++ "\n\n*This section could not be generated. Error: " ++ error ++ "*\n"
    confidence := 0.0
    citations := []
    attempts := attempts
    gate := none
    degraded := true
    lowConfidence := true
    error := some error }

/-- Encode a section. -/
def Section.encode (s : Section) : Json :=
  .obj ([("name", .str s.name), ("title", .str s.title), ("content", .str s.content),
    ("confidence", .float s.confidence), ("citations", Json.list Citation.encode s.citations),
    ("attempts", .nat s.attempts)] ++ Json.fieldIfSome "gate" Gate.encode s.gate ++
    [("degraded", .bool s.degraded), ("low_confidence", .bool s.lowConfidence)] ++
    Json.fieldIfSome "error" .str s.error)

end Document
end CodeAtlas

/-!
Those who write sections. A section is written until a draft passes its gate or it has been written as often
as the rules allow. The latest draft counts, whether it passed or not; a section without any draft gets a
stand-in.
-/
namespace CodeAtlas
namespace Document

/-- A section as somebody wrote it. -/
structure Draft where
  content : String
  confidence : Float
  citations : List Citation := []

/-- Whoever writes a section; `write` is given the verdict on the draft before. -/
structure Writer (σ : Type) where
  name : String
  title : String
  write : Source → Option Gate → Activity σ (Except Stage.Failure Draft)

/-- What has come of writing a section so far: the latest draft with its verdict, and the latest error. -/
structure Trial where
  attempts : Nat := 0
  latest : Option (Draft × Gate) := none
  error : Option String := none

/-- Take in what came of one more attempt. -/
def Trial.note (p : Trial) (name : String) (rules : Gate.Rules) :
    Except Stage.Failure Draft → Trial
  | .ok draft => { p with
      attempts := p.attempts + 1
      latest := some (draft, Gate.judge name rules draft.content) }
  | .error e => { p with attempts := p.attempts + 1, error := some e.message }

variable {σ : Type}

namespace Writer

/-- Write a section at most so many times more, until a draft passes. -/
def attempt (w : Writer σ) (source : Source) (rules : Gate.Rules) : Nat → Trial → Activity σ Trial
  | 0, p => return p
  | left + 1, p => do
    let result ← w.write source (p.latest.map (·.2))
    let p := p.note w.name rules result
    match result, p.latest with
    | .ok _, some (_, verdict) => if verdict.passed then return p else attempt w source rules left p
    | _, _ => attempt w source rules left p

/-- The section that comes of an accepted draft; it crashes when the bounds of confidence are not in order. -/
def finish (w : Writer σ) (quality : Settings.Quality) (attempts : Nat) (draft : Draft) (verdict : Gate) :
    Activity σ Section :=
  match Gate.scaled? draft.confidence verdict.score quality.confidenceFloor quality.confidenceCeiling with
  | none => .crash (Gate.boundsMessage quality.confidenceFloor quality.confidenceCeiling)
  | some confidence =>
    let (content, low) := Gate.withWarning draft.content confidence quality.lowConfidenceThreshold
    return {
      name := w.name
      title := w.title
      content := content
      confidence := confidence
      citations := draft.citations
      attempts := attempts
      gate := some verdict
      degraded := !verdict.passed
      lowConfidence := low
      error := none }

/-- Write a section under rules. -/
def compose (w : Writer σ) (source : Source) (rules : Gate.Rules) (quality : Settings.Quality) :
    Activity σ Section := do
  let p ← w.attempt source rules (max 1 rules.maxIterations) {}
  match p.latest with
  | some (draft, verdict) => w.finish quality p.attempts draft verdict
  | none => return .standIn w.name w.title (p.error.getD "generator produced no output") p.attempts

end Writer

/-- Those who write, no two for sections of one name. -/
abbrev Writers (σ : Type) := List (Writer σ)

namespace Writers

/-- Add a writer, in the place of one for a section of the same name if there is one. -/
def put (ws : Writers σ) (w : Writer σ) : Writers σ :=
  if ws.any (·.name == w.name) then ws.map fun x => if x.name == w.name then w else x else ws ++ [w]

/-- The writer for a section. -/
def named? (ws : Writers σ) (name : String) : Option (Writer σ) := ws.find? (·.name == name)

end Writers
end Document
end CodeAtlas
