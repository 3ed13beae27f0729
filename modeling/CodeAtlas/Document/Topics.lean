import CodeAtlas.Document.Catalogue
import CodeAtlas.Document.Concerns
import CodeAtlas.Document.Overview
import CodeAtlas.Document.Writer
import CodeAtlas.Models.Guarded

/-!
The sections that are always on offer. Each is sketched from the atlas; a model may put the sketch into
prose, and where it fails the sketch itself is the draft.
-/
namespace CodeAtlas.Document

/-- A section that can be sketched. -/
structure Topic where
  name : String
  title : String
  sketch : Source → Sketch

/-- The sections on offer. -/
def topics : List Topic := [
  ⟨"executive_overview", "Executive Overview", executiveOverview⟩,
  ⟨"features", "Main Application Features", features⟩,
  ⟨"system_overview", "System Overview", systemOverview⟩,
  ⟨"data_models", "Data Models", dataModels⟩,
  ⟨"api_specs", "API Specifications", apiSpecs⟩,
  ⟨"security_considerations", "Security Considerations", securityConsiderations⟩,
  ⟨"user_stories", "User Stories", userStories⟩,
  ⟨"interfaces", "Interface Specifications", interfaces⟩]

/-- The section of a name. -/
def topic? (name : String) : Option Topic := topics.find? (·.name == name)

/-- What the model is told to be. -/
def proseInstruction : String := "You are a technical writer producing markdown documentation."

/-- What was wrong with the draft before, as the model is told. -/
def rejection (verdict : Gate) : String :=
  "\n\nThe previous draft was rejected:\n" ++
    Markdown.linesText (verdict.failures.map fun f => "- " ++ f.field ++ ": " ++ f.remedy)

/-- What the model is asked for. -/
def proseRequest (title : String) (sketch : Sketch) (feedback : Option Gate) : String :=
  "Rewrite the following \"" ++ title ++ "\" documentation section so it reads well for " ++
    "engineers and product owners. Keep every heading, table row, diagram and fact. " ++
    "Do not invent components and do not leave bracketed placeholders.\n\n" ++ sketch.markdown ++
    (feedback.map rejection).getD ""

/-- The conversation in which a model puts a sketch into prose. -/
def proseConversation (title : String) (sketch : Sketch) (feedback : Option Gate) : List Models.Message :=
  [⟨.system, proseInstruction⟩, ⟨.user, proseRequest title sketch feedback⟩]

/-- How sure prose is, by the number of things that the sketch draws from. -/
def proseConfidence (itemCount : Nat) : Float := if 3 ≤ itemCount then 0.90 else 0.80

/-- The sketch itself as a draft. -/
def Sketch.draft (s : Sketch) : Draft := ⟨s.markdown, s.confidence, s.citations⟩

/-- The draft that a model's answer gives; an answer without text gives the sketch. -/
def draftOf (sketch : Sketch) : Except Models.Failure Models.Completion → Draft
  | .ok completion =>
    let prose := Models.withoutFence completion.content
    if Text.blank prose then sketch.draft else ⟨prose, proseConfidence sketch.itemCount, sketch.citations⟩
  | .error _ => sketch.draft

variable {σ : Type}

/-- Write a section from its sketch, with models that put it into prose if there are any. -/
def Topic.writer (t : Topic) (models : Option (Models σ)) : Writer σ where
  name := t.name
  title := t.title
  write source feedback := do
    let sketch := t.sketch source
    match models with
    | none => return .ok sketch.draft
    | some models =>
      let answer ← models.completeWithFallback (proseConversation t.title sketch feedback) false
      return .ok (draftOf sketch answer)

/-- Those who write the sections on offer. -/
def writers (models : Option (Models σ)) : Writers σ := topics.map (·.writer models)

end CodeAtlas.Document
