import CodeAtlas.Gate.Checks
import CodeAtlas.Retrieval.Retriever
import CodeAtlas.Text.Basic

/-!
Questions about a project, as they come in.
-/
namespace CodeAtlas.Question

/-- Questions are cut to this many characters. -/
def maxLength : Nat := 10000

/-- A question without white space around it, cut to its greatest length; none when nothing is left. -/
def read? (text : String) : Option String :=
  let trimmed := Text.trim text
  if trimmed.isEmpty then none else some (Text.take maxLength trimmed)

/-- The text for a question in which nothing is asked. -/
def emptyMessage : String := "Chat input is empty"

end CodeAtlas.Question

/-!
Answers to questions, grounded in what was retrieved. The confidence of an answer is that of what it rests
on: the mean over nodes, or a fixed value for pieces of code alone and for nothing at all.
-/
namespace CodeAtlas

/-- An answer to a question. -/
structure Answer where
  question : String
  text : String
  confidence : Float
  /-- The text begins with a warning. -/
  warned : Bool
  nodesUsed : Nat
  snippetsUsed : Nat
  degraded : Bool

namespace Answer

/-- Why a question has no answer. -/
inductive Failure where
  | emptyQuestion
  | unknownProject (project : String)
  | store (failure : Store.Failure)
  | models (failure : Models.Failure)

/-- The text of a failure. -/
def Failure.message : Failure → String
  | emptyQuestion => "Invalid question: " ++ Question.emptyMessage
  | unknownProject project => "Project not found: " ++ project
  | store f => f.message
  | models f => f.message

/-- A failure as it is reported. -/
def Failure.fault (f : Failure) : Fault :=
  match f with
  | emptyQuestion => ⟨"InvalidQuestion", f.message⟩
  | unknownProject _ => ⟨"ProjectNotFound", f.message⟩
  | store e => e.fault
  | models e => e.fault

/-- What a model is told to do. -/
def instruction : String :=
  "You answer questions about a software repository. Use only the provided context. " ++
  "Cite files as path:line. If the context does not contain the answer, say so."

/-- What a model is asked. -/
def conversation (context question : String) : List Models.Message :=
  [⟨.system, instruction⟩,
   ⟨.user, "# Context\n\n" ++ context ++ "\n\n# Question\n\n" ++ question⟩]

/-- The mean of some numbers. -/
def mean (xs : List Float) : Float := xs.foldl (· + ·) (-0.0) / xs.length.toUInt64.toFloat

/-- The confidence of an answer that rests on what was retrieved. -/
def confidenceOf (r : Retrieval) : Float :=
  if r.nodes.isEmpty then (if r.hits.isEmpty then 0.3 else 0.5)
  else mean (r.nodes.map (·.confidence.value))

/-- Encode an answer. -/
def encode (a : Answer) : Json :=
  .obj [("question", .str a.question), ("text", .str a.text), ("confidence", .float a.confidence),
    ("gated", .bool a.warned), ("entities_used", .nat a.nodesUsed),
    ("snippets_used", .nat a.snippetsUsed), ("vector_degraded", .bool a.degraded)]

end Answer

namespace Retriever

variable {σ : Type}

/-- Have the models answer a question from what was retrieved for it. -/
def answerFrom (r : Retriever σ) (threshold : Float) (question : String) (found : Retrieval) :
    Activity σ (Except Answer.Failure Answer) := do
  let context := found.text r.settings.snippetChars r.settings.maxContextBytes
  match ← r.models.completeWithFallback (Answer.conversation context question) false with
  | .error e => return .error (.models e)
  | .ok completion =>
    let confidence := Answer.confidenceOf found
    let (text, warned) := Gate.withWarning (Text.trim completion.content) confidence threshold
    return .ok {
      question := question
      text := text
      confidence := confidence
      warned := warned
      nodesUsed := found.nodes.length
      snippetsUsed := found.hits.length
      degraded := found.degraded }

/-- Answer a question about a project. -/
def answer (r : Retriever σ) (threshold : Float) (project text : String) :
    Activity σ (Except Answer.Failure Answer) := do
  match Question.read? text with
  | none => return .error .emptyQuestion
  | some question =>
    match ← r.retrieve project question with
    | .error e => return .error (.store e)
    | .ok found =>
      if found.isEmpty then
        match ← r.knows project with
        | .error e => return .error (.store e)
        | .ok false => return .error (.unknownProject project)
        | .ok true => r.answerFrom threshold question found
      else r.answerFrom threshold question found

end Retriever
end CodeAtlas
