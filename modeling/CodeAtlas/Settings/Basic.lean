import CodeAtlas.Decimal.Notation
import CodeAtlas.Duration
import CodeAtlas.Text.Basic

/-!
The settings of an analysis, every one with a default, and what makes settings unfit to run with.
-/
namespace CodeAtlas

namespace Settings

/-- Which models are used and how. -/
structure Models where
  chain : List String := ["openai/gpt-4.1-mini", "openai/gpt-4.0-mini"]
  embedding : String := "openai/text-embedding-3-small"
  maxConcurrency : Nat := 2
  timeoutSeconds : Nat := 60
  maxOutputTokens : Nat := 4096
  apiBase : String := "https://api.openai.com/v1"
  apiKey : Option String := none
  synthesizeSections : Bool := true

/-- The sections of a document, in its order. -/
def allSections : List String := [
  "executive_overview", "features", "system_overview", "data_models", "api_specs",
  "security_considerations", "user_stories", "interfaces"]

/-- How a run proceeds. -/
structure Analysis where
  maxConcurrency : Nat := 5
  timeoutSeconds : Nat := 900
  chunkMaxLines : Nat := 120
  sections : List String := allSections
  verifyCitations : Bool := true

/-- When a breaker opens and for how long. -/
structure BreakerLimits where
  failureThreshold : Nat
  recoverySeconds : Nat

/-- How throttled requests are tried again. -/
structure Retry where
  maxAttempts : Nat := 3
  initialWaitMillis : Nat := 2000
  maxWaitMillis : Nat := 30000
  jitter : Float := 0.1

/-- How failing targets are treated. -/
structure Resilience where
  models : BreakerLimits := ⟨5, 30⟩
  embedding : BreakerLimits := ⟨3, 30⟩
  vector : BreakerLimits := ⟨3, 60⟩
  retry : Retry := {}

/-- How questions are answered. -/
structure Retrieval where
  vectorTopK : Nat := 10
  maxResults : Nat := 10
  maxContextBytes : Nat := 12000
  maxDistance : Float32 := 1.5
  fusionK : Nat := 60
  snippetChars : Nat := 400

/-- How sections are judged. -/
structure Quality where
  maxIterations : Nat := 2
  confidenceFloor : Float := 0.10
  confidenceCeiling : Float := 0.95
  lowConfidenceThreshold : Float := 0.60

end Settings

/-- All settings. -/
structure Settings where
  models : Settings.Models := {}
  analysis : Settings.Analysis := {}
  resilience : Settings.Resilience := {}
  retrieval : Settings.Retrieval := {}
  quality : Settings.Quality := {}

namespace Settings

/-- What is wrong with settings. -/
inductive Flaw where
  | noModels
  | noConcurrency
  | noIterations
  | confidenceBounds (floor ceiling : Float)
  | noFusionConstant
  | noAttempts

/-- The text of a flaw. -/
def Flaw.message : Flaw → String
  | noModels => "llm.model_chain must not be empty"
  | noConcurrency => "concurrency limits must be at least 1"
  | noIterations => "quality.max_iterations must be at least 1"
  | confidenceBounds floor ceiling =>
    "invalid confidence bounds [" ++ Decimal.plain floor ++ ", " ++ Decimal.plain ceiling ++ "]"
  | noFusionConstant => "retrieval.rrf_k must be at least 1"
  | noAttempts => "resilience.retry.max_attempts must be at least 1"

/-- Whether a number lies between zero and one. -/
def isFraction (x : Float) : Bool := 0.0 ≤ x && x ≤ 1.0

/-- Whether the bounds of confidences are fractions in order. -/
def Quality.boundsFit (q : Quality) : Bool :=
  isFraction q.confidenceFloor && isFraction q.confidenceCeiling &&
    !(q.confidenceCeiling < q.confidenceFloor)

/-- The first flaw of some settings. -/
def flaw? (s : Settings) : Option Flaw :=
  if s.models.chain.isEmpty then some .noModels
  else if s.models.maxConcurrency = 0 ∨ s.analysis.maxConcurrency = 0 then some .noConcurrency
  else if s.quality.maxIterations = 0 then some .noIterations
  else if !s.quality.boundsFit then
    some (.confidenceBounds s.quality.confidenceFloor s.quality.confidenceCeiling)
  else if s.retrieval.fusionK = 0 then some .noFusionConstant
  else if s.resilience.retry.maxAttempts = 0 then some .noAttempts
  else none

/-- How long a model may take to answer. -/
def modelTimeout (s : Settings) : Duration := .ofSeconds s.models.timeoutSeconds

/-- How long both readings of the code may take. -/
def analysisTimeout (s : Settings) : Duration := .ofSeconds s.analysis.timeoutSeconds

end Settings
end CodeAtlas
