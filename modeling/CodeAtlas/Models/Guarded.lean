import CodeAtlas.Guard.Registry
import CodeAtlas.Guard.Retry
import CodeAtlas.Models.Basic
import CodeAtlas.Models.Usage

/-!
Preparing texts for embedding. A token is taken to be four bytes. Short texts are left out, long ones are
cut at a character, and the rest are packed in order into batches that do not exceed a total.
-/
namespace CodeAtlas.Models

/-- The number of bytes that make a token. -/
def bytesPerToken : Nat := 4

/-- Texts with fewer tokens are not embedded. -/
def minTextTokens : Nat := 10

/-- Texts with more tokens are cut. -/
def maxTextTokens : Nat := 8000

/-- Batches hold no more tokens. -/
def maxBatchTokens : Nat := 250000

/-- The estimated number of tokens of a text. -/
def estimateTokens (text : String) : Nat := text.utf8ByteSize / bytesPerToken

/-- The longest prefix of at most some bytes. -/
def takeBytes : Nat → List Char → List Char
  | _, [] => []
  | room, c :: rest => if c.utf8Size ≤ room then c :: takeBytes (room - c.utf8Size) rest else []

/-- A text cut to at most some tokens. -/
def cutToTokens (text : String) (maxTokens : Nat) : String :=
  if text.utf8ByteSize ≤ maxTokens * bytesPerToken then text
  else String.ofList (takeBytes (maxTokens * bytesPerToken) text.toList)

/-- A text to embed, with its place in the list it comes from. -/
structure Input where
  index : Nat
  text : String
deriving DecidableEq

/-- The texts that are long enough, cut and numbered. -/
def inputs (texts : List String) : List Input :=
  (texts.zipIdx.filter fun (t, _) => minTextTokens ≤ estimateTokens t).map fun (t, i) =>
    ⟨i, cutToTokens t maxTextTokens⟩

/-- The tokens of a batch. -/
def batchTokens : List Input → Nat
  | [] => 0
  | x :: rest => estimateTokens x.text + batchTokens rest

/-- Pack inputs into batches; `current` is the batch that is open. -/
def pack (current : List Input) : List Input → List (List Input)
  | [] => if current.isEmpty then [] else [current]
  | x :: rest =>
    if !current.isEmpty && maxBatchTokens < batchTokens current + estimateTokens x.text then
      current :: pack [x] rest
    else pack (current ++ [x]) rest

/-- The batches for some texts. -/
def batches (texts : List String) : List (List Input) := pack [] (inputs texts)

end CodeAtlas.Models

/-!
Models behind breakers. A completion that is turned away for lack of room is tried again and never counts
against the model's breaker; any other failure counts and is final. A chain of models is tried in order.
Embeddings are asked for once, and any failure of theirs counts.
-/
namespace CodeAtlas
namespace Models

/-- An embedding. -/
abbrev Vector := List Float32

/-- Whoever completes conversations. -/
abbrev CompletionService (σ : Type) := Request → Activity σ (Except Failure Completion)

/-- Whoever embeds texts with a model, one vector for each text. -/
abbrev EmbeddingService (σ : Type) := String → List String → Activity σ (Except Failure (List Vector))

end Models

/-- The services, how they are used, and where their breakers and accounts are kept. -/
structure Models (σ : Type) where
  completion : Models.CompletionService σ
  embedding : Option (Models.EmbeddingService σ)
  breakers : Activity.Part σ Breakers
  usage : Activity.Part σ Models.Usage
  retry : RetryPlan
  chain : List String
  embeddingModel : String
  maxOutputTokens : Nat
  timeout : Duration

namespace Models

variable {σ : Type}

/-- The models that settings ask for. -/
def ofSettings (s : Settings) (completion : CompletionService σ) (embedding : Option (EmbeddingService σ))
    (breakers : Activity.Part σ Breakers) (usage : Activity.Part σ Usage) : Models σ where
  completion := completion
  embedding := embedding
  breakers := breakers
  usage := usage
  retry := .ofSettings s.resilience.retry
  chain := s.models.chain
  embeddingModel := s.models.embedding
  maxOutputTokens := s.models.maxOutputTokens
  timeout := s.modelTimeout

/-- How a failed completion counts. -/
def countFailure (f : Failure) : Breaker.Booking := if f.isRateLimited then .ignored else .failure

/-- Ask a service and give up after the request's time. -/
def askInTime (service : CompletionService σ) (r : Request) : Activity σ (Except Failure Completion) := do
  match ← (service r).within r.timeout with
  | some result => return result
  | none => return .error (.timedOut r.timeout)

/-- The result of a guarded call. -/
def ofAnswer {α : Type} : Registry.Answer Failure α → Except Failure α
  | .ok a => .ok a
  | .failed e => .error e
  | .rejected target retryAfter => .error (.circuitOpen target retryAfter)

/-- One attempt at a request, through the model's breaker. -/
def attempt (m : Models σ) (r : Request) : Activity σ (Except Failure Completion) := do
  let answer ← Registry.call (m.breakers.inside Breakers.completionPart) r.model
    (askInTime m.completion r) countFailure
  return ofAnswer answer

/-- Complete a conversation with one model, trying again when it has no room. -/
def complete (m : Models σ) (model : String) (messages : List Message) (timeout : Duration)
    (jsonMode : Bool) : Activity σ (Except Failure Completion) := do
  let request : Request := ⟨model, messages, timeout, jsonMode, m.maxOutputTokens⟩
  match ← m.retry.run (fun _ => m.attempt request) Failure.isRateLimited with
  | .ok c =>
    Activity.updatePart m.usage fun _ u => ((), u.record model c.usage)
    return .ok c
  | .error e => return .error e

/-- Complete a conversation with the first of some models that can. -/
def completeWithAny (m : Models σ) (messages : List Message) (jsonMode : Bool) :
    List String → Activity σ (Option Completion)
  | [] => return none
  | model :: rest => do
    match ← m.complete model messages m.timeout jsonMode with
    | .ok c => return some c
    | .error _ => completeWithAny m messages jsonMode rest

/-- Complete a conversation with the first model of the chain that can. -/
def completeWithFallback (m : Models σ) (messages : List Message) (jsonMode : Bool) :
    Activity σ (Except Failure Completion) := do
  match ← m.completeWithAny messages jsonMode m.chain with
  | some c => return .ok c
  | none => return .error (.allModelsFailed m.chain)

/-- What is wrong with an answer that has too few or too many vectors. -/
def wrongCount (expected got : Nat) : Failure :=
  .invalidResponse ("expected " ++ Decimal.natText expected ++ " embeddings, got " ++ Decimal.natText got)

/-- Accept an answer with one vector for each text. -/
def checkCount (texts : List String) : Except Failure (List Vector) → Except Failure (List Vector)
  | .ok vectors =>
    if vectors.length = texts.length then .ok vectors
    else .error (wrongCount texts.length vectors.length)
  | .error e => .error e

/-- Embed one batch of texts. -/
def embed (m : Models σ) (texts : List String) : Activity σ (Except Failure (List Vector)) :=
  match m.embedding with
  | none => return .error .noEmbedding
  | some service => do
    let answer ← Registry.call (m.breakers.inside Breakers.embeddingPart) m.embeddingModel
      ((service m.embeddingModel texts).andThen fun r => .done (checkCount texts r)) fun _ => .failure
    return ofAnswer answer

/-- Put the vectors of a batch into their places. -/
def place (slots : List (Option Vector)) (batch : List Input) (vectors : List Vector) :
    List (Option Vector) :=
  (batch.zip vectors).foldl (fun slots (x, v) => slots.set x.index (some v)) slots

/-- Embed batches one after the other. -/
def embedBatches (m : Models σ) :
    List (List Input) → List (Option Vector) → Activity σ (Except Failure (List (Option Vector)))
  | [], slots => return .ok slots
  | batch :: rest, slots => do
    match ← m.embed (batch.map (·.text)) with
    | .ok vectors => embedBatches m rest (place slots batch vectors)
    | .error e => return .error e

/-- Embed texts; those that are too short have no vector, and one failed batch fails all. -/
def embedTexts (m : Models σ) (texts : List String) :
    Activity σ (Except Failure (List (Option Vector))) :=
  m.embedBatches (batches texts) (texts.map fun _ => none)

end Models
end CodeAtlas
