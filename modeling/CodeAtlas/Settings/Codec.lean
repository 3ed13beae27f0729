import CodeAtlas.Json.Record
import CodeAtlas.Settings.Basic

/-!
Settings as documents. Every key may be left out and then has its default, only the two limits of a breaker
are given together. The key to the models is read but never written.
-/
namespace CodeAtlas.Settings

/-- Encode how models are used, without the key. -/
def Models.encode (m : Models) : Json :=
  .obj [("model_chain", Json.strings m.chain), ("embedding_model", .str m.embedding),
    ("max_concurrency", .nat m.maxConcurrency), ("timeout_seconds", .nat m.timeoutSeconds),
    ("max_output_tokens", .nat m.maxOutputTokens), ("api_base", .str m.apiBase),
    ("synthesize_sections", .bool m.synthesizeSections)]

/-- Decode how models are used. -/
def Models.decode? (j : Json) : Option Models := do
  let r ← j.record? ["model_chain", "embedding_model", "max_concurrency", "timeout_seconds",
    "max_output_tokens", "api_base", "api_key", "synthesize_sections"]
  let d : Models := {}
  return {
    chain := ← r.orElse "model_chain" (Json.list? Json.text?) d.chain
    embedding := ← r.orElse "embedding_model" Json.text? d.embedding
    maxConcurrency := ← r.orElse "max_concurrency" (Json.nat? 64) d.maxConcurrency
    timeoutSeconds := ← r.orElse "timeout_seconds" (Json.nat? 64) d.timeoutSeconds
    maxOutputTokens := ← r.orElse "max_output_tokens" (Json.nat? 32) d.maxOutputTokens
    apiBase := ← r.orElse "api_base" Json.text? d.apiBase
    apiKey := ← r.maybeOrElse "api_key" Json.text?
    synthesizeSections := ← r.orElse "synthesize_sections" Json.bool? d.synthesizeSections }

/-- Encode how a run proceeds. -/
def Analysis.encode (a : Analysis) : Json :=
  .obj [("max_concurrency", .nat a.maxConcurrency), ("timeout_seconds", .nat a.timeoutSeconds),
    ("chunk_max_lines", .nat a.chunkMaxLines), ("sections", Json.strings a.sections),
    ("verify_citations", .bool a.verifyCitations)]

/-- Decode how a run proceeds. -/
def Analysis.decode? (j : Json) : Option Analysis := do
  let r ← j.record? ["max_concurrency", "timeout_seconds", "chunk_max_lines", "sections",
    "verify_citations"]
  let d : Analysis := {}
  return {
    maxConcurrency := ← r.orElse "max_concurrency" (Json.nat? 64) d.maxConcurrency
    timeoutSeconds := ← r.orElse "timeout_seconds" (Json.nat? 64) d.timeoutSeconds
    chunkMaxLines := ← r.orElse "chunk_max_lines" (Json.nat? 64) d.chunkMaxLines
    sections := ← r.orElse "sections" (Json.list? Json.text?) d.sections
    verifyCitations := ← r.orElse "verify_citations" Json.bool? d.verifyCitations }

/-- Encode the limits of a breaker. -/
def BreakerLimits.encode (b : BreakerLimits) : Json :=
  .obj [("failure_threshold", .nat b.failureThreshold), ("recovery_seconds", .nat b.recoverySeconds)]

/-- Decode the limits of a breaker. -/
def BreakerLimits.decode? (j : Json) : Option BreakerLimits := do
  let r ← j.record? ["failure_threshold", "recovery_seconds"]
  return {
    failureThreshold := ← r.need "failure_threshold" (Json.nat? 32)
    recoverySeconds := ← r.need "recovery_seconds" (Json.nat? 64) }

/-- Encode how requests are tried again. -/
def Retry.encode (x : Retry) : Json :=
  .obj [("max_attempts", .nat x.maxAttempts), ("initial_wait_ms", .nat x.initialWaitMillis),
    ("max_wait_ms", .nat x.maxWaitMillis), ("jitter", .float x.jitter)]

/-- Decode how requests are tried again. -/
def Retry.decode? (j : Json) : Option Retry := do
  let r ← j.record? ["max_attempts", "initial_wait_ms", "max_wait_ms", "jitter"]
  let d : Retry := {}
  return {
    maxAttempts := ← r.orElse "max_attempts" (Json.nat? 32) d.maxAttempts
    initialWaitMillis := ← r.orElse "initial_wait_ms" (Json.nat? 64) d.initialWaitMillis
    maxWaitMillis := ← r.orElse "max_wait_ms" (Json.nat? 64) d.maxWaitMillis
    jitter := ← r.orElse "jitter" Json.float? d.jitter }

/-- Encode how failing targets are treated. -/
def Resilience.encode (x : Resilience) : Json :=
  .obj [("llm", x.models.encode), ("embedding", x.embedding.encode), ("vector", x.vector.encode),
    ("retry", x.retry.encode)]

/-- Decode how failing targets are treated. -/
def Resilience.decode? (j : Json) : Option Resilience := do
  let r ← j.record? ["llm", "embedding", "vector", "retry"]
  let d : Resilience := {}
  return {
    models := ← r.orElse "llm" BreakerLimits.decode? d.models
    embedding := ← r.orElse "embedding" BreakerLimits.decode? d.embedding
    vector := ← r.orElse "vector" BreakerLimits.decode? d.vector
    retry := ← r.orElse "retry" Retry.decode? d.retry }

/-- Encode how questions are answered. -/
def Retrieval.encode (x : Retrieval) : Json :=
  .obj [("vector_top_k", .nat x.vectorTopK), ("max_results", .nat x.maxResults),
    ("max_context_chars", .nat x.maxContextBytes), ("vector_distance_max", .float32 x.maxDistance),
    ("rrf_k", .nat x.fusionK), ("snippet_chars", .nat x.snippetChars)]

/-- Decode how questions are answered. -/
def Retrieval.decode? (j : Json) : Option Retrieval := do
  let r ← j.record? ["vector_top_k", "max_results", "max_context_chars", "vector_distance_max",
    "rrf_k", "snippet_chars"]
  let d : Retrieval := {}
  return {
    vectorTopK := ← r.orElse "vector_top_k" (Json.nat? 64) d.vectorTopK
    maxResults := ← r.orElse "max_results" (Json.nat? 64) d.maxResults
    maxContextBytes := ← r.orElse "max_context_chars" (Json.nat? 64) d.maxContextBytes
    maxDistance := ← r.orElse "vector_distance_max" Json.float32? d.maxDistance
    fusionK := ← r.orElse "rrf_k" (Json.nat? 32) d.fusionK
    snippetChars := ← r.orElse "snippet_chars" (Json.nat? 64) d.snippetChars }

/-- Encode how sections are judged. -/
def Quality.encode (q : Quality) : Json :=
  .obj [("max_iterations", .nat q.maxIterations), ("confidence_floor", .float q.confidenceFloor),
    ("confidence_ceiling", .float q.confidenceCeiling),
    ("low_confidence_threshold", .float q.lowConfidenceThreshold)]

/-- Decode how sections are judged. -/
def Quality.decode? (j : Json) : Option Quality := do
  let r ← j.record? ["max_iterations", "confidence_floor", "confidence_ceiling",
    "low_confidence_threshold"]
  let d : Quality := {}
  return {
    maxIterations := ← r.orElse "max_iterations" (Json.nat? 32) d.maxIterations
    confidenceFloor := ← r.orElse "confidence_floor" Json.float? d.confidenceFloor
    confidenceCeiling := ← r.orElse "confidence_ceiling" Json.float? d.confidenceCeiling
    lowConfidenceThreshold :=
      ← r.orElse "low_confidence_threshold" Json.float? d.lowConfidenceThreshold }

/-- Encode settings. -/
def encode (s : Settings) : Json :=
  .obj [("llm", s.models.encode), ("analysis", s.analysis.encode),
    ("resilience", s.resilience.encode), ("retrieval", s.retrieval.encode),
    ("quality", s.quality.encode)]

/-- Decode settings. -/
def decode? (j : Json) : Option Settings := do
  let r ← j.record? ["llm", "analysis", "resilience", "retrieval", "quality"]
  return {
    models := ← r.orElse "llm" Models.decode? {}
    analysis := ← r.orElse "analysis" Analysis.decode? {}
    resilience := ← r.orElse "resilience" Resilience.decode? {}
    retrieval := ← r.orElse "retrieval" Retrieval.decode? {}
    quality := ← r.orElse "quality" Quality.decode? {} }

end CodeAtlas.Settings
