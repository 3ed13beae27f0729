import CodeAtlas.Proofs.Floating.Widening
import CodeAtlas.Proofs.Json.Pruned
import CodeAtlas.Settings.Load

/-! Settings with keys left out. A key that is left out has its default and all others keep what was written, at any
depth, except that a breaker is written with both its limits or not at all: with just one of them, or with none in an
empty table, the settings are refused. -/
namespace CodeAtlas

open Json (Path beyond)

namespace Json

variable {out : Path → Bool} {r : Record} {keys : List String} {doc : Json} {k : String}

theorem float32?_float32 (x : Float32) : float32? (.float32 x) = some x := by
  rw [float32, float32?, Floating.narrow_widen]

@[simp] theorem prune_float32 (out : Path → Bool) (x : Float32) : prune out (.float32 x) = .float32 x := prune_float out _

/-- A field that may be absent, and is. -/
theorem Record.Prunes.maybeOrElse_eq {α : Type} {decode : Json → Option α} (h : r.Prunes keys doc out) (hk : k ∈ keys)
    (hnone : doc.at? [.key k] = none) : r.maybeOrElse k decode = some none := by
  simp [Record.maybeOrElse, h k hk, hnone]

end Json

namespace Settings

variable {out : Path → Bool}

/-- What a key is decoded to: its default when it is left out. -/
def orDefault {α : Type} (out : Path → Bool) (key : String) (default value : α) : α :=
  if out [.key key] then default else value

theorem ite_some {α : Type} (key : String) (d a : α) :
    (if out [.key key] then some d else some a) = some (orDefault out key d a) := (apply_ite some _ d a).symm

/-- Whether the numbers about models have their widths. -/
structure Models.Fits (m : Models) : Prop where
  maxConcurrency : m.maxConcurrency < Width.size 64
  timeoutSeconds : m.timeoutSeconds < Width.size 64
  maxOutputTokens : m.maxOutputTokens < Width.size 32

/-- How models are used with keys left out; the key to the models is never written. -/
def Models.reset (out : Path → Bool) (m : Models) : Models :=
  let d : Models := {}
  { chain := orDefault out "model_chain" d.chain m.chain
    embedding := orDefault out "embedding_model" d.embedding m.embedding
    maxConcurrency := orDefault out "max_concurrency" d.maxConcurrency m.maxConcurrency
    timeoutSeconds := orDefault out "timeout_seconds" d.timeoutSeconds m.timeoutSeconds
    maxOutputTokens := orDefault out "max_output_tokens" d.maxOutputTokens m.maxOutputTokens
    apiBase := orDefault out "api_base" d.apiBase m.apiBase
    apiKey := none
    synthesizeSections := orDefault out "synthesize_sections" d.synthesizeSections m.synthesizeSections }

theorem Models.decode?_prune {m : Models} (h : m.Fits) : decode? (m.encode.prune out) = some (m.reset out) := by
  have hconcurrency := Json.nat?_nat h.maxConcurrency
  have htimeout := Json.nat?_nat h.timeoutSeconds
  have htokens := Json.nat?_nat h.maxOutputTokens
  apply Json.decode_prune
  · simp
  · intro r hr
    simp [hr.orElse_eq, hr.maybeOrElse_eq, Json.lookup_field, Json.text?, Json.bool?, Json.strings, Json.list?_prune_strings,
      hconcurrency, htimeout, htokens, ite_some, reset]

/-- Whether the numbers about a run have their widths. -/
structure Analysis.Fits (a : Analysis) : Prop where
  maxConcurrency : a.maxConcurrency < Width.size 64
  timeoutSeconds : a.timeoutSeconds < Width.size 64
  chunkMaxLines : a.chunkMaxLines < Width.size 64

/-- How a run proceeds with keys left out. -/
def Analysis.reset (out : Path → Bool) (a : Analysis) : Analysis :=
  let d : Analysis := {}
  { maxConcurrency := orDefault out "max_concurrency" d.maxConcurrency a.maxConcurrency
    timeoutSeconds := orDefault out "timeout_seconds" d.timeoutSeconds a.timeoutSeconds
    chunkMaxLines := orDefault out "chunk_max_lines" d.chunkMaxLines a.chunkMaxLines
    sections := orDefault out "sections" d.sections a.sections
    verifyCitations := orDefault out "verify_citations" d.verifyCitations a.verifyCitations }

theorem Analysis.decode?_prune {a : Analysis} (h : a.Fits) : decode? (a.encode.prune out) = some (a.reset out) := by
  have hconcurrency := Json.nat?_nat h.maxConcurrency
  have htimeout := Json.nat?_nat h.timeoutSeconds
  have hlines := Json.nat?_nat h.chunkMaxLines
  apply Json.decode_prune
  · simp
  · intro r hr
    simp [hr.orElse_eq, Json.lookup_field, Json.bool?, Json.strings, Json.list?_prune_strings, hconcurrency, htimeout,
      hlines, ite_some, reset]

/-- Whether the limits of a breaker have their widths. -/
structure BreakerLimits.Fits (b : BreakerLimits) : Prop where
  failureThreshold : b.failureThreshold < Width.size 32
  recoverySeconds : b.recoverySeconds < Width.size 64

/-- A breaker with limits left out, given its own defaults. -/
def BreakerLimits.reset (out : Path → Bool) (d b : BreakerLimits) : BreakerLimits where
  failureThreshold := orDefault out "failure_threshold" d.failureThreshold b.failureThreshold
  recoverySeconds := orDefault out "recovery_seconds" d.recoverySeconds b.recoverySeconds

/-- Whether one of the limits of a breaker is left out. -/
def lacksLimit (out : Path → Bool) : Bool := out [.key "failure_threshold"] || out [.key "recovery_seconds"]

/-- Without one of its limits a breaker is refused. -/
theorem BreakerLimits.decode?_prune {b : BreakerLimits} (h : b.Fits) (d : BreakerLimits) :
    decode? (b.encode.prune out) = if lacksLimit out then none else some (d.reset out b) := by
  have hthreshold := Json.nat?_nat h.failureThreshold
  have hseconds := Json.nat?_nat h.recoverySeconds
  apply Json.decode_prune
  · simp
  · intro r hr
    cases hf : out [.key "failure_threshold"] <;> cases hs : out [.key "recovery_seconds"] <;>
      simp [hr.need_eq, Json.lookup_field, hthreshold, hseconds, lacksLimit, reset, orDefault, hf, hs]

/-- Whether the numbers about trying again have their widths. -/
structure Retry.Fits (x : Retry) : Prop where
  maxAttempts : x.maxAttempts < Width.size 32
  initialWaitMillis : x.initialWaitMillis < Width.size 64
  maxWaitMillis : x.maxWaitMillis < Width.size 64

/-- How requests are tried again with keys left out. -/
def Retry.reset (out : Path → Bool) (x : Retry) : Retry :=
  let d : Retry := {}
  { maxAttempts := orDefault out "max_attempts" d.maxAttempts x.maxAttempts
    initialWaitMillis := orDefault out "initial_wait_ms" d.initialWaitMillis x.initialWaitMillis
    maxWaitMillis := orDefault out "max_wait_ms" d.maxWaitMillis x.maxWaitMillis
    jitter := orDefault out "jitter" d.jitter x.jitter }

theorem Retry.decode?_prune {x : Retry} (h : x.Fits) : decode? (x.encode.prune out) = some (x.reset out) := by
  have hattempts := Json.nat?_nat h.maxAttempts
  have hinitial := Json.nat?_nat h.initialWaitMillis
  have hmost := Json.nat?_nat h.maxWaitMillis
  apply Json.decode_prune
  · simp
  · intro r hr
    simp [hr.orElse_eq, Json.lookup_field, Json.float?, hattempts, hinitial, hmost, ite_some, reset]

/-- Whether the numbers about failing targets have their widths. -/
structure Resilience.Fits (x : Resilience) : Prop where
  models : x.models.Fits
  embedding : x.embedding.Fits
  vector : x.vector.Fits
  retry : x.retry.Fits

/-- How failing targets are treated with keys left out; each breaker has defaults of its own. -/
def Resilience.reset (out : Path → Bool) (x : Resilience) : Resilience :=
  let d : Resilience := {}
  { models := orDefault out "llm" d.models (d.models.reset (beyond out (.key "llm")) x.models)
    embedding := orDefault out "embedding" d.embedding (d.embedding.reset (beyond out (.key "embedding")) x.embedding)
    vector := orDefault out "vector" d.vector (d.vector.reset (beyond out (.key "vector")) x.vector)
    retry := orDefault out "retry" d.retry (x.retry.reset (beyond out (.key "retry"))) }

/-- Whether a breaker is written without one of its limits. -/
def tearsBreaker (out : Path → Bool) (key : String) : Bool := !out [.key key] && lacksLimit (beyond out (.key key))

/-- Whether some breaker is written without one of its limits. -/
def Resilience.tears (out : Path → Bool) : Bool := ["llm", "embedding", "vector"].any (tearsBreaker out)

theorem ite_breaker {b : BreakerLimits} (h : b.Fits) (d : BreakerLimits) (key : String) :
    (if out [.key key] then some d else BreakerLimits.decode? (b.encode.prune (beyond out (.key key)))) =
      if tearsBreaker out key then none else some (orDefault out key d (d.reset (beyond out (.key key)) b)) := by
  cases hout : out [.key key] <;> simp [tearsBreaker, orDefault, hout, BreakerLimits.decode?_prune h d]

theorem Resilience.decode?_prune {x : Resilience} (h : x.Fits) :
    decode? (x.encode.prune out) = if tears out then none else some (x.reset out) := by
  apply Json.decode_prune
  · simp
  · intro r hr
    cases hmodels : tearsBreaker out "llm" <;> cases hembedding : tearsBreaker out "embedding" <;>
      cases hvector : tearsBreaker out "vector" <;>
      simp [hr.orElse_eq, Json.lookup_field, ite_breaker h.models, ite_breaker h.embedding, ite_breaker h.vector,
        Retry.decode?_prune h.retry, ite_some, hmodels, hembedding, hvector, tears, reset]

/-- Whether the numbers about answers have their widths. -/
structure Retrieval.Fits (x : Retrieval) : Prop where
  vectorTopK : x.vectorTopK < Width.size 64
  maxResults : x.maxResults < Width.size 64
  maxContextBytes : x.maxContextBytes < Width.size 64
  fusionK : x.fusionK < Width.size 32
  snippetChars : x.snippetChars < Width.size 64

/-- How questions are answered with keys left out. -/
def Retrieval.reset (out : Path → Bool) (x : Retrieval) : Retrieval :=
  let d : Retrieval := {}
  { vectorTopK := orDefault out "vector_top_k" d.vectorTopK x.vectorTopK
    maxResults := orDefault out "max_results" d.maxResults x.maxResults
    maxContextBytes := orDefault out "max_context_chars" d.maxContextBytes x.maxContextBytes
    maxDistance := orDefault out "vector_distance_max" d.maxDistance x.maxDistance
    fusionK := orDefault out "rrf_k" d.fusionK x.fusionK
    snippetChars := orDefault out "snippet_chars" d.snippetChars x.snippetChars }

theorem Retrieval.decode?_prune {x : Retrieval} (h : x.Fits) : decode? (x.encode.prune out) = some (x.reset out) := by
  have htop := Json.nat?_nat h.vectorTopK
  have hresults := Json.nat?_nat h.maxResults
  have hbytes := Json.nat?_nat h.maxContextBytes
  have hfusion := Json.nat?_nat h.fusionK
  have hsnippet := Json.nat?_nat h.snippetChars
  apply Json.decode_prune
  · simp
  · intro r hr
    simp [hr.orElse_eq, Json.lookup_field, Json.float32?_float32, htop, hresults, hbytes, hfusion, hsnippet, ite_some,
      reset]

/-- Whether the number about judging sections has its width. -/
def Quality.Fits (q : Quality) : Prop := q.maxIterations < Width.size 32

/-- How sections are judged with keys left out. -/
def Quality.reset (out : Path → Bool) (q : Quality) : Quality :=
  let d : Quality := {}
  { maxIterations := orDefault out "max_iterations" d.maxIterations q.maxIterations
    confidenceFloor := orDefault out "confidence_floor" d.confidenceFloor q.confidenceFloor
    confidenceCeiling := orDefault out "confidence_ceiling" d.confidenceCeiling q.confidenceCeiling
    lowConfidenceThreshold := orDefault out "low_confidence_threshold" d.lowConfidenceThreshold q.lowConfidenceThreshold }

theorem Quality.decode?_prune {q : Quality} (h : q.Fits) : decode? (q.encode.prune out) = some (q.reset out) := by
  have hiterations := Json.nat?_nat h
  apply Json.decode_prune
  · simp
  · intro r hr
    simp [hr.orElse_eq, Json.lookup_field, Json.float?, hiterations, ite_some, reset]

/-- Whether all numbers have their widths. -/
structure Fits (s : Settings) : Prop where
  models : s.models.Fits
  analysis : s.analysis.Fits
  resilience : s.resilience.Fits
  retrieval : s.retrieval.Fits
  quality : s.quality.Fits

/-- Settings with keys left out: their defaults for these, and all others as they are, but for the key to the models. -/
def reset (out : Path → Bool) (s : Settings) : Settings :=
  { models := orDefault out "llm" {} (s.models.reset (beyond out (.key "llm")))
    analysis := orDefault out "analysis" {} (s.analysis.reset (beyond out (.key "analysis")))
    resilience := orDefault out "resilience" {} (s.resilience.reset (beyond out (.key "resilience")))
    retrieval := orDefault out "retrieval" {} (s.retrieval.reset (beyond out (.key "retrieval")))
    quality := orDefault out "quality" {} (s.quality.reset (beyond out (.key "quality"))) }

/-- Whether settings are written with a breaker that lacks one of its limits. -/
def tears (out : Path → Bool) : Bool := !out [.key "resilience"] && Resilience.tears (beyond out (.key "resilience"))

/-- Only the breakers can keep settings from being decoded. -/
theorem decode?_prune_eq_map {s : Settings} (h : s.Fits) :
    decode? (s.encode.prune out) =
      (if out [.key "resilience"] then some {}
        else Resilience.decode? (s.resilience.encode.prune (beyond out (.key "resilience")))).map
      fun x => { s.reset out with resilience := x } := by
  apply Json.decode_prune
  · simp
  · intro r hr
    simp [hr.orElse_eq, Json.lookup_field, Models.decode?_prune h.models, Analysis.decode?_prune h.analysis,
      Retrieval.decode?_prune h.retrieval, Quality.decode?_prune h.quality, ite_some, reset, Option.map_eq_bind]

/-- Settings of which any keys are left out are decoded to the defaults of these keys and to what was written for the
others, unless they are written with a breaker that lacks one of its limits. -/
theorem decode?_keys_left_out {s : Settings} (h : s.Fits) (out : Path → Bool) :
    decode? (s.encode.prune out) = if tears out then none else some (s.reset out) := by
  rw [decode?_prune_eq_map h, Resilience.decode?_prune h.resilience]
  cases hout : out [.key "resilience"] <;> cases htears : Resilience.tears (beyond out (.key "resilience")) <;>
    simp [tears, reset, orDefault, hout, htears]

/-- Settings that differ from the defaults in what they hold of answers and breakers. -/
def tuned : Settings :=
  { retrieval := { maxResults := 4, fusionK := 80 }
    resilience := { models := ⟨7, 70⟩, vector := ⟨9, 90⟩ } }

theorem tuned_fits : tuned.Fits where
  models := ⟨by decide, by decide, by decide⟩
  analysis := ⟨by decide, by decide, by decide⟩
  resilience := ⟨⟨by decide, by decide⟩, ⟨by decide, by decide⟩, ⟨by decide, by decide⟩, ⟨by decide, by decide, by decide⟩⟩
  retrieval := ⟨by decide, by decide, by decide, by decide, by decide⟩
  quality := by
    unfold Quality.Fits
    decide

/-- A table, a key and a whole breaker are left out. -/
theorem decode?_keys_left_out_tuned :
    tuned.Fits ∧
      decode? (tuned.encode.prune fun p => decide (p ∈ [[.key "quality"], [.key "retrieval", .key "rrf_k"],
        [.key "resilience", .key "vector"]])) =
          some { retrieval := { maxResults := 4 }, resilience := { models := ⟨7, 70⟩ } } := by
  refine ⟨tuned_fits, ?_⟩
  rw [decode?_keys_left_out tuned_fits]
  simp [tuned, tears, Resilience.tears, tearsBreaker, lacksLimit, beyond, reset, orDefault, Models.reset, Analysis.reset,
    Resilience.reset, BreakerLimits.reset, Retry.reset, Retrieval.reset]

/-- Settings that were written in full are refused when one limit of a breaker is left out. -/
theorem decode?_tuned_without_limit :
    tuned.Fits ∧ decode? (tuned.encode.prune fun p =>
      decide (p = [.key "resilience", .key "llm", .key "recovery_seconds"])) = none := by
  refine ⟨tuned_fits, ?_⟩
  rw [decode?_prune_eq_map tuned_fits, Resilience.decode?_prune tuned_fits.resilience]
  simp [Resilience.tears, tearsBreaker, lacksLimit, beyond]

end Settings

end CodeAtlas
