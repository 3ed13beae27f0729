import CodeAtlas.Json.Record
import CodeAtlas.Models.Guarded
import CodeAtlas.Text.Lower

/-!
Scripts for models, so that a run can be rehearsed without them. A script is a list of cues; a request is
answered by the first cue that fits it and is not used up, and by a default answer when there is none.
-/
namespace CodeAtlas.Rehearsal

/-- Which requests are answered, how often, and how. -/
structure Cue where
  saying : Option String := none
  model : Option String := none
  jsonMode : Option Bool := none
  times : Option Nat := none
  wait : Duration := 0
  stalls : Bool := false
  text : String := "\x7b\x7d"
  failure : Option Models.Failure := none
  usage : Models.TokenUsage := ⟨10, 5, 0⟩

/-- The cues of a script. -/
abbrev Script := List Cue

/-- Whether a cue fits a request and is not used up. -/
def Cue.fits (c : Cue) (r : Models.Request) : Bool :=
  c.times.all (0 < ·) && c.model.all (· == r.model) && c.jsonMode.all (· == r.jsonMode) &&
    c.saying.all fun s => r.messages.any fun m => Text.contains m.content s

/-- A cue that was used once more. -/
def Cue.used (c : Cue) : Cue := { c with times := c.times.map (· - 1) }

/-- The cue for a request and the script that is left. -/
def Script.cueFor (r : Models.Request) : Script → Cue × Script
  | [] => ({}, [])
  | c :: rest =>
    if c.fits r then (c, c.used :: rest)
    else
      let (cue, rest) := cueFor r rest
      (cue, c :: rest)

/-- What a cue answers to a request, in its time. -/
def Cue.answer {σ : Type} (c : Cue) (r : Models.Request) :
    Activity σ (Except Models.Failure Models.Completion) := do
  Activity.sleep c.wait
  let answer : Except Models.Failure Models.Completion := match c.failure with
    | some f => .error f
    | none => .ok ⟨c.text, r.model, c.usage⟩
  if c.stalls then Activity.stall (return answer) else return answer

/-- How an embedder makes its vectors. -/
inductive Embedding where
  /-- The number of bytes, and one. -/
  | length
  /-- One for each topic that occurs, zero for any other, and a constant at the end. -/
  | topics (topics : List String) (bias : Float32)
  /-- Always the same vector. -/
  | constant (vector : Models.Vector)

/-- How many vectors an embedder keeps back. -/
inductive Shortage where
  | none
  | last
  | all
deriving DecidableEq

/-- An embedder that may fail. -/
structure Embedder where
  embedding : Embedding
  shortage : Shortage := .none
  failure : Option Models.Failure := none
  /-- The number of calls that fail, all when it is zero. -/
  failing : Nat := 0

/-- The vector of a text. -/
def Embedding.vector : Embedding → String → Models.Vector
  | length, text => [text.utf8ByteSize.toUInt64.toFloat32, 1.0]
  | topics words bias, text =>
    (words.map fun t => if Text.contains (Text.lowercase text) t then 1.0 else 0.0) ++ [bias]
  | constant vector, _ => vector

/-- What an embedder answers; calls are counted from one. -/
def Embedder.answer (e : Embedder) (call : Nat) (texts : List String) :
    Except Models.Failure (List Models.Vector) :=
  match e.failure with
  | some f => if e.failing = 0 ∨ call ≤ e.failing then .error f else .ok vectors
  | none => .ok vectors
where
  /-- The vectors that the embedder hands out. -/
  vectors : List Models.Vector :=
    let all := texts.map e.embedding.vector
    match e.shortage with
    | .none => all
    | .last => all.dropLast
    | .all => []

/-- Decode a failure by its kind. -/
def failure? (j : Json) : Option Models.Failure := do
  let message ← j.orDefault? "message" Json.text? ""
  let length := Duration.ofMillis (← j.orDefault? "ms" (Json.nat? 64) 0)
  match ← j.required? "kind" Json.text? with
  | "rate_limited" => return .rateLimited
  | "api" => return .api (← j.orDefault? "status" (Json.nat? 16) 500) message
  | "timeout" => return .timedOut length
  | "circuit_open" => return .circuitOpen message length
  | "all_failed" => return .allModelsFailed (← j.orDefault? "names" (Json.list? Json.text?) [])
  | "no_embedding" => return .noEmbedding
  | "json" => return .unreadable
  | _ => return .invalidResponse message

/-- Decode a cue. -/
def Cue.decode? (j : Json) : Option Cue := do
  let d : Cue := {}
  return {
    saying := ← j.ifGiven? "match" Json.text?
    model := ← j.ifGiven? "model" Json.text?
    jsonMode := ← j.ifGiven? "json_mode" Json.bool?
    times := ← j.ifGiven? "times" (Json.nat? 64)
    wait := .ofMillis (← j.orDefault? "sleep_ms" (Json.nat? 64) 0)
    stalls := ← j.orDefault? "stall" Json.bool? false
    text := ← j.orDefault? "text" Json.text? d.text
    failure := ← j.ifGiven? "error" failure?
    usage := ← j.orDefault? "usage" Models.TokenUsage.decode? d.usage }

/-- Decode an embedder. -/
def Embedder.decode? (j : Json) : Option Embedder := do
  let kind ← j.orDefault? "kind" Json.text? ""
  let topics ← j.orDefault? "topics" (Json.list? Json.text?) []
  let bias ← j.orDefault? "bias" Json.float32? 0.0
  let vector ← j.orDefault? "vector" (Json.list? Json.float32?) []
  return {
    embedding :=
      if kind == "length" then .length
      else if kind == "topics" then .topics topics bias
      else .constant vector
    shortage := if kind == "short" then .last else if kind == "empty" then .all else .none
    failure := ← j.ifGiven? "error" failure?
    failing := ← j.orDefault? "fail_times" (Json.nat? 64) 0 }

end CodeAtlas.Rehearsal
