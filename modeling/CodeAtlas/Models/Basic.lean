import CodeAtlas.Duration
import CodeAtlas.Failure
import CodeAtlas.Json.Reader
import CodeAtlas.Width

/-!
Requests to language models, their answers and the ways in which they fail.
-/
namespace CodeAtlas
namespace Models

/-- Who speaks in a conversation. -/
inductive Role where
  | system
  | user
  | assistant
deriving DecidableEq, Repr

/-- The word for a role. -/
def Role.text : Role → String
  | system => "system"
  | user => "user"
  | assistant => "assistant"

/-- All roles. -/
def Role.all : List Role := [system, user, assistant]

/-- One message of a conversation. -/
structure Message where
  role : Role
  content : String
deriving DecidableEq

/-- Encode a message. -/
def Message.encode (m : Message) : Json :=
  .obj [("role", .str m.role.text), ("content", .str m.content)]

/-- Decode a message. -/
def Message.decode? (j : Json) : Option Message := do
  let r ← j.record? ["role", "content"]
  return {
    role := ← r.need "role" (Json.oneOf? Role.all Role.text)
    content := ← r.need "content" Json.text? }

/-- One request to one model. -/
structure Request where
  model : String
  messages : List Message
  timeout : Duration
  jsonMode : Bool
  maxOutputTokens : Nat

/-- The tokens that a request took; cached ones are part of the input. -/
structure TokenUsage where
  input : Nat := 0
  output : Nat := 0
  cached : Nat := 0
deriving DecidableEq

namespace TokenUsage

/-- Input and output together, as a word of 32 bits. -/
def total (u : TokenUsage) : Nat := Width.wrap 32 (u.input + u.output)

/-- A count as a double. -/
def count (n : Nat) : Float := n.toUInt64.toFloat

/-- The price of some tokens at a price for each token of input and output. -/
def cost (u : TokenUsage) (inputPrice outputPrice : Float) : Float :=
  count u.input * inputPrice + count u.output * outputPrice

/-- Encode token counts. -/
def encode (u : TokenUsage) : Json :=
  .obj [("input_tokens", .nat u.input), ("output_tokens", .nat u.output),
    ("cached_tokens", .nat u.cached)]

/-- Decode token counts. -/
def decode? (j : Json) : Option TokenUsage := do
  let r ← j.record? ["input_tokens", "output_tokens", "cached_tokens"]
  return {
    input := ← r.need "input_tokens" (Json.nat? 32)
    output := ← r.need "output_tokens" (Json.nat? 32)
    cached := ← r.need "cached_tokens" (Json.nat? 32) }

end TokenUsage

/-- What a model answers. -/
structure Completion where
  content : String
  model : String
  usage : TokenUsage
deriving DecidableEq

/-- Encode an answer. -/
def Completion.encode (c : Completion) : Json :=
  .obj [("content", .str c.content), ("model", .str c.model), ("usage", c.usage.encode)]

/-- The mark around a block of code. -/
def fence : List Char := "```".toList

/-- What stands inside a fence around a whole text; the rest of the first line is dropped when it holds no
blank. -/
def insideFence (body : List Char) : List Char :=
  match Text.splitFirst? ['\n'] body with
  | some (tag, rest) => if tag.contains ' ' then body else rest
  | none => body

/-- A text without white space around it and without a fence around it. -/
def withoutFence (text : String) : String :=
  let trimmed := Text.trimChars text.toList
  match (Text.dropStart? fence trimmed).bind fun rest => Text.dropStart? fence rest.reverse with
  | none => String.ofList trimmed
  | some body => String.ofList (Text.trimChars (insideFence body.reverse))

/-- The document that an answer holds. -/
def documentOf? (text : String) : Option Json := Json.parse? (withoutFence text)

/-- How a request fails. -/
inductive Failure where
  | rateLimited
  | api (status : Nat) (message : String)
  | timedOut (after : Duration)
  | invalidResponse (message : String)
  | circuitOpen (target : String) (retryAfter : Duration)
  | allModelsFailed (attempted : List String)
  | noEmbedding
  | transport
  | unreadable
deriving DecidableEq

namespace Failure

/-- The text of a failure. -/
def message : Failure → String
  | rateLimited => "Rate limit exceeded"
  | api status message => "API error (" ++ Decimal.natText status ++ "): " ++ message
  | timedOut after => "Request timed out after " ++ Duration.text after
  | invalidResponse message => "Invalid response: " ++ message
  | circuitOpen target retryAfter =>
    "Circuit open for " ++ target ++ ", retry after " ++ Duration.text retryAfter
  | allModelsFailed attempted => "All models failed: " ++ ", ".intercalate attempted
  | noEmbedding => "No embedding provider configured"
  | transport => "HTTP error"
  | unreadable => "JSON error"

/-- A failure as it is reported. -/
def fault (f : Failure) : Fault :=
  match f with
  | rateLimited => ⟨"RateLimited", f.message⟩
  | api .. => ⟨"Api", f.message⟩
  | timedOut _ => ⟨"Timeout", f.message⟩
  | invalidResponse _ => ⟨"InvalidResponse", f.message⟩
  | circuitOpen .. => ⟨"CircuitOpen", f.message⟩
  | allModelsFailed _ => ⟨"AllModelsFailed", f.message⟩
  | noEmbedding => ⟨"EmbeddingUnavailable", f.message⟩
  | transport => ⟨"Http", none⟩
  | unreadable => ⟨"Json", none⟩

/-- The kind of a failure. -/
def kind : Failure → FailureKind
  | rateLimited => .transient
  | api status _ => .ofStatus status
  | timedOut _ => .timeout
  | circuitOpen .. => .transient
  | _ => .unknown

/-- Whether a model turned a request away because there are too many. -/
def isRateLimited (f : Failure) : Bool := f == rateLimited

/-- Whether no request was made because a breaker is open. -/
def isCircuitOpen : Failure → Bool
  | circuitOpen .. => true
  | _ => false

end Failure
end Models
end CodeAtlas
