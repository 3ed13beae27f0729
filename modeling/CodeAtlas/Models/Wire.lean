import CodeAtlas.Models.Guarded
import CodeAtlas.Width

/-!
Models behind an HTTP endpoint: how requests are written and answers are read. Whoever carries a request to
its endpoint and brings back the reply, if one can be had, is left open.
-/
namespace CodeAtlas.Models

/-- What follows the first slash of a model's name, where the provider's name stands before it. -/
def nameOf (target : String) : String :=
  match Text.splitFirst? ['/'] target.toList with
  | some (_, name) => String.ofList name
  | none => target

namespace Wire

/-- A request as it is sent. -/
structure Post where
  url : String
  authorization : String
  body : Json
  timeout : Option Duration

/-- A reply as it arrives. -/
structure Reply where
  status : Nat
  body : String

/-- Whoever carries requests; none stands for a reply that cannot be had. -/
abbrev Carrier (σ : Type) := Post → Activity σ (Option Reply)

/-- Where a provider is reached and with which key. -/
structure Endpoint where
  base : String
  key : String

/-- The address of one of an endpoint's services. -/
def Endpoint.url (e : Endpoint) (service : String) : String :=
  String.ofList (Text.dropEndWhile (· == '/') e.base.toList) ++ "/" ++ service

/-- A request to a service. -/
def Endpoint.post (e : Endpoint) (service : String) (body : Json) (timeout : Option Duration) : Post where
  url := e.url service
  authorization := "Bearer " ++ e.key
  body := body
  timeout := timeout

/-- Whether a status tells of success. -/
def Reply.isSuccess (r : Reply) : Bool := 200 ≤ r.status && r.status ≤ 299

/-- The document that a reply holds. -/
def documentOf (reply : Option Reply) : Except Failure Json :=
  match reply with
  | none => .error .transport
  | some r =>
    if r.isSuccess then
      match Json.read? r.body with
      | some j => .ok j
      | none => .error .transport
    else if r.status = 429 then .error .rateLimited
    else .error (.api r.status r.body)

/-- A field of a document, null when there is none. -/
def field (j : Json) (key : String) : Json := (j.get? key).getD .null

/-- The first item of a document, null when there is none. -/
def firstItem : Json → Json
  | .arr (j :: _) => j
  | _ => .null

/-- A count of tokens as a word of 32 bits, zero when there is none. -/
def tokenCount (j : Json) : Nat := Width.wrap 32 ((j.nat? 64).getD 0)

/-- The token counts of a reply. -/
def usageOf (j : Json) : TokenUsage where
  input := tokenCount (field j "prompt_tokens")
  output := tokenCount (field j "completion_tokens")
  cached := tokenCount (field (field j "prompt_tokens_details") "cached_tokens")

/-- A conversation as a provider takes it. -/
def completionBody (r : Request) : Json :=
  .obj ([("model", .str (nameOf r.model)), ("messages", Json.list Message.encode r.messages),
    ("temperature", .float 0.0), ("max_tokens", .nat r.maxOutputTokens)] ++
    if r.jsonMode then [("response_format", .obj [("type", .str "json_object")])] else [])

/-- The answer in a document. -/
def completionOf (model : String) (j : Json) : Except Failure Completion :=
  match (field (field (firstItem (field j "choices")) "message") "content").text? with
  | some content => .ok ⟨content, model, usageOf (field j "usage")⟩
  | none => .error (.invalidResponse "Missing content")

/-- Texts as a provider takes them. -/
def embeddingBody (model : String) (texts : List String) : Json :=
  .obj [("model", .str (nameOf model)), ("input", Json.strings texts)]

/-- The vector in an item of a document; what is not a number is passed over. -/
def vectorOf (item : Json) : Except Failure Vector :=
  match (field item "embedding").items? with
  | some numbers => .ok (numbers.filterMap fun n => n.float?.map Precision.narrow)
  | none => .error (.invalidResponse "Missing embedding")

/-- The vectors in a document. -/
def vectorsOf (j : Json) : Except Failure (List Vector) :=
  match (field j "data").items? with
  | some items => items.mapM vectorOf
  | none => .error (.invalidResponse "Missing data")

variable {σ : Type}

/-- Completions from an endpoint. -/
def completionService (carrier : Carrier σ) (e : Endpoint) : CompletionService σ := fun r =>
  (carrier (e.post "chat/completions" (completionBody r) (some r.timeout))).andThen fun reply =>
    .done (documentOf reply >>= completionOf r.model)

/-- Embeddings from an endpoint. -/
def embeddingService (carrier : Carrier σ) (e : Endpoint) : EmbeddingService σ := fun model texts =>
  (carrier (e.post "embeddings" (embeddingBody model texts) none)).andThen fun reply =>
    .done (documentOf reply >>= vectorsOf)

end Wire
end CodeAtlas.Models
