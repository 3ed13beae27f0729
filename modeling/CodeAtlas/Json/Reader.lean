import CodeAtlas.Json.Token

/-!
Reading a document from text. Tokens drive a stack of open arrays and objects; `Json.parse?` accepts
exactly one value with nothing but white space around it, nested less than 128 deep. Repeated keys are
kept, in the order they were written.
-/
namespace CodeAtlas.Json

/-- An array or object whose end has not been read; its parts so far, last one first. -/
inductive Frame where
  | items (seen : List Json)
  | fields (seen : List (String × Json))
  | value (seen : List (String × Json)) (key : String)

/-- What may come next. -/
inductive Expect where
  | value
  | itemOrClose
  | keyOrClose
  | key
  | colon
  | separator
  | nothing (result : Json)

/-- A document that is being read. -/
structure Reading where
  stack : List Frame
  expect : Expect

/-- Hand a finished value to the innermost open part. -/
def Reading.finish (j : Json) : List Frame → Option Reading
  | [] => some ⟨[], .nothing j⟩
  | .items seen :: rest => some ⟨.items (j :: seen) :: rest, .separator⟩
  | .value seen key :: rest => some ⟨.fields ((key, j) :: seen) :: rest, .separator⟩
  | .fields _ :: _ => none

/-- The greatest number of arrays and objects that may be open at once. -/
def maxDepth : Nat := 127

/-- Open an array or an object. -/
def Reading.enter (frame : Frame) (expect : Expect) (stack : List Frame) : Option Reading :=
  if stack.length < maxDepth then some ⟨frame :: stack, expect⟩ else none

/-- Take one token. -/
def Reading.step (r : Reading) (t : Token) : Option Reading :=
  match r.expect, t, r.stack with
  | .value, .openArray, stack => enter (.items []) .itemOrClose stack
  | .value, .openObject, stack => enter (.fields []) .keyOrClose stack
  | .value, .atom j, stack => finish j stack
  | .itemOrClose, .openArray, stack => enter (.items []) .itemOrClose stack
  | .itemOrClose, .openObject, stack => enter (.fields []) .keyOrClose stack
  | .itemOrClose, .atom j, stack => finish j stack
  | .itemOrClose, .closeArray, .items _ :: rest => finish (.arr []) rest
  | .keyOrClose, .atom (.str k), .fields seen :: rest => some ⟨.value seen k :: rest, .colon⟩
  | .keyOrClose, .closeObject, .fields _ :: rest => finish (.obj []) rest
  | .key, .atom (.str k), .fields seen :: rest => some ⟨.value seen k :: rest, .colon⟩
  | .colon, .colon, stack => some ⟨stack, .value⟩
  | .separator, .comma, .items seen :: rest => some ⟨.items seen :: rest, .value⟩
  | .separator, .comma, .fields seen :: rest => some ⟨.fields seen :: rest, .key⟩
  | .separator, .closeArray, .items seen :: rest => finish (.arr seen.reverse) rest
  | .separator, .closeObject, .fields seen :: rest => finish (.obj seen.reverse) rest
  | _, _, _ => none

/-- The document a text holds, fields as written; none when the text is not exactly one document. -/
def parse? (text : String) : Option Json := do
  let tokens ← tokens? [] text.toList
  let final ← tokens.foldlM Reading.step ⟨[], .value⟩
  match final.expect with
  | .nothing j => some j
  | _ => none

/-- The document a text holds, with the fields of objects sorted by key. -/
def read? (text : String) : Option Json := (parse? text).map canonical

end CodeAtlas.Json
