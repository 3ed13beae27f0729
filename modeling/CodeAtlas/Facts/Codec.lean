import CodeAtlas.Facts.Basic

/-!
Facts as documents. Fields that have a default may be left out when reading; optional texts that are
absent are left out when writing.
-/
namespace CodeAtlas

/-- Decode a kind. -/
def EntityKind.decode? : Json → Option EntityKind := Json.oneOf? EntityKind.all EntityKind.text

/-- Encode a kind. -/
def EntityKind.encode (k : EntityKind) : Json := .str k.text

/-- Decode a line number. -/
def Json.line? : Json → Option Nat := Json.nat? 32

namespace Facts

/-- Encode a definition. -/
def Definition.encode (d : Definition) : Json :=
  .obj ([("name", .str d.name), ("kind", d.kind.encode), ("file_path", .str d.file),
      ("start_line", .nat d.startLine), ("end_line", .nat d.endLine), ("language", .str d.language)]
    ++ Json.fieldIfSome "signature" .str d.signature ++ Json.fieldIfSome "docstring" .str d.docstring)

/-- Decode a definition. -/
def Definition.decode? (j : Json) : Option Definition := do
  let r ← j.record? ["name", "kind", "file_path", "start_line", "end_line", "language", "signature",
    "docstring"]
  return {
    name := ← r.need "name" Json.text?
    kind := ← r.need "kind" EntityKind.decode?
    file := ← r.need "file_path" Json.text?
    startLine := ← r.need "start_line" Json.line?
    endLine := ← r.need "end_line" Json.line?
    language := ← r.orElse "language" Json.text? ""
    signature := ← r.maybeOrElse "signature" Json.text?
    docstring := ← r.maybeOrElse "docstring" Json.text? }

/-- Encode a call. -/
def Call.encode (c : Call) : Json :=
  .obj ([("caller_file", .str c.file), ("caller_line", .nat c.line), ("callee", .str c.callee)]
    ++ Json.fieldIfSome "receiver" .str c.receiver ++ [("confidence", c.level.encode)])

/-- Decode a call. -/
def Call.decode? (j : Json) : Option Call := do
  let r ← j.record? ["caller_file", "caller_line", "callee", "receiver", "confidence"]
  return {
    file := ← r.need "caller_file" Json.text?
    line := ← r.need "caller_line" Json.line?
    callee := ← r.need "callee" Json.text?
    receiver := ← r.maybeOrElse "receiver" Json.text?
    level := ← r.orElse "confidence" Level.decode? .medium }

/-- Encode an import. -/
def Import.encode (i : Import) : Json :=
  .obj [("source_file", .str i.file), ("target", .str i.target), ("line", .nat i.line)]

/-- Decode an import. -/
def Import.decode? (j : Json) : Option Import := do
  let r ← j.record? ["source_file", "target", "line"]
  return {
    file := ← r.need "source_file" Json.text?
    target := ← r.need "target" Json.text?
    line := ← r.orElse "line" Json.line? 0 }

/-- Encode a column. -/
def Attribute.encode (a : Attribute) : Json :=
  .obj [("name", .str a.name), ("data_type", .str a.dataType)]

/-- Decode a column. -/
def Attribute.decode? (j : Json) : Option Attribute := do
  let r ← j.record? ["name", "data_type"]
  return {
    name := ← r.need "name" Json.text?
    dataType := ← r.orElse "data_type" Json.text? "" }

/-- Encode a reference between schemas. -/
def Relation.encode (x : Relation) : Json :=
  .obj [("target_entity", .str x.target), ("relation_type", .str x.kind)]

/-- Decode a reference between schemas. -/
def Relation.decode? (j : Json) : Option Relation := do
  let r ← j.record? ["target_entity", "relation_type"]
  return {
    target := ← r.need "target_entity" Json.text?
    kind := ← r.need "relation_type" Json.text? }

/-- Encode a schema. -/
def Schema.encode (s : Schema) : Json :=
  .obj [("name", .str s.name), ("file_path", .str s.file), ("start_line", .nat s.startLine),
    ("source_type", .str s.source), ("attributes", Json.list Attribute.encode s.attributes),
    ("relationships", Json.list Relation.encode s.relations)]

/-- Decode a schema. -/
def Schema.decode? (j : Json) : Option Schema := do
  let r ← j.record? ["name", "file_path", "start_line", "source_type", "attributes",
    "relationships"]
  return {
    name := ← r.need "name" Json.text?
    file := ← r.need "file_path" Json.text?
    startLine := ← r.need "start_line" Json.line?
    source := ← r.need "source_type" Json.text?
    attributes := ← r.orElse "attributes" (Json.list? Attribute.decode?) []
    relations := ← r.orElse "relationships" (Json.list? Relation.decode?) [] }

/-- Encode an endpoint. -/
def Endpoint.encode (e : Endpoint) : Json :=
  .obj ([("method", .str e.method), ("path", .str e.path), ("handler_file", .str e.file),
      ("handler_line", .nat e.line)] ++ Json.fieldIfSome "handler_function" .str e.handler)

/-- Decode an endpoint. -/
def Endpoint.decode? (j : Json) : Option Endpoint := do
  let r ← j.record? ["method", "path", "handler_file", "handler_line", "handler_function"]
  return {
    method := ← r.need "method" Json.text?
    path := ← r.need "path" Json.text?
    file := ← r.need "handler_file" Json.text?
    line := ← r.need "handler_line" Json.line?
    handler := ← r.maybeOrElse "handler_function" Json.text? }

/-- Encode facts. -/
def encode (f : Facts) : Json :=
  .obj [("entities", Json.list Definition.encode f.definitions),
    ("calls", Json.list Call.encode f.calls), ("imports", Json.list Import.encode f.imports),
    ("schemas", Json.list Schema.encode f.schemas),
    ("endpoints", Json.list Endpoint.encode f.endpoints)]

/-- Decode facts; every list must be given. -/
def decode? (j : Json) : Option Facts := do
  let r ← j.record? ["entities", "calls", "imports", "schemas", "endpoints"]
  return {
    definitions := ← r.need "entities" (Json.list? Definition.decode?)
    calls := ← r.need "calls" (Json.list? Call.decode?)
    imports := ← r.need "imports" (Json.list? Import.decode?)
    schemas := ← r.need "schemas" (Json.list? Schema.decode?)
    endpoints := ← r.need "endpoints" (Json.list? Endpoint.decode?) }

end Facts
end CodeAtlas
