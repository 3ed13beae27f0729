import CodeAtlas.Chunk.Basic
import CodeAtlas.Scan.Syntax
import CodeAtlas.Text.Basic

/-!
Scanning a chunk line by line. What a line holds depends on that line alone (`LineReader`); a definition
reaches down to the line before the next one that is indented no deeper, or to the end of the chunk, and
the handler of a route is the first callable defined on its line or below.
-/
namespace CodeAtlas.Scan

/-- What the scanner asks about single lines. -/
structure LineReader where
  isSkipped : String → Bool
  route? : String → Option (String × String)
  importTarget? : String → Option String
  definition? : String → Option (String × EntityKind)
  calls : String → List (String × Option String)

/-- Whether a line starts, white space apart, with one of the comment marks. -/
def isComment (marks : List String) (line : String) : Bool :=
  let text := Text.trimStart line
  marks.any (Text.startsWith text ·)

/-- The reader of a language. -/
def Grammar.reader (g : Grammar) : LineReader where
  isSkipped := fun line => Text.blank line || isComment g.comments line
  route? := fun line => (routePattern.find? line.toList).map fun f =>
    (Text.asciiUpper (f.part "method"), f.part "path")
  importTarget? := fun line => g.imports.findSome? fun p =>
    (p.find? line.toList).map (·.part "target")
  definition? := fun line => g.definitions.findSome? fun (p, kind) =>
    (p.find? line.toList).bind fun f =>
      let name := f.part "name"
      if reserved.contains name then none else some (name, kind)
  calls := fun line => (callPattern.findAll line.toList).filterMap fun f =>
    let callee := f.part "callee"
    if reserved.contains callee then none else some (callee, f.part? "receiver")

/-- What one line holds beside routes. -/
inductive LineContent where
  | skipped
  | imported (target : String)
  | definition (name : String) (kind : EntityKind)
  | calls (found : List (String × Option String))

/-- A line with its number and what it holds. -/
structure LineReading where
  number : Nat
  text : String
  route : Option (String × String)
  content : LineContent

/-- Read one line: a comment or a blank line holds nothing, and of import, definition and calls the first
kind that is found is all the line holds. -/
def LineReader.read (r : LineReader) (number : Nat) (line : String) : LineReading :=
  if r.isSkipped line then ⟨number, line, none, .skipped⟩
  else
    let content := match r.importTarget? line with
      | some target => LineContent.imported target
      | none => match r.definition? line with
        | some (name, kind) => .definition name kind
        | none => .calls (r.calls line)
    ⟨number, line, r.route? line, content⟩

/-- A definition before its end is known. -/
structure Opening where
  name : String
  kind : EntityKind
  line : Nat
  indent : Nat
  signature : String
  docstring : Option String

/-- How deep a line is indented, in bytes. -/
def indentOf (line : String) : Nat := line.utf8ByteSize - (Text.trimStart line).utf8ByteSize

/-- How many characters of a signature are kept. -/
def signatureLength : Nat := 200

/-- A definition line without its margins and the brackets that open a body. -/
def signatureOf (line : String) : String :=
  Text.take signatureLength
    (Text.trimEnd (String.ofList (Text.dropEndWhile (· == '\x7b') (Text.trimChars line.toList))))

/-- Drop a mark from the start of a text as often as it stands there; `fuel` bounds how often. -/
def dropMarks (mark : List Char) : Nat → List Char → List Char
  | 0, cs => cs
  | fuel + 1, cs =>
    match Text.dropStart? mark cs with
    | some rest => dropMarks mark fuel rest
    | none => cs

/-- Drop a mark from the end of a text as often as it stands there. -/
def dropEndMarks (mark cs : List Char) : List Char :=
  (dropMarks mark.reverse cs.length cs.reverse).reverse

/-- A text unless it is empty. -/
def nonEmpty (s : String) : Option String := if s.isEmpty then none else some s

/-- The docstring that opens on the line after a definition. -/
def docstringBelow (next : String) : Option String :=
  let text := Text.trimChars next.toList
  let marks := ["\"\"\"".toList, "\x27\x27\x27".toList]
  (marks.find? fun mark => (Text.dropStart? mark text).isSome).bind fun mark =>
    let inner := dropEndMarks mark (dropMarks mark text.length text)
    nonEmpty (String.ofList (Text.trimChars inner))

/-- The marks that a docstring above a definition may start with, tried in order. -/
def docMarks : List String := ["///", "//", "#", "*", "/**"]

/-- The docstring on the line before a definition. -/
def docstringAbove (previous : String) : Option String :=
  let text := Text.trimChars previous.toList
  (docMarks.findSome? fun mark => Text.dropStart? mark.toList text).bind fun rest =>
    nonEmpty (Text.trim (String.ofList (dropEndMarks "*/".toList (Text.trimChars rest))))

/-- The docstring of a definition, from the line below it in Python and from the line above it else. -/
def docstringFor (language : String) (previous next : Option String) : Option String :=
  if language = "python" then next.bind docstringBelow else previous.bind docstringAbove

/-- The kind of a definition: an indented function of Python is a method. -/
def kindFor (language : String) (indent : Nat) (kind : EntityKind) : EntityKind :=
  if kind = .function ∧ 0 < indent ∧ language = "python" then .method else kind

/-- The definitions that open on some lines; `previous` is the line before them. -/
def openings (language : String) (previous : Option String) : List LineReading → List Opening
  | [] => []
  | r :: rest =>
    let others := openings language (some r.text) rest
    match r.content with
    | .definition name kind =>
      let indent := indentOf r.text
      { name := name
        kind := kindFor language indent kind
        line := r.number
        indent := indent
        signature := signatureOf r.text
        docstring := docstringFor language previous (rest.head?.map (·.text)) } :: others
    | _ => others

/-- The last line of a definition, from the ones that open after it. -/
def Opening.endLine (o : Opening) (later : List Opening) (chunkEnd : Nat) : Nat :=
  match later.find? (·.indent ≤ o.indent) with
  | some next => max (next.line - 1) o.line
  | none => chunkEnd

/-- Close every definition. -/
def close (file language : String) (chunkEnd : Nat) : List Opening → List Facts.Definition
  | [] => []
  | o :: later =>
    { name := o.name
      kind := o.kind
      file := file
      startLine := o.line
      endLine := o.endLine later chunkEnd
      language := language
      signature := some o.signature
      docstring := o.docstring } :: close file language chunkEnd later

/-- The endpoint of a route. -/
def endpointOf (file : String) (openings : List Opening) (line : Nat) (method path : String) :
    Facts.Endpoint where
  method := if method = "ROUTE" then "GET" else method
  path := path
  file := file
  line := line
  handler := (openings.find? fun o => line ≤ o.line && o.kind.isCallable).map (·.name)

/-- The imports on a line. -/
def LineReading.imports (file : String) (r : LineReading) : List Facts.Import :=
  match r.content with
  | .imported target => [⟨file, target, r.number⟩]
  | _ => []

/-- The calls on a line. -/
def LineReading.calls (file : String) (r : LineReading) : List Facts.Call :=
  match r.content with
  | .calls found => found.map fun (callee, receiver) => ⟨file, r.number, callee, receiver, .medium⟩
  | _ => []

/-- The lines of a chunk with their numbers. -/
def numberedLines (c : Chunk) : List (Nat × String) :=
  (Text.lines c.content).zipIdx.map fun (line, i) => (c.startLine + i, line)

/-- The facts of a chunk, read with a given reader. -/
def scanWith (reader : LineReader) (c : Chunk) : Facts :=
  let readings := (numberedLines c).map fun (n, line) => reader.read n line
  let opened := openings c.language none readings
  { definitions := close c.file c.language c.endLine opened
    calls := readings.flatMap (·.calls c.file)
    imports := readings.flatMap (·.imports c.file)
    endpoints := readings.filterMap fun r => r.route.map fun (method, path) =>
      endpointOf c.file opened r.number method path }

end CodeAtlas.Scan
