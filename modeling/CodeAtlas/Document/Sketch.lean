import CodeAtlas.Citation
import CodeAtlas.Graph.Build
import CodeAtlas.Text.Basic

/-!
Markdown in blocks: plain text, lists and tables. A table is written one line for each row, so what goes
into a cell must be written by `cell` or `code`, which keep it on one line and escape the bar.
-/
namespace CodeAtlas.Markdown

/-- A part of a Markdown text. -/
inductive Block where
  | text (content : String)
  | bullets (items : List String)
  | table (headers : List String) (rows : List (List String))

/-- A character as a cell holds it. -/
def cellChar : Char → List Char
  | '|' => ['\\', '|']
  | '\n' => [' ']
  | '\r' => [' ']
  | c => [c]

/-- A text as the content of a cell: on one line, bars escaped, without white space around it. -/
def cell (s : String) : String := String.ofList (Text.trimChars (s.toList.flatMap cellChar))

/-- A text as code; a dash when there is none. -/
def code (s : String) : String :=
  if Text.blank s then "-" else "`" ++ (cell s).map (fun c => if c == '\x60' then '\x27' else c) ++ "`"

/-- A row of a table, without the end of the line. -/
def row (cells : List String) : String := "| " ++ " | ".intercalate cells ++ " |"

/-- The line that separates the headers of a table from its rows. -/
def rule (columns : Nat) : String := "|" ++ "|".intercalate (List.replicate columns "---") ++ "|"

/-- Lines, each with its end. -/
def linesText (lines : List String) : String := String.join (lines.map (· ++ "\n"))

/-- The lines of a table. -/
def tableLines (headers : List String) (rows : List (List String)) : List String :=
  row headers :: rule headers.length :: rows.map row

/-- A block as text. -/
def Block.render : Block → String
  | text content => content
  | bullets items => linesText (items.map ("- " ++ ·))
  | table headers rows => linesText (tableLines headers rows)

/-- Blocks as one text. -/
def render (blocks : List Block) : String := String.join (blocks.map Block.render)

/-- The name of a node in a diagram: letters, digits and underscores. -/
def nodeName (s : String) : String :=
  s.map fun c => if c.isAlphanum || c == '_' then c else '_'

/-- A text cut to a number of characters, the last three of them dots. -/
def clip (s : String) (most : Nat) : String :=
  if s.length ≤ most then s else Text.take (most - 3) s ++ "..."

end CodeAtlas.Markdown

/-!
Sketches: sections as they are written from the atlas alone, with the places in the code that they draw
from. How sure a sketch is follows from the nodes that it draws from.
-/
namespace CodeAtlas
namespace Document

/-- What sections are written from. -/
structure Source where
  atlas : Atlas
  /-- Languages with their numbers of files, by name. -/
  languages : List (String × Nat) := []

/-- A section written from the atlas. -/
structure Sketch where
  blocks : List Markdown.Block
  citations : List Citation
  /-- The number of things that the sketch draws from. -/
  itemCount : Nat
  confidence : Float

/-- The text of a sketch. -/
def Sketch.markdown (s : Sketch) : String := Markdown.render s.blocks

/-- How sure a sketch is that draws from nothing. -/
def emptyConfidence : Float := 0.5

/-- The mean of scores. -/
def mean (scores : List Float) : Float :=
  if scores.isEmpty then emptyConfidence else scores.foldl (· + ·) 0.0 / scores.length.toUInt64.toFloat

/-- The lines of a node, in order and counted from one. -/
def citationOf (n : Graph.Node) : Citation where
  file := n.file
  startLine := max n.startLine 1
  endLine := max (max n.endLine n.startLine) 1

/-- A sketch that draws from nodes. -/
def Sketch.ofNodes (blocks : List Markdown.Block) (nodes : List Graph.Node) : Sketch where
  blocks := blocks
  citations := nodes.map citationOf
  itemCount := nodes.length
  confidence := mean (nodes.map (·.confidence.value))

/-- The nodes of the atlas by identifier. -/
def Source.nodes (s : Source) : List Graph.Node := s.atlas.graph.sortedNodes

/-- The nodes that can be called, by identifier. -/
def Source.callables (s : Source) : List Graph.Node := s.nodes.filter (·.kind.isCallable)

/-- The first of some words that the name of a node contains, in small or capital letters. -/
def wordIn? (words : List String) (n : Graph.Node) : Option String :=
  let name := Text.asciiLower n.name
  words.find? (Text.contains name ·)

/-- Where a node is. -/
def placeOf (n : Graph.Node) : String := Markdown.code (n.file ++ ":" ++ Decimal.natText n.startLine)

/-- A count in a text. -/
def count (n : Nat) : String := Decimal.natText n

/-- A table, or a remark when it would have no rows. -/
def tableOr (remark : String) (headers : List String) (rows : List (List String)) : Markdown.Block :=
  if rows.isEmpty then .text (remark ++ "\n") else .table headers rows

end Document
end CodeAtlas
