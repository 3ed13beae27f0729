import CodeAtlas.Decimal.Notation
import CodeAtlas.Facts.Codec
import CodeAtlas.Hash.Blake3
import CodeAtlas.Text.Basic
import CodeAtlas.Text.Lower

/-!
Languages are known by tags; a file's tag is read off what follows the last dot of its path.
-/
namespace CodeAtlas.Language

/-- Tags and the file endings that stand for them. -/
def endings : List (String × List String) := [
  ("python", ["py", "pyi"]), ("javascript", ["js", "jsx", "mjs", "cjs"]), ("typescript", ["ts", "tsx"]),
  ("java", ["java"]), ("go", ["go"]), ("rust", ["rs"]), ("c", ["c", "h"]),
  ("cpp", ["cc", "cpp", "cxx", "hpp", "hh"]), ("csharp", ["cs"]), ("ruby", ["rb"]), ("php", ["php"]),
  ("kotlin", ["kt", "kts"]), ("swift", ["swift"]), ("scala", ["scala"]), ("sql", ["sql"]),
  ("markdown", ["md", "markdown"]), ("yaml", ["yaml", "yml"]), ("toml", ["toml"]), ("json", ["json"]),
  ("shell", ["sh", "bash"])]

/-- The tags of the languages that the model is asked about. -/
def analyzable : List String := [
  "python", "javascript", "typescript", "java", "go", "rust", "c", "cpp", "csharp", "ruby", "php",
  "kotlin", "swift", "scala"]

/-- Whether the model is asked about chunks of this language. -/
def isAnalyzable (language : String) : Bool := analyzable.contains language

/-- What follows the last dot of a path. -/
def ending? (path : String) : Option String :=
  let reversed := path.toList.reverse
  let tail := reversed.takeWhile (· ≠ '.')
  if tail.length < reversed.length then some (String.ofList tail.reverse) else none

/-- The tag of a file. -/
def ofPath? (path : String) : Option String := do
  let ending ← ending? path
  let (tag, _) ← endings.find? fun entry => entry.2.contains (Text.asciiLower ending)
  return tag

end CodeAtlas.Language

/-!
Chunks: stretches of source text with their lines. A chunk's fingerprint is the hash of its path, its two
line numbers and its content, the first three each followed by a zero byte; it is the key under which
findings are stored.
-/
namespace CodeAtlas

/-- A stretch of a file, with its lines counted from one and both included. -/
structure Chunk where
  file : String
  language : String
  startLine : Nat
  endLine : Nat
  content : String
  symbol : Option String := none
deriving DecidableEq

namespace Chunk

/-- The bytes that a fingerprint is computed from. -/
def fingerprintBytes (file : String) (startLine endLine : Nat) (content : String) : List UInt8 :=
  file.toUTF8.toList ++ 0 :: (Decimal.natText startLine).toUTF8.toList ++
    0 :: (Decimal.natText endLine).toUTF8.toList ++ 0 :: content.toUTF8.toList

/-- The key of a chunk's findings. -/
def fingerprint (c : Chunk) : String :=
  Hash.hashBytes (fingerprintBytes c.file c.startLine c.endLine c.content)

/-- The number of lines; an inverted range counts as one line. -/
def lineCount (c : Chunk) : Nat := c.endLine - c.startLine + 1

/-- Whether the model is asked about this chunk. -/
def isAnalyzable (c : Chunk) : Bool := Language.isAnalyzable c.language

/-- Encode a chunk. -/
def encode (c : Chunk) : Json :=
  .obj ([("file_path", .str c.file), ("language", .str c.language), ("start_line", .nat c.startLine),
      ("end_line", .nat c.endLine), ("content", .str c.content)]
    ++ Json.fieldIfSome "symbol_name" .str c.symbol)

/-- Decode a chunk. -/
def decode? (j : Json) : Option Chunk := do
  let r ← j.record? ["file_path", "language", "start_line", "end_line", "content", "symbol_name"]
  return {
    file := ← r.need "file_path" Json.text?
    language := ← r.need "language" Json.text?
    startLine := ← r.need "start_line" Json.line?
    endLine := ← r.need "end_line" Json.line?
    content := ← r.need "content" Json.text?
    symbol := ← r.maybeOrElse "symbol_name" Json.text? }

/-!
Cutting a file into chunks: windows of a fixed number of lines, one after the other. Every line of the file
is in exactly one window, and only the last window may be shorter.
-/

/-- Windows of `size + 1` lines. -/
def windowsOf (size : Nat) (lines : List α) : List (List α) :=
  match lines with
  | [] => []
  | l :: rest => (l :: rest.take size) :: windowsOf size (rest.drop size)
termination_by lines.length
decreasing_by simp only [List.length_cons, List.length_drop]; omega

/-- Chunks of windows that follow each other, the first starting at a given line. -/
def ofWindows (file language : String) (start : Nat) : List (List String) → List Chunk
  | [] => []
  | window :: rest =>
    { file := file
      language := language
      startLine := start
      endLine := start + window.length - 1
      content := "\n".intercalate window } :: ofWindows file language (start + window.length) rest

/-- The chunks of a file, of at most `maxLines` lines each; zero counts as one. -/
def ofText (file language content : String) (maxLines : Nat) : List Chunk :=
  ofWindows file language 1 (windowsOf (maxLines - 1) (Text.lines content))

end Chunk
end CodeAtlas
