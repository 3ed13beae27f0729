import CodeAtlas.Decimal.Notation
import CodeAtlas.Json.Record

/-!
Citations: lines of a file that a statement rests on.
-/
namespace CodeAtlas

/-- Lines of a file, first and last. -/
structure Citation where
  file : String
  startLine : Nat
  endLine : Nat
deriving DecidableEq

namespace Citation

/-- A citation as text: `a.py:3-7`. -/
def text (c : Citation) : String :=
  c.file ++ ":" ++ Decimal.natText c.startLine ++ "-" ++ Decimal.natText c.endLine

/-- Encode a citation. -/
def encode (c : Citation) : Json :=
  .obj [("file_path", .str c.file), ("line_start", .nat c.startLine), ("line_end", .nat c.endLine)]

/-- Decode a citation. -/
def decode? (j : Json) : Option Citation := do
  let r ← j.record? ["file_path", "line_start", "line_end"]
  return {
    file := ← r.need "file_path" Json.text?
    startLine := ← r.need "line_start" (Json.nat? 32)
    endLine := ← r.need "line_end" (Json.nat? 32) }

end Citation
end CodeAtlas
