import CodeAtlas.Decimal.Notation
import CodeAtlas.Json.Basic

/-!
Writing a document, on one line (`compact`) or indented by two blanks a level (`pretty`). Numbers that
are not finite are written as null; control characters, quotes and backslashes are escaped.
-/
namespace CodeAtlas.Json

/-- The hexadecimal digit of a value below sixteen. -/
def hexDigit (n : Nat) : Char := Nat.digitChar n

/-- A character inside a string. -/
def escapeChar (c : Char) : List Char :=
  match c with
  | '"' => ['\\', '"']
  | '\\' => ['\\', '\\']
  | '\n' => ['\\', 'n']
  | '\r' => ['\\', 'r']
  | '\t' => ['\\', 't']
  | '\x08' => ['\\', 'b']
  | '\x0c' => ['\\', 'f']
  | c =>
    if c.toNat < 32 then ['\\', 'u', '0', '0', hexDigit (c.toNat / 16), hexDigit (c.toNat % 16)]
    else [c]

/-- A string in quotes. -/
def quote (s : String) : String :=
  s.foldl (fun out c => out ++ String.ofList (escapeChar c)) "\"" ++ "\""

/-- A value without parts. -/
def atomText : Json → String
  | .bool true => "true"
  | .bool false => "false"
  | .int n => (if n < 0 then "-" else "") ++ Decimal.natText n.natAbs
  | .float x => (Decimal.scientific? x).getD "null"
  | .str s => quote s
  | _ => "null"

mutual

/-- A document on one line, appended to `out`. -/
def writeCompact (out : String) : Json → String
  | .arr items => writeItems (out ++ "[") true items ++ "]"
  | .obj fields => writeFields (out ++ "\x7b") true fields ++ "\x7d"
  | j => out ++ atomText j

/-- Items with commas between them. -/
def writeItems (out : String) (isFirst : Bool) : List Json → String
  | [] => out
  | j :: rest => writeItems (writeCompact (if isFirst then out else out ++ ",") j) false rest

/-- Fields with commas between them. -/
def writeFields (out : String) (isFirst : Bool) : List (String × Json) → String
  | [] => out
  | (k, j) :: rest =>
    let out := if isFirst then out else out ++ ","
    writeFields (writeCompact (out ++ quote k ++ ":") j) false rest

end

/-- A document on one line without blanks. -/
def compact (j : Json) : String := writeCompact "" j

/-- The start of a line `level` levels deep. -/
def indent (level : Nat) : String := "\n" ++ String.ofList (List.replicate (2 * level) ' ')

mutual

/-- A document over several lines, appended to `out`. -/
def writePretty (level : Nat) (out : String) : Json → String
  | .arr [] => out ++ "[]"
  | .obj [] => out ++ "\x7b\x7d"
  | .arr items => prettyItems (level + 1) (out ++ "[") true items ++ indent level ++ "]"
  | .obj fields => prettyFields (level + 1) (out ++ "\x7b") true fields ++ indent level ++ "\x7d"
  | j => out ++ atomText j

/-- Items on lines of their own. -/
def prettyItems (level : Nat) (out : String) (isFirst : Bool) : List Json → String
  | [] => out
  | j :: rest =>
    let out := (if isFirst then out else out ++ ",") ++ indent level
    prettyItems level (writePretty level out j) false rest

/-- Fields on lines of their own. -/
def prettyFields (level : Nat) (out : String) (isFirst : Bool) : List (String × Json) → String
  | [] => out
  | (k, j) :: rest =>
    let out := (if isFirst then out else out ++ ",") ++ indent level ++ quote k ++ ": "
    prettyFields level (writePretty level out j) false rest

end

/-- A document over several lines, two blanks a level. -/
def pretty (j : Json) : String := writePretty 0 "" j

end CodeAtlas.Json
