import CodeAtlas.Scan.Source

/-!
Scanning SQL for tables. A table opens at its declaration; columns and references on the lines after it
are its own, until a line starts with a closing bracket or another declaration opens.
-/
namespace CodeAtlas.Scan
open Pattern

/-- A letter of either case; the long s counts as an s and the Kelvin sign as a k. -/
def sameLetter (small c : Char) : Bool :=
  c == small || c == small.toUpper || (small == 's' && c.toNat == 0x17f) ||
    (small == 'k' && c.toNat == 0x212a)

/-- A word in letters of any case. -/
def anyCase (w : String) : Pattern := w.toList.foldr (fun c rest => one (sameLetter c) ++ rest) nothing

/-- A mark that opens a quoted name. -/
def openMark : Pattern := opt (among "\x60\"[")

/-- The declaration of a table. -/
def tablePattern : Pattern :=
  margin ++ anyCase "create" ++ gap ++ anyCase "table" ++ gap ++
    opt (anyCase "if" ++ gap ++ anyCase "not" ++ gap ++ anyCase "exists" ++ gap) ++ openMark ++
    named "name" (plus wordChar)

/-- A column: a name and a type, which may have a bracketed size. -/
def columnPattern : Pattern :=
  margin ++ openMark ++ named "name" (plus wordChar) ++ opt (among "\x60\"]") ++ gap ++
    named "type" (plus (one Char.isAlpha) ++
      opt (blanks ++ lit "(" ++ star (except ")") ++ lit ")"))

/-- A reference to another table. -/
def referencePattern : Pattern :=
  wordEdge ++ anyCase "references" ++ gap ++ openMark ++ named "target" (plus wordChar)

/-- Words that open a line of a declaration without naming a column. -/
def nonColumns : List String :=
  ["constraint", "primary", "foreign", "unique", "key", "index", "check"]

/-- What a line of SQL holds. -/
structure SqlLine where
  table : Option String
  reference : Option String
  column : Option (String × String)
  closes : Bool

/-- Read a line of SQL. -/
def readSql (line : String) : SqlLine :=
  let cs := line.toList
  { table := (tablePattern.find? cs).map (·.part "name")
    reference := (referencePattern.find? cs).map (·.part "target")
    column := (columnPattern.find? cs).bind fun f =>
      if nonColumns.contains (Text.asciiLower (f.part "name")) then none
      else some (f.part "name", f.part "type")
    closes := Text.startsWith (Text.trimStart line) ")" }

/-- Tables closed so far, and the one that is open. -/
structure SqlState where
  done : List Facts.Schema := []
  current : Option Facts.Schema := none

/-- All tables of a state, the open one last. -/
def SqlState.schemas (s : SqlState) : List Facts.Schema := s.done ++ s.current.toList

/-- A table with what one more line says about it. -/
def SqlLine.extend (l : SqlLine) (table : Facts.Schema) : Facts.Schema :=
  { table with
    relations := table.relations ++ l.reference.toList.map fun target => ⟨target, "foreign_key"⟩
    attributes := table.attributes ++ l.column.toList.map fun (name, type) => ⟨name, type⟩ }

/-- Take one more line, known by its number. -/
def SqlState.step (file : String) (s : SqlState) (number : Nat) (line : String) : SqlState :=
  let l := readSql line
  match l.table, s.current with
  | some name, _ =>
    { done := s.schemas
      current := some { name := name, file := file, startLine := number, source := "sql" } }
  | none, none => s
  | none, some table =>
    let table := l.extend table
    if l.closes then ⟨s.done ++ [table], none⟩ else ⟨s.done, some table⟩

/-- The tables of a chunk of SQL. -/
def scanSql (c : Chunk) : Facts :=
  let final := (numberedLines c).foldl (fun s (n, line) => s.step c.file n line) ({} : SqlState)
  { schemas := final.schemas }

/-- The facts of a chunk; a language that is not known has none. -/
def scan (c : Chunk) : Facts :=
  if c.language = "sql" then scanSql c
  else match grammars.lookup c.language with
    | some g => scanWith g.reader c
    | none => {}

end CodeAtlas.Scan
