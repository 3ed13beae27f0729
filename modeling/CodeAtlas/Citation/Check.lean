import CodeAtlas.Citation
import CodeAtlas.Json.Record
import CodeAtlas.Repository.Ingest

/-!
Whether citations point at lines that exist.
-/
namespace CodeAtlas.Citation

/-- What is wrong with a citation. -/
inductive Flaw where
  | noFile
  | startsBeforeFirstLine
  | endsBeforeStart
  | endsAfterLastLine (lines : Nat)
deriving DecidableEq, Repr

/-- The first flaw of a citation; of a path that occurs twice the last length counts. -/
def flaw? (c : Citation) (lengths : Repository.LineCounts) : Option Flaw :=
  match lengths.reverse.lookup c.file with
  | none => some .noFile
  | some lines =>
    if c.startLine < 1 then some .startsBeforeFirstLine
    else if c.endLine < c.startLine then some .endsBeforeStart
    else if lines < c.endLine then some (.endsAfterLastLine lines)
    else none

/-- The name of the check that a flaw fails. -/
def Flaw.check : Flaw → String
  | noFile => "citation_file_exists"
  | startsBeforeFirstLine => "citation_line_start"
  | endsBeforeStart => "citation_line_range"
  | endsAfterLastLine _ => "citation_line_end"

/-- The text of a citation's flaw. -/
def Flaw.reason (c : Citation) (flaw : Flaw) : String :=
  let place := c.file ++ ":" ++ Decimal.natText c.startLine
  match flaw with
  | noFile => "File not found: " ++ c.file
  | startsBeforeFirstLine => "line_start < 1 in " ++ place
  | endsBeforeStart => "line_end < line_start in " ++ place
  | endsAfterLastLine lines =>
    "line_end (" ++ Decimal.natText c.endLine ++ ") exceeds file length (" ++ Decimal.natText lines ++
      ") in " ++ place

/-- A citation with its flaw, if it has one. -/
structure Check where
  citation : Citation
  flaw : Option Flaw

/-- Whether a citation has no flaw. -/
def Check.passed (c : Check) : Bool := c.flaw.isNone

/-- Check citations. -/
def checkAll (citations : List Citation) (lengths : Repository.LineCounts) : List Check :=
  citations.map fun c => ⟨c, c.flaw? lengths⟩

/-- Encode a check. -/
def Check.encode (c : Check) : Json :=
  .obj ([("citation", c.citation.encode),
    ("check_name", .str (c.flaw.elim "citation_valid" Flaw.check)), ("passed", .bool c.passed)] ++
    Json.fieldIfSome "reason" .str (c.flaw.map (Flaw.reason c.citation)))

end CodeAtlas.Citation
