import CodeAtlas.Failure
import CodeAtlas.Settings.Codec
import CodeAtlas.Toml.Reader
import CodeAtlas.Width

/-!
Where settings come from: defaults, then a file, then the environment. A variable that does not read as its
setting's type changes nothing. `load` gives only settings without a flaw.
-/
namespace CodeAtlas.Settings

/-- The variables of the environment. -/
abbrev Environment := String → Option String

/-- A natural number below `2 ^ 64`: digits, with a plus sign in front if one likes. -/
def readNat? (s : String) : Option Nat :=
  let digits := match s.toList with
    | '+' :: rest => rest
    | cs => cs
  if digits.isEmpty || !digits.all Char.isDigit then none
  else
    let n := Json.digitsValue digits
    if n < Width.size 64 then some n else none

/-- A truth value, spelled in small letters. -/
def readBool? (s : String) : Option Bool :=
  if s = "true" then some true else if s = "false" then some false else none

/-- The entries of a list with commas, trimmed, blank ones left out; none when there is no other. -/
def readList? (s : String) : Option (List String) :=
  let entries := ((Text.splitWhere (· == ',') s).map Text.trim).filter (!·.isEmpty)
  if entries.isEmpty then none else some entries

/-- The variables that settings are taken from. -/
def variableNames : List String := [
  "REPOGRAPH_MODEL_CHAIN", "REPOGRAPH_EMBEDDING_MODEL", "REPOGRAPH_API_BASE", "REPOGRAPH_API_KEY",
  "OPENAI_API_KEY", "REPOGRAPH_LLM_MAX_CONCURRENCY", "REPOGRAPH_LLM_TIMEOUT_SECONDS",
  "REPOGRAPH_SYNTHESIZE_SECTIONS", "REPOGRAPH_ANALYSIS_MAX_CONCURRENCY",
  "REPOGRAPH_ANALYSIS_TIMEOUT_SECONDS", "REPOGRAPH_RAG_VECTOR_TOP_K"]

/-- Put the settings that the environment gives in place of those at hand. -/
def override (env : Environment) (s : Settings) : Settings :=
  { s with
    models := { s.models with
      chain := ((env "REPOGRAPH_MODEL_CHAIN").bind readList?).getD s.models.chain
      embedding := (env "REPOGRAPH_EMBEDDING_MODEL").getD s.models.embedding
      apiBase := (env "REPOGRAPH_API_BASE").getD s.models.apiBase
      apiKey := ((env "REPOGRAPH_API_KEY").or (env "OPENAI_API_KEY")).or s.models.apiKey
      maxConcurrency :=
        ((env "REPOGRAPH_LLM_MAX_CONCURRENCY").bind readNat?).getD s.models.maxConcurrency
      timeoutSeconds :=
        ((env "REPOGRAPH_LLM_TIMEOUT_SECONDS").bind readNat?).getD s.models.timeoutSeconds
      synthesizeSections :=
        ((env "REPOGRAPH_SYNTHESIZE_SECTIONS").bind readBool?).getD s.models.synthesizeSections }
    analysis := { s.analysis with
      maxConcurrency :=
        ((env "REPOGRAPH_ANALYSIS_MAX_CONCURRENCY").bind readNat?).getD s.analysis.maxConcurrency
      timeoutSeconds :=
        ((env "REPOGRAPH_ANALYSIS_TIMEOUT_SECONDS").bind readNat?).getD s.analysis.timeoutSeconds }
    retrieval := { s.retrieval with
      vectorTopK := ((env "REPOGRAPH_RAG_VECTOR_TOP_K").bind readNat?).getD s.retrieval.vectorTopK } }

/-- Why settings could not be had. -/
inductive LoadFailure where
  | unreadable
  | malformed
  | flawed (flaw : Flaw)

/-- The text of a flaw that keeps settings from being used. -/
def flawMessage (flaw : Flaw) : String := "Configuration error: " ++ flaw.message

/-- A failure as it is reported. -/
def LoadFailure.fault : LoadFailure → Fault
  | unreadable => ⟨"Io", none⟩
  | malformed => ⟨"ConfigParse", none⟩
  | flawed flaw => ⟨"Config", flawMessage flaw⟩

/-- The settings in the text of a file. -/
def ofText (text : String) : Except LoadFailure Settings :=
  match (Toml.read? text).bind decode? with
  | some s => .ok s
  | none => .error .malformed

/-- The settings of a file; none stands for a file that is not there. -/
def ofFile (text : Option String) : Except LoadFailure Settings :=
  match text with
  | some text => ofText text
  | none => .error .unreadable

/-- The settings of a file, or the defaults without one, with those of the environment in their place. -/
def load (file : Option String) (env : Environment) : Except LoadFailure Settings := do
  let base ← match file with
    | some text => ofText text
    | none => .ok {}
  let s := base.override env
  match s.flaw? with
  | some flaw => .error (.flawed flaw)
  | none => .ok s

end CodeAtlas.Settings
