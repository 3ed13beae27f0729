import CodeAtlas.Proofs.Chunk.Windows
import CodeAtlas.Proofs.Decimal.Digits
import CodeAtlas.Settings.Load

/-! Settings from the environment. Each of ten settings follows variables of its own: it is what they say, if they say
anything of its type, and stays as it was otherwise. Nothing else changes, so that the environment makes no difference
the second time, and what is loaded has no flaw. -/
namespace CodeAtlas

namespace Text

/-- The pieces of a text are the texts without the separator that it is joined of. -/
theorem splitWhere_eq_iff {c : Char} {s : String} {pieces : List String} :
    splitWhere (· == c) s = pieces ↔
      pieces ≠ [] ∧ (∀ piece ∈ pieces, c ∉ piece.toList) ∧ s = (String.singleton c).intercalate pieces := by
  have hsep : (String.singleton c).toList = [c] := by simp
  constructor
  · rintro rfl
    refine ⟨by simp [splitWhere, splitChars_ne_nil], ?_, ?_⟩
    · intro piece hpiece hc
      obtain ⟨cs, hcs, rfl⟩ := List.mem_map.mp hpiece
      rw [String.toList_ofList] at hc
      simpa using (of_mem_splitChars hcs c hc).2
    · apply String.toList_inj.mp
      rw [String.toList_intercalate, hsep, splitWhere, List.map_map]
      simp [Function.comp_def, intercalate_splitChars]
  · rintro ⟨hne, hnone, rfl⟩
    have hpieces : ∀ piece ∈ pieces.map String.toList, c ∉ piece := by simpa using hnone
    rw [splitWhere, String.toList_intercalate, hsep, splitChars_intercalate (by simpa using hne) hpieces]
    simp [Function.comp_def]

end Text

namespace Settings

/-- Whether a setting is what a text means, if there is a text that means anything, and is what it was otherwise. -/
inductive Follows {α : Type} (Means : String → α → Prop) (text : Option String) (old : α) : α → Prop
  | taken {t : String} {v : α} (present : text = some t) (means : Means t v) : Follows Means text old v
  | kept (silent : ∀ t, text = some t → ∀ v, ¬ Means t v) : Follows Means text old old

/-- Whether a text is a list with commas: of its pieces those that are not blank are the entries, each without white space
around it, and there is at least one. -/
def IsList (t : String) (entries : List String) : Prop :=
  entries ≠ [] ∧ ∃ pieces : List String, pieces ≠ [] ∧ (∀ piece ∈ pieces, ',' ∉ piece.toList) ∧ t = ",".intercalate pieces ∧
    entries = (pieces.map Text.trim).filter (· ≠ "")

/-- Whether characters are the digits of a number below `2 ^ 64`. -/
def IsDecimal (digits : List Char) (n : ℕ) : Prop :=
  digits ≠ [] ∧ (∀ c ∈ digits, c.isDigit = true) ∧ n = Nat.ofDigitChars 10 digits 0 ∧ n < Width.size 64

/-- Whether a text is a number: its digits, with a plus sign in front if one likes. -/
def IsNumeral (t : String) (n : ℕ) : Prop := IsDecimal t.toList n ∨ ∃ digits, t.toList = '+' :: digits ∧ IsDecimal digits n

/-- Whether a text is a truth value. -/
def IsTruth (t : String) (b : Bool) : Prop := t = if b then "true" else "false"

section Readers

variable {α : Type} {Means : String → α → Prop} {read : String → Option α} {t : String}

/-- A setting that is read wherever a text says anything follows the text. -/
theorem follows_getD (hread : ∀ t v, read t = some v ↔ Means t v) (text : Option String) (old : α) :
    Follows Means text old ((text.bind read).getD old) := by
  cases text with
  | none => exact .kept fun t ht => nomatch ht
  | some t =>
    cases hv : read t with
    | none =>
      rw [Option.bind_some, hv]
      apply Follows.kept
      intro t' ht' v hmeans
      cases ht'
      exact absurd ((hread t v).mpr hmeans) (by simp [hv])
    | some v =>
      rw [Option.bind_some, hv]
      exact .taken rfl ((hread t v).mp hv)

/-- A setting that any text is good for follows the text. -/
theorem follows_of_eq {f : String → α} {text : Option String} {old new : α} (hnone : text = none → new = old)
    (hsome : ∀ t, text = some t → new = f t) : Follows (f · = ·) text old new := by
  cases text with
  | none =>
    rw [hnone rfl]
    exact .kept fun t ht => nomatch ht
  | some t => exact .taken rfl (hsome t rfl).symm

theorem readList?_eq_some_iff {entries : List String} : readList? t = some entries ↔ IsList t entries := by
  have hcut {pieces : List String} : Text.splitWhere (· == ',') t = pieces ↔
      pieces ≠ [] ∧ (∀ piece ∈ pieces, ',' ∉ piece.toList) ∧ t = ",".intercalate pieces := Text.splitWhere_eq_iff
  have hread : readList? t = some entries ↔
      entries ≠ [] ∧ entries = ((Text.splitWhere (· == ',') t).map Text.trim).filter (· ≠ "") := by
    have hblank (s : String) : (!s.isEmpty) = decide (s ≠ "") := by
      rw [Bool.eq_iff_iff]
      simp
    simp only [readList?, hblank, List.isEmpty_iff]
    split
    · next hnone =>
      constructor
      · intro h
        cases h
      · rintro ⟨hne, rfl⟩
        exact absurd hnone hne
    · next hsome =>
      rw [Option.some_inj, eq_comm]
      exact ⟨fun h => ⟨h ▸ hsome, h⟩, fun h => h.2⟩
  rw [hread, IsList]
  refine and_congr_right fun _ => ⟨fun h => ?_, ?_⟩
  · obtain ⟨hne, hnone, ht⟩ := hcut.mp rfl
    exact ⟨_, hne, hnone, ht, h⟩
  · rintro ⟨pieces, hne, hnone, ht, h⟩
    rw [hcut.mpr ⟨hne, hnone, ht⟩, h]

theorem not_isDecimal_plus (cs : List Char) (n : ℕ) : ¬ IsDecimal ('+' :: cs) n := fun h =>
  absurd (h.2.1 '+' (.head _)) (by decide)

theorem ite_eq_some_iff_isDecimal {digits : List Char} {n : ℕ} :
    (if (digits.isEmpty || !digits.all Char.isDigit) = true then none
      else if Json.digitsValue digits < Width.size 64 then some (Json.digitsValue digits) else none) = some n ↔
        IsDecimal digits n := by
  have hread : (digits.isEmpty || !digits.all Char.isDigit) = true ↔ ¬ (digits ≠ [] ∧ ∀ c ∈ digits, c.isDigit = true) := by
    rw [not_and_or, not_ne_iff]
    simp
  rw [Json.digitsValue_eq, IsDecimal, ← and_assoc]
  by_cases hdigits : digits ≠ [] ∧ ∀ c ∈ digits, c.isDigit = true
  · rw [if_neg (mt hread.mp (not_not_intro hdigits))]
    by_cases hlt : Nat.ofDigitChars 10 digits 0 < Width.size 64
    · rw [if_pos hlt, Option.some_inj, eq_comm]
      exact ⟨fun h => ⟨hdigits, h, h ▸ hlt⟩, fun h => h.2.1⟩
    · rw [if_neg hlt]
      refine iff_of_false (fun h => nomatch h) ?_
      rintro ⟨-, rfl, hn⟩
      exact hlt hn
  · rw [if_pos (hread.mpr hdigits)]
    exact iff_of_false (fun h => nomatch h) fun h => hdigits h.1

theorem readNat?_eq_some_iff {n : ℕ} : readNat? t = some n ↔ IsNumeral t n := by
  unfold readNat? IsNumeral
  dsimp only
  split
  · next rest hplus =>
    rw [ite_eq_some_iff_isDecimal]
    simp [hplus, not_isDecimal_plus]
  · next hother =>
    rw [ite_eq_some_iff_isDecimal, or_iff_left]
    rintro ⟨digits, hdigits, -⟩
    exact hother digits hdigits

theorem readBool?_eq_some_iff {b : Bool} : readBool? t = some b ↔ IsTruth t b := by
  by_cases htrue : t = "true" <;> by_cases hfalse : t = "false" <;> cases b <;> simp_all [readBool?, IsTruth]

end Readers

/-- Whether settings are those at hand with the environment in their place: the ten settings that have variables follow
them, the key to the models the first one of two, and all others are as they were. -/
structure Layers (env : Environment) (s t : Settings) : Prop where
  chain : Follows IsList (env "REPOGRAPH_MODEL_CHAIN") s.models.chain t.models.chain
  embedding : Follows (· = ·) (env "REPOGRAPH_EMBEDDING_MODEL") s.models.embedding t.models.embedding
  apiBase : Follows (· = ·) (env "REPOGRAPH_API_BASE") s.models.apiBase t.models.apiBase
  apiKey : Follows (some · = ·) ((env "REPOGRAPH_API_KEY").or (env "OPENAI_API_KEY")) s.models.apiKey t.models.apiKey
  modelConcurrency :
    Follows IsNumeral (env "REPOGRAPH_LLM_MAX_CONCURRENCY") s.models.maxConcurrency t.models.maxConcurrency
  modelTimeout : Follows IsNumeral (env "REPOGRAPH_LLM_TIMEOUT_SECONDS") s.models.timeoutSeconds t.models.timeoutSeconds
  synthesizeSections :
    Follows IsTruth (env "REPOGRAPH_SYNTHESIZE_SECTIONS") s.models.synthesizeSections t.models.synthesizeSections
  analysisConcurrency :
    Follows IsNumeral (env "REPOGRAPH_ANALYSIS_MAX_CONCURRENCY") s.analysis.maxConcurrency t.analysis.maxConcurrency
  analysisTimeout :
    Follows IsNumeral (env "REPOGRAPH_ANALYSIS_TIMEOUT_SECONDS") s.analysis.timeoutSeconds t.analysis.timeoutSeconds
  vectorTopK : Follows IsNumeral (env "REPOGRAPH_RAG_VECTOR_TOP_K") s.retrieval.vectorTopK t.retrieval.vectorTopK
  others : t = { s with
    models := { s.models with
      chain := t.models.chain
      embedding := t.models.embedding
      apiBase := t.models.apiBase
      apiKey := t.models.apiKey
      maxConcurrency := t.models.maxConcurrency
      timeoutSeconds := t.models.timeoutSeconds
      synthesizeSections := t.models.synthesizeSections }
    analysis := { s.analysis with
      maxConcurrency := t.analysis.maxConcurrency
      timeoutSeconds := t.analysis.timeoutSeconds }
    retrieval := { s.retrieval with vectorTopK := t.retrieval.vectorTopK } }

theorem layers_override (env : Environment) (s : Settings) : Layers env s (override env s) where
  chain := follows_getD (fun _ _ => readList?_eq_some_iff) _ _
  embedding := follows_of_eq (fun h => by simp [override, h]) fun t h => by simp [override, h]
  apiBase := follows_of_eq (fun h => by simp [override, h]) fun t h => by simp [override, h]
  apiKey := follows_of_eq (fun h => by simp [override, h]) fun t h => by simp [override, h]
  modelConcurrency := follows_getD (fun _ _ => readNat?_eq_some_iff) _ _
  modelTimeout := follows_getD (fun _ _ => readNat?_eq_some_iff) _ _
  synthesizeSections := follows_getD (fun _ _ => readBool?_eq_some_iff) _ _
  analysisConcurrency := follows_getD (fun _ _ => readNat?_eq_some_iff) _ _
  analysisTimeout := follows_getD (fun _ _ => readNat?_eq_some_iff) _ _
  vectorTopK := follows_getD (fun _ _ => readNat?_eq_some_iff) _ _
  others := rfl

theorem override_override (env : Environment) (s : Settings) : override env (override env s) = override env s := by
  have hgetD {α : Type} (o : Option α) (d : α) : o.getD (o.getD d) = o.getD d := by cases o <;> rfl
  have hor (o d : Option String) : o.or (o.or d) = o.or d := by cases o <;> rfl
  simp only [override, hgetD, hor]

/-- Settings are handed out when they have no flaw. -/
theorem load_eq (file : Option String) (env : Environment) :
    load file env = file.elim (.ok {}) ofText >>= fun base =>
      (override env base).flaw?.elim (.ok (override env base)) fun flaw => .error (.flawed flaw) := by
  unfold load
  cases file with
  | none =>
    cases hflaw : (override env {}).flaw? <;> simp [bind, Except.bind, hflaw]
  | some text =>
    cases hbase : ofText text with
    | error failure => simp [bind, Except.bind, hbase]
    | ok base => cases hflaw : (override env base).flaw? <;> simp [bind, Except.bind, hbase, hflaw]

theorem load_eq_ok_iff {file : Option String} {env : Environment} {t : Settings} :
    load file env = .ok t ↔ ∃ base, file.elim (.ok {}) ofText = .ok base ∧ t = override env base ∧ t.flaw? = none := by
  rw [load_eq]
  cases file.elim (.ok {}) ofText with
  | error failure => simp [bind, Except.bind]
  | ok base =>
    cases hflaw : (override env base).flaw? with
    | none =>
      simp only [bind, Except.bind, hflaw, Option.elim_none, Except.ok.injEq, exists_eq_left']
      constructor
      · rintro rfl
        exact ⟨rfl, hflaw⟩
      · exact fun h => h.1.symm
    | some flaw =>
      simp only [bind, Except.bind, hflaw, Option.elim_some, Except.ok.injEq, exists_eq_left', reduceCtorEq, false_iff]
      rintro ⟨rfl, hnone⟩
      rw [hflaw] at hnone
      cases hnone

/-- The environment goes before the file and the defaults, setting by setting and once and for all, and what is loaded
with it has no flaw. -/
theorem environment_layers (env : Environment) :
    (∀ s, Layers env s (override env s) ∧ override env (override env s) = override env s) ∧
      ∀ file t, load file env = .ok t → t.flaw? = none := by
  refine ⟨fun s => ⟨layers_override env s, override_override env s⟩, fun file t h => ?_⟩
  obtain ⟨-, -, -, hsound⟩ := load_eq_ok_iff.mp h
  exact hsound

/-- An environment with a list of models, a number that does not read and a key under its second name. -/
def sampleEnvironment : Environment := fun name =>
  if name = "REPOGRAPH_MODEL_CHAIN" then some " openai/a ,, openai/b"
  else if name = "REPOGRAPH_LLM_TIMEOUT_SECONDS" then some "soon"
  else if name = "OPENAI_API_KEY" then some "key"
  else none

theorem environment_layers_sample :
    load none sampleEnvironment =
        .ok { models := { chain := ["openai/a", "openai/b"], apiKey := some "key" } } ∧
      ({ models := { chain := ["openai/a", "openai/b"], apiKey := some "key" } } : Settings).flaw? = none := by
  have hload : load none sampleEnvironment =
      .ok { models := { chain := ["openai/a", "openai/b"], apiKey := some "key" } } := by
    rw [load_eq_ok_iff]
    refine ⟨{}, rfl, rfl, ?_⟩
    rw [flaw?, if_neg (by decide), if_neg (by decide), if_neg (by decide), if_neg (by decide), if_neg (by decide),
      if_neg (by decide)]
  exact ⟨hload, (environment_layers sampleEnvironment).2 none _ hload⟩

end Settings

end CodeAtlas
