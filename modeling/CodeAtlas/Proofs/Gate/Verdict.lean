import CodeAtlas.Proofs.Floating.Arithmetic
import CodeAtlas.Proofs.Text.Pieces

/-! The verdict on a section. Of the four checks each is asked for or not, and fails or not, apart from the others; one that
is asked for and fails leaves one failure, with its name and its severity (`of_failure?_eq_some`). So the failures are those
of the checks that fail, and the verdict follows from which of them these are: two of the four forbid a section, and the
score is a share of the checks that are asked for. -/
namespace CodeAtlas.Gate

/-- What is checked in a section. -/
inductive Check where
  | length
  | headings
  | placeholders
  | repetition
deriving DecidableEq

namespace Check

/-- The name of a check among the failures. -/
def field : Check → String
  | length => "content_length"
  | headings => "required_headings"
  | placeholders => "placeholders"
  | repetition => "repetition"

def severity : Check → Severity
  | length | placeholders => .error
  | headings | repetition => .warning

/-- Whether the rules ask for a check. -/
def isAsked (rules : Rules) : Check → Bool
  | length => true
  | headings => !rules.headings.isEmpty
  | placeholders => rules.checkPlaceholders
  | repetition => rules.checkRepetition

end Check

/-- The checks that the rules ask for. -/
def asked (rules : Rules) : List Check := [.length, .headings, .placeholders, .repetition].filter (·.isAsked rules)

/-- Whether a heading of the second or the third rank occurs in a text, in small or capital letters. -/
def HasHeading (content heading : String) : Prop :=
  ∃ mark ∈ ["## ", "### "], (mark ++ Text.lowercase heading).toList <:+: (Text.lowercase content).toList

instance (content heading : String) : Decidable (HasHeading content heading) := inferInstanceAs (Decidable (∃ _ ∈ _, _))

/-- Whether a section fails a check. -/
def Check.Fails (rules : Rules) (content : String) : Check → Prop
  | length => (Text.trim content).length < rules.minLength
  | headings => ∃ heading ∈ rules.headings, ¬ HasHeading content heading
  | placeholders => Gate.placeholders content ≠ []
  | repetition => ¬ (longParagraphs content).Nodup

instance (rules : Rules) (content : String) : DecidablePred (Check.Fails rules content)
  | .length => inferInstanceAs (Decidable (_ < _))
  | .headings => inferInstanceAs (Decidable (∃ _ ∈ _, ¬ _))
  | .placeholders => inferInstanceAs (Decidable (_ ≠ _))
  | .repetition => inferInstanceAs (Decidable (¬ List.Nodup _))

/-- The failure of a check. -/
def Check.failure? (rules : Rules) (content : String) : Check → Option Failure
  | length => checkLength rules content
  | headings => checkHeadings rules content
  | placeholders => checkPlaceholders content
  | repetition => checkRepetition content

section Repetition

variable {ps : List String}

theorem repetitions_cons_of_mem {p : String} (h : p ∈ ps) : repetitions (p :: ps) = 1 + repetitions ps := by
  simp [repetitions, h]

theorem repetitions_cons_of_notMem {p : String} (h : p ∉ ps) : repetitions (p :: ps) = repetitions ps := by
  simp [repetitions, h]

/-- Of equal items all but one are repetitions. -/
theorem repetitions_add_card (ps : List String) : repetitions ps + ps.toFinset.card = ps.length := by
  induction ps with
  | nil => rfl
  | cons p ps ih =>
    rw [List.toFinset_cons, List.length_cons, ← ih]
    by_cases h : p ∈ ps
    · rw [repetitions_cons_of_mem h, Finset.insert_eq_of_mem (List.mem_toFinset.mpr h)]
      omega
    · rw [repetitions_cons_of_notMem h, Finset.card_insert_of_notMem (mt List.mem_toFinset.mp h)]
      omega

theorem repetitions_eq_zero_iff : repetitions ps = 0 ↔ ps.Nodup := by
  induction ps with
  | nil => simp [repetitions]
  | cons p ps ih =>
    rw [List.nodup_cons, ← ih]
    by_cases h : p ∈ ps
    · simp [repetitions_cons_of_mem h, h]
    · simp [repetitions_cons_of_notMem h, h]

end Repetition

section Checks

variable {rules : Rules} {content : String} {c : Check} {f : Failure}

theorem mem_asked : c ∈ asked rules ↔ c.isAsked rules = true := by
  cases c <;> simp [asked, Check.isAsked]

theorem hasHeading_iff {heading : String} : HasHeading content heading ↔
    Text.contains (Text.lowercase content) ("## " ++ Text.lowercase heading) = true ∨
      Text.contains (Text.lowercase content) ("### " ++ Text.lowercase heading) = true := by
  simp only [HasHeading, Text.contains_iff, List.mem_cons, List.not_mem_nil, or_false, exists_eq_or_imp, exists_eq_left]

theorem mem_missingHeadings {heading : String} {headings : List String} :
    heading ∈ missingHeadings headings content ↔ heading ∈ headings ∧ ¬ HasHeading content heading := by
  simp [missingHeadings, hasHeading_iff]

/-- A check leaves no failure exactly when the section does not fail it. -/
theorem failure?_eq_none_iff : c.failure? rules content = none ↔ ¬ c.Fails rules content := by
  cases c with
  | length =>
    have hlength : trimmedLength content = (Text.trim content).length := by
      rw [trimmedLength, Text.trim, String.length_ofList]
    simp [Check.failure?, checkLength, Check.Fails, hlength]
  | headings =>
    have hmissing : missingHeadings rules.headings content = [] ↔ ∀ heading ∈ rules.headings, HasHeading content heading := by
      simp [List.eq_nil_iff_forall_not_mem, mem_missingHeadings]
    simp [Check.failure?, checkHeadings, Check.Fails, hmissing]
  | placeholders => simp [Check.failure?, checkPlaceholders, Check.Fails]
  | repetition => simp [Check.failure?, checkRepetition, Check.Fails, repetitions_eq_zero_iff]

/-- A failure tells which check failed. -/
theorem of_failure?_eq_some (h : c.failure? rules content = some f) : f.field = c.field ∧ f.severity = c.severity := by
  cases c <;> simp only [Check.failure?, checkLength, checkHeadings, checkPlaceholders, checkRepetition] at h <;>
    split at h <;> cases h <;> exact ⟨rfl, rfl⟩

theorem exists_failure?_iff : (∃ f, c.failure? rules content = some f) ↔ c.Fails rules content := by
  rw [← Option.isSome_iff_exists, ← Option.ne_none_iff_isSome, Ne, failure?_eq_none_iff, not_not]

theorem outcomes_eq (rules : Rules) (content : String) :
    outcomes rules content = (asked rules).map (·.failure? rules content) := by
  unfold outcomes asked
  cases hheadings : rules.headings.isEmpty <;> cases hplaceholders : rules.checkPlaceholders <;>
    cases hrepetition : rules.checkRepetition <;>
    simp [Check.isAsked, Check.failure?, hheadings, hplaceholders, hrepetition]

theorem failures_judge (name : String) (rules : Rules) (content : String) :
    (judge name rules content).failures = (asked rules).filterMap (·.failure? rules content) := by
  show (outcomes rules content).filterMap id = _
  rw [outcomes_eq, List.filterMap_map]
  rfl

theorem mem_failures_judge {name : String} : f ∈ (judge name rules content).failures ↔
    ∃ c : Check, c.isAsked rules = true ∧ c.failure? rules content = some f := by
  simp [failures_judge, mem_asked]

/-- The failures are those of the checks that fail, one for each and in their order. -/
theorem map_field_failures (name : String) (rules : Rules) (content : String) :
    (judge name rules content).failures.map (·.field) =
      ((asked rules).filter fun c => c.Fails rules content).map Check.field := by
  rw [failures_judge]
  generalize asked rules = cs
  induction cs with
  | nil => rfl
  | cons c cs ih =>
    by_cases h : c.Fails rules content
    · obtain ⟨f, hf⟩ := exists_failure?_iff.mpr h
      simp [hf, h, ih, (of_failure?_eq_some hf).1]
    · simp [failure?_eq_none_iff.mpr h, h, ih]

/-- A section passes when no check fails that forbids it. -/
theorem passed_judge_iff {name : String} : (judge name rules content).passed = true ↔
    ∀ c : Check, c.isAsked rules = true → c.severity = .error → ¬ c.Fails rules content := by
  show (errors (judge name rules content).failures).isEmpty = true ↔ _
  simp only [errors, List.isEmpty_iff, List.filter_eq_nil_iff, decide_eq_true_eq]
  constructor
  · intro h c hasked hsevere hfails
    obtain ⟨f, hf⟩ := exists_failure?_iff.mpr hfails
    apply h f (mem_failures_judge.mpr ⟨c, hasked, hf⟩)
    rw [(of_failure?_eq_some hf).2, hsevere]
  · intro h f hf hsevere
    obtain ⟨c, hasked, hfailure⟩ := mem_failures_judge.mp hf
    rw [(of_failure?_eq_some hfailure).2] at hsevere
    exact h c hasked hsevere (exists_failure?_iff.mp ⟨f, hfailure⟩)

/-- Only the length and the placeholders of a section decide whether it passes. -/
theorem passed_judge_iff_of_rules {name : String} : (judge name rules content).passed = true ↔
    rules.minLength ≤ (Text.trim content).length ∧ (rules.checkPlaceholders = true → placeholders content = []) := by
  rw [passed_judge_iff]
  constructor
  · intro h
    exact ⟨not_lt.mp (h .length rfl rfl), fun hasked => not_not.mp (h .placeholders hasked rfl)⟩
  · rintro ⟨hlength, hplaceholders⟩ c hasked hsevere
    cases c with
    | length => exact not_lt.mpr hlength
    | headings => cases hsevere
    | placeholders => exact not_not.mpr (hplaceholders hasked)
    | repetition => cases hsevere

/-- A failure that is named for repetition tells how many paragraphs are repetitions. -/
theorem actual_of_field_eq_repetition {name : String} (h : f ∈ (judge name rules content).failures)
    (hfield : f.field = "repetition") :
    f.actual = Decimal.natText (repetitions (longParagraphs content)) ++ " duplicate paragraph(s)" := by
  obtain ⟨c, -, hfailure⟩ := mem_failures_judge.mp h
  rw [(of_failure?_eq_some hfailure).1] at hfield
  have hcheck : c = .repetition := by cases c <;> simp [Check.field] at hfield ⊢
  rw [hcheck, Check.failure?, checkRepetition] at hfailure
  split at hfailure
  · cases hfailure
  · cases hfailure
    rfl

end Checks

open Floating (IsRounded value isRounded_toFloat isRounded_div value_toFloat_lt_limit)

section Score

variable {total failed n : ℕ}

/-- Numbers of checks are written exactly. -/
theorem value_toFloat_of_lt (h : n < 5) : value n.toUInt64.toFloat = n := by
  interval_cases n <;> decide +kernel

theorem toUInt64_ne_zero_of_lt (hpos : 0 < n) (h : n < 5) : n.toUInt64 ≠ 0 := by
  interval_cases n <;> decide

/-- The share of the checks that did not fail, rounded. -/
theorem isRounded_shareOf (hfew : total < 5) (hless : failed < total) :
    IsRounded ((total - failed) / total) (shareOf total failed) := by
  have hheld : total - failed < 5 := by omega
  have hpos : 0 < total - failed := by omega
  have hleast : value total.toUInt64.toFloat ≤ value (total - failed).toUInt64.toFloat * 2 ^ (252 : ℤ) := by
    rw [value_toFloat_of_lt hfew, value_toFloat_of_lt hheld]
    calc (total : ℚ)
      _ ≤ 5 := by exact_mod_cast hfew.le
      _ ≤ 1 * 2 ^ (252 : ℤ) := by norm_num
      _ ≤ (total - failed : ℕ) * 2 ^ (252 : ℤ) := by gcongr; exact_mod_cast hpos
  have hdiv := isRounded_div (isRounded_toFloat (toUInt64_ne_zero_of_lt hpos hheld)).positive (value_toFloat_lt_limit _)
    (isRounded_toFloat (toUInt64_ne_zero_of_lt (by omega) hfew)).positive (value_toFloat_lt_limit _) hleast
  rw [value_toFloat_of_lt hfew, value_toFloat_of_lt hheld, Nat.cast_sub hless.le] at hdiv
  exact hdiv

theorem shareOf_bounds (hfew : total < 5) (hpos : 0 < total) (hle : failed ≤ total) :
    0 ≤ shareOf total failed ∧ shareOf total failed ≤ 1 ∧ (shareOf total failed = 1 ↔ failed = 0) ∧
      (failed = total → shareOf total failed = 0) := by
  interval_cases total <;> interval_cases failed <;> decide +kernel

theorem exactShare_bounds (hpos : 0 < total) (hle : failed ≤ total) :
    (0 : ℚ) ≤ (total - failed) / total ∧ ((total - failed) / total : ℚ) ≤ 1 ∧
      ((total - failed) / total = (1 : ℚ) ↔ failed = 0) := by
  have hpos' : (0 : ℚ) < total := by exact_mod_cast hpos
  have hle' : (failed : ℚ) ≤ total := by exact_mod_cast hle
  refine ⟨div_nonneg (by linarith) hpos'.le, (div_le_one hpos').mpr (by simp), ?_⟩
  rw [div_eq_one_iff_eq hpos'.ne', sub_eq_self, Nat.cast_eq_zero]

end Score

section Judge

variable (name : String) (rules : Rules) (content : String)

theorem length_asked : 0 < (asked rules).length ∧ (asked rules).length < 5 := by
  obtain ⟨hpos, hmost⟩ := length_outcomes rules ""
  rw [outcomes_eq, List.length_map] at hpos hmost
  exact ⟨hpos, Nat.lt_succ_of_le hmost⟩

theorem length_failures_le : (judge name rules content).failures.length ≤ (asked rules).length := by
  rw [failures_judge]
  exact List.length_filterMap_le _ _

theorem score_judge : (judge name rules content).score =
    shareOf (asked rules).length (judge name rules content).failures.length := by
  show shareOf (outcomes rules content).length (judge name rules content).failures.length = _
  rw [outcomes_eq, List.length_map]

/-- The score is the share of the checks asked for that do not fail, as near to it as floating point comes. -/
theorem exists_share : ∃ share : ℚ,
    share = ((asked rules).length - (judge name rules content).failures.length) / (asked rules).length ∧
      0 ≤ share ∧ share ≤ 1 ∧ (share = 1 ↔ (judge name rules content).failures = []) ∧
      (share = 0 ∧ (judge name rules content).score = 0 ∨ IsRounded share (judge name rules content).score) := by
  obtain ⟨hpos, hfew⟩ := length_asked rules
  have hle := length_failures_le name rules content
  obtain ⟨hleast, hmost, hfull⟩ := exactShare_bounds hpos hle
  rw [List.length_eq_zero_iff] at hfull
  refine ⟨_, rfl, hleast, hmost, hfull, ?_⟩
  rw [score_judge]
  rcases hle.lt_or_eq with hless | hall
  · exact .inr (isRounded_shareOf hfew hless)
  · left
    exact ⟨by rw [hall, sub_self, zero_div], (shareOf_bounds hfew hpos hle).2.2.2 hall⟩

end Judge

/-- A section passes when it is long enough and, if that is asked, holds no placeholder; headings and repetition do not
matter to that. Every check that is asked for and fails leaves one failure, and the score is the share of those that do not
fail. There are as many repetitions as there are more long paragraphs than different ones. -/
theorem judge_by_checks (name : String) (rules : Rules) (content : String) :
    let verdict := judge name rules content
    let paragraphs := longParagraphs content
    (verdict.passed = true ↔
      rules.minLength ≤ (Text.trim content).length ∧ (rules.checkPlaceholders = true → placeholders content = [])) ∧
    (∀ headings repetition,
      (judge name { rules with headings := headings, checkRepetition := repetition } content).passed = verdict.passed) ∧
    verdict.failures.map (·.field) = ((asked rules).filter fun c => c.Fails rules content).map Check.field ∧
    (∃ share : ℚ, share = ((asked rules).length - verdict.failures.length) / (asked rules).length ∧
      0 ≤ share ∧ share ≤ 1 ∧ (share = 1 ↔ verdict.failures = []) ∧
      (share = 0 ∧ verdict.score = 0 ∨ Floating.IsRounded share verdict.score)) ∧
    (0 ≤ verdict.score ∧ verdict.score ≤ 1 ∧ (verdict.score = 1 ↔ verdict.failures = [])) ∧
    repetitions paragraphs + paragraphs.toFinset.card = paragraphs.length ∧
    ∀ f ∈ verdict.failures, f.field = "repetition" →
      f.actual = Decimal.natText (paragraphs.length - paragraphs.toFinset.card) ++ " duplicate paragraph(s)" := by
  intro verdict paragraphs
  have hcount := repetitions_add_card paragraphs
  obtain ⟨hpos, hfew⟩ := length_asked rules
  obtain ⟨hleast, hmost, hfull, -⟩ := shareOf_bounds hfew hpos (length_failures_le name rules content)
  rw [← score_judge] at hleast hmost hfull
  rw [List.length_eq_zero_iff] at hfull
  refine ⟨passed_judge_iff_of_rules, fun headings repetition => ?_, map_field_failures name rules content,
    exists_share name rules content, ⟨hleast, hmost, hfull⟩, hcount, fun f hf hfield => ?_⟩
  · rw [Bool.eq_iff_iff, passed_judge_iff_of_rules, passed_judge_iff_of_rules]
  · have hrepeated : paragraphs.length - paragraphs.toFinset.card = repetitions paragraphs := by omega
    rw [hrepeated]
    exact actual_of_field_eq_repetition hf hfield

theorem judge_by_checks_owner :
    let rules : Rules := { headings := ["Feature Areas"] }
    let verdict := judge "features" rules "Owner: [TODO]"
    let paragraph := "Orders are read line by line, and each is checked once."
    verdict.passed = false ∧ verdict.failures.map (·.field) = ["content_length", "required_headings", "placeholders"] ∧
      Floating.IsRounded (1 / 4) verdict.score ∧
      "1 duplicate paragraph(s)" ∈ (judge "features" rules (paragraph ++ "\n\n" ++ paragraph)).failures.map (·.actual) := by
  intro rules verdict paragraph
  obtain ⟨hpassed, -, -, ⟨share, hshare, -, -, -, hscore⟩, -⟩ := judge_by_checks "features" rules "Owner: [TODO]"
  have hfields : verdict.failures.map (·.field) = ["content_length", "required_headings", "placeholders"] := by
    decide +kernel
  have hlength : verdict.failures.length = 3 := by
    rw [← List.length_map, hfields]
    rfl
  have hquarter : share = 1 / 4 := by
    rw [hshare, hlength]
    norm_num [rules, asked, Check.isAsked]
  obtain ⟨-, -, hnames, -, -, -, hactual⟩ := judge_by_checks "features" rules (paragraph ++ "\n\n" ++ paragraph)
  have hparagraphs : longParagraphs (paragraph ++ "\n\n" ++ paragraph) = [paragraph, paragraph] := by decide +kernel
  have hfails : Check.repetition.Fails rules (paragraph ++ "\n\n" ++ paragraph) := by
    rw [Check.Fails, hparagraphs]
    simp
  have hnamed : "repetition" ∈ (judge "features" rules (paragraph ++ "\n\n" ++ paragraph)).failures.map (·.field) := by
    rw [hnames]
    exact List.mem_map.mpr ⟨.repetition, List.mem_filter.mpr ⟨mem_asked.mpr rfl, decide_eq_true hfails⟩, rfl⟩
  obtain ⟨f, hf, hfield⟩ := List.mem_map.mp hnamed
  refine ⟨?_, hfields, ?_, List.mem_map.mpr ⟨f, hf, ?_⟩⟩
  · rw [Bool.eq_false_iff, Ne, hpassed]
    decide +kernel
  · rw [hquarter] at hscore
    exact hscore.resolve_left (by norm_num)
  · rw [hactual f hf hfield, hparagraphs]
    decide +kernel

end CodeAtlas.Gate
