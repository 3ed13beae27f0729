import CodeAtlas.Report
import Mathlib.Data.List.Basic
import Mathlib.Data.List.Forall2
import Mathlib.Data.List.Induction
import Mathlib.Tactic.Tauto

/-! What a reconciliation comes to, said without the passes that compute it: which definitions are kept, which of
them are confirmed and by what, which rules enter, and when both readings contradict each other. -/
namespace CodeAtlas
namespace Report

open Findings (Narrative Rule)

/-- Whether two definitions have the same name in the same file. -/
def Same (d e : Facts.Definition) : Prop := d.name = e.name ∧ d.file = e.file

instance (d e : Facts.Definition) : Decidable (Same d e) := inferInstanceAs (Decidable (_ ∧ _))

/-- The definitions of which none before has the same name in the same file. -/
def firsts (definitions : List Facts.Definition) : List Facts.Definition :=
  definitions.zipIdx.filterMap fun (d, i) => if ∃ e ∈ definitions.take i, Same d e then none else some d

/-- Whether a narrative stands for a reading, and not for one that could not be had. -/
def Speaks (n : Narrative) : Prop :=
  n.behaviors ≠ [] ∨ n.concepts ≠ [] ∨
    (n.purpose ≠ Findings.unavailablePurpose ∧ n.purpose ≠ Findings.unreadablePurpose)

/-- Whether a text is one of those that a narrative consists of. -/
def Says (n : Narrative) (text : String) : Prop :=
  text = n.purpose ∨ (∃ b ∈ n.behaviors, text = b.description) ∨ text ∈ n.concepts

/-- Whether one single text about the definition's file has all words of the definition's name. -/
def Confirms (narratives : List Narrative) (d : Facts.Definition) : Prop :=
  Words.words d.name ≠ [] ∧
    ∃ n ∈ narratives, Speaks n ∧ n.file = d.file ∧ ∃ text, Says n text ∧ Words.words d.name ⊆ Words.words text

/-- An entity that stands for a definition, with the verdict of the narratives. -/
structure Entity.Describes (narratives : List Narrative) (d : Facts.Definition) (e : Entity) : Prop where
  name : e.name = d.name
  kind : e.kind = d.kind
  file : e.file = d.file
  startLine : e.startLine = d.startLine
  endLine : e.endLine = d.endLine
  language : e.language = d.language
  signature : e.signature = d.signature
  description : e.description = d.docstring
  verdict : (Confirms narratives d ∧ e.confidence.provenance = .crossValidated ∧ e.confidence.value = 0.95) ∨
    (¬ Confirms narratives d ∧ e.confidence.provenance = .deterministic ∧ e.confidence.value = 0.90)

/-- An entity that stands for a rule. -/
structure Entity.States (r : Rule) (e : Entity) : Prop where
  name : e.name = String.ofList (r.text.toList.take 80)
  kind : e.kind = .businessRule
  file : e.file = r.file
  startLine : e.startLine = r.lineStart
  endLine : e.endLine = max r.lineEnd r.lineStart
  lines : e.startLine ≤ e.endLine
  language : e.language = ""
  signature : e.signature = none
  description : e.description = if r.consequence = "" then none else some r.consequence
  provenance : e.confidence.provenance = .probabilistic
  value : e.confidence.value = 0.70

/-- Whether a rule enters: what names it is not blank, and no definition has that name in the rule's file. -/
def Enters (definitions : List Facts.Definition) (r : Rule) : Prop :=
  Text.blank (String.ofList (r.text.toList.take 80)) = false ∧
    ∀ d ∈ definitions, ¬ (d.name = String.ofList (r.text.toList.take 80) ∧ d.file = r.file)

instance (definitions : List Facts.Definition) (r : Rule) : Decidable (Enters definitions r) :=
  inferInstanceAs (Decidable (_ ∧ _))

/-- The number of entities of a provenance. -/
def countOf (p : Provenance) (entities : List Entity) : Nat := entities.countP (·.confidence.provenance == p)

/-- What a report says when it is exact: first the definitions in order, then the rules in order, everything counted,
and a conflict when both readings found something and nothing is confirmed. -/
structure Exact (facts : Facts) (findings : Findings) (r : Report) : Prop where
  entities : ∃ found ruled, r.entities = found ++ ruled ∧
    List.Forall₂ (Entity.Describes findings.narratives) (firsts facts.definitions) found ∧
    List.Forall₂ Entity.States (findings.rules.filter fun rule => Enters facts.definitions rule) ruled
  crossValidated : r.crossValidated = countOf .crossValidated r.entities
  deterministicOnly : r.deterministicOnly = countOf .deterministic r.entities
  modelOnly : r.modelOnly = countOf .probabilistic r.entities
  conflict : r.hasConflict = true ↔
    r.crossValidated = 0 ∧ facts.definitions ≠ [] ∧ ∃ n ∈ findings.narratives, Speaks n

section Definitions

theorem firsts_append_singleton (ds : List Facts.Definition) (d : Facts.Definition) :
    firsts (ds ++ [d]) = firsts ds ++ if ∃ e ∈ ds, Same d e then [] else [d] := by
  have hold : ∀ x ∈ ds.zipIdx, (ds ++ [d]).take x.2 = ds.take x.2 := by
    intro x hx
    have hlt : x.2 < ds.length := by simpa using List.snd_lt_of_mem_zipIdx hx
    exact List.take_append_of_le_length (Nat.le_of_lt hlt)
  unfold firsts
  rw [List.zipIdx_append, List.filterMap_append]
  congr 1
  · exact List.filterMap_congr fun x hx => by simp only [hold x hx]
  · by_cases h : ∃ e ∈ ds, Same d e
    · simp [h]
    · simp [h]

theorem mem_of_mem_firsts {ds : List Facts.Definition} {d : Facts.Definition} (h : d ∈ firsts ds) : d ∈ ds := by
  obtain ⟨⟨x, i⟩, hx, hd⟩ := List.mem_filterMap.mp h
  dsimp only at hd
  split at hd
  · cases hd
  · cases hd
    exact List.fst_mem_of_mem_zipIdx hx

/-- The definitions that are kept after some others, by the keys of the others. -/
theorem firstDefinitions_append_singleton (seen : List (String × String)) (ds : List Facts.Definition)
    (d : Facts.Definition) :
    firstDefinitions seen (ds ++ [d]) = firstDefinitions seen ds ++
      if (d.name, d.file) ∈ seen ∨ ∃ e ∈ ds, Same d e then [] else [d] := by
  induction ds generalizing seen with
  | nil =>
    by_cases h : (d.name, d.file) ∈ seen
    · simp [firstDefinitions, h]
    · simp [firstDefinitions, h]
  | cons a rest ih =>
    have hsame : Same d a ↔ (d.name, d.file) = (a.name, a.file) := by simp [Same]
    by_cases h : (a.name, a.file) ∈ seen
    · have hor : ((d.name, d.file) ∈ seen ∨ ∃ e ∈ a :: rest, Same d e) ↔
          ((d.name, d.file) ∈ seen ∨ ∃ e ∈ rest, Same d e) := by
        have hseen : Same d a → (d.name, d.file) ∈ seen := fun hd => hsame.mp hd ▸ h
        simp only [List.mem_cons, exists_eq_or_imp]
        tauto
      simp only [List.cons_append, firstDefinitions, List.contains_iff_mem, h, if_true, ih, hor]
    · have hor : ((d.name, d.file) ∈ seen ∨ ∃ e ∈ a :: rest, Same d e) ↔
          ((d.name, d.file) ∈ (a.name, a.file) :: seen ∨ ∃ e ∈ rest, Same d e) := by
        simp only [List.mem_cons, exists_eq_or_imp, hsame]
        tauto
      simp only [List.cons_append, firstDefinitions, List.contains_iff_mem, h, if_false, ih, hor]

theorem firstDefinitions_eq (ds : List Facts.Definition) : firstDefinitions [] ds = firsts ds := by
  induction ds using List.reverseRecOn with
  | nil => rfl
  | append_singleton ds d ih => simp [firstDefinitions_append_singleton, firsts_append_singleton, ih]

/-- Every definition shares its name and file with one that is kept. -/
theorem exists_mem_firsts {ds : List Facts.Definition} {name file : String} :
    (∃ d ∈ firsts ds, d.name = name ∧ d.file = file) ↔ ∃ d ∈ ds, d.name = name ∧ d.file = file := by
  induction ds using List.reverseRecOn with
  | nil => simp [firsts]
  | append_singleton ds d ih =>
    rw [firsts_append_singleton]
    by_cases h : ∃ e ∈ ds, Same d e
    · obtain ⟨e, he, hname, hfile⟩ := h
      have hany : ∃ e ∈ ds, Same d e := ⟨e, he, hname, hfile⟩
      rw [if_pos hany, List.append_nil, ih]
      constructor
      · rintro ⟨x, hx, hkey⟩
        exact ⟨x, List.mem_append_left _ hx, hkey⟩
      · rintro ⟨x, hx, rfl, rfl⟩
        rcases List.mem_append.mp hx with hx | hx
        · exact ⟨x, hx, rfl, rfl⟩
        · rw [List.mem_singleton] at hx
          subst hx
          exact ⟨e, he, hname.symm, hfile.symm⟩
    · rw [if_neg h]
      simp only [List.mem_append, or_and_right, exists_or, ih]

theorem firsts_eq_nil_iff (ds : List Facts.Definition) : firsts ds = [] ↔ ds = [] := by
  constructor
  · intro h
    by_contra hne
    obtain ⟨d, hd⟩ := List.exists_mem_of_ne_nil ds hne
    obtain ⟨e, he, _⟩ := exists_mem_firsts.mpr ⟨d, hd, rfl, rfl⟩
    rw [h] at he
    exact List.not_mem_nil he
  · rintro rfl
    rfl

end Definitions

section Verdict

theorem isStandIn_eq_false_iff (n : Narrative) : n.isStandIn = false ↔ Speaks n := by
  simp only [Narrative.isStandIn, Speaks, Bool.and_eq_false_iff, Bool.or_eq_false_iff, beq_eq_false_iff_ne,
    List.isEmpty_eq_false_iff, or_assoc]

theorem mem_mentions_iff (n : Narrative) (text : String) : text ∈ n.mentions ↔ Says n text := by
  simp only [Narrative.mentions, Says, List.cons_append, List.mem_cons, List.mem_append, List.mem_map, eq_comm]

/-- The narratives that count. -/
def speaking (narratives : List Narrative) : List Narrative := narratives.filter fun n => !n.isStandIn

theorem mem_speaking_iff {narratives : List Narrative} {n : Narrative} :
    n ∈ speaking narratives ↔ n ∈ narratives ∧ Speaks n := by
  rw [speaking, List.mem_filter, Bool.not_eq_true', isStandIn_eq_false_iff]

theorem allAmong_eq_true_iff (own others : List String) : Words.allAmong own others = true ↔ own ⊆ others := by
  simp [Words.allAmong, List.subset_def]

theorem confirmed_iff (narratives : List Narrative) (d : Facts.Definition) :
    confirmed (mentions (speaking narratives)) d.file d.name = true ↔ Confirms narratives d := by
  simp only [confirmed, Confirms, Bool.and_eq_true, Bool.not_eq_true', List.isEmpty_eq_false_iff, List.any_eq_true,
    mentions, List.mem_flatMap, List.mem_map, beq_iff_eq, allAmong_eq_true_iff, mem_speaking_iff]
  refine and_congr_right fun _ => ?_
  constructor
  · rintro ⟨m, ⟨n, ⟨hn, hspeaks⟩, text, htext, rfl⟩, hfile, hwords⟩
    exact ⟨n, hn, hspeaks, hfile, text, (mem_mentions_iff n text).mp htext, hwords⟩
  · rintro ⟨n, hn, hspeaks, hfile, text, htext, hwords⟩
    exact ⟨_, ⟨n, ⟨hn, hspeaks⟩, text, (mem_mentions_iff n text).mpr htext, rfl⟩, hfile, hwords⟩

theorem ofDefinition_describes (narratives : List Narrative) (d : Facts.Definition) :
    (ofDefinition (mentions (speaking narratives)) d).Describes narratives d := by
  have hiff := confirmed_iff narratives d
  refine ⟨rfl, rfl, rfl, rfl, rfl, rfl, rfl, rfl, ?_⟩
  unfold ofDefinition definitionConfidence
  by_cases h : confirmed (mentions (speaking narratives)) d.file d.name = true
  · rw [if_pos h]
    exact .inl ⟨hiff.mp h, rfl, rfl⟩
  · rw [if_neg h]
    exact .inr ⟨fun hc => h (hiff.mpr hc), rfl, rfl⟩

theorem ofRule_states (r : Rule) : (ofRule r).States r where
  name := rfl
  kind := rfl
  file := rfl
  startLine := rfl
  endLine := rfl
  lines := Nat.le_max_right _ _
  language := rfl
  signature := rfl
  description := by simp [ofRule]
  provenance := rfl
  value := rfl

theorem admitsRule_iff (ds : List Facts.Definition) (r : Rule) :
    admitsRule (firsts ds) r = true ↔ Enters ds r := by
  have hnone : (firsts ds).any (fun d => d.name == ruleName r && d.file == r.file) = false ↔
      ¬ ∃ d ∈ ds, d.name = ruleName r ∧ d.file = r.file := by
    rw [← exists_mem_firsts]
    simp
  rw [admitsRule, Bool.and_eq_true, Bool.not_eq_true', Bool.not_eq_true', hnone]
  exact and_congr_right fun _ => by simp [ruleName, ruleNameLength, Text.take]

end Verdict

section Counts

theorem countOf_append (p : Provenance) (xs ys : List Entity) : countOf p (xs ++ ys) = countOf p xs + countOf p ys :=
  List.countP_append

/-- An entity of a definition is either confirmed or found by the scanner alone. -/
theorem countOf_found (narratives : List Narrative) {ds : List Facts.Definition} {found : List Entity}
    (h : List.Forall₂ (Entity.Describes narratives) ds found) :
    countOf .probabilistic found = 0 ∧ countOf .crossValidated found + countOf .deterministic found = found.length := by
  induction h with
  | nil => exact ⟨rfl, rfl⟩
  | @cons d e _ _ hd _ ih =>
    obtain ⟨hnone, hall⟩ := ih
    unfold countOf at hnone hall ⊢
    rcases hd.verdict with ⟨_, hp, _⟩ | ⟨_, hp, _⟩
    · refine ⟨by simpa [hp] using hnone, ?_⟩
      simp [hp]
      omega
    · refine ⟨by simpa [hp] using hnone, ?_⟩
      simp [hp]
      omega

theorem countOf_ruled {rules : List Rule} {ruled : List Entity} (h : List.Forall₂ Entity.States rules ruled) :
    countOf .probabilistic ruled = rules.length ∧ countOf .crossValidated ruled = 0 ∧
      countOf .deterministic ruled = 0 := by
  induction h with
  | nil => exact ⟨rfl, rfl, rfl⟩
  | cons hr _ ih =>
    simp only [countOf, List.countP_cons, List.length_cons, hr.provenance] at ih ⊢
    simpa using ih

end Counts

/-- The entities that definitions become. -/
def foundIn (facts : Facts) (findings : Findings) : List Entity :=
  (firsts facts.definitions).map (ofDefinition (mentions (speaking findings.narratives)))

/-- The entities that rules become. -/
def ruledIn (facts : Facts) (findings : Findings) : List Entity :=
  (findings.rules.filter fun rule => Enters facts.definitions rule).map ofRule

theorem reconcile_eq (facts : Facts) (findings : Findings) :
    reconcile facts findings = {
      entities := foundIn facts findings ++ ruledIn facts findings
      crossValidated := countOf .crossValidated (foundIn facts findings)
      deterministicOnly :=
        (foundIn facts findings).length - countOf .crossValidated (foundIn facts findings)
      modelOnly := (findings.rules.filter fun rule => Enters facts.definitions rule).length
      conflicts :=
        if countOf .crossValidated (foundIn facts findings) = 0 ∧ !(firsts facts.definitions).isEmpty ∧
          !(speaking findings.narratives).isEmpty then [disagreement] else [] } := by
  have hrules : findings.rules.filter (admitsRule (firsts facts.definitions)) =
      findings.rules.filter fun rule => Enters facts.definitions rule :=
    List.filter_congr fun r _ => Bool.eq_iff_iff.mpr ((admitsRule_iff _ r).trans (by simp))
  unfold ruledIn
  rw [← hrules]
  simp only [reconcile, firstDefinitions_eq]
  rfl

/-- Reconciling facts and findings gives an exact report. -/
theorem exact_reconcile (facts : Facts) (findings : Findings) : (reconcile facts findings).Exact facts findings := by
  have hfound : List.Forall₂ (Entity.Describes findings.narratives) (firsts facts.definitions)
      (foundIn facts findings) :=
    List.forall₂_map_right_iff.mpr (List.forall₂_same.mpr fun d _ => ofDefinition_describes findings.narratives d)
  have hruled : List.Forall₂ Entity.States (findings.rules.filter fun rule => Enters facts.definitions rule)
      (ruledIn facts findings) :=
    List.forall₂_map_right_iff.mpr (List.forall₂_same.mpr fun r _ => ofRule_states r)
  obtain ⟨hnone, hall⟩ := countOf_found findings.narratives hfound
  obtain ⟨hrules, hcross, hdeterministic⟩ := countOf_ruled hruled
  have hfirst : firsts facts.definitions ≠ [] ↔ facts.definitions ≠ [] := by
    rw [ne_eq, ne_eq, firsts_eq_nil_iff]
  have hspeaking : speaking findings.narratives ≠ [] ↔ ∃ n ∈ findings.narratives, Speaks n := by
    simp only [← mem_speaking_iff]
    exact ⟨List.exists_mem_of_ne_nil _, fun ⟨_, hn⟩ => List.ne_nil_of_mem hn⟩
  rw [reconcile_eq]
  refine ⟨⟨_, _, rfl, hfound, hruled⟩, ?_, ?_, ?_, ?_⟩
  · simp only [countOf_append, hcross, Nat.add_zero]
  · simp only [countOf_append, hdeterministic, Nat.add_zero]
    omega
  · simp only [countOf_append, hnone, hrules, Nat.zero_add]
  · rw [← hfirst, ← hspeaking]
    simp only [hasConflict, Bool.not_eq_true', List.isEmpty_eq_false_iff]
    split <;> simp_all

end Report
end CodeAtlas
