import CodeAtlas.Proofs.Report.Exact
import CodeAtlas.Proofs.Words.Separators

/-! What narratives can do to a report. The scanner settles which of its entities there are, and narratives settle how
sure the report is of each: a verdict is read off the narratives of the entity's own file (`confirms_iff`), one that
speaks for the entity is enough, and it does not matter where in the list it stands. -/
namespace CodeAtlas
namespace Report

open Findings (Narrative)

/-- The entities that the scanner found. -/
def scanned (r : Report) : List Entity := r.entities.filter (·.confidence.provenance != .probabilistic)

/-- Whether two entities differ in nothing but in how sure a report is of them. -/
def Entity.SameBut (e e' : Entity) : Prop := { e with confidence := e'.confidence } = e'

/-- Whether a report is as sure of an entity as before, or surer. -/
structure Entity.NotLowered (e e' : Entity) : Prop where
  verdict : e.confidence.provenance = .crossValidated → e'.confidence.provenance = .crossValidated
  value : e.confidence.value ≤ e'.confidence.value

/-- What narratives say about a file, whatever the file is called. -/
def saidOf (file : String) (narratives : List Narrative) : List Narrative :=
  (narratives.filter (·.file == file)).map fun n => { n with file := "" }

/-- How two readings of the model bear on the same facts. -/
structure OnlyRaised (facts : Facts) (findings findings' : Findings) : Prop where
  same : List.Forall₂ Entity.SameBut (reconcile facts findings).scanned (reconcile facts findings').scanned
  raised : findings.narratives ⊆ findings'.narratives →
    List.Forall₂ Entity.NotLowered (reconcile facts findings).scanned (reconcile facts findings').scanned
  unordered : findings.narratives.Perm findings'.narratives → findings.rules = findings'.rules →
    reconcile facts findings = reconcile facts findings'
  own : ∀ facts' : Facts, ∀ e ∈ (reconcile facts findings).scanned, ∀ e' ∈ (reconcile facts' findings').scanned,
    e.name = e'.name → saidOf e.file findings.narratives = saidOf e'.file findings'.narratives →
      e.confidence = e'.confidence

section Confirmed

variable {narratives narratives' : List Narrative} {d d' : Facts.Definition}

/-- Whether one single text of some narratives has all words of a name. -/
def Supports (said : List Narrative) (name : String) : Prop :=
  Words.words name ≠ [] ∧ ∃ n ∈ said, Speaks n ∧ ∃ text, Says n text ∧ Words.words name ⊆ Words.words text

theorem confirms_iff : Confirms narratives d ↔ Supports (saidOf d.file narratives) d.name := by
  refine and_congr_right fun _ => ⟨?_, ?_⟩
  · rintro ⟨n, hn, hspeaks, hfile, htext⟩
    exact ⟨_, List.mem_map_of_mem (List.mem_filter.mpr ⟨hn, beq_iff_eq.mpr hfile⟩), hspeaks, htext⟩
  · rintro ⟨_, hsaid, hspeaks, htext⟩
    obtain ⟨n, hn, rfl⟩ := List.mem_map.mp hsaid
    obtain ⟨hmem, hfile⟩ := List.mem_filter.mp hn
    exact ⟨n, hmem, hspeaks, beq_iff_eq.mp hfile, htext⟩

theorem Confirms.mono (h : Confirms narratives d) (hsub : narratives ⊆ narratives') : Confirms narratives' d := by
  obtain ⟨hname, n, hn, hsaid⟩ := h
  exact ⟨hname, n, hsub hn, hsaid⟩

end Confirmed

section Scanned

variable {facts : Facts} {findings findings' : Findings}

theorem provenance_definitionConfidence (isConfirmed : Bool) :
    (definitionConfidence isConfirmed).provenance = if isConfirmed then .crossValidated else .deterministic := by
  cases isConfirmed <;> rfl

theorem value_definitionConfidence_le {b b' : Bool} (h : b = true → b' = true) :
    (definitionConfidence b).value ≤ (definitionConfidence b').value := by
  cases b <;> cases b'
  · decide
  · decide
  · exact absurd (h rfl) Bool.false_ne_true
  · decide

theorem scanned_reconcile (facts : Facts) (findings : Findings) :
    (reconcile facts findings).scanned = foundIn facts findings := by
  have hfound : ∀ e ∈ foundIn facts findings, (e.confidence.provenance != .probabilistic) = true := by
    intro e he
    obtain ⟨d, -, rfl⟩ := List.mem_map.mp he
    simp only [ofDefinition, provenance_definitionConfidence]
    split <;> rfl
  have hruled : ∀ e ∈ ruledIn facts findings, ¬ (e.confidence.provenance != .probabilistic) = true := by
    intro e he
    obtain ⟨r, -, rfl⟩ := List.mem_map.mp he
    exact Bool.false_ne_true
  rw [scanned, reconcile_eq, List.filter_append, List.filter_eq_self.mpr hfound, List.filter_eq_nil_iff.mpr hruled,
    List.append_nil]

/-- Two reports on the same facts, definition by definition. -/
theorem forall₂_scanned {R : Entity → Entity → Prop}
    (h : ∀ d, R (ofDefinition (mentions (speaking findings.narratives)) d)
      (ofDefinition (mentions (speaking findings'.narratives)) d)) :
    List.Forall₂ R (reconcile facts findings).scanned (reconcile facts findings').scanned := by
  rw [scanned_reconcile, scanned_reconcile, foundIn, foundIn, List.forall₂_map_left_iff, List.forall₂_map_right_iff]
  exact List.forall₂_same.mpr fun d _ => h d

theorem confirmed_eq_of_iff {narratives narratives' : List Narrative} {d d' : Facts.Definition}
    (h : Confirms narratives d ↔ Confirms narratives' d') :
    confirmed (mentions (speaking narratives)) d.file d.name =
      confirmed (mentions (speaking narratives')) d'.file d'.name :=
  Bool.eq_iff_iff.mpr ((confirmed_iff narratives d).trans (h.trans (confirmed_iff narratives' d').symm))

/-- A name that stands apart in a text of a narrative is confirmed in the narrative's file. -/
theorem crossValidated_of_standsApart {e : Entity} {n : Narrative} {text : String}
    (he : e ∈ (reconcile facts findings).scanned) (hwords : Words.words e.name ≠ []) (hn : n ∈ findings.narratives)
    (hspeaks : Speaks n) (hfile : n.file = e.file) (hsaid : Says n text) (happart : Words.StandsApart e.name text) :
    e.confidence.provenance = .crossValidated := by
  rw [scanned_reconcile] at he
  obtain ⟨d, -, rfl⟩ := List.mem_map.mp he
  have hconfirmed : Confirms findings.narratives d :=
    ⟨hwords, n, hn, hspeaks, hfile, text, hsaid, happart.words_infix.subset⟩
  simp only [ofDefinition, provenance_definitionConfidence]
  rw [if_pos ((confirmed_iff _ d).mpr hconfirmed)]

theorem foundIn_eq_of_perm (h : findings.narratives.Perm findings'.narratives) :
    foundIn facts findings = foundIn facts findings' := by
  refine List.map_congr_left fun d _ => ?_
  have hconfirms : Confirms findings.narratives d ↔ Confirms findings'.narratives d :=
    ⟨fun hd => hd.mono h.subset, fun hd => hd.mono h.symm.subset⟩
  simp only [ofDefinition, confirmed_eq_of_iff hconfirms]

end Scanned

/-- Narratives only raise what a report makes of the scanner's entities: these are the same whatever the model says, none
of them loses by more narratives, their order is of no consequence, and only those of an entity's own file count. -/
theorem onlyRaised (facts : Facts) (findings findings' : Findings) : OnlyRaised facts findings findings' where
  same := forall₂_scanned fun d => rfl
  raised hsub := by
    refine forall₂_scanned fun d => ?_
    have hmono : confirmed (mentions (speaking findings.narratives)) d.file d.name = true →
        confirmed (mentions (speaking findings'.narratives)) d.file d.name = true := fun h =>
      (confirmed_iff _ d).mpr (((confirmed_iff _ d).mp h).mono hsub)
    refine ⟨fun h => ?_, value_definitionConfidence_le hmono⟩
    simp only [ofDefinition, provenance_definitionConfidence] at h ⊢
    split at h
    · next hconfirmed => rw [if_pos (hmono hconfirmed)]
    · cases h
  unordered hperm hrules := by
    have hspeaking : (speaking findings.narratives).isEmpty = (speaking findings'.narratives).isEmpty :=
      (hperm.filter _).isEmpty_eq
    have hruled : ruledIn facts findings = ruledIn facts findings' := by rw [ruledIn, ruledIn, hrules]
    rw [reconcile_eq, reconcile_eq, foundIn_eq_of_perm hperm, hruled, hspeaking, hrules]
  own facts' e he e' he' hname hsaid := by
    rw [scanned_reconcile] at he he'
    obtain ⟨d, -, rfl⟩ := List.mem_map.mp he
    obtain ⟨d', -, rfl⟩ := List.mem_map.mp he'
    have hconfirms : Confirms findings.narratives d ↔ Confirms findings'.narratives d' := by
      simp only [ofDefinition] at hname hsaid
      rw [confirms_iff, confirms_iff, hname, hsaid]
    simp only [ofDefinition, confirmed_eq_of_iff hconfirms]

section Service

/-- Two functions of two files. -/
def twoFunctions : Facts where
  definitions :=
    [⟨"get_user", .function, "svc.py", 1, 3, "python", none, none⟩, ⟨"greet", .function, "a.py", 1, 3, "python", none, none⟩]

/-- What is said of some files, one text for each. -/
def said (texts : List (String × String)) : Findings where
  narratives := texts.map fun (file, text) => { file := file, purpose := text }

/-- A narrative about its file confirms one function, and one about another file does not confirm the other. -/
theorem onlyRaised_twoFunctions :
    let quiet := said [("svc.py", "Loads records")]
    let told := said [("svc.py", "Loads records"), ("b.py", "Calls greet"), ("svc.py", "Calls get_user() once")]
    let turned := said [("b.py", "Calls greet"), ("svc.py", "Calls get_user() once"), ("svc.py", "Loads records")]
    List.Forall₂ Entity.NotLowered (reconcile twoFunctions quiet).scanned (reconcile twoFunctions told).scanned ∧
      (reconcile twoFunctions quiet).scanned.map (·.confidence.provenance) = [.deterministic, .deterministic] ∧
      (reconcile twoFunctions told).scanned.map (·.confidence.provenance) = [.crossValidated, .deterministic] ∧
      reconcile twoFunctions told = reconcile twoFunctions turned := by
  intro quiet told turned
  have hmore : quiet.narratives ⊆ told.narratives := List.cons_subset_cons _ (List.nil_subset _)
  have hturned : told.narratives.Perm turned.narratives := (List.perm_append_singleton _ _).symm
  exact ⟨(onlyRaised twoFunctions quiet told).raised hmore, by decide +kernel, by decide +kernel,
    (onlyRaised twoFunctions told turned).unordered hturned rfl⟩

end Service

end Report
end CodeAtlas
