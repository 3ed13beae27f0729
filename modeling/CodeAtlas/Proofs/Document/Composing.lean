import CodeAtlas.Document.Writer
import CodeAtlas.Proofs.Activity.TurnsOut

/-! What comes of composing a section, in terms of what its writer comes to in each attempt: the latest draft counts,
and a section has a stand-in only when every attempt ended in an error. -/
namespace CodeAtlas
namespace Document

open Activity (Immediate TurnsOut)

variable {σ : Type}

namespace Writer

/-- What a writer has come to in the attempts at a section, and what is known after them. Each attempt is given the
verdict on the latest draft before it. -/
inductive Attempted (w : Writer σ) (source : Source) (rules : Gate.Rules) :
    List (Except Stage.Failure Draft) → Trial → Prop
  | start : Attempted w source rules [] {}
  | more {results : List (Except Stage.Failure Draft)} {p : Trial} {result : Except Stage.Failure Draft} :
      Attempted w source rules results p → (w.write source (p.latest.map (·.2))).MayEnd (.ok result) →
      Attempted w source rules (results ++ [result]) (p.note w.name rules result)

/-- The section that an accepted draft becomes. -/
def sectionOf (w : Writer σ) (quality : Settings.Quality) (attempts : Nat) (draft : Draft) (verdict : Gate)
    (confidence : Float) : Section where
  name := w.name
  title := w.title
  content := (Gate.withWarning draft.content confidence quality.lowConfidenceThreshold).1
  confidence := confidence
  citations := draft.citations
  attempts := attempts
  gate := some verdict
  degraded := !verdict.passed
  lowConfidence := (Gate.withWarning draft.content confidence quality.lowConfidenceThreshold).2
  error := none

/-- A section that has been composed, given what its writer has come to. -/
inductive Composed (w : Writer σ) (source : Source) (rules : Gate.Rules) (quality : Settings.Quality) : Section → Prop
  | standIn {results : List (Except Stage.Failure Draft)} {p : Trial} {error : String} :
      w.Attempted source rules results p → results ≠ [] → (∀ r ∈ results, ∃ e, r = .error e) →
      Composed w source rules quality (.standIn w.name w.title error results.length)
  | drafted {results : List (Except Stage.Failure Draft)} {p : Trial} {draft : Draft} {verdict : Gate}
      {confidence : Float} : w.Attempted source rules results p → .ok draft ∈ results →
      p.latest = some (draft, verdict) → verdict = Gate.judge w.name rules draft.content →
      Gate.scaled? draft.confidence verdict.score quality.confidenceFloor quality.confidenceCeiling =
        some confidence →
      Composed w source rules quality (w.sectionOf quality results.length draft verdict confidence)

section Attempts

variable {w : Writer σ} {source : Source} {rules : Gate.Rules} {results : List (Except Stage.Failure Draft)} {p : Trial}

theorem Attempted.attempts_eq (h : w.Attempted source rules results p) : p.attempts = results.length := by
  induction h with
  | start => rfl
  | @more results p result _ _ ih =>
    rw [List.length_append, List.length_singleton, ← ih]
    cases result <;> rfl

/-- Each attempt came to something that the writer can come to. -/
theorem Attempted.mayEnd (h : w.Attempted source rules results p) :
    ∀ result ∈ results, ∃ verdict, (w.write source verdict).MayEnd (.ok result) := by
  induction h with
  | start => nofun
  | @more results p last _ hlast ih =>
    intro result hresult
    rcases List.mem_append.mp hresult with hresult | hresult
    · exact ih result hresult
    · rw [List.mem_singleton.mp hresult]
      exact ⟨_, hlast⟩

/-- There is a draft unless every attempt ended in an error. -/
theorem Attempted.latest_cases (h : w.Attempted source rules results p) :
    (p.latest = none ∧ ∀ r ∈ results, ∃ e, r = .error e) ∨
      ∃ draft, .ok draft ∈ results ∧ p.latest = some (draft, Gate.judge w.name rules draft.content) := by
  induction h with
  | start => exact .inl ⟨rfl, nofun⟩
  | @more results p result _ _ ih =>
    cases result with
    | ok draft => exact .inr ⟨draft, by simp, rfl⟩
    | error e =>
      rcases ih with ⟨hlatest, herrors⟩ | ⟨draft, hdraft, hlatest⟩
      · refine .inl ⟨hlatest, fun r hr => ?_⟩
        rcases List.mem_append.mp hr with hr | hr
        · exact herrors r hr
        · exact ⟨e, List.mem_singleton.mp hr⟩
      · exact .inr ⟨draft, List.mem_append_left _ hdraft, hlatest⟩

end Attempts

/-- Attempts of which there have been so many at least and at most, unless they crash. -/
def TriedOften (w : Writer σ) (source : Source) (rules : Gate.Rules) (least most : Nat) (r : Except String Trial) :
    Prop :=
  ∀ p, r = .ok p → ∃ results, w.Attempted source rules results p ∧ least ≤ results.length ∧ results.length ≤ most

section Turns

variable {w : Writer σ} {source : Source} {rules : Gate.Rules} (hw : ∀ verdict, (w.write source verdict).Ceases)

include hw

omit hw in
theorem TriedOften.mono {least least' most most' : Nat} {r : Except String Trial}
    (h : w.TriedOften source rules least most r) (hleast : least' ≤ least) (hmost : most ≤ most') :
    w.TriedOften source rules least' most' r := by
  intro p hp
  obtain ⟨results, hresults, hge, hle⟩ := h p hp
  exact ⟨results, hresults, Nat.le_trans hleast hge, Nat.le_trans hle hmost⟩

/-- Attempts come to an end, at least one and at most as many as there may be. -/
theorem turnsOut_attempt (left : Nat) {results : List (Except Stage.Failure Draft)} {p : Trial}
    (h : w.Attempted source rules results p) (t : Moment) :
    (w.attempt source rules left p).TurnsOut False
      (fun r _ => w.TriedOften source rules (results.length + min 1 left) (results.length + left) r) t := by
  induction left generalizing results p t with
  | zero =>
    intro p' hp'
    cases hp'
    exact ⟨results, h, Nat.le_refl _, Nat.le_refl _⟩
  | succ left ih =>
    refine (hw _ t).mayEnd.andThen ?_ fun _ _ _ _ => nofun
    rintro result t' - ⟨-, hresult⟩
    have hlength : (results ++ [result]).length = results.length + 1 := List.length_append
    have hnext := h.more hresult
    have hleast : results.length + min 1 (left + 1) ≤ (results ++ [result]).length + min 1 left := by omega
    have hmost : (results ++ [result]).length + left ≤ results.length + (left + 1) := by omega
    have hon := (ih hnext t').mono id fun _ _ _ hr => TriedOften.mono hr hleast hmost
    dsimp only
    split
    · split
      · rintro p' ⟨⟩
        exact ⟨_, hnext, by omega, by omega⟩
      · exact hon
    · exact hon

/-- Composing a section comes to an end; unless it crashes, a section has been composed. -/
theorem turnsOut_compose (quality : Settings.Quality) (t : Moment) :
    (w.compose source rules quality).TurnsOut False
      (fun r _ => (∀ s, r = .ok s → w.Composed source rules quality s) ∧
        (w.compose source rules quality).MayEnd r) t := by
  refine TurnsOut.mayEnd ((turnsOut_attempt hw _ .start t).andThen ?_ fun _ _ _ _ => nofun)
  intro p t' _ hp
  obtain ⟨results, hattempted, hmore, _⟩ := hp p rfl
  have hresults : results ≠ [] := by
    rintro rfl
    have hone : 1 ≤ max 1 rules.maxIterations := Nat.le_max_left 1 _
    rw [Nat.min_eq_left hone] at hmore
    cases hmore
  rcases hattempted.latest_cases with ⟨hlatest, herrors⟩ | ⟨draft, hdraft, hlatest⟩
  · rw [hlatest]
    rintro s ⟨⟩
    rw [hattempted.attempts_eq]
    exact .standIn hattempted hresults herrors
  · rw [hlatest]
    unfold finish
    dsimp only
    split
    · nofun
    · next confidence hconfidence =>
      rintro s ⟨⟩
      rw [hattempted.attempts_eq]
      exact .drafted hattempted hdraft hlatest rfl hconfidence

end Turns

end Writer

end Document
end CodeAtlas
