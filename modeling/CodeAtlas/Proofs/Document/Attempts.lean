import Mathlib
import CodeAtlas.Proofs.Activity.Proceeds
import CodeAtlas.Proofs.Activity.Series
import CodeAtlas.Proofs.Document.Composing
import CodeAtlas.Proofs.Gate.Confidence

/-! Attempts at a section one by one. What is known after some of them depends on what they came to alone: the latest
draft, with its verdict, and the latest error. Attempts end with the first draft that passes or when there are no
more, and the section is that of the latest draft, or a stand-in with the latest error if there is none. -/
namespace CodeAtlas

namespace Text

/-- A text is not a part of it that is shorter. -/
theorem take_ne_self {n : Nat} {text : String} (h : n < text.toList.length) : take n text ≠ text := by
  intro heq
  have hlength := congrArg (fun s : String => s.toList.length) heq
  simp only [take, String.toList_ofList, List.length_take] at hlength
  omega

theorem length_append_replicate (text : String) (n : Nat) (c : Char) :
    (text ++ String.ofList (List.replicate n c)).toList.length = text.toList.length + n := by
  rw [String.toList_append, String.toList_ofList, List.length_append, List.length_replicate]

end Text

namespace Document

open Activity (Series Span)

variable {σ : Type}

/-- What attempts came to, one after the other. -/
abbrev Results := List (Except Stage.Failure Draft)

namespace Results

/-- The drafts that attempts came to. -/
def drafts (results : Results) : List Draft := results.filterMap Except.toOption

/-- The errors that attempts came to. -/
def errors (results : Results) : List Stage.Failure :=
  results.filterMap fun
    | .ok _ => none
    | .error e => some e

/-- What pieces of work came to. -/
def of (made : List (Span σ (Except Stage.Failure Draft))) : Results := made.map (·.outcome)

theorem drafts_concat_ok (results : Results) (draft : Draft) :
    drafts (results ++ [.ok draft]) = results.drafts ++ [draft] := List.filterMap_append

theorem drafts_concat_error (results : Results) (e : Stage.Failure) :
    drafts (results ++ [.error e]) = results.drafts :=
  List.filterMap_append.trans (List.append_nil _)

theorem errors_concat_ok (results : Results) (draft : Draft) : errors (results ++ [.ok draft]) = results.errors :=
  List.filterMap_append.trans (List.append_nil _)

theorem errors_concat_error (results : Results) (e : Stage.Failure) :
    errors (results ++ [.error e]) = results.errors ++ [e] := List.filterMap_append

/-- Attempts without a draft have errors, if there are any. -/
theorem errors_ne_nil {results : Results} (h : results ≠ []) (hdrafts : results.drafts = []) : results.errors ≠ [] := by
  cases results with
  | nil => exact absurd rfl h
  | cons r rest =>
    cases r with
    | ok draft => cases hdrafts
    | error e => exact List.cons_ne_nil e _

end Results

namespace Writer

section Trials

variable (w : Writer σ) (rules : Gate.Rules)

/-- The verdict on a draft. -/
def verdictOn (draft : Draft) : Gate := Gate.judge w.name rules draft.content

/-- The verdict on the latest draft that attempts came to, which is what the next attempt is given. -/
def feedback (results : Results) : Option Gate := results.drafts.getLast?.map (w.verdictOn rules)

/-- What is known after attempts. -/
def trialAfter (results : Results) : Trial := results.foldl (fun p r => p.note w.name rules r) {}

variable {w rules}

theorem trialAfter_concat (results : Results) (r : Except Stage.Failure Draft) :
    w.trialAfter rules (results ++ [r]) = (w.trialAfter rules results).note w.name rules r := List.foldl_concat ..

/-- The latest draft is known with its verdict, and the latest error by its message. -/
theorem trialAfter_eq (results : Results) :
    w.trialAfter rules results = {
      attempts := results.length
      latest := results.drafts.getLast?.map fun draft => (draft, w.verdictOn rules draft)
      error := results.errors.getLast?.map (·.message) } := by
  induction results using List.reverseRecOn with
  | nil => rfl
  | append_singleton results r ih =>
    rw [trialAfter_concat, ih, List.length_append]
    cases r with
    | ok draft =>
      rw [Results.drafts_concat_ok, Results.errors_concat_ok, List.getLast?_concat]
      rfl
    | error e =>
      rw [Results.drafts_concat_error, Results.errors_concat_error, List.getLast?_concat]
      rfl

theorem latest_trialAfter (results : Results) :
    (w.trialAfter rules results).latest.map (·.2) = w.feedback rules results := by
  rw [trialAfter_eq, Option.map_map]
  rfl

end Trials

/-- Whether an attempt came to a draft that passes. -/
def passes (w : Writer σ) (rules : Gate.Rules) : Except Stage.Failure Draft → Bool
  | .ok draft => (w.verdictOn rules draft).passed
  | .error _ => false

/-- The numbers of attempts at which to stop: the most there may be, and all up to a draft that passes. -/
def stops (w : Writer σ) (rules : Gate.Rules) (most : Nat) (results : Results) : Set Nat :=
  {n | n = most ∨ ∃ k r, n = k + 1 ∧ results[k]? = some r ∧ w.passes rules r}

/-- What the attempts are given that came to `results` after others had come to `earlier`. -/
def feedbacks (w : Writer σ) (rules : Gate.Rules) (earlier results : Results) : List (Option Gate) :=
  (List.range results.length).map fun k => w.feedback rules (earlier ++ results.take k)

section Attempts

variable {w : Writer σ} {source : Source} {rules : Gate.Rules} {earlier results : Results}
  {r : Except Stage.Failure Draft} {left t t₁ : Nat} {s s₁ : σ}

theorem isLeast_stops_zero : IsLeast (w.stops rules 0 []) 0 := ⟨.inl rfl, fun _ _ => Nat.zero_le _⟩

/-- A draft that passes is the last one. -/
theorem isLeast_stops_of_passes (h : w.passes rules r) : IsLeast (w.stops rules (left + 1) [r]) 1 := by
  refine ⟨.inr ⟨0, r, rfl, rfl, h⟩, ?_⟩
  rintro n (rfl | ⟨k, _, rfl, _⟩) <;> exact Nat.le_add_left 1 _

/-- After an attempt that is not the last one it depends on the others where to stop. -/
theorem isLeast_stops_cons (hr : w.passes rules r = false) {n : Nat} (h : IsLeast (w.stops rules left results) n) :
    IsLeast (w.stops rules (left + 1) (r :: results)) (n + 1) := by
  constructor
  · rcases h.1 with rfl | ⟨k, r', rfl, hk, hpasses⟩
    · exact .inl rfl
    · exact .inr ⟨k + 1, r', rfl, hk, hpasses⟩
  · rintro m (rfl | ⟨k, r', rfl, hk, hpasses⟩)
    · exact Nat.succ_le_succ (h.2 (.inl rfl))
    · cases k with
      | zero =>
        -- the first attempt did not pass
        cases hk
        exact absurd hpasses (by simp [hr])
      | succ k => exact Nat.succ_le_succ (h.2 (.inr ⟨k, r', rfl, hk, hpasses⟩))

theorem feedbacks_cons (earlier results : Results) (r : Except Stage.Failure Draft) :
    w.feedbacks rules earlier (r :: results) =
      w.feedback rules earlier :: w.feedbacks rules (earlier ++ [r]) results := by
  simp only [feedbacks, List.length_cons, List.range_succ_eq_map, List.map_cons, List.map_map, List.take_zero,
    List.append_nil, List.cons.injEq, true_and]
  refine List.map_congr_left fun k _ => ?_
  simp [Function.comp_apply]

/-- One attempt before others. -/
theorem series_cons {made : List (Span σ (Except Stage.Failure Draft))} {t' : Nat} {s' : σ}
    (hrun : (w.write source (w.feedback rules earlier)).run t s = .finished r t₁ s₁)
    (h : Series (w.write source) (fun _ => 0) (fun _ => True) (w.feedbacks rules (earlier ++ [r]) (Results.of made)) t₁
      s₁ made t' s') :
    Series (w.write source) (fun _ => 0) (fun _ => True)
      (w.feedbacks rules earlier (Results.of (⟨t, s, t₁, s₁, r⟩ :: made))) t s (⟨t, s, t₁, s₁, r⟩ :: made) t' s' := by
  rw [Results.of, List.map_cons, feedbacks_cons]
  exact .cons hrun trivial h

/-- One attempt. If it comes to a draft that passes, nothing more is done; otherwise the others go on from what is
known then. -/
theorem run_attempt_succ (h : (w.write source (w.feedback rules earlier)).run t s = .finished r t₁ s₁) (left : Nat) :
    (w.attempt source rules (left + 1) (w.trialAfter rules earlier)).run t s =
      if w.passes rules r then .finished (w.trialAfter rules (earlier ++ [r])) t₁ s₁
      else (w.attempt source rules left (w.trialAfter rules (earlier ++ [r]))).run t₁ s₁ := by
  rw [← latest_trialAfter] at h
  have hgoes : (w.attempt source rules (left + 1) (w.trialAfter rules earlier)).run t s = _ :=
    Activity.run_andThen_of_run h _
  rw [hgoes, trialAfter_concat]
  cases r with
  | error e => rfl
  | ok draft =>
    show (if (w.verdictOn rules draft).passed then _ else _ : Activity σ Trial).run t₁ s₁ =
      if (w.verdictOn rules draft).passed then _ else _
    split <;> rfl

/-- How attempts come to an end after others came to `earlier`, when `left` more are allowed. -/
structure Ended (w : Writer σ) (source : Source) (rules : Gate.Rules) (earlier : Results) (left t : Nat) (s : σ)
    (made : List (Span σ (Except Stage.Failure Draft))) (t' : Nat) (s' : σ) : Prop where
  calls : Series (w.write source) (fun _ => 0) (fun _ => True) (w.feedbacks rules earlier (Results.of made)) t s made
    t' s'
  run : (w.attempt source rules left (w.trialAfter rules earlier)).run t s =
    .finished (w.trialAfter rules (earlier ++ Results.of made)) t' s'
  count : IsLeast (w.stops rules left (Results.of made)) made.length

/-- Attempts go on until a draft passes, or until none is left. -/
theorem exists_ended (hw : ∀ verdict t s, ∃ r t' s', (w.write source verdict).run t s = .finished r t' s')
    (rules : Gate.Rules) (earlier : Results) (left t : Nat) (s : σ) :
    ∃ made t' s', w.Ended source rules earlier left t s made t' s' := by
  induction left generalizing earlier t s with
  | zero =>
    refine ⟨[], t, s, .nil t s, ?_, isLeast_stops_zero⟩
    show Activity.Outcome.finished (w.trialAfter rules earlier) t s = .finished (w.trialAfter rules (earlier ++ [])) t s
    rw [List.append_nil]
  | succ left ih =>
    obtain ⟨r, t₁, s₁, hrun⟩ := hw (w.feedback rules earlier) t s
    have hstep := run_attempt_succ hrun left
    cases hpasses : w.passes rules r with
    | true =>
      rw [if_pos hpasses] at hstep
      exact ⟨[⟨t, s, t₁, s₁, r⟩], t₁, s₁, series_cons hrun (.nil t₁ s₁), hstep, isLeast_stops_of_passes hpasses⟩
    | false =>
      rw [if_neg (by simp [hpasses])] at hstep
      obtain ⟨made, t', s', hcalls, hgoes, hcount⟩ := ih (earlier ++ [r]) t₁ s₁
      refine ⟨_, t', s', series_cons hrun hcalls, ?_, isLeast_stops_cons hpasses hcount⟩
      rw [hstep, hgoes, List.append_assoc]
      rfl

end Attempts

/-- What a section has of the latest draft. -/
structure Shows (w : Writer σ) (rules : Gate.Rules) (quality : Settings.Quality) (draft : Draft) (x : Section) :
    Prop where
  /-- A warning stands before the content when the confidence is too low. -/
  content : x.content =
    if quality.lowConfidenceThreshold ≤ x.confidence then draft.content
    else "[Low confidence: " ++ Decimal.fixed 2 x.confidence ++ "] " ++ draft.content
  citations : x.citations = draft.citations
  gate : x.gate = some (w.verdictOn rules draft)
  degraded : x.degraded = true ↔ (w.verdictOn rules draft).passed = false
  confidence : draft.confidence.isFinite →
    quality.confidenceFloor ≤ x.confidence ∧ x.confidence ≤ quality.confidenceCeiling

/-- How a section comes about: `made` are the attempts at it. -/
structure Composition (w : Writer σ) (source : Source) (rules : Gate.Rules) (quality : Settings.Quality) (t : Moment)
    (s : σ) (made : List (Span σ (Except Stage.Failure Draft))) (t' : Moment) (s' : σ) (x : Section) : Prop where
  /-- The attempts follow one another and nothing else is done. Each is given the verdict on the latest draft before.
  -/
  calls : Series (w.write source) (fun _ => 0) (fun _ => True)
    ((List.range made.length).map fun k => w.feedback rules ((Results.of made).take k)) t s made t' s'
  run : (w.compose source rules quality).run t s = .finished x t' s'
  attempts : x.attempts = made.length
  /-- There are as many attempts as the rules allow, and at least one, or fewer if an earlier draft passes. -/
  count : IsLeast (w.stops rules (max 1 rules.maxIterations) (Results.of made)) made.length
  latest : ∀ draft, (Results.of made).drafts.getLast? = some draft → w.Shows rules quality draft x
  standIn : (∃ message attempts, x = .standIn w.name w.title message attempts) ↔ (Results.of made).drafts = []
  /-- A stand-in has the latest error. -/
  error : (Results.of made).drafts = [] →
    ∃ e, (Results.of made).errors.getLast? = some e ∧ x = .standIn w.name w.title e.message made.length

section Sections

variable {w : Writer σ} {source : Source} {rules : Gate.Rules} {quality : Settings.Quality} {results : Results}
  {draft : Draft} {confidence : Float} {attempts t t' : Nat} {s s' : σ}

theorem shows_sectionOf
    (h : Gate.scaled? draft.confidence (w.verdictOn rules draft).score quality.confidenceFloor
      quality.confidenceCeiling = some confidence) :
    w.Shows rules quality draft (w.sectionOf quality attempts draft (w.verdictOn rules draft) confidence) where
  content := apply_ite Prod.fst ..
  citations := rfl
  gate := rfl
  degraded := Bool.not_eq_true' _ ▸ Iff.rfl
  confidence hfinite := Gate.scaled?_bounds hfinite h

theorem sectionOf_ne_standIn (verdict : Gate) (message : String) (n : Nat) :
    w.sectionOf quality attempts draft verdict confidence ≠ .standIn w.name w.title message n :=
  fun h => Option.some_ne_none _ (congrArg Section.gate h)

section Runs

variable
  (h : (w.attempt source rules (max 1 rules.maxIterations) {}).run t s = .finished (w.trialAfter rules results) t' s')

include h

/-- After attempts without a draft there is a stand-in. -/
theorem run_compose_standIn {e : Stage.Failure} (hdrafts : results.drafts = [])
    (he : results.errors.getLast? = some e) :
    (w.compose source rules quality).run t s =
      .finished (.standIn w.name w.title e.message results.length) t' s' := by
  have hgoes : (w.compose source rules quality).run t s = _ := Activity.run_andThen_of_run h _
  rw [hgoes, trialAfter_eq, hdrafts, he]
  rfl

/-- After attempts with a draft there is the section that the latest one becomes. -/
theorem run_compose_sectionOf (hdraft : results.drafts.getLast? = some draft)
    (hconfidence : Gate.scaled? draft.confidence (w.verdictOn rules draft).score quality.confidenceFloor
      quality.confidenceCeiling = some confidence) :
    (w.compose source rules quality).run t s =
      .finished (w.sectionOf quality results.length draft (w.verdictOn rules draft) confidence) t' s' := by
  have hgoes : (w.compose source rules quality).run t s = _ := Activity.run_andThen_of_run h _
  rw [hgoes, trialAfter_eq, hdraft]
  show (w.finish quality results.length draft (w.verdictOn rules draft)).run t' s' = _
  rw [finish, hconfidence]
  rfl

end Runs

end Sections

/-- Every way in which a section comes about, whatever its writer comes to. -/
theorem exists_composition (w : Writer σ) (source : Source) (rules : Gate.Rules) (quality : Settings.Quality)
    (hbounds : quality.confidenceFloor ≤ quality.confidenceCeiling)
    (hw : ∀ verdict t s, ∃ r t' s', (w.write source verdict).run t s = .finished r t' s') (t : Moment) (s : σ) :
    ∃ made t' s' x, w.Composition source rules quality t s made t' s' x := by
  obtain ⟨made, t', s', hcalls, hrun, hcount⟩ := exists_ended hw rules [] (max 1 rules.maxIterations) t s
  have hlength : (Results.of made).length = made.length := List.length_map _
  simp only [feedbacks, hlength, List.nil_append] at hcalls hrun
  cases hlatest : (Results.of made).drafts.getLast? with
  | none =>
    have hdrafts : (Results.of made).drafts = [] := List.getLast?_eq_none_iff.mp hlatest
    -- there is at least one attempt, so that without a draft there is an error
    have hresults : Results.of made ≠ [] := by
      intro hnil
      rw [hnil, List.length_nil] at hlength
      rcases hcount.1 with hmost | ⟨k, _, hk, _⟩ <;> omega
    obtain ⟨e, he⟩ := Option.ne_none_iff_exists'.mp
      (mt List.getLast?_eq_none_iff.mp (Results.errors_ne_nil hresults hdrafts))
    exact ⟨made, t', s', _, {
      calls := hcalls
      run := run_compose_standIn hrun hdrafts he
      attempts := hlength
      count := hcount
      latest := fun draft hdraft => nomatch hlatest.symm.trans hdraft
      standIn := iff_of_true ⟨_, _, rfl⟩ hdrafts
      error := fun _ => ⟨e, he, hlength ▸ rfl⟩ }⟩
  | some draft =>
    obtain ⟨confidence, hconfidence⟩ := Option.isSome_iff_exists.mp
      (Gate.isSome_clamp?_iff (x := draft.confidence * (w.verdictOn rules draft).score).mpr hbounds)
    have hdrafts : (Results.of made).drafts ≠ [] := fun hnil => by simp [hnil] at hlatest
    exact ⟨made, t', s', _, {
      calls := hcalls
      run := run_compose_sectionOf hrun hlatest hconfidence
      attempts := hlength
      count := hcount
      latest := fun draft' hdraft' => Option.some.inj (hlatest.symm.trans hdraft') ▸ shows_sectionOf hconfidence
      standIn := iff_of_false (fun ⟨_, _, h⟩ => sectionOf_ne_standIn _ _ _ h) hdrafts
      error := fun hnil => absurd hnil hdrafts }⟩

/-- A writer for whom it is laid down what each attempt comes to. -/
def scripted (name title : String) : Writer Results where
  name := name
  title := title
  write _ _ := Activity.update fun _ results =>
    match results with
    | [] => (.error (.refused name "nothing is laid down"), [])
    | r :: rest => (r, rest)

theorem scripted_finishes (name title : String) (source : Source) (verdict : Option Gate) (t : Moment)
    (results : Results) :
    ∃ r t' rest, (((scripted name title).write source verdict).run t results) = .finished r t' rest := by
  cases results with
  | nil => exact ⟨_, t, _, rfl⟩
  | cons r rest => exact ⟨r, t, rest, rfl⟩

/-- A draft that is too short. -/
def shortDraft : Draft := { content := "too short", confidence := 0.5 }

/-- An error that is too long to be shown. -/
def longFailure : Stage.Failure := .refused "notes" (String.ofList (List.replicate 200 'e'))

/-- What a section is written from before anything is known. -/
def emptySource : Source := { atlas := ⟨"shop", .empty, .empty⟩ }

theorem exists_composition_scripted :
    Settings.Quality.confidenceFloor {} ≤ Settings.Quality.confidenceCeiling {} ∧
      ∃ made t' rest x, (scripted "notes" "Notes").Composition emptySource {} {} 0
        [.ok shortDraft, .error longFailure] made t' rest x := by
  have hbounds : Settings.Quality.confidenceFloor {} ≤ Settings.Quality.confidenceCeiling {} := by decide +kernel
  exact ⟨hbounds, exists_composition _ _ _ _ hbounds (scripted_finishes _ _ _) _ _⟩

/-- A section does not always have the content of the latest draft, nor a stand-in the whole of the latest error. -/
theorem content_and_error_changed :
    (∃ x, ((scripted "notes" "Notes").compose emptySource {} {}).run 0 [.ok shortDraft, .ok shortDraft] =
        .finished x 0 [] ∧ x.content ≠ shortDraft.content) ∧
      ∃ x, ((scripted "notes" "Notes").compose emptySource {} {}).run 0 [.error longFailure, .error longFailure] =
        .finished x 0 [] ∧ x.error ≠ some longFailure.message := by
  refine ⟨⟨_, rfl, by decide +kernel⟩, ⟨_, rfl, fun h => ?_⟩⟩
  have hlength : longFailure.message.toList.length = ("notes" ++ " failed: ").toList.length + 200 :=
    Text.length_append_replicate ("notes" ++ " failed: ") 200 'e'
  have hlong : maxErrorLength < longFailure.message.toList.length := by
    rw [hlength]
    decide
  exact Text.take_ne_self hlong (Option.some.inj h)

end Writer
end Document
end CodeAtlas
