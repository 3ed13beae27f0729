import CodeAtlas.Proofs.Gate.Confidence
import CodeAtlas.Proofs.Guard.Traffic
import CodeAtlas.Proofs.Retrieval.Room
import CodeAtlas.Proofs.Survey.Law

/-! Which settings a program can run with. Settings without a flaw have bounds of confidence that every confidence can
be put between; no flaw says that a time is too long for the clock or a count too great, and a program that runs with
such settings crashes. -/
namespace CodeAtlas

open Activity (Safe TurnsOut)

namespace Settings

/-- The limits of all breakers. -/
def Resilience.breakers (r : Resilience) : List BreakerLimits := [r.models, r.embedding, r.vector]

/-- Settings whose times the clock can show up to a moment, and whose counts are not too great. -/
structure WithinLimits (s : Settings) (last : Moment) : Prop where
  analysis : (last.after? s.analysisTimeout).isSome
  windows : ∀ l ∈ s.resilience.breakers, (last.after? (.ofSeconds l.recoverySeconds)).isSome
  capacity : s.analysis.sections ≠ [] → s.analysis.maxConcurrency ≤ StageGroup.maxCapacity
  results : s.retrieval.maxResults ≤ Retriever.maxRoom

/-- Settings with which nothing crashes up to a moment on account of a number in them: the deadline of both readings
and the time beyond it, the windows of breakers, the capacity for sections, the room for results, and the bounds of
confidences. -/
structure Runnable (s : Settings) (last : Moment) : Prop where
  reads : ∀ {σ : Type} [Nonempty σ] (v : Surveyor σ), v.settings = s → ∀ project r survey t, t ≤ last →
    (v.readBothWays project r survey).Concludes t
  grace : s.analysisTimeout + Surveyor.grace < .ofSeconds (Width.size 64)
  opens : ∀ l ∈ s.resilience.breakers, ∀ b : Breaker, b.limits = .ofSettings l → ∀ t, t ≤ last → ∀ booking,
    (b.settle t booking).1.isSome
  writes : ∀ {σ : Type} [Nonempty σ] (v : Surveyor σ), v.settings = s → ∀ source survey,
    (v.write source survey).Safe
  retrieves : ∀ {σ : Type} (r : Retriever σ), r.settings = s.retrieval → r.Reliable → ∀ project question,
    (r.retrieve project question).Safe
  judges : ∀ confidence score,
    (Gate.scaled? confidence score s.quality.confidenceFloor s.quality.confidenceCeiling).isSome

theorem boundsFit_of_flaw? {s : Settings} (h : s.flaw? = none) : s.quality.boundsFit := by
  unfold flaw? at h
  split_ifs at h with _ _ _ hnot
  simpa using hnot

end Settings

namespace Surveyor

variable {σ : Type} {v : Surveyor σ} {t : Moment}

/-- Both readings crash when the clock cannot show their deadline. -/
theorem crashes_readBothWays (h : t.after? v.settings.analysisTimeout = none) (project : String) (r : Repository)
    (survey : Survey) :
    (v.readBothWays project r survey).TurnsOut False (fun result _ => result = .error clockMessage) t := by
  refine TurnsOut.andThen_of_immediate (.modify _) fun _ _ => TurnsOut.now_andThen ?_
  rw [h]
  rfl

/-- So does the whole survey. -/
theorem crashes_run (hnewId : v.newId.Immediate fun _ => True) (project : String)
    (hfetch : (v.fetch project).TurnsOut False
      (fun result stop => ∃ r, result = .ok (.ok r) ∧ stop.after? v.settings.analysisTimeout = none) t) :
    (v.run project).TurnsOut False (fun result _ => result = .error clockMessage) t := by
  refine TurnsOut.now_andThen (TurnsOut.andThen_of_immediate hnewId fun _ _ => ?_)
  refine TurnsOut.andThen_of_immediate (.modify _) fun _ _ => ?_
  refine (Stage.turnsOut_perform "ingestion" hfetch).andThen ?_ ?_
  · rintro report t₁ - ⟨_, ⟨r, rfl, hclock⟩, ⟨⟩⟩
    refine TurnsOut.andThen_of_immediate (v.immediate_note _ _ repositoryLine) ?_
    rintro _ rfl
    refine TurnsOut.andThen_of_crash (TurnsOut.andThen_of_crash ?_)
    exact (crashes_readBothWays hclock _ r _).mono id fun _ _ _ hm => ⟨_, hm, _, rfl, rfl⟩
  · rintro m t₁ - ⟨_, _, ⟨⟩⟩

/-- Writing the sections crashes when their group is to have too great a capacity. -/
theorem crashes_write (hsections : v.settings.analysis.sections ≠ [])
    (h : StageGroup.maxCapacity < v.settings.analysis.maxConcurrency) (source : Document.Source) (survey : Survey) :
    ∀ t, (v.write source survey).TurnsOut False (fun result _ => result = .error StageGroup.capacityMessage) t := by
  intro t
  refine TurnsOut.andThen_of_immediate (.modify _) fun _ _ => TurnsOut.andThen_of_crash ?_
  unfold StageGroup.run
  rw [if_neg, if_pos]
  · exact ⟨_, rfl, rfl⟩
  · simpa using h
  · simpa using hsections

/-- With a capacity that a group can have, writing the sections does not crash, whatever their writers do. -/
theorem safe_write [Nonempty σ]
    (h : v.settings.analysis.sections ≠ [] → v.settings.analysis.maxConcurrency ≤ StageGroup.maxCapacity)
    (source : Document.Source) (survey : Survey) : (v.write source survey).Safe := by
  intro t
  have hgroup : (v.writingGroup source).run.TurnsOut True (fun result _ => ∃ reports, result = .ok reports) t := by
    by_cases hsections : v.settings.analysis.sections = []
    · unfold StageGroup.run writingGroup
      rw [hsections]
      exact ⟨[], rfl⟩
    · have hroom : ∀ c, (v.writingGroup source).capacity = some c → c ≤ StageGroup.maxCapacity := by
        rintro c ⟨⟩
        exact h hsections
      refine (StageGroup.turnsOut_run hroom fun _ s _ t' _ _ => TurnsOut.trivial s.work t').mono (fun _ => trivial) ?_
      rintro _ _ - ⟨reports, rfl, -⟩
      exact ⟨reports, rfl⟩
  refine TurnsOut.andThen_of_immediate (.modify _) fun _ _ => hgroup.andThen ?_ ?_
  · rintro reports t' - -
    exact (v.immediate_noteSections _ survey t').mono False.elim fun _ _ _ ⟨_, written, hwritten, _⟩ =>
      ⟨written, hwritten⟩
  · rintro m t' - ⟨_, ⟨⟩⟩

end Surveyor

namespace Settings

variable {s : Settings} {last : Moment}

theorem WithinLimits.runnable (h : s.WithinLimits last) (hfits : s.quality.boundsFit) : s.Runnable last where
  reads v hv project r survey t ht := by
    have hclock := Moment.isSome_after?_of_le ht h.analysis
    rw [← hv] at hclock
    obtain ⟨deadline, hdeadline⟩ := Option.isSome_iff_exists.mp hclock
    refine ⟨(Surveyor.turnsOut_readBothWays hdeadline (TurnsOut.trivial _ t) survey).mono id ?_⟩
    rintro _ _ - ⟨_, _, harvests, rfl, -⟩
    exact ⟨_, rfl⟩
  grace := by
    have hseconds : Moment.lastSecond + 1 + 5 ≤ Width.size 64 := by decide
    calc s.analysisTimeout + Surveyor.grace
      _ < .ofSeconds (Moment.lastSecond + 1) + .ofSeconds 5 :=
        Nat.add_lt_add_right (Moment.lt_ofSeconds_of_after? h.analysis) _
      _ = .ofSeconds (Moment.lastSecond + 1 + 5) := (Nat.add_mul _ _ _).symm
      _ ≤ .ofSeconds (Width.size 64) := Nat.mul_le_mul_right _ hseconds
  opens l hl b hb t ht booking := by
    have hwindow : b.CanOpen t := by
      unfold Breaker.CanOpen
      rw [hb]
      exact Moment.isSome_after?_of_le ht (h.windows l hl)
    rcases Breaker.settle_cases b t booking with hsettle | ⟨hnot, _⟩
    · rw [hsettle]
      rfl
    · exact absurd hwindow hnot
  writes v hv source survey := by
    subst hv
    exact Surveyor.safe_write h.capacity source survey
  retrieves r hr hreliable project question := Retriever.safe_retrieve hreliable (hr ▸ h.results) project question
  judges := Gate.isSome_scaled? hfits

/-- A surveyor with some settings. -/
def surveyor (s : Settings) : Surveyor Unit := Surveyor.recalling (fun _ _ => .done (.error .noEmbedding)) s

theorem Runnable.withinLimits (h : s.Runnable last) : s.WithinLimits last where
  analysis := by
    by_contra hnot
    have hcrash := Surveyor.crashes_readBothWays (v := s.surveyor) (Option.not_isSome_iff_eq_none.mp hnot) "p"
      Surveyor.oneChunk Surveyor.begun
    have hreads := (h.reads s.surveyor rfl "p" Surveyor.oneChunk Surveyor.begun last (Nat.le_refl last)).turnsOut
    rcases (hcrash.and hreads).exists_outcome with hfalse | ⟨_, _, _, rfl, _, ⟨⟩⟩
    exact hfalse.1
  windows l hl := by
    let b : Breaker := { Breaker.new (.ofSettings l) with state := .halfOpen }
    have hopens := h.opens l hl b rfl last (Nat.le_refl last) .failure
    rcases Breaker.settle_of_opens b last .failure rfl rfl with ⟨hcan, _⟩ | ⟨_, hsettle⟩
    · exact hcan
    · rw [hsettle] at hopens
      cases hopens
  capacity hsections := by
    by_contra hnot
    let source : Document.Source := { atlas := ⟨"p", .empty, .empty⟩ }
    have hcrash := Surveyor.crashes_write (v := s.surveyor) hsections (Nat.not_le.mp hnot) source Surveyor.begun last
    have hwrites := h.writes s.surveyor rfl source Surveyor.begun last
    rcases (hcrash.and hwrites).exists_outcome with hfalse | ⟨_, _, _, rfl, _, ⟨⟩⟩
    exact hfalse.1
  results := by
    by_contra hnot
    have hsafe := h.retrieves (Retriever.idle s.surveyor.models s.retrieval) rfl
      (Retriever.reliable_idle s.surveyor.models s.retrieval) "p" "q" 0
    obtain ⟨m, hcrash⟩ := Retriever.exists_crash_idle s.surveyor.models s.retrieval (Nat.not_le.mp hnot) "p" "q"
    rw [hcrash] at hsafe
    obtain ⟨_, ⟨⟩⟩ := hsafe

/-- Settings without a flaw can be run with exactly when their times and counts are within limits. -/
theorem runnable_iff_withinLimits (h : s.flaw? = none) (last : Moment) : s.Runnable last ↔ s.WithinLimits last :=
  ⟨Runnable.withinLimits, fun hlimits => hlimits.runnable (boundsFit_of_flaw? h)⟩

theorem runnable_iff_withinLimits_default :
    ({} : Settings).flaw? = none ∧ ({} : Settings).WithinLimits 0 ∧
      (({} : Settings).Runnable 0 ↔ ({} : Settings).WithinLimits 0) := by
  refine ⟨rfl, ⟨?_, ?_, ?_, ?_⟩, runnable_iff_withinLimits rfl 0⟩
  · rw [Surveyor.after?_analysisTimeout]
    rfl
  · decide
  · decide
  · decide

/-- The settings with the longest time that can be written down for both readings. -/
def endless : Settings := { analysis := { timeoutSeconds := Width.size 64 - 1 } }

/-- No flaw is found in them, but a survey crashes. -/
theorem endless_crashes : endless.flaw? = none ∧
    ∃ stop, (endless.surveyor.run "p").run 0 () = .crashed Surveyor.clockMessage stop () := by
  have hclock : (0 : Moment).after? endless.surveyor.settings.analysisTimeout = none :=
    Moment.after?_ofSeconds_eq_none Moment.lastSecond_lt_wide
  have hcrash := Surveyor.crashes_run (v := endless.surveyor) (.done trivial) "p" ⟨Surveyor.oneChunk, rfl, hclock⟩
  refine ⟨rfl, ?_⟩
  rcases hcrash.run () with ⟨_, _, _, _, ⟨⟩⟩ | ⟨_, stop, _, hrun, ⟨⟩⟩ | ⟨_, _, _, hfalse⟩
  · exact ⟨stop, hrun⟩
  · exact hfalse.elim

end Settings

end CodeAtlas
