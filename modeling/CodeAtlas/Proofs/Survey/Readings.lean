import CodeAtlas.Proofs.Activity.Series
import CodeAtlas.Proofs.Findings.Deadline
import CodeAtlas.Proofs.Findings.Reading
import CodeAtlas.Proofs.Guard.Traffic
import CodeAtlas.Proofs.Stage.Groups
import CodeAtlas.Survey.Surveyor

/-! Both readings of a repository, the scanner's and the models'. Whatever the scanner does, every chunk that the models
have read by the deadline counts, as long as storing the vectors comes to an end before the group's time is up. A
storing that takes longer, or crashes, takes all readings with it. -/
namespace CodeAtlas
namespace Surveyor

open Activity (Immediate TurnsOut)

variable {σ : Type}

theorem immediate_note {α : Type} (v : Surveyor σ) (survey : Survey) (report : Stage.Report α) (detail : α → String) :
    (v.note survey report detail).Immediate
      fun survey' => survey' = { survey with stages := survey.stages ++ [report.status] } :=
  (Immediate.modify _).andThen fun _ _ => .done rfl

/-- Every reading is put on record, and what it brought is taken in. -/
theorem immediate_noteReadings (v : Surveyor σ) (reports : List (Stage.Report Harvest)) (survey : Survey)
    (harvests : Harvests) :
    (v.noteReadings reports (survey, harvests)).Immediate fun done =>
      done = ({ survey with stages := survey.stages ++ reports.map (·.status) },
        reports.foldl (fun h report => h.add report.output?) harvests) := by
  induction reports generalizing survey harvests with
  | nil => exact .done (by simp)
  | cons report rest ih =>
    refine (v.immediate_note survey report Harvest.line).andThen ?_
    rintro _ rfl
    simpa [List.append_assoc] using ih { survey with stages := survey.stages ++ [report.status] }
      (harvests.add report.output?)

/-- The two readings of a repository, with a deadline for the models. -/
def readingGroup (v : Surveyor σ) (project : String) (r : Repository) (deadline : Moment) : StageGroup σ Harvest where
  name := "dual_analysis"
  stages := [⟨"static", v.scanAll r.chunks⟩, ⟨Analyst.stage, v.readAll project r deadline⟩]
  timeout := some (v.settings.analysisTimeout + grace)

/-- When the time for both readings is up that have begun at a moment. -/
def readingLimit (v : Surveyor σ) (t : Moment) : Moment := Duration.roundUp (t + (v.settings.analysisTimeout + grace))

/-- The scanner brings nothing but facts. -/
def ScanPost (result : Except String (Except Stage.Failure Harvest)) : Prop :=
  ∀ h, result = .ok (.ok h) → ∃ f, h = .facts f

/-- The models' reading comes out as the analysis does. -/
def ReadPost (analyzed : Except String Findings → Moment → Prop) (result : Except String (Except Stage.Failure Harvest))
    (stop : Moment) : Prop :=
  ∃ out, analyzed out stop ∧ result = out.map fun findings => .ok (.findings findings)

theorem turnsOut_scanAll (v : Surveyor σ) (chunks : List Chunk) (t : Moment) :
    (v.scanAll chunks).TurnsOut True (fun result _ => ScanPost result) t := by
  refine (TurnsOut.trivial _ t).andThen (fun parts _ _ _ => ?_) fun m _ _ _ => nofun
  intro h hh
  simp only [Except.ok.injEq] at hh
  cases hgather : gather parts with
  | ok facts =>
    rw [hgather] at hh
    cases hh
    exact ⟨facts, rfl⟩
  | error e =>
    rw [hgather] at hh
    cases hh

theorem turnsOut_modelReading {v : Surveyor σ} {project : String} {r : Repository} {deadline t : Moment} {stalls : Prop}
    {analyzed : Except String Findings → Moment → Prop}
    (h : (v.analyst.analyze project r.commit r.chunks (some deadline)).TurnsOut stalls analyzed t) :
    (v.readAll project r deadline).TurnsOut stalls (ReadPost analyzed) t :=
  h.andThen (fun findings _ _ hanalyzed => ⟨.ok findings, hanalyzed, rfl⟩)
    fun m _ _ hanalyzed => ⟨.error m, hanalyzed, rfl⟩

section Group

variable [Nonempty σ] {v : Surveyor σ} {project : String} {r : Repository} {t deadline : Moment} {stalls : Prop}
  {analyzed : Except String Findings → Moment → Prop}

/-- Both readings come to an end that is reported, whatever they do. -/
theorem turnsOut_readingGroup
    (h : (v.analyst.analyze project r.commit r.chunks (some deadline)).TurnsOut stalls analyzed t) :
    (v.readingGroup project r deadline).run.TurnsOut False
      (fun result _ => ∃ scanned read, result = .ok [scanned, read] ∧ scanned.name = "static" ∧
        read.name = Analyst.stage ∧ (∀ h, scanned.output? = some h → ∃ f, h = .facts f) ∧
        (v.readingGroup project r deadline).Tells (some (v.readingLimit t))
          ⟨Analyst.stage, v.readAll project r deadline⟩ stalls (ReadPost analyzed) read) t := by
  let posts : Nat → Prop × (Except String (Except Stage.Failure Harvest) → Moment → Prop) := fun i =>
    if i = 0 then (True, fun result _ => ScanPost result) else (stalls, ReadPost analyzed)
  have hworks : ∀ (i : Nat) s, (v.readingGroup project r deadline).stages[i]? = some s → ∀ t', t ≤ t' →
      (t' = t ∨ (v.readingGroup project r deadline).Crowded) → s.work.TurnsOut (posts i).1 (posts i).2 t' := by
    rintro i s hs t' - (rfl | ⟨c, hc, _⟩)
    · match i with
      | 0 =>
        cases hs
        exact v.turnsOut_scanAll r.chunks t'
      | 1 =>
        cases hs
        exact turnsOut_modelReading h
      | _ + 2 => cases hs
    · cases hc
  have hcapacity : ∀ c, (v.readingGroup project r deadline).capacity = some c → c ≤ StageGroup.maxCapacity := nofun
  refine (StageGroup.turnsOut_run hcapacity hworks).mono (fun hstalls => nomatch hstalls.1) ?_
  rintro _ stop - ⟨reports, rfl, hlength, htells⟩
  obtain ⟨scanned, read, rfl⟩ := List.length_eq_two.mp hlength
  have hscan := htells 0 _ scanned rfl rfl
  have hread := htells 1 _ read rfl rfl
  refine ⟨scanned, read, rfl, hscan.name_eq, hread.name_eq, fun h hout => ?_, hread⟩
  obtain ⟨_, hpost⟩ := hscan.post_of_output? hout
  exact hpost h rfl

theorem findings_add_facts {scanned : Stage.Report Harvest} (h : ∀ h, scanned.output? = some h → ∃ f, h = .facts f) :
    (({} : Harvests).add scanned.output?).findings = {} := by
  cases hout : scanned.output? with
  | none => rfl
  | some harvest =>
    obtain ⟨f, rfl⟩ := h harvest hout
    rfl

omit [Nonempty σ] in
/-- What the models' reading brings: what the analysis has found in time, or nothing. -/
theorem findings_of_tells {harvests : Harvests} (hempty : harvests.findings = {}) {read : Stage.Report Harvest}
    (h : (v.readingGroup project r deadline).Tells (some (v.readingLimit t))
      ⟨Analyst.stage, v.readAll project r deadline⟩ stalls (ReadPost analyzed) read) :
    (∃ findings stop, analyzed (.ok findings) stop ∧ stop < v.readingLimit t ∧
        (harvests.add read.output?).findings = findings ∧ read.outcome = .completed) ∨
      ((∃ m stop, analyzed (.error m) stop) ∨ (∃ out stop, analyzed out stop ∧ v.readingLimit t ≤ stop) ∨ stalls) ∧
        (harvests.add read.output?).findings = {} ∧ read.outcome ≠ .completed := by
  cases h with
  | inTime hpost hstop =>
    obtain ⟨out, hanalyzed, rfl⟩ := hpost
    cases out with
    | ok findings => exact .inl ⟨findings, _, hanalyzed, hstop _ rfl, rfl, rfl⟩
    | error m => exact .inr ⟨.inl ⟨m, _, hanalyzed⟩, hempty, nofun⟩
  | late hl hpost hle =>
    obtain ⟨out, hanalyzed, rfl⟩ := hpost
    cases hl
    exact .inr ⟨.inr (.inl ⟨out, _, hanalyzed, hle⟩), hempty, nofun⟩
  | endless _ hstalls => exact .inr ⟨.inr (.inr hstalls), hempty, nofun⟩
  | kept _ hcrowded =>
    obtain ⟨c, hc, _⟩ := hcrowded
    cases hc

/-- Both readings turn out as their group does. -/
theorem turnsOut_readBothWays (hdeadline : t.after? v.settings.analysisTimeout = some deadline)
    (h : (v.analyst.analyze project r.commit r.chunks (some deadline)).TurnsOut stalls analyzed t) (survey : Survey) :
    (v.readBothWays project r survey).TurnsOut False
      (fun result _ => ∃ scanned read : Stage.Report Harvest, ∃ harvests,
        result = .ok ({ survey with stages := survey.stages ++ [scanned.status, read.status] }, harvests) ∧
        scanned.name = "static" ∧ read.name = Analyst.stage ∧
        ((∃ findings stop, analyzed (.ok findings) stop ∧ stop < v.readingLimit t ∧
            harvests.findings = findings ∧ read.outcome = .completed) ∨
          ((∃ m stop, analyzed (.error m) stop) ∨ (∃ out stop, analyzed out stop ∧ v.readingLimit t ≤ stop) ∨
            stalls) ∧ harvests.findings = {} ∧ read.outcome ≠ .completed)) t := by
  refine TurnsOut.andThen_of_immediate (.modify _) fun _ _ => TurnsOut.now_andThen ?_
  rw [hdeadline]
  refine (turnsOut_readingGroup h).andThen ?_ ?_
  · rintro _ stop - ⟨scanned, read, ⟨⟩, hscanned, hread, hfacts, htells⟩
    refine (immediate_noteReadings v [scanned, read] survey {} stop).mono False.elim ?_
    rintro _ _ - ⟨-, _, rfl, rfl⟩
    exact ⟨scanned, read, _, rfl, hscanned, hread, findings_of_tells (findings_add_facts hfacts) htells⟩
  · rintro m stop - ⟨_, _, ⟨⟩, _⟩

end Group

section Deadline

variable [Nonempty σ] {v : Surveyor σ} {t deadline : Moment}

end Deadline

section Bench

/-- A surveyor whose checkpoints know every chunk, with one way or another to embed texts. -/
def recalling (embedding : Models.EmbeddingService Unit) (s : Settings) : Surveyor Unit where
  settings := s
  fetch _ := .done (.ok { commit := "c", chunks := [Analyst.sampleChunk] })
  scan _ := .done (.ok .empty)
  models := {
    completion := fun _ => .crash "a model was asked"
    embedding := some embedding
    breakers := ⟨fun _ => .ofSettings s.resilience, fun _ s => s⟩
    usage := ⟨fun _ => {}, fun _ s => s⟩
    retry := .ofSettings s.resilience.retry
    chain := s.models.chain
    embeddingModel := s.models.embedding
    maxOutputTokens := s.models.maxOutputTokens
    timeout := s.modelTimeout }
  checkpoints := {
    put := fun _ => .done (.ok ())
    get? := fun _ _ => .done (.ok (some Analyst.sampleFindings.encode.canonical)) }
  vectors := some {
    replace := fun _ _ => .done (.ok ())
    nearest := fun _ _ _ _ => .done (.ok []) }
  snapshots := {
    save := fun _ => .done (.ok ())
    load? := fun _ => .done (.ok none)
    search := fun _ _ _ => .done (.ok []) }
  writers := []
  calendar := .done 0
  newId := .done "s"

/-- A repository with one chunk. -/
def oneChunk : Repository := { commit := "c", chunks := [Analyst.sampleChunk] }

/-- A survey that begins. -/
def begun : Survey := { id := "s", project := "p" }

theorem after?_analysisTimeout :
    (0 : Moment).after? ({} : Settings).analysisTimeout = some (Duration.ofSeconds 900) := by decide

end Bench

end Surveyor
end CodeAtlas
