import CodeAtlas.Proofs.Activity.Proceeds
import CodeAtlas.Proofs.Document.Composing
import CodeAtlas.Proofs.Survey.Readings

/-! What every survey has to show, whatever those do who take part in it. It fails only when the repository cannot be
fetched or the atlas cannot be built; then there are no sections and nothing is stored. Any other survey has one section
for every name in the settings, and its stages are all on record in their order. -/
namespace CodeAtlas
namespace Surveyor

open Activity (Agrees Immediate TurnsOut)

variable {σ : Type}

/-- The section that a name gets: a stand-in when nobody writes such a section or the writing breaks off, and else what
its writer has composed. -/
inductive Written (v : Surveyor σ) (source : Document.Source) (name : String) : Document.Section → Prop
  | unregistered {error : String} : v.writers.named? name = none → Written v source name (.standIn name name error 0)
  | broken {w : Document.Writer σ} {m : String} : v.writers.named? name = some w →
      (w.compose source (rulesFor v.settings name) v.settings.quality).MayEnd (.error m) →
      Written v source name (.standIn name w.title m 0)
  | composed {w : Document.Writer σ} {s : Document.Section} : v.writers.named? name = some w →
      w.Composed source (rulesFor v.settings name) v.settings.quality s → Written v source name s

theorem name_of_named? {v : Surveyor σ} {name : String} {w : Document.Writer σ}
    (h : v.writers.named? name = some w) : w.name = name := by
  have hfound := List.find?_some h
  exact eq_of_beq hfound

theorem Written.name_eq {v : Surveyor σ} {source : Document.Source} {name : String} {s : Document.Section}
    (h : v.Written source name s) : s.name = name := by
  cases h with
  | unregistered _ => rfl
  | broken _ _ => rfl
  | composed hw hs => cases hs <;> exact name_of_named? hw

/-- Whether nobody can bring a draft for the section of a name: there is no writer, or it always fails or crashes. -/
def Hopeless (v : Surveyor σ) (source : Document.Source) (name : String) : Prop :=
  ∀ w, v.writers.named? name = some w → ∀ verdict draft, ¬ (w.write source verdict).MayEnd (.ok (.ok draft))

theorem Written.standIn {v : Surveyor σ} {source : Document.Source} {name : String} {s : Document.Section}
    (h : v.Written source name s) (hno : v.Hopeless source name) :
    ∃ title error attempts, s = .standIn name title error attempts := by
  cases h with
  | unregistered _ => exact ⟨_, _, _, rfl⟩
  | broken _ _ => exact ⟨_, _, _, rfl⟩
  | composed hw hs =>
    cases hs with
    | standIn _ _ _ =>
      rw [name_of_named? hw]
      exact ⟨_, _, _, rfl⟩
    | drafted hattempted hdraft _ _ _ =>
      obtain ⟨verdict, hmay⟩ := hattempted.mayEnd _ hdraft
      exact absurd hmay (hno _ hw verdict _)

section Sections

variable {v : Surveyor σ} (hwriters : ∀ w ∈ v.writers, ∀ source verdict, (w.write source verdict).Ceases)

/-- What may come of the work of writing a section. -/
def SectionPost (v : Surveyor σ) (source : Document.Source) (name : String)
    (result : Except String (Except Stage.Failure Document.Section)) : Prop :=
  match v.writers.named? name with
  | none => ∃ e, result = .ok (.error e)
  | some w =>
    match result with
    | .ok work => ∃ s, work = .ok s ∧ w.Composed source (rulesFor v.settings name) v.settings.quality s
    | .error m => (w.compose source (rulesFor v.settings name) v.settings.quality).MayEnd (.error m)

include hwriters in
theorem turnsOut_stageOf (source : Document.Source) (name : String) (t : Moment) :
    (v.stageOf source name).work.TurnsOut False (fun result _ => v.SectionPost source name result) t := by
  unfold stageOf SectionPost
  dsimp only
  cases hnamed : v.writers.named? name with
  | none => exact ⟨_, rfl⟩
  | some w =>
    have hw := hwriters w (List.mem_of_find?_eq_some hnamed) source
    refine TurnsOut.andThen_of_immediate (.modify _) fun _ _ => ?_
    refine (Document.Writer.turnsOut_compose hw v.settings.quality t).andThen ?_ ?_
    · rintro s t' - ⟨hs, -⟩
      exact ⟨s, rfl, hs s rfl⟩
    · rintro m t' - ⟨-, hm⟩
      exact hm

/-- What is reported on the writing of a section decides the section. -/
theorem written_of_post {source : Document.Source} {name : String} {duration : Duration}
    {result : Except String (Except Stage.Failure Document.Section)} (h : v.SectionPost source name result) :
    v.Written source name (v.sectionOf name ⟨sectionStage name, duration, Stage.endingOf result⟩) := by
  unfold SectionPost at h
  cases hnamed : v.writers.named? name with
  | none =>
    rw [hnamed] at h
    obtain ⟨e, rfl⟩ := h
    simp only [sectionOf, Stage.endingOf, Stage.Report.output?, Stage.Report.error?, hnamed]
    exact .unregistered hnamed
  | some w =>
    rw [hnamed] at h
    cases result with
    | ok work =>
      obtain ⟨s, rfl, hs⟩ := h
      exact .composed hnamed hs
    | error m =>
      simp only [sectionOf, Stage.endingOf, Stage.Report.output?, Stage.Report.error?, hnamed]
      exact .broken hnamed h

end Sections

/-- A survey that has gone on through stages and got sections. -/
structure Grown (names : List String) (sections : List Document.Section) (s s' : Survey) : Prop where
  stages : ∃ statuses : List Stage.Status, statuses.map (·.name) = names ∧ s'.stages = s.stages ++ statuses
  sections : s'.sections = s.sections ++ sections
  success : s'.success = s.success

namespace Grown

variable {names names' : List String} {sections sections' : List Document.Section} {s s' s'' : Survey}

theorem refl (s : Survey) : Grown [] [] s s := ⟨⟨[], rfl, by simp⟩, by simp, rfl⟩

theorem trans (h : Grown names sections s s') (h' : Grown names' sections' s' s'') :
    Grown (names ++ names') (sections ++ sections') s s'' := by
  obtain ⟨statuses, hnames, hstages⟩ := h.stages
  obtain ⟨statuses', hnames', hstages'⟩ := h'.stages
  refine ⟨⟨statuses ++ statuses', ?_, ?_⟩, ?_, h'.success.trans h.success⟩
  · rw [List.map_append, hnames, hnames']
  · rw [hstages', hstages, List.append_assoc]
  · rw [h'.sections, h.sections, List.append_assoc]

end Grown

theorem immediate_noteSections (v : Surveyor σ) (pairs : List (String × Stage.Report Document.Section))
    (survey : Survey) :
    (v.noteSections pairs survey).Immediate
      (Grown (pairs.map (·.2.name)) (pairs.map fun p => v.sectionOf p.1 p.2) survey) := by
  induction pairs generalizing survey with
  | nil => exact .done (Grown.refl survey)
  | cons pair rest ih =>
    refine (v.immediate_note survey pair.2 sectionLine).andThen ?_
    rintro _ rfl
    have hnoted : Grown [pair.2.name] [v.sectionOf pair.1 pair.2] survey
        { survey with
          stages := survey.stages ++ [pair.2.status]
          sections := survey.sections ++ [v.sectionOf pair.1 pair.2] } :=
      ⟨⟨[pair.2.status], rfl, rfl⟩, rfl, rfl⟩
    intro t
    refine (ih _ t).mono id ?_
    rintro r t' - ⟨ht', survey', hr, hgrown⟩
    exact ⟨ht', survey', hr, hnoted.trans hgrown⟩

section Reports

variable {v : Surveyor σ} {source : Document.Source} {names : List String}
  {reports : List (Stage.Report Document.Section)}

/-- Whether a report is on the writing of the section of a name. -/
def ReportsOn (v : Surveyor σ) (source : Document.Source) (name : String) (report : Stage.Report Document.Section) :
    Prop :=
  report.name = sectionStage name ∧ v.Written source name (v.sectionOf name report)

theorem names_of_forall₂ (h : List.Forall₂ (v.ReportsOn source) names reports) :
    (names.zip reports).map (·.2.name) = names.map sectionStage := by
  induction h with
  | nil => rfl
  | cons hreport _ ih => rw [List.zip_cons_cons, List.map_cons, List.map_cons, ih, hreport.1]

theorem sections_of_forall₂ (h : List.Forall₂ (v.ReportsOn source) names reports) :
    List.Forall₂ (v.Written source) names ((names.zip reports).map fun p => v.sectionOf p.1 p.2) := by
  induction h with
  | nil => exact .nil
  | cons hreport _ ih => exact .cons hreport.2 ih

/-- A group of writers without a time limit reports on every section. -/
theorem forall₂_reportsOn {g : StageGroup σ Document.Section} {stalls : Nat → Prop}
    (hstages : g.stages = names.map (v.stageOf source)) (hlength : reports.length = g.stages.length)
    (htells : ∀ (i : Nat) s report, g.stages[i]? = some s → reports[i]? = some report →
      g.Tells none s (stalls i) (fun result _ => ∃ name, names[i]? = some name ∧ v.SectionPost source name result)
        report) : List.Forall₂ (v.ReportsOn source) names reports := by
  rw [hstages, List.length_map] at hlength
  refine List.forall₂_iff_get.mpr ⟨hlength.symm, fun i hi hi' => ?_⟩
  have hname := List.getElem?_eq_getElem hi
  have hstage : g.stages[i]? = some (v.stageOf source names[i]) := by
    rw [hstages, List.getElem?_map, hname, Option.map_some]
  show v.ReportsOn source names[i] reports[i]
  have htold := htells i _ _ hstage (List.getElem?_eq_getElem hi')
  generalize reports[i] = report at htold ⊢
  cases htold with
  | inTime hpost _ =>
    obtain ⟨name, hname', hpost⟩ := hpost
    rw [hname, Option.some.injEq] at hname'
    subst hname'
    exact ⟨rfl, written_of_post hpost⟩
  | late hl => cases hl
  | endless hl => cases hl
  | kept hl => cases hl

end Reports

/-- The stages in which the sections are written. -/
def writingGroup (v : Surveyor σ) (source : Document.Source) : StageGroup σ Document.Section where
  name := "section_generation"
  stages := v.settings.analysis.sections.map (v.stageOf source)
  capacity := some v.settings.analysis.maxConcurrency

section Write

variable [Nonempty σ] {v : Surveyor σ} (hwriters : ∀ w ∈ v.writers, ∀ source verdict, (w.write source verdict).Ceases)
  (hcapacity : v.settings.analysis.maxConcurrency ≤ StageGroup.maxCapacity)

include hwriters hcapacity

/-- Every name in the settings gets its section, and its stage is on record. -/
theorem turnsOut_write (source : Document.Source) (survey : Survey) (t : Moment) :
    (v.write source survey).TurnsOut False
      (fun r _ => ∃ survey' sections, r = .ok survey' ∧
        Grown (v.settings.analysis.sections.map sectionStage) sections survey survey' ∧
        List.Forall₂ (v.Written source) v.settings.analysis.sections sections) t := by
  have hroom : ∀ c, (v.writingGroup source).capacity = some c → c ≤ StageGroup.maxCapacity := by
    rintro c ⟨⟩
    exact hcapacity
  have hworks : ∀ (i : Nat) s, (v.writingGroup source).stages[i]? = some s → ∀ t', t ≤ t' →
      (t' = t ∨ (v.writingGroup source).Crowded) → s.work.TurnsOut False (fun result _ =>
        ∃ name, v.settings.analysis.sections[i]? = some name ∧ v.SectionPost source name result) t' := by
    intro i s hs t' _ _
    unfold writingGroup at hs
    rw [List.getElem?_map] at hs
    obtain ⟨name, hname, rfl⟩ := Option.map_eq_some_iff.mp hs
    exact (turnsOut_stageOf hwriters source name t').mono id fun result _ _ hpost => ⟨name, hname, hpost⟩
  refine TurnsOut.andThen_of_immediate (.modify _) fun _ _ => ?_
  refine ((StageGroup.turnsOut_run hroom hworks).mono (fun ⟨_, _, hfalse⟩ => hfalse) fun _ _ _ hr => hr).andThen ?_ ?_
  · rintro reports t' - ⟨_, ⟨⟩, hlength, htells⟩
    have hall : List.Forall₂ (v.ReportsOn source) v.settings.analysis.sections reports :=
      forall₂_reportsOn rfl hlength htells
    refine (v.immediate_noteSections _ survey t').mono id ?_
    rintro _ _ - ⟨-, survey', rfl, hgrown⟩
    rw [names_of_forall₂ hall] at hgrown
    exact ⟨survey', _, rfl, hgrown, sections_of_forall₂ hall⟩
  · rintro m t' - ⟨_, ⟨⟩, _⟩

/-- The stages after the atlas has been built, in their order. -/
def publishStages (s : Settings) : List String :=
  s.analysis.sections.map sectionStage ++
    ((if s.analysis.verifyCitations then ["citation_verification"] else []) ++ ["persistence"])

omit [Nonempty σ] hwriters hcapacity in
theorem immediate_verify (v : Surveyor σ) (r : Repository) (survey : Survey) :
    (v.verify r survey).Immediate
      (Grown (if v.settings.analysis.verifyCitations then ["citation_verification"] else []) [] survey) := by
  unfold verify
  split
  · refine (v.immediate_note survey _ citationLine).andThen ?_
    rintro _ rfl
    exact .done ⟨⟨[_], rfl, rfl⟩, (List.append_nil _).symm, rfl⟩
  · exact .done (Grown.refl survey)

variable (hcalendar : v.calendar.Immediate fun _ => True) (hsave : ∀ record, (v.snapshots.save record).Ceases)

include hcalendar hsave

omit [Nonempty σ] hwriters hcapacity in
/-- What came of a survey is stored, or it is on record why not. -/
theorem turnsOut_save (r : Repository) (atlas : Atlas) (survey : Survey) (t : Moment) :
    (v.save r atlas survey).TurnsOut False
      (fun result _ => ∃ survey', result = .ok survey' ∧ Grown ["persistence"] [] survey survey') t := by
  refine TurnsOut.andThen_of_immediate (.modify _) fun _ _ => TurnsOut.andThen_of_immediate hcalendar fun now _ => ?_
  have hstored : ((v.snapshots.save (recordOf survey r atlas now)).andThen fun result =>
      (.done (result.mapError .store) : Activity σ (Except Stage.Failure Unit))).TurnsOut False (fun _ _ => True) t :=
    (hsave _ t).andThen (fun _ _ _ _ => trivial) fun _ _ _ _ => trivial
  refine (Stage.turnsOut_perform "persistence" hstored).andThen ?_ ?_
  · rintro report t' - ⟨result, -, ⟨⟩⟩
    refine (v.immediate_note survey _ _ t').mono id ?_
    rintro _ _ - ⟨-, _, rfl, rfl⟩
    exact ⟨_, rfl, ⟨⟨[_], rfl, rfl⟩, (List.append_nil _).symm, rfl⟩⟩
  · rintro m t' - ⟨_, -, ⟨⟩⟩

/-- A survey whose atlas has been built succeeds, with a section for every name. -/
theorem turnsOut_publish (r : Repository) (report : Report) (atlas : Atlas) (survey : Survey) (t : Moment) :
    (v.publish r report atlas survey).TurnsOut False
      (fun result _ => ∃ survey' sections, result = .ok { survey' with success := true } ∧
        Grown (publishStages v.settings) sections survey survey' ∧
        ∃ source, List.Forall₂ (v.Written source) v.settings.analysis.sections sections) t := by
  refine (turnsOut_write hwriters hcapacity ⟨atlas, r.languages⟩ _ t).andThen ?_ ?_
  · rintro written t₁ - ⟨_, sections, ⟨⟩, hwritten, hsections⟩
    refine TurnsOut.andThen_of_immediate (v.immediate_verify r written) fun verified hverified => ?_
    refine (turnsOut_save hcalendar hsave r atlas verified t₁).andThen ?_ ?_
    · rintro saved t₂ - ⟨_, ⟨⟩, hsaved⟩
      have hgrown := hwritten.trans (hverified.trans hsaved)
      exact ⟨saved, sections, rfl, ⟨hgrown.stages, by simpa using hgrown.sections, hgrown.success⟩, _, hsections⟩
    · rintro m t₂ - ⟨_, ⟨⟩, _⟩
  · rintro m t₁ - ⟨_, _, ⟨⟩, _⟩

/-- How a survey goes on from a repository: the atlas cannot be built, or everything after it is on record. -/
inductive Charted (v : Surveyor σ) (s : Survey) : Survey → Prop
  | unbuilt {scanned read built : Stage.Status} {s' : Survey} : scanned.name = "static" → read.name = Analyst.stage →
      built.name = "reconciliation" → built.outcome ≠ .completed → s'.stages = s.stages ++ [scanned, read, built] →
      s'.sections = s.sections → s'.success = s.success → Charted v s s'
  | published {scanned read built : Stage.Status} {rest : List Stage.Status} {sections : List Document.Section}
      {source : Document.Source} {s' : Survey} : scanned.name = "static" → read.name = Analyst.stage →
      built.name = "reconciliation" → built.outcome = .completed → rest.map (·.name) = publishStages v.settings →
      s'.stages = s.stages ++ ([scanned, read, built] ++ rest) →
      List.Forall₂ (v.Written source) v.settings.analysis.sections sections → s'.sections = s.sections ++ sections →
      s'.success = true → Charted v s s'

theorem turnsOut_chart (r : Repository) (survey : Survey) {t deadline : Moment}
    (hdeadline : t.after? v.settings.analysisTimeout = some deadline) :
    (v.chart r survey).TurnsOut False (fun result _ => ∃ survey', result = .ok survey' ∧ v.Charted survey survey')
      t := by
  refine (turnsOut_readBothWays hdeadline (TurnsOut.trivial _ t) { survey with commit := some r.commit }).andThen ?_ ?_
  · rintro _ t₁ - ⟨scanned, read, harvests, ⟨⟩, hscanned, hmodels, -⟩
    refine TurnsOut.andThen_of_immediate (.modify _) fun _ _ => ?_
    have hreconcile : (.done (reconcile survey.project harvests) : Activity σ _).TurnsOut False
        (fun result _ => result = .ok (reconcile survey.project harvests)) t₁ := rfl
    refine (Stage.turnsOut_perform "reconciliation" hreconcile).andThen ?_ ?_
    · rintro report t₂ - ⟨_, rfl, ⟨⟩⟩
      refine TurnsOut.andThen_of_immediate (v.immediate_note _ _ atlasLine) ?_
      rintro _ rfl
      cases hbuilt : reconcile survey.project harvests with
      | error e =>
        refine ⟨_, rfl, .unbuilt hscanned hmodels ?_ ?_ (List.append_assoc _ _ _) rfl rfl⟩
        · rfl
        · nofun
      | ok built =>
        refine (turnsOut_publish hwriters hcapacity hcalendar hsave r built.1 built.2 _ t₂).mono id ?_
        rintro _ _ - ⟨survey', sections, rfl, hgrown, source, hsections⟩
        obtain ⟨rest, hnames, hstages⟩ := hgrown.stages
        have hall := hstages.trans ((congrArg (· ++ rest) (List.append_assoc _ _ _)).trans (List.append_assoc _ _ _))
        refine ⟨_, rfl, .published hscanned hmodels ?_ ?_ hnames hall hsections hgrown.sections rfl⟩
        · rfl
        · rfl
    · rintro m t₂ - ⟨_, _, ⟨⟩⟩
  · rintro m t₁ - ⟨_, _, _, ⟨⟩, _⟩

/-- How a survey ends: the repository could not be fetched, or it was charted. -/
inductive Ended (v : Surveyor σ) : Survey → Prop
  | unfetched {fetched : Stage.Status} {s : Survey} : fetched.name = "ingestion" → fetched.outcome ≠ .completed →
      s.stages = [fetched] → s.sections = [] → s.success = false → Ended v s
  | charted {fetched : Stage.Status} {s s' : Survey} : fetched.name = "ingestion" → fetched.outcome = .completed →
      s.stages = [fetched] → s.sections = [] → s.success = false → v.Charted s s' → Ended v s'

omit [Nonempty σ] hwriters hcapacity hcalendar hsave in
/-- What is counted and timed at the end of a survey does not matter. -/
theorem Ended.congr {s s' : Survey} (h : v.Ended s) (hstages : s'.stages = s.stages)
    (hsections : s'.sections = s.sections) (hsuccess : s'.success = s.success) : v.Ended s' := by
  cases h with
  | unfetched hname houtcome hs hs' hs'' =>
    exact .unfetched hname houtcome (hstages.trans hs) (hsections.trans hs') (hsuccess.trans hs'')
  | charted hname houtcome hs hs' hs'' hcharted =>
    refine .charted hname houtcome hs hs' hs'' ?_
    cases hcharted with
    | unbuilt hscanned hread hbuilt hfailed h h' h'' =>
      exact .unbuilt hscanned hread hbuilt hfailed (hstages.trans h) (hsections.trans h') (hsuccess.trans h'')
    | published hscanned hread hbuilt hdone hrest h hwritten h' h'' =>
      exact .published hscanned hread hbuilt hdone hrest (hstages.trans h) hwritten (hsections.trans h')
        (hsuccess.trans h'')

omit [Nonempty σ] hwriters hcapacity hcalendar hsave in
theorem immediate_close {start : Moment} {survey : Survey} (h : v.Ended survey) :
    (v.close start survey).Immediate v.Ended :=
  Immediate.now.andThen fun _ _ => Immediate.get.andThen fun _ _ => .done (h.congr rfl rfl rfl)

variable (hnewId : v.newId.Immediate fun _ => True)

include hnewId

/-- A survey comes to an end, whatever the models and the scanner do and whatever fails. -/
theorem turnsOut_run (project : String) {t : Moment}
    (hfetch : (v.fetch project).TurnsOut False (fun result stop => ∀ r, result = .ok (.ok r) →
      (stop.after? v.settings.analysisTimeout).isSome) t) :
    (v.run project).TurnsOut False (fun result _ => ∃ survey, result = .ok survey ∧ v.Ended survey) t := by
  refine TurnsOut.now_andThen (TurnsOut.andThen_of_immediate hnewId fun _ _ => ?_)
  refine TurnsOut.andThen_of_immediate (.modify _) fun _ _ => ?_
  have hclosed : ∀ {start t : Moment} {survey : Survey}, v.Ended survey →
      (v.close start survey).TurnsOut False (fun result _ => ∃ survey, result = .ok survey ∧ v.Ended survey) t :=
    fun hended => (immediate_close hended _).mono id fun _ _ _ h => h.2
  refine (Stage.turnsOut_perform "ingestion" hfetch).andThen ?_ ?_
  · rintro report t₁ - ⟨result, hclock, ⟨⟩⟩
    refine TurnsOut.andThen_of_immediate (v.immediate_note _ _ repositoryLine) ?_
    rintro _ rfl
    match result with
    | .ok (.ok r) =>
      obtain ⟨deadline, hdeadline⟩ := Option.isSome_iff_exists.mp (hclock r rfl)
      refine (turnsOut_chart hwriters hcapacity hcalendar hsave r _ hdeadline).andThen ?_ ?_
      · rintro survey t₂ - ⟨_, ⟨⟩, hcharted⟩
        refine hclosed (.charted ?_ ?_ rfl rfl rfl hcharted)
        · rfl
        · rfl
      · rintro m t₂ - ⟨_, ⟨⟩, _⟩
    | .ok (.error e) =>
      refine hclosed (.unfetched ?_ ?_ rfl rfl rfl)
      · rfl
      · nofun
    | .error m =>
      refine hclosed (.unfetched ?_ ?_ rfl rfl rfl)
      · rfl
      · nofun
  · rintro m t₁ - ⟨_, _, ⟨⟩⟩

end Write

section Ended

variable {v : Surveyor σ} {s : Survey}

theorem sectionStage_ne (name : String) : sectionStage name ≠ "ingestion" ∧ sectionStage name ≠ "reconciliation" := by
  constructor
  all_goals
    intro h
    have hchars := congrArg String.toList h
    simp [sectionStage] at hchars

theorem publishStages_ne (s : Settings) :
    ∀ name ∈ publishStages s, name ≠ "ingestion" ∧ name ≠ "reconciliation" := by
  intro name hname
  rcases List.mem_append.mp hname with hname | hname
  · obtain ⟨section_, -, rfl⟩ := List.mem_map.mp hname
    exact sectionStage_ne section_
  · rcases List.mem_append.mp hname with hname | hname
    · split at hname
      · rw [List.mem_singleton.mp hname]
        decide
      · cases hname
    · rw [List.mem_singleton.mp hname]
      decide

/-- A survey fails exactly when the repository was not fetched or the atlas was not built. -/
theorem Ended.success_eq_false_iff (h : v.Ended s) : s.success = false ↔
    ∃ st ∈ s.stages, (st.name = "ingestion" ∨ st.name = "reconciliation") ∧ st.outcome ≠ .completed := by
  cases h with
  | @unfetched fetched _ hname houtcome hstages _ hsuccess =>
    rw [hstages, hsuccess]
    exact ⟨fun _ => ⟨fetched, List.mem_singleton_self _, .inl hname, houtcome⟩, fun _ => rfl⟩
  | @charted fetched before _ hname houtcome hstages _ hsuccess hcharted =>
    cases hcharted with
    | @unbuilt scanned read built _ _ _ hbuilt hfailed hstages' _ hsuccess' =>
      rw [hstages', hsuccess', hsuccess]
      exact ⟨fun _ => ⟨built, by simp, .inr hbuilt, hfailed⟩, fun _ => rfl⟩
    | @published scanned read built rest _ _ _ hscanned hread hbuilt hdone hrest hstages' _ _ hsuccess' =>
      rw [hstages', hsuccess', hstages]
      refine ⟨nofun, ?_⟩
      rintro ⟨st, hst, hst', hnot⟩
      simp only [List.cons_append, List.nil_append, List.mem_cons] at hst
      rcases hst with rfl | rfl | rfl | rfl | hst
      · exact absurd houtcome hnot
      · rw [hscanned] at hst'
        exact absurd hst' (by decide)
      · rw [hread] at hst'
        exact absurd hst' (by decide)
      · exact absurd hdone hnot
      · have hne := publishStages_ne v.settings st.name (hrest ▸ List.mem_map_of_mem hst)
        exact absurd hst' (not_or.mpr hne)

/-- The stages up to the building of the atlas, in their order. -/
def chartStages : List String := ["ingestion", "static", Analyst.stage, "reconciliation"]

/-- A survey that succeeds has a section for every name in the settings, and all its stages are on record. -/
theorem Ended.of_success (h : v.Ended s) (hs : s.success = true) :
    s.stages.map (·.name) = chartStages ++ publishStages v.settings ∧
      ∃ source, List.Forall₂ (v.Written source) v.settings.analysis.sections s.sections := by
  cases h with
  | unfetched _ _ _ _ hsuccess =>
    rw [hsuccess] at hs
    cases hs
  | charted hname _ hstages hsections hsuccess hcharted =>
    cases hcharted with
    | unbuilt _ _ _ _ _ _ hsuccess' =>
      rw [hsuccess', hsuccess] at hs
      cases hs
    | published hscanned hread hbuilt _ hrest hstages' hwritten hsections' _ =>
      rw [hstages', hstages, hsections', hsections, List.nil_append]
      refine ⟨?_, _, hwritten⟩
      simp only [List.map_append, List.map_cons, List.map_nil, hname, hscanned, hread, hbuilt, hrest]
      rfl

/-- A survey whose repository was not fetched has no other stage, and one whose atlas was not built ends with that. -/
theorem Ended.of_failed (h : v.Ended s) {st : Stage.Status} (hst : st ∈ s.stages) (hnot : st.outcome ≠ .completed) :
    (st.name = "ingestion" → s.stages.map (·.name) = ["ingestion"] ∧ s.sections = []) ∧
      (st.name = "reconciliation" → s.stages.map (·.name) = chartStages ∧ s.sections = []) := by
  have hfails : st.name = "ingestion" ∨ st.name = "reconciliation" → s.success = false := fun hname =>
    h.success_eq_false_iff.mpr ⟨st, hst, hname, hnot⟩
  cases h with
  | unfetched hname _ hstages hsections _ =>
    rw [hstages, hsections]
    rw [hstages] at hst
    rw [List.mem_singleton.mp hst, hname]
    refine ⟨fun _ => ⟨?_, rfl⟩, fun hno => absurd hno (by decide)⟩
    rw [List.map_singleton, hname]
  | charted hname houtcome hstages hsections _ hcharted =>
    cases hcharted with
    | unbuilt hscanned hread hbuilt _ hstages' hsections' _ =>
      rw [hstages', hstages] at hst ⊢
      rw [hsections', hsections]
      refine ⟨fun hingestion => ?_, fun _ => ⟨by simp [hname, hscanned, hread, hbuilt, chartStages], rfl⟩⟩
      simp only [List.cons_append, List.nil_append, List.mem_cons, List.not_mem_nil, or_false] at hst
      rcases hst with rfl | rfl | rfl | rfl
      · exact absurd houtcome hnot
      · exact absurd (hscanned.symm.trans hingestion) (by decide)
      · exact absurd (hread.symm.trans hingestion) (by decide)
      · exact absurd (hbuilt.symm.trans hingestion) (by decide)
    | published _ _ _ _ _ _ _ _ hsuccess =>
      rw [hsuccess] at hfails
      exact ⟨fun hname => (nomatch hfails (.inl hname)), fun hname => (nomatch hfails (.inr hname))⟩

end Ended

section Store

variable (v : Surveyor σ) (snapshots : Store.Snapshots.Service σ)

end Store

section Lawful

/-- What every survey has to show: whether it succeeded, which stages are on record and which sections it has. -/
structure Lawful (v : Surveyor σ) (s : Survey) : Prop where
  success_eq_false_iff : s.success = false ↔
    ∃ st ∈ s.stages, (st.name = "ingestion" ∨ st.name = "reconciliation") ∧ st.outcome ≠ .completed
  stages_of_success : s.success = true → s.stages.map (·.name) = chartStages ++ publishStages v.settings
  names_of_success : s.success = true → s.sections.map (·.name) = v.settings.analysis.sections
  sections_of_success : s.success = true → ∃ source,
    List.Forall₂ (fun name written => v.Written source name written ∧
      (v.Hopeless source name → ∃ title error attempts, written = .standIn name title error attempts))
      v.settings.analysis.sections s.sections
  stages_of_unfetched : ∀ st ∈ s.stages, st.name = "ingestion" → st.outcome ≠ .completed →
    s.stages.map (·.name) = ["ingestion"]
  stages_of_unbuilt : ∀ st ∈ s.stages, st.name = "reconciliation" → st.outcome ≠ .completed →
    s.stages.map (·.name) = chartStages
  sections_of_failed : s.success = false → s.sections = []

variable {v : Surveyor σ}

theorem map_name_eq {source : Document.Source} {names : List String} {sections : List Document.Section}
    (h : List.Forall₂ (v.Written source) names sections) : sections.map (·.name) = names := by
  induction h with
  | nil => rfl
  | cons hwritten _ ih => rw [List.map_cons, hwritten.name_eq, ih]

theorem Ended.lawful {s : Survey} (h : v.Ended s) : v.Lawful s where
  success_eq_false_iff := h.success_eq_false_iff
  stages_of_success hs := (h.of_success hs).1
  names_of_success hs := by
    obtain ⟨_, source, hwritten⟩ := h.of_success hs
    exact map_name_eq hwritten
  sections_of_success hs := by
    obtain ⟨_, source, hwritten⟩ := h.of_success hs
    exact ⟨source, hwritten.imp fun name s hs => ⟨hs, hs.standIn⟩⟩
  stages_of_unfetched st hst hname hnot := ((h.of_failed hst hnot).1 hname).1
  stages_of_unbuilt st hst hname hnot := ((h.of_failed hst hnot).2 hname).1
  sections_of_failed hs := by
    obtain ⟨st, hst, hname, hnot⟩ := h.success_eq_false_iff.mp hs
    rcases hname with hname | hname
    · exact ((h.of_failed hst hnot).1 hname).2
    · exact ((h.of_failed hst hnot).2 hname).2

end Lawful

end Surveyor
end CodeAtlas
