import CodeAtlas.Proofs.Findings.Frame
import CodeAtlas.Proofs.Graph.Passes
import CodeAtlas.Proofs.Survey.Law

/-! What surveys leave behind that are made one after the other and keep what they find in one place. A survey changes
what is kept of its own project only, in one step and after everything that could be fatal to it; so what is kept of a
project is what its last survey stored that got so far. -/
namespace CodeAtlas

/-- What is kept of a project after a record was saved. -/
theorem Store.Snapshots.load?_save (s : Store.Snapshots) (r : Store.Snapshots.Record) (project : String) :
    (s.save r).load? project = if r.project = project then some r else s.load? project := by
  simp [save, load?, Std.TreeMap.getElem?_insert]

namespace Surveyor

open Activity (Immediate Keeps Leaves Outcome Part TurnsOut Yields)

variable {σ : Type}

/-- A surveyor who keeps snapshots in a part of the state that nobody else changes who takes part in a survey. -/
structure StoresIn (v : Surveyor σ) (part : Part σ Store.Snapshots) : Prop where
  lawful : part.Lawful
  snapshots : v.snapshots = Store.Snapshots.service part
  fetch : ∀ project, (v.fetch project).Keeps part.get
  scan : ∀ c, (v.scan c).Keeps part.get
  models : v.models.LeavesAlone part.get
  lookUp : ∀ project fingerprint, (v.checkpoints.get? project fingerprint).Keeps part.get
  put : ∀ record, (v.checkpoints.put record).Keeps part.get
  vectors : ∀ service, v.vectors = some service → ∀ project records, (service.replace project records).Keeps part.get
  writers : ∀ w ∈ v.writers, ∀ source verdict, (w.write source verdict).Keeps part.get
  progress : ∀ e s, part.get (v.progress.notify e s) = part.get s
  calendar : v.calendar.Keeps part.get
  newId : v.newId.Keeps part.get

/-- A survey that has gone on and got sections of some names; nothing else of it has changed that is stored. -/
structure Continues (names : List String) (s s' : Survey) : Prop where
  project : s'.project = s.project
  commit : s'.commit = s.commit
  atlas : s'.atlas = s.atlas
  success : s'.success = s.success
  sections : s'.sections.map (·.name) = s.sections.map (·.name) ++ names

namespace Continues

variable {names names' : List String} {s s' s'' : Survey}

theorem refl (s : Survey) : Continues [] s s := ⟨rfl, rfl, rfl, rfl, (List.append_nil _).symm⟩

theorem trans (h : Continues names s s') (h' : Continues names' s' s'') : Continues (names ++ names') s s'' where
  project := h'.project.trans h.project
  commit := h'.commit.trans h.commit
  atlas := h'.atlas.trans h.atlas
  success := h'.success.trans h.success
  sections := by rw [h'.sections, h.sections, List.append_assoc]

end Continues

section Values

variable (v : Surveyor σ)

theorem yields_note {α : Type} (survey : Survey) (report : Stage.Report α) (detail : α → String) :
    (v.note survey report detail).Yields (Continues [] survey) :=
  fun _ _ => ⟨rfl, rfl, rfl, rfl, (List.append_nil _).symm⟩

theorem yields_compose {w : Document.Writer σ} (source : Document.Source) (rules : Gate.Rules)
    (quality : Settings.Quality) : (w.compose source rules quality).Yields (·.name = w.name) := by
  refine (Activity.yields_true _).andThen fun p _ => ?_
  cases p.latest with
  | none => exact rfl
  | some trial =>
    unfold Document.Writer.finish
    dsimp only
    split
    · trivial
    · exact rfl

/-- The work of writing a section brings a section of its name. -/
theorem yields_stageOf (source : Document.Source) (name : String) :
    (v.stageOf source name).work.Yields fun result => ∀ s, result = .ok s → s.name = name := by
  unfold stageOf
  dsimp only
  cases hnamed : v.writers.named? name with
  | none => exact nofun
  | some w =>
    intro t s
    refine (yields_compose source _ _).andThen ?_
    rintro composed hname _ ⟨⟩
    exact hname.trans (name_of_named? hnamed)

/-- A section that is taken in has the name that was asked for. -/
theorem name_sectionOf {name : String} {report : Stage.Report Document.Section}
    (h : ∀ s, report.output? = some s → s.name = name) : (v.sectionOf name report).name = name := by
  unfold sectionOf
  split
  · next s hs => exact h s hs
  · rfl

/-- Whether a report is on a section that gets the name it was asked for under. -/
def Names (name : String) (report : Stage.Report Document.Section) : Prop := (v.sectionOf name report).name = name

/-- The writing of the sections, unless it breaks off, is reported on with a section of the right name for each. -/
theorem turnsOut_writingGroup [Nonempty σ] (source : Document.Source) (t : Moment) :
    (v.writingGroup source).run.TurnsOut True
      (fun r _ => ∀ reports, r = .ok reports → List.Forall₂ v.Names v.settings.analysis.sections reports) t := by
  by_cases hroom : v.settings.analysis.maxConcurrency ≤ StageGroup.maxCapacity
  · have hcapacity : ∀ c, (v.writingGroup source).capacity = some c → c ≤ StageGroup.maxCapacity := by
      rintro c ⟨⟩
      exact hroom
    have hworks : ∀ (i : Nat) stage, (v.writingGroup source).stages[i]? = some stage → ∀ t', t ≤ t' →
        (t' = t ∨ (v.writingGroup source).Crowded) → stage.work.TurnsOut True (fun result _ =>
          ∀ name, v.settings.analysis.sections[i]? = some name → ∀ s, result = .ok (.ok s) → s.name = name) t' := by
      intro i stage hstage t' _ _
      unfold writingGroup at hstage
      rw [List.getElem?_map] at hstage
      obtain ⟨name, hname, rfl⟩ := Option.map_eq_some_iff.mp hstage
      refine ((v.yields_stageOf source name).turnsOut t').mono id ?_
      intro result _ _ hresult name' hname' s hs
      rw [hname, Option.some.injEq] at hname'
      exact (hresult _ hs s rfl).trans hname'
    refine (StageGroup.turnsOut_run hcapacity hworks).mono (fun _ => trivial) ?_
    rintro _ stop - ⟨reports, rfl, hlength, htells⟩ _ ⟨⟩
    rw [writingGroup, List.length_map] at hlength
    refine List.forall₂_iff_get.mpr ⟨hlength.symm, fun i hi hi' => v.name_sectionOf fun s hs => ?_⟩
    have hname := List.getElem?_eq_getElem hi
    have hstage : (v.writingGroup source).stages[i]? = some (v.stageOf source v.settings.analysis.sections[i]) := by
      rw [writingGroup, List.getElem?_map, hname, Option.map_some]
    obtain ⟨_, hpost⟩ := (htells i _ _ hstage (List.getElem?_eq_getElem hi')).post_of_output? hs
    exact hpost _ hname s rfl
  · have hover : (v.writingGroup source).capacity.any (StageGroup.maxCapacity < ·) = true := by
      simpa [writingGroup] using hroom
    unfold StageGroup.run
    split
    · next hempty =>
      rintro _ ⟨⟩
      have hnil : v.settings.analysis.sections = [] := by simpa [writingGroup] using hempty
      rw [hnil]
      exact .nil
    · exact nofun

theorem yields_noteSections (pairs : List (String × Stage.Report Document.Section)) (survey : Survey) :
    (v.noteSections pairs survey).Yields (Continues (pairs.map fun p => (v.sectionOf p.1 p.2).name) survey) := by
  induction pairs generalizing survey with
  | nil => exact .refl survey
  | cons pair rest ih =>
    refine (v.yields_note survey pair.2 sectionLine).andThen fun noted hnoted => ?_
    have hsection : Continues [(v.sectionOf pair.1 pair.2).name] survey
        { noted with sections := noted.sections ++ [v.sectionOf pair.1 pair.2] } := by
      refine ⟨hnoted.project, hnoted.commit, hnoted.atlas, hnoted.success, ?_⟩
      simp [hnoted.sections]
    exact (ih _).mono fun survey' hsurvey' => hsection.trans hsurvey'

theorem map_name_zip {names : List String} {reports : List (Stage.Report Document.Section)}
    (h : List.Forall₂ v.Names names reports) : (names.zip reports).map (fun p => (v.sectionOf p.1 p.2).name) = names := by
  induction h with
  | nil => rfl
  | cons hreport _ ih => rw [List.zip_cons_cons, List.map_cons, ih, hreport]

/-- The sections that are written are those in the settings, in their order. -/
theorem turnsOut_write_names [Nonempty σ] (source : Document.Source) (survey : Survey) (t : Moment) :
    (v.write source survey).TurnsOut True
      (fun r _ => ∀ survey', r = .ok survey' → Continues v.settings.analysis.sections survey survey') t := by
  refine TurnsOut.andThen_of_immediate (.modify _) fun _ _ => ?_
  refine (v.turnsOut_writingGroup source t).andThen ?_ fun _ _ _ _ _ herror => nomatch herror
  intro reports t' _ hreports
  have hnames := v.map_name_zip (hreports reports rfl)
  refine ((v.yields_noteSections _ survey).turnsOut t').mono id fun r _ _ hr survey' hsurvey' => ?_
  exact hnames ▸ hr survey' hsurvey'

theorem yields_verify (r : Repository) (survey : Survey) : (v.verify r survey).Yields (Continues [] survey) := by
  unfold verify
  split
  · refine (v.yields_note survey _ _).andThen fun _ hnoted => ?_
    exact ⟨hnoted.project, hnoted.commit, hnoted.atlas, hnoted.success, hnoted.sections⟩
  · exact .refl survey

theorem yields_noteReadings (reports : List (Stage.Report Harvest)) (done : Survey × Harvests) :
    (v.noteReadings reports done).Yields fun done' => Continues [] done.1 done'.1 := by
  induction reports generalizing done with
  | nil => exact .refl done.1
  | cons report rest ih =>
    refine (v.yields_note done.1 report _).andThen fun noted hnoted => ?_
    exact (ih _).mono fun done' hdone' => hnoted.trans hdone'

theorem yields_readBothWays (project : String) (r : Repository) (survey : Survey) :
    (v.readBothWays project r survey).Yields fun done => Continues [] survey done.1 := by
  refine (Activity.yields_true _).andThen fun _ _ => (Activity.yields_true _).andThen fun t _ => ?_
  cases t.after? v.settings.analysisTimeout with
  | none => trivial
  | some deadline => exact (Activity.yields_true _).andThen fun reports _ => v.yields_noteReadings reports (survey, {})

/-- An atlas that reconciling brings has a graph that was built. -/
theorem consistent_of_reconcile {project : String} {harvests : Harvests} {report : Report} {atlas : Atlas}
    (hreconcile : reconcile project harvests = .ok (report, atlas)) : atlas.graph.Consistent := by
  unfold reconcile at hreconcile
  dsimp only at hreconcile
  split at hreconcile
  · next hbuilt =>
    cases hreconcile
    exact Atlas.consistent_graph hbuilt
  · cases hreconcile

end Values

section Frame

variable {v : Surveyor σ} {part : Part σ Store.Snapshots} (h : v.StoresIn part)

include h

theorem StoresIn.emit (e : Progress.Event) : (v.progress.emit e).Keeps part.get := Keeps.modify (h.progress e)

theorem StoresIn.note {α : Type} (survey : Survey) (report : Stage.Report α) (detail : α → String) :
    (v.note survey report detail).Keeps part.get :=
  (h.emit _).andThen fun _ => trivial

theorem StoresIn.analyst : v.analyst.LeavesAlone part.get where
  models := h.models
  lookUp := h.lookUp
  put := h.put
  vectors := h.vectors
  progress := h.progress
  calendar := h.calendar
  note _ _ _ := rfl

theorem StoresIn.noteReadings (reports : List (Stage.Report Harvest)) (done : Survey × Harvests) :
    (v.noteReadings reports done).Keeps part.get := by
  induction reports generalizing done with
  | nil => trivial
  | cons report rest ih => exact (h.note _ _ _).andThen fun _ => ih _

theorem StoresIn.readBothWays (project : String) (r : Repository) (survey : Survey) :
    (v.readBothWays project r survey).Keeps part.get := by
  refine (h.emit _).andThen fun _ => Keeps.now_andThen fun t => ?_
  cases t.after? v.settings.analysisTimeout with
  | none => trivial
  | some deadline =>
    refine (StageGroup.keeps_run fun stage hstage => ?_).andThen fun reports => h.noteReadings _ _
    rcases List.mem_pair.mp hstage with rfl | rfl
    · refine (Keeps.together _ _ fun a ha => ?_).andThen fun _ => trivial
      obtain ⟨c, -, rfl⟩ := List.mem_map.mp ha
      exact h.scan c
    · exact (h.analyst.analyze _ _ _ _).andThen fun _ => trivial

theorem StoresIn.attempt {w : Document.Writer σ} (hw : w ∈ v.writers) (source : Document.Source) (rules : Gate.Rules)
    (left : Nat) (p : Document.Trial) : (w.attempt source rules left p).Keeps part.get := by
  induction left generalizing p with
  | zero => trivial
  | succ left ih =>
    refine (h.writers w hw source _).andThen fun result => ?_
    dsimp only
    split
    · split
      · trivial
      · exact ih _
    · exact ih _

theorem StoresIn.compose {w : Document.Writer σ} (hw : w ∈ v.writers) (source : Document.Source) (rules : Gate.Rules)
    (quality : Settings.Quality) : (w.compose source rules quality).Keeps part.get := by
  refine (h.attempt hw source rules _ _).andThen fun p => ?_
  cases p.latest with
  | none => trivial
  | some trial =>
    unfold Document.Writer.finish
    dsimp only
    split <;> trivial

theorem StoresIn.noteSections (pairs : List (String × Stage.Report Document.Section)) (survey : Survey) :
    (v.noteSections pairs survey).Keeps part.get := by
  induction pairs generalizing survey with
  | nil => trivial
  | cons pair rest ih => exact (h.note _ _ _).andThen fun _ => ih _

theorem StoresIn.write (source : Document.Source) (survey : Survey) : (v.write source survey).Keeps part.get := by
  refine (h.emit _).andThen fun _ => ?_
  refine (StageGroup.keeps_run fun stage hstage => ?_).andThen fun reports => h.noteSections _ _
  obtain ⟨name, -, rfl⟩ := List.mem_map.mp hstage
  unfold stageOf
  dsimp only
  cases hnamed : v.writers.named? name with
  | none => trivial
  | some w =>
    exact (h.emit _).andThen fun _ => (h.compose (List.mem_of_find?_eq_some hnamed) _ _ _).andThen fun _ => trivial

theorem StoresIn.verify (r : Repository) (survey : Survey) : (v.verify r survey).Keeps part.get := by
  unfold Surveyor.verify
  split
  · exact (h.note _ _ _).andThen fun _ => trivial
  · trivial

end Frame

/-- Whether a record is what a surveyor stores of a survey: the sections in the settings in their order, each node once
and by identifier, each edge once. -/
structure Stored (v : Surveyor σ) (survey : Survey) (record : Store.Snapshots.Record) : Prop where
  project : record.project = survey.project
  commit : survey.commit = some record.commit
  sections : record.sections = survey.sections.map fun s =>
    ⟨s.name, s.title, s.content, s.confidence, s.citations, record.savedAt⟩
  graph : survey.atlas.map (·.graph.snapshot) = some record.graph
  savedAt : v.calendar.MayEnd (.ok record.savedAt)
  names : record.sections.map (·.name) = v.settings.analysis.sections
  nodes : (record.graph.nodes.map (·.id)).Pairwise (· < ·)
  edges : (record.graph.edges.map (·.id)).Nodup
  persisted : ∃ status ∈ survey.stages, status.name = "persistence" ∧ status.outcome = .completed

/-- What a survey makes of what is kept: nothing else when it breaks off or fails, and else one more record is saved. -/
inductive Deposits (v : Surveyor σ) (project : String) (before : Store.Snapshots) :
    Option Survey → Store.Snapshots → Prop
  | broken : Deposits v project before none before
  | failed {survey : Survey} : survey.success = false → Deposits v project before (some survey) before
  | stored {survey : Survey} {record : Store.Snapshots.Record} : survey.success = true → survey.project = project →
      v.Stored survey record → Deposits v project before (some survey) (before.save record)

/-- What the last stage makes of what is kept. -/
inductive Saves (v : Surveyor σ) (r : Repository) (atlas : Atlas) (survey : Survey) (before : Store.Snapshots) :
    Option Survey → Store.Snapshots → Prop
  | broken : Saves v r atlas survey before none before
  | saved {now : Instant} {status : Stage.Status} : v.calendar.MayEnd (.ok now) → status.name = "persistence" →
      status.outcome = .completed → Saves v r atlas survey before
        (some { survey with stages := survey.stages ++ [status] }) (before.save (recordOf survey r atlas now))

section Run

variable {v : Surveyor σ} {part : Part σ Store.Snapshots} (h : v.StoresIn part) {before : Store.Snapshots}

include h

/-- Saving cannot go wrong. -/
theorem StoresIn.leaves_perform (record : Store.Snapshots.Record) :
    (Stage.perform "persistence" ((v.snapshots.save record).andThen fun result =>
      .done (result.mapError .store))).Leaves part.get before fun value now =>
        (∃ duration, value = some ⟨"persistence", duration, .completed ()⟩) ∧ now = before.save record := by
  rw [h.snapshots]
  rintro t s rfl
  exact ⟨⟨_, rfl⟩, h.lawful.get_set _ s⟩

theorem StoresIn.leaves_save (r : Repository) (atlas : Atlas) (survey : Survey) :
    (v.save r atlas survey).Leaves part.get before (v.Saves r atlas survey before) := by
  refine Leaves.andThen_of_keeps (h.emit _) (Activity.yields_true _).turnsOut .broken fun _ _ => ?_
  have hcalendar : ∀ t, v.calendar.TurnsOut True
      (fun result _ => ∀ now, result = .ok now → v.calendar.MayEnd (.ok now)) t := by
    refine fun t => (TurnsOut.trivial v.calendar t).mayEnd.mono id ?_
    rintro _ _ - ⟨-, hmay⟩ now rfl
    exact hmay
  refine Leaves.andThen_of_keeps h.calendar hcalendar .broken fun now hnow => ?_
  refine (h.leaves_perform (recordOf survey r atlas now)).andThen ?_ ?_
  · rintro _ ⟨⟨_, ⟨⟩⟩, -⟩
  · rintro report _ ⟨⟨duration, ⟨⟩⟩, rfl⟩
    refine Leaves.of_immediate (h.note _ _ _) (v.immediate_note survey _ _) ?_
    rintro _ rfl
    exact .saved hnow rfl rfl

/-- Once the atlas is built, a survey stores what it has found unless it breaks off before. -/
theorem StoresIn.leaves_publish [Nonempty σ] {project : String} {r : Repository} {report : Report} {atlas : Atlas}
    {survey : Survey} (hproject : survey.project = project) (hcommit : survey.commit = some r.commit)
    (hsections : survey.sections = []) (hgraph : atlas.graph.Consistent) :
    (v.publish r report atlas survey).Leaves part.get before (v.Deposits project before) := by
  refine Leaves.andThen_of_keeps (h.write _ _) (v.turnsOut_write_names _ _) .broken fun written hwritten => ?_
  refine Leaves.andThen_of_keeps (h.verify r written) (v.yields_verify r written).turnsOut .broken
    fun verified hverified => ?_
  have hall := hwritten.trans hverified
  refine (h.leaves_save r atlas verified).andThen ?_ ?_
  · rintro _ ⟨⟩
    exact .broken
  · rintro _ _ (_ | ⟨hnow, hname, houtcome⟩)
    refine Leaves.done (.stored rfl (hall.project.trans hproject) ?_)
    exact {
      project := rfl
      commit := hall.commit.trans hcommit
      sections := rfl
      graph := congrArg _ hall.atlas
      savedAt := hnow
      names := by
        have hnames := hall.sections
        simpa [recordOf, hsections, Function.comp_def] using hnames
      nodes := hgraph.pairwise_nodes
      edges := hgraph.nodup_edges
      persisted := ⟨_, List.mem_append_right _ (List.mem_singleton_self _), hname, houtcome⟩ }

/-- A survey that has a repository stores what it finds unless the atlas cannot be built or the survey breaks off. -/
theorem StoresIn.leaves_chart [Nonempty σ] {project : String} (r : Repository) {survey : Survey}
    (hproject : survey.project = project) (hsections : survey.sections = []) (hsuccess : survey.success = false) :
    (v.chart r survey).Leaves part.get before (v.Deposits project before) := by
  refine Leaves.andThen_of_keeps (h.readBothWays _ _ _) (v.yields_readBothWays _ _ _).turnsOut .broken ?_
  rintro ⟨read, harvests⟩ hread
  refine Leaves.andThen_of_keeps (h.emit _) (Activity.yields_true _).turnsOut .broken fun _ _ => ?_
  have hreconcile : ∀ t, (Stage.perform "reconciliation" (.done (reconcile read.project harvests) :
      Activity σ _)).TurnsOut True (fun result _ => ∀ report, result = .ok report →
        ∃ duration, report = ⟨"reconciliation", duration, Stage.endingOf (.ok (reconcile read.project harvests))⟩) t := by
    intro t
    have hdone : (.done (reconcile read.project harvests) : Activity σ _).TurnsOut True
        (fun result _ => result = .ok (reconcile read.project harvests)) t := rfl
    refine (Stage.turnsOut_perform "reconciliation" hdone).mono id ?_
    rintro _ stop - ⟨_, rfl, rfl⟩ _ ⟨⟩
    exact ⟨_, rfl⟩
  have hkeeps : (Stage.perform "reconciliation" (.done (reconcile read.project harvests) :
      Activity σ _)).Keeps part.get := Stage.keeps_perform _ trivial
  refine Leaves.andThen_of_keeps hkeeps hreconcile .broken ?_
  rintro _ ⟨duration, rfl⟩
  refine Leaves.andThen_of_keeps (h.note _ _ _) (v.yields_note _ _ _).turnsOut .broken fun noted hnoted => ?_
  cases hbuilt : reconcile read.project harvests with
  | error e => exact Leaves.done (.failed (hnoted.success.trans (hread.success.trans hsuccess)))
  | ok built =>
    refine h.leaves_publish (hnoted.project.trans (hread.project.trans hproject))
      (hnoted.commit.trans hread.commit) ?_ (consistent_of_reconcile hbuilt)
    have hnames := hnoted.sections.trans (congrArg (· ++ []) hread.sections)
    simpa [hsections] using hnames

omit h in
/-- What is counted and timed at the end of a survey is not stored. -/
theorem Deposits.leaves_close {project : String} {survey : Survey} {now : Store.Snapshots}
    (hdeposits : v.Deposits project before (some survey) now) (start : Moment) :
    (v.close start survey).Leaves part.get now (v.Deposits project before) := by
  rintro t s rfl
  show v.Deposits project before
    (some { survey with duration := t - start, usage := v.models.usage.get s }) (part.get s)
  generalize part.get s = now at hdeposits ⊢
  cases hdeposits with
  | failed hsuccess => exact .failed hsuccess
  | stored hsuccess hproject hstored =>
    exact .stored hsuccess hproject { hstored with }

/-- A survey saves at most one record, and nothing else changes what is kept. -/
theorem StoresIn.leaves_run [Nonempty σ] (project : String) :
    (v.run project).Leaves part.get before (v.Deposits project before) := by
  refine Leaves.andThen_of_keeps (Keeps.now_andThen fun _ => trivial) (Activity.yields_true _).turnsOut .broken
    fun start _ => ?_
  refine Leaves.andThen_of_keeps h.newId (Activity.yields_true _).turnsOut .broken fun id _ => ?_
  refine Leaves.andThen_of_keeps (h.emit _) (Activity.yields_true _).turnsOut .broken fun _ _ => ?_
  refine Leaves.andThen_of_keeps (Stage.keeps_perform _ (h.fetch project)) (Activity.yields_true _).turnsOut .broken
    fun report _ => ?_
  refine Leaves.andThen_of_keeps (h.note _ _ _) (v.yields_note _ _ _).turnsOut .broken fun noted hnoted => ?_
  have hsections : noted.sections = [] := by simpa using hnoted.sections
  cases report.output? with
  | none =>
    refine Deposits.leaves_close ?_ start
    exact .failed hnoted.success
  | some r =>
    refine (h.leaves_chart r hnoted.project hsections hnoted.success).andThen ?_ fun survey now hdeposits =>
      hdeposits.leaves_close start
    rintro _ ⟨⟩
    exact .broken

end Run

/-- A survey that somebody makes of a project, from a moment on. -/
structure Visit (σ : Type) where
  surveyor : Surveyor σ
  project : String
  start : Moment

namespace Visit

/-- What comes of a survey that is made in a state. -/
def outcome (x : Visit σ) (s : σ) : Outcome σ Survey := (x.surveyor.run x.project).run x.start s

/-- The survey of a project that got as far as to store what it had found, if that is what came of it. -/
def reached? (project : String) (x : Visit σ) (o : Outcome σ Survey) : Option (Surveyor σ × Survey) :=
  if x.project = project then (o.value?.filter (·.success)).map fun survey => (x.surveyor, survey) else none

/-- What comes of surveys that are made one after the other. -/
def outcomes : List (Visit σ) → σ → List (Visit σ × Outcome σ Survey)
  | [], _ => []
  | x :: rest, s => (x, x.outcome s) :: outcomes rest (x.outcome s).state

/-- The state after surveys that are made one after the other. -/
def after (visits : List (Visit σ)) (s : σ) : σ := visits.foldl (fun s x => (x.outcome s).state) s

/-- The last survey of a project that got as far as to store what it had found. -/
def last? (project : String) (visits : List (Visit σ)) (s : σ) : Option (Surveyor σ × Survey) :=
  ((outcomes visits s).filterMap fun y => y.1.reached? project y.2).getLast?

theorem outcomes_append (visits visits' : List (Visit σ)) (s : σ) :
    outcomes (visits ++ visits') s = outcomes visits s ++ outcomes visits' (after visits s) := by
  induction visits generalizing s with
  | nil => rfl
  | cons x rest ih => exact congrArg _ (ih _)

/-- One more survey of the project takes the place of the last one if it got that far. -/
theorem last?_append_singleton (project : String) (visits : List (Visit σ)) (x : Visit σ) (s : σ) :
    last? project (visits ++ [x]) s =
      (x.reached? project (x.outcome (after visits s))).or (last? project visits s) := by
  have hlast : outcomes [x] (after visits s) = [(x, x.outcome (after visits s))] := rfl
  rw [last?, outcomes_append, hlast, List.filterMap_append]
  cases hreached : x.reached? project (x.outcome (after visits s)) with
  | none => simp [hreached, last?]
  | some y => simp [hreached]

variable {part : Part σ Store.Snapshots}

theorem deposits {x : Visit σ} (h : x.surveyor.StoresIn part) (s : σ) :
    x.surveyor.Deposits x.project (part.get s) (x.outcome s).value? (part.get (x.outcome s).state) :=
  have : Nonempty σ := ⟨s⟩
  h.leaves_run x.project x.start s rfl

/-- What is kept of a project for which `old` was kept before, given the last survey of it that got far enough: what was
stored of that survey. -/
inductive Kept (project : String) (old : Option Store.Snapshots.Record) :
    Option (Surveyor σ × Survey) → Option Store.Snapshots.Record → Prop
  | untouched : Kept project old none old
  | replaced {v : Surveyor σ} {survey : Survey} {record : Store.Snapshots.Record} : survey.project = project →
      v.Stored survey record → Kept project old (some (v, survey)) (some record)

/-- What one survey makes of what is kept of a project. -/
theorem kept_outcome {x : Visit σ} (h : x.surveyor.StoresIn part) (s : σ) (project : String) :
    Kept project ((part.get s).load? project) (x.reached? project (x.outcome s))
      ((part.get (x.outcome s).state).load? project) := by
  have hdeposits := deposits h s
  rw [reached?]
  generalize (x.outcome s).value? = value at hdeposits ⊢
  generalize part.get (x.outcome s).state = now at hdeposits ⊢
  cases hdeposits with
  | broken =>
    simp only [Option.filter_none, Option.map_none, ite_self]
    exact .untouched
  | failed hsuccess =>
    simp only [Option.filter_some, hsuccess, Bool.false_eq_true, if_false, Option.map_none, ite_self]
    exact .untouched
  | @stored survey record hsuccess hproject hstored =>
    rw [Store.Snapshots.load?_save, hstored.project, hproject]
    simp only [Option.filter_some, hsuccess, if_true, Option.map_some]
    split
    · next hsame => exact .replaced (hproject.trans hsame) hstored
    · exact .untouched

/-- What is kept of a project after surveys that were made one after the other is what was stored of the last one of the
project that got so far; when there is none, it is what was kept before. No other survey changes it, whatever fails or
breaks off in it. -/
theorem load?_after (visits : List (Visit σ)) (h : ∀ x ∈ visits, x.surveyor.StoresIn part) (s : σ) (project : String) :
    Kept project ((part.get s).load? project) (last? project visits s)
        ((part.get (after visits s)).load? project) ∧
      ∀ x ∈ visits, ∀ s, x.reached? project (x.outcome s) = none →
        (part.get (x.outcome s).state).load? project = (part.get s).load? project := by
  have hone : ∀ x ∈ visits, ∀ s, x.reached? project (x.outcome s) = none →
      (part.get (x.outcome s).state).load? project = (part.get s).load? project := by
    intro x hx s hnone
    have hkept := kept_outcome (h x hx) s project
    rw [hnone] at hkept
    generalize (part.get (x.outcome s).state).load? project = found at hkept ⊢
    cases hkept
    rfl
  refine ⟨?_, hone⟩
  -- on the number of surveys: the last one either leaves what is kept alone or takes its place
  induction visits using List.reverseRecOn with
  | nil => exact .untouched
  | append_singleton visits x ih =>
    have hx : x ∈ visits ++ [x] := by simp
    have hbefore := ih (fun y hy => h y (List.mem_append_left _ hy)) fun y hy => hone y (List.mem_append_left _ hy)
    have hafter : after (visits ++ [x]) s = (x.outcome (after visits s)).state := List.foldl_append
    rw [last?_append_singleton, hafter]
    cases hreached : x.reached? project (x.outcome (after visits s)) with
    | none =>
      rw [hone x hx _ hreached]
      exact hbefore
    | some y =>
      have hkept := kept_outcome (h x hx) (after visits s) project
      rw [hreached] at hkept
      generalize (part.get (x.outcome (after visits s)).state).load? project = found at hkept ⊢
      cases hkept with
      | replaced hproject hstored => exact .replaced hproject hstored

end Visit

section Bench

/-- A state that is nothing but snapshots. -/
def wholeState : Part Store.Snapshots Store.Snapshots := ⟨id, fun b _ => b⟩

/-- A surveyor who has nothing but a place for snapshots, and repositories as far as `fetch` finds them. -/
def keeping (fetch : String → Except Stage.Failure Repository) : Surveyor Store.Snapshots where
  settings := {}
  fetch project := .done (fetch project)
  scan _ := .done (.ok .empty)
  models := {
    completion := fun _ => .crash "a model was asked"
    embedding := none
    breakers := ⟨fun _ => .ofSettings {}, fun _ s => s⟩
    usage := ⟨fun _ => {}, fun _ s => s⟩
    retry := .ofSettings {}
    chain := []
    embeddingModel := ""
    maxOutputTokens := 0
    timeout := 0 }
  checkpoints := {
    put := fun _ => .done (.ok ())
    get? := fun _ _ => .done (.ok none) }
  snapshots := Store.Snapshots.service wholeState
  writers := [⟨"features", "Features", fun _ _ => .crash "no words"⟩]
  calendar := .done 0
  newId := .done "s"

theorem storesIn_keeping (fetch : String → Except Stage.Failure Repository) :
    (keeping fetch).StoresIn wholeState where
  lawful := ⟨fun _ _ => rfl, fun _ => rfl⟩
  snapshots := rfl
  fetch _ := trivial
  scan _ := trivial
  models := ⟨fun _ => trivial, nofun, fun _ _ => rfl, fun _ _ => rfl⟩
  lookUp _ _ := trivial
  put _ := trivial
  vectors := nofun
  writers := by
    intro w hw source verdict
    rw [List.mem_singleton.mp hw]
    trivial
  progress _ _ := rfl
  calendar := trivial
  newId := trivial

/-- Two surveys of one project, the second without a repository, and one of another project. -/
def threeVisits : List (Visit Store.Snapshots) :=
  [⟨keeping fun _ => .ok {}, "shop", 0⟩,
    ⟨keeping fun _ => .error (.refused "ingestion" "gone"), "shop", 1⟩, ⟨keeping fun _ => .ok {}, "mill", 2⟩]

theorem Visit.load?_after_three :
    Kept "shop" (({} : Store.Snapshots).load? "shop") (last? "shop" threeVisits {})
        ((wholeState.get (after threeVisits {})).load? "shop") ∧
      ∀ x ∈ threeVisits, ∀ s, x.reached? "shop" (x.outcome s) = none →
        (wholeState.get (x.outcome s).state).load? "shop" = (wholeState.get s).load? "shop" := by
  have hstores : ∀ x ∈ threeVisits, x.surveyor.StoresIn wholeState := by
    intro x hx
    simp only [threeVisits, List.mem_cons, List.not_mem_nil, or_false] at hx
    rcases hx with rfl | rfl | rfl <;> exact storesIn_keeping _
  exact load?_after threeVisits hstores {} "shop"

end Bench

end Surveyor
end CodeAtlas

/-! The names of the sections of a survey. Whatever those do who take part in it, a survey that succeeds has the
sections that the settings ask for, in their order; so no other name can get into what is made of a survey. -/
namespace CodeAtlas

namespace Activity

variable {σ α β : Type}

/-- What follows an activity whose values are known, as far as only values matter. -/
theorem Yields.turnsOut_andThen {p : α → Prop} {q : β → Prop} {a : Activity σ β} {f : β → Activity σ α} {t : Moment}
    (h : a.Yields q) (hf : ∀ x, q x → ∀ t, (f x).TurnsOut True (fun r _ => ∀ y, r = .ok y → p y) t) :
    (a.andThen f).TurnsOut True (fun r _ => ∀ y, r = .ok y → p y) t :=
  (h.turnsOut t).andThen (fun x t' _ hx => hf x (hx x rfl) t') fun _ _ _ _ _ herror => nomatch herror

end Activity

namespace Surveyor

open Activity (TurnsOut Yields)

variable {σ : Type} (v : Surveyor σ)

/-- Whether a survey that has succeeded has the sections that the settings ask for. -/
def Complete (survey : Survey) : Prop :=
  survey.success = true → survey.sections.map (·.name) = v.settings.analysis.sections

theorem yields_save (r : Repository) (atlas : Atlas) (survey : Survey) :
    (v.save r atlas survey).Yields (Continues [] survey) :=
  (Activity.yields_true _).andThen fun _ _ => (Activity.yields_true _).andThen fun _ _ =>
    (Activity.yields_true _).andThen fun report _ => v.yields_note survey report _

theorem turnsOut_publish_complete [Nonempty σ] {r : Repository} {report : Report} {atlas : Atlas} {survey : Survey}
    (hsections : survey.sections = []) (t : Moment) :
    (v.publish r report atlas survey).TurnsOut True (fun result _ => ∀ s, result = .ok s → v.Complete s) t := by
  refine (v.turnsOut_write_names _ _ t).andThen ?_ fun _ _ _ _ _ herror => nomatch herror
  intro written t' _ hwritten
  refine (v.yields_verify r written).turnsOut_andThen fun verified hverified t => ?_
  refine (v.yields_save r atlas verified).turnsOut_andThen fun saved hsaved t => ?_
  rintro _ ⟨⟩ -
  have hall := (hwritten written rfl).trans (hverified.trans hsaved)
  simpa [hsections] using hall.sections

theorem turnsOut_chart_complete [Nonempty σ] (r : Repository) {survey : Survey} (hsections : survey.sections = [])
    (hsuccess : survey.success = false) (t : Moment) :
    (v.chart r survey).TurnsOut True (fun result _ => ∀ s, result = .ok s → v.Complete s) t := by
  refine (v.yields_readBothWays _ _ _).turnsOut_andThen ?_
  rintro ⟨read, harvests⟩ hread t
  refine (Activity.yields_true _).turnsOut_andThen fun _ _ t => ?_
  refine (Activity.yields_true _).turnsOut_andThen fun report _ t => ?_
  refine (v.yields_note _ report _).turnsOut_andThen fun noted hnoted t => ?_
  have hnone : noted.sections.map (·.name) = [] := by
    have hread := hread.sections
    have hnoted := hnoted.sections
    simp only [hsections, List.map_nil, List.append_nil] at hread hnoted
    rw [hnoted, hread]
  split
  · exact v.turnsOut_publish_complete (List.map_eq_nil_iff.mp hnone) t
  · rintro _ ⟨⟩ hdone
    rw [hnoted.success.trans (hread.success.trans hsuccess)] at hdone
    cases hdone

/-- A survey that succeeds has the sections that the settings ask for. -/
theorem turnsOut_run_complete [Nonempty σ] (project : String) (t : Moment) :
    (v.run project).TurnsOut True (fun result _ => ∀ s, result = .ok s → v.Complete s) t := by
  have hclose (start : Moment) {survey : Survey} (h : v.Complete survey) (t : Moment) :
      (v.close start survey).TurnsOut True (fun result _ => ∀ s, result = .ok s → v.Complete s) t := by
    rintro _ _ _ ⟨⟩
    exact h
  refine (Activity.yields_true _).turnsOut_andThen fun start _ t => ?_
  refine (Activity.yields_true _).turnsOut_andThen fun id _ t => ?_
  refine (Activity.yields_true _).turnsOut_andThen fun _ _ t => ?_
  refine (Activity.yields_true _).turnsOut_andThen fun report _ t => ?_
  refine (v.yields_note _ report _).turnsOut_andThen fun noted hnoted t => ?_
  cases report.output? with
  | none => exact hclose start (fun hdone => by rw [hnoted.success] at hdone; cases hdone) t
  | some r =>
    have hsections : noted.sections = [] := by simpa using hnoted.sections
    refine (v.turnsOut_chart_complete r hsections hnoted.success t).andThen ?_ fun _ _ _ _ _ herror => nomatch herror
    exact fun survey t' _ hsurvey => hclose start (hsurvey survey rfl) t'

/-- A survey that has ended has the sections that the settings ask for, if it has succeeded. -/
theorem complete_of_run {project : String} {t t' : Moment} {before after : σ} {survey : Survey}
    (h : (v.run project).run t before = .finished survey t' after) : v.Complete survey := by
  have : Nonempty σ := ⟨before⟩
  rcases (v.turnsOut_run_complete project t).run before with
    ⟨_, _, _, hrun, hcomplete⟩ | ⟨_, _, _, hrun, -⟩ | ⟨_, _, hrun, -⟩
  · cases h.symm.trans hrun
    exact hcomplete survey rfl
  · cases h.symm.trans hrun
  · cases h.symm.trans hrun

end Surveyor
end CodeAtlas
