import CodeAtlas.Findings.Analyst
import CodeAtlas.Proofs.Activity.Prompt
import CodeAtlas.Proofs.Findings.Codec
import CodeAtlas.Proofs.Models.Frame
import CodeAtlas.Proofs.Store.Keeper

/-! Reading one chunk while others are read. The analyst keeps checkpoints in one part of the state and a journal of
mishaps in another. A reading during which nothing is written in the journal either repeats what the checkpoints
have, or is new and has been offered to them; either way it touches no chunk but its own. -/
namespace CodeAtlas
namespace Analyst

open Activity (Keeps Part Proceeds Prompt Steady)
open Store (Keeper)
open Store.CheckpointFiles (HaveOwnPlaces)

variable {σ : Type}

/-- Mishaps in the order in which they were written down, each with the file it is about. -/
abbrev Journal := List (String × Mishap)

/-- The checkpoints and the journal. -/
def shelf (store : Part σ Keeper) (journal : Part σ Journal) (s : σ) : Keeper × Journal := (store.get s, journal.get s)

/-- An analyst with checkpoints and a journal in parts of their own, which the models, the clock, the vectors and
the listeners do not change. The clock shows a time that the calendar has. -/
structure KeepsApart (a : Analyst σ) (store : Part σ Keeper) (journal : Part σ Journal) : Prop where
  store_lawful : store.Lawful
  journal_lawful : journal.Lawful
  journal_set : ∀ k s, journal.get (store.set k s) = journal.get s
  store_set : ∀ j s, store.get (journal.set j s) = store.get s
  checkpoints : a.checkpoints = Keeper.service store
  note : ∀ file m s, a.note file m s = journal.set (journal.get s ++ [(file, m)]) s
  models : a.models.LeavesAlone (shelf store journal)
  vectors : ∀ service, a.vectors = some service →
    ∀ project records, (service.replace project records).Keeps (shelf store journal)
  progress : ∀ e s, shelf store journal (a.progress.notify e s) = shelf store journal s
  calendar : a.calendar.Keeps (shelf store journal)
  inCalendar : a.calendar.Yields Instant.InCalendar

/-- What those who read other chunks do to the state: the checkpoints about this chunk stay, and nothing is taken
out of the journal. -/
structure Others (store : Part σ Keeper) (journal : Part σ Journal) (project fingerprint : String) (s s' : σ) :
    Prop where
  about : (store.get s').about project fingerprint = (store.get s).about project fingerprint
  journal : (journal.get s).length ≤ (journal.get s').length

/-- Where the reading of a chunk comes from, given what was kept about the chunk before and after: from a checkpoint
that is still there, or from a model, and then it has been offered as a checkpoint. -/
inductive Comes (project commit : String) (c : Chunk) (before after : Keeper) : Reading → Prop
  | recalled {value : Json} {findings : ChunkFindings} :
    before.get? project c.fingerprint = .ok (some value) → ChunkFindings.decode? value = some findings →
      after = before → Comes project commit c before after ⟨findings, true⟩
  | renewed {value : Option Json} {findings : ChunkFindings} {now : Instant} :
    before.get? project c.fingerprint = .ok value → value.bind ChunkFindings.decode? = none → findings.Fits →
      now.InCalendar → before.put (checkpointOf project commit c findings now) = .ok after →
      Comes project commit c before after ⟨findings, false⟩

/-- Findings in an answer fit. -/
theorem fits_of_understood {c : Chunk} {answer : Except Models.Failure Models.Completion} {findings : ChunkFindings}
    (h : understood c answer = .ok findings) : findings.Fits := by
  unfold understood at h
  split at h
  · split at h
    · next hread =>
      cases h
      exact Findings.Reply.fits_of_read? hread
    · cases h
  · cases h
  · cases h

section Steps

variable {a : Analyst σ} {store : Part σ Keeper} {journal : Part σ Journal} {project commit : String} {c : Chunk}
  {guar : σ → σ → Prop} {before : Keeper} {count : Nat} {s s' : σ}

theorem steady_others (store : Part σ Keeper) (journal : Part σ Journal) (project fingerprint : String) :
    Steady (Others store journal project fingerprint) where
  refl _ := ⟨rfl, Nat.le_refl _⟩
  trans _ _ _ h h' := ⟨h'.about.trans h.about, Nat.le_trans h.journal h'.journal⟩

theorem others_of_shelf {fingerprint : String} (h : shelf store journal s' = shelf store journal s) :
    Others store journal project fingerprint s s' := by
  obtain ⟨hstore, hjournal⟩ := Prod.mk.inj h
  exact ⟨congrArg (Keeper.about · project fingerprint) hstore, Nat.le_of_eq (congrArg List.length hjournal).symm⟩

/-- What is kept about the chunk is as it was, and the journal has not lost anything. -/
def Still (store : Part σ Keeper) (journal : Part σ Journal) (project fingerprint : String) (before : Keeper)
    (count : Nat) (s : σ) : Prop :=
  (store.get s).about project fingerprint = before ∧ count ≤ (journal.get s).length

theorem Still.others {fingerprint : String} (h : Still store journal project fingerprint before count s)
    (hs : Others store journal project fingerprint s s') : Still store journal project fingerprint before count s' :=
  ⟨hs.about.trans h.1, Nat.le_trans h.2 hs.journal⟩

variable (hguar : ∀ s s', (∀ fingerprint, HaveOwnPlaces project c.fingerprint project fingerprint →
  Others store journal project fingerprint s s') → guar s s')

include hguar

theorem proceeds_of_keeps {α : Type} {p : α → Prop} {act : Activity σ α} (hact : act.Keeps (shelf store journal))
    (hyields : act.Yields p) (hs : Still store journal project c.fingerprint before count s) :
    act.Proceeds (Others store journal project c.fingerprint) guar
      (fun x s' => p x ∧ Still store journal project c.fingerprint before count s') s :=
  hact.proceeds hyields (fun _ _ hsame => hguar _ _ fun _ _ => others_of_shelf hsame)
    (fun _ _ hsame hstill => hstill.others (others_of_shelf hsame)) (fun _ _ hs' hstill => hstill.others hs') hs

variable (h : a.KeepsApart store journal)

include h

theorem warn_proceeds (m : Mishap) (hs : count ≤ (journal.get s).length) :
    (a.warn c m).Proceeds (Others store journal project c.fingerprint) guar
      (fun _ s' => count < (journal.get s').length) s := by
  intro t s' hs'
  have hgrown : (journal.get (a.note c.file m s')).length = (journal.get s').length + 1 := by
    rw [h.note, h.journal_lawful.get_set, List.length_append, List.length_singleton]
  have hstore : store.get (a.note c.file m s') = store.get s' := by
    rw [h.note, h.store_set]
  have hlonger : (journal.get s').length ≤ (journal.get (a.note c.file m s')).length := by omega
  refine ⟨hguar _ _ fun fingerprint _ => ⟨congrArg (Keeper.about · project fingerprint) hstore, hlonger⟩, ?_⟩
  intro s'' hs''
  have hbefore := hs'.journal
  have hafter : (journal.get (a.note c.file m s')).length ≤ (journal.get s'').length := hs''.journal
  omega

theorem get?_proceeds (hs : Still store journal project c.fingerprint before count s) :
    (a.checkpoints.get? project c.fingerprint).Proceeds (Others store journal project c.fingerprint) guar
      (fun result s' => before.get? project c.fingerprint = result ∧
        Still store journal project c.fingerprint before count s') s := by
  rw [h.checkpoints, Keeper.service_get? h.store_lawful]
  refine Proceeds.update (fun _ _ _ hpost hs' => ⟨hpost.1, hpost.2.others hs'⟩) fun _ s' hs' => ?_
  have hstill := hs.others hs'
  refine ⟨hguar _ _ fun _ _ => (steady_others _ _ _ _).refl s', ?_, hstill⟩
  rw [← hstill.1, Keeper.get?_about]

theorem put_proceeds {r : Store.Checkpoints.Record} (hproject : r.project = project)
    (hfingerprint : r.fingerprint = c.fingerprint)
    (hs : Still store journal project c.fingerprint before count s) :
    (a.checkpoints.put r).Proceeds (Others store journal project c.fingerprint) guar
      (fun result s' => count ≤ (journal.get s').length ∧ (result = .ok () →
        before.put r = .ok ((store.get s').about project c.fingerprint))) s := by
  rw [h.checkpoints, Keeper.service_put h.store_lawful]
  refine Proceeds.update (fun _ _ _ hpost hs' => ?_) fun _ s' hs' => ?_
  · exact ⟨Nat.le_trans hpost.1 hs'.journal, fun hok => (hpost.2 hok).trans (by rw [hs'.about])⟩
  · have hstill := hs.others hs'
    split
    · next k hput =>
      refine ⟨hguar _ _ fun other hplaces => ⟨?_, ?_⟩, ?_, fun _ => ?_⟩
      · rw [h.store_lawful.get_set]
        rw [← hproject, ← hfingerprint] at hplaces
        rw [← hproject, Keeper.about_put_other hplaces hput]
      · rw [h.journal_set]
      · rw [h.journal_set]
        exact hstill.2
      · rw [h.store_lawful.get_set, ← hstill.1, ← hproject, ← hfingerprint]
        exact Keeper.about_put_same hput
    · exact ⟨hguar _ _ fun _ _ => (steady_others _ _ _ _).refl s', hstill.2, fun hok => by cases hok⟩

/-- A chunk that is read anew: unless something was written down, the findings have been offered as a checkpoint. -/
theorem readAnew_proceeds (commit : String) (hs : Still store journal project c.fingerprint before count s) :
    (a.readAnew project commit c).Proceeds (Others store journal project c.fingerprint) guar
      (fun r s' => count ≤ (journal.get s').length ∧ ((journal.get s').length ≤ count → r.fromCheckpoint = false ∧
        r.findings.Fits ∧ ∃ now : Instant, now.InCalendar ∧
          before.put (checkpointOf project commit c r.findings now) =
            .ok ((store.get s').about project c.fingerprint))) s := by
  have hsteady := steady_others store journal project c.fingerprint
  have hasked := proceeds_of_keeps hguar (h.models.completeWithFallback (Findings.conversation c) true)
    (Activity.yields_true _) hs
  refine Proceeds.andThen hsteady hasked fun answer s₁ ⟨_, hs₁⟩ => ?_
  cases hunderstood : understood c answer with
  | error m =>
    have hwarned := warn_proceeds hguar h m hs₁.2
    refine Proceeds.andThen hsteady hwarned fun _ s₂ hs₂ s₃ hs₃ => ?_
    have := hs₃.journal
    exact ⟨by omega, by omega⟩
  | ok findings =>
    have hfits := fits_of_understood hunderstood
    have hclock := proceeds_of_keeps hguar h.calendar h.inCalendar hs₁
    refine Proceeds.andThen hsteady hclock fun now s₂ ⟨hnow, hs₂⟩ => ?_
    have hput := put_proceeds hguar h (r := checkpointOf project commit c findings now) rfl rfl hs₂
    refine Proceeds.andThen hsteady hput fun result s₃ ⟨hlen, hresult⟩ => ?_
    cases result with
    | ok _ =>
      intro s₄ hs₄
      refine ⟨Nat.le_trans hlen hs₄.journal, fun _ => ⟨rfl, hfits, now, hnow, ?_⟩⟩
      rw [hs₄.about]
      exact hresult rfl
    | error e =>
      have hwarned := warn_proceeds hguar h (.notKept e) hlen
      refine Proceeds.andThen hsteady hwarned fun _ s₄ hs₄ s₅ hs₅ => ?_
      have := hs₅.journal
      exact ⟨by omega, by omega⟩

/-- A reading of a chunk, while others read other chunks. -/
theorem read_proceeds (commit : String) (s : σ) :
    (a.read project commit c).Proceeds (Others store journal project c.fingerprint) guar
      (fun r s' => (journal.get s).length ≤ (journal.get s').length ∧
        ((journal.get s').length ≤ (journal.get s).length →
          Comes project commit c ((store.get s).about project c.fingerprint)
            ((store.get s').about project c.fingerprint) r)) s := by
  have hsteady := steady_others store journal project c.fingerprint
  have hstill : Still store journal project c.fingerprint ((store.get s).about project c.fingerprint)
      (journal.get s).length s := ⟨rfl, Nat.le_refl _⟩
  refine Proceeds.andThen hsteady (get?_proceeds hguar h hstill) fun result s₁ ⟨hresult, hs₁⟩ => ?_
  cases result with
  | error e =>
    -- a mishap is in the journal for good, so what follows need not be shown to be kept
    refine Proceeds.andThen hsteady (warn_proceeds hguar h (.lookupFailed e) hs₁.2) fun _ s₂ hs₂ => ?_
    have hagain := readAnew_proceeds hguar h commit ⟨rfl, Nat.succ_le_of_lt hs₂⟩
    exact hagain.mono fun r s₃ hs₃ => ⟨Nat.le_of_succ_le hs₃.1, fun hle => absurd hs₃.1 (by omega)⟩
  | ok value =>
    cases hdecoded : value.bind ChunkFindings.decode? with
    | some findings =>
      obtain ⟨v, rfl, hv⟩ := Option.bind_eq_some_iff.mp hdecoded
      simp only [hdecoded]
      intro s₂ hs₂
      have hthere := hs₁.others hs₂
      exact ⟨hthere.2, fun _ => .recalled hresult hv hthere.1⟩
    | none =>
      simp only [hdecoded]
      refine (readAnew_proceeds hguar h commit hs₁).mono fun r s₂ ⟨hlen, hnew⟩ => ⟨hlen, fun hle => ?_⟩
      obtain ⟨findings, fromCheckpoint⟩ := r
      obtain ⟨rfl, hfits, now, hnow, hput⟩ := hnew hle
      exact .renewed hresult hdecoded hfits hnow hput

end Steps

section Again

variable {a : Analyst σ} {store : Part σ Keeper} {project : String} {c : Chunk} {s : σ}

/-- A checkpoint that can be decoded is what a reading gives, at once and without a change. -/
theorem read_recalled (hcheckpoints : a.checkpoints = Keeper.service store) (hstore : store.Lawful) {value : Json}
    {findings : ChunkFindings} (hget : (store.get s).get? project c.fingerprint = .ok (some value))
    (hdecode : ChunkFindings.decode? value = some findings) (commit : String) (t : Moment) :
    Prompt t (a.read project commit c) s ⟨findings, true⟩ s := by
  unfold read
  rw [hcheckpoints, Keeper.service_get? hstore]
  refine .act ?_
  simp only [hget, Option.bind_some, hdecode, Activity.andThen]
  exact .done _ _

/-- A chunk without a checkpoint that can be decoded is read anew. -/
theorem run_read_renewed (hcheckpoints : a.checkpoints = Keeper.service store) (hstore : store.Lawful)
    {value : Option Json} (hget : (store.get s).get? project c.fingerprint = .ok value)
    (hdecode : value.bind ChunkFindings.decode? = none) (commit : String) (t : Moment) :
    (a.read project commit c).run t s = (a.readAnew project commit c).run t s := by
  unfold read
  rw [hcheckpoints, Keeper.service_get? hstore]
  show (Activity.andThen (Activity.done ((store.get s).get? project c.fingerprint)) _).run t s = _
  simp only [hget, Activity.andThen, hdecode]

theorem prompt_read_renewed (hcheckpoints : a.checkpoints = Keeper.service store) (hstore : store.Lawful)
    {value : Option Json} (hget : (store.get s).get? project c.fingerprint = .ok value)
    (hdecode : value.bind ChunkFindings.decode? = none) {commit : String} {t : Moment} {s' : σ} {r : Reading}
    (h : Prompt t (a.readAnew project commit c) s r s') : Prompt t (a.read project commit c) s r s' := by
  unfold read
  rw [hcheckpoints, Keeper.service_get? hstore]
  refine .act ?_
  simp only [hget, Activity.andThen, hdecode]
  exact h

end Again

/-- The same analyst with models behind another service. -/
def withCompletion (a : Analyst σ) (completion : Models.CompletionService σ) : Analyst σ :=
  { a with models := { a.models with completion := completion } }

theorem writable_checkpointOf {findings : ChunkFindings} {now : Instant} (hfits : findings.Fits)
    (hnow : now.InCalendar) (project commit : String) (c : Chunk) :
    (checkpointOf project commit c findings now).Writable where
  exact := (ChunkFindings.exact_encode hfits).canonical.mono (by decide)
  sorted := Json.canonical_canonical _
  inCalendar := hnow

section Undecodable

variable {a : Analyst σ} {store : Part σ Keeper} {journal : Part σ Journal} {project commit : String} {c : Chunk}
  {s s' : σ}

/-- What becomes of a chunk when a checkpoint about it cannot be decoded. It is read anew, and the findings are
offered as a checkpoint. If that is accepted, later readings give the same findings and ask no model, whatever happens
to other chunks; if it is rejected, the old checkpoint stays what is given, and later readings are new ones. -/
theorem read_after_undecodable (h : a.KeepsApart store journal) {value : Json} {t t' : Moment} {r : Reading}
    (hserved : (store.get s).get? project c.fingerprint = .ok (some value))
    (hbad : ChunkFindings.decode? value = none) (hrun : (a.read project commit c).run t s = .finished r t' s')
    (hquiet : journal.get s' = journal.get s) :
    r.fromCheckpoint = false ∧ ∃ now : Instant,
      ((store.get s).about project c.fingerprint).put (checkpointOf project commit c r.findings now) =
        .ok ((store.get s').about project c.fingerprint) ∧
      ∀ (completion : Models.CompletionService σ) (commit' : String) (later : Moment) (s'' : σ),
        (store.get s'').about project c.fingerprint = (store.get s').about project c.fingerprint →
        ((store.get s).Accepts (checkpointOf project commit c r.findings now) →
          ((a.withCompletion completion).read project commit' c).run later s'' =
            .finished ⟨r.findings, true⟩ later s'') ∧
        ((store.get s).Rejects (checkpointOf project commit c r.findings now) →
          ((a.withCompletion completion).read project commit' c).run later s'' =
            ((a.withCompletion completion).readAnew project commit' c).run later s'') := by
  have hsteady : Steady fun _ _ : σ => True := ⟨fun _ => trivial, fun _ _ _ _ _ => trivial⟩
  have hguar : ∀ s s' : σ, (∀ fingerprint, HaveOwnPlaces project c.fingerprint project fingerprint →
      Others store journal project fingerprint s s') → True := fun _ _ _ => trivial
  have hproceeds := read_proceeds hguar h commit s
  obtain ⟨⟨-, hcomes⟩, -⟩ := hproceeds.of_run (steady_others store journal project c.fingerprint) hsteady hrun
  have hserved' : ((store.get s).about project c.fingerprint).get? project c.fingerprint = .ok (some value) :=
    Keeper.get?_about.trans hserved
  cases hcomes (Nat.le_of_eq (congrArg List.length hquiet)) with
  | recalled hget hdecode _ =>
    -- a reading that is recalled needs a result that can be decoded
    rw [hserved'] at hget
    cases hget
    rw [hbad] at hdecode
    cases hdecode
  | @renewed _ findings now _ _ hfits hnow hput =>
    have hwritable := writable_checkpointOf hfits hnow project commit c
    refine ⟨rfl, now, hput, fun completion commit' later s'' hlater => ⟨fun haccepts => ?_, fun hrejects => ?_⟩⟩
    · have hkept : (store.get s'').get? project c.fingerprint = .ok (some findings.encode.canonical) := by
        rw [← Keeper.get?_about, hlater]
        exact Keeper.get?_put_of_accepts hwritable (Keeper.accepts_about.mpr haccepts) hserved' hput
      exact (read_recalled (a := a.withCompletion completion) h.checkpoints h.store_lawful hkept
        (ChunkFindings.decode?_encode hfits) commit' later).run_eq
    · have hkept : (store.get s'').get? project c.fingerprint = .ok (some value) := by
        rw [← Keeper.get?_about, hlater]
        exact (Keeper.get?_put_of_rejects hwritable (Keeper.rejects_about.mpr hrejects) hput).trans hserved'
      exact run_read_renewed (a := a.withCompletion completion) h.checkpoints h.store_lawful hkept hbad commit' later

end Undecodable

section Bench

/-- A state that holds nothing but checkpoints and a journal. -/
abbrev Shelf := Keeper × Journal

/-- The checkpoints of a shelf. -/
def Shelf.store : Part Shelf Keeper := ⟨Prod.fst, fun k s => (k, s.2)⟩

/-- The journal of a shelf. -/
def Shelf.journal : Part Shelf Journal := ⟨Prod.snd, fun j s => (s.1, j)⟩

/-- An analyst with one model whose breaker is always new, and with a clock that stands still. -/
def onShelf (completion : Models.CompletionService Shelf) : Analyst Shelf where
  models := {
    completion := completion
    embedding := none
    breakers := ⟨fun _ => .ofSettings {}, fun _ s => s⟩
    usage := ⟨fun _ => {}, fun _ s => s⟩
    retry := .immediate 1
    chain := ["m"]
    embeddingModel := "e"
    maxOutputTokens := 100
    timeout := .ofSeconds 1 }
  checkpoints := Keeper.service Shelf.store
  calendar := .done 0
  note file m s := (s.1, s.2 ++ [(file, m)])

/-- A model that answers everything with the same text. -/
def answering (text : String) : Models.CompletionService Shelf := fun r => .done (.ok ⟨text, r.model, {}⟩)

/-- A model that breaks off whatever asks it. -/
def refusing : Models.CompletionService Shelf := fun _ => .crash "a model was asked"

theorem inCalendar_zero : Instant.InCalendar 0 := by
  unfold Instant.InCalendar
  decide +kernel

theorem keepsApart_onShelf (text : String) : (onShelf (answering text)).KeepsApart Shelf.store Shelf.journal where
  store_lawful := ⟨fun _ _ => rfl, fun _ => rfl⟩
  journal_lawful := ⟨fun _ _ => rfl, fun _ => rfl⟩
  journal_set _ _ := rfl
  store_set _ _ := rfl
  checkpoints := rfl
  note _ _ _ := rfl
  models := {
    completion := fun _ => trivial
    embedding := fun _ hservice => nomatch hservice
    breakers := fun _ _ => rfl
    usage := fun _ _ => rfl }
  vectors _ hservice := nomatch hservice
  progress _ _ := rfl
  calendar := trivial
  inCalendar := inCalendar_zero

/-- A chunk that is read anew on a shelf. -/
theorem prompt_readAnew {text project commit : String} {c : Chunk} {findings : ChunkFindings} {s : Shelf}
    {k : Keeper} (hread : Findings.Reply.read? text c = some findings)
    (hput : s.1.put (checkpointOf project commit c findings 0) = .ok k) (t : Moment) :
    Prompt t ((onShelf (answering text)).readAnew project commit c) s ⟨findings, false⟩ (k, s.2) := by
  have hasked : Prompt t ((onShelf (answering text)).models.completeWithFallback (Findings.conversation c) true) s
      (.ok ⟨text, "m", {}⟩) s := .act (.act (.act (.act (.done _ _))))
  have hunderstood : understood c (.ok ⟨text, "m", {}⟩) = .ok findings := by
    simp only [understood, hread]
  refine Prompt.andThen hasked ?_
  rw [hunderstood]
  show Prompt t (Activity.andThen ((Keeper.service Shelf.store).put _) _) s _ _
  rw [Keeper.service_put ⟨fun _ _ => rfl, fun _ => rfl⟩]
  refine .act ?_
  simp only [Shelf.store, hput]
  exact .done _ _

/-- A chunk of three lines. -/
def sampleChunk : Chunk := ⟨"greeter.py", "python", 1, 3, "def greet(name):\n    return name\n", none⟩

/-- An answer about it. -/
def sampleAnswer : String := "\x7b\"purpose\": \"Greets\"\x7d"

/-- What the answer says. -/
def sampleFindings : ChunkFindings := ⟨{ file := "greeter.py", purpose := "Greets" }, [], []⟩

/-- A document that is not findings. -/
def bogus : Json := .obj [("bogus", .bool true)]

/-- A shelf with a checkpoint about the chunk that cannot be decoded. -/
def spoiled (commit : String) : Shelf :=
  (.memory [⟨"p", commit, sampleChunk.fingerprint, "greeter.py", bogus, 0⟩], [])

theorem read?_sampleAnswer : Findings.Reply.read? sampleAnswer sampleChunk = some sampleFindings := by
  decide +kernel

theorem get?_spoiled (commit : String) :
    (Shelf.store.get (spoiled commit)).get? "p" sampleChunk.fingerprint = .ok (some bogus) := by
  simp [Shelf.store, spoiled, Keeper.get?, Store.Checkpoints.get?, Store.Checkpoints.Record.isAbout]

theorem decode?_bogus : ChunkFindings.decode? bogus = none := by
  rfl

/-- The first reading of a chunk with a spoiled checkpoint. -/
theorem run_read_spoiled (commit commit' : String) {k : Keeper}
    (hput : (spoiled commit).1.put (checkpointOf "p" commit' sampleChunk sampleFindings 0) = .ok k) :
    ((onShelf (answering sampleAnswer)).read "p" commit' sampleChunk).run 0 (spoiled commit) =
      .finished ⟨sampleFindings, false⟩ 0 (k, []) := by
  have hanew := prompt_readAnew read?_sampleAnswer hput 0
  exact (prompt_read_renewed rfl (keepsApart_onShelf sampleAnswer).store_lawful (get?_spoiled commit) decode?_bogus
    hanew).run_eq

theorem accepts_spoiled (now : Instant) :
    (Shelf.store.get (spoiled "c0")).Accepts (checkpointOf "p" "c1" sampleChunk sampleFindings now) := by
  unfold Keeper.Accepts
  simp [Shelf.store, spoiled, Store.Checkpoints.Record.sameKey, checkpointOf]

/-- A spoiled checkpoint of another commit is no more than a miss. -/
theorem read_after_undecodable_other_commit :
    ∃ s', ((onShelf (answering sampleAnswer)).read "p" "c1" sampleChunk).run 0 (spoiled "c0") =
        .finished ⟨sampleFindings, false⟩ 0 s' ∧
      ((onShelf refusing).read "p" "c1" sampleChunk).run 0 s' = .finished ⟨sampleFindings, true⟩ 0 s' := by
  have hrun := run_read_spoiled "c0" "c1" rfl
  obtain ⟨-, now, -, hlater⟩ := read_after_undecodable (keepsApart_onShelf sampleAnswer) (get?_spoiled "c0")
    decode?_bogus hrun rfl
  exact ⟨_, hrun, (hlater refusing "c1" 0 _ rfl).1 (accepts_spoiled now)⟩

/-- A spoiled checkpoint of the same commit is never replaced: the model is asked for the chunk again. -/
theorem read_after_undecodable_same_commit :
    (Shelf.store.get (spoiled "c1")).get? "p" sampleChunk.fingerprint = .ok (some bogus) ∧
      ChunkFindings.decode? bogus = none ∧
      ((onShelf (answering sampleAnswer)).read "p" "c1" sampleChunk).run 0 (spoiled "c1") =
        .finished ⟨sampleFindings, false⟩ 0 (spoiled "c1") ∧
      ((onShelf refusing).read "p" "c1" sampleChunk).run 0 (spoiled "c1") =
        .crashed "a model was asked" 0 (spoiled "c1") := by
  have hput : (spoiled "c1").1.put (checkpointOf "p" "c1" sampleChunk sampleFindings 0) = .ok (spoiled "c1").1 := by
    simp [spoiled, Keeper.put, Store.Checkpoints.put, Store.Checkpoints.Record.sameKey,
      Store.Checkpoints.Record.isAbout, checkpointOf]
  have hagain := run_read_renewed (a := onShelf refusing) rfl (keepsApart_onShelf sampleAnswer).store_lawful
    (get?_spoiled "c1") decode?_bogus "c1" 0
  exact ⟨get?_spoiled "c1", decode?_bogus, run_read_spoiled "c1" "c1" hput, hagain⟩

end Bench

end Analyst
end CodeAtlas
