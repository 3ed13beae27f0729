import CodeAtlas.Proofs.Findings.Reading
import CodeAtlas.Proofs.Models.Fallback
import CodeAtlas.Proofs.Models.Parts

/-! Readings apart from checkpoints. The models, the provider behind them and the checkpoints have states of their own,
and an analyst reads between them. Unless the checkpoints serve findings, a reading is what the models make of the chunk
from the moment on at which the look-up is over, whatever the checkpoints hold and whatever comes of offering them a
record; and findings that are served are all there is to the reading. -/
namespace CodeAtlas
namespace Analyst

open Activity (Outcome Part)
open Models (Dealings CompletionService)
open Store (Checkpoints)

/-- What an analyst reads with: the dealings with a provider of models, what the checkpoints keep, the records that were
offered to them, and what was written down. -/
structure Desk (τ κ : Type) where
  dealings : Dealings τ
  store : κ
  offered : List Checkpoints.Record := []
  notes : List (String × Mishap) := []

namespace Desk

variable {τ κ : Type}

def dealingsPart : Part (Desk τ κ) (Dealings τ) := ⟨dealings, fun d x => { x with dealings := d }⟩

def storePart : Part (Desk τ κ) κ := ⟨store, fun s x => { x with store := s }⟩

theorem lawful_dealingsPart : (dealingsPart : Part (Desk τ κ) (Dealings τ)).Lawful := ⟨fun _ _ => rfl, fun _ => rfl⟩

theorem lawful_storePart : (storePart : Part (Desk τ κ) κ).Lawful := ⟨fun _ _ => rfl, fun _ => rfl⟩

theorem run_on_dealingsPart {α : Type} (a : Activity (Dealings τ) α) (t : Moment) (x : Desk τ κ) :
    (a.on dealingsPart).run t x = (a.run t x.dealings).mapState fun d => { x with dealings := d } :=
  Activity.run_on lawful_dealingsPart (fun _ _ _ => rfl) a t x

theorem run_on_storePart {α : Type} (a : Activity κ α) (t : Moment) (x : Desk τ κ) :
    (a.on storePart).run t x = (a.run t x.store).mapState fun s => { x with store := s } :=
  Activity.run_on lawful_storePart (fun _ _ _ => rfl) a t x

/-- Checkpoints that a desk has, with a record of what they are offered. -/
def checkpoints (service : Checkpoints.Service κ) : Checkpoints.Service (Desk τ κ) where
  put r := do
    Activity.modify fun x => { x with offered := x.offered ++ [r] }
    (service.put r).on storePart
  get? project fingerprint := (service.get? project fingerprint).on storePart

end Desk

/-- An analyst at a desk, with checkpoints and a calendar of any kind. -/
def atDesk {τ κ : Type} (m : Models (Dealings τ)) (provider : CompletionService τ) (service : Checkpoints.Service κ)
    (calendar : Activity κ Instant) : Analyst (Desk τ κ) where
  models := (m.serving provider).inPart Desk.dealingsPart
  checkpoints := Desk.checkpoints service
  calendar := calendar.on Desk.storePart
  note file mishap x := { x with notes := x.notes ++ [(file, mishap)] }

section Answers

variable (project commit : String) (c : Chunk)

/-- What comes of the models' answer about a chunk: the reading, and the records that are offered to the checkpoints. Of
an answer that cannot be read, or of none, comes a stand-in, and nothing is offered. -/
inductive ComesOf : Except Models.Failure Models.Completion → Reading → List Checkpoints.Record → Prop where
  | parsed {completion : Models.Completion} {findings : ChunkFindings} (now : Instant) :
      Findings.Reply.read? completion.content c = some findings →
      ComesOf (.ok completion) ⟨findings, false⟩ [checkpointOf project commit c findings now]
  | unreadable {completion : Models.Completion} : Findings.Reply.read? completion.content c = none →
      ComesOf (.ok completion) ⟨.unreadable c.file, false⟩ []
  | unavailable {attempted : List String} :
      ComesOf (.error (.allModelsFailed attempted)) ⟨.unavailable c.file, false⟩ []

variable {project commit c} {answer : Except Models.Failure Models.Completion} {reading reading' : Reading}
  {offered offered' : List Checkpoints.Record}

theorem ComesOf.reading_eq (h : ComesOf project commit c answer reading offered)
    (h' : ComesOf project commit c answer reading' offered') : reading = reading' := by
  cases h with
  | parsed _ hread =>
    cases h' with
    | parsed _ hread' =>
      cases hread.symm.trans hread'
      rfl
    | unreadable hnone => cases hread.symm.trans hnone
  | unreadable hnone =>
    cases h' with
    | parsed _ hread' => cases hread'.symm.trans hnone
    | unreadable _ => rfl
  | unavailable =>
    cases h'
    rfl

theorem ComesOf.fresh (h : ComesOf project commit c answer reading offered) : reading.fromCheckpoint = false := by
  cases h <;> rfl

end Answers

section Anew

variable {τ κ : Type} (m : Models (Dealings τ)) (provider : CompletionService τ)

/-- What the models come to that are asked about a chunk. -/
def consulting (c : Chunk) (t : Moment) (d : Dealings τ) :
    Outcome (Dealings τ) (Except Models.Failure Models.Completion) :=
  ((m.serving provider).completeWithFallback (Findings.conversation c) true).run t d

/-- How a chunk is read anew from a moment on, where the dealings are `d` and the records in `offered` were offered. -/
inductive ReadAnew (project commit : String) (c : Chunk) (t : Moment) (d : Dealings τ)
    (offered : List Checkpoints.Record) : Outcome (Desk τ κ) Reading → Prop where
  | finished {answer : Except Models.Failure Models.Completion} {t₁ t₂ : Moment} {d' : Dealings τ} {reading : Reading}
      {more : List Checkpoints.Record} {x : Desk τ κ} :
      consulting m provider c t d = .finished answer t₁ d' → ComesOf project commit c answer reading more →
      x.dealings = d' → x.offered = offered ++ more → ReadAnew project commit c t d offered (.finished reading t₂ x)
  | crashed {message : String} {t₁ : Moment} {d' : Dealings τ} {x : Desk τ κ} :
      consulting m provider c t d = .crashed message t₁ d' → x.dealings = d' → x.offered = offered →
      ReadAnew project commit c t d offered (.crashed message t₁ x)

/-- Whether checkpoints and a calendar come to an end, be it with a failure to keep a record. -/
structure Responds (service : Checkpoints.Service κ) (calendar : Activity κ Instant) : Prop where
  put : ∀ r t s, ∃ result t' s', (service.put r).run t s = .finished result t' s'
  calendar : ∀ t s, ∃ now t' s', calendar.run t s = .finished now t' s'

/-- The models end with an answer or as those that have all failed, or they crash. -/
theorem consulting_cases (c : Chunk) (t : Moment) (d : Dealings τ) :
    (∃ completion t₁ d', consulting m provider c t d = .finished (.ok completion) t₁ d') ∨
      (∃ attempted t₁ d', consulting m provider c t d = .finished (.error (.allModelsFailed attempted)) t₁ d') ∨
      ∃ message t₁ d', consulting m provider c t d = .crashed message t₁ d' := by
  obtain ⟨passed, rest, made, t', x', counts, hgone⟩ :=
    Dealings.exists_goneThrough m provider (Findings.conversation c) true t d
  have hdecided : Dealings.Decided m provider _ _ rest t' x' (consulting m provider c t d) := hgone.decided
  cases hout : consulting m provider c t d with
  | finished answer t₁ d' =>
    rw [hout] at hdecided
    cases hdecided with
    | exhausted _ => exact .inr (.inl ⟨_, _, _, rfl⟩)
    | answered _ _ => exact .inl ⟨_, _, _, rfl⟩
  | crashed message t₁ d' => exact .inr (.inr ⟨message, t₁, d', rfl⟩)
  | stuck t₁ d' =>
    rw [hout] at hdecided
    cases hdecided

variable {m provider} {service : Checkpoints.Service κ} {calendar : Activity κ Instant}

theorem run_consult (service : Checkpoints.Service κ) (calendar : Activity κ Instant) {c : Chunk} {t : Moment}
    {x : Desk τ κ} {out : Outcome (Dealings τ) (Except Models.Failure Models.Completion)}
    (hout : consulting m provider c t x.dealings = out) :
    ((atDesk m provider service calendar).models.completeWithFallback (Findings.conversation c) true).run t x =
      out.mapState fun d => { x with dealings := d } := by
  have hpart : (Desk.dealingsPart : Part (Desk τ κ) (Dealings τ)).Lawful := Desk.lawful_dealingsPart
  have hon := Models.on_completeWithFallback hpart (m.serving provider) (Findings.conversation c) true
  rw [← hout]
  exact (congrArg (fun a => a.run t x) hon).symm.trans (Desk.run_on_dealingsPart _ t x)

/-- Findings are offered to the checkpoints once and, whatever these do with them, are the reading. -/
theorem readAnew_of_parsed (h : Responds service calendar) (project commit : String) {c : Chunk} {t t₁ : Moment}
    {x : Desk τ κ} {completion : Models.Completion} {findings : ChunkFindings} {d' : Dealings τ}
    (hout : consulting m provider c t x.dealings = .finished (.ok completion) t₁ d')
    (hread : Findings.Reply.read? completion.content c = some findings) :
    ReadAnew m provider project commit c t x.dealings x.offered
      (((atDesk m provider service calendar).readAnew project commit c).run t x) := by
  obtain ⟨now, t₂, s₂, hcalendar⟩ := h.calendar t₁ x.store
  let r := checkpointOf project commit c findings now
  obtain ⟨result, t₃, s₃, hput⟩ := h.put r t₂ s₂
  have hnow : (calendar.on Desk.storePart).run t₁ { x with dealings := d' } =
      .finished now t₂ { x with dealings := d', store := s₂ } := by
    rw [Desk.run_on_storePart, hcalendar]
    rfl
  have hoffer : ((Desk.checkpoints service).put r).run t₂ { x with dealings := d', store := s₂ } =
      .finished result t₃ { x with dealings := d', store := s₃, offered := x.offered ++ [r] } := by
    have hon := Desk.run_on_storePart (service.put r) t₂
      { x with dealings := d', store := s₂, offered := x.offered ++ [r] }
    rw [hput] at hon
    exact hon
  have hanew : ((atDesk m provider service calendar).readAnew project commit c).run t x = _ :=
    Activity.run_andThen_of_run (run_consult service calendar hout) _
  simp only [understood, hread] at hanew
  rw [hanew]
  show ReadAnew m provider project commit c t x.dealings x.offered
    ((Activity.andThen (calendar.on Desk.storePart) _).run t₁ { x with dealings := d' })
  rw [Activity.run_andThen_of_run hnow]
  show ReadAnew m provider project commit c t x.dealings x.offered
    ((Activity.andThen ((Desk.checkpoints service).put r) _).run t₂ { x with dealings := d', store := s₂ })
  rw [Activity.run_andThen_of_run hoffer]
  cases result with
  | ok _ => exact .finished hout (.parsed now hread) rfl rfl
  | error e => exact .finished hout (.parsed now hread) rfl rfl

theorem readAnew_atDesk (h : Responds service calendar) (project commit : String) (c : Chunk) (t : Moment)
    (x : Desk τ κ) :
    ReadAnew m provider project commit c t x.dealings x.offered
      (((atDesk m provider service calendar).readAnew project commit c).run t x) := by
  rcases consulting_cases m provider c t x.dealings with
    ⟨completion, t₁, d', hout⟩ | ⟨attempted, t₁, d', hout⟩ | ⟨message, t₁, d', hout⟩
  · cases hread : Findings.Reply.read? completion.content c with
    | some findings => exact readAnew_of_parsed h project commit hout hread
    | none =>
      have hanew : ((atDesk m provider service calendar).readAnew project commit c).run t x = _ :=
        Activity.run_andThen_of_run (run_consult service calendar hout) _
      simp only [understood, hread] at hanew
      rw [hanew]
      exact .finished hout (.unreadable hread) rfl (List.append_nil _).symm
  · have hanew : ((atDesk m provider service calendar).readAnew project commit c).run t x = _ :=
      Activity.run_andThen_of_run (run_consult service calendar hout) _
    rw [hanew]
    exact .finished hout .unavailable rfl (List.append_nil _).symm
  · have hanew : ((atDesk m provider service calendar).readAnew project commit c).run t x = _ :=
      Activity.run_andThen_of_crash (run_consult service calendar hout) _
    rw [hanew]
    exact .crashed hout rfl rfl

end Anew

section Lookups

variable {τ κ κ' : Type}

/-- Whether a look-up is over at a moment without findings: nothing was kept about the chunk, or nothing that can be
decoded, or the look-up failed. -/
def ServesNone (service : Checkpoints.Service κ) (project : String) (c : Chunk) (t : Moment) (s : κ) (t₁ : Moment) :
    Prop :=
  ∃ looked s₁, (service.get? project c.fingerprint).run t s = .finished looked t₁ s₁ ∧
    ∀ v, looked = .ok (some v) → ChunkFindings.decode? v = none

/-- Whether a look-up is over at a moment with findings. -/
def Serves (service : Checkpoints.Service κ) (project : String) (c : Chunk) (t : Moment) (s : κ)
    (findings : ChunkFindings) (t₁ : Moment) (s₁ : κ) : Prop :=
  ∃ v, (service.get? project c.fingerprint).run t s = .finished (.ok (some v)) t₁ s₁ ∧
    ChunkFindings.decode? v = some findings

/-- Whether two readings with different checkpoints are one: both are marked as fresh, with the same findings and the
same dealings, requests included, or both broke off with the same message in the same dealings. -/
inductive Alike : Outcome (Desk τ κ) Reading → Outcome (Desk τ κ') Reading → Prop where
  | finished {findings : ChunkFindings} {t t' : Moment} {x : Desk τ κ} {x' : Desk τ κ'} : x.dealings = x'.dealings →
      Alike (.finished ⟨findings, false⟩ t x) (.finished ⟨findings, false⟩ t' x')
  | crashed {message : String} {t : Moment} {x : Desk τ κ} {x' : Desk τ κ'} : x.dealings = x'.dealings →
      Alike (.crashed message t x) (.crashed message t x')

variable {m : Models (Dealings τ)} {provider : CompletionService τ} {service : Checkpoints.Service κ}
  {calendar : Activity κ Instant} {project commit : String} {c : Chunk} {t t₁ : Moment}

theorem ReadAnew.alike {d : Dealings τ} {offered offered' : List Checkpoints.Record}
    {out : Outcome (Desk τ κ) Reading} {out' : Outcome (Desk τ κ') Reading}
    (h : ReadAnew m provider project commit c t d offered out)
    (h' : ReadAnew m provider project commit c t d offered' out') : Alike out out' := by
  -- the models come to one outcome for both, so that both end or both break off
  cases h with
  | @finished answer _ _ _ reading _ _ hout hcomes hdealings _ =>
    cases h' with
    | finished hout' hcomes' hdealings' _ =>
      cases hout.symm.trans hout'
      cases hcomes.reading_eq hcomes'
      obtain ⟨findings, fromCheckpoint⟩ := reading
      cases hcomes.fresh
      exact .finished (hdealings.trans hdealings'.symm)
    | crashed hout' _ _ => cases hout.symm.trans hout'
  | crashed hout hdealings _ =>
    cases h' with
    | finished hout' _ _ _ => cases hout.symm.trans hout'
    | crashed hout' hdealings' _ =>
      cases hout.symm.trans hout'
      exact .crashed (hdealings.trans hdealings'.symm)

theorem run_lookUp {x : Desk τ κ} {looked : Except Store.Failure (Option Json)} {s₁ : κ}
    (h : (service.get? project c.fingerprint).run t x.store = .finished looked t₁ s₁) :
    ((Desk.checkpoints service).get? project c.fingerprint).run t x = .finished looked t₁ { x with store := s₁ } := by
  have hon := Desk.run_on_storePart (service.get? project c.fingerprint) t x
  rw [h] at hon
  exact hon

/-- A chunk without findings among the checkpoints is read anew when the look-up is over. -/
theorem read_of_servesNone (m : Models (Dealings τ)) (provider : CompletionService τ)
    (h : Responds service calendar) {x : Desk τ κ} (hnone : ServesNone service project c t x.store t₁)
    (commit : String) :
    ReadAnew m provider project commit c t₁ x.dealings x.offered
      (((atDesk m provider service calendar).read project commit c).run t x) := by
  obtain ⟨looked, s₁, hlook, hbad⟩ := hnone
  have hread : ((atDesk m provider service calendar).read project commit c).run t x = _ :=
    Activity.run_andThen_of_run (run_lookUp hlook) _
  cases looked with
  | error e =>
    rw [hread]
    exact readAnew_atDesk h project commit c t₁
      { x with store := s₁, notes := x.notes ++ [(c.file, .lookupFailed e)] }
  | ok value =>
    have hvalue : value.bind ChunkFindings.decode? = none := by
      cases value with
      | none => rfl
      | some v => exact hbad v rfl
    simp only [hvalue] at hread
    rw [hread]
    exact readAnew_atDesk h project commit c t₁ { x with store := s₁ }

theorem read_of_serves {x : Desk τ κ} {findings : ChunkFindings} {s₁ : κ}
    (h : Serves service project c t x.store findings t₁ s₁) (commit : String) :
    ((atDesk m provider service calendar).read project commit c).run t x =
      .finished ⟨findings, true⟩ t₁ { x with store := s₁ } := by
  obtain ⟨v, hlook, hdecode⟩ := h
  have hread : ((atDesk m provider service calendar).read project commit c).run t x = _ :=
    Activity.run_andThen_of_run (run_lookUp hlook) _
  simp only [Option.bind_some, hdecode] at hread
  exact hread

end Lookups

/-- Checkpoints have no influence on a reading that they do not serve. Readings with any two of them whose look-ups are
over at the same moment are one; a record is offered when the models' answer was read, once, and never for a stand-in;
and findings that are served are the reading, without a request and without an offer. -/
theorem reads_apart {τ : Type} (m : Models (Dealings τ)) (provider : CompletionService τ) (project commit : String)
    (c : Chunk) :
    (∀ {κ κ' : Type} {service : Checkpoints.Service κ} {service' : Checkpoints.Service κ'}
      {calendar : Activity κ Instant} {calendar' : Activity κ' Instant} {t t' t₁ : Moment} {x : Desk τ κ}
      {x' : Desk τ κ'}, Responds service calendar → Responds service' calendar' → x.dealings = x'.dealings →
      ServesNone service project c t x.store t₁ → ServesNone service' project c t' x'.store t₁ →
      Alike (((atDesk m provider service calendar).read project commit c).run t x)
        (((atDesk m provider service' calendar').read project commit c).run t' x')) ∧
    (∀ {κ : Type} {service : Checkpoints.Service κ} {calendar : Activity κ Instant} {t t₁ : Moment} {x : Desk τ κ},
      Responds service calendar → ServesNone service project c t x.store t₁ →
      ReadAnew m provider project commit c t₁ x.dealings x.offered
        (((atDesk m provider service calendar).read project commit c).run t x)) ∧
    ∀ {κ : Type} {service : Checkpoints.Service κ} {calendar : Activity κ Instant} {t t₁ : Moment} {x : Desk τ κ}
      {findings : ChunkFindings} {s₁ : κ}, Serves service project c t x.store findings t₁ s₁ →
      ((atDesk m provider service calendar).read project commit c).run t x =
        .finished ⟨findings, true⟩ t₁ { x with store := s₁ } := by
  refine ⟨fun {κ κ' service service' calendar calendar' t t' t₁ x x'} h h' hsame hnone hnone' => ?_,
    fun h hnone => read_of_servesNone m provider h hnone commit, fun h => read_of_serves h commit⟩
  have hanew := read_of_servesNone m provider h hnone commit
  have hanew' := read_of_servesNone m provider h' hnone' commit
  rw [← hsame] at hanew'
  exact hanew.alike hanew'

/-- Checkpoints that answer every look-up alike, and every record. -/
def fixedCheckpoints (looked : Except Store.Failure (Option Json)) (kept : Except Store.Failure Unit) :
    Checkpoints.Service Unit :=
  ⟨fun _ => .done kept, fun _ _ => .done looked⟩

/-- Whoever answers every request with the same text. -/
def sampleProvider : CompletionService Unit := fun r =>
  .done (.ok { content := sampleAnswer, model := r.model, usage := {} })

/-- A desk at which nothing has happened. -/
def sampleDesk : Desk Unit Unit := ⟨{ breakers := .ofSettings {}, provider := () }, (), [], []⟩

/-- A chunk is read alike when nothing was kept about it and when nothing can be looked up or kept; and a checkpoint is
served that can be decoded. -/
theorem reads_apart_sample :
    let read := fun service => ((atDesk Models.Dealings.twoModels sampleProvider service (.done 0)).read "p" "c"
      sampleChunk).run 0 sampleDesk
    Alike (read (fixedCheckpoints (.ok none) (.ok ())))
        (read (fixedCheckpoints (.error .files) (.error .files))) ∧
      ReadAnew Models.Dealings.twoModels sampleProvider "p" "c" sampleChunk 0 sampleDesk.dealings []
        (read (fixedCheckpoints (.ok none) (.ok ()))) ∧
      read (fixedCheckpoints (.ok (some sampleFindings.encode.canonical)) (.ok ())) =
        .finished ⟨sampleFindings, true⟩ 0 sampleDesk := by
  have hresponds : ∀ looked kept, Responds (fixedCheckpoints looked kept) (.done 0) := fun _ _ =>
    ⟨fun _ _ _ => ⟨_, _, _, rfl⟩, fun _ _ => ⟨_, _, _, rfl⟩⟩
  have hnone : ∀ looked kept, (∀ v, looked ≠ .ok (some v)) →
      ServesNone (fixedCheckpoints looked kept) "p" sampleChunk 0 () 0 := fun looked _ h =>
    ⟨looked, (), rfl, fun v hv => absurd hv (h v)⟩
  have hfits : sampleFindings.Fits := Findings.Reply.fits_of_read? read?_sampleAnswer
  obtain ⟨halike, hanew, hserved⟩ := reads_apart Models.Dealings.twoModels sampleProvider "p" "c" sampleChunk
  exact ⟨halike (hresponds _ _) (hresponds _ _) rfl (hnone _ _ nofun) (hnone _ _ nofun),
    hanew (hresponds _ _) (hnone _ _ nofun), hserved ⟨_, rfl, ChunkFindings.decode?_encode hfits⟩⟩

end Analyst
end CodeAtlas
