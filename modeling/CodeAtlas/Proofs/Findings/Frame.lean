import CodeAtlas.Findings.Analyst
import CodeAtlas.Proofs.Activity.Alone
import CodeAtlas.Proofs.Models.Frame

/-! What an analysis leaves alone: whatever the models, the checkpoints, the vectors, the calendar and those who hear of
it leave alone, and whatever is not about a chunk that can be analysed. -/
namespace CodeAtlas
namespace Analyst

open Activity (Keeps)

variable {σ ρ : Type}

/-- An analyst all of whose helpers leave a view of the state alone. -/
structure LeavesAlone (a : Analyst σ) (view : σ → ρ) : Prop where
  models : a.models.LeavesAlone view
  lookUp : ∀ project fingerprint, (a.checkpoints.get? project fingerprint).Keeps view
  put : ∀ record, (a.checkpoints.put record).Keeps view
  vectors : ∀ service, a.vectors = some service → ∀ project records, (service.replace project records).Keeps view
  progress : ∀ e s, view (a.progress.notify e s) = view s
  calendar : a.calendar.Keeps view
  note : ∀ file m s, view (a.note file m s) = view s

namespace LeavesAlone

variable {a : Analyst σ} {view : σ → ρ}

theorem warn (h : a.LeavesAlone view) (c : Chunk) (m : Mishap) : (a.warn c m).Keeps view := Keeps.modify (h.note c.file m)

theorem readAnew (h : a.LeavesAlone view) (project commit : String) (c : Chunk) :
    (a.readAnew project commit c).Keeps view := by
  refine (h.models.completeWithFallback _ _).andThen fun answer => ?_
  cases understood c answer with
  | error m => exact (h.warn c m).andThen fun _ => trivial
  | ok findings =>
    refine h.calendar.andThen fun now => (h.put _).andThen fun kept => ?_
    cases kept with
    | ok _ => trivial
    | error e => exact (h.warn c _).andThen fun _ => trivial

theorem read (h : a.LeavesAlone view) (project commit : String) (c : Chunk) : (a.read project commit c).Keeps view := by
  refine (h.lookUp project c.fingerprint).andThen fun found => ?_
  cases found with
  | error e => exact (h.warn c _).andThen fun _ => h.readAnew project commit c
  | ok value =>
    dsimp only
    split
    · trivial
    · exact h.readAnew project commit c

theorem storeVectors (h : a.LeavesAlone view) (project : String) (chunks : List Chunk) :
    (a.storeVectors project chunks).Keeps view := by
  unfold Analyst.storeVectors
  split
  · trivial
  · next service hservice =>
    split
    · trivial
    · refine (h.models.embedTexts _).andThen fun result => ?_
      cases result with
      | error e => trivial
      | ok vectors => exact (h.vectors service hservice _ _).andThen fun _ => trivial

/-- An analysis changes nothing that its helpers leave alone. -/
theorem analyze (h : a.LeavesAlone view) (project commit : String) (chunks : List Chunk) (deadline : Option Moment) :
    (a.analyze project commit chunks deadline).Keeps view := by
  have hread : (a.readAll project commit (chunks.filter (·.isAnalyzable)) deadline).Keeps view := by
    refine Keeps.pool _ _ (fun _ _ _ s _ => h.progress _ s) (fun member hmember => ?_) _
    obtain ⟨c, -, rfl⟩ := List.mem_map.mp hmember
    exact h.read project commit c
  refine hread.andThen fun tally => ?_
  dsimp only
  split
  · exact (h.storeVectors project _).andThen fun _ => trivial
  · trivial

end LeavesAlone

section Answers

/-- An analyst who is served by others. -/
def servedBy (a : Analyst σ) (checkpoints : Store.Checkpoints.Service σ) (completion : Models.CompletionService σ) :
    Analyst σ :=
  { a with
    checkpoints := checkpoints
    models := { a.models with completion := completion } }

/-- Whether checkpoints and whoever completes conversations do the same as an analyst's when they are asked about chunks
of a list, whatever they do when they are asked about anything else. -/
structure AnswersAlike (a : Analyst σ) (project : String) (chunks : List Chunk)
    (checkpoints : Store.Checkpoints.Service σ) (completion : Models.CompletionService σ) : Prop where
  recalls : ∀ c ∈ chunks, checkpoints.get? project c.fingerprint = a.checkpoints.get? project c.fingerprint
  keeps : ∀ c ∈ chunks, ∀ r : Store.Checkpoints.Record, r.project = project → r.fingerprint = c.fingerprint →
    r.file = c.file → checkpoints.put r = a.checkpoints.put r
  completes : ∀ c ∈ chunks, ∀ r : Models.Request, r.messages = Findings.conversation c →
    completion r = a.models.completion r

variable {a : Analyst σ} {project : String} {chunks : List Chunk} {checkpoints : Store.Checkpoints.Service σ}
  {completion : Models.CompletionService σ}

theorem AnswersAlike.readAnew_eq (h : a.AnswersAlike project chunks checkpoints completion) (commit : String) {c : Chunk}
    (hc : c ∈ chunks) : (a.servedBy checkpoints completion).readAnew project commit c = a.readAnew project commit c := by
  have hasked : (a.servedBy checkpoints completion).models.completeWithFallback (Findings.conversation c) true =
      a.models.completeWithFallback (Findings.conversation c) true :=
    Models.completeWithFallback_withCompletion (h.completes c hc) true
  have hput (findings : ChunkFindings) (now : Instant) :
      checkpoints.put (checkpointOf project commit c findings now) =
        a.checkpoints.put (checkpointOf project commit c findings now) :=
    h.keeps c hc _ rfl rfl rfl
  unfold readAnew
  rw [hasked]
  simp only [servedBy, hput]
  rfl

theorem AnswersAlike.read_eq (h : a.AnswersAlike project chunks checkpoints completion) (commit : String) {c : Chunk}
    (hc : c ∈ chunks) : (a.servedBy checkpoints completion).read project commit c = a.read project commit c := by
  unfold read
  rw [h.readAnew_eq commit hc]
  simp only [servedBy, h.recalls c hc]
  rfl

/-- An analysis asks nobody about chunks that cannot be analysed: with whoever answers alike on the others, it is the
same. -/
theorem AnswersAlike.analyze_eq (h : a.AnswersAlike project (chunks.filter (·.isAnalyzable)) checkpoints completion)
    (commit : String) (deadline : Option Moment) :
    (a.servedBy checkpoints completion).analyze project commit chunks deadline =
      a.analyze project commit chunks deadline := by
  have hread : (chunks.filter (·.isAnalyzable)).map ((a.servedBy checkpoints completion).read project commit) =
      (chunks.filter (·.isAnalyzable)).map (a.read project commit) :=
    List.map_congr_left fun c hc => h.read_eq commit hc
  have hstore : (a.servedBy checkpoints completion).storeVectors project (chunks.filter (·.isAnalyzable)) =
      a.storeVectors project (chunks.filter (·.isAnalyzable)) := by
    unfold storeVectors Models.embedTexts servedBy
    simp only [Models.embedBatches_withCompletion]
  unfold analyze readAll
  dsimp only
  rw [hread, hstore]
  rfl

end Answers
end Analyst
end CodeAtlas
