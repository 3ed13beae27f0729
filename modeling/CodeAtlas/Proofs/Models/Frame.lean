import CodeAtlas.Models.Guarded
import CodeAtlas.Proofs.Activity.Proceeds

/-! What asking the models leaves alone. When the services behind them do not change what a view shows of the
state, and breakers and accounts are kept elsewhere, then no request changes it, however often it is tried again
and however many models it is passed on to. -/
namespace CodeAtlas

open Activity (Keeps Part)

variable {σ ρ : Type} {view : σ → ρ}

theorem Activity.Keeps.call {ε α : Type} {part : Part σ Registry} (hpart : ∀ b s, view (part.set b s) = view s)
    {operation : Activity σ (Except ε α)} (h : operation.Keeps view) (target : String)
    (count : ε → Breaker.Booking) : (Registry.call part target operation count).Keeps view := by
  refine Keeps.andThen (Keeps.updatePart hpart _) fun admission => ?_
  cases admission with
  | rejected retryAfter => trivial
  | admitted =>
    refine Keeps.andThen h fun result => ?_
    refine Keeps.andThen (Keeps.updatePart hpart _) fun booked => ?_
    cases booked with
    | none => trivial
    | some _ => cases result <;> trivial

theorem Activity.Keeps.tryFrom {ε α : Type} (p : RetryPlan) {operation : Nat → Activity σ (Except ε α)}
    (h : ∀ attempt, (operation attempt).Keeps view) (again : ε → Bool) (left attempt : Nat) :
    (p.tryFrom operation again left attempt).Keeps view := by
  induction left generalizing attempt with
  | zero => exact h attempt
  | succ left ih =>
    refine Keeps.andThen (h attempt) fun result => ?_
    cases result with
    | ok a => trivial
    | error e =>
      dsimp only
      split
      · exact Keeps.andThen (Keeps.sleep _) fun _ => ih (attempt + 1)
      · trivial

namespace Models

/-- Whether services do not change what a view shows, and breakers and accounts are kept where it does not look. -/
structure LeavesAlone (m : Models σ) (view : σ → ρ) : Prop where
  completion : ∀ r, (m.completion r).Keeps view
  embedding : ∀ service, m.embedding = some service → ∀ model texts, (service model texts).Keeps view
  breakers : ∀ b s, view (m.breakers.set b s) = view s
  usage : ∀ u s, view (m.usage.set u s) = view s

namespace LeavesAlone

variable {m : Models σ}

theorem askInTime (h : m.LeavesAlone view) (r : Request) : (Models.askInTime m.completion r).Keeps view := by
  refine Keeps.andThen (Keeps.within (h.completion r) r.timeout) fun result => ?_
  cases result <;> trivial

theorem attempt (h : m.LeavesAlone view) (r : Request) : (m.attempt r).Keeps view :=
  Keeps.andThen (Keeps.call (fun _ s => h.breakers _ s) (h.askInTime r) _ _) fun _ => trivial

theorem complete (h : m.LeavesAlone view) (model : String) (messages : List Message) (timeout : Duration)
    (jsonMode : Bool) : (m.complete model messages timeout jsonMode).Keeps view := by
  refine Keeps.andThen (Keeps.tryFrom m.retry (fun _ => h.attempt _) _ _ _) fun result => ?_
  cases result with
  | ok c => exact Keeps.andThen (Keeps.updatePart h.usage _) fun _ => trivial
  | error e => trivial

theorem completeWithAny (h : m.LeavesAlone view) (messages : List Message) (jsonMode : Bool)
    (models : List String) : (m.completeWithAny messages jsonMode models).Keeps view := by
  induction models with
  | nil => trivial
  | cons model rest ih =>
    refine Keeps.andThen (h.complete model messages m.timeout jsonMode) fun result => ?_
    cases result with
    | ok c => trivial
    | error e => exact ih

theorem completeWithFallback (h : m.LeavesAlone view) (messages : List Message) (jsonMode : Bool) :
    (m.completeWithFallback messages jsonMode).Keeps view := by
  refine Keeps.andThen (h.completeWithAny messages jsonMode m.chain) fun answer => ?_
  cases answer <;> trivial

theorem embed (h : m.LeavesAlone view) (texts : List String) : (m.embed texts).Keeps view := by
  unfold Models.embed
  split
  · trivial
  · next service hservice =>
    have hasked : ((service m.embeddingModel texts).andThen fun r => .done (checkCount texts r)).Keeps view :=
      Keeps.andThen (h.embedding service hservice _ _) fun _ => trivial
    exact Keeps.andThen (Keeps.call (fun _ s => h.breakers _ s) hasked _ _) fun _ => trivial

theorem embedBatches (h : m.LeavesAlone view) (batches : List (List Input)) (slots : List (Option Vector)) :
    (m.embedBatches batches slots).Keeps view := by
  induction batches generalizing slots with
  | nil => trivial
  | cons batch rest ih =>
    refine Keeps.andThen (h.embed _) fun result => ?_
    cases result with
    | ok vectors => exact ih _
    | error e => trivial

theorem embedTexts (h : m.LeavesAlone view) (texts : List String) : (m.embedTexts texts).Keeps view :=
  h.embedBatches _ _

end LeavesAlone

section WithCompletion

variable {m : Models σ} {completion : CompletionService σ} {messages : List Message}

theorem complete_withCompletion (h : ∀ r : Request, r.messages = messages → completion r = m.completion r)
    (model : String) (timeout : Duration) (jsonMode : Bool) :
    complete { m with completion := completion } model messages timeout jsonMode =
      m.complete model messages timeout jsonMode := by
  have hattempt : attempt { m with completion := completion } ⟨model, messages, timeout, jsonMode, m.maxOutputTokens⟩ =
      m.attempt ⟨model, messages, timeout, jsonMode, m.maxOutputTokens⟩ := by
    simp only [attempt, askInTime, h ⟨model, messages, timeout, jsonMode, m.maxOutputTokens⟩ rfl]
  simp only [complete, hattempt]

theorem completeWithAny_withCompletion (h : ∀ r : Request, r.messages = messages → completion r = m.completion r)
    (jsonMode : Bool) (models : List String) :
    completeWithAny { m with completion := completion } messages jsonMode models =
      m.completeWithAny messages jsonMode models := by
  induction models with
  | nil => rfl
  | cons model rest ih =>
    unfold completeWithAny
    rw [complete_withCompletion h, ih]

/-- Who completes conversations is asked about no other one. -/
theorem completeWithFallback_withCompletion
    (h : ∀ r : Request, r.messages = messages → completion r = m.completion r) (jsonMode : Bool) :
    completeWithFallback { m with completion := completion } messages jsonMode =
      m.completeWithFallback messages jsonMode := by
  unfold completeWithFallback
  rw [completeWithAny_withCompletion h]

end WithCompletion

/-- Embeddings have nothing to do with who completes conversations. -/
theorem embedBatches_withCompletion (m : Models σ) (completion : CompletionService σ) (batches : List (List Input))
    (slots : List (Option Vector)) :
    embedBatches { m with completion := completion } batches slots = m.embedBatches batches slots := by
  induction batches generalizing slots with
  | nil => rfl
  | cons batch rest ih =>
    unfold embedBatches
    simp only [ih]
    rfl

end Models
end CodeAtlas
