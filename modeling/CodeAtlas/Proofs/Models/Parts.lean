import CodeAtlas.Models.Guarded
import CodeAtlas.Proofs.Activity.Mirrors

/-! Activities on a part of the state. What is put together from activities on a part is an activity on this part, and
it comes out as it does alone, with the rest of the state left as it was. -/
namespace CodeAtlas
namespace Activity

variable {σ τ ρ α β : Type} {part : Part σ τ}

/-- An activity on a part of the state. -/
def on (part : Part σ τ) : Activity τ α → Activity σ α
  | done x => done x
  | crash m => crash m
  | act c n => act (fun t s => part.set (c t (part.get s)) s) fun t s => on part (n t (part.get s))
  | wait u n => wait u (on part n)

theorem keeps_on {view : σ → ρ} (hpart : ∀ b s, view (part.set b s) = view s) (a : Activity τ α) :
    (on part a).Keeps view := by
  induction a with
  | done x => trivial
  | crash m => trivial
  | act c n ih => exact fun t s => ⟨hpart _ s, ih t (part.get s)⟩
  | wait u n ih => exact ih

section Parts

variable (part)

@[simp] theorem on_done (x : α) : on part (done x) = done x := rfl

@[simp] theorem on_pure (x : α) : on part (pure x : Activity τ α) = pure x := rfl

@[simp] theorem on_crash (m : String) : on part (crash m : Activity τ α) = crash m := rfl

theorem on_andThen (a : Activity τ β) (f : β → Activity τ α) :
    on part (a.andThen f) = (on part a).andThen fun x => on part (f x) := by
  induction a with
  | done x => rfl
  | crash m => rfl
  | act c n ih => exact congrArg (act _) (funext fun t => funext fun s => ih t (part.get s))
  | wait u n ih => exact congrArg (wait u) ih

theorem on_bind (a : Activity τ β) (f : β → Activity τ α) :
    on part (a >>= f) = on part a >>= fun x => on part (f x) := on_andThen part a f

theorem on_updatePart (inner : Part τ ρ) (f : Moment → ρ → α × ρ) :
    on part (updatePart inner f) = updatePart (part.inside inner) f := rfl

theorem on_cutAt (limit : Moment) (a : Activity τ α) : on part (cutAt limit a) = cutAt limit (on part a) := by
  induction a with
  | done x => rfl
  | crash m => rfl
  | act c n ih => exact congrArg (act _) (funext fun t => funext fun s => ih t (part.get s))
  | wait u n ih =>
    cases u with
    | none => rfl
    | some u =>
      rw [cutAt, on, cutAt, ← ih]
      split <;> rfl

variable {part} (hpart : part.Lawful)

include hpart

/-- A look at the moment changes nothing of the state. -/
theorem on_look (n : Moment → Activity τ α) :
    on part (act (fun _ s => s) fun t _ => n t) = act (fun _ s => s) fun t _ => on part (n t) :=
  congrArg (act · _) (funext fun _ => funext hpart.set_get)

theorem on_within (d : Duration) (a : Activity τ α) : on part (within d a) = within d (on part a) := by
  rw [within, on_look hpart, within]
  simp only [on_cutAt]

theorem on_sleep (d : Duration) : on part (sleep d) = sleep d := by
  rw [sleep, sleep]
  split
  · rfl
  · exact on_look hpart _

/-- An activity on a part of the state comes out as it does alone. -/
theorem run_on (hset : ∀ b b' s, part.set b (part.set b' s) = part.set b s) (a : Activity τ α) (t : Moment) (s : σ) :
    (on part a).run t s = (a.run t (part.get s)).mapState fun b => part.set b s := by
  induction a generalizing t s with
  | done x => rw [on_done, run, run, Outcome.mapState, hpart.set_get]
  | crash m => rw [on_crash, run, run, Outcome.mapState, hpart.set_get]
  | act c n ih =>
    rw [on, run, run, ih, hpart.get_set]
    simp only [hset]
  | wait u n ih =>
    cases u with
    | none => rw [on, run, run, Outcome.mapState, hpart.set_get]
    | some u => exact ih (max t u) s

end Parts

end Activity

end CodeAtlas

/-! Models in a part of the state. What they are asked is asked on this part: attempts, completions and chains of models
come out there as they do alone. -/
namespace CodeAtlas

namespace RetryPlan

open Activity (on)

variable {σ τ ε α : Type} {part : Activity.Part σ τ}

theorem on_run (hpart : part.Lawful) (p : RetryPlan) (operation : Nat → Activity τ (Except ε α)) (again : ε → Bool) :
    on part (p.run operation again) = p.run (fun k => on part (operation k)) again := by
  suffices h : ∀ left k, on part (p.tryFrom operation again left k) =
      p.tryFrom (fun k => on part (operation k)) again left k from h _ _
  intro left
  induction left with
  | zero => exact fun _ => rfl
  | succ left ih =>
    intro k
    rw [tryFrom, tryFrom, Activity.on_bind]
    refine congrArg _ (funext fun result => ?_)
    cases result with
    | ok x => rfl
    | error e =>
      dsimp only
      split
      · rw [Activity.on_bind, Activity.on_sleep hpart, ih]
      · rfl

end RetryPlan

theorem Registry.on_call {σ τ ε α : Type} (part : Activity.Part σ τ) (inner : Activity.Part τ Registry)
    (target : String) (operation : Activity τ (Except ε α)) (count : ε → Breaker.Booking) :
    (Registry.call inner target operation count).on part =
      Registry.call (part.inside inner) target (operation.on part) count := by
  rw [call, call, Activity.on_bind, Activity.on_updatePart]
  refine congrArg _ (funext fun admission => ?_)
  cases admission with
  | rejected retryAfter => rfl
  | admitted =>
    rw [Activity.on_bind]
    refine congrArg _ (funext fun result => ?_)
    rw [Activity.on_bind, Activity.on_updatePart]
    refine congrArg _ (funext fun booked => ?_)
    cases booked with
    | none => rfl
    | some _ => cases result <;> rfl

namespace Models

open Activity (on)

variable {σ τ : Type} {part : Activity.Part σ τ}

/-- Models in a part of the state. -/
def inPart (part : Activity.Part σ τ) (m : Models τ) : Models σ :=
  { m with
    completion := fun r => (m.completion r).on part
    embedding := m.embedding.map fun service model texts => (service model texts).on part
    breakers := part.inside m.breakers
    usage := part.inside m.usage }

section Completions

variable (hpart : part.Lawful) (m : Models τ) (messages : List Message) (jsonMode : Bool)

include hpart

theorem on_attempt (r : Request) : (m.attempt r).on part = (m.inPart part).attempt r := by
  have hask : (askInTime m.completion r).on part = askInTime (m.inPart part).completion r := by
    rw [askInTime, askInTime, Activity.on_bind, Activity.on_within hpart]
    refine congrArg _ (funext fun result => ?_)
    cases result <;> rfl
  rw [attempt, attempt, Activity.on_bind, Registry.on_call, hask]
  rfl

theorem on_complete (model : String) (timeout : Duration) :
    (m.complete model messages timeout jsonMode).on part =
      (m.inPart part).complete model messages timeout jsonMode := by
  rw [complete, complete, Activity.on_bind, RetryPlan.on_run hpart]
  simp only [on_attempt hpart]
  refine congrArg _ (funext fun result => ?_)
  cases result <;> rfl

theorem on_completeWithAny (models : List String) :
    (m.completeWithAny messages jsonMode models).on part =
      (m.inPart part).completeWithAny messages jsonMode models := by
  induction models with
  | nil => rfl
  | cons model rest ih =>
    rw [completeWithAny, completeWithAny, Activity.on_bind, on_complete hpart]
    refine congrArg _ (funext fun result => ?_)
    cases result with
    | ok c => rfl
    | error e => exact ih

/-- Models in a part of the state go through their chain as they do alone. -/
theorem on_completeWithFallback :
    (m.completeWithFallback messages jsonMode).on part = (m.inPart part).completeWithFallback messages jsonMode := by
  rw [completeWithFallback, completeWithFallback, Activity.on_bind, on_completeWithAny hpart]
  refine congrArg _ (funext fun result => ?_)
  cases result <;> rfl

end Completions

end Models
end CodeAtlas
