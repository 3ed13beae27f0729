import Mathlib
import CodeAtlas.Guard.Retry
import CodeAtlas.Proofs.Activity.Proceeds
import CodeAtlas.Proofs.Activity.Series

/-! What a run of attempts comes to. The operation is given the numbers from zero on without gaps; every attempt but the
last has failed in a way that is worth another try and is followed by the wait after it, and the run is over with the
last attempt, whatever comes of that. -/
namespace CodeAtlas
namespace RetryPlan

open Activity (Series Span)

variable {σ ε α : Type}

/-- Whether an outcome is an error that is worth another try. -/
def WorthAgain (again : ε → Bool) (outcome : Except ε α) : Prop := ∃ e, outcome = .error e ∧ again e = true

/-- The numbers of attempts at which to stop: all that are allowed, or all up to an outcome that is not tried again. -/
def stops (p : RetryPlan) (again : ε → Bool) (outcomes : Nat → Except ε α) : Set Nat :=
  {n | n = max 1 p.maxAttempts ∨ ∃ k, n = k + 1 ∧ ¬ WorthAgain again (outcomes k)}

/-- How attempts come to an end that begin with some number when `left` more are allowed: those in `made` are all tried
again, and the one after them is not. -/
structure Tried (p : RetryPlan) (op : Nat → Activity σ (Except ε α)) (again : ε → Bool) (left attempt : Nat) (t : Nat)
    (s : σ) (made : List (Span σ (Except ε α))) (t' : Nat) (s' : σ) : Prop where
  earlier : Series op p.waitAfter (WorthAgain again) (List.range' attempt made.length) t s made t' s'
  last : (p.tryFrom op again left attempt).run t s = (op (attempt + made.length)).run t' s'
  few : made.length ≤ left
  final : made.length = left ∨
    ∀ x t'' s'', (op (attempt + made.length)).run t' s' = .finished x t'' s'' → ¬ WorthAgain again x

section Tried

variable {p : RetryPlan} {op : Nat → Activity σ (Except ε α)} {again : ε → Bool} {left attempt : Nat} {t t₁ t' : Nat}
  {s s₁ s' : σ} {made : List (Span σ (Except ε α))}

/-- An attempt is the last one when its outcome is not tried again, and also when it has none. -/
theorem tried_nil (hsame : (p.tryFrom op again left attempt).run t s = (op attempt).run t s)
    (hfinal : ∀ x t'' s'', (op attempt).run t s = .finished x t'' s'' → ¬ WorthAgain again x) :
    p.Tried op again left attempt t s [] t s :=
  ⟨.nil t s, hsame, Nat.zero_le _, .inr hfinal⟩

theorem Tried.cons {e : ε} (hrun : (op attempt).run t s = .finished (.error e) t₁ s₁) (hagain : again e = true)
    (h : p.Tried op again left (attempt + 1) (Activity.wake t₁ (p.waitAfter attempt)) s₁ made t' s') :
    p.Tried op again (left + 1) attempt t s (⟨t, s, t₁, s₁, .error e⟩ :: made) t' s' := by
  have hgoes : (p.tryFrom op again (left + 1) attempt).run t s = _ := Activity.run_andThen_of_run hrun _
  simp only [hagain, if_true] at hgoes
  have hwaits := hgoes.trans (Activity.run_andThen_of_run (Activity.run_sleep (p.waitAfter attempt) t₁ s₁) _)
  obtain ⟨hearlier, hlast, hfew, hfinal⟩ := h
  have hnumber : attempt + 1 + made.length = attempt + (made.length + 1) := by omega
  rw [hnumber] at hlast hfinal
  exact ⟨.cons hrun ⟨e, rfl, hagain⟩ hearlier, hwaits.trans hlast, Nat.succ_le_succ hfew,
    hfinal.imp_left (congrArg Nat.succ)⟩

end Tried

/-- Attempts go on until one comes to something that is not tried again, or until none is left. -/
theorem exists_tried (p : RetryPlan) (op : Nat → Activity σ (Except ε α)) (again : ε → Bool) (left attempt : Nat)
    (t : Nat) (s : σ) : ∃ made t' s', p.Tried op again left attempt t s made t' s' := by
  induction left generalizing attempt t s with
  | zero => exact ⟨[], t, s, .nil t s, rfl, Nat.le_refl 0, .inl rfl⟩
  | succ left ih =>
    cases hrun : (op attempt).run t s with
    | crashed m t₁ s₁ => exact ⟨[], t, s, tried_nil (hrun ▸ Activity.run_andThen_of_crash hrun _) (by simp [hrun])⟩
    | stuck t₁ s₁ => exact ⟨[], t, s, tried_nil (hrun ▸ Activity.run_andThen_of_stuck hrun _) (by simp [hrun])⟩
    | finished x t₁ s₁ =>
      have hgoes : (p.tryFrom op again (left + 1) attempt).run t s = _ := Activity.run_andThen_of_run hrun _
      cases x with
      | ok a =>
        refine ⟨[], t, s, tried_nil (hgoes.trans hrun.symm) fun x t'' s'' hx => ?_⟩
        cases hrun.symm.trans hx
        rintro ⟨e, ⟨⟩, _⟩
      | error e =>
        cases hagain : again e with
        | true =>
          obtain ⟨made, t', s', h⟩ := ih (attempt + 1) (Activity.wake t₁ (p.waitAfter attempt)) s₁
          exact ⟨_, t', s', h.cons hrun hagain⟩
        | false =>
          simp only [hagain, Bool.false_eq_true, if_false] at hgoes
          refine ⟨[], t, s, tried_nil (hgoes.trans hrun.symm) fun x t'' s'' hx => ?_⟩
          cases hrun.symm.trans hx
          rintro ⟨_, ⟨⟩, htrue⟩
          simp [hagain] at htrue

/-- How a run of attempts comes about: `made` are the attempts before the last one, which begins at `t'` in `s'`. -/
structure Retried (p : RetryPlan) (op : Nat → Activity σ (Except ε α)) (again : ε → Bool) (t : Moment) (s : σ)
    (made : List (Span σ (Except ε α))) (t' : Moment) (s' : σ) : Prop where
  /-- The attempts are numbered from zero without gaps, all but the last are worth another try, and each of these is
  followed by the wait after it. -/
  earlier : Series op p.waitAfter (WorthAgain again) (List.range made.length) t s made t' s'
  /-- The run comes to what the last attempt comes to, and nothing is done or waited after it. -/
  last : (p.run op again).run t s = (op made.length).run t' s'
  most : made.length + 1 ≤ max 1 p.maxAttempts
  /-- There are as many attempts as are allowed, or fewer if an earlier one comes to what is not tried again. -/
  count : ∀ outcomes : Nat → Except ε α, (∀ i a, made[i]? = some a → a.outcome = outcomes i) →
    ∀ t'' s'', (op made.length).run t' s' = .finished (outcomes made.length) t'' s'' →
      IsLeast (p.stops again outcomes) (made.length + 1)
  /-- What is waited is the sum of the waits after all attempts but the last, up to the timer's milliseconds. -/
  waited : ∃ waited, t' = t + Span.worked made + waited ∧
    ((List.range made.length).map p.waitAfter).sum ≤ waited ∧
    waited ≤ ((List.range made.length).map p.waitAfter).sum + made.length * 999999 ∧
    ((∀ a ∈ made, 1000000 ∣ a.ends) → (∀ i, i < made.length → 1000000 ∣ p.waitAfter i) →
      waited = ((List.range made.length).map p.waitAfter).sum)

/-- Every run of attempts, whatever the plan, the operation and what is worth another try. -/
theorem exists_retried (p : RetryPlan) (op : Nat → Activity σ (Except ε α)) (again : ε → Bool) (t : Moment) (s : σ) :
    ∃ made t' s', p.Retried op again t s made t' s' := by
  obtain ⟨made, t', s', hseries, hlast, hfew, hfinal⟩ := p.exists_tried op again (p.attempts - 1) 0 t s
  have hattempts : p.attempts = max 1 p.maxAttempts := Nat.max_comm _ _
  have hpos : 1 ≤ p.attempts := Nat.le_max_right _ _
  rw [← List.range_eq_range'] at hseries
  rw [Nat.zero_add] at hlast hfinal
  refine ⟨made, t', s', hseries, hlast, by omega, fun outcomes hmade t'' s'' hends => ⟨?_, ?_⟩, ?_⟩
  · rcases hfinal with hall | hnot
    · exact .inl (by omega)
    · exact .inr ⟨made.length, rfl, hnot _ t'' s'' hends⟩
  · rintro n (rfl | ⟨k, rfl, hk⟩)
    · omega
    · refine Nat.le_of_not_lt fun hearly => ?_
      -- an attempt before the last one was worth another try
      obtain ⟨_, _, _, hworth⟩ := hseries.getElem? (List.getElem?_eq_getElem (l := made) (i := k) (by omega))
      rw [hmade k _ (List.getElem?_eq_getElem _)] at hworth
      exact hk hworth
  · obtain ⟨waited, ht', hleast, hmost, hexact⟩ := hseries.moment
    rw [List.length_range] at hmost
    exact ⟨waited, ht', hleast, hmost, fun hwhole hwaits =>
      hexact hwhole fun i hi => hwaits i (List.mem_range.mp hi)⟩

end RetryPlan
end CodeAtlas
