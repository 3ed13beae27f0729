import Mathlib
import CodeAtlas.Guard.Registry
import CodeAtlas.Proofs.Activity.Alone
import CodeAtlas.Proofs.Activity.Proceeds
import CodeAtlas.Proofs.Guard.Traffic

/-! How one call through a registry comes out: turned away without the operation, or with what the operation ends in,
booked at the moment at which it ends. -/
namespace CodeAtlas
namespace Registry

open Activity (Part)

@[simp] theorem breakerOf_put_self (r : Registry) (target : String) (b : Breaker) :
    (r.put target b).breakerOf target = b := by
  simp [breakerOf, put]

theorem breakerOf_put_of_ne (r : Registry) {target other : String} (h : other ≠ target) (b : Breaker) :
    (r.put target b).breakerOf other = r.breakerOf other := by
  simp [breakerOf, put, Std.TreeMap.getD_insert, Ne.symm h]

variable {σ ε α : Type} (part : Part σ Registry) {target : String} {now : Moment} {w : σ} {b : Breaker}

/-- What a result counts as. -/
def bookingOf (count : ε → Breaker.Booking) : Except ε α → Breaker.Booking
  | .ok _ => .success
  | .error e => count e

/-- What a call answers that was let through. -/
def answerOf : Except ε α → Answer ε α
  | .ok a => .ok a
  | .error e => .failed e

theorem run_enter {admission : Breaker.Admission} (h : ((part.get w).breakerOf target).enter now = (admission, b)) :
    (Activity.updatePart part (enter target)).run now w =
      .finished admission now (part.set ((part.get w).put target b) w) := by
  simp [Activity.updatePart, Activity.update, Activity.run, enter, h]

/-- A call that is turned away never runs its operation. -/
theorem run_call_of_rejected {d : Duration} (h : ((part.get w).breakerOf target).enter now = (.rejected d, b))
    (operation : Activity σ (Except ε α)) (count : ε → Breaker.Booking) :
    (call part target operation count).run now w =
      .finished (.rejected target d) now (part.set ((part.get w).put target b) w) :=
  Activity.run_andThen_of_run (run_enter part h) _

/-- How a guarded operation comes out: with its result when that could be booked, else with a crash. -/
def ending (booked : Option Unit) (x : α) (t : Moment) (w : σ) : Activity.Outcome σ α :=
  match booked with
  | some _ => .finished x t w
  | none => .crashed overrunMessage t w

/-- What comes after a guarded operation. -/
def ending.next {β : Type} (booked : Option Unit) (a : Activity σ β) (t : Moment) (w : σ) : Activity.Outcome σ β :=
  match booked with
  | some _ => a.run t w
  | none => .crashed overrunMessage t w

theorem run_andThen_of_ending {β : Type} {a : Activity σ α} {t t₁ : Moment} {w w₁ : σ} {booked : Option Unit} {x : α}
    (h : a.run t w = ending booked x t₁ w₁) (f : α → Activity σ β) :
    (a.andThen f).run t w = ending.next booked (f x) t₁ w₁ := by
  cases booked with
  | none => exact Activity.run_andThen_of_crash h f
  | some _ => exact Activity.run_andThen_of_run h f

/-- A call that is let through ends with its operation, unless the breaker would open for longer than the clock can
show. -/
theorem run_call_of_admitted (h : ((part.get w).breakerOf target).enter now = (.admitted, b))
    (count : ε → Breaker.Booking) {operation : Activity σ (Except ε α)} {result : Except ε α} {t₁ : Moment}
    {w₁ : σ} (hrun : operation.run now (part.set ((part.get w).put target b) w) = .finished result t₁ w₁) :
    (call part target operation count).run now w =
      ending (((part.get w₁).breakerOf target).settle t₁ (bookingOf count result)).1 (answerOf result) t₁
        (part.set ((part.get w₁).put target (((part.get w₁).breakerOf target).settle t₁ (bookingOf count result)).2)
          w₁) := by
  set after := ((part.get w₁).breakerOf target).settle t₁ (bookingOf count result) with hafter
  have hbook : (Activity.updatePart part (book target (bookingOf count result))).run t₁ w₁ =
      .finished after.1 t₁ (part.set ((part.get w₁).put target after.2) w₁) := rfl
  unfold call
  refine (Activity.run_andThen_of_run (run_enter part h) _).trans ((Activity.run_andThen_of_run hrun _).trans ?_)
  cases result with
  | ok a =>
    refine (Activity.run_andThen_of_run hbook _).trans ?_
    cases after.1 <;> rfl
  | error e =>
    refine (Activity.run_andThen_of_run hbook _).trans ?_
    cases after.1 <;> rfl

/-- A call whose operation crashes books nothing. -/
theorem run_call_of_crash (h : ((part.get w).breakerOf target).enter now = (.admitted, b))
    (count : ε → Breaker.Booking) {operation : Activity σ (Except ε α)} {message : String} {t₁ : Moment} {w₁ : σ}
    (hrun : operation.run now (part.set ((part.get w).put target b) w) = .crashed message t₁ w₁) :
    (call part target operation count).run now w = .crashed message t₁ w₁ :=
  (Activity.run_andThen_of_run (run_enter part h) _).trans (Activity.run_andThen_of_crash hrun _)

theorem run_call_of_stuck (h : ((part.get w).breakerOf target).enter now = (.admitted, b))
    (count : ε → Breaker.Booking) {operation : Activity σ (Except ε α)} {t₁ : Moment} {w₁ : σ}
    (hrun : operation.run now (part.set ((part.get w).put target b) w) = .stuck t₁ w₁) :
    (call part target operation count).run now w = .stuck t₁ w₁ :=
  (Activity.run_andThen_of_run (run_enter part h) _).trans (Activity.run_andThen_of_stuck hrun _)

end Registry
end CodeAtlas

/-! How a guarded call ends. The limits of a breaker never change, so that how long it stays open is known, and a call
crashes only when the clock cannot show the end of that time. -/
namespace CodeAtlas
namespace Registry

open Activity (Part)

/-- Whether a breaker stays open for some time when it opens, in all states that satisfy `inv`, and whatever else
happens to it leaves that alone. -/
structure Guards {σ : Type} (part : Part σ Registry) (target : String) (inv : σ → Prop) (window : Duration) : Prop where
  openFor : ∀ s, inv s → ((part.get s).breakerOf target).limits.openFor = window
  put : ∀ s b, inv s → b.limits.openFor = window → inv (part.set ((part.get s).put target b) s)

end Registry

namespace Breaker

theorem limits_look (b : Breaker) (now : Moment) : (b.look now).limits = b.limits := (look_move b now).limits_eq

theorem limits_enter (b : Breaker) (now : Moment) : (b.enter now).2.limits = b.limits := by
  have hlook := limits_look b now
  unfold enter
  dsimp only
  split <;> exact hlook

theorem limits_settle (b : Breaker) (now : Moment) (booking : Booking) : (b.settle now booking).2.limits = b.limits :=
  (settle_move b now booking).limits_eq

/-- A booking fails only when the clock cannot show until when the breaker would be open. -/
theorem after?_of_settle {b : Breaker} {now : Moment} {booking : Booking} (h : (b.settle now booking).1 = none) :
    Moment.after? now b.limits.openFor = none := by
  rcases settle_cases b now booking with hsettled | ⟨hcan, -⟩
  · rw [hsettled] at h
    cases h
  · exact Option.not_isSome_iff_eq_none.mp hcan

end Breaker

namespace Registry

variable {σ ε α : Type} {part : Activity.Part σ Registry} {target : String} {inv : σ → Prop} {window : Duration}

/-- A guarded call ends as its operation does, or crashes because the clock cannot show until when the breaker would be
open. -/
theorem comesOut_call (h : Guards part target inv window) {operation : Activity σ (Except ε α)}
    (hop : ∀ t, operation.ComesOut inv (fun r _ => ∃ result, r = .ok result) t) (count : ε → Breaker.Booking)
    (t : Moment) : (call part target operation count).ComesOut inv (fun r t' => (∃ answer, r = .ok answer) ∨
      r = .error overrunMessage ∧ Moment.after? t' window = none) t := by
  have henter : ∀ t, (Activity.updatePart part (enter target)).ComesOut inv (fun r _ => ∃ x, r = .ok x) t := by
    refine fun t => Activity.ComesOut.updatePart fun s hs => ⟨h.put s _ hs ?_, _, rfl⟩
    exact (congrArg Breaker.Limits.openFor (Breaker.limits_enter _ t)).trans (h.openFor s hs)
  have hbook : ∀ booking t, (Activity.updatePart part (book target booking)).ComesOut inv
      (fun r t => ∃ booked, r = .ok booked ∧ (booked = none → Moment.after? t window = none)) t := by
    refine fun booking t => Activity.ComesOut.updatePart fun s hs => ⟨h.put s _ hs ?_, _, rfl, fun hnone => ?_⟩
    · exact (congrArg Breaker.Limits.openFor (Breaker.limits_settle _ t _)).trans (h.openFor s hs)
    · exact h.openFor s hs ▸ Breaker.after?_of_settle hnone
  refine (henter t).andThen_of_ok fun admission t' => ?_
  cases admission with
  | rejected retryAfter => exact .done (.inl ⟨_, rfl⟩)
  | admitted =>
    refine (hop t').andThen_of_ok fun result t'' => ?_
    refine (hbook (bookingOf count result) t'').andThen ?_ ?_
    · rintro booked t₁ ⟨_, ⟨⟩, hnone⟩
      cases booked with
      | none => exact fun _ _ => .inr ⟨rfl, hnone rfl⟩
      | some _ => cases result <;> exact .done (.inl ⟨_, rfl⟩)
    · rintro m t₁ ⟨_, ⟨⟩, _⟩

end Registry
end CodeAtlas
