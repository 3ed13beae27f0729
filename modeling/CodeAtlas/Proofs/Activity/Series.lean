import CodeAtlas.Duration
import CodeAtlas.Proofs.Activity.TurnsOut
import Mathlib

/-! Moments that the clock can show, and the whole milliseconds at which timers go off. -/
namespace CodeAtlas

namespace Duration

theorem le_roundUp (t : Nat) : t ≤ roundUp t := by
  unfold roundUp
  omega

end Duration

namespace Moment

theorem isSome_after?_iff {t d : Nat} : (after? t d).isSome ↔ (t + d) / 1000000000 ≤ lastSecond := by
  unfold after?
  split
  · next hle => exact ⟨fun _ => hle, fun _ => rfl⟩
  · next hnot => exact ⟨nofun, fun hle => absurd hle hnot⟩

/-- What the clock can show from a moment it can show from every earlier one. -/
theorem isSome_after?_of_le {t u d : Nat} (h : t ≤ u) (hu : (after? u d).isSome) : (after? t d).isSome := by
  rw [isSome_after?_iff] at hu ⊢
  exact Nat.le_trans (Nat.div_le_div_right (Nat.add_le_add_right h d)) hu

/-- A length of time that the clock can show has fewer seconds than the clock can count. -/
theorem lt_ofSeconds_of_after? {t d : Nat} (h : (after? t d).isSome) : d < Duration.ofSeconds (lastSecond + 1) := by
  have hseconds : (t + d) / 1000000000 < lastSecond + 1 := Nat.lt_succ_of_le (isSome_after?_iff.mp h)
  exact Nat.lt_of_le_of_lt (Nat.le_add_left d t) ((Nat.div_lt_iff_lt_mul (by decide)).mp hseconds)

/-- The clock cannot show a moment after more seconds than it can count. -/
theorem after?_ofSeconds_eq_none {t n : Nat} (h : lastSecond < n) : after? t (.ofSeconds n) = none := by
  refine if_neg (Nat.not_le.mpr (Nat.lt_of_lt_of_le h ?_))
  show n ≤ (t + n * 1000000000) / 1000000000
  rw [Nat.add_mul_div_right _ _ (by decide)]
  exact Nat.le_add_left n _

theorem lastSecond_lt_wide : lastSecond < Width.size 64 - 1 := by decide

end Moment

end CodeAtlas

/-! Work that is done for one item after the other, with pauses in between, for as long as it comes to something that is
gone on from. The time that a series takes is that of its pieces and of the pauses after them, which a timer stretches
by less than a millisecond each. -/
namespace CodeAtlas
namespace Activity

variable {σ α ι : Type}

/-- The moment at which a timer wakes one who goes to sleep at a moment. -/
def wake (t d : Nat) : Nat := if d = 0 then t else Duration.roundUp (t + d)

theorem add_le_wake (t d : Nat) : t + d ≤ wake t d := by
  unfold wake
  split
  · next hd => exact Nat.le_of_eq (by rw [hd, Nat.add_zero])
  · exact Duration.le_roundUp (t + d)

theorem wake_lt (t d : Nat) : wake t d < t + d + 1000000 := by
  unfold wake Duration.roundUp
  split <;> omega

/-- A timer is exact at whole milliseconds. -/
theorem wake_of_dvd {t d : Nat} (h : 1000000 ∣ t + d) : wake t d = t + d := by
  unfold wake Duration.roundUp
  split <;> omega

theorem run_sleep (d t : Nat) (s : σ) : (sleep d).run t s = .finished () (wake t d) s := by
  unfold sleep wake
  split
  · rfl
  · have hlater : t ≤ Duration.roundUp (t + d) := Nat.le_trans (Nat.le_add_right t d) (Duration.le_roundUp (t + d))
    simp [sleepUntil, run, Nat.max_eq_right hlater]

/-- The clock does not run back. -/
theorem le_moment_run (a : Activity σ α) (t : Nat) (s : σ) : t ≤ (a.run t s).moment := by
  induction a generalizing t s with
  | done x => exact Nat.le_refl t
  | crash m => exact Nat.le_refl t
  | act c n ih => exact ih t s t (c t s)
  | wait u n ih =>
    cases u with
    | none => exact Nat.le_refl t
    | some u => exact Nat.le_trans (Nat.le_max_left t u) (ih (max t u) s)

/-- An activity that is stopped in time comes to an end. -/
theorem ceases_cutAt (limit : Moment) (a : Activity σ α) : (cutAt limit a).Ceases := by
  induction a with
  | done x => exact fun _ => trivial
  | crash m => exact fun _ => trivial
  | act c n ih => exact fun t s => ih t s t
  | wait u n ih =>
    cases u with
    | none => exact fun _ => trivial
    | some u =>
      unfold cutAt
      split
      · exact fun t => ih (max t u)
      · exact fun _ => trivial

/-- A piece of work that has ended: when and in which state it began, when and in which state it ended, and what it came
to. -/
structure Span (σ α : Type) where
  begins : Nat
  before : σ
  ends : Nat
  after : σ
  outcome : α

namespace Span

def length (a : Span σ α) : Nat := a.ends - a.begins

/-- How long pieces of work have taken, the pauses between them apart. -/
def worked (made : List (Span σ α)) : Nat := (made.map length).sum

end Span

/-- Work for the items of a list, one after the other. What each piece has come to is gone on from, after a pause. -/
inductive Series (work : ι → Activity σ α) (pause : ι → Nat) (goesOn : α → Prop) :
    List ι → Nat → σ → List (Span σ α) → Nat → σ → Prop
  | nil (t : Nat) (s : σ) : Series work pause goesOn [] t s [] t s
  | cons {i : ι} {items : List ι} {t t₁ t' : Nat} {s s₁ s' : σ} {x : α} {made : List (Span σ α)} :
      (work i).run t s = .finished x t₁ s₁ → goesOn x →
      Series work pause goesOn items (wake t₁ (pause i)) s₁ made t' s' →
      Series work pause goesOn (i :: items) t s (⟨t, s, t₁, s₁, x⟩ :: made) t' s'

namespace Series

variable {work : ι → Activity σ α} {pause : ι → Nat} {goesOn : α → Prop} {items : List ι} {t t' : Nat}
  {s s' : σ} {made : List (Span σ α)}

/-- Each piece of work is that of its own item. -/
theorem getElem? (h : Series work pause goesOn items t s made t' s') {k : Nat} {a : Span σ α}
    (ha : made[k]? = some a) :
    ∃ i, items[k]? = some i ∧ (work i).run a.begins a.before = .finished a.outcome a.ends a.after ∧
      goesOn a.outcome := by
  induction h generalizing k with
  | nil t s => cases ha
  | @cons i items _ _ _ _ _ _ _ _ hrun hgoes _ ih =>
    cases k with
    | zero =>
      cases ha
      exact ⟨i, rfl, hrun, hgoes⟩
    | succ k => exact ih ha

/-- A series takes the time of its pieces and that of its pauses, each rounded up to the timer's next millisecond. -/
theorem moment (h : Series work pause goesOn items t s made t' s') :
    ∃ waited, t' = t + Span.worked made + waited ∧ (items.map pause).sum ≤ waited ∧
      waited ≤ (items.map pause).sum + items.length * 999999 ∧
      ((∀ a ∈ made, 1000000 ∣ a.ends) → (∀ i ∈ items, 1000000 ∣ pause i) → waited = (items.map pause).sum) := by
  induction h with
  | nil t s => exact ⟨0, rfl, Nat.zero_le _, Nat.zero_le _, fun _ _ => rfl⟩
  | @cons i items t t₁ t' s s₁ s' x made hrun _ _ ih =>
    obtain ⟨waited, ht', hleast, hmost, hexact⟩ := ih
    have hends : t ≤ t₁ := by
      have hlater := le_moment_run (work i) t s
      rwa [hrun] at hlater
    have hwake : t₁ + pause i ≤ wake t₁ (pause i) := add_le_wake t₁ (pause i)
    have hsoon : wake t₁ (pause i) < t₁ + pause i + 1000000 := wake_lt t₁ (pause i)
    have hworked : Span.worked (⟨t, s, t₁, s₁, x⟩ :: made) = (t₁ - t) + Span.worked made := rfl
    have hlength : (i :: items).length * 999999 = items.length * 999999 + 999999 := by
      rw [List.length_cons, Nat.add_mul, Nat.one_mul]
    refine ⟨wake t₁ (pause i) - t₁ + waited, by omega, ?_, ?_, fun hwhole hpauses => ?_⟩
    · rw [List.map_cons, List.sum_cons]
      omega
    · rw [List.map_cons, List.sum_cons, hlength]
      omega
    · have hthis : 1000000 ∣ t₁ + pause i :=
        Nat.dvd_add (hwhole _ (List.mem_cons_self ..)) (hpauses i (List.mem_cons_self ..))
      rw [List.map_cons, List.sum_cons, wake_of_dvd hthis, Nat.add_sub_cancel_left,
        hexact (fun a ha => hwhole a (List.mem_cons_of_mem _ ha)) fun j hj => hpauses j (List.mem_cons_of_mem _ hj)]

end Series
end Activity
end CodeAtlas
