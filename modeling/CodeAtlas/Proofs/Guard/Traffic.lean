import Mathlib
import CodeAtlas.Guard.Breaker

/-! Overlapping calls at one breaker. A call is admitted at one moment and its outcome booked at a later one; in
between anything else may happen: other calls, looks, resets, time that passes. `Move` is all that happens to the
breaker itself when it is not reset, and every statement about runs is drawn from it. -/
namespace CodeAtlas
namespace Breaker

/-- What happens at a breaker. Calls go by the number of those admitted before them. -/
inductive Event where
  | arrive
  | finish (call : Nat) (booking : Booking)
  | look
  | reset
  | pass (d : Duration)
deriving DecidableEq

/-- A breaker at a moment, the number of calls it has admitted so far, and those of them still under way. -/
structure Traffic where
  breaker : Breaker
  now : Moment
  admitted : Nat := 0
  underway : List Nat := []

namespace Traffic

/-- A new breaker at a moment. -/
def start (limits : Limits) (now : Moment) : Traffic := { breaker := .new limits, now := now }

def arrive (s : Traffic) : Admission × Traffic :=
  match s.breaker.enter s.now with
  | (.rejected retryAfter, b) => (.rejected retryAfter, { s with breaker := b })
  | (.admitted, b) =>
    (.admitted, { s with breaker := b, admitted := s.admitted + 1, underway := s.underway ++ [s.admitted] })

/-- The outcome of a call that is not under way is no outcome. -/
def finish (s : Traffic) (call : Nat) (booking : Booking) : Traffic :=
  if call ∈ s.underway then
    { s with breaker := (s.breaker.settle s.now booking).2, underway := s.underway.erase call }
  else s

def step (s : Traffic) : Event → Traffic
  | .arrive => s.arrive.2
  | .finish call booking => s.finish call booking
  | .look => { s with breaker := s.breaker.look s.now }
  | .reset => { s with breaker := s.breaker.reset }
  | .pass d => { s with now := s.now + d }

def run (s : Traffic) (es : List Event) : Traffic := es.foldl step s

@[simp] theorem run_nil (s : Traffic) : s.run [] = s := rfl
@[simp] theorem run_cons (s : Traffic) (e : Event) (es : List Event) :
    s.run (e :: es) = (s.step e).run es := rfl
@[simp] theorem run_append (s : Traffic) (es fs : List Event) : s.run (es ++ fs) = (s.run es).run fs :=
  List.foldl_append

/-- What an event books, and for which call: the breaker takes the outcome, and its opening does not run over the
clock. -/
def booked (s : Traffic) : Event → Option (Nat × Booking)
  | .finish call booking =>
    if call ∈ s.underway ∧ (s.breaker.settle s.now booking).1.isSome then some (call, booking) else none
  | _ => none

/-- All that a run books, in order. -/
def bookings (s : Traffic) : List Event → List (Nat × Booking)
  | [] => []
  | e :: es => (s.booked e).toList ++ (s.step e).bookings es

theorem bookings_append (s : Traffic) (es fs : List Event) :
    s.bookings (es ++ fs) = s.bookings es ++ (s.run es).bookings fs := by
  induction es generalizing s with
  | nil => rfl
  | cons e es ih => simp [bookings, ih]

end Traffic

/-- Whether the clock can show the end of an open window that begins at a moment. -/
def CanOpen (b : Breaker) (now : Moment) : Prop := (Moment.after? now b.limits.openFor).isSome

/-- All that can happen to a breaker at a moment short of a reset, with the outcome that is booked, if any. -/
inductive Move (now : Moment) : Option Booking → Breaker → Breaker → Prop where
  | idle (b : Breaker) : Move now none b b
  | ignore (b : Breaker) : Move now (some .ignored) b b
  | late {b : Breaker} {t : Moment} (k : Booking) : b.state = .openUntil t → Move now (some k) b b
  | refuse {b : Breaker} {t : Moment} : b.state = .openUntil t → now < t →
      Move now none b { b with rejected := b.rejected + 1 }
  | recover {b : Breaker} {t : Moment} : b.state = .openUntil t → t ≤ now →
      Move now none b { b with state := .halfOpen, successes := 0 }
  | clear {b : Breaker} : b.state = .closed → Move now (some .success) b { b with failures := 0 }
  | trial {b : Breaker} : b.state = .halfOpen → b.successes + 1 < b.limits.successThreshold →
      Move now (some .success) b { b with successes := b.successes + 1 }
  | close {b : Breaker} : b.state = .halfOpen → b.limits.successThreshold ≤ b.successes + 1 →
      Move now (some .success) b { b with state := .closed, failures := 0, successes := b.successes + 1 }
  | count {b : Breaker} : b.state = .closed → b.failures + 1 < b.limits.failureThreshold →
      Move now (some .failure) b { b with failures := b.failures + 1 }
  | trip {b : Breaker} : b.state = .closed → b.limits.failureThreshold ≤ b.failures + 1 →
      Move now (some .failure) b
        { b with state := .openUntil (now + b.limits.openFor), failures := b.failures + 1 }
  | retrip {b : Breaker} : b.state = .halfOpen →
      Move now (some .failure) b { b with state := .openUntil (now + b.limits.openFor) }
  | overrun {b : Breaker} : b.state = .closed → b.limits.failureThreshold ≤ b.failures + 1 →
      ¬ b.CanOpen now → Move now none b { b with failures := b.failures + 1 }

theorem look_move (b : Breaker) (now : Moment) : Move now none b (b.look now) := by
  unfold look
  split
  · next t ht =>
    split
    · next hle => exact .recover ht hle
    · exact .idle b
  · exact .idle b

theorem look_of_lt {b : Breaker} {now t : Moment} (hb : b.state = .openUntil t) (h : now < t) :
    b.look now = b := by
  simp [look, hb, Nat.not_le.mpr h]

theorem look_of_isOpen {b : Breaker} (now : Moment) (h : b.isOpen = false) : b.look now = b := by
  cases hb : b.state with
  | closed => simp [look, hb]
  | openUntil t => simp [isOpen, hb] at h
  | halfOpen => simp [look, hb]

/-- Whoever asks a breaker whose window is not over is turned away; anyone else is admitted after a look. -/
theorem enter_of_lt {b : Breaker} {now t : Moment} (hb : b.state = .openUntil t) (h : now < t) :
    b.enter now = (.rejected (t - now), { b with rejected := b.rejected + 1 }) := by
  simp [enter, look_of_lt hb h, hb]

theorem enter_of_look {b : Breaker} {now : Moment} (h : (b.look now).isOpen = false) :
    b.enter now = (.admitted, b.look now) := by
  unfold enter
  simp only
  split
  · next t ht => simp [isOpen, ht] at h
  · rfl

/-- A look leaves no window open that is over. -/
theorem isOpen_look {b : Breaker} {now : Moment} (h : ∀ t, b.state = .openUntil t → t ≤ now) :
    (b.look now).isOpen = false := by
  cases hb : b.state with
  | closed => simp [look, hb, isOpen]
  | openUntil t => simp [look, hb, h t hb, isOpen]
  | halfOpen => simp [look, hb, isOpen]

/-- Asking to go ahead has two ways to come out. -/
theorem enter_cases (b : Breaker) (now : Moment) :
    (∃ t, b.state = .openUntil t ∧ now < t ∧
      b.enter now = (.rejected (t - now), { b with rejected := b.rejected + 1 })) ∨
    ((∀ t, b.state = .openUntil t → t ≤ now) ∧ b.enter now = (.admitted, b.look now)) := by
  by_cases h : ∀ t, b.state = .openUntil t → t ≤ now
  · exact .inr ⟨h, enter_of_look (isOpen_look h)⟩
  · push Not at h
    obtain ⟨t, ht, hlt⟩ := h
    exact .inl ⟨t, ht, hlt, enter_of_lt ht hlt⟩

theorem overruns_eq_false {b : Breaker} {now : Moment} {k : Booking}
    (h : ∀ t, b.isOpen = false → (b.book now k).state ≠ .openUntil t) : b.overruns now k = false := by
  unfold overruns
  split
  · next t ht =>
    cases hb : b.isOpen with
    | false => exact absurd ht (h t hb)
    | true => rfl
  · rfl

theorem settle_of_false {b : Breaker} {now : Moment} {k : Booking} (h : b.overruns now k = false) :
    b.settle now k = (some (), b.book now k) := by
  simp [settle, h]

/-- A booking that opens a breaker is settled when the clock can show the end of the window. -/
theorem settle_of_opens (b : Breaker) (now : Moment) (k : Booking) (hb : b.isOpen = false)
    (h : (b.book now k).state = .openUntil (now + b.limits.openFor)) :
    b.CanOpen now ∧ b.settle now k = (some (), b.book now k) ∨
      ¬ b.CanOpen now ∧ b.settle now k = (none, b.overrun) := by
  have hover : b.overruns now k = (Moment.after? now b.limits.openFor).isNone := by
    simp [overruns, h, hb]
  cases hafter : Moment.after? now b.limits.openFor with
  | none => exact .inr ⟨by simp [CanOpen, hafter], by simp [settle, hover, hafter]⟩
  | some t => exact .inl ⟨by simp [CanOpen, hafter], by simp [settle, hover, hafter]⟩

theorem settle_success (b : Breaker) (now : Moment) :
    b.settle now .success = (some (), b.bookSuccess) ∧ Move now (some .success) b b.bookSuccess := by
  cases hb : b.state with
  | closed =>
    have hbook : b.bookSuccess = { b with failures := 0 } := by simp [bookSuccess, hb]
    refine ⟨settle_of_false (overruns_eq_false fun t _ => ?_), hbook ▸ .clear hb⟩
    simp [book, hbook, hb]
  | openUntil t =>
    have hbook : b.bookSuccess = b := by simp [bookSuccess, hb]
    refine ⟨settle_of_false (overruns_eq_false fun t hopen => ?_), hbook.symm ▸ .late _ hb⟩
    simp [isOpen, hb] at hopen
  | halfOpen =>
    by_cases hlast : b.limits.successThreshold ≤ b.successes + 1
    · have hbook : b.bookSuccess =
          { b with state := .closed, failures := 0, successes := b.successes + 1 } := by
        simp [bookSuccess, hb, hlast]
      refine ⟨settle_of_false (overruns_eq_false fun t _ => ?_), hbook ▸ .close hb hlast⟩
      simp [book, hbook]
    · have hbook : b.bookSuccess = { b with successes := b.successes + 1 } := by
        simp [bookSuccess, hb, hlast]
      refine ⟨settle_of_false (overruns_eq_false fun t _ => ?_), hbook ▸ .trial hb (Nat.lt_of_not_le hlast)⟩
      simp [book, hbook, hb]

theorem settle_ignored (b : Breaker) (now : Moment) : b.settle now .ignored = (some (), b) := by
  refine settle_of_false (overruns_eq_false fun t hopen hstate => ?_)
  simp only [book] at hstate
  simp [isOpen, hstate] at hopen

/-- A booking that opens a breaker opens it for as long as its limits say. -/
theorem state_of_book {b : Breaker} {now t : Moment} {k : Booking} (hb : b.isOpen = false)
    (h : (b.book now k).state = .openUntil t) : t = now + b.limits.openFor := by
  cases k with
  | success =>
    cases hstate : b.state <;> simp only [book, bookSuccess, hstate] at h
    · cases h
    · simp [isOpen, hstate] at hb
    · split at h <;> simp at h
  | failure =>
    cases hstate : b.state <;> simp only [book, bookFailure, hstate] at h
    · split at h
      · cases h
        rfl
      · cases h
    · simp [isOpen, hstate] at hb
    · cases h
      rfl
  | ignored => simp [isOpen, show b.state = .openUntil t from h] at hb

/-- A booking is settled, unless the clock cannot show the end of the window that it opens. -/
theorem settle_cases (b : Breaker) (now : Moment) (k : Booking) :
    b.settle now k = (some (), b.book now k) ∨ ¬ b.CanOpen now ∧ b.settle now k = (none, b.overrun) := by
  by_cases hopens : b.isOpen = false ∧ ∃ t, (b.book now k).state = .openUntil t
  · obtain ⟨hb, t, ht⟩ := hopens
    have hwindow : (b.book now k).state = .openUntil (now + b.limits.openFor) := by rw [ht, state_of_book hb ht]
    exact (settle_of_opens b now k hb hwindow).imp_left And.right
  · exact .inl (settle_of_false (overruns_eq_false fun t hb ht => hopens ⟨hb, t, ht⟩))

/-- Only a failure can run over the clock. -/
theorem eq_failure_of_settle {b : Breaker} {now : Moment} {k : Booking} (h : (b.settle now k).1 = none) :
    k = .failure := by
  cases k with
  | failure => rfl
  | success =>
    rw [(settle_success b now).1] at h
    cases h
  | ignored =>
    rw [settle_ignored] at h
    cases h

/-- Settling a booking is a move. -/
theorem settle_move (b : Breaker) (now : Moment) (k : Booking) :
    Move now (if (b.settle now k).1.isSome then some k else none) b (b.settle now k).2 := by
  cases k with
  | success =>
    obtain ⟨hsettle, hmove⟩ := settle_success b now
    rw [hsettle]
    exact hmove
  | ignored =>
    rw [settle_ignored]
    exact .ignore b
  | failure =>
    cases hb : b.state with
    | closed =>
      by_cases hlast : b.limits.failureThreshold ≤ b.failures + 1
      · have hbook : b.book now .failure =
            { b with state := .openUntil (now + b.limits.openFor), failures := b.failures + 1 } := by
          simp [book, bookFailure, hb, hlast]
        rcases settle_of_opens b now .failure (by simp [isOpen, hb]) (by rw [hbook]) with
          ⟨_, hsettle⟩ | ⟨hcan, hsettle⟩
        · rw [hsettle, hbook]
          exact .trip hb hlast
        · have hover : b.overrun = { b with failures := b.failures + 1 } := by simp [overrun, hb]
          rw [hsettle, hover]
          exact .overrun hb hlast hcan
      · have hbook : b.book now .failure = { b with failures := b.failures + 1 } := by
          simp [book, bookFailure, hb, hlast]
        have hsettle : b.settle now .failure = (some (), b.book now .failure) :=
          settle_of_false (overruns_eq_false fun t _ => by simp [hbook, hb])
        rw [hsettle, hbook]
        exact .count hb (Nat.lt_of_not_le hlast)
    | openUntil t =>
      have hbook : b.book now .failure = b := by simp [book, bookFailure, hb]
      have hsettle : b.settle now .failure = (some (), b.book now .failure) :=
        settle_of_false (overruns_eq_false fun t hopen => by simp [isOpen, hb] at hopen)
      rw [hsettle, hbook]
      exact .late _ hb
    | halfOpen =>
      have hbook : b.book now .failure = { b with state := .openUntil (now + b.limits.openFor) } := by
        simp [book, bookFailure, hb]
      rcases settle_of_opens b now .failure (by simp [isOpen, hb]) (by rw [hbook]) with
        ⟨_, hsettle⟩ | ⟨_, hsettle⟩
      · rw [hsettle, hbook]
        exact .retrip hb
      · have hover : b.overrun = b := by simp [overrun, hb]
        rw [hsettle, hover]
        exact .idle b

/-- What a move cannot do: it leaves the limits alone. -/
theorem Move.limits_eq {now : Moment} {k : Option Booking} {b b' : Breaker} (h : Move now k b b') :
    b'.limits = b.limits := by
  cases h <;> rfl

namespace Traffic

theorem arrive_cases (s : Traffic) :
    (∃ t, s.breaker.state = .openUntil t ∧ s.now < t ∧ s.arrive = (.rejected (t - s.now),
      { s with breaker := { s.breaker with rejected := s.breaker.rejected + 1 } })) ∨
    ((∀ t, s.breaker.state = .openUntil t → t ≤ s.now) ∧ s.arrive = (.admitted,
      { s with
        breaker := s.breaker.look s.now
        admitted := s.admitted + 1
        underway := s.underway ++ [s.admitted] })) := by
  rcases enter_cases s.breaker s.now with ⟨t, hb, hlt, henter⟩ | ⟨hover, henter⟩
  · exact .inl ⟨t, hb, hlt, by simp [arrive, henter]⟩
  · exact .inr ⟨hover, by simp [arrive, henter]⟩

/-- All that an event short of a reset does to the breaker. -/
theorem step_move (s : Traffic) {e : Event} (h : e ≠ .reset) :
    Move s.now ((s.booked e).map Prod.snd) s.breaker (s.step e).breaker := by
  cases e with
  | arrive =>
    rcases s.arrive_cases with ⟨t, hb, hlt, harrive⟩ | ⟨_, harrive⟩
    · simp only [step, harrive]
      exact .refuse hb hlt
    · simp only [step, harrive]
      exact look_move s.breaker s.now
  | finish call k =>
    by_cases hcall : call ∈ s.underway
    · have hbooked : (s.booked (.finish call k)).map Prod.snd =
          if (s.breaker.settle s.now k).1.isSome then some k else none := by
        simp only [booked, hcall, true_and]
        split <;> rfl
      rw [hbooked]
      simp only [step, finish, hcall, if_true]
      exact settle_move s.breaker s.now k
    · simp only [step, finish, booked, hcall, if_false, false_and]
      exact .idle _
  | look => exact look_move s.breaker s.now
  | reset => exact absurd rfl h
  | pass d => exact .idle _

theorem now_le_step (s : Traffic) (e : Event) : s.now ≤ (s.step e).now := by
  cases e with
  | arrive => rcases s.arrive_cases with ⟨t, _, _, h⟩ | ⟨_, h⟩ <;> simp [step, h]
  | finish call k =>
    simp only [step, finish]
    split <;> exact Nat.le_refl _
  | look => exact Nat.le_refl _
  | reset => exact Nat.le_refl _
  | pass d => exact Nat.le_add_right _ _

/-- The clock never runs back. -/
theorem now_le_run (s : Traffic) (es : List Event) : s.now ≤ (s.run es).now := by
  induction es generalizing s with
  | nil => exact Nat.le_refl _
  | cons e es ih => exact (s.now_le_step e).trans (ih (s.step e))

theorem limits_step (s : Traffic) (e : Event) : (s.step e).breaker.limits = s.breaker.limits := by
  by_cases h : e = .reset
  · subst h
    rfl
  · exact (s.step_move h).limits_eq

@[simp] theorem limits_run (s : Traffic) (es : List Event) : (s.run es).breaker.limits = s.breaker.limits := by
  induction es generalizing s with
  | nil => rfl
  | cons e es ih => exact (ih (s.step e)).trans (s.limits_step e)

end Traffic

end Breaker
end CodeAtlas
