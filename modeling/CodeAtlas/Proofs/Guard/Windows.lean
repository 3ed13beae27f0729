import Mathlib
import CodeAtlas.Proofs.Guard.Calls
import CodeAtlas.Proofs.Guard.Traffic

/-! What a breaker guarantees however calls overlap: its counts fit its state, an open window lets nobody through, a
rejected call changes nothing else, and a half-open breaker closes after enough successes and no failure. -/
namespace CodeAtlas
namespace Breaker

open Activity (Part)

section Moves

variable {now : Moment} {k : Option Booking} {b b' : Breaker}

/-- A closed breaker has failed less often than it may; any other one just as often. -/
def Counts (b : Breaker) : Prop :=
  (b.state = .closed → b.failures < b.limits.failureThreshold) ∧
    (b.state ≠ .closed → b.failures = b.limits.failureThreshold)

theorem Counts.move (hb : b.Counts) (hlimit : 1 ≤ b.limits.failureThreshold) (hclock : b.CanOpen now)
    (h : Move now k b b') : b'.Counts := by
  obtain ⟨hclosed, hother⟩ := hb
  cases h with
  | idle => exact ⟨hclosed, hother⟩
  | ignore => exact ⟨hclosed, hother⟩
  | late => exact ⟨hclosed, hother⟩
  | refuse => exact ⟨hclosed, hother⟩
  | recover hs => exact ⟨nofun, fun _ => hother (by simp [hs])⟩
  | clear hs => exact ⟨fun _ => hlimit, fun hne => absurd hs hne⟩
  | trial => exact ⟨hclosed, hother⟩
  | close => exact ⟨fun _ => hlimit, fun hne => absurd rfl hne⟩
  | count hs hlt => exact ⟨fun _ => hlt, fun hne => absurd hs hne⟩
  | trip hs hle => exact ⟨nofun, fun _ => Nat.le_antisymm (hclosed hs) hle⟩
  | retrip hs => exact ⟨nofun, fun _ => hother (by simp [hs])⟩
  | overrun _ _ hcan => exact absurd hclock hcan

theorem Counts.reset (hlimit : 1 ≤ b.limits.failureThreshold) : b.reset.Counts :=
  ⟨fun _ => hlimit, fun hne => absurd rfl hne⟩

theorem isOpen_of_state {t : Moment} (hb : b.state = .openUntil t) : b.isOpen = true := by
  simp [isOpen, hb]

/-- A breaker opens at a failure, and for the length of its window. -/
theorem Move.opens (h : Move now k b b') (hb : b.isOpen = false) (hb' : b'.isOpen = true) :
    k = some .failure ∧ b'.state = .openUntil (now + b.limits.openFor) := by
  cases h with
  | trip => exact ⟨rfl, rfl⟩
  | retrip => exact ⟨rfl, rfl⟩
  | recover => cases hb'
  | close => cases hb'
  | _ => exact absurd (hb'.symm.trans hb) nofun

/-- A window that is not over stays open. -/
theorem Move.stays_open {t : Moment} (h : Move now k b b') (hb : b.state = .openUntil t) (ht : now < t) :
    b'.state = .openUntil t := by
  cases h with
  | idle => exact hb
  | ignore => exact hb
  | late => exact hb
  | refuse => exact hb
  | recover hs hle =>
    rw [hb, State.openUntil.injEq] at hs
    exact absurd (hs ▸ hle) (Nat.not_le.mpr ht)
  | clear hs => exact nomatch hb.symm.trans hs
  | trial hs => exact nomatch hb.symm.trans hs
  | close hs => exact nomatch hb.symm.trans hs
  | count hs => exact nomatch hb.symm.trans hs
  | trip hs => exact nomatch hb.symm.trans hs
  | retrip hs => exact nomatch hb.symm.trans hs
  | overrun hs => exact nomatch hb.symm.trans hs

/-- A breaker becomes half-open from open, with no success so far, and without an outcome. -/
theorem Move.recovers (h : Move now k b b') (hb : b.state ≠ .halfOpen) (hb' : b'.state = .halfOpen) :
    b.isOpen = true ∧ b'.successes = 0 ∧ k = none := by
  cases h with
  | recover hs => exact ⟨isOpen_of_state hs, rfl, rfl⟩
  | trip => cases hb'
  | retrip => cases hb'
  | close => cases hb'
  | _ => exact absurd hb' hb

/-- A half-open breaker that stays so has booked no failure, and counts its successes. -/
theorem Move.stays_halfOpen (h : Move now k b b') (hb : b.state = .halfOpen) (hb' : b'.state = .halfOpen) :
    k ≠ some .failure ∧ b'.successes = b.successes + (k.toList.count .success) := by
  cases h with
  | idle => exact ⟨nofun, rfl⟩
  | ignore => exact ⟨nofun, rfl⟩
  | late _ hs => exact nomatch hb.symm.trans hs
  | refuse hs => exact nomatch hb.symm.trans hs
  | recover hs => exact nomatch hb.symm.trans hs
  | clear hs => exact nomatch hb.symm.trans hs
  | trial => exact ⟨nofun, rfl⟩
  | close => cases hb'
  | count hs => exact nomatch hb.symm.trans hs
  | trip => cases hb'
  | retrip => cases hb'
  | overrun hs => exact nomatch hb.symm.trans hs

/-- A half-open breaker closes at a success that is the last it needs. -/
theorem Move.closes (h : Move now k b b') (hb : b.state = .halfOpen) (hb' : b'.state = .closed) :
    k = some .success ∧ b.limits.successThreshold ≤ b.successes + 1 := by
  cases h with
  | close _ hle => exact ⟨rfl, hle⟩
  | recover => cases hb'
  | trip => cases hb'
  | retrip => cases hb'
  | clear hs => exact nomatch hb.symm.trans hs
  | _ => exact nomatch hb.symm.trans hb'

/-- A half-open period ends at the success that closes it, or at a failure. -/
theorem Move.ends (h : Move now k b b') (hb : b.state = .halfOpen) (hb' : b'.state ≠ .halfOpen) :
    b'.state = .closed ∨ k = some .failure := by
  cases h with
  | close => exact .inl rfl
  | retrip => exact .inr rfl
  | trip hs => exact nomatch hb.symm.trans hs
  | recover => exact absurd rfl hb'
  | _ => exact absurd hb hb'

end Moves

namespace Traffic

/-- The counts fit the state at every moment of a run, as long as the clock can show when a window ends that opens
now. -/
theorem counts_run {s : Traffic} (hs : s.breaker.Counts) (hlimit : 1 ≤ s.breaker.limits.failureThreshold)
    (es : List Event) (hclock : s.breaker.CanOpen (s.run es).now) : (s.run es).breaker.Counts := by
  induction es generalizing s with
  | nil => exact hs
  | cons e es ih =>
    have hlimits := s.limits_step e
    refine ih ?_ (hlimits ▸ hlimit) (by rwa [CanOpen, hlimits])
    by_cases he : e = .reset
    · subst he
      exact Counts.reset hlimit
    · have hle : s.now ≤ ((s.step e).run es).now := (s.now_le_step e).trans (now_le_run _ es)
      refine hs.move hlimit ?_ (s.step_move he)
      unfold CanOpen Moment.after? at hclock ⊢
      split at hclock
      · next hlast =>
        rw [if_pos (le_trans (Nat.div_le_div_right (Nat.add_le_add_right hle _)) hlast)]
        rfl
      · cases hclock

/-- Short of a reset, a window stays open until it is over. -/
theorem run_open {s : Traffic} {t : Moment} (hs : s.breaker.state = .openUntil t) {es : List Event}
    (hreset : .reset ∉ es) (ht : (s.run es).now < t) : (s.run es).breaker.state = .openUntil t := by
  induction es generalizing s with
  | nil => exact hs
  | cons e es ih =>
    rw [List.mem_cons, not_or] at hreset
    have hnow : s.now < t := lt_of_le_of_lt (s.now_le_run (e :: es)) ht
    exact ih ((s.step_move (Ne.symm hreset.1)).stays_open hs hnow) hreset.2 ht

theorem arrive_of_open {s : Traffic} {t : Moment} (hs : s.breaker.state = .openUntil t) (ht : s.now < t) :
    s.arrive = (.rejected (t - s.now),
      { s with breaker := { s.breaker with rejected := s.breaker.rejected + 1 } }) := by
  rcases s.arrive_cases with ⟨u, hu, _, harrive⟩ | ⟨hover, _⟩
  · rw [hs, State.openUntil.injEq] at hu
    rw [hu, harrive]
  · exact absurd (hover t hs) (Nat.not_le.mpr ht)

/-- A half-open period: `first` is the event that ends the open window, and the breaker is half-open from then on
throughout `rest`. -/
structure Period (s : Traffic) (before : List Event) (first : Event) (rest : List Event) : Prop where
  shut : (s.run before).breaker.isOpen = true
  lasts : ∀ front, front <+: rest → (s.run (before ++ first :: front)).breaker.state = .halfOpen

/-- The outcomes that a run books, in order. -/
def outcomes (s : Traffic) (es : List Event) : List Booking := (s.bookings es).map Prod.snd

theorem outcomes_append_singleton (s : Traffic) (es : List Event) (e : Event) :
    s.outcomes (es ++ [e]) = s.outcomes es ++ (((s.run es).booked e).map Prod.snd).toList := by
  cases hb : (s.run es).booked e <;> simp [outcomes, bookings_append, bookings, hb]

/-- A breaker that is half-open is in a half-open period, and has booked no failure in it. -/
theorem exists_period {s : Traffic} (hs : s.breaker.state ≠ .halfOpen) {es : List Event}
    (h : (s.run es).breaker.state = .halfOpen) :
    ∃ before first rest, es = before ++ first :: rest ∧ s.Period before first rest ∧
      .failure ∉ (s.run (before ++ [first])).outcomes rest ∧
      (s.run es).breaker.successes = ((s.run (before ++ [first])).outcomes rest).count .success := by
  induction es using List.reverseRecOn with
  | nil => exact absurd h hs
  | append_singleton es e ih =>
    have hreset : e ≠ .reset := by
      rintro rfl
      simp [step, reset] at h
    have hmove := (s.run es).step_move hreset
    have hrun : s.run (es ++ [e]) = (s.run es).step e := by simp
    rw [hrun] at h ⊢
    by_cases hhalf : (s.run es).breaker.state = .halfOpen
    · -- the period goes on
      obtain ⟨before, first, rest, rfl, hperiod, hfailure, hcount⟩ := ih hhalf
      obtain ⟨hnot, hsucc⟩ := hmove.stays_halfOpen hhalf h
      have hsplit : (s.run (before ++ [first])).run rest = s.run (before ++ first :: rest) := by simp
      refine ⟨before, first, rest ++ [e], by simp, ⟨hperiod.shut, fun front hfront => ?_⟩, ?_, ?_⟩
      · rcases List.prefix_concat_iff.mp hfront with rfl | hfront
        · rw [← h, ← hrun]
          simp
        · exact hperiod.lasts front hfront
      · rw [outcomes_append_singleton, hsplit, List.mem_append, not_or]
        refine ⟨hfailure, fun hmem => hnot ?_⟩
        rwa [Option.mem_toList] at hmem
      · rw [outcomes_append_singleton, hsplit, List.count_append, ← hcount]
        exact hsucc
    · -- the period begins
      obtain ⟨hshut, hzero, _⟩ := hmove.recovers hhalf h
      refine ⟨es, e, [], rfl, ⟨hshut, fun front hfront => ?_⟩, by simp [outcomes, bookings], ?_⟩
      · rw [List.prefix_nil.mp hfront, hrun]
        exact h
      · simp [outcomes, bookings, hzero]

/-- A rejected call finds an open window with some time left, says how much, and changes nothing but the count of
rejections. -/
theorem arrive_eq_rejected {s : Traffic} {d : Duration} (h : s.arrive.1 = .rejected d) :
    0 < d ∧ s.breaker.state = .openUntil (s.now + d) ∧
      s.arrive.2 = { s with breaker := { s.breaker with rejected := s.breaker.rejected + 1 } } := by
  rcases s.arrive_cases with ⟨t, ht, hlt, harrive⟩ | ⟨_, harrive⟩
  · rw [harrive, Admission.rejected.injEq] at h
    subst h
    exact ⟨Nat.sub_pos_of_lt hlt, by rw [ht, Nat.add_sub_cancel' hlt.le], by rw [harrive]⟩
  · rw [harrive] at h
    cases h

/-- What the breaker of a target turns away never runs. -/
theorem run_call_rejected {σ ε α : Type} {part : Part σ Registry} {target : String} {w : σ} {s : Traffic}
    {d : Duration} (hs : (part.get w).breakerOf target = s.breaker) (h : s.arrive.1 = .rejected d)
    (operation : Activity σ (Except ε α)) (count : ε → Booking) :
    (Registry.call part target operation count).run s.now w =
      .finished (.rejected target d) s.now (part.set ((part.get w).put target s.arrive.2.breaker) w) := by
  rcases s.arrive_cases with ⟨t, ht, hlt, harrive⟩ | ⟨_, harrive⟩
  · rw [harrive, Admission.rejected.injEq] at h
    rw [harrive, ← h]
    exact Registry.run_call_of_rejected part (by rw [hs, enter_of_lt ht hlt]) operation count
  · rw [harrive] at h
    cases h

/-- Overlapping calls at a breaker, in any order with looks, resets and time that passes, as long as the clock can
show when a window ends that opens now: the counts fit the state; once the breaker opens nobody gets through until
the window is over or the breaker is reset; a rejected call runs nothing, hears how long the window is still open,
and changes nothing but the count of rejections; and the breaker closes from half-open only at a reset, or when
enough successes, and no failure, were booked in the half-open period. -/
theorem overlapping_calls_safe (limits : Limits) (hlimit : 1 ≤ limits.failureThreshold) (t₀ : Moment)
    (es : List Event) (hclock : (Moment.after? ((start limits t₀).run es).now limits.openFor).isSome) :
    let s := (start limits t₀).run es
    (s.breaker.state = .closed → s.breaker.failures < limits.failureThreshold) ∧
    (s.breaker.state ≠ .closed → s.breaker.failures = limits.failureThreshold) ∧
    (∀ e later, s.breaker.isOpen = false → (s.step e).breaker.isOpen = true → .reset ∉ later →
      ((s.step e).run later).now < s.now + limits.openFor →
      ((s.step e).run later).arrive.1 =
        .rejected (s.now + limits.openFor - ((s.step e).run later).now)) ∧
    (∀ d, s.arrive.1 = .rejected d →
      0 < d ∧ s.breaker.state = .openUntil (s.now + d) ∧
      s.arrive.2 = { s with breaker := { s.breaker with rejected := s.breaker.rejected + 1 } } ∧
      ∀ {σ ε α : Type} (part : Part σ Registry) (target : String) (operation : Activity σ (Except ε α))
        (count : ε → Booking) (w : σ), (part.get w).breakerOf target = s.breaker →
        (Registry.call part target operation count).run s.now w = .finished (.rejected target d) s.now
          (part.set ((part.get w).put target { s.breaker with rejected := s.breaker.rejected + 1 }) w)) ∧
    (∀ e, s.breaker.state = .halfOpen → (s.step e).breaker.state = .closed → e = .reset ∨
      ∃ before first rest, es = before ++ first :: rest ∧ (start limits t₀).Period before first rest ∧
        .failure ∉ ((start limits t₀).run (before ++ [first])).outcomes (rest ++ [e]) ∧
        max limits.successThreshold 1 ≤
          (((start limits t₀).run (before ++ [first])).outcomes (rest ++ [e])).count .success) := by
  intro s
  have hlimits : s.breaker.limits = limits := limits_run _ es
  have hstart : (start limits t₀).breaker.Counts := ⟨fun _ => hlimit, fun hne => absurd rfl hne⟩
  obtain ⟨hclosed, hother⟩ := counts_run hstart hlimit es hclock
  rw [limits_run] at hclosed hother
  refine ⟨hclosed, hother, fun e later hshut hopen hreset hlt => ?_, fun d hd => ?_, fun e hhalf hstep => ?_⟩
  · have he : e ≠ .reset := by
      rintro rfl
      cases hopen
    obtain ⟨_, hstate⟩ := (s.step_move he).opens hshut hopen
    rw [hlimits] at hstate
    rw [arrive_of_open (run_open hstate hreset hlt) hlt]
  · obtain ⟨hpos, hstate, harrive⟩ := arrive_eq_rejected hd
    refine ⟨hpos, hstate, harrive, fun part target operation count w hw => ?_⟩
    rw [run_call_rejected hw hd, harrive]
  · by_cases he : e = .reset
    · exact .inl he
    obtain ⟨before, first, rest, hes, hperiod, hfailure, hcount⟩ := exists_period (by simp [start, new]) hhalf
    obtain ⟨hbooked, henough⟩ := (s.step_move he).closes hhalf hstep
    have hsplit : ((start limits t₀).run (before ++ [first])).run rest = s := by
      simp [s, hes]
    have houtcomes : ((start limits t₀).run (before ++ [first])).outcomes (rest ++ [e]) =
        ((start limits t₀).run (before ++ [first])).outcomes rest ++ [.success] := by
      rw [outcomes_append_singleton, hsplit, hbooked]
      rfl
    rw [hlimits, hcount] at henough
    refine .inr ⟨before, first, rest, hes, hperiod, ?_, ?_⟩
    · rw [houtcomes, List.mem_append, not_or]
      exact ⟨hfailure, by simp⟩
    · rw [houtcomes, List.count_append, List.count_singleton_self]
      omega

/-- A call that was under way when the circuit opened does not open it again; two trials close it. -/
theorem overlapping_calls_safe_sample :
    let limits : Limits := { failureThreshold := 1, successThreshold := 2, openFor := .ofSeconds 30 }
    let es : List Event := [.arrive, .arrive, .finish 0 .failure, .finish 1 .failure, .pass (.ofSeconds 30), .arrive,
      .arrive, .finish 2 .success]
    let s := (start limits 0).run es
    1 ≤ limits.failureThreshold ∧ (Moment.after? s.now limits.openFor).isSome ∧ s.breaker.failures = 1 ∧
      ∃ before first rest, es = before ++ first :: rest ∧ (start limits 0).Period before first rest ∧
        2 ≤ (((start limits 0).run (before ++ [first])).outcomes (rest ++ [.finish 3 .success])).count .success := by
  intro limits es s
  have hsafe := overlapping_calls_safe limits (by decide) 0 es (by decide)
  obtain ⟨before, first, rest, hes, hperiod, _, hcount⟩ :=
    (hsafe.2.2.2.2 (.finish 3 .success) (by decide) (by decide)).resolve_left (by decide)
  exact ⟨by decide, by decide, hsafe.2.1 (by decide), before, first, rest, hes, hperiod, hcount⟩

/-- When the clock cannot show the end of the window, a breaker has failed as often as it may and is still closed. -/
theorem closed_at_threshold :
    let limits : Limits := { failureThreshold := 1, successThreshold := 1, openFor := .ofSeconds (2 ^ 64 - 1) }
    let s := (start limits 0).run [.arrive, .finish 0 .failure]
    s.breaker.state = .closed ∧ ¬ s.breaker.failures < limits.failureThreshold := by
  decide

end Traffic

end Breaker
end CodeAtlas
