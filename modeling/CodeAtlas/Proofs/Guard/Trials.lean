import Mathlib
import CodeAtlas.Proofs.Guard.Windows

/-! Who decides a half-open period. An outcome booked in it comes from a trial, a call admitted in the period, or from
a stray, a call that was under way when the open window ended. The breaker does not tell them apart: a period is
closed by enough successes of either kind and ended by a failure of either kind, so that the trials alone decide it
when it begins with no call under way. -/
namespace CodeAtlas
namespace Breaker
namespace Traffic

/-- Calls under way are numbered below those to come, and none twice. -/
structure Tidy (s : Traffic) : Prop where
  nodup : s.underway.Nodup
  below : ∀ c ∈ s.underway, c < s.admitted

theorem tidy_start (limits : Limits) (t₀ : Moment) : (start limits t₀).Tidy := ⟨List.nodup_nil, nofun⟩

/-- What an event does to the calls under way: nothing, one more, or one less. -/
theorem underway_step (s : Traffic) (e : Event) :
    ((s.step e).underway = s.underway ∧ (s.step e).admitted = s.admitted) ∨
    ((s.step e).underway = s.underway ++ [s.admitted] ∧ (s.step e).admitted = s.admitted + 1) ∨
    ∃ c k, e = .finish c k ∧ c ∈ s.underway ∧ (s.step e).underway = s.underway.erase c ∧
      (s.step e).admitted = s.admitted := by
  cases e with
  | arrive =>
    rcases s.arrive_cases with ⟨t, _, _, harrive⟩ | ⟨_, harrive⟩
    · exact .inl (by simp [step, harrive])
    · exact .inr (.inl (by simp [step, harrive]))
  | finish c k =>
    by_cases hc : c ∈ s.underway
    · exact .inr (.inr ⟨c, k, rfl, hc, by simp [step, finish, hc]⟩)
    · exact .inl (by simp [step, finish, hc])
  | look => exact .inl ⟨rfl, rfl⟩
  | reset => exact .inl ⟨rfl, rfl⟩
  | pass d => exact .inl ⟨rfl, rfl⟩

theorem Tidy.step {s : Traffic} (h : s.Tidy) (e : Event) : (s.step e).Tidy := by
  rcases s.underway_step e with ⟨hu, ha⟩ | ⟨hu, ha⟩ | ⟨c, _, _, _, hu, ha⟩
  · exact ⟨hu ▸ h.nodup, by rw [hu, ha]; exact h.below⟩
  · refine ⟨?_, fun c hc => ?_⟩
    · rw [hu]
      exact List.nodup_append.mpr ⟨h.nodup, by simp, fun x hx y hy => by
        rw [List.mem_singleton.mp hy]
        exact Nat.ne_of_lt (h.below x hx)⟩
    · rw [hu, List.mem_append, List.mem_singleton] at hc
      rw [ha]
      rcases hc with hc | rfl
      · exact Nat.lt_succ_of_lt (h.below c hc)
      · exact Nat.lt_succ_self _
  · refine ⟨hu ▸ h.nodup.erase c, fun x hx => ?_⟩
    rw [hu] at hx
    rw [ha]
    exact h.below x (List.mem_of_mem_erase hx)

theorem Tidy.run {s : Traffic} (h : s.Tidy) (es : List Event) : (s.run es).Tidy := by
  induction es generalizing s with
  | nil => exact h
  | cons e es ih => exact ih (h.step e)

theorem booked_eq_some {s : Traffic} {e : Event} {x : Nat × Booking} (h : s.booked e = some x) :
    e = .finish x.1 x.2 ∧ x.1 ∈ s.underway ∧ (s.step e).underway = s.underway.erase x.1 ∧
      (s.step e).admitted = s.admitted := by
  cases e with
  | finish c k =>
    simp only [booked, Option.ite_none_right_eq_some, Option.some.injEq] at h
    obtain ⟨⟨hc, _⟩, rfl⟩ := h
    exact ⟨rfl, hc, by simp [step, finish, hc]⟩
  | arrive => cases h
  | look => cases h
  | reset => cases h
  | pass d => cases h

/-- What a run books comes from calls that are under way at its start or admitted in it, and no call books twice. -/
theorem Tidy.callers {s : Traffic} (h : s.Tidy) (es : List Event) :
    ((s.bookings es).map Prod.fst).Nodup ∧
      ∀ c ∈ (s.bookings es).map Prod.fst, c ∈ s.underway ∨ s.admitted ≤ c := by
  induction es generalizing s with
  | nil => exact ⟨List.nodup_nil, nofun⟩
  | cons e es ih =>
    obtain ⟨hnodup, hcallers⟩ := ih (h.step e)
    have hlater : ∀ c ∈ ((s.step e).bookings es).map Prod.fst, c ∈ s.underway ∨ s.admitted ≤ c := by
      intro c hc
      rcases s.underway_step e with ⟨hu, ha⟩ | ⟨hu, ha⟩ | ⟨_, _, _, _, hu, ha⟩
      · rw [← hu, ← ha]
        exact hcallers c hc
      · rcases hcallers c hc with hmem | hle
        · rw [hu, List.mem_append, List.mem_singleton] at hmem
          exact hmem.imp_right fun heq => heq.ge
        · exact .inr (by omega)
      · rw [← ha]
        exact (hcallers c hc).imp_left fun hmem => List.mem_of_mem_erase (hu ▸ hmem)
    cases hb : s.booked e with
    | none => exact ⟨by simpa [bookings, hb] using hnodup, by simpa [bookings, hb] using hlater⟩
    | some x =>
      obtain ⟨_, hmem, hu, ha⟩ := booked_eq_some hb
      -- the call that books now is no longer under way, and its number is not given again
      have hnot : x.1 ∉ ((s.step e).bookings es).map Prod.fst := by
        intro hx
        rcases hcallers x.1 hx with hagain | hle
        · rw [hu] at hagain
          exact h.nodup.not_mem_erase hagain
        · exact absurd (ha ▸ hle) (Nat.not_le.mpr (h.below x.1 hmem))
      have hcons : (s.bookings (e :: es)).map Prod.fst = x.1 :: ((s.step e).bookings es).map Prod.fst := by
        simp [bookings, hb]
      rw [hcons]
      refine ⟨List.nodup_cons.mpr ⟨hnot, hnodup⟩, fun c hc => ?_⟩
      rcases List.mem_cons.mp hc with rfl | hc
      · exact .inl hmem
      · exact hlater c hc

/-- The bookings among some that a call admitted as number `n` or later has succeeded. -/
def successesFrom (n : Nat) (l : List (Nat × Booking)) : Nat :=
  l.countP fun x => n ≤ x.1 ∧ x.2 = .success

theorem count_success_le_add (n : Nat) (l : List (Nat × Booking)) :
    (l.map Prod.snd).count .success ≤ successesFrom n l + l.countP fun x => decide (x.1 < n) := by
  unfold successesFrom
  induction l with
  | nil => simp
  | cons x l ih =>
    rw [List.map_cons, List.count_cons, List.countP_cons, List.countP_cons]
    by_cases hx : x.1 < n
    · simp only [hx, decide_true, if_true]
      split <;> split <;> omega
    · simp only [hx, Nat.le_of_not_lt hx, true_and, beq_iff_eq, decide_eq_true_eq, if_false]
      omega

/-- Successes are those of calls yet to be admitted, and of at most as many others as are under way. -/
theorem Tidy.count_success_le {s : Traffic} (h : s.Tidy) (es : List Event) :
    (s.outcomes es).count .success ≤ successesFrom s.admitted (s.bookings es) + s.underway.length := by
  obtain ⟨hnodup, hcallers⟩ := h.callers es
  have hsub : ((s.bookings es).filter fun x => decide (x.1 < s.admitted)).map Prod.fst ⊆ s.underway := by
    intro c hc
    obtain ⟨x, hx, rfl⟩ := List.mem_map.mp hc
    obtain ⟨hx, hlt⟩ := List.mem_filter.mp hx
    exact (hcallers x.1 (List.mem_map_of_mem hx)).resolve_right (Nat.not_le.mpr (of_decide_eq_true hlt))
  have honce : (((s.bookings es).filter fun x => decide (x.1 < s.admitted)).map Prod.fst).Nodup :=
    hnodup.sublist (List.filter_sublist.map Prod.fst)
  have hstrays : (s.bookings es).countP (fun x => decide (x.1 < s.admitted)) ≤ s.underway.length := by
    have hlen := (List.subperm_of_subset honce hsub).length_le
    rwa [List.length_map, ← List.countP_eq_length_filter] at hlen
  have hsplit := count_success_le_add s.admitted (s.bookings es)
  unfold outcomes
  omega

/-- The event that ends the open window books nothing. -/
theorem Period.booked_first {s : Traffic} {before rest : List Event} {first : Event}
    (h : s.Period before first rest) : (s.run before).booked first = none := by
  have hhalf : ((s.run before).step first).breaker.state = .halfOpen := by
    simpa using h.lasts [] List.nil_prefix
  have hreset : first ≠ .reset := by
    rintro rfl
    cases hhalf
  have hnot : (s.run before).breaker.state ≠ .halfOpen := by
    intro heq
    have hshut := h.shut
    simp [isOpen, heq] at hshut
  obtain ⟨_, _, hnone⟩ := ((s.run before).step_move hreset).recovers hnot hhalf
  exact Option.map_eq_none_iff.mp hnone

theorem Period.bookings_cons {s : Traffic} {before rest : List Event} {first : Event}
    (h : s.Period before first rest) (es : List Event) :
    (s.run before).bookings (first :: es) = (s.run (before ++ [first])).bookings es := by
  simp [bookings, h.booked_first]

/-- What succeeds in a half-open period was admitted in it, or under way when the open window ended. -/
theorem Period.count_success_le {s : Traffic} {before rest : List Event} {first : Event}
    (h : s.Period before first rest) (htidy : s.Tidy) (es : List Event) :
    ((s.run (before ++ [first])).outcomes es).count .success ≤
      successesFrom (s.run before).admitted ((s.run (before ++ [first])).bookings es) +
        (s.run before).underway.length := by
  have hsuccesses := (htidy.run before).count_success_le (first :: es)
  rwa [outcomes, h.bookings_cons es] at hsuccesses

/-- What books in a half-open period was admitted in it, or under way when the open window ended. -/
theorem Period.caller {s : Traffic} {before rest : List Event} {first : Event} (h : s.Period before first rest)
    (htidy : s.Tidy) {es : List Event} {x : Nat × Booking} (hx : x ∈ (s.run (before ++ [first])).bookings es) :
    (s.run before).admitted ≤ x.1 ∨ x.1 ∈ (s.run before).underway := by
  rw [← h.bookings_cons es] at hx
  exact (((htidy.run before).callers _).2 x.1 (List.mem_map_of_mem hx)).symm

/-- A half-open period that ends without a reset is closed by enough successes of trials, less one for each call that
was under way when the open window ended, or is ended by the failure of a trial or of such a call. -/
theorem decided_by_trials_and_strays (limits : Limits) (t₀ : Moment) (es : List Event) (e : Event)
    (hhalf : ((start limits t₀).run es).breaker.state = .halfOpen)
    (hend : (((start limits t₀).run es).step e).breaker.state ≠ .halfOpen) (hreset : e ≠ .reset) :
    ∃ before first rest, es = before ++ first :: rest ∧ (start limits t₀).Period before first rest ∧
      let ending := (start limits t₀).run before
      let period := (start limits t₀).run (before ++ [first])
      ((((start limits t₀).run es).step e).breaker.state = .closed ∧
        max limits.successThreshold 1 ≤
          successesFrom ending.admitted (period.bookings (rest ++ [e])) + ending.underway.length) ∨
      (∃ call, e = .finish call .failure ∧ (ending.admitted ≤ call ∨ call ∈ ending.underway)) := by
  obtain ⟨before, first, rest, rfl, hperiod, _, hcount⟩ := exists_period (by simp [start, new]) hhalf
  refine ⟨before, first, rest, rfl, hperiod, ?_⟩
  intro ending period
  have hsplit : period.run rest = (start limits t₀).run (before ++ first :: rest) := by simp [period]
  have hmove := ((start limits t₀).run (before ++ first :: rest)).step_move hreset
  rcases hmove.ends hhalf hend with hclosed | hfailure
  · left
    refine ⟨hclosed, ?_⟩
    obtain ⟨hbooked, henough⟩ := hmove.closes hhalf hclosed
    have houtcomes : period.outcomes (rest ++ [e]) = period.outcomes rest ++ [.success] := by
      rw [outcomes_append_singleton, hsplit, hbooked]
      rfl
    have hcounted : (period.outcomes (rest ++ [e])).count .success =
        ((start limits t₀).run (before ++ first :: rest)).breaker.successes + 1 := by
      rw [houtcomes, List.count_append, List.count_singleton_self, hcount]
    have hsuccesses := hperiod.count_success_le (tidy_start limits t₀) (rest ++ [e])
    have hlimits : ((start limits t₀).run (before ++ first :: rest)).breaker.limits = limits := limits_run _ _
    rw [hlimits] at henough
    calc max limits.successThreshold 1
        ≤ ((start limits t₀).run (before ++ first :: rest)).breaker.successes + 1 := by omega
      _ = (period.outcomes (rest ++ [e])).count .success := hcounted.symm
      _ ≤ successesFrom ending.admitted (period.bookings (rest ++ [e])) + ending.underway.length := hsuccesses
  · right
    obtain ⟨x, hx, hkind⟩ := Option.map_eq_some_iff.mp hfailure
    obtain ⟨he, _⟩ := booked_eq_some hx
    have hmem : x ∈ period.bookings (rest ++ [e]) := by
      have hlast : (period.run rest).bookings [e] = [x] := by
        rw [hsplit, bookings, hx]
        rfl
      rw [bookings_append, hlast]
      simp
    exact ⟨x.1, by rw [he, hkind], hperiod.caller (tidy_start limits t₀) hmem⟩

/-- Two trials close a breaker that becomes half-open with no call under way. -/
theorem decided_by_two_trials :
    let limits : Limits := { failureThreshold := 1, successThreshold := 2, openFor := .ofSeconds 30 }
    let es : List Event := [.arrive, .finish 0 .failure, .pass (.ofSeconds 30), .arrive, .arrive, .finish 1 .success]
    ((start limits 0).run es).breaker.state = .halfOpen ∧
      (((start limits 0).run es).step (.finish 2 .success)).breaker.state ≠ .halfOpen ∧
      ∃ before first rest, es = before ++ first :: rest ∧ (start limits 0).Period before first rest := by
  intro limits es
  obtain ⟨before, first, rest, hes, hperiod, _⟩ :=
    decided_by_trials_and_strays limits 0 es (.finish 2 .success) (by decide) (by decide) (by decide)
  exact ⟨by decide, by decide, before, first, rest, hes, hperiod⟩

/-- A call that was admitted before the circuit opened closes it from half-open when it succeeds, and opens it again
when it fails, although no call has been admitted since. -/
theorem decided_by_a_stray :
    let limits : Limits := { failureThreshold := 1, successThreshold := 1, openFor := .ofSeconds 30 }
    let opened := (start limits 0).run [.arrive, .arrive, .finish 0 .failure]
    let period := opened.run [.pass (.ofSeconds 30), .look]
    opened.breaker.isOpen = true ∧ period.breaker.state = .halfOpen ∧ period.admitted = opened.admitted ∧
      (period.step (.finish 1 .success)).breaker.state = .closed ∧
      (period.step (.finish 1 .failure)).breaker.isOpen = true := by
  decide

end Traffic
end Breaker
end CodeAtlas
