import Mathlib
import CodeAtlas.Proofs.Models.Exchange

/-! A model by itself, as its callers see it: a lane knows of no other model and of no time. It is shut when the results
of the calls hold enough failures in a row, where a lack of room is passed over and a success begins anew. -/
namespace CodeAtlas
namespace Models

section Streaks

/-- Whether a call failed for another reason than a lack of room. -/
def failed : Except Failure Completion → Bool
  | .ok _ => false
  | .error e => !e.isRateLimited

/-- Whether results hold `n` failures in a row. -/
def HasStreak (n : Nat) (results : List (Except Failure Completion)) : Prop :=
  ∃ streak, streak <:+: results ∧ (∀ result ∈ streak, result.isOk = false) ∧ n ≤ streak.countP failed

theorem HasStreak.mono {n : Nat} {results results' : List (Except Failure Completion)} (h : HasStreak n results)
    (hpart : results <:+: results') : HasStreak n results' :=
  let ⟨streak, hstreak, hno, hcount⟩ := h
  ⟨streak, hstreak.trans hpart, hno, hcount⟩

/-- The failures since the last success. -/
def failuresIn (results : List (Except Failure Completion)) : Nat :=
  results.foldl (fun n result => if result.isOk then 0 else if failed result then n + 1 else n) 0

theorem failuresIn_concat (results : List (Except Failure Completion)) (result : Except Failure Completion) :
    failuresIn (results ++ [result]) =
      if result.isOk then 0 else if failed result then failuresIn results + 1 else failuresIn results := by
  simp [failuresIn]

/-- The failures since the last success are a streak that results end in. -/
theorem exists_suffix_failuresIn (results : List (Except Failure Completion)) :
    ∃ streak, streak <:+ results ∧ (∀ result ∈ streak, result.isOk = false) ∧
      streak.countP failed = failuresIn results := by
  induction results using List.reverseRecOn with
  | nil => exact ⟨[], List.nil_suffix, by simp, rfl⟩
  | append_singleton results result ih =>
    obtain ⟨streak, ⟨before, hbefore⟩, hno, hcount⟩ := ih
    rw [failuresIn_concat]
    cases hok : result.isOk with
    | true => exact ⟨[], List.nil_suffix, by simp, rfl⟩
    | false =>
      refine ⟨streak ++ [result], ⟨before, by rw [← hbefore, List.append_assoc]⟩, ?_, ?_⟩
      · simpa [or_imp, forall_and, hok] using hno
      · cases hfailed : failed result <;> simp [hfailed, hcount]

/-- No streak that results end in has more failures than those since the last success. -/
theorem countP_le_failuresIn {streak results : List (Except Failure Completion)} (hsuffix : streak <:+ results)
    (hno : ∀ result ∈ streak, result.isOk = false) : streak.countP failed ≤ failuresIn results := by
  induction results using List.reverseRecOn generalizing streak with
  | nil => simp [List.suffix_nil.mp hsuffix]
  | append_singleton results result ih =>
    rcases List.suffix_concat_iff.mp hsuffix with rfl | ⟨front, rfl, hfront⟩
    · simp
    · have hrest : front.countP failed ≤ failuresIn results := ih hfront fun r hr => hno r (by simp [hr])
      have hok : result.isOk = false := hno result (by simp)
      rw [failuresIn_concat, List.countP_append]
      cases hfailed : failed result <;> simp [hfailed, hok, hrest]

/-- A result makes a streak when there was one before, or when it completes one. -/
theorem hasStreak_concat {n : Nat} {results : List (Except Failure Completion)}
    {result : Except Failure Completion} :
    HasStreak n (results ++ [result]) ↔ HasStreak n results ∨ n ≤ failuresIn (results ++ [result]) := by
  constructor
  · rintro ⟨streak, hstreak, hno, hcount⟩
    rcases List.infix_concat_iff.mp hstreak with hsuffix | hinfix
    · exact .inr (hcount.trans (countP_le_failuresIn hsuffix hno))
    · exact .inl ⟨streak, hinfix, hno, hcount⟩
  · rintro (h | h)
    · exact h.mono (List.prefix_append _ _).isInfix
    · obtain ⟨streak, hsuffix, hno, hcount⟩ := exists_suffix_failuresIn (results ++ [result])
      exact ⟨streak, hsuffix.isInfix, hno, hcount ▸ h⟩

/-- A result as far as it does not depend on the moment. -/
def withoutWait : Except Failure Completion → Except Failure Completion
  | .error (.circuitOpen target _) => .error (.circuitOpen target 0)
  | result => result

@[simp] theorem isOk_withoutWait (result : Except Failure Completion) :
    (withoutWait result).isOk = result.isOk := by
  unfold withoutWait
  split <;> rfl

@[simp] theorem failed_withoutWait (result : Except Failure Completion) :
    failed (withoutWait result) = failed result := by
  unfold withoutWait
  split <;> rfl

theorem failuresIn_withoutWait (results : List (Except Failure Completion)) :
    failuresIn (results.map withoutWait) = failuresIn results := by
  simp [failuresIn, List.foldl_map]

theorem hasStreak_withoutWait {n : Nat} {results : List (Except Failure Completion)} :
    HasStreak n (results.map withoutWait) ↔ HasStreak n results := by
  induction results using List.reverseRecOn with
  | nil => simp
  | append_singleton results result ih =>
    have hlast := failuresIn_withoutWait (results ++ [result])
    rw [List.map_append, List.map_singleton] at hlast ⊢
    rw [hasStreak_concat, hasStreak_concat, ih, hlast]

end Streaks

/-- How a model fares: whether its breaker is open, its failures since its last success, how many calls were turned
away, and the requests made to it. -/
structure Lane where
  isOpen : Bool := false
  failures : Nat := 0
  rejected : Nat := 0
  requests : List Request := []

namespace Lane

/-- Take note of what a call came to. -/
def note (limits : Breaker.Limits) (lane : Lane) : Except Failure Completion → Lane
  | .ok _ => { lane with failures := 0 }
  | .error e =>
    if e.isRateLimited then lane
    else { lane with failures := lane.failures + 1, isOpen := limits.failureThreshold ≤ lane.failures + 1 }

variable (m : Models Exchange) (replies : Replies) (limits : Breaker.Limits)

/-- One call to a model. -/
def call (lane : Lane) (a : Ask) : Except Failure Completion × Lane :=
  if lane.isOpen then (.error (.circuitOpen a.model 0), { lane with rejected := lane.rejected + 1 })
  else
    let (result, n) := a.result m replies lane.requests.length
    (result, { lane.note limits result with requests := lane.requests ++ List.replicate n (a.request m) })

/-- Calls to a model, one after the other. -/
def run (asks : List Ask) : List (Except Failure Completion) × Lane :=
  asks.foldl (fun (results, lane) a =>
    (results ++ [(lane.call m replies limits a).1], (lane.call m replies limits a).2)) ([], {})

theorem run_concat (asks : List Ask) (a : Ask) :
    run m replies limits (asks ++ [a]) =
      ((run m replies limits asks).1 ++ [((run m replies limits asks).2.call m replies limits a).1],
        ((run m replies limits asks).2.call m replies limits a).2) := by
  simp [run]

/-- A lane is shut when its results hold a streak; until then it counts the failures that may become one. -/
structure Tracks (lane : Lane) (results : List (Except Failure Completion)) : Prop where
  isOpen : lane.isOpen = true ↔ HasStreak (max limits.failureThreshold 1) results
  failures : lane.isOpen = false → lane.failures = failuresIn results

variable {limits} {lane : Lane} {results : List (Except Failure Completion)}

theorem Tracks.note (h : Tracks limits lane results) (hshut : lane.isOpen = false)
    (result : Except Failure Completion) : Tracks limits (lane.note limits result) (results ++ [result]) := by
  have hnone : ¬ HasStreak (max limits.failureThreshold 1) results := by simp [← h.isOpen, hshut]
  have hcount : lane.failures = failuresIn results := h.failures hshut
  have hfew : failuresIn results < max limits.failureThreshold 1 := by
    by_contra hmany
    obtain ⟨streak, hsuffix, hno, hstreak⟩ := exists_suffix_failuresIn results
    exact hnone ⟨streak, hsuffix.isInfix, hno, by omega⟩
  cases result with
  | ok c =>
    have hlast : failuresIn (results ++ [.ok c]) = 0 := failuresIn_concat results (.ok c)
    exact ⟨by simp [Lane.note, hasStreak_concat, hnone, hshut, hlast], fun _ => hlast.symm⟩
  | error e =>
    have hlast : failuresIn (results ++ [.error e]) =
        if e.isRateLimited then failuresIn results else failuresIn results + 1 := by
      rw [failuresIn_concat]
      cases hroom : e.isRateLimited <;> simp [Except.isOk, Except.toBool, failed, hroom]
    cases hroom : e.isRateLimited with
    | true =>
      simp only [hroom, if_true] at hlast
      refine ⟨?_, fun _ => by simp [Lane.note, hroom, hlast, hcount]⟩
      rw [hasStreak_concat, hlast]
      simp only [Lane.note, hroom, if_true, hshut, hnone, Nat.not_le.mpr hfew, Bool.false_eq_true, or_false]
    | false =>
      simp only [hroom, Bool.false_eq_true, if_false] at hlast
      refine ⟨?_, fun _ => by simp [Lane.note, hroom, hlast, hcount]⟩
      simp [Lane.note, hroom, hasStreak_concat, hnone, hlast, hcount]

theorem Tracks.call (h : Tracks limits lane results) (a : Ask) :
    Tracks limits (lane.call m replies limits a).2 (results ++ [(lane.call m replies limits a).1]) := by
  cases hopen : lane.isOpen with
  | true =>
    have hstreak := (h.isOpen.mp hopen).mono (List.prefix_append results [.error (.circuitOpen a.model 0)]).isInfix
    simp only [Lane.call, hopen, if_true]
    exact ⟨by simp [hstreak], by simp⟩
  | false =>
    have hnote := h.note hopen (a.result m replies lane.requests.length).1
    simp only [Lane.call, hopen, Bool.false_eq_true, if_false]
    exact ⟨hnote.isOpen, hnote.failures⟩

theorem tracks_run (asks : List Ask) :
    Tracks limits (run m replies limits asks).2 (run m replies limits asks).1 := by
  induction asks using List.reverseRecOn with
  | nil => exact ⟨by simp [run, HasStreak], fun _ => rfl⟩
  | append_singleton asks a ih =>
    rw [run_concat]
    exact ih.call m replies a

end Lane

end Models
end CodeAtlas
