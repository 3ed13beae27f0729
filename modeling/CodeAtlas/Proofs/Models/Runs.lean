import Mathlib
import CodeAtlas.Proofs.Models.Lanes

/-! Calls one after the other, to any mix of models, while no open window ends. Every model goes the way of its own
lane. -/
namespace CodeAtlas
namespace Models

open Registry (bookingOf)

/-- Whether no open window is over. -/
def InTime (t : Moment) (x : Exchange) : Prop := ∀ model u, (x.breakerOf model).state = .openUntil u → t < u

theorem InTime.of_others {model : String} {t : Moment} {x x' : Exchange} (h : InTime t x)
    (hothers : ∀ other, other ≠ model → x'.breakerOf other = x.breakerOf other)
    (hown : ∀ u, (x'.breakerOf model).state = .openUntil u → t < u) : InTime t x' := by
  intro other u hu
  by_cases hother : other = model
  · exact hown u (hother ▸ hu)
  · exact h other u (by rw [← hothers other hother, hu])

theorem InTime.of_alike {model : String} {t : Moment} {x y : Exchange} (h : InTime t x) (halike : x.Alike model y)
    (hothers : ∀ other, other ≠ model → (y.breakerOf other).state = .closed) : InTime t y := by
  intro other u hu
  by_cases hother : other = model
  · exact h model u (by rw [← halike.breaker, ← hother, hu])
  · simp [hothers other hother] at hu

/-- Whether a lane tells how a breaker stands, the end of its window apart. -/
structure Lane.Fits (lane : Lane) (limits : Breaker.Limits) (b : Breaker) : Prop where
  limits : b.limits = limits
  state : b.state = .closed ∧ lane.isOpen = false ∨ ∃ u, b.state = .openUntil u ∧ lane.isOpen = true
  failures : b.failures = lane.failures
  rejected : b.rejected = lane.rejected

/-- Whether a lane tells how a model fares. -/
structure Lane.Shows (lane : Lane) (limits : Breaker.Limits) (model : String) (x : Exchange) : Prop where
  fits : lane.Fits limits (x.breakerOf model)
  requests : x.requests.filter (·.model == model) = lane.requests

section Steps

variable {m : Models Exchange} {replies : Replies} {limits : Breaker.Limits} {lane : Lane} {a : Ask} {t t' : Moment}
  {x x' : Exchange} {result : Except Failure Completion}

/-- What a closed breaker books is what its lane takes note of. -/
theorem Lane.Fits.book {b : Breaker} (h : lane.Fits limits b) (hclosed : b.state = .closed)
    (hshut : lane.isOpen = false) (t : Moment) (result : Except Failure Completion) :
    (lane.note limits result).Fits limits (b.book t (bookingOf countFailure result)) := by
  cases result with
  | ok c =>
    have hbook : b.book t (bookingOf countFailure (.ok c : Except Failure Completion)) = { b with failures := 0 } := by
      simp [bookingOf, Breaker.book, Breaker.bookSuccess, hclosed]
    rw [hbook]
    exact ⟨h.limits, .inl ⟨hclosed, hshut⟩, rfl, h.rejected⟩
  | error e =>
    cases hroom : e.isRateLimited with
    | true =>
      simp only [bookingOf, countFailure, hroom, if_true, Breaker.book, note]
      exact h
    | false =>
      simp only [bookingOf, countFailure, hroom, Bool.false_eq_true, if_false, Breaker.book, Breaker.bookFailure,
        hclosed, note, h.limits, h.failures]
      split
      · next hmany => exact ⟨rfl, .inr ⟨_, rfl, by simpa using hmany⟩, rfl, h.rejected⟩
      · next hfew => exact ⟨rfl, .inl ⟨rfl, by simpa using hfew⟩, rfl, h.rejected⟩

theorem Lane.Shows.asked (h : lane.Shows limits a.model x) : x.asked a.model = lane.requests.length := by
  rw [← h.requests, Exchange.asked_eq]

theorem Lane.Shows.of_alike {model : String} (h : lane.Shows limits model x) (halike : x.Alike model x') :
    lane.Shows limits model x' :=
  ⟨halike.breaker ▸ h.fits, halike.requests.trans h.requests⟩

theorem Lane.Shows.not_halfOpen {model : String} (h : lane.Shows limits model x) :
    (x.breakerOf model).state ≠ .halfOpen := by
  rcases h.fits.state with ⟨hclosed, _⟩ | ⟨u, hu, _⟩
  · simp [hclosed]
  · simp [hu]

theorem Lane.Shows.isOpen_look {model : String} (h : lane.Shows limits model x) (htime : InTime t x) :
    ((x.breakerOf model).look t).isOpen = lane.isOpen := by
  rcases h.fits.state with ⟨hclosed, hshut⟩ | ⟨u, hu, hopen⟩
  · simp [Breaker.look, Breaker.isOpen, hclosed, hshut]
  · rw [Breaker.look_of_lt hu (htime model u hu), hopen]
    simp [Breaker.isOpen, hu]

/-- A call goes as its model's lane says. -/
theorem Lane.Shows.call {n : Nat} {b' : Breaker} (h : lane.Shows limits a.model x)
    (hstep : Ask.Step m replies a t (x.breakerOf a.model) (x.asked a.model) result t' n b')
    (hleaves : Exchange.Leaves (a.request m) n b' x x') :
    withoutWait result = withoutWait (lane.call m replies limits a).1 ∧
      (lane.call m replies limits a).2.Shows limits a.model x' := by
  have hown : x'.breakerOf a.model = b' := hleaves.own
  have hrequests : x'.requests.filter (·.model == a.model) = lane.requests ++ List.replicate n (a.request m) := by
    rw [← h.requests]
    exact hleaves.requests_own
  cases hstep with
  | @refused u hu hlt =>
    have hopen : lane.isOpen = true := by simpa [hu] using h.fits.state
    simp only [Lane.call, hopen, if_true]
    refine ⟨rfl, ⟨?_, by simpa using hrequests⟩⟩
    rw [hown]
    exact ⟨h.fits.limits, .inr ⟨u, hu, rfl⟩, h.fits.failures, congrArg (· + 1) h.fits.rejected⟩
  | served hclosed _ =>
    have hshut : lane.isOpen = false := by simpa [hclosed] using h.fits.state
    rw [h.asked] at hown hrequests ⊢
    simp only [Lane.call, hshut, Bool.false_eq_true, if_false]
    have hfits := h.fits.book hclosed hshut t' (a.result m replies lane.requests.length).1
    refine ⟨trivial, ⟨?_, hrequests⟩⟩
    rw [hown]
    exact ⟨hfits.limits, hfits.state, hfits.failures, hfits.rejected⟩

end Steps

/-- Breakers that have seen no call, and no request. -/
def Exchange.start (breakers : Breakers) : Exchange := { breakers := breakers.clear }

/-- Calls one after the other, with what they came to, and where they lead. No open window ends meanwhile. -/
inductive Runs (m : Models Exchange) (replies : Replies) (breakers : Breakers) :
    List (Ask × Except Failure Completion) → Moment → Exchange → Prop where
  | start (t : Moment) : Runs m replies breakers [] t (.start breakers)
  | pause {calls : List (Ask × Except Failure Completion)} {t t' : Moment} {x : Exchange} :
      Runs m replies breakers calls t x → t ≤ t' → InTime t' x → Runs m replies breakers calls t' x
  | call {calls : List (Ask × Except Failure Completion)} {t t' : Moment} {x x' : Exchange} {a : Ask}
      {result : Except Failure Completion} :
      Runs m replies breakers calls t x → (a.activity m replies).run t x = .finished result t' x' → InTime t' x' →
      Runs m replies breakers (calls ++ [(a, result)]) t' x'

/-- The calls to one model. -/
def callsTo (model : String) (calls : List (Ask × Except Failure Completion)) :
    List (Ask × Except Failure Completion) := calls.filter (·.1.model == model)

/-- What the calls to one model came to. -/
def resultsOf (model : String) (calls : List (Ask × Except Failure Completion)) : List (Except Failure Completion) :=
  (callsTo model calls).map (·.2)

namespace Runs

variable {m : Models Exchange} {replies : Replies} {breakers : Breakers}
  {calls : List (Ask × Except Failure Completion)} {t : Moment} {x : Exchange}

theorem inTime (h : Runs m replies breakers calls t x) : InTime t x := by
  cases h with
  | start t =>
    intro model u hu
    simp [Exchange.breakerOf, Exchange.start, Breakers.clear, Registry.clear, Registry.breakerOf, Breaker.new] at hu
  | pause _ _ htime => exact htime
  | call _ _ htime => exact htime

/-- Every model goes the way of its own lane, whatever is asked of the others. -/
theorem follows (h : Runs m replies breakers calls t x) (model : String) :
    let lane := Lane.run m replies breakers.completion.limits ((callsTo model calls).map (·.1))
    lane.2.Shows breakers.completion.limits model x ∧
      (resultsOf model calls).map withoutWait = lane.1.map withoutWait := by
  induction h generalizing model with
  | start t =>
    refine ⟨⟨⟨?_, .inl ⟨?_, rfl⟩, ?_, ?_⟩, rfl⟩, rfl⟩ <;>
      simp [Exchange.breakerOf, Exchange.start, Breakers.clear, Registry.clear, Registry.breakerOf, Breaker.new,
        Lane.run, callsTo]
  | pause _ _ _ ih => exact ih model
  | @call calls t t' x x' a result hruns hrun _ ih =>
    -- the lane of the called model tells whether its breaker is open, whichever model the statement is about
    have hown := (ih a.model).1
    obtain ⟨n, b', hstep, hleaves, _⟩ := Ask.exists_step (hruns.inTime a.model) hown.not_halfOpen hrun
    by_cases hmodel : a.model = model
    · subst hmodel
      obtain ⟨hresult, hshows⟩ := hown.call hstep hleaves
      have hcalls : callsTo a.model (calls ++ [(a, result)]) = callsTo a.model calls ++ [(a, result)] := by
        simp [callsTo]
      simp only [resultsOf, hcalls, List.map_append, List.map_singleton, Lane.run_concat]
      exact ⟨hshows, by rw [← (ih a.model).2, hresult]; rfl⟩
    · have hcalls : callsTo model (calls ++ [(a, result)]) = callsTo model calls := by
        simp [callsTo, hmodel]
      simp only [resultsOf, hcalls]
      exact ⟨(ih model).1.of_alike (hleaves.alike (Ne.symm hmodel)), (ih model).2⟩

/-- Without the calls to the others a model fares the same, moment by moment. -/
theorem alone (h : Runs m replies breakers calls t x) (model : String) :
    ∃ y, Runs m replies breakers (callsTo model calls) t y ∧ x.Alike model y ∧
      ∀ other, other ≠ model → (y.breakerOf other).state = .closed := by
  induction h with
  | start t => exact ⟨_, .start t, ⟨rfl, rfl⟩, fun other _ => by
      simp [Exchange.breakerOf, Exchange.start, Breakers.clear, Registry.clear, Registry.breakerOf, Breaker.new]⟩
  | pause _ ht' htime ih =>
    obtain ⟨y, hy, halike, hothers⟩ := ih
    exact ⟨y, .pause hy ht' (htime.of_alike halike hothers), halike, hothers⟩
  | @call calls t t' x x' a result hruns hrun htime ih =>
    obtain ⟨y, hy, halike, hothers⟩ := ih
    obtain ⟨n, b', hstep, hleaves, hsame⟩ :=
      Ask.exists_step (hruns.inTime a.model) (hruns.follows a.model).1.not_halfOpen hrun
    by_cases hmodel : a.model = model
    · subst hmodel
      have hcalls : callsTo a.model (calls ++ [(a, result)]) = callsTo a.model calls ++ [(a, result)] := by
        simp [callsTo]
      obtain ⟨y', hleaves', hrun'⟩ := hsame y halike.breaker halike.asked
      have halike' : x'.Alike a.model y' :=
        ⟨hleaves'.own.trans hleaves.own.symm,
          hleaves'.requests_own.trans ((congrArg (· ++ _) halike.requests).trans hleaves.requests_own.symm)⟩
      have hothers' : ∀ other, other ≠ a.model → (y'.breakerOf other).state = .closed := fun other hne => by
        rw [hleaves'.others other hne, hothers other hne]
      rw [hcalls]
      exact ⟨y', .call hy hrun' (htime.of_alike halike' hothers'), halike', hothers'⟩
    · -- the time that a call to another model takes is waited instead
      have hcalls : callsTo model (calls ++ [(a, result)]) = callsTo model calls := by
        simp [callsTo, hmodel]
      have hunseen : x.Alike model x' := hleaves.alike (Ne.symm hmodel)
      have halike' : x'.Alike model y :=
        ⟨halike.breaker.trans hunseen.breaker.symm, halike.requests.trans hunseen.requests.symm⟩
      rw [hcalls]
      exact ⟨y, .pause hy hstep.le (htime.of_alike halike' hothers), halike', hothers⟩

theorem isOpen_iff (h : Runs m replies breakers calls t x) (model : String) :
    ((x.breakerOf model).look t).isOpen = true ↔
      HasStreak (max breakers.completion.limits.failureThreshold 1) (resultsOf model calls) := by
  obtain ⟨hshows, hresults⟩ := h.follows model
  rw [hshows.isOpen_look h.inTime, (Lane.tracks_run m replies _).isOpen, ← hasStreak_withoutWait, ← hresults,
    hasStreak_withoutWait]

/-- A model whose breaker is open is not asked. -/
theorem run_of_isOpen (h : Runs m replies breakers calls t x) {a : Ask}
    (hopen : ((x.breakerOf a.model).look t).isOpen = true) :
    ∃ d x', (a.activity m replies).run t x = .finished (.error (.circuitOpen a.model d)) t x' ∧
      x'.requests = x.requests := by
  obtain ⟨hshows, _⟩ := h.follows a.model
  rw [hshows.isOpen_look h.inTime] at hopen
  rcases hshows.fits.state with ⟨_, hshut⟩ | ⟨u, hu, _⟩
  · simp [hopen] at hshut
  · exact ⟨_, _, Ask.run_of_open m replies a t hu (h.inTime _ _ hu), rfl⟩

theorem infix_resultsOf {earlier : List (Ask × Except Failure Completion)} (h : earlier <+: calls) (model : String) :
    resultsOf model earlier <:+: resultsOf model calls :=
  ((h.filter _).map _).isInfix

/-- A model is shut off by a streak of failures of its own calls and by nothing else, stays shut off, and fares as it
does when nobody asks the others; every call returns, as long as the clock can show the end of a window. -/
theorem shut_by_own_streak (h : Runs m replies breakers calls t x) (model : String) :
    (((x.breakerOf model).look t).isOpen = true ↔
      HasStreak (max breakers.completion.limits.failureThreshold 1) (resultsOf model calls)) ∧
    (∀ earlier, earlier <+: calls →
      HasStreak (max breakers.completion.limits.failureThreshold 1) (resultsOf model earlier) →
      ∀ a : Ask, a.model = model → ∃ d x', (a.activity m replies).run t x =
        .finished (.error (.circuitOpen model d)) t x' ∧ x'.requests = x.requests) ∧
    (∃ y, Runs m replies breakers (callsTo model calls) t y ∧ x.Alike model y) ∧
    (∀ own t' y, Runs m replies breakers own t' y → own.map (·.1) = (callsTo model calls).map (·.1) →
      (own.map (·.2)).map withoutWait = (resultsOf model calls).map withoutWait ∧
      y.requests.filter (·.model == model) = x.requests.filter (·.model == model) ∧
      ((y.breakerOf model).look t').isOpen = ((x.breakerOf model).look t).isOpen ∧
      (y.breakerOf model).failures = (x.breakerOf model).failures ∧
      (y.breakerOf model).rejected = (x.breakerOf model).rejected) ∧
    ∀ a : Ask, (∃ result t' x', (a.activity m replies).run t x = .finished result t' x') ∨
      ∃ t' x', ¬ (x.breakerOf a.model).CanOpen t' ∧
        (a.activity m replies).run t x = .crashed Registry.overrunMessage t' x' := by
  refine ⟨h.isOpen_iff model, fun earlier hearlier hstreak a ha => ?_, ?_, fun own t' y hown hasks => ?_,
    fun a => Ask.returns (h.inTime a.model) (h.follows a.model).1.not_halfOpen⟩
  · subst ha
    exact h.run_of_isOpen ((h.isOpen_iff a.model).mpr (hstreak.mono (infix_resultsOf hearlier a.model)))
  · obtain ⟨y, hy, halike, _⟩ := h.alone model
    exact ⟨y, hy, halike⟩
  · have hcalls : callsTo model own = own := by
      refine List.filter_eq_self.mpr fun c hc => ?_
      have hask : c.1 ∈ (callsTo model calls).map (·.1) := hasks ▸ List.mem_map_of_mem hc
      obtain ⟨c', hc', heq⟩ := List.mem_map.mp hask
      exact heq ▸ (List.mem_filter.mp hc').2
    obtain ⟨hshows, hresults⟩ := h.follows model
    obtain ⟨hshows', hresults'⟩ := hown.follows model
    rw [hcalls, hasks] at hshows' hresults'
    have hown' : resultsOf model own = own.map (·.2) := by rw [resultsOf, hcalls]
    exact ⟨by rw [← hown', hresults', hresults], hshows'.requests.trans hshows.requests.symm,
      by rw [hshows'.isOpen_look hown.inTime, hshows.isOpen_look h.inTime],
      hshows'.fits.failures.trans hshows.fits.failures.symm, hshows'.fits.rejected.trans hshows.fits.rejected.symm⟩

section Sample

/-- Two models that answer at once, one of them with a failure. -/
def sampleModels : Models Exchange where
  completion := Exchange.service fun _ _ => .silence
  embedding := none
  breakers := Exchange.breakersPart
  usage := Exchange.usagePart
  retry := .immediate 1
  chain := []
  embeddingModel := ""
  maxOutputTokens := 0
  timeout := 0

def sampleReplies : Replies := fun r _ =>
  .answer 0 (if r.model = "a" then .error .transport else .ok ⟨"", "b", {}⟩)

def sampleBreakers : Breakers :=
  ⟨⟨"completion", { failureThreshold := 1 }, {}⟩, ⟨"embedding", {}, {}⟩, ⟨"vector", {}, {}⟩⟩

def askA : Ask := ⟨"a", [], 1, false⟩

def askB : Ask := ⟨"b", [], 1, false⟩

def afterA : Exchange := ((askA.activity sampleModels sampleReplies).run 0 (.start sampleBreakers)).state

def afterB : Exchange := ((askB.activity sampleModels sampleReplies).run 0 afterA).state

theorem runs_sample :
    Runs sampleModels sampleReplies sampleBreakers [(askA, .error .transport), (askB, .ok ⟨"", "b", {}⟩)] 0
      afterB := by
  have hstart : Runs sampleModels sampleReplies sampleBreakers [] 0 (.start sampleBreakers) := .start 0
  have hrunA : (askA.activity sampleModels sampleReplies).run 0 (.start sampleBreakers) =
      .finished (.error .transport) 0 afterA := rfl
  have hrunB : (askB.activity sampleModels sampleReplies).run 0 afterA = .finished (.ok ⟨"", "b", {}⟩) 0 afterB := rfl
  obtain ⟨_, _, _, hleavesA, _⟩ :=
    Ask.exists_step (hstart.inTime "a") (hstart.follows "a").1.not_halfOpen hrunA
  have htimeA : InTime 0 afterA := hstart.inTime.of_others hleavesA.others fun u hu => by
    have hopen : (afterA.breakerOf "a").state = .openUntil (Duration.ofSeconds 30) := rfl
    cases hopen.symm.trans hu
    decide
  have hA := hstart.call hrunA htimeA
  obtain ⟨_, _, _, hleavesB, _⟩ := Ask.exists_step (hA.inTime "b") (hA.follows "b").1.not_halfOpen hrunB
  refine hA.call hrunB (hA.inTime.of_others hleavesB.others fun u hu => ?_)
  have hclosed : (afterB.breakerOf "b").state = .closed := rfl
  cases hclosed.symm.trans hu

/-- One failure shuts a model off at a threshold of one, and leaves the other one open to calls. -/
theorem shut_by_own_streak_sample :
    ((afterB.breakerOf "a").look 0).isOpen = true ∧ ((afterB.breakerOf "b").look 0).isOpen = false ∧
      ∃ y, Runs sampleModels sampleReplies sampleBreakers [(askA, .error .transport)] 0 y ∧ afterB.Alike "a" y := by
  obtain ⟨hiff, _, halone, _⟩ := shut_by_own_streak runs_sample "a"
  have hstreak : HasStreak 1 [.error .transport] :=
    ⟨[.error .transport], List.infix_rfl, by simp [Except.isOk, Except.toBool], by decide⟩
  exact ⟨hiff.mpr hstreak, rfl, halone⟩

end Sample

end Runs

end Models
end CodeAtlas
