import CodeAtlas.Proofs.Activity.Alone
import CodeAtlas.Proofs.Models.Parts
import CodeAtlas.Proofs.Guard.Retries
import CodeAtlas.Proofs.Models.Exchange

/-! One completion at a provider of any kind: it may answer or fail, take its time, wait for ever or crash, and its
answers may depend on all that it was asked before. All requests but the last are turned away for lack of room, the
breaker stays as the first of them has found it, and what the last one comes to is booked. -/
namespace CodeAtlas

namespace Registry

variable {σ α : Type}

theorem state_ending (booked : Option Unit) (v : α) (t : Moment) (s : σ) :
    (ending booked v t s).state = s := by
  cases booked <;> rfl

theorem eq_of_value?_ending {booked : Option Unit} {v w : α} {t : Moment} {s : σ}
    (h : (ending booked v t s).value? = some w) : w = v := by
  cases booked with
  | none => cases h
  | some _ =>
    cases h
    rfl

end Registry

namespace Models

open Activity (Keeps Outcome Part Series Span)
open Registry (bookingOf ending)

/-- Calls at a provider that has a state of its own. -/
structure Dealings (τ : Type) extends Exchange where
  provider : τ

namespace Dealings

variable {τ : Type}

def exchangePart : Part (Dealings τ) Exchange := ⟨toExchange, fun e x => { x with toExchange := e }⟩

def providerPart : Part (Dealings τ) τ := ⟨provider, fun p x => { x with provider := p }⟩

def withBreaker (x : Dealings τ) (model : String) (b : Breaker) : Dealings τ :=
  { x with toExchange := x.toExchange.withBreaker model b }

/-- A request is put on record when the provider gets it. -/
def service (provider : CompletionService τ) : CompletionService (Dealings τ) := fun r => do
  Activity.modify fun x => { x with requests := x.requests ++ [r] }
  (provider r).on providerPart

end Dealings

/-- Models that a provider serves. -/
def serving {τ : Type} (m : Models (Dealings τ)) (provider : CompletionService τ) : Models (Dealings τ) :=
  { m with
    completion := Dealings.service provider
    breakers := Dealings.exchangePart.inside Exchange.breakersPart
    usage := Dealings.exchangePart.inside Exchange.usagePart }

namespace Dealings

variable {τ : Type} (m : Models (Dealings τ)) (provider : CompletionService τ) (r : Request) (t : Moment)
  (x : Dealings τ)

/-- How a request comes out that is made at a moment. -/
def asking : Outcome (Dealings τ) (Except Failure Completion) := (askInTime (service provider) r).run t x

/-- A request is made once, and nothing else is changed by it but what the provider keeps. -/
theorem log_asking :
    (asking provider r t x).state.requests = x.requests ++ [r] ∧ (asking provider r t x).state.breakers = x.breakers ∧
      (asking provider r t x).state.usage = x.usage := by
  let view : Dealings τ → List Request × Breakers × Usage := fun x => (x.requests, x.breakers, x.usage)
  have hserved : ∀ {f : Option (Except Failure Completion) → Activity (Dealings τ) (Except Failure Completion)},
      (∀ result, (f result).Keeps view) →
      view (((Activity.within r.timeout (service provider r)).andThen f).run t x).state =
        (x.requests ++ [r], x.breakers, x.usage) := fun hf =>
    (Keeps.andThen ((Activity.keeps_on (fun _ _ => rfl) (provider r)).cutAt _) hf).state_eq t
      { x with requests := x.requests ++ [r] }
  have hview : view (asking provider r t x).state = (x.requests ++ [r], x.breakers, x.usage) :=
    hserved fun result => by cases result <;> trivial
  obtain ⟨hrequests, hrest⟩ := Prod.mk.inj hview
  exact ⟨hrequests, Prod.mk.inj hrest⟩

/-- A request comes to an end, at the latest when its time is over. -/
theorem exists_asking :
    (∃ result t' x', asking provider r t x = .finished result t' x') ∨
      ∃ message t' x', asking provider r t x = .crashed message t' x' := by
  have hasked : (Activity.within r.timeout (service provider r)).TurnsOut False (fun _ _ => True) t :=
    fun _ => Activity.ceases_cutAt _ _ t
  have hends : (askInTime (service provider) r).TurnsOut False (fun _ _ => True) t :=
    hasked.andThen (fun result _ _ _ => by cases result <;> trivial) fun _ _ _ _ => trivial
  rcases hends.run x with ⟨result, t', x', hrun, -⟩ | ⟨message, t', x', hrun, -⟩ | ⟨_, _, _, hfalse⟩
  · exact .inl ⟨result, t', x', hrun⟩
  · exact .inr ⟨message, t', x', hrun⟩
  · exact hfalse.elim

/-- Where a request is made: after a look at the model's breaker. -/
def looking (model : String) : Dealings τ := x.withBreaker model ((x.breakerOf model).look t)

/-- What a call leaves that is turned away by its model's breaker: only the rejection is counted. -/
def rejecting (model : String) : Dealings τ :=
  x.withBreaker model { x.breakerOf model with rejected := (x.breakerOf model).rejected + 1 }

@[simp] theorem breakerOf_withBreaker_self (model : String) (b : Breaker) :
    (x.withBreaker model b).breakerOf model = b :=
  Exchange.breakerOf_withBreaker_self x.toExchange model b

theorem breakerOf_asking :
    (asking provider r t (x.looking t r.model)).state.breakerOf r.model = (x.breakerOf r.model).look t :=
  (congrArg (fun b => b.completion.breakerOf r.model) (log_asking provider r t (x.looking t r.model)).2.1).trans
    (breakerOf_withBreaker_self x r.model _)

/-- How an attempt can come out. -/
inductive Attempted : Outcome (Dealings τ) (Except Failure Completion) → Prop where
  /-- The model's breaker is open, and no request is made. -/
  | refused {u : Moment} : (x.breakerOf r.model).state = .openUntil u → t < u →
      Attempted (.finished (.error (.circuitOpen r.model (u - t))) t (x.rejecting r.model))
  /-- What the request comes to is booked, which crashes when the breaker would open for longer than the clock can
  show. -/
  | answered {result : Except Failure Completion} {t' : Moment} {x' : Dealings τ} :
      ((x.breakerOf r.model).look t).isOpen = false →
      asking provider r t (x.looking t r.model) = .finished result t' x' →
      Attempted (ending (((x.breakerOf r.model).look t).settle t' (bookingOf countFailure result)).1 result t'
        (x'.withBreaker r.model (((x.breakerOf r.model).look t).settle t' (bookingOf countFailure result)).2))
  /-- The provider crashes. -/
  | crashed {message : String} {t' : Moment} {x' : Dealings τ} :
      ((x.breakerOf r.model).look t).isOpen = false →
      asking provider r t (x.looking t r.model) = .crashed message t' x' → Attempted (.crashed message t' x')

theorem attempted_attempt : Attempted provider r t x (((m.serving provider).attempt r).run t x) := by
  let part : Part (Dealings τ) Registry := (m.serving provider).breakers.inside Breakers.completionPart
  rcases Breaker.enter_cases (x.breakerOf r.model) t with ⟨u, hu, hlt, henter⟩ | ⟨hover, henter⟩
  · have hcall := Registry.run_call_of_rejected part henter (askInTime (service provider) r) countFailure
    have hattempt : ((m.serving provider).attempt r).run t x = _ := Activity.run_andThen_of_run hcall _
    rw [hattempt]
    exact .refused hu hlt
  · have hopen := Breaker.isOpen_look hover
    rcases exists_asking provider r t (x.looking t r.model) with ⟨result, t', x', hask⟩ | ⟨message, t', x', hask⟩
    · have hsame : x'.breakerOf r.model = (x.breakerOf r.model).look t := by
        have hfound := breakerOf_asking provider r t x
        rwa [hask] at hfound
      have hcall := Registry.run_call_of_admitted part henter countFailure hask
      have hattempt : ((m.serving provider).attempt r).run t x = _ := Registry.run_andThen_of_ending hcall _
      have hanswered : Attempted provider r t x _ := .answered hopen hask
      rw [← hsame] at hanswered
      rw [hattempt, ofAnswer_answerOf]
      exact hanswered
    · have hcall := Registry.run_call_of_crash part henter countFailure hask
      have hattempt : ((m.serving provider).attempt r).run t x = _ := Activity.run_andThen_of_crash hcall _
      rw [hattempt]
      exact .crashed hopen hask

/-- Only an error other than that there is no room is booked as a failure. -/
theorem exists_of_bookingOf_eq_failure {result : Except Failure Completion}
    (h : bookingOf countFailure result = .failure) : ∃ e, result = .error e ∧ e ≠ .rateLimited := by
  cases result with
  | ok c => cases h
  | error e =>
    refine ⟨e, rfl, ?_⟩
    rintro rfl
    cases h

/-- A request that has reached the provider: when and in which state it was made, and how it came out. -/
structure Asked (τ : Type) where
  begins : Moment
  before : Dealings τ
  outcome : Outcome (Dealings τ) (Except Failure Completion)

namespace Asked

/-- Whether the provider had no room. -/
def IsTurnedAway (q : Asked τ) : Prop := q.outcome.value? = some (.error .rateLimited)

/-- Whether the request came to an error, be it that its time was over, but not for lack of room. -/
def Fails (q : Asked τ) : Prop := ∃ e, q.outcome.value? = some (.error e) ∧ e ≠ .rateLimited

/-- The request of an attempt that begins at a moment. -/
def ofAttempt (provider : CompletionService τ) (r : Request) (t : Moment) (x : Dealings τ) : Asked τ :=
  ⟨t, x.looking t r.model, asking provider r t (x.looking t r.model)⟩

end Asked

/-- Whether a request is the one that a call makes after `k` others, from `x` on, at a breaker that is as `b`. -/
structure IsRequest (b : Breaker) (k : Nat) (q : Asked τ) : Prop where
  outcome : q.outcome = asking provider r q.begins q.before
  requests : q.before.requests = x.requests ++ List.replicate k r
  breaker : q.before.breakerOf r.model = b

/-- What requests lead to for which there is no room: nothing but that they were made. -/
structure TurnedAway (b : Breaker) (asked : List (Asked τ)) (x' : Dealings τ) : Prop where
  requests : x'.requests = x.requests ++ List.replicate asked.length r
  usage : x'.usage = x.usage
  each : ∀ k q, asked[k]? = some q → IsRequest provider r x b k q ∧ q.IsTurnedAway

variable {m provider r t x} {t' : Nat} {x' : Dealings τ}

theorem isRequest_ofAttempt {b : Breaker} {asked : List (Asked τ)} (h : TurnedAway provider r x b asked x')
    (hb : (x'.breakerOf r.model).look t' = b) :
    IsRequest provider r x b asked.length (.ofAttempt provider r t' x') where
  outcome := rfl
  requests := h.requests
  breaker := (breakerOf_withBreaker_self x' r.model _).trans hb

/-- An attempt for which there is no room leaves the breaker as its request has found it. -/
theorem Attempted.of_turnedAway {out : Outcome (Dealings τ) (Except Failure Completion)} {t₁ : Moment}
    {x₁ : Dealings τ} (h : Attempted provider r t x out) (hout : out = .finished (.error .rateLimited) t₁ x₁) :
    ((x.breakerOf r.model).look t).isOpen = false ∧ (Asked.ofAttempt provider r t x).IsTurnedAway ∧
      x₁.requests = x.requests ++ [r] ∧ x₁.usage = x.usage ∧
      x₁.breakerOf r.model = (x.breakerOf r.model).look t := by
  cases h with
  | refused _ _ => cases hout
  | crashed _ _ => cases hout
  | @answered result t' x' hopen hask =>
    obtain ⟨hrequests, -, husage⟩ := log_asking provider r t (x.looking t r.model)
    rw [hask] at hrequests husage
    have hresult : result = .error .rateLimited := by
      unfold ending at hout
      split at hout <;> cases hout
      rfl
    subst hresult
    rw [show bookingOf countFailure (.error .rateLimited : Except Failure Completion) = .ignored from rfl,
      Breaker.settle_ignored] at hout
    cases hout
    exact ⟨hopen, by rw [Asked.IsTurnedAway, Asked.ofAttempt, hask]; rfl, hrequests, husage,
      breakerOf_withBreaker_self x' r.model _⟩

/-- Attempts for which there is no room make one request each. -/
theorem exists_turnedAway {pause : Nat → Nat} {numbers : List Nat}
    {made : List (Span (Dealings τ) (Except Failure Completion))}
    (h : Series (fun _ => (m.serving provider).attempt r) pause (RetryPlan.WorthAgain Failure.isRateLimited) numbers t x
      made t' x') :
    ∃ asked, asked.length = made.length ∧ TurnedAway provider r x ((x.breakerOf r.model).look t) asked x' ∧
      (asked = [] ∧ t' = t ∧ x' = x ∨
        x'.breakerOf r.model = (x.breakerOf r.model).look t ∧ ((x.breakerOf r.model).look t).isOpen = false) := by
  -- along the series: its first request leaves the breaker as it has found it, and so do all after it
  induction h with
  | nil t x => exact ⟨[], rfl, ⟨by simp, rfl, nofun⟩, .inl ⟨rfl, rfl, rfl⟩⟩
  | @cons _ numbers t t₁ t' x x₁ x' outcome made hrun hgoes hseries ih =>
    obtain ⟨e, rfl, hroom⟩ := hgoes
    obtain rfl : e = .rateLimited := of_decide_eq_true hroom
    have hattempt := attempted_attempt m provider r t x
    obtain ⟨hopen, haway, hrequests, husage, hsame⟩ := hattempt.of_turnedAway hrun
    obtain ⟨asked, hlength, hrest, hleft⟩ := ih
    rw [hsame, Breaker.look_of_isOpen _ hopen] at hrest hleft
    refine ⟨.ofAttempt provider r t x :: asked, congrArg Nat.succ hlength, ⟨?_, hrest.usage.trans husage, ?_⟩,
      .inr ⟨?_, hopen⟩⟩
    · rw [hrest.requests, hrequests, List.append_assoc, List.length_cons, List.replicate_succ]
      rfl
    · rintro (_ | k) q hq
      · cases hq
        exact ⟨⟨rfl, by simp [Asked.ofAttempt, looking, withBreaker, Exchange.withBreaker],
          breakerOf_withBreaker_self x r.model _⟩, haway⟩
      · obtain ⟨hq, haway⟩ := hrest.each k q hq
        refine ⟨⟨hq.outcome, ?_, hq.breaker⟩, haway⟩
        rw [hq.requests, hrequests, List.append_assoc, List.replicate_succ]
        rfl
    · rcases hleft with ⟨-, -, rfl⟩ | ⟨hleft, -⟩
      · exact hsame
      · exact hleft

/-- The request that a call makes, as often as it takes. -/
def requestOf (m : Models (Dealings τ)) (a : Ask) : Request :=
  ⟨a.model, a.messages, a.timeout, a.jsonMode, m.maxOutputTokens⟩

def completion (m : Models (Dealings τ)) (provider : CompletionService τ) (a : Ask) :
    Activity (Dealings τ) (Except Failure Completion) :=
  (m.serving provider).complete a.model a.messages a.timeout a.jsonMode

/-- A call that ends well is entered in its model's account. -/
def accounted (model : String) :
    Outcome (Dealings τ) (Except Failure Completion) → Outcome (Dealings τ) (Except Failure Completion)
  | .finished (.ok c) t x => .finished (.ok c) t { x with usage := x.usage.record model c.usage }
  | out => out

/-- A completion is a series of attempts for which there is no room, and a last one. -/
theorem exists_attempts (m : Models (Dealings τ)) (provider : CompletionService τ) (a : Ask) (t : Nat)
    (x : Dealings τ) :
    ∃ asked t' x' out, TurnedAway provider (requestOf m a) x ((x.breakerOf a.model).look t) asked x' ∧
      asked.length + 1 ≤ max 1 m.retry.maxAttempts ∧
      (x'.breakerOf a.model).look t' = (x.breakerOf a.model).look t ∧
      (asked = [] ∧ t' = t ∧ x' = x ∨ ((x.breakerOf a.model).look t).isOpen = false) ∧
      Attempted provider (requestOf m a) t' x' out ∧ (completion m provider a).run t x = accounted a.model out := by
  obtain ⟨made, t', x', hseries, hlast, hfew, -⟩ := m.retry.exists_tried
    (fun _ => (m.serving provider).attempt (requestOf m a)) Failure.isRateLimited (m.retry.attempts - 1) 0 t x
  obtain ⟨asked, hlength, haway, hleft⟩ := exists_turnedAway hseries
  have hattempts : m.retry.attempts = max 1 m.retry.maxAttempts := Nat.max_comm _ _
  have hpos : 1 ≤ m.retry.attempts := Nat.le_max_right _ _
  have hlook : (x'.breakerOf a.model).look t' = (x.breakerOf a.model).look t := by
    rcases hleft with ⟨-, rfl, rfl⟩ | ⟨hsame, hshut⟩
    · rfl
    · exact (congrArg (Breaker.look · t') hsame).trans (Breaker.look_of_isOpen t' hshut)
  refine ⟨asked, t', x', _, haway, by omega, hlook, hleft.imp_right And.right,
    attempted_attempt m provider (requestOf m a) t' x', ?_⟩
  -- what follows the attempts only looks at what the last one came to
  cases hout : ((m.serving provider).attempt (requestOf m a)).run t' x' with
  | finished result t'' x'' =>
    refine (Activity.run_andThen_of_run (hlast.trans hout) _).trans ?_
    cases result <;> rfl
  | crashed message t'' x'' => exact Activity.run_andThen_of_crash (hlast.trans hout) _
  | stuck t'' x'' => exact Activity.run_andThen_of_stuck (hlast.trans hout) _

section Accounted

variable (out : Outcome (Dealings τ) (Except Failure Completion)) (model : String)

@[simp] theorem value?_accounted : (accounted model out).value? = out.value? := by
  rcases out with ⟨_ | _, _, _⟩ | _ | _ <;> rfl

@[simp] theorem requests_accounted : (accounted model out).state.requests = out.state.requests := by
  rcases out with ⟨_ | _, _, _⟩ | _ | _ <;> rfl

@[simp] theorem breakerOf_accounted (other : String) :
    (accounted model out).state.breakerOf other = out.state.breakerOf other := by
  rcases out with ⟨_ | _, _, _⟩ | _ | _ <;> rfl

theorem usage_accounted :
    (∃ c, out.value? = some (.ok c) ∧ (accounted model out).state.usage = out.state.usage.record model c.usage) ∨
      (∀ c, out.value? ≠ some (.ok c)) ∧ (accounted model out).state.usage = out.state.usage := by
  rcases out with ⟨_ | c, _, _⟩ | _ | _
  · exact .inr ⟨nofun, rfl⟩
  · exact .inl ⟨c, rfl, rfl⟩
  · exact .inr ⟨nofun, rfl⟩
  · exact .inr ⟨nofun, rfl⟩

end Accounted

/-- At a model whose breaker is open nothing is asked, and only the rejection is counted. -/
theorem completion_of_open {a : Ask} {u : Nat} (hopen : (x.breakerOf a.model).state = .openUntil u) (hlt : t < u) :
    (completion m provider a).run t x = .finished (.error (.circuitOpen a.model (u - t))) t (x.rejecting a.model) := by
  obtain ⟨asked, t', x', out, -, -, -, hleft, hattempt, hrun⟩ := exists_attempts m provider a t x
  have hlook : ((x.breakerOf a.model).look t).isOpen = true := by
    simp [Breaker.look_of_lt hopen hlt, Breaker.isOpen, hopen]
  obtain ⟨-, rfl, rfl⟩ := hleft.resolve_right fun h => Bool.false_ne_true (h.symm.trans hlook)
  rw [hrun]
  cases hattempt with
  | refused hu _ =>
    cases hopen.symm.trans hu
    rfl
  | answered hshut _ => exact absurd (hshut.symm.trans hlook) Bool.false_ne_true
  | crashed hshut _ => exact absurd (hshut.symm.trans hlook) Bool.false_ne_true

end Dealings
end Models
end CodeAtlas
