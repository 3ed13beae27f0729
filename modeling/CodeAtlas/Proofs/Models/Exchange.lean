import Mathlib
import CodeAtlas.Models.Guarded
import CodeAtlas.Proofs.Guard.Calls
import CodeAtlas.Proofs.Guard.Traffic

/-! One completion. Every model answers its requests in an order of its own; a call asks its model once, and again for
as long as the model has no room and tries are left. What the call changes concerns its own model only. -/
namespace CodeAtlas
namespace Models

open Activity (Part)
open Registry (bookingOf ending)

/-- What a model does with a request: it answers within the request's time, or not before that is over. -/
inductive Reply where
  | answer (after : Duration) (result : Except Failure Completion)
  | silence

/-- What a model does with a request, by the number of those it got before. -/
abbrev Replies := Request → Nat → Reply

/-- What calls change: the breakers, the accounts, and the requests made so far. -/
structure Exchange where
  breakers : Breakers
  usage : Usage := {}
  requests : List Request := []

namespace Exchange

/-- How often a model was asked. -/
def asked (x : Exchange) (model : String) : Nat := x.requests.countP (·.model == model)

def breakerOf (x : Exchange) (model : String) : Breaker := x.breakers.completion.breakerOf model

def withBreaker (x : Exchange) (model : String) (b : Breaker) : Exchange :=
  { x with breakers := { x.breakers with completion := x.breakers.completion.put model b } }

@[simp] theorem breakerOf_withBreaker_self (x : Exchange) (model : String) (b : Breaker) :
    (x.withBreaker model b).breakerOf model = b :=
  Registry.breakerOf_put_self _ _ _

theorem breakerOf_withBreaker_of_ne (x : Exchange) {model other : String} (h : other ≠ model) (b : Breaker) :
    (x.withBreaker model b).breakerOf other = x.breakerOf other :=
  Registry.breakerOf_put_of_ne _ h _

def breakersPart : Part Exchange Breakers := ⟨breakers, fun b x => { x with breakers := b }⟩

def usagePart : Part Exchange Usage := ⟨usage, fun u x => { x with usage := u }⟩

/-- A request is put on record and answered by the model's next reply. -/
def service (replies : Replies) : CompletionService Exchange := fun r => do
  let k ← Activity.update fun _ x => (x.asked r.model, { x with requests := x.requests ++ [r] })
  match replies r k with
  | .answer after result => do
    Activity.sleep (min after r.timeout)
    return result
  | .silence => Activity.stall (return .error (.timedOut r.timeout))

theorem asked_eq (x : Exchange) (model : String) :
    x.asked model = (x.requests.filter (·.model == model)).length :=
  List.countP_eq_length_filter

/-- Whether two exchanges are the same for a model. -/
structure Alike (model : String) (x y : Exchange) : Prop where
  breaker : y.breakerOf model = x.breakerOf model
  requests : y.requests.filter (·.model == model) = x.requests.filter (·.model == model)

theorem Alike.asked {model : String} {x y : Exchange} (h : x.Alike model y) : y.asked model = x.asked model := by
  rw [asked_eq, asked_eq, h.requests]

/-- What a call changes that makes a request `n` times: its model is left with a breaker, and no other model
notices. -/
structure Leaves (r : Request) (n : Nat) (b : Breaker) (x x' : Exchange) : Prop where
  requests : x'.requests = x.requests ++ List.replicate n r
  own : x'.breakerOf r.model = b
  others : ∀ model, model ≠ r.model → x'.breakerOf model = x.breakerOf model

namespace Leaves

variable {r : Request} {n k : Nat} {b c : Breaker} {x x' x'' : Exchange}

theorem trans (h : Leaves r n b x x') (h' : Leaves r k c x' x'') : Leaves r (n + k) c x x'' where
  requests := by rw [h'.requests, h.requests, List.append_assoc, List.replicate_append_replicate]
  own := h'.own
  others model hne := (h'.others model hne).trans (h.others model hne)

theorem requests_own (h : Leaves r n b x x') :
    x'.requests.filter (·.model == r.model) = x.requests.filter (·.model == r.model) ++ List.replicate n r := by
  simp [h.requests]

/-- No other model notices. -/
theorem alike (h : Leaves r n b x x') {model : String} (hne : model ≠ r.model) : x.Alike model x' where
  breaker := h.others model hne
  requests := by simp [h.requests, Ne.symm hne]

theorem asked_own (h : Leaves r n b x x') : x'.asked r.model = x.asked r.model + n := by
  simp [asked, h.requests, List.countP_replicate]

end Leaves

end Exchange

/-- Models that reply as given. -/
def replying (m : Models Exchange) (replies : Replies) : Models Exchange :=
  { m with
    completion := Exchange.service replies
    breakers := Exchange.breakersPart
    usage := Exchange.usagePart }

/-- What a request comes to when its model replies. -/
def Reply.result (r : Request) : Reply → Except Failure Completion
  | .answer _ result => result
  | .silence => .error (.timedOut r.timeout)

/-- What a request comes to that is made again while the model has no room and tries are left, from the model's `k`-th
reply on, and how often it is made. -/
def resultFrom (r : Request) (reply : Nat → Reply) : Nat → Nat → Except Failure Completion × Nat
  | 0, k => ((reply k).result r, 1)
  | left + 1, k =>
    match (reply k).result r with
    | .ok c => (.ok c, 1)
    | .error e =>
      if e.isRateLimited then ((resultFrom r reply left (k + 1)).1, 1 + (resultFrom r reply left (k + 1)).2)
      else (.error e, 1)

/-- Whether an activity that begins at moment `t` comes to a result after some requests, the model having been asked
`k` times before, and books it once. When it ends does not depend on anything else. -/
def ComesTo (a : Activity Exchange (Except Failure Completion)) (t : Moment) (r : Request) (b : Breaker) (k : Nat)
    (out : Except Failure Completion × Nat) : Prop :=
  ∃ t', t ≤ t' ∧ ∀ x : Exchange, x.breakerOf r.model = b → x.asked r.model = k → ∃ x',
    Exchange.Leaves r out.2 (b.settle t' (bookingOf countFailure out.1)).2 x x' ∧
    a.run t x = ending (b.settle t' (bookingOf countFailure out.1)).1 out.1 t' x'

section Attempt

theorem run_sleep {σ : Type} (d : Duration) (t : Moment) :
    ∃ t', t ≤ t' ∧ ∀ s : σ, (Activity.sleep d).run t s = .finished () t' s := by
  unfold Activity.sleep
  split
  · exact ⟨t, Nat.le_refl t, fun _ => rfl⟩
  · exact ⟨max t (Duration.roundUp (t + d)), Nat.le_max_left _ _, fun _ => rfl⟩

theorem run_cutAt_sleep {σ α : Type} {d e : Duration} (h : d ≤ e) (a : α) (t : Moment) :
    ∃ t', t ≤ t' ∧ ∀ s : σ,
      (Activity.cutAt (Duration.roundUp (t + e)) ((Activity.sleep d).andThen fun _ => .done a)).run t s =
        .finished (some a) t' s := by
  unfold Activity.sleep
  split
  · exact ⟨t, Nat.le_refl t, fun _ => rfl⟩
  · have hround : Duration.roundUp (t + d) ≤ Duration.roundUp (t + e) :=
      Nat.mul_le_mul_right _ (Nat.div_le_div_right (Nat.add_le_add_right (Nat.add_le_add_left h t) _))
    refine ⟨max t (Duration.roundUp (t + d)), Nat.le_max_left _ _, fun s => ?_⟩
    simp [Activity.andThen, Activity.sleepUntil, Activity.cutAt, Activity.run, hround]

variable (m : Models Exchange) (replies : Replies) (r : Request) (t : Moment) (k : Nat) {b : Breaker}

/-- A request that is made is put on record, and comes to what its model replies. -/
theorem run_askInTime :
    ∃ t', t ≤ t' ∧ ∀ x : Exchange, x.asked r.model = k →
      (askInTime (Exchange.service replies) r).run t x =
        .finished ((replies r k).result r) t' { x with requests := x.requests ++ [r] } := by
  cases hreply : replies r k with
  | answer after result =>
    obtain ⟨t', ht, hrun⟩ := run_cutAt_sleep (σ := Exchange) (Nat.min_le_right after r.timeout) result t
    refine ⟨t', ht, fun x hk => ?_⟩
    have hasked : ((Exchange.service replies r).within r.timeout).run t x =
        .finished (some result) t' { x with requests := x.requests ++ [r] } := by
      simp [Exchange.service, Activity.within, Activity.andThen, Activity.cutAt, Activity.run, bind, pure,
        Activity.update, hk, hreply, hrun]
    exact Activity.run_andThen_of_run hasked _
  | silence =>
    refine ⟨max t (Duration.roundUp (t + r.timeout)), Nat.le_max_left _ _, fun x hk => ?_⟩
    simp [askInTime, Exchange.service, Activity.within, Activity.andThen, Activity.cutAt, Activity.run, bind, pure,
      Activity.update, Activity.stall, hk, hreply, Reply.result]

theorem ofAnswer_answerOf {α : Type} (result : Except Failure α) : ofAnswer (Registry.answerOf result) = result := by
  cases result <;> rfl

/-- An attempt at a model whose breaker is closed makes one request and books what it comes to. -/
theorem attempt_comesTo (hclosed : b.state = .closed) :
    ComesTo ((m.replying replies).attempt r) t r b k ((replies r k).result r, 1) := by
  have hlook : b.look t = b := by simp [Breaker.look, hclosed]
  have henter : b.enter t = (.admitted, b) := by
    have hopen : (b.look t).isOpen = false := by simp [hlook, Breaker.isOpen, hclosed]
    rw [Breaker.enter_of_look hopen, hlook]
  obtain ⟨t', ht, hask⟩ := run_askInTime replies r t k
  refine ⟨t', ht, fun x hb hk => ?_⟩
  let asked : Exchange := { x.withBreaker r.model b with requests := x.requests ++ [r] }
  have hsame : asked.breakerOf r.model = b := Exchange.breakerOf_withBreaker_self _ _ _
  have hcall := Registry.run_call_of_admitted (Exchange.breakersPart.inside Breakers.completionPart)
    (hb ▸ henter) countFailure (hask (x.withBreaker r.model b) hk)
  change _ = ending ((asked.breakerOf r.model).settle t' _).1 _ t'
    (asked.withBreaker r.model ((asked.breakerOf r.model).settle t' _).2) at hcall
  rw [hsame] at hcall
  refine ⟨asked.withBreaker r.model _, ⟨rfl, Exchange.breakerOf_withBreaker_self _ _ _, fun model hne => ?_⟩,
    (Registry.run_andThen_of_ending hcall _).trans ?_⟩
  · rw [Exchange.breakerOf_withBreaker_of_ne _ hne]
    exact Exchange.breakerOf_withBreaker_of_ne x hne _
  · rw [ofAnswer_answerOf]
    rfl

variable {replies r t k}

/-- What ends an activity changes nothing any more. -/
theorem ComesTo.returned {a : Activity Exchange (Except Failure Completion)} {out : Except Failure Completion × Nat}
    {f : Except Failure Completion → Activity Exchange (Except Failure Completion)} (h : ComesTo a t r b k out)
    (hf : f out.1 = .done out.1) : ComesTo (a.andThen f) t r b k out := by
  obtain ⟨t', ht', hcomes⟩ := h
  refine ⟨t', ht', fun x hb hk => ?_⟩
  obtain ⟨x', hleaves, hrun⟩ := hcomes x hb hk
  refine ⟨x', hleaves, (Registry.run_andThen_of_ending hrun f).trans ?_⟩
  rw [hf]
  rfl

/-- When there is no room nothing is booked, and what is done after a wait comes to the result. -/
theorem ComesTo.again {a rest : Activity Exchange (Except Failure Completion)} {e : Failure} {d : Duration}
    {out : Except Failure Completion × Nat}
    {f : Except Failure Completion → Activity Exchange (Except Failure Completion)}
    (h : ComesTo a t r b k (.error e, 1)) (hroom : e.isRateLimited = true)
    (hf : f (.error e) = (Activity.sleep d).andThen fun _ => rest) (hrest : ∀ t, ComesTo rest t r b (k + 1) out) :
    ComesTo (a.andThen f) t r b k (out.1, 1 + out.2) := by
  obtain ⟨t₁, ht₁, hcomes⟩ := h
  have hignored : b.settle t₁ (countFailure e) = (some (), b) := by
    simp [countFailure, hroom, Breaker.settle_ignored]
  simp only [bookingOf, hignored] at hcomes
  obtain ⟨t₂, ht₂, hsleep⟩ := run_sleep (σ := Exchange) d t₁
  obtain ⟨t', ht', hcomesRest⟩ := hrest t₂
  refine ⟨t', ht₁.trans (ht₂.trans ht'), fun x hb hk => ?_⟩
  obtain ⟨x₁, hleaves, hrun⟩ := hcomes x hb hk
  obtain ⟨x', hleavesRest, hrunRest⟩ := hcomesRest x₁ hleaves.own (by rw [hleaves.asked_own, hk])
  refine ⟨x', hleaves.trans hleavesRest, (Activity.run_andThen_of_run hrun f).trans ?_⟩
  rw [hf]
  exact (Activity.run_andThen_of_run (hsleep x₁) _).trans hrunRest

variable (replies r t k)

/-- All attempts together come to one result and one booking. -/
theorem tryFrom_comesTo (left attempt : Nat) (hclosed : b.state = .closed) :
    ComesTo (m.retry.tryFrom (fun _ => (m.replying replies).attempt r) Failure.isRateLimited left attempt) t r b k
      (resultFrom r (replies r) left k) := by
  -- on the tries that are left; the breaker is still closed, and the same, when the next one begins
  induction left generalizing attempt t k with
  | zero => exact attempt_comesTo m replies r t k hclosed
  | succ left ih =>
    have hattempt := attempt_comesTo m replies r t k hclosed
    unfold RetryPlan.tryFrom resultFrom
    cases hresult : (replies r k).result r with
    | ok c =>
      rw [hresult] at hattempt
      exact hattempt.returned rfl
    | error e =>
      rw [hresult] at hattempt
      cases hroom : e.isRateLimited with
      | false =>
        simp only [hroom, Bool.false_eq_true, if_false]
        exact hattempt.returned (by simp only [hroom]; rfl)
      | true =>
        simp only [hroom, if_true]
        exact hattempt.again hroom (by simp only [hroom]; rfl) fun t => ih t (k + 1) (attempt + 1)

end Attempt

/-- A call for a completion. -/
structure Ask where
  model : String
  messages : List Message
  timeout : Duration
  jsonMode : Bool

namespace Ask

variable (m : Models Exchange) (replies : Replies) (a : Ask) (t : Moment)

/-- The request that a call makes, as often as it takes. -/
def request : Request := ⟨a.model, a.messages, a.timeout, a.jsonMode, m.maxOutputTokens⟩

/-- What a call comes to and how often it makes its request, when its model was asked `k` times before. -/
def result (k : Nat) : Except Failure Completion × Nat :=
  resultFrom (a.request m) (replies (a.request m)) (m.retry.attempts - 1) k

def activity : Activity Exchange (Except Failure Completion) :=
  (m.replying replies).complete a.model a.messages a.timeout a.jsonMode

/-- A call to a model whose breaker is closed comes to its result and books it. -/
theorem comesTo {b : Breaker} (hclosed : b.state = .closed) (k : Nat) :
    ComesTo (a.activity m replies) t (a.request m) b k (a.result m replies k) := by
  have htry : ComesTo (m.retry.run (fun _ => (m.replying replies).attempt (a.request m)) Failure.isRateLimited) t
      (a.request m) b k (a.result m replies k) :=
    tryFrom_comesTo m replies (a.request m) t k (m.retry.attempts - 1) 0 hclosed
  cases hresult : (a.result m replies k).1 with
  | ok c =>
    obtain ⟨t', ht', hcomes⟩ := htry
    refine ⟨t', ht', fun x hb hk => ?_⟩
    obtain ⟨x', hleaves, hrun⟩ := hcomes x hb hk
    rw [hresult] at hleaves hrun ⊢
    have hbooked : (b.settle t' (bookingOf countFailure (.ok c))).1 = some () :=
      congrArg Prod.fst (Breaker.settle_success _ t').1
    refine ⟨{ x' with usage := x'.usage.record a.model c.usage },
      ⟨hleaves.requests, hleaves.own, hleaves.others⟩, (Registry.run_andThen_of_ending hrun _).trans ?_⟩
    rw [hbooked]
    rfl
  | error e => exact htry.returned (by rw [hresult]; rfl)

/-- A call to a model whose breaker stays open comes to nothing, and no request is made. -/
theorem run_of_open {x : Exchange} {u : Moment} (hopen : (x.breakerOf a.model).state = .openUntil u) (hlt : t < u) :
    (a.activity m replies).run t x =
      .finished (.error (.circuitOpen a.model (u - t))) t
        (x.withBreaker a.model { x.breakerOf a.model with rejected := (x.breakerOf a.model).rejected + 1 }) := by
  have hcall := Registry.run_call_of_rejected (Exchange.breakersPart.inside Breakers.completionPart)
    (Breaker.enter_of_lt hopen hlt) (askInTime (Exchange.service replies) (a.request m)) countFailure
  have hattempt : ((m.replying replies).attempt (a.request m)).run t x =
      .finished (.error (.circuitOpen a.model (u - t))) t
        (x.withBreaker a.model { x.breakerOf a.model with rejected := (x.breakerOf a.model).rejected + 1 }) :=
    Activity.run_andThen_of_run hcall _
  have htry : (m.retry.run (fun _ => (m.replying replies).attempt (a.request m)) Failure.isRateLimited).run t x =
      .finished (.error (.circuitOpen a.model (u - t))) t
        (x.withBreaker a.model { x.breakerOf a.model with rejected := (x.breakerOf a.model).rejected + 1 }) := by
    unfold RetryPlan.run
    cases m.retry.attempts - 1 with
    | zero => exact hattempt
    | succ left => exact Activity.run_andThen_of_run hattempt _
  exact Activity.run_andThen_of_run htry _

/-- What a call does that returns, at a breaker that is not half-open: its result, the moment at which it returns, how
often it makes its request, and what it leaves of the breaker. -/
inductive Step (b : Breaker) (k : Nat) : Except Failure Completion → Moment → Nat → Breaker → Prop where
  | refused {u : Moment} : b.state = .openUntil u → t < u →
      Step b k (.error (.circuitOpen a.model (u - t))) t 0 { b with rejected := b.rejected + 1 }
  | served {t' : Moment} : b.state = .closed → t ≤ t' →
      Step b k (a.result m replies k).1 t' (a.result m replies k).2
        (b.book t' (bookingOf countFailure (a.result m replies k).1))

variable {m replies a t} {x x' : Exchange} {result : Except Failure Completion} {t' : Moment}

theorem Step.le {b b' : Breaker} {k n : Nat} (h : Step m replies a t b k result t' n b') : t ≤ t' := by
  cases h with
  | refused => exact Nat.le_refl t
  | served _ ht' => exact ht'

/-- A call that returns makes a step, and makes the same step wherever its model stands alike. -/
theorem exists_step (hsound : ∀ u, (x.breakerOf a.model).state = .openUntil u → t < u)
    (hhalf : (x.breakerOf a.model).state ≠ .halfOpen)
    (hrun : (a.activity m replies).run t x = .finished result t' x') :
    ∃ n b', Step m replies a t (x.breakerOf a.model) (x.asked a.model) result t' n b' ∧
      Exchange.Leaves (a.request m) n b' x x' ∧
      ∀ y : Exchange, y.breakerOf a.model = x.breakerOf a.model → y.asked a.model = x.asked a.model →
        ∃ y', Exchange.Leaves (a.request m) n b' y y' ∧ (a.activity m replies).run t y = .finished result t' y' := by
  cases hstate : (x.breakerOf a.model).state with
  | halfOpen => exact absurd hstate hhalf
  | openUntil u =>
    have hlt := hsound u hstate
    rw [run_of_open m replies a t hstate hlt] at hrun
    cases hrun
    have hleaves : ∀ y : Exchange, y.breakerOf a.model = x.breakerOf a.model →
        Exchange.Leaves (a.request m) 0 { x.breakerOf a.model with rejected := (x.breakerOf a.model).rejected + 1 } y
          (y.withBreaker a.model
            { x.breakerOf a.model with rejected := (x.breakerOf a.model).rejected + 1 }) := fun y _ =>
      ⟨by simp [Exchange.withBreaker], Exchange.breakerOf_withBreaker_self _ _ _,
        fun model hne => Exchange.breakerOf_withBreaker_of_ne y hne _⟩
    refine ⟨0, _, .refused hstate hlt, hleaves x rfl, fun y hy _ => ⟨_, hleaves y hy, ?_⟩⟩
    rw [run_of_open m replies a t (hy ▸ hstate) hlt, hy]
  | closed =>
    obtain ⟨t₁, ht₁, hcomes⟩ := comesTo m replies a t hstate (x.asked a.model)
    obtain ⟨x₁, hleaves, hx⟩ := hcomes x rfl rfl
    rw [hrun] at hx
    rcases Breaker.settle_cases (x.breakerOf a.model) t₁
        (bookingOf countFailure (a.result m replies (x.asked a.model)).1) with hsettle | ⟨_, hsettle⟩
    · rw [hsettle] at hx hleaves hcomes
      cases hx
      exact ⟨_, _, .served hstate ht₁, hleaves, hcomes⟩
    · rw [hsettle] at hx
      cases hx

/-- A call returns, unless its model's breaker would open for longer than the clock can show. -/
theorem returns (hsound : ∀ u, (x.breakerOf a.model).state = .openUntil u → t < u)
    (hhalf : (x.breakerOf a.model).state ≠ .halfOpen) :
    (∃ result t' x', (a.activity m replies).run t x = .finished result t' x') ∨
      ∃ t' x', ¬ (x.breakerOf a.model).CanOpen t' ∧
        (a.activity m replies).run t x = .crashed Registry.overrunMessage t' x' := by
  cases hstate : (x.breakerOf a.model).state with
  | halfOpen => exact absurd hstate hhalf
  | openUntil u => exact .inl ⟨_, _, _, run_of_open m replies a t hstate (hsound u hstate)⟩
  | closed =>
    obtain ⟨t', _, hcomes⟩ := comesTo m replies a t hstate (x.asked a.model)
    obtain ⟨x', _, hx⟩ := hcomes x rfl rfl
    rcases Breaker.settle_cases (x.breakerOf a.model) t'
        (bookingOf countFailure (a.result m replies (x.asked a.model)).1) with hsettle | ⟨hcan, hsettle⟩
    · rw [hsettle] at hx
      exact .inl ⟨_, _, _, hx⟩
    · rw [hsettle] at hx
      exact .inr ⟨_, _, hcan, hx⟩

end Ask

end Models
end CodeAtlas
