import CodeAtlas.Proofs.Models.Dealings

/-! What one completion does at its model: how often it asks, what it leaves of the breaker, and what it enters in the
account, for every provider and every state of the breaker. -/
namespace CodeAtlas

namespace Breaker

variable {now : Moment} {b b' : Breaker}

@[simp] theorem failures_look (b : Breaker) (now : Moment) : (b.look now).failures = b.failures := by
  unfold look
  split
  · split <;> rfl
  · rfl

theorem Move.failures_le {k : Option Booking} (h : Move now k b b') : b'.failures ≤ b.failures + 1 := by
  cases h <;> first | exact Nat.le_succ _ | exact Nat.le_refl _ | exact Nat.zero_le _

/-- Only a failure adds to the failures. -/
theorem eq_failure_of_lt {k : Booking} (h : b.failures < (b.settle now k).2.failures) : k = .failure := by
  cases k with
  | failure => rfl
  | ignored =>
    rw [settle_ignored] at h
    exact absurd h (Nat.lt_irrefl _)
  | success =>
    obtain ⟨hsettle, hmove⟩ := settle_success b now
    rw [hsettle] at h
    have hle : b.bookSuccess.failures ≤ b.failures := by
      generalize b.bookSuccess = b' at hmove
      cases hmove <;> first | exact Nat.le_refl _ | exact Nat.zero_le _
    exact absurd h (Nat.not_lt.mpr hle)

end Breaker

namespace Models

open Activity (Outcome)
open Registry (bookingOf ending)

namespace Usage

/-- The account of a model, an empty one if there is none. -/
def accountOf (u : Usage) (model : String) : Account := (u.account? model).getD {}

/-- Whether the account of a model gains one call with some tokens, and no other account changes. -/
structure Gains (model : String) (used : TokenUsage) (u u' : Usage) : Prop where
  calls : (u'.accountOf model).calls = (u.accountOf model).calls + 1
  input : (u'.accountOf model).input = (u.accountOf model).input + used.input
  output : (u'.accountOf model).output = (u.accountOf model).output + used.output
  cached : (u'.accountOf model).cached = (u.accountOf model).cached + used.cached
  others : ∀ other, other ≠ model → u'.account? other = u.account? other

theorem gains_record (u : Usage) (model : String) (used : TokenUsage) :
    Gains model used u (u.record model used) := by
  have hown : (u.record model used).account? model =
      some ((u.accountOf model).add used (((u.price? model).map (·.cost used)).getD 0.0)) := by
    simp [record, account?, accountOf]
  have haccount : (u.record model used).accountOf model =
      (u.accountOf model).add used (((u.price? model).map (·.cost used)).getD 0.0) := by
    rw [accountOf, hown, Option.getD_some]
  constructor
  case others =>
    intro other hne
    simp [record, account?, Std.TreeMap.getElem?_alter, Ne.symm hne]
  all_goals
    rw [haccount]
    rfl

variable {model : String} {used used' : TokenUsage} {u u' : Usage}

/-- What was gained tells the tokens. -/
theorem Gains.eq (h : Gains model used u u') (h' : Gains model used' u u') : used = used' := by
  have hinput := h.input.symm.trans h'.input
  have houtput := h.output.symm.trans h'.output
  have hcached := h.cached.symm.trans h'.cached
  cases used
  cases used'
  simp_all

theorem not_gains_self : ¬ Gains model used u u := fun h => absurd h.calls (Nat.ne_of_lt (Nat.lt_succ_self _))

end Usage

namespace Dealings

variable {τ : Type} {m : Models (Dealings τ)} {provider : CompletionService τ} {r : Request} {a : Ask} {t : Moment}
  {x : Dealings τ} {out : Outcome (Dealings τ) (Except Failure Completion)}

/-- An attempt enters nothing in the accounts. -/
theorem Attempted.usage_eq (h : Attempted provider r t x out) : out.state.usage = x.usage := by
  have husage := (log_asking provider r t (x.looking t r.model)).2.2
  cases h with
  | refused _ _ => rfl
  | answered _ hask =>
    rw [hask] at husage
    rw [Registry.state_ending]
    exact husage
  | crashed _ hask =>
    rw [hask] at husage
    exact husage

/-- What the last request of a call leads to, which finds a breaker `b`. -/
structure Booked (r : Request) (x : Dealings τ) (b : Breaker) (q : Asked τ)
    (out : Outcome (Dealings τ) (Except Failure Completion)) : Prop where
  requests : out.state.requests = x.requests ++ [r]
  value : ∀ v, out.value? = some v → q.outcome.value? = some v
  failures : (out.state.breakerOf r.model).failures ≤ b.failures + 1
  counted : b.failures < (out.state.breakerOf r.model).failures → q.Fails
  unmoved : q.IsTurnedAway → out.state.breakerOf r.model = b

/-- An attempt at a breaker that is not open makes a request. -/
theorem Attempted.booked (h : Attempted provider r t x out) (hopen : ((x.breakerOf r.model).look t).isOpen = false) :
    Booked r x ((x.breakerOf r.model).look t) (.ofAttempt provider r t x) out := by
  have hlog := (log_asking provider r t (x.looking t r.model)).1
  cases h with
  | @refused u hu hlt =>
    rw [Breaker.look_of_lt hu hlt] at hopen
    simp [Breaker.isOpen, hu] at hopen
  | @crashed message t' x' _ hask =>
    have hsame : x'.breakerOf r.model = (x.breakerOf r.model).look t := by
      have hfound := breakerOf_asking provider r t x
      rwa [hask] at hfound
    rw [hask] at hlog
    refine ⟨hlog, fun v hv => ?_, ?_, fun hlt => ?_, fun _ => hsame⟩
    · cases hv
    · exact (congrArg Breaker.failures hsame).trans_le (Nat.le_succ _)
    · exact absurd hlt (Nat.not_lt.mpr (congrArg Breaker.failures hsame).le)
  | @answered result t' x' _ hask =>
    have hvalue : (Asked.ofAttempt provider r t x).outcome.value? = some result := congrArg Outcome.value? hask
    rw [hask] at hlog
    refine ⟨by rw [Registry.state_ending]; exact hlog, fun v hv => ?_, ?_, fun hlt => ?_, fun haway => ?_⟩
    · rw [Registry.eq_of_value?_ending hv, hvalue]
    · rw [Registry.state_ending, breakerOf_withBreaker_self]
      exact (Breaker.settle_move _ _ _).failures_le
    · rw [Registry.state_ending, breakerOf_withBreaker_self] at hlt
      obtain ⟨e, rfl, he⟩ := exists_of_bookingOf_eq_failure (Breaker.eq_failure_of_lt hlt)
      exact ⟨e, hvalue, he⟩
    · rw [Asked.IsTurnedAway, hvalue] at haway
      cases haway
      rw [Registry.state_ending, breakerOf_withBreaker_self]
      exact congrArg Prod.snd (Breaker.settle_ignored _ _)

/-- What one completion does, as the requests show that reach the provider. -/
structure Dealt (m : Models (Dealings τ)) (provider : CompletionService τ) (a : Ask) (t : Moment) (x : Dealings τ)
    (asked : List (Asked τ)) (out : Outcome (Dealings τ) (Except Failure Completion)) : Prop where
  requests : out.state.requests = x.requests ++ List.replicate asked.length (requestOf m a)
  made : ∀ k q, asked[k]? = some q → IsRequest provider (requestOf m a) x ((x.breakerOf a.model).look t) k q
  most : asked.length ≤ max 1 m.retry.maxAttempts
  /-- Every request but the last one was turned away for lack of room. -/
  earlier : ∀ k q, asked[k]? = some q → k + 1 < asked.length → q.IsTurnedAway
  /-- A completion that ends comes to what its last request came to, and without a request it ends because the
  breaker is open. -/
  value : ∀ v, out.value? = some v →
    (asked = [] ∧ ∃ d, v = .error (.circuitOpen a.model d)) ∨ ∃ q ∈ asked.getLast?, q.outcome.value? = some v
  failures : (out.state.breakerOf a.model).failures ≤ (x.breakerOf a.model).failures + 1
  /-- The failures rise only when the last request came to an error other than that there was no room. -/
  counted : (x.breakerOf a.model).failures < (out.state.breakerOf a.model).failures → ∃ q ∈ asked.getLast?, q.Fails
  /-- When there is no room for a request, then the next one, or the end, finds the breaker as the request did. -/
  unmoved : ∀ k q, asked[k]? = some q → q.IsTurnedAway →
    ((asked[k + 1]?.map (·.before)).getD out.state).breakerOf a.model = q.before.breakerOf a.model
  usage : ∀ used, x.usage.Gains a.model used out.state.usage ↔ ∃ c, out.value? = some (.ok c) ∧ c.usage = used
  unused : (∀ c, out.value? ≠ some (.ok c)) → out.state.usage = x.usage

/-- The account tells whether a completion ended well, and with which tokens. -/
theorem gains_accounted_iff {u : Usage} (hu : out.state.usage = u) (model : String) (used : TokenUsage) :
    u.Gains model used (accounted model out).state.usage ↔
      ∃ c, (accounted model out).value? = some (.ok c) ∧ c.usage = used := by
  subst hu
  rw [value?_accounted]
  rcases usage_accounted out model with ⟨c, hvalue, husage⟩ | ⟨hnone, husage⟩
  · rw [husage]
    constructor
    · exact fun hgains => ⟨c, hvalue, (Usage.gains_record _ model c.usage).eq hgains⟩
    · rintro ⟨c', hc', rfl⟩
      rw [hvalue] at hc'
      cases hc'
      exact Usage.gains_record _ model c.usage
  · rw [husage]
    exact ⟨fun hgains => absurd hgains Usage.not_gains_self, fun ⟨c, hc, _⟩ => absurd hc (hnone c)⟩

theorem usage_of_not_ok {u : Usage} (hu : out.state.usage = u) (model : String)
    (h : ∀ c, (accounted model out).value? ≠ some (.ok c)) : (accounted model out).state.usage = u := by
  rcases usage_accounted out model with ⟨c, hvalue, -⟩ | ⟨-, husage⟩
  · exact absurd ((value?_accounted out model).trans hvalue) (h c)
  · rw [husage, hu]

theorem of_getElem?_concat {α : Type} {l : List α} {last x : α} {k : Nat} (h : (l ++ [last])[k]? = some x) :
    l[k]? = some x ∨ k = l.length ∧ x = last := by
  rcases Nat.lt_or_ge k l.length with hlt | hge
  · exact .inl (List.getElem?_append_left hlt ▸ h)
  · have hk : k = l.length := by
      have hbound := (List.getElem?_eq_some_iff.mp h).1
      rw [List.length_append, List.length_singleton] at hbound
      omega
    subst hk
    rw [List.getElem?_concat_length, Option.some.injEq] at h
    exact .inr ⟨rfl, h.symm⟩

/-- A completion that makes a last request, after those for which there was no room. -/
theorem dealt_of_booked {asked : List (Asked τ)} {t' : Nat} {x' : Dealings τ}
    (haway : TurnedAway provider (requestOf m a) x ((x.breakerOf a.model).look t) asked x')
    (hmost : asked.length + 1 ≤ max 1 m.retry.maxAttempts)
    (hlook : (x'.breakerOf a.model).look t' = (x.breakerOf a.model).look t)
    (hbooked : Booked (requestOf m a) x' ((x.breakerOf a.model).look t) (.ofAttempt provider (requestOf m a) t' x') out)
    (husage : out.state.usage = x.usage) :
    Dealt m provider a t x (asked ++ [.ofAttempt provider (requestOf m a) t' x']) (accounted a.model out) := by
  set q : Asked τ := .ofAttempt provider (requestOf m a) t' x' with hq
  have hlast : (asked ++ [q]).getLast? = some q := List.getLast?_concat
  have hlength : (asked ++ [q]).length = asked.length + 1 := List.length_append
  have hmade : ∀ k q', (asked ++ [q])[k]? = some q' →
      IsRequest provider (requestOf m a) x ((x.breakerOf a.model).look t) k q' := by
    intro k q' hq'
    rcases of_getElem?_concat hq' with hold | ⟨rfl, rfl⟩
    · exact (haway.each k q' hold).1
    · exact isRequest_ofAttempt haway hlook
  have hfound : (x.breakerOf a.model).failures = ((x.breakerOf a.model).look t).failures :=
    (Breaker.failures_look _ t).symm
  refine ⟨?_, hmade, hlength ▸ hmost, fun k q' hq' hk => ?_, fun v hv => ?_, ?_, fun hlt => ?_,
    fun k q' hq' hroom => ?_, gains_accounted_iff husage a.model, usage_of_not_ok husage a.model⟩
  · rw [requests_accounted, hbooked.requests, haway.requests, hlength, List.replicate_succ', List.append_assoc]
  · rw [List.getElem?_append_left (by omega)] at hq'
    exact (haway.each k q' hq').2
  · rw [value?_accounted] at hv
    exact .inr ⟨q, hlast, hbooked.value v hv⟩
  · rw [breakerOf_accounted, hfound]
    exact hbooked.failures
  · rw [breakerOf_accounted, hfound] at hlt
    exact ⟨q, hlast, hbooked.counted hlt⟩
  · refine Eq.trans ?_ (hmade k q' hq').breaker.symm
    rcases of_getElem?_concat hq' with hold | ⟨rfl, rfl⟩
    · -- the next request has found the same breaker
      have hnext : k + 1 < (asked ++ [q]).length := by
        rw [hlength]
        exact Nat.succ_lt_succ (List.getElem?_eq_some_iff.mp hold).1
      rw [List.getElem?_eq_getElem hnext]
      exact (hmade (k + 1) _ (List.getElem?_eq_getElem hnext)).breaker
    · rw [List.getElem?_eq_none (Nat.le_of_eq hlength), Option.map_none, Option.getD_none, breakerOf_accounted]
      exact hbooked.unmoved hroom

/-- Every completion goes so, whatever the provider does and whatever the breaker has seen before. -/
theorem exists_dealt (m : Models (Dealings τ)) (provider : CompletionService τ) (a : Ask) (t : Moment)
    (x : Dealings τ) : ∃ asked, Dealt m provider a t x asked ((completion m provider a).run t x) := by
  rcases Breaker.enter_cases (x.breakerOf a.model) t with ⟨u, hopen, hlt, -⟩ | ⟨hover, -⟩
  · have hsame : ((x.rejecting a.model).breakerOf a.model).failures = (x.breakerOf a.model).failures := by
      rw [rejecting, breakerOf_withBreaker_self]
    rw [completion_of_open hopen hlt]
    exact ⟨[], ⟨(List.append_nil _).symm, nofun, Nat.zero_le _, nofun,
      fun v hv => .inl ⟨rfl, _, (Option.some.inj hv).symm⟩,
      hsame.trans_le (Nat.le_succ _), fun hlt => absurd hlt (Nat.not_lt.mpr hsame.le), nofun,
      fun used => ⟨fun hgains => absurd hgains Usage.not_gains_self, nofun⟩, fun _ => rfl⟩⟩
  · have hshut := Breaker.isOpen_look hover
    obtain ⟨asked, t', x', out, haway, hmost, hlook, -, hattempt, hrun⟩ := exists_attempts m provider a t x
    have hbooked := hattempt.booked ((congrArg Breaker.isOpen hlook).trans hshut)
    rw [hrun]
    exact ⟨_, dealt_of_booked haway hmost hlook (hlook ▸ hbooked) (hattempt.usage_eq.trans haway.usage)⟩

end Dealings
end Models
end CodeAtlas
