import CodeAtlas.Proofs.Guard.Calls
import CodeAtlas.Proofs.Models.Dealings

/-! A chain of models, each of which is asked in the state that those before it have left. The first completion that
ends well is the answer and nobody is asked after it; a model whose breaker is open gets no request. -/
namespace CodeAtlas

namespace Models

open Activity (Outcome Series Span)
open Registry (bookingOf ending)

variable {σ : Type}

/-- Whether a completion has failed. -/
def Failed (result : Except Failure Completion) : Prop := ∃ e, result = .error e

/-- Going through models ends with the first one that does not fail, or when there is none left. -/
theorem exists_series_completeWithAny (m : Models σ) (messages : List Message) (jsonMode : Bool)
    (models : List String) (t : Nat) (s : σ) :
    ∃ passed rest made t' s', models = passed ++ rest ∧
      Series (fun model => m.complete model messages m.timeout jsonMode) (fun _ => 0) Failed passed t s made t' s' ∧
      (m.completeWithAny messages jsonMode models).run t s = (m.completeWithAny messages jsonMode rest).run t' s' ∧
      ∀ model later, rest = model :: later → ∀ e t'' s'',
        (m.complete model messages m.timeout jsonMode).run t' s' ≠ .finished (.error e) t'' s'' := by
  induction models generalizing t s with
  | nil => exact ⟨[], [], [], t, s, rfl, .nil t s, rfl, nofun⟩
  | cons model later ih =>
    by_cases hfails : ∃ e t₁ s₁, (m.complete model messages m.timeout jsonMode).run t s = .finished (.error e) t₁ s₁
    · obtain ⟨e, t₁, s₁, hrun⟩ := hfails
      obtain ⟨passed, rest, made, t', s', hmodels, hseries, hsame, hfirst⟩ := ih t₁ s₁
      exact ⟨model :: passed, rest, ⟨t, s, t₁, s₁, .error e⟩ :: made, t', s', congrArg (model :: ·) hmodels,
        .cons hrun ⟨e, rfl⟩ hseries, (Activity.run_andThen_of_run hrun _).trans hsame, hfirst⟩
    · refine ⟨[], model :: later, [], t, s, rfl, .nil t s, rfl, ?_⟩
      rintro _ _ ⟨⟩ e t₁ s₁ hrun
      exact hfails ⟨e, t₁, s₁, hrun⟩

namespace Dealings

variable {τ : Type}

section Breaks

variable (m : Models (Dealings τ)) (provider : CompletionService τ) (a : Ask) (t : Nat) (x : Dealings τ)

/-- A completion breaks off when its last request crashes the provider, or comes to an error that would open the
model's breaker for longer than the clock can show. -/
def Breaks (message : String) (t' : Moment) : Prop :=
  ∃ q : Asked τ, q.outcome = asking provider (requestOf m a) q.begins q.before ∧ q.outcome.moment = t' ∧
    ((∃ x'', q.outcome = .crashed message t' x'') ∨
      q.Fails ∧ message = Registry.overrunMessage ∧ ¬ (x.breakerOf a.model).CanOpen t')

/-- A completion comes to an end. -/
theorem completion_ends :
    (∃ result t' x', (completion m provider a).run t x = .finished result t' x') ∨
      ∃ message t' x', (completion m provider a).run t x = .crashed message t' x' ∧
        Breaks m provider a x message t' := by
  obtain ⟨asked, t', x', out, -, -, hlook, -, hattempt, hrun⟩ := exists_attempts m provider a t x
  rw [hrun]
  cases hattempt with
  | refused _ _ => exact .inl ⟨_, _, _, rfl⟩
  | @crashed message t'' x'' _ hask =>
    exact .inr ⟨message, t'', x'', rfl, .ofAttempt provider (requestOf m a) t' x', rfl, congrArg Outcome.moment hask,
      .inl ⟨x'', hask⟩⟩
  | @answered result t'' x'' _ hask =>
    change (x'.breakerOf (requestOf m a).model).look t' = _ at hlook
    rw [hlook]
    rcases Breaker.settle_cases ((x.breakerOf a.model).look t) t'' (bookingOf countFailure result) with
      hsettle | ⟨hcan, hsettle⟩
    · rw [hsettle]
      cases result <;> exact .inl ⟨_, _, _, rfl⟩
    · obtain ⟨e, rfl, he⟩ := exists_of_bookingOf_eq_failure (Breaker.eq_failure_of_settle (congrArg Prod.fst hsettle))
      rw [Breaker.CanOpen, Breaker.limits_look] at hcan
      rw [hsettle]
      exact .inr ⟨_, t'', _, rfl, .ofAttempt provider (requestOf m a) t' x', rfl, congrArg Outcome.moment hask,
        .inr ⟨⟨e, congrArg Outcome.value? hask, he⟩, rfl, hcan⟩⟩

theorem Attempted.exists_requests {r : Request} {out : Outcome (Dealings τ) (Except Failure Completion)}
    (h : Attempted provider r t x out) : ∃ n, n ≤ 1 ∧ out.state.requests = x.requests ++ List.replicate n r := by
  have hlog := (log_asking provider r t (x.looking t r.model)).1
  cases h with
  | refused _ _ => exact ⟨0, Nat.zero_le _, (List.append_nil _).symm⟩
  | answered _ hask =>
    rw [hask] at hlog
    rw [Registry.state_ending]
    exact ⟨1, Nat.le_refl 1, hlog⟩
  | crashed _ hask =>
    rw [hask] at hlog
    exact ⟨1, Nat.le_refl 1, hlog⟩

/-- A completion makes its request as often as there are attempts at most, and never when the breaker is open. -/
theorem exists_requests :
    ∃ n, n ≤ max 1 m.retry.maxAttempts ∧
      ((completion m provider a).run t x).state.requests = x.requests ++ List.replicate n (requestOf m a) ∧
      ∀ u, (x.breakerOf a.model).state = .openUntil u → t < u → n = 0 := by
  rcases Breaker.enter_cases (x.breakerOf a.model) t with ⟨u, hopen, hlt, -⟩ | ⟨hover, -⟩
  · rw [completion_of_open hopen hlt]
    exact ⟨0, Nat.zero_le _, (List.append_nil _).symm, fun _ _ _ => rfl⟩
  · obtain ⟨asked, t', x', out, haway, hmost, -, -, hattempt, hrun⟩ := exists_attempts m provider a t x
    obtain ⟨n, hn, hlast⟩ := hattempt.exists_requests
    rw [hrun, requests_accounted, hlast, haway.requests, List.append_assoc, List.replicate_append_replicate]
    exact ⟨asked.length + n, by omega, rfl, fun u hu hlt => absurd hlt (Nat.not_lt.mpr (hover u hu))⟩

end Breaks

section Chain

variable (m : Models (Dealings τ)) (provider : CompletionService τ) (messages : List Message) (jsonMode : Bool)

/-- The call that is passed on to a model of the chain. -/
def passedOn (model : String) : Ask := ⟨model, messages, m.timeout, jsonMode⟩

/-- The requests of one model after the other, each with how often it is made. -/
def requestsOf (counts : List Nat) (models : List String) : List Request :=
  (counts.zipWith (fun n model => List.replicate n (requestOf m (passedOn m messages jsonMode model))) models).flatten

/-- What the models have come to that have failed, each in the state that those before it have left. -/
abbrev FailedSeries : List String → Nat → Dealings τ → List (Span (Dealings τ) (Except Failure Completion)) → Nat →
    Dealings τ → Prop :=
  Series (fun model => completion m provider (passedOn m messages jsonMode model)) (fun _ => 0) Failed

/-- Whether a model is passed over whose breaker is open: the call ends at once, and only its rejection is counted. -/
structure IsPassedOver (model : String) (u : Moment) (q : Span (Dealings τ) (Except Failure Completion)) : Prop where
  outcome : q.outcome = .error (.circuitOpen model (u - q.begins))
  ends : q.ends = q.begins
  after : q.after = q.before.rejecting model

/-- How the first of the models that are left decides what the chain comes to. -/
inductive Decided (rest : List String) (t' : Nat) (x' : Dealings τ) :
    Outcome (Dealings τ) (Except Failure Completion) → Prop where
  | exhausted : rest = [] → Decided rest t' x' (.finished (.error (.allModelsFailed m.chain)) t' x')
  | answered {model : String} {later : List String} {c : Completion} {t'' : Moment} {x'' : Dealings τ} :
      rest = model :: later →
      (completion m provider (passedOn m messages jsonMode model)).run t' x' = .finished (.ok c) t'' x'' →
      Decided rest t' x' (.finished (.ok c) t'' x'')
  | broken {model : String} {later : List String} {message : String} {t'' : Moment} {x'' : Dealings τ} :
      rest = model :: later →
      (completion m provider (passedOn m messages jsonMode model)).run t' x' = .crashed message t'' x'' →
      Breaks m provider (passedOn m messages jsonMode model) x' message t'' →
      Decided rest t' x' (.crashed message t'' x'')

variable {m provider messages jsonMode} {passed : List String}
  {made : List (Span (Dealings τ) (Except Failure Completion))} {t t' : Nat} {x x' : Dealings τ}

/-- The models that have failed have got their requests one after the other, and those with an open breaker none. -/
theorem exists_counts (h : FailedSeries m provider messages jsonMode passed t x made t' x') :
    ∃ counts, counts.length = passed.length ∧ (∀ n ∈ counts, n ≤ max 1 m.retry.maxAttempts) ∧
      x'.requests = x.requests ++ requestsOf m messages jsonMode counts passed ∧
      ∀ (k : Nat) model q u, passed[k]? = some model → made[k]? = some q →
        (q.before.breakerOf model).state = .openUntil u → q.begins < u →
        counts[k]? = some 0 ∧ IsPassedOver model u q := by
  induction h with
  | nil t x => exact ⟨[], rfl, nofun, (List.append_nil _).symm, nofun⟩
  | @cons model passed t t₁ t' x x₁ x' result made hrun _ _ ih =>
    obtain ⟨n, hn, hrequests, hopen⟩ := exists_requests m provider (passedOn m messages jsonMode model) t x
    obtain ⟨counts, hlength, hcounts, hrest, hskipped⟩ := ih
    rw [hrun] at hrequests
    refine ⟨n :: counts, congrArg Nat.succ hlength, List.forall_mem_cons.mpr ⟨hn, hcounts⟩, ?_, ?_⟩
    · rw [hrest, show x₁.requests = _ from hrequests, List.append_assoc]
      rfl
    · rintro (_ | k) model' q u hmodel hq hu hlt
      · cases hmodel
        cases hq
        obtain rfl := hopen u hu hlt
        have hskip := hrun.symm.trans (completion_of_open (a := passedOn m messages jsonMode model) hu hlt)
        cases hskip
        exact ⟨rfl, rfl, rfl, rfl⟩
      · exact hskipped k model' q u hmodel hq hu hlt

/-- The model that decides gets its request as often as there are attempts at most. -/
theorem Decided.exists_counts {rest : List String} {out : Outcome (Dealings τ) (Except Failure Completion)}
    (h : Decided m provider messages jsonMode rest t' x' out) :
    ∃ counts, counts.length = (rest.take 1).length ∧ (∀ n ∈ counts, n ≤ max 1 m.retry.maxAttempts) ∧
      out.state.requests = x'.requests ++ requestsOf m messages jsonMode counts (rest.take 1) := by
  have hone : ∀ model, ∃ n, n ≤ max 1 m.retry.maxAttempts ∧
      ((completion m provider (passedOn m messages jsonMode model)).run t' x').state.requests =
        x'.requests ++ requestsOf m messages jsonMode [n] [model] := by
    intro model
    obtain ⟨n, hn, hrequests, -⟩ := exists_requests m provider (passedOn m messages jsonMode model) t' x'
    exact ⟨n, hn, hrequests.trans (congrArg _ (List.append_nil _).symm)⟩
  cases h with
  | exhausted hrest =>
    subst hrest
    exact ⟨[], rfl, nofun, (List.append_nil _).symm⟩
  | @answered model _ _ _ _ hrest hrun =>
    subst hrest
    obtain ⟨n, hn, hrequests⟩ := hone model
    rw [hrun] at hrequests
    exact ⟨[n], rfl, by simpa using hn, hrequests⟩
  | @broken model _ _ _ _ hrest hrun _ =>
    subst hrest
    obtain ⟨n, hn, hrequests⟩ := hone model
    rw [hrun] at hrequests
    exact ⟨[n], rfl, by simpa using hn, hrequests⟩

/-- What is left of the chain decides what it comes to, when the first model that is left does not fail. -/
theorem decided_of_completeWithAny {rest : List String} {s : Nat} {w : Dealings τ}
    (hsame : ((m.serving provider).completeWithAny messages jsonMode m.chain).run s w =
      ((m.serving provider).completeWithAny messages jsonMode rest).run t' x')
    (hfirst : ∀ model later, rest = model :: later → ∀ e t'' x'',
      (completion m provider (passedOn m messages jsonMode model)).run t' x' ≠ .finished (.error e) t'' x'') :
    Decided m provider messages jsonMode rest t' x'
      (((m.serving provider).completeWithFallback messages jsonMode).run s w) := by
  cases rest with
  | nil =>
    have hnone : ((m.serving provider).completeWithFallback messages jsonMode).run s w =
        .finished (.error (.allModelsFailed m.chain)) t' x' := Activity.run_andThen_of_run hsame _
    rw [hnone]
    exact .exhausted rfl
  | cons model later =>
    rcases completion_ends m provider (passedOn m messages jsonMode model) t' x' with
      ⟨result, t'', x'', hends⟩ | ⟨message, t'', x'', hends, hbreaks⟩
    · cases result with
      | error e => exact absurd hends (hfirst model later rfl e t'' x'')
      | ok c =>
        have hany := hsame.trans (Activity.run_andThen_of_run hends _)
        have hsome : ((m.serving provider).completeWithFallback messages jsonMode).run s w =
            .finished (.ok c) t'' x'' := Activity.run_andThen_of_run hany _
        rw [hsome]
        exact .answered rfl hends
    · have hany := hsame.trans (Activity.run_andThen_of_crash hends _)
      have hcrash : ((m.serving provider).completeWithFallback messages jsonMode).run s w =
          .crashed message t'' x'' := Activity.run_andThen_of_crash hany _
      rw [hcrash]
      exact .broken rfl hends hbreaks

theorem requestsOf_append {counts counts' : List Nat} {models models' : List String}
    (h : counts.length = models.length) :
    requestsOf m messages jsonMode (counts ++ counts') (models ++ models') =
      requestsOf m messages jsonMode counts models ++ requestsOf m messages jsonMode counts' models' := by
  rw [requestsOf, List.zipWith_append h, List.flatten_append]
  rfl

/-- How a chain of models comes to its end. The models in `passed` have failed, which `made` tells, and those in `rest`
are left when the end is decided, at `t'` in `x'`; `counts` is how often each model got its request that was tried. -/
structure GoneThrough (m : Models (Dealings τ)) (provider : CompletionService τ) (messages : List Message)
    (jsonMode : Bool) (t : Nat) (x : Dealings τ) (passed rest : List String)
    (made : List (Span (Dealings τ) (Except Failure Completion))) (t' : Nat) (x' : Dealings τ) (counts : List Nat)
    (out : Outcome (Dealings τ) (Except Failure Completion)) : Prop where
  chain : m.chain = passed ++ rest
  failed : FailedSeries m provider messages jsonMode passed t x made t' x'
  decided : Decided m provider messages jsonMode rest t' x' out
  /-- No model after the one that decides gets a request. -/
  requests : out.state.requests = x.requests ++ requestsOf m messages jsonMode counts (passed ++ rest.take 1)
  length : counts.length = (passed ++ rest.take 1).length
  most : ∀ n ∈ counts, n ≤ max 1 m.retry.maxAttempts
  /-- A model whose breaker is open gets no request. -/
  skipped : ∀ (k : Nat) model q u, passed[k]? = some model → made[k]? = some q →
    (q.before.breakerOf model).state = .openUntil u → q.begins < u → counts[k]? = some 0 ∧ IsPassedOver model u q

/-- Every chain comes to its end so, whatever the provider does and whatever the breakers have seen before. -/
theorem exists_goneThrough (m : Models (Dealings τ)) (provider : CompletionService τ) (messages : List Message)
    (jsonMode : Bool) (t : Nat) (x : Dealings τ) :
    ∃ passed rest made t' x' counts, GoneThrough m provider messages jsonMode t x passed rest made t' x' counts
      (((m.serving provider).completeWithFallback messages jsonMode).run t x) := by
  obtain ⟨passed, rest, made, t', x', hchain, hseries, hsame, hfirst⟩ :=
    exists_series_completeWithAny (m.serving provider) messages jsonMode m.chain t x
  have hfailed : FailedSeries m provider messages jsonMode passed t x made t' x' := hseries
  have hdecided := decided_of_completeWithAny hsame hfirst
  obtain ⟨counts, hlength, hmost, hrequests, hskipped⟩ := exists_counts hfailed
  obtain ⟨last, hlengthLast, hmostLast, hrequestsLast⟩ := hdecided.exists_counts
  refine ⟨passed, rest, made, t', x', counts ++ last, hchain, hfailed, hdecided, ?_, ?_, ?_,
    fun k model q u hmodel hq hu hlt => ?_⟩
  · rw [hrequestsLast, hrequests, requestsOf_append hlength, List.append_assoc]
  · rw [List.length_append, List.length_append, hlength, hlengthLast]
  · exact List.forall_mem_append.mpr ⟨hmost, hmostLast⟩
  · obtain ⟨hnone, hpassed⟩ := hskipped k model q u hmodel hq hu hlt
    exact ⟨List.getElem?_append_left (List.getElem?_eq_some_iff.mp hnone).1 ▸ hnone, hpassed⟩

end Chain

/-- Two models, the second of which answers. -/
def secondAnswers : CompletionService Unit := fun r =>
  .done (if r.model = "b" then .ok { content := "yes", model := "b", usage := {} } else .error .transport)

/-- A first and a second model that are asked once each. -/
def twoModels : Models (Dealings Unit) where
  completion := service secondAnswers
  embedding := none
  breakers := exchangePart.inside Exchange.breakersPart
  usage := exchangePart.inside Exchange.usagePart
  retry := .immediate 1
  chain := ["a", "b"]
  embeddingModel := "e"
  maxOutputTokens := 100
  timeout := .ofSeconds 1

/-- Breakers of models that open at the first failure, for longer than the clock can show. -/
def endlessDealings : Dealings Unit where
  breakers := .ofSettings { models := { failureThreshold := 1, recoverySeconds := Moment.lastSecond + 1 } }
  provider := ()

/-- When the first model fails and its breaker would open for too long, the chain crashes, although the second model
answers in the state that the first one has left. -/
theorem fallback_breaks_off :
    ∃ t x, ((twoModels.serving secondAnswers).completeWithFallback [] false).run 0 endlessDealings =
        .crashed Registry.overrunMessage t x ∧
      ((completion twoModels secondAnswers (passedOn twoModels [] false "b")).run t x).value? =
        some (.ok { content := "yes", model := "b", usage := {} }) :=
  ⟨_, _, rfl, rfl⟩

end Dealings
end Models
end CodeAtlas
