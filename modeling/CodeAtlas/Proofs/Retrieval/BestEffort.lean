import CodeAtlas.Proofs.Retrieval.Answers

/-! The search for vectors as a help that may fail. Whatever it ends with, the answer keeps its promises, and when it fails
the answer is the one that words alone give. -/
namespace CodeAtlas

open Activity (ComesOut)
open Retrieval

namespace Retriever

variable {σ : Type} {r : Retriever σ} {inv : σ → Prop} {content : Store.Snapshots}

/-- What the search for vectors consists of when nobody crashes in it or waits for ever: it may fail in every other way,
and it leaves `inv` alone. -/
structure Searches (r : Retriever σ) (inv : σ → Prop) (embeddingWindow vectorWindow : Duration) : Prop where
  calendar : ∀ t, r.calendar.ComesOut inv (fun o _ => ∃ now, o = .ok now) t
  memory : ∀ m s, inv s → inv (r.memory.set m s)
  embedding : ∀ service, r.models.embedding = some service → ∀ model texts t,
    (service model texts).ComesOut inv (fun o _ => ∃ result, o = .ok result) t
  index : ∀ project vector count distance t,
    (r.vectors.nearest project vector count distance).ComesOut inv (fun o _ => ∃ result, o = .ok result) t
  embeddingBreaker : Registry.Guards (r.models.breakers.inside Breakers.embeddingPart) r.models.embeddingModel inv
    embeddingWindow
  vectorBreaker : Registry.Guards (r.models.breakers.inside Breakers.vectorPart) vectorTarget inv vectorWindow

/-- Whether the clock cannot show the end of one of two windows that begin at a moment. -/
def Overruns (embeddingWindow vectorWindow : Duration) (t : Moment) : Prop :=
  Moment.after? t embeddingWindow = none ∨ Moment.after? t vectorWindow = none

/-- How the search for vectors ends: with a value, or because a breaker would be open for longer than the clock can
show. -/
def Ends {α : Type} (embeddingWindow vectorWindow : Duration) (o : Except String α) (t : Moment) : Prop :=
  (∃ x, o = .ok x) ∨ o = .error Registry.overrunMessage ∧ Overruns embeddingWindow vectorWindow t

section Searches

variable {embeddingWindow vectorWindow : Duration}

theorem comesOut_andThen {α β : Type} {a : Activity σ β} {f : β → Activity σ α} {t : Moment}
    (h : a.ComesOut inv (Ends embeddingWindow vectorWindow) t)
    (hf : ∀ x t', (f x).ComesOut inv (Ends embeddingWindow vectorWindow) t') :
    (a.andThen f).ComesOut inv (Ends embeddingWindow vectorWindow) t := by
  refine h.andThen (fun x t' _ => hf x t') ?_
  rintro m t' (⟨_, ⟨⟩⟩ | ⟨⟨⟩, hover⟩)
  exact .inr ⟨rfl, hover⟩

variable (h : r.Searches inv embeddingWindow vectorWindow)

include h

theorem comesOut_embed (texts : List String) (t : Moment) :
    (r.models.embed texts).ComesOut inv (Ends embeddingWindow vectorWindow) t := by
  unfold Models.embed
  split
  · exact .done (.inl ⟨_, rfl⟩)
  · next service hservice =>
    have hop : ∀ t, ((service r.models.embeddingModel texts).andThen fun o => .done (Models.checkCount texts o)).ComesOut
        inv (fun o _ => ∃ result, o = .ok result) t :=
      fun t => (h.embedding service hservice _ texts t).andThen_of_ok fun _ _ => .done ⟨_, rfl⟩
    refine comesOut_andThen ((Registry.comesOut_call h.embeddingBreaker hop _ t).mono ?_) fun _ _ => .done (.inl ⟨_, rfl⟩)
    exact fun o t' ho => ho.imp_right fun ⟨heq, hnone⟩ => ⟨heq, .inl hnone⟩

theorem comesOut_vectorOf (question : String) (t : Moment) :
    (r.vectorOf question).ComesOut inv (Ends embeddingWindow vectorWindow) t := by
  have hpart : ∀ {α : Type} (f : Moment → Memory → α × Memory) t,
      (Activity.updatePart r.memory f).ComesOut inv (fun o _ => ∃ x, o = .ok x) t :=
    fun f t => .updatePart fun s hs => ⟨h.memory _ s hs, _, rfl⟩
  unfold vectorOf
  refine (h.calendar t).andThen_of_ok fun now t₁ => ?_
  refine (hpart _ t₁).andThen_of_ok fun kept t₂ => ?_
  cases kept with
  | some v => exact .done (.inl ⟨_, rfl⟩)
  | none =>
    refine comesOut_andThen (comesOut_embed h [question] t₂) fun vectors t₃ => ?_
    cases vectors with
    | error e => exact .done (.inl ⟨_, rfl⟩)
    | ok vectors =>
      dsimp only
      split
      · exact .done (.inl ⟨_, rfl⟩)
      · exact (hpart _ t₃).andThen_of_ok fun _ _ => .done (.inl ⟨_, rfl⟩)

theorem comesOut_searchVectors (project question : String) (t : Moment) :
    (r.searchVectors project question).ComesOut inv (Ends embeddingWindow vectorWindow) t := by
  unfold searchVectors
  split
  · exact .done (.inl ⟨_, rfl⟩)
  · refine comesOut_andThen (comesOut_vectorOf h question t) fun v? t₁ => ?_
    cases v? with
    | none => exact .done (.inl ⟨_, rfl⟩)
    | some v =>
      have hcall := Registry.comesOut_call h.vectorBreaker (h.index project v r.settings.vectorTopK r.settings.maxDistance)
        (fun _ => .failure) t₁
      refine comesOut_andThen (hcall.mono ?_) fun answer t₂ => ?_
      · exact fun o t' ho => ho.imp_right fun ⟨heq, hnone⟩ => ⟨heq, .inr hnone⟩
      · cases answer <;> exact .done (.inl ⟨_, rfl⟩)

end Searches

end Retriever

namespace Retrieval

theorem mem_countNode {counts : List (Graph.Node × Nat)} {n m : Graph.Node}
    (h : m ∈ (countNode counts n).map Prod.fst) : m ∈ counts.map Prod.fst ∨ m = n := by
  unfold countNode at h
  split at h
  · rw [List.map_map] at h
    refine .inl ?_
    have hsame : (Prod.fst ∘ fun p : Graph.Node × Nat => if p.1.id == n.id then (p.1, p.2 + 1) else (p.1, p.2)) =
        Prod.fst := by
      funext p
      show (if p.1.id == n.id then (p.1, p.2 + 1) else (p.1, p.2)).1 = p.1
      split <;> rfl
    exact hsame ▸ h
  · rw [List.map_append, List.mem_append, List.map_singleton, List.mem_singleton] at h
    exact h

/-- The nodes that words rank were found by some word. -/
theorem mem_of_mem_keywordRanking {found : List (List Graph.Node)} {m : Graph.Node} (h : m ∈ keywordRanking found) :
    m ∈ found.flatten := by
  have hfold : ∀ (nodes : List Graph.Node) (counts : List (Graph.Node × Nat)),
      m ∈ (nodes.foldl countNode counts).map Prod.fst → m ∈ counts.map Prod.fst ∨ m ∈ nodes := by
    intro nodes
    induction nodes with
    | nil => exact fun _ => .inl
    | cons n rest ih =>
      intro counts hm
      rcases ih (countNode counts n) hm with hcounts | hrest
      · rcases mem_countNode hcounts with hold | rfl
        · exact .inl hold
        · exact .inr List.mem_cons_self
      · exact .inr (List.mem_cons_of_mem n hrest)
  have hcounted : m ∈ (found.flatten.foldl countNode []).map Prod.fst :=
    ((List.mergeSort_perm _ _).map Prod.fst).mem_iff.mp h
  exact (hfold found.flatten [] hcounted).resolve_left List.not_mem_nil

theorem mem_of_mem_search {content : Store.Snapshots} {project word : String} {limit : Nat} {n : Graph.Node}
    (h : n ∈ content.search project word limit) : ∃ record, content.load? project = some record ∧ n ∈ record.graph.nodes := by
  unfold Store.Snapshots.search at h
  split at h
  · next record hrecord => exact ⟨record, hrecord, (List.mem_filter.mp (List.mem_of_mem_take h)).1⟩
  · cases h

theorem mem_of_mem_nodesIn {content : Store.Snapshots} {project : String} {hits : List Store.Vectors.Hit} {n : Graph.Node}
    (h : n ∈ nodesIn content project hits) : ∃ record, content.load? project = some record ∧ n ∈ record.graph.nodes := by
  unfold nodesIn at h
  split at h
  · cases h
  · cases hrecord : content.load? project with
    | none =>
      rw [hrecord] at h
      cases h
    | some record =>
      rw [hrecord] at h
      exact ⟨record, rfl, h⟩

theorem mem_of_mem_rankingIn {content : Store.Snapshots} {project question : String} {limit : Nat} {n : Graph.Node}
    (h : n ∈ rankingIn content project question limit) :
    ∃ record, content.load? project = some record ∧ n ∈ record.graph.nodes := by
  obtain ⟨nodes, hnodes, hn⟩ := List.mem_flatten.mp (mem_of_mem_keywordRanking h)
  obtain ⟨word, -, rfl⟩ := List.mem_map.mp hnodes
  exact mem_of_mem_search hn

/-- What an answer keeps to: no more results than asked for, each under an identifier of its own, from the graph that
is stored for the project, and in the order of the scores of their identifiers. -/
structure Sound (settings : Settings.Retrieval) (content : Store.Snapshots) (project question : String)
    (x : Retrieval) : Prop where
  length_le : x.nodes.length ≤ settings.maxResults
  nodup : (x.nodes.map nodeId).Nodup
  stored : ∀ n ∈ x.nodes, ∃ record, content.load? project = some record ∧ n ∈ record.graph.nodes
  ordered : x.nodes.Pairwise fun a b =>
    let scores := Fusion.fuse settings.fusionK [vectorRanking (nodesIn content project x.hits) x.hits,
      (rankingIn content project question settings.maxResults).map nodeId]
    ∃ u v, (nodeId a, u) ∈ scores ∧ (nodeId b, v) ∈ scores ∧ v ≤ u

theorem sound_answer {settings : Settings.Retrieval} (hpos : 0 < settings.fusionK)
    (hword : settings.fusionK < Width.size 32) (content : Store.Snapshots) (project question : String)
    (hits? : Option (List Store.Vectors.Hit)) :
    Sound settings content project question (answerIn settings content project question hits?) where
  length_le := length_select_le (toUInt64_ne_zero hpos hword) _ _ _ _
  nodup := nodup_select (toUInt64_ne_zero hpos hword) _ _ _ _
  stored n hn := by
    rcases mem_of_mem_select (toUInt64_ne_zero hpos hword) _ _ _ _ hn with hn | hn
    · exact mem_of_mem_nodesIn hn
    · exact mem_of_mem_rankingIn hn
  ordered := pairwise_select (toUInt64_ne_zero hpos hword) _ _ _ _

end Retrieval

namespace Retriever

variable {σ : Type} {r : Retriever σ} {inv : σ → Prop} {content : Store.Snapshots}

/-- The same retriever without anybody who embeds. -/
def withoutEmbedding (r : Retriever σ) : Retriever σ := { r with models := { r.models with embedding := none } }

/-- A retrieval succeeds with a sound answer, and with the one that words alone give when the search for vectors fails,
unless the clock cannot show until when a breaker that opens in it would be open. -/
theorem retrieve_best_effort {embeddingWindow vectorWindow : Duration} (hstore : r.store.Holds inv content)
    (hsearch : r.Searches inv embeddingWindow vectorWindow) (hpos : 0 < r.settings.fusionK)
    (hword : r.settings.fusionK < Width.size 32) (hroom : r.settings.maxResults ≤ maxRoom) (project question : String)
    (t : Moment) {s : σ} (hs : inv s) :
    (∃ hits? t₁ s₁ x t₂ s₂, (r.searchVectors project question).run t s = .finished hits? t₁ s₁ ∧
      (r.retrieve project question).run t s = .finished (.ok x) t₂ s₂ ∧
      Sound r.settings content project question x ∧ x.hits = hits?.getD [] ∧
      ∃ y t₃ s₃, (r.withoutEmbedding.retrieve project question).run t s = .finished (.ok y) t₃ s₃ ∧
        (hits? = none → x = { y with degraded := true })) ∨
    ∃ t₁ s₁, (r.retrieve project question).run t s = .crashed Registry.overrunMessage t₁ s₁ ∧
      Overruns embeddingWindow vectorWindow t₁ := by
  have hend := comesOut_searchVectors hsearch project question t s hs
  cases hrun : (r.searchVectors project question).run t s with
  | finished hits? t₁ s₁ =>
    rw [hrun] at hend
    obtain ⟨t₂, s₂, hx, -⟩ := run_retrieve hstore hroom hrun hend.1
    -- without anybody who embeds the search for vectors ends at once and finds nothing
    have hwords : (r.withoutEmbedding.searchVectors project question).run t s = .finished (some []) t s := rfl
    obtain ⟨t₃, s₃, hy, -⟩ := run_retrieve (r := r.withoutEmbedding) hstore hroom hwords hs
    refine .inl ⟨hits?, t₁, s₁, _, t₂, s₂, rfl, hx, sound_answer hpos hword content project question hits?, rfl, _, t₃, s₃,
      hy, ?_⟩
    rintro rfl
    rfl
  | crashed m t₁ s₁ =>
    rw [hrun] at hend
    rcases hend with ⟨_, ⟨⟩⟩ | ⟨⟨⟩, hover⟩
    exact .inr ⟨t₁, s₁, Activity.run_andThen_of_crash hrun _, hover⟩
  | stuck t₁ s₁ =>
    rw [hrun] at hend
    exact hend.elim

/-- Somebody who embeds nothing. -/
def refusing : Models.EmbeddingService Bench := fun _ _ => .done (.error .transport)

/-- Whether a bench has the content and its breakers stay open for some time each when they open. -/
def Equipped (content : Store.Snapshots) (embeddingWindow vectorWindow : Duration) (s : Bench) : Prop :=
  s.content = content ∧ (s.breakers.embedding.breakerOf "e").limits.openFor = embeddingWindow ∧
    (s.breakers.vector.breakerOf vectorTarget).limits.openFor = vectorWindow

section Bench

variable (content : Store.Snapshots) (embeddingWindow vectorWindow : Duration)

theorem searches_atBench : (atBench (some refusing)).Searches (Equipped content embeddingWindow vectorWindow)
    embeddingWindow vectorWindow where
  calendar t := .done ⟨_, rfl⟩
  memory _ _ h := h
  embedding service h model texts t := by
    cases h
    exact .done ⟨_, rfl⟩
  index _ _ _ _ t := .done ⟨_, rfl⟩
  embeddingBreaker := {
    openFor := fun _ h => h.2.1
    put := fun s b h hb =>
      ⟨h.1, (congrArg (·.limits.openFor) (Registry.breakerOf_put_self s.breakers.embedding "e" b)).trans hb, h.2.2⟩ }
  vectorBreaker := {
    openFor := fun _ h => h.2.2
    put := fun s b h hb => ⟨h.1, h.2.1,
      (congrArg (·.limits.openFor) (Registry.breakerOf_put_self s.breakers.vector vectorTarget b)).trans hb⟩ }

theorem holds_equipped :
    (atBench (some refusing)).store.Holds (Equipped content embeddingWindow vectorWindow) content where
  load project t s h := by
    obtain ⟨rfl, hwindows⟩ := h
    exact ⟨⟨rfl, hwindows⟩, rfl⟩
  search project word limit t s h := by
    obtain ⟨rfl, hwindows⟩ := h
    exact ⟨⟨rfl, hwindows⟩, rfl⟩

end Bench

/-- When nothing can be embedded the answer is that of the words, and marked. -/
theorem retrieve_best_effort_refused :
    let bench := shopBench (.ofSettings {}) [shopFunction "cart" 1, shopFunction "cart_total" 9]
    ∃ x t s y t' s', ((atBench (some refusing)).retrieve "shop" "cart").run 0 bench = .finished (.ok x) t s ∧
      ((atBench (some refusing)).withoutEmbedding.retrieve "shop" "cart").run 0 bench = .finished (.ok y) t' s' ∧
      x = { y with degraded := true } := by
  intro bench
  have hsearch : ∃ t s, ((atBench (some refusing)).searchVectors "shop" "cart").run 0 bench = .finished none t s :=
    ⟨_, _, rfl⟩
  obtain ⟨t₀, s₀, hnone⟩ := hsearch
  rcases retrieve_best_effort (holds_equipped (shopStore [shopFunction "cart" 1, shopFunction "cart_total" 9])
      (.ofSeconds 30) (.ofSeconds 60)) (searches_atBench _ _ _) (by decide) (by decide) (by decide) "shop" "cart" 0
      (s := bench) ⟨rfl, rfl, rfl⟩ with
    ⟨hits?, t₁, s₁, x, t₂, s₂, hrun, hx, -, -, y, t₃, s₃, hy, heq⟩ | ⟨t₁, s₁, hcrash, -⟩
  · cases hrun.symm.trans hnone
    exact ⟨x, t₂, s₂, y, t₃, s₃, hx, hy, heq rfl⟩
  · obtain ⟨t, s, hx, -⟩ := run_retrieve (holds_equipped _ (.ofSeconds 30) (.ofSeconds 60)) (by decide) hnone
      (show Equipped bench.content _ _ s₀ by cases hnone; exact ⟨rfl, rfl, rfl⟩)
    cases hcrash.symm.trans hx

/-- Breakers that open at the first failure to embed, for longer than the clock can show. -/
def endlessBreakers : Breakers :=
  .ofSettings { embedding := { failureThreshold := 1, recoverySeconds := Moment.lastSecond + 1 } }

/-- A failure to embed that opens its breaker for too long crashes the retrieval, although the store answers, the search
for vectors only fails, and there is room for the results. -/
theorem retrieve_crashes :
    let bench := shopBench endlessBreakers [shopFunction "cart" 1]
    let inv := Equipped bench.content (.ofSeconds (Moment.lastSecond + 1)) (.ofSeconds 60)
    inv bench ∧ (atBench (some refusing)).store.Holds inv bench.content ∧
      (atBench (some refusing)).Searches inv (.ofSeconds (Moment.lastSecond + 1)) (.ofSeconds 60) ∧
      0 < (atBench (some refusing)).settings.fusionK ∧ (atBench (some refusing)).settings.maxResults ≤ maxRoom ∧
      ∃ t s, ((atBench (some refusing)).retrieve "shop" "cart").run 0 bench = .crashed Registry.overrunMessage t s :=
  ⟨⟨rfl, rfl, rfl⟩, holds_equipped _ _ _, searches_atBench _ _ _, by decide, by decide, _, _, rfl⟩

end Retriever
end CodeAtlas
