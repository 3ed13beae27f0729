import CodeAtlas.Proofs.Guard.Calls
import CodeAtlas.Proofs.Retrieval.Leaders
import CodeAtlas.Proofs.Retrieval.Room

/-! What a retrieval answers. As long as the store neither fails nor changes, the answer depends on nothing but what the
store holds and what the search for vectors ended with. -/
namespace CodeAtlas

open Activity (ComesOut)
open Retrieval

/-- Whether a store answers from some content, in all states that satisfy `inv`, and leaves them so. -/
structure Store.Snapshots.Service.Holds {σ : Type} (store : Store.Snapshots.Service σ) (inv : σ → Prop)
    (content : Store.Snapshots) : Prop where
  load : ∀ project t,
    (store.load? project).ComesOut inv (fun r _ => r = .ok (.ok (content.load? project))) t
  search : ∀ project word limit t, (store.search project word limit).ComesOut inv
    (fun r _ => r = .ok (.ok (content.search project word limit))) t

/-- A store in a part of the state answers from what is there. -/
theorem Store.Snapshots.holds_service {σ : Type} {part : Activity.Part σ Store.Snapshots} (hpart : part.Lawful)
    (content : Store.Snapshots) : (Store.Snapshots.service part).Holds (fun s => part.get s = content) content where
  load project t s hs := by
    subst hs
    exact ⟨hpart.get_set _ _, rfl⟩
  search project word limit t s hs := by
    subst hs
    exact ⟨hpart.get_set _ _, rfl⟩

namespace Retrieval

/-- What words find in a store. -/
def foundIn (content : Store.Snapshots) (project : String) (limit : Nat) (words : List String) :
    List (List Graph.Node) := words.map fun word => content.search project word (limit * 2)

/-- The nodes that a store has for a project, which are not needed when there are no pieces of code to resolve. -/
def nodesIn (content : Store.Snapshots) (project : String) (hits : List Store.Vectors.Hit) : List Graph.Node :=
  if hits.isEmpty then [] else (content.load? project).elim [] (·.graph.nodes)

/-- The nodes of a store that words rank. -/
def rankingIn (content : Store.Snapshots) (project question : String) (limit : Nat) : List Graph.Node :=
  keywordRanking (foundIn content project limit (keywordsOf question))

/-- The answer to a question after the search for vectors. -/
def answerIn (settings : Settings.Retrieval) (content : Store.Snapshots) (project question : String)
    (hits? : Option (List Store.Vectors.Hit)) : Retrieval where
  keywords := keywordsOf question
  hits := hits?.getD []
  nodes := select settings.maxResults settings.fusionK (nodesIn content project (hits?.getD [])) (hits?.getD [])
    (rankingIn content project question settings.maxResults)
  degraded := hits?.isNone

end Retrieval

namespace Retriever

variable {σ : Type} {r : Retriever σ} {inv : σ → Prop} {content : Store.Snapshots}

section Holds

variable (hstore : r.store.Holds inv content)

include hstore

theorem comesOut_searchWords (hdouble : r.settings.maxResults * 2 < Width.size 64) (project : String)
    (words : List String) (t : Moment) : (r.searchWords project words).ComesOut inv
      (fun o _ => o = .ok (.ok (foundIn content project r.settings.maxResults words))) t := by
  induction words generalizing t with
  | nil => exact .done rfl
  | cons word rest ih =>
    unfold searchWords
    rw [if_neg (Nat.not_le.mpr hdouble)]
    refine (hstore.search project word _ t).andThen_of_eq fun t' => ?_
    exact (ih t').andThen_of_eq fun _ => .done rfl

theorem comesOut_nodesFor (project : String) (hits : List Store.Vectors.Hit) (t : Moment) :
    (r.nodesFor project hits).ComesOut inv (fun o _ => o = .ok (.ok (nodesIn content project hits))) t := by
  unfold nodesFor nodesIn
  split
  · exact .done rfl
  · exact (hstore.load project t).andThen_of_eq fun _ => .done rfl

/-- A retrieval answers whatever the search for vectors ended with. -/
theorem run_retrieve (hroom : r.settings.maxResults ≤ maxRoom) {project question : String} {t t' : Moment} {s s' : σ}
    {hits? : Option (List Store.Vectors.Hit)}
    (hrun : (r.searchVectors project question).run t s = .finished hits? t' s') (hs' : inv s') :
    ∃ t'' s'', (r.retrieve project question).run t s =
      .finished (.ok (answerIn r.settings content project question hits?)) t'' s'' ∧ inv s'' := by
  show ∃ t'' s'', (Activity.andThen (r.searchVectors project question) _).run t s = _ ∧ _
  rw [Activity.run_andThen_of_run hrun]
  refine ComesOut.exists_run ?_ hs'
  refine (comesOut_searchWords hstore (double_lt_of_room hroom) project _ t').andThen_of_eq fun t₁ => ?_
  refine (comesOut_nodesFor hstore project _ t₁).andThen_of_eq fun t₂ => ?_
  dsimp only
  rw [if_neg (Nat.not_lt.mpr hroom)]
  exact .done rfl

end Holds

end Retriever

namespace Retrieval

theorem length_search_le (content : Store.Snapshots) (project word : String) (limit : Nat) :
    (content.search project word limit).length ≤ limit := by
  unfold Store.Snapshots.search
  split
  · exact List.length_take_le _ _
  · exact Nat.zero_le _

/-- The nodes that words find can be counted with 64 bits where there is room for the results. -/
theorem length_rankingIn_le (content : Store.Snapshots) (project question : String) {limit : Nat}
    (h : limit ≤ Retriever.maxRoom) : (rankingIn content project question limit).length ≤ 2 ^ 64 := by
  have hwords : (keywordsOf question).length ≤ maxKeywords := List.length_take_le _ _
  have hfound : (foundIn content project limit (keywordsOf question)).flatten.length ≤
      (keywordsOf question).length * (limit * 2) := by
    generalize keywordsOf question = words
    induction words with
    | nil => exact Nat.zero_le _
    | cons word rest ih =>
      have hone := length_search_le content project word (limit * 2)
      rw [foundIn, List.map_cons, List.flatten_cons, List.length_append, List.length_cons, Nat.succ_mul]
      rw [foundIn] at ih
      omega
  calc (rankingIn content project question limit).length
    _ ≤ _ := length_keywordRanking_le _
    _ ≤ (keywordsOf question).length * (limit * 2) := hfound
    _ ≤ maxKeywords * (Retriever.maxRoom * 2) := Nat.mul_le_mul hwords (Nat.mul_le_mul_right 2 h)
    _ ≤ 2 ^ 64 := by decide

theorem toUInt64_ne_zero {k : Nat} (hpos : 0 < k) (hlt : k < Width.size 32) : k.toUInt64 ≠ 0 := by
  intro h
  have hwidth : Width.size 32 ≤ UInt64.size := by decide
  have hnat := congrArg UInt64.toNat h
  rw [Nat.toUInt64_eq, UInt64.toNat_ofNat_of_lt' (hlt.trans_le hwidth)] at hnat
  exact hpos.ne' hnat

end Retrieval

namespace Retriever

variable {σ : Type} {r : Retriever σ} {inv : σ → Prop} {content : Store.Snapshots}

/-- Without pieces of code a retrieval loses nothing but what shares an identifier with what comes before it. -/
theorem retrieve_by_words (hstore : r.store.Holds inv content) (hpos : 0 < r.settings.fusionK)
    (hword : r.settings.fusionK < Width.size 32) (hroom : r.settings.maxResults ≤ maxRoom) {project question : String}
    {t t' : Moment} {s s' : σ} {hits? : Option (List Store.Vectors.Hit)}
    (hrun : (r.searchVectors project question).run t s = .finished hits? t' s') (hs' : inv s')
    (hnone : hits?.getD [] = []) :
    let ranking := rankingIn content project question r.settings.maxResults
    ∃ x t'' s'', (r.retrieve project question).run t s = .finished (.ok x) t'' s'' ∧
      x.nodes.length = min r.settings.maxResults (firsts (ranking.map nodeId)).length ∧
      (x.nodes.map nodeId).Nodup ∧
      (∀ n ∈ x.nodes, ranking.find? (nodeId · == nodeId n) = some n) ∧
      (∀ a b, [a, b].Sublist (leaders ranking) → (ranking.map nodeId).count (nodeId b) = 1 → b ∈ x.nodes →
        [a, b].Sublist x.nodes) ∧
      ((ranking.map nodeId).Nodup → x.nodes = ranking.take r.settings.maxResults) := by
  intro ranking
  have hk := toUInt64_ne_zero hpos hword
  have hlength : ranking.length ≤ 2 ^ 64 := length_rankingIn_le content project question hroom
  obtain ⟨t'', s'', hend, -⟩ := run_retrieve hstore hroom hrun hs'
  have hnodes : (answerIn r.settings content project question hits?).nodes =
      select r.settings.maxResults r.settings.fusionK [] [] ranking := by
    unfold answerIn
    rw [hnone]
    rfl
  refine ⟨_, t'', s'', hend, ?_⟩
  rw [hnodes]
  refine ⟨length_select_words hk _ [], nodup_select hk _ [] [] ranking, fun n hn => ?_, fun a b hab honce hb => ?_, ?_⟩
  · exact mem_leaders.mp (mem_leaders_of_mem_select hk _ [] hn)
  · exact pair_sublist_select hk _ [] hlength hab honce hb
  · exact select_of_nodup hk _ [] hlength

/-- What a retriever finds around it. -/
structure Bench where
  breakers : Breakers
  memory : Memory := []
  content : Store.Snapshots

/-- A retriever at a bench, with an index in which nothing is near anything. -/
def atBench (embedding : Option (Models.EmbeddingService Bench)) : Retriever Bench where
  models := {
    completion := fun _ => .done (.error (.allModelsFailed []))
    embedding := embedding
    breakers := ⟨Bench.breakers, fun b s => { s with breakers := b }⟩
    usage := ⟨fun _ => {}, fun _ s => s⟩
    retry := .immediate 1
    chain := []
    embeddingModel := "e"
    maxOutputTokens := 1
    timeout := 0 }
  vectors := {
    replace := fun _ _ => .done (.ok ())
    nearest := fun _ _ _ _ => .done (.ok []) }
  store := Store.Snapshots.service ⟨Bench.content, fun c s => { s with content := c }⟩
  settings := {}
  memory := ⟨Bench.memory, fun m s => { s with memory := m }⟩
  calendar := .done 0

theorem holds_atBench (embedding : Option (Models.EmbeddingService Bench)) (content : Store.Snapshots) :
    (atBench embedding).store.Holds (fun s => s.content = content) content :=
  Store.Snapshots.holds_service ⟨fun _ _ => rfl, fun _ => rfl⟩ content

/-- A function of a shop. -/
def shopFunction (name : String) (line : Nat) : Graph.Node where
  id := "shop.py::" ++ name
  name := name
  kind := .function
  file := "shop.py"
  startLine := line
  endLine := line
  confidence := ⟨0.9, .deterministic, ""⟩

/-- A store that has some functions of a shop. -/
def shopStore (nodes : List Graph.Node) : Store.Snapshots :=
  ({} : Store.Snapshots).save ⟨"shop", "c", [], { nodes := nodes }, 0⟩

/-- A bench with a store that has some functions of a shop. -/
def shopBench (breakers : Breakers) (nodes : List Graph.Node) : Bench := ⟨breakers, [], shopStore nodes⟩

theorem rankingIn_apart : rankingIn (shopStore [shopFunction "cart" 1, shopFunction "cart_total" 9]) "shop" "cart" 10 =
    [shopFunction "cart" 1, shopFunction "cart_total" 9] := by
  have hfound : foundIn (shopStore [shopFunction "cart" 1, shopFunction "cart_total" 9]) "shop" 10 (keywordsOf "cart") =
    [[shopFunction "cart" 1, shopFunction "cart_total" 9]] := by rfl
  rw [rankingIn, hfound, keywordRanking_of_nodup (by decide)]
  rfl

theorem rankingIn_twins : rankingIn (shopStore [shopFunction "cart" 1, shopFunction "cart_total" 1]) "shop" "cart" 10 =
    [shopFunction "cart" 1, shopFunction "cart_total" 1] := by
  have hfound : foundIn (shopStore [shopFunction "cart" 1, shopFunction "cart_total" 1]) "shop" 10 (keywordsOf "cart") =
    [[shopFunction "cart" 1, shopFunction "cart_total" 1]] := by rfl
  rw [rankingIn, hfound, keywordRanking_of_nodup (by decide)]
  rfl

/-- Two functions that begin in different lines are both found. -/
theorem retrieve_by_words_shop : ∃ x t s,
    ((atBench none).retrieve "shop" "cart").run 0
      (shopBench (.ofSettings {}) [shopFunction "cart" 1, shopFunction "cart_total" 9]) = .finished (.ok x) t s ∧
    x.nodes = [shopFunction "cart" 1, shopFunction "cart_total" 9] := by
  have hsearch : ((atBench none).searchVectors "shop" "cart").run 0
      (shopBench (.ofSettings {}) [shopFunction "cart" 1, shopFunction "cart_total" 9]) =
        .finished (some []) 0 (shopBench (.ofSettings {}) [shopFunction "cart" 1, shopFunction "cart_total" 9]) := rfl
  obtain ⟨x, t, s, hrun, -, -, -, -, htake⟩ := retrieve_by_words
    (holds_atBench none (shopStore [shopFunction "cart" 1, shopFunction "cart_total" 9])) (by decide) (by decide)
    (by decide) hsearch rfl rfl
  refine ⟨x, t, s, hrun, ?_⟩
  rw [show (atBench none).settings.maxResults = 10 from rfl, rankingIn_apart] at htake
  exact htake (by decide)

/-- Of two functions that begin in one line only one is found, although words rank both and there is room for both. -/
theorem twin_lost :
    let bench := shopBench (.ofSettings {}) [shopFunction "cart" 1, shopFunction "cart_total" 1]
    ((atBench none).searchVectors "shop" "cart").run 0 bench = .finished (some []) 0 bench ∧
    (rankingIn bench.content "shop" "cart" (atBench none).settings.maxResults).length = 2 ∧
    ∃ x t s, ((atBench none).retrieve "shop" "cart").run 0 bench = .finished (.ok x) t s ∧ x.nodes.length = 1 := by
  have hsearch : ((atBench none).searchVectors "shop" "cart").run 0
      (shopBench (.ofSettings {}) [shopFunction "cart" 1, shopFunction "cart_total" 1]) =
        .finished (some []) 0 (shopBench (.ofSettings {}) [shopFunction "cart" 1, shopFunction "cart_total" 1]) := rfl
  refine ⟨hsearch, congrArg List.length rankingIn_twins, ?_⟩
  obtain ⟨t, s, hrun, -⟩ := run_retrieve (holds_atBench none _) (by decide) hsearch rfl
  refine ⟨_, t, s, hrun, ?_⟩
  show (select 10 60 [] [] (rankingIn (shopStore [shopFunction "cart" 1, shopFunction "cart_total" 1]) "shop" "cart"
    10)).length = 1
  rw [rankingIn_twins, length_select_words (toUInt64_ne_zero (by decide) (by decide))]
  decide

end Retriever
end CodeAtlas
