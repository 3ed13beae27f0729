import CodeAtlas.Proofs.Retrieval.Answers
import CodeAtlas.Proofs.Text.Pieces

/-! Ranking by words. A search for a word ends when it has found twice as many nodes as there are to be results, so it does not
come to a node in front of which as many others hold the word. Nodes are ranked by how many searches come to them, and a node
to which all searches for its words come is ranked before all that hold fewer words. -/
namespace CodeAtlas
namespace Retrieval

section Searching

variable {nodes : List Graph.Node} {n m : Graph.Node} {word : String}

/-- Whether the name or the file of a node holds a word, in small or capital letters. -/
def HoldsWord (n : Graph.Node) (word : String) : Prop :=
  (Text.lowercase word).toList <:+: (Text.lowercase n.name).toList ∨
    (Text.lowercase word).toList <:+: (Text.lowercase n.file).toList

instance (n : Graph.Node) (word : String) : Decidable (HoldsWord n word) := inferInstanceAs (Decidable (_ ∨ _))

theorem mentions_iff : Store.Snapshots.mentions n (Text.lowercase word) = true ↔ HoldsWord n word := by
  rw [Store.Snapshots.mentions, Bool.or_eq_true, Bool.or_eq_true, Text.contains_iff, Text.contains_iff, HoldsWord,
    or_assoc, or_iff_right_of_imp]
  intro hempty
  rw [String.isEmpty_iff.mp hempty]
  exact .inl List.nil_infix

/-- Whether a node is the only one of its identifier. -/
structure IsOnly (nodes : List Graph.Node) (n : Graph.Node) : Prop where
  mem : n ∈ nodes
  once : (nodes.map (·.id)).count n.id = 1

/-- The nodes in front of a node. -/
def ahead (nodes : List Graph.Node) (n : Graph.Node) : List Graph.Node := nodes.takeWhile (·.id != n.id)

/-- Whether a search for a word that ends after `limit` nodes comes to a node. -/
def ComesTo (nodes : List Graph.Node) (limit : Nat) (n : Graph.Node) (word : String) : Prop :=
  HoldsWord n word ∧ (ahead nodes n).countP (HoldsWord · word) < limit

instance (nodes : List Graph.Node) (limit : Nat) (n : Graph.Node) (word : String) :
    Decidable (ComesTo nodes limit n word) := inferInstanceAs (Decidable (_ ∧ _))

/-- How many words a node holds. -/
def wordsHeld (words : List String) (n : Graph.Node) : Nat := words.countP (HoldsWord n ·)

/-- How many of the searches for words come to a node. -/
def searchesTo (nodes : List Graph.Node) (limit : Nat) (words : List String) (n : Graph.Node) : Nat :=
  words.countP (ComesTo nodes limit n ·)

theorem searchesTo_le (nodes : List Graph.Node) (limit : Nat) (words : List String) (n : Graph.Node) :
    searchesTo nodes limit words n ≤ wordsHeld words n :=
  List.countP_mono_left fun _ _ h => decide_eq_true (of_decide_eq_true h).1

theorem searchesTo_eq {limit : Nat} {words : List String}
    (h : ∀ word ∈ words, HoldsWord n word → ComesTo nodes limit n word) :
    searchesTo nodes limit words n = wordsHeld words n :=
  List.countP_congr fun word hword => by
    rw [decide_eq_true_iff, decide_eq_true_iff]
    exact ⟨And.left, h word hword⟩

theorem id_ne_of_mem_ahead (h : m ∈ ahead nodes n) : m.id ≠ n.id :=
  bne_iff_ne.mp (List.mem_takeWhile_imp (p := fun m : Graph.Node => m.id != n.id) h)

theorem IsOnly.exists_split (h : IsOnly nodes n) :
    ∃ back, nodes = ahead nodes n ++ n :: back ∧ ∀ m ∈ back, m.id ≠ n.id := by
  obtain ⟨front, back, rfl⟩ := List.append_of_mem h.mem
  have honce := h.once
  rw [List.map_append, List.map_cons, List.count_append, List.count_cons_self] at honce
  have hfront : ∀ m ∈ front, (m.id != n.id) = true := fun m hm => bne_iff_ne.mpr fun heq =>
    List.count_eq_zero.mp (by omega) (heq ▸ List.mem_map_of_mem hm : n.id ∈ front.map (·.id))
  have hback : ∀ m ∈ back, m.id ≠ n.id := fun m hm heq =>
    List.count_eq_zero.mp (by omega) (heq ▸ List.mem_map_of_mem hm : n.id ∈ back.map (·.id))
  have hahead : ahead (front ++ n :: back) n = front := by
    rw [ahead, List.takeWhile_append_of_pos hfront, List.takeWhile_cons_of_neg (by simp), List.append_nil]
  exact ⟨back, by rw [hahead], hback⟩

theorem IsOnly.eq (h : IsOnly nodes n) (hm : m ∈ nodes) (hid : m.id = n.id) : m = n := by
  obtain ⟨back, hnodes, hback⟩ := h.exists_split
  rw [hnodes] at hm
  rcases List.mem_append.mp hm with hm | hm
  · exact absurd hid (id_ne_of_mem_ahead hm)
  · exact (List.mem_cons.mp hm).resolve_right fun hm => hback m hm hid

/-- A node is among the first that fit if fewer fit in front of it. -/
theorem IsOnly.mem_take_filter_iff (h : IsOnly nodes n) (p : Graph.Node → Bool) (limit : Nat) :
    n ∈ (nodes.filter p).take limit ↔ p n ∧ (ahead nodes n).countP p < limit := by
  obtain ⟨back, hnodes, -⟩ := h.exists_split
  have hahead : n ∉ (ahead nodes n).filter p := fun hn => id_ne_of_mem_ahead (List.mem_of_mem_filter hn) rfl
  rw [List.countP_eq_length_filter]
  constructor
  · intro hn
    have hp : p n := (List.mem_filter.mp (List.mem_of_mem_take hn)).2
    refine ⟨hp, ?_⟩
    by_contra hless
    rw [hnodes, List.filter_append, List.take_append_of_le_length (not_lt.mp hless)] at hn
    exact hahead (List.mem_of_mem_take hn)
  · rintro ⟨hp, hless⟩
    rw [hnodes, List.filter_append, List.filter_cons_of_pos hp, List.take_append, List.mem_append]
    rw [List.take_cons (Nat.sub_pos_of_lt hless)]
    exact .inr List.mem_cons_self

variable {content : Store.Snapshots} {project : String} {record : Store.Snapshots.Record}
  (hload : content.load? project = some record)

include hload

theorem search_eq (word : String) (limit : Nat) : content.search project word limit =
    (record.graph.nodes.filter fun n => HoldsWord n word).take limit := by
  rw [Store.Snapshots.search, hload]
  refine congrArg (List.take limit) (List.filter_congr fun n _ => ?_)
  rw [Bool.eq_iff_iff, decide_eq_true_iff]
  exact mentions_iff

/-- How often a search comes to a node. -/
theorem count_search (h : IsOnly record.graph.nodes n) (word : String) (limit : Nat) :
    ((content.search project word limit).map (·.id)).count n.id =
      if ComesTo record.graph.nodes limit n word then 1 else 0 := by
  have hsub : (content.search project word limit).Sublist record.graph.nodes := by
    rw [search_eq hload]
    exact (List.take_sublist _ _).trans List.filter_sublist
  have hmost : ((content.search project word limit).map (·.id)).count n.id ≤ 1 :=
    ((hsub.map _).count_le _).trans h.once.le
  have hmem : n.id ∈ (content.search project word limit).map (·.id) ↔ ComesTo record.graph.nodes limit n word := by
    have hfound : n ∈ content.search project word limit ↔ ComesTo record.graph.nodes limit n word := by
      rw [search_eq hload, h.mem_take_filter_iff, decide_eq_true_iff, ComesTo]
    rw [← hfound, List.mem_map]
    exact ⟨fun ⟨m, hm, hid⟩ => h.eq (hsub.subset hm) hid ▸ hm, fun hn => ⟨n, hn, rfl⟩⟩
  split
  · next hcomes =>
    exact le_antisymm hmost (List.count_pos_iff.mpr (hmem.mpr hcomes))
  · next hnot => exact List.count_eq_zero.mpr (mt hmem.mp hnot)

/-- A node is found as often as a search for one of the words comes to it. -/
theorem count_foundIn (h : IsOnly record.graph.nodes n) (limit : Nat) (words : List String) :
    ((foundIn content project limit words).flatten.map (·.id)).count n.id =
      searchesTo record.graph.nodes (limit * 2) words n := by
  induction words with
  | nil => rfl
  | cons word rest ih =>
    rw [foundIn, List.map_cons, List.flatten_cons, List.map_append, List.count_append, count_search hload h, ← foundIn, ih,
      searchesTo, searchesTo, List.countP_cons, Nat.add_comm]
    simp only [decide_eq_true_eq]

theorem mem_nodes_of_mem_foundIn {limit : Nat} {words : List String}
    (hm : m ∈ (foundIn content project limit words).flatten) : m ∈ record.graph.nodes := by
  obtain ⟨nodes, hnodes, hm⟩ := List.mem_flatten.mp hm
  obtain ⟨word, -, rfl⟩ := List.mem_map.mp hnodes
  rw [search_eq hload] at hm
  exact (List.mem_filter.mp (List.mem_of_mem_take hm)).1

/-- A node is ranked if some search comes to it. -/
theorem mem_keywordRanking_foundIn (h : IsOnly record.graph.nodes n) (limit : Nat) (words : List String) :
    n ∈ keywordRanking (foundIn content project limit words) ↔
      0 < searchesTo record.graph.nodes (limit * 2) words n := by
  rw [← count_foundIn hload h, List.count_pos_iff]
  constructor
  · intro hn
    exact List.mem_map_of_mem (count_of_mem_counts (mem_keywordRanking.mp hn)).1
  · intro hid
    obtain ⟨m, hm, hid⟩ := List.mem_map.mp hid
    have hsame {m : Graph.Node} (hm : m ∈ (foundIn content project limit words).flatten) (hid : m.id = n.id) : m = n :=
      h.eq (mem_nodes_of_mem_foundIn hload hm) hid
    exact mem_keywordRanking_of_mem (hsame hm hid ▸ hm) fun m hm hid => hsame hm hid

/-- Of two nodes the one is ranked first to which more searches come. -/
theorem ranked_of_searchesTo_lt {a b : Graph.Node} (ha : IsOnly record.graph.nodes a) (hb : IsOnly record.graph.nodes b)
    {limit : Nat} {words : List String} (hlt : searchesTo record.graph.nodes (limit * 2) words b <
      searchesTo record.graph.nodes (limit * 2) words a) :
    a ∈ keywordRanking (foundIn content project limit words) ∧
      (b ∈ keywordRanking (foundIn content project limit words) →
        [a, b].Sublist (keywordRanking (foundIn content project limit words))) := by
  have hmem := (mem_keywordRanking_foundIn hload ha limit words).mpr (Nat.zero_lt_of_lt hlt)
  refine ⟨hmem, fun hmem' => pair_sublist_keywordRanking hmem hmem' ?_⟩
  rwa [count_foundIn hload ha, count_foundIn hload hb]

end Searching

end Retrieval

namespace Retriever

open Retrieval

variable {σ : Type} {r : Retriever σ} {inv : σ → Prop} {content : Store.Snapshots}

/-- What words find when the search for them ends. -/
theorem found_eq_of_run (hstore : r.store.Holds inv content) {project : String} {words : List String}
    {found : List (List Graph.Node)} {t t' : Moment} {s s' : σ} (hs : inv s)
    (hrun : (r.searchWords project words).run t s = .finished (.ok found) t' s') :
    found = foundIn content project r.settings.maxResults words := by
  by_cases hdouble : r.settings.maxResults * 2 < Width.size 64
  · obtain ⟨t'', s'', hend, -⟩ := (comesOut_searchWords hstore hdouble project words t).exists_run hs
    rw [hend] at hrun
    cases hrun
    rfl
  · cases words with
    | nil =>
      cases hrun
      rfl
    | cons word rest =>
      unfold searchWords at hrun
      rw [if_pos (not_lt.mp hdouble)] at hrun
      cases hrun

/-- Stored nodes are ranked by how many of the searches for words come to them. So a node is ranked, and before all that hold
fewer of the words, if all searches for the words that it holds come to it. -/
theorem ranked_by_words (hstore : r.store.Holds inv content) {project : String} {record : Store.Snapshots.Record}
    (hload : content.load? project = some record) (question : String) {t : Moment} {s : σ} (hs : inv s) :
    let nodes := record.graph.nodes
    let limit := r.settings.maxResults * 2
    let words := keywordsOf question
    (limit < Width.size 64 → ∃ found t' s', (r.searchWords project words).run t s = .finished (.ok found) t' s') ∧
    ∀ found t' s', (r.searchWords project words).run t s = .finished (.ok found) t' s' →
      ∀ a b, IsOnly nodes a → IsOnly nodes b →
        (a ∈ keywordRanking found ↔ 0 < searchesTo nodes limit words a) ∧
        (searchesTo nodes limit words b < searchesTo nodes limit words a → b ∈ keywordRanking found →
          [a, b].Sublist (keywordRanking found)) ∧
        ((∀ word ∈ words, HoldsWord a word → ComesTo nodes limit a word) → wordsHeld words b < wordsHeld words a →
          a ∈ keywordRanking found ∧ (b ∈ keywordRanking found → [a, b].Sublist (keywordRanking found))) := by
  intro nodes limit words
  constructor
  · intro hdouble
    obtain ⟨t', s', hrun, -⟩ := (comesOut_searchWords hstore hdouble project words t).exists_run hs
    exact ⟨_, t', s', hrun⟩
  · intro found t' s' hrun a b ha hb
    obtain rfl := found_eq_of_run hstore hs hrun
    refine ⟨mem_keywordRanking_foundIn hload ha _ _, fun hlt => (ranked_of_searchesTo_lt hload ha hb hlt).2,
      fun hall hlt => ranked_of_searchesTo_lt hload ha hb ?_⟩
    calc searchesTo nodes limit words b
      _ ≤ wordsHeld words b := searchesTo_le nodes limit words b
      _ < wordsHeld words a := hlt
      _ = searchesTo nodes limit words a := (searchesTo_eq hall).symm

/-- Of two functions that are found the one that holds both words comes first, although it is stored behind the other. -/
theorem ranked_by_words_shop :
    let content := shopStore [shopFunction "cart_add" 1, shopFunction "cart_total" 5]
    (atBench none).store.Holds (fun b => b.content = content) content ∧
    content.load? "shop" = some ⟨"shop", "c", [], { nodes := [shopFunction "cart_add" 1, shopFunction "cart_total" 5] }, 0⟩ ∧
    ∃ found t s, ((atBench none).searchWords "shop" (keywordsOf "cart total")).run 0 ⟨.ofSettings {}, [], content⟩ =
        .finished (.ok found) t s ∧
      [shopFunction "cart_total" 5, shopFunction "cart_add" 1].Sublist (keywordRanking found) := by
  intro content
  have hstore := holds_atBench none content
  have hload : content.load? "shop" =
      some ⟨"shop", "c", [], { nodes := [shopFunction "cart_add" 1, shopFunction "cart_total" 5] }, 0⟩ := rfl
  refine ⟨hstore, hload, ?_⟩
  obtain ⟨hends, hranked⟩ := ranked_by_words (t := 0) (s := ⟨.ofSettings {}, [], content⟩) hstore hload "cart total" rfl
  obtain ⟨found, t, s, hrun⟩ := hends (by decide)
  have htotal : IsOnly [shopFunction "cart_add" 1, shopFunction "cart_total" 5] (shopFunction "cart_total" 5) :=
    ⟨List.mem_cons_of_mem _ List.mem_cons_self, by decide⟩
  have hadd : IsOnly [shopFunction "cart_add" 1, shopFunction "cart_total" 5] (shopFunction "cart_add" 1) :=
    ⟨List.mem_cons_self, by decide⟩
  have hmem := ((hranked found t s hrun _ _ hadd htotal).1).mpr (by decide +kernel)
  exact ⟨found, t, s, hrun, ((hranked found t s hrun _ _ htotal hadd).2.2 (by decide +kernel) (by decide +kernel)).2 hmem⟩

/-- When one result is asked for, a search ends after two nodes. So a function that holds both words is ranked behind one that
holds a single word, because the search for that word does not come to it. -/
theorem outranked_by_fewer :
    let r := { atBench none with settings := { maxResults := 1 } }
    let bench := shopBench (.ofSettings {}) [shopFunction "cart_add" 1, shopFunction "cart_drop" 3,
      shopFunction "cart_total" 5]
    wordsHeld (keywordsOf "cart total") (shopFunction "cart_add" 1) = 1 ∧
    wordsHeld (keywordsOf "cart total") (shopFunction "cart_total" 5) = 2 ∧
    ∃ found t s, (r.searchWords "shop" (keywordsOf "cart total")).run 0 bench = .finished (.ok found) t s ∧
      [shopFunction "cart_add" 1, shopFunction "cart_total" 5].Sublist (keywordRanking found) := by
  intro r bench
  refine ⟨by decide +kernel, by decide +kernel, ?_⟩
  have hstore : r.store.Holds (fun b => b.content = bench.content) bench.content := holds_atBench none bench.content
  obtain ⟨t, s, hrun, -⟩ := (comesOut_searchWords hstore (by decide) "shop" (keywordsOf "cart total") 0).exists_run
    (s := bench) rfl
  refine ⟨_, t, s, hrun, ?_⟩
  have hfound : foundIn bench.content "shop" 1 (keywordsOf "cart total") =
      [[shopFunction "cart_add" 1, shopFunction "cart_drop" 3], [shopFunction "cart_total" 5]] := rfl
  show [_, _].Sublist (keywordRanking (foundIn bench.content "shop" 1 (keywordsOf "cart total")))
  rw [hfound, keywordRanking_of_nodup (by decide)]
  exact .cons_cons _ (.cons _ (.cons_cons _ .slnil))

end Retriever
end CodeAtlas
