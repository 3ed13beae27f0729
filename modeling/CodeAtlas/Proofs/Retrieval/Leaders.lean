import CodeAtlas.Proofs.Retrieval.Fusion
import CodeAtlas.Proofs.Lists

/-! Counting what words find. A node is counted once for every time that its identifier is found, and nodes are ranked by
their counts; of equal counts the node comes first that was found first. -/
namespace CodeAtlas.Retrieval

section Counting

variable {nodes : List Graph.Node} {n : Graph.Node}

theorem any_id_iff {counts : List (Graph.Node × Nat)} :
    counts.any (·.1.id == n.id) ↔ n.id ∈ counts.map (·.1.id) := by
  rw [List.any_eq_true, List.mem_map]
  simp only [beq_iff_eq]

theorem map_id_countNode (counts : List (Graph.Node × Nat)) (n : Graph.Node) :
    (countNode counts n).map (·.1.id) = see (counts.map (·.1.id)) n.id := by
  have hknown : counts.any (·.1.id == n.id) = (counts.map (·.1.id)).contains n.id := by
    rw [Bool.eq_iff_iff, any_id_iff, List.contains_iff_mem]
  rw [countNode, see, hknown]
  split
  · rw [List.map_map]
    refine List.map_congr_left fun p _ => ?_
    dsimp only [Function.comp_apply]
    split <;> rfl
  · rw [List.map_append]
    rfl

/-- Nodes are counted by their identifiers, in the order in which these are first found. -/
theorem map_id_counts (nodes : List Graph.Node) : (nodes.foldl countNode []).map (·.1.id) = firsts (nodes.map (·.id)) := by
  have hfold : ∀ counts : List (Graph.Node × Nat),
      (nodes.foldl countNode counts).map (·.1.id) = (nodes.map (·.id)).foldl see (counts.map (·.1.id)) := by
    induction nodes with
    | nil => exact fun _ => rfl
    | cons n rest ih =>
      intro counts
      rw [List.foldl_cons, ih, map_id_countNode]
      rfl
  exact hfold []

/-- A node is counted as often as its identifier is found. -/
theorem count_of_mem_counts {p : Graph.Node × Nat} (h : p ∈ nodes.foldl countNode []) :
    p.1 ∈ nodes ∧ p.2 = (nodes.map (·.id)).count p.1.id := by
  induction nodes using List.reverseRecOn generalizing p with
  | nil => cases h
  | append_singleton nodes n ih =>
    rw [List.foldl_concat, countNode] at h
    rw [List.map_append, List.map_singleton, List.count_append, List.count_singleton]
    split at h
    · obtain ⟨q, hq, rfl⟩ := List.mem_map.mp h
      obtain ⟨hmem, hcount⟩ := ih hq
      dsimp only
      split
      · next hid => simp [hmem, hcount, beq_iff_eq.mp hid]
      · next hid => simp [hmem, hcount, Ne.symm (mt beq_iff_eq.mpr hid)]
    · next hnew =>
      rw [any_id_iff, map_id_counts, mem_firsts] at hnew
      rcases List.mem_append.mp h with h | h
      · obtain ⟨hmem, hcount⟩ := ih h
        have hne : n.id ≠ p.1.id := fun heq => hnew (heq ▸ List.mem_map_of_mem hmem)
        simp [hmem, hcount, hne]
      · rw [List.mem_singleton.mp h, List.count_eq_zero.mpr hnew]
        simp

/-- The nodes that are ranked, each with its count. -/
theorem mem_keywordRanking {found : List (List Graph.Node)} : n ∈ keywordRanking found ↔
    (n, (found.flatten.map (·.id)).count n.id) ∈ found.flatten.foldl countNode [] := by
  rw [keywordRanking, List.mem_map]
  constructor
  · rintro ⟨p, hp, rfl⟩
    have hp := List.mem_mergeSort.mp hp
    rw [← (count_of_mem_counts hp).2]
    exact hp
  · exact fun h => ⟨_, List.mem_mergeSort.mpr h, rfl⟩

/-- A node is ranked if it is found and nobody else is found under its identifier. -/
theorem mem_keywordRanking_of_mem {found : List (List Graph.Node)} (h : n ∈ found.flatten)
    (honly : ∀ m ∈ found.flatten, m.id = n.id → m = n) : n ∈ keywordRanking found := by
  have hid : n.id ∈ (found.flatten.foldl countNode []).map (·.1.id) := by
    rw [map_id_counts, mem_firsts]
    exact List.mem_map_of_mem h
  obtain ⟨p, hp, hid⟩ := List.mem_map.mp hid
  obtain ⟨hmem, hcount⟩ := count_of_mem_counts hp
  rw [mem_keywordRanking, ← honly p.1 hmem hid, ← hcount]
  exact hp

/-- Who is found more often is ranked first. -/
theorem pair_sublist_keywordRanking {found : List (List Graph.Node)} {a b : Graph.Node} (ha : a ∈ keywordRanking found)
    (hb : b ∈ keywordRanking found)
    (hlt : (found.flatten.map (·.id)).count b.id < (found.flatten.map (·.id)).count a.id) :
    [a, b].Sublist (keywordRanking found) := by
  refine (Sorting.pair_sublist_mergeSort_of_not ?_ ?_ (mem_keywordRanking.mp ha) (mem_keywordRanking.mp hb)
    ?_).map Prod.fst
  · exact fun p q r h h' => decide_eq_true ((of_decide_eq_true h').trans (of_decide_eq_true h))
  · exact fun p q => by simpa using le_total q.2 p.2
  · simpa using hlt

theorem length_keywordRanking_le (found : List (List Graph.Node)) :
    (keywordRanking found).length ≤ found.flatten.length := by
  have hlength := congrArg List.length (map_id_counts found.flatten)
  have hle := ((nodup_firsts (found.flatten.map (·.id))).subperm fun _ => mem_firsts.mp).length_le
  rw [List.length_map] at hlength hle
  rw [keywordRanking, List.length_map, List.length_mergeSort, hlength]
  exact hle

/-- Nodes that are found once each are ranked as they are found. -/
theorem keywordRanking_of_nodup {found : List (List Graph.Node)} (h : (found.flatten.map (·.id)).Nodup) :
    keywordRanking found = found.flatten := by
  have hcounts : ∀ nodes : List Graph.Node, (nodes.map (·.id)).Nodup → nodes.foldl countNode [] = nodes.map (·, 1) := by
    intro nodes
    induction nodes using List.reverseRecOn with
    | nil => exact fun _ => rfl
    | append_singleton nodes n ih =>
      intro hnodup
      rw [List.map_append, List.map_singleton] at hnodup
      obtain ⟨hnodes, -, hapart⟩ := List.nodup_append.mp hnodup
      have hnew : ¬ (nodes.map (·, 1)).any (·.1.id == n.id) := by
        rw [any_id_iff, List.map_map]
        exact fun hmem => hapart n.id hmem n.id (List.mem_singleton_self _) rfl
      rw [List.foldl_concat, ih hnodes, countNode, if_neg hnew, List.map_append]
      rfl
  have hsorted : (found.flatten.map (·, 1)).Pairwise fun p q => decide (q.2 ≤ p.2) := by
    rw [List.pairwise_map]
    exact List.pairwise_of_forall fun _ _ => decide_eq_true le_rfl
  rw [keywordRanking, hcounts _ h, List.mergeSort_of_pairwise hsorted, List.map_map]
  exact List.map_id _

end Counting

end CodeAtlas.Retrieval

/-! The nodes that are selected: those that the identifiers of the fused ranking stand for, up to the number asked for.
Nothing is left to be filled up with, for every node that words found has its identifier in the ranking. In a selection
from the words alone each identifier is answered by the first node that has it, its leader. A leader comes before a later
one unless the later one's identifier occurs several times, which adds to its score. -/
namespace CodeAtlas
namespace Retrieval

open Fusion Floating

/-- The fused ranking of both searches. -/
def fused (fusionK : Nat) (nodes : List Graph.Node) (hits : List Store.Vectors.Hit) (found : List Graph.Node) :
    List (String × Float) :=
  fuse fusionK [vectorRanking nodes hits, found.map nodeId]

/-- The nodes that identifiers stand for. -/
def resolve (nodes : List Graph.Node) (hits : List Store.Vectors.Hit) (found : List Graph.Node) (ids : List String) :
    List Graph.Node :=
  ids.filterMap (lookUp nodes hits found)

section LookUp

variable {nodes : List Graph.Node} {hits : List Store.Vectors.Hit} {found : List Graph.Node} {id : String}
  {n : Graph.Node}

theorem nodeId_of_lookUp (h : lookUp nodes hits found id = some n) : nodeId n = id :=
  beq_iff_eq.mp (List.find?_some (p := fun m => nodeId m == id) h)

theorem mem_of_mem_covered {h : Store.Vectors.Hit} (hn : n ∈ covered nodes h) : n ∈ nodes :=
  (List.mem_filter.mp (List.mem_mergeSort.mp hn)).1

theorem mem_of_lookUp (h : lookUp nodes hits found id = some n) : n ∈ nodes ∨ n ∈ found := by
  rcases List.mem_append.mp (List.mem_of_find?_eq_some h) with hn | hn
  · obtain ⟨hit, -, hn⟩ := List.mem_flatMap.mp hn
    exact .inl (mem_of_mem_covered hn)
  · exact .inr hn

theorem isSome_lookUp (nodes : List Graph.Node) (hits : List Store.Vectors.Hit) (hn : n ∈ found) :
    (lookUp nodes hits found (nodeId n)).isSome :=
  List.find?_isSome.mpr ⟨n, List.mem_append_right _ hn, beq_self_eq_true _⟩

theorem resolve_cons_some {ids : List String} (h : lookUp nodes hits found id = some n) :
    resolve nodes hits found (id :: ids) = n :: resolve nodes hits found ids :=
  List.filterMap_cons_some h

/-- Nodes have the identifiers that they stand for. -/
theorem map_nodeId_resolve_sublist (nodes : List Graph.Node) (hits : List Store.Vectors.Hit)
    (found : List Graph.Node) (ids : List String) : ((resolve nodes hits found ids).map nodeId).Sublist ids := by
  induction ids with
  | nil => exact List.Sublist.refl []
  | cons id rest ih =>
    cases h : lookUp nodes hits found id with
    | none =>
      rw [resolve, List.filterMap_cons_none h]
      exact ih.cons id
    | some n =>
      rw [resolve_cons_some h, List.map_cons, nodeId_of_lookUp h]
      exact ih.cons_cons id

end LookUp

/-- Nothing is filled up with nodes whose identifiers are taken. -/
theorem fill_of_taken (limit : Nat) {taken : List String} (selected : List Graph.Node) {rest : List Graph.Node}
    (h : ∀ n ∈ rest, nodeId n ∈ taken) : fill limit taken selected rest = selected := by
  induction rest with
  | nil => rfl
  | cons n rest ih =>
    obtain ⟨hn, hrest⟩ := List.forall_mem_cons.mp h
    unfold fill
    split
    · rfl
    · rw [if_pos (List.contains_iff_mem.mpr hn)]
      exact ih hrest

/-- Nothing is filled up when there is enough. -/
theorem fill_of_le {limit : Nat} (taken : List String) {selected : List Graph.Node} (rest : List Graph.Node)
    (h : limit ≤ selected.length) : fill limit taken selected rest = selected := by
  cases rest with
  | nil => rfl
  | cons n rest => exact if_pos h

section Select

variable {fusionK : Nat} (hk : fusionK.toUInt64 ≠ 0) (limit : Nat) (nodes : List Graph.Node)
  (hits : List Store.Vectors.Hit) (found : List Graph.Node)

include hk

theorem nodup_fused : ((fused fusionK nodes hits found).map Prod.fst).Nodup := nodup_map_fst_fuse hk _

theorem mem_fused_of_mem {n : Graph.Node} (h : n ∈ found) :
    nodeId n ∈ (fused fusionK nodes hits found).map Prod.fst := by
  refine (mem_map_fst_fuse hk _).mpr (List.mem_flatten.mpr ⟨found.map nodeId, ?_, List.mem_map_of_mem h⟩)
  exact List.mem_cons_of_mem _ (List.mem_singleton_self _)

/-- What is selected are the first of the nodes in the fused ranking. -/
theorem select_eq : select limit fusionK nodes hits found =
    (resolve nodes hits found ((fused fusionK nodes hits found).map Prod.fst)).take limit := by
  have hresolve : resolve nodes hits found ((fused fusionK nodes hits found).map Prod.fst) =
      (fused fusionK nodes hits found).filterMap fun p => lookUp nodes hits found p.1 := List.filterMap_map ..
  rw [hresolve]
  show fill limit (((fused fusionK nodes hits found).filterMap fun p => lookUp nodes hits found p.1).take limit |>.map
    nodeId) (((fused fusionK nodes hits found).filterMap fun p => lookUp nodes hits found p.1).take limit) found = _
  rw [← hresolve]
  by_cases hle : limit ≤ (resolve nodes hits found ((fused fusionK nodes hits found).map Prod.fst)).length
  · exact fill_of_le _ _ (by rw [List.length_take]; omega)
  · rw [List.take_of_length_le (by omega)]
    refine fill_of_taken limit _ fun n hn => ?_
    -- the node's identifier is in the ranking and stands for some node
    obtain ⟨m, hm⟩ := Option.isSome_iff_exists.mp (isSome_lookUp nodes hits hn)
    refine List.mem_map.mpr ⟨m, ?_, nodeId_of_lookUp hm⟩
    exact List.mem_filterMap.mpr ⟨nodeId n, mem_fused_of_mem hk nodes hits found hn, hm⟩

theorem length_select_le : (select limit fusionK nodes hits found).length ≤ limit := by
  rw [select_eq hk]
  exact List.length_take_le _ _

theorem map_nodeId_select_sublist : ((select limit fusionK nodes hits found).map nodeId).Sublist
    ((fused fusionK nodes hits found).map Prod.fst) := by
  rw [select_eq hk]
  exact ((List.take_sublist _ _).map nodeId).trans (map_nodeId_resolve_sublist nodes hits found _)

/-- No two nodes that are selected share an identifier. -/
theorem nodup_select : ((select limit fusionK nodes hits found).map nodeId).Nodup :=
  (nodup_fused hk nodes hits found).sublist (map_nodeId_select_sublist hk limit nodes hits found)

theorem mem_of_mem_select {n : Graph.Node} (h : n ∈ select limit fusionK nodes hits found) : n ∈ nodes ∨ n ∈ found := by
  rw [select_eq hk] at h
  obtain ⟨id, -, hn⟩ := List.mem_filterMap.mp (List.mem_of_mem_take h)
  exact mem_of_lookUp hn

/-- The nodes that are selected are in the order of the scores of their identifiers. -/
theorem pairwise_select : (select limit fusionK nodes hits found).Pairwise fun a b =>
    ∃ u v, (nodeId a, u) ∈ fused fusionK nodes hits found ∧ (nodeId b, v) ∈ fused fusionK nodes hits found ∧ v ≤ u := by
  obtain ⟨ps, hps, hids⟩ := List.sublist_map_iff.mp (map_nodeId_select_sublist hk limit nodes hits found)
  have hpairs : ps.Pairwise fun p q => p ∈ fused fusionK nodes hits found ∧ q ∈ fused fusionK nodes hits found ∧
      q.2 ≤ p.2 := ((pairwise_fuse hk _).sublist hps).imp_of_mem fun hp hq h => ⟨hps.subset hp, hps.subset hq, h⟩
  have hmapped : (ps.map Prod.fst).Pairwise fun i j => ∃ u v, (i, u) ∈ fused fusionK nodes hits found ∧
      (j, v) ∈ fused fusionK nodes hits found ∧ v ≤ u :=
    List.pairwise_map.mpr (hpairs.imp fun {p q} h => ⟨p.2, q.2, h⟩)
  rw [← hids] at hmapped
  exact List.pairwise_map.mp hmapped

end Select

/-- The first node of each identifier in a ranking. -/
def leaders (ranking : List Graph.Node) : List Graph.Node := resolve [] [] ranking (firsts (ranking.map nodeId))

section Places

variable {α : Type} [BEq α] [LawfulBEq α]

theorem idxOf_concat_of_mem {items : List α} {x : α} (h : x ∈ items) (a : α) :
    (items ++ [a]).idxOf x = items.idxOf x := List.idxOf_append_of_mem h

/-- First occurrences are in the order in which they occur. -/
theorem pairwise_idxOf_firsts (items : List α) : (firsts items).Pairwise fun x y => items.idxOf x < items.idxOf y := by
  induction items using List.reverseRecOn with
  | nil => exact List.Pairwise.nil
  | append_singleton items a ih =>
    have hold : (firsts items).Pairwise fun x y => (items ++ [a]).idxOf x < (items ++ [a]).idxOf y := by
      refine ih.imp_of_mem fun {x y} hx hy h => ?_
      rwa [idxOf_concat_of_mem (mem_firsts.mp hx), idxOf_concat_of_mem (mem_firsts.mp hy)]
    rw [firsts_concat]
    unfold see
    split
    · exact hold
    · next hnew =>
      rw [List.contains_iff_mem, mem_firsts] at hnew
      refine List.pairwise_append.mpr ⟨hold, List.pairwise_singleton _ a, fun x hx y hy => ?_⟩
      rw [List.mem_singleton.mp hy, idxOf_concat_of_mem (mem_firsts.mp hx), List.idxOf_append_of_notMem hnew]
      exact Nat.lt_of_lt_of_le (List.idxOf_lt_length_iff.mpr (mem_firsts.mp hx)) (Nat.le_add_right _ _)

end Places

section Scores

variable {k : Nat} (hk : k.toUInt64 ≠ 0) {ids : List String}

include hk

/-- An identifier gains what its first place is worth, and more only when it occurs again. -/
theorem exists_lookup_addFrom {id : String} (h : id ∈ ids) : ∃ x, (addFrom (shareOf k) 0 [] ids).lookup id = some x ∧
    value (shareOf k (ids.idxOf id)) ≤ value x ∧ (ids.count id = 1 → x = shareOf k (ids.idxOf id)) := by
  obtain ⟨earlier, later, rfl, hearlier⟩ := List.eq_append_cons_of_mem h
  have hplace : (earlier ++ id :: later).idxOf id = earlier.length := by
    rw [List.idxOf_append_of_notMem hearlier, List.idxOf_cons_self, Nat.add_zero]
  have hgained : (gain id (shareOf k earlier.length) (addFrom (shareOf k) 0 [] earlier)).lookup id =
      some (shareOf k earlier.length) := by
    rw [lookup_gain_self, lookup_addFrom_of_not_mem hearlier]
    rfl
  have hsplit : addFrom (shareOf k) 0 [] (earlier ++ id :: later) = addFrom (shareOf k) (earlier.length + 1)
      (gain id (shareOf k earlier.length) (addFrom (shareOf k) 0 [] earlier)) later := by
    rw [addFrom_append, Nat.zero_add]
    rfl
  rw [hsplit, hplace]
  obtain ⟨x, hx, hle⟩ := le_lookup_addFrom (positive_shareOf hk) (earlier.length + 1) hgained (positive_shareOf hk _) later
  refine ⟨x, hx, hle, fun honce => ?_⟩
  have hlater : id ∉ later := by
    rw [List.count_append, List.count_cons_self] at honce
    exact List.count_eq_zero.mp (by omega)
  rw [lookup_addFrom_of_not_mem hlater, hgained] at hx
  exact (Option.some.inj hx).symm

/-- What comes first in a ranking has the higher score, unless what comes later comes several times. -/
theorem pairwise_addFrom (hlength : ids.length ≤ 2 ^ 64) :
    (addFrom (shareOf k) 0 [] ids).Pairwise fun p q => ids.count q.1 = 1 → before p q := by
  have hids : (addFrom (shareOf k) 0 [] ids).map Prod.fst = firsts ids := map_fst_addFrom 0 [] ids
  have hnodup := nodup_firsts ids
  have horder := pairwise_idxOf_firsts ids
  rw [← hids] at hnodup horder
  refine (List.pairwise_map.mp horder).imp_of_mem fun {p q} hp hq hlt honce => ?_
  have hmem : ∀ r ∈ addFrom (shareOf k) 0 [] ids, r.1 ∈ ids := fun r hr =>
    mem_firsts.mp (hids ▸ List.mem_map_of_mem hr)
  obtain ⟨x, hx, hle, -⟩ := exists_lookup_addFrom hk (hmem p hp)
  obtain ⟨y, hy, -, heq⟩ := exists_lookup_addFrom hk (hmem q hq)
  rw [lookup_of_mem hnodup hp, Option.some.injEq] at hx
  rw [lookup_of_mem hnodup hq, Option.some.injEq] at hy
  have hbound := List.idxOf_lt_length_iff.mpr (hmem q hq)
  rw [before, decide_eq_true_iff, hx, hy, heq honce]
  exact (value_shareOf_anti hk hlt.le (by omega)).trans hle

end Scores

section Leaders

variable {ranking : List Graph.Node} {n : Graph.Node}

theorem lookUp_words (id : String) : lookUp [] [] ranking id = ranking.find? (nodeId · == id) := rfl

theorem mem_leaders : n ∈ leaders ranking ↔ ranking.find? (nodeId · == nodeId n) = some n := by
  rw [← lookUp_words]
  constructor
  · intro h
    obtain ⟨id, -, hn⟩ := List.mem_filterMap.mp h
    rwa [nodeId_of_lookUp hn]
  · intro h
    have hmem : n ∈ ranking := List.mem_of_find?_eq_some h
    exact List.mem_filterMap.mpr ⟨nodeId n, mem_firsts.mpr (List.mem_map_of_mem hmem), h⟩

/-- Identifiers of a ranking stand for a node each. -/
theorem map_nodeId_resolve {ids : List String} (h : ∀ id ∈ ids, id ∈ ranking.map nodeId) :
    (resolve [] [] ranking ids).map nodeId = ids := by
  induction ids with
  | nil => rfl
  | cons id rest ih =>
    obtain ⟨hid, hrest⟩ := List.forall_mem_cons.mp h
    obtain ⟨m, hm, rfl⟩ := List.mem_map.mp hid
    obtain ⟨n, hn⟩ := Option.isSome_iff_exists.mp (isSome_lookUp [] [] hm)
    rw [resolve_cons_some hn, List.map_cons, ih hrest, nodeId_of_lookUp hn]

theorem map_nodeId_leaders (ranking : List Graph.Node) :
    (leaders ranking).map nodeId = firsts (ranking.map nodeId) :=
  map_nodeId_resolve fun _ => mem_firsts.mp

/-- Every node of a ranking without common identifiers is a leader. -/
theorem leaders_of_nodup (h : (ranking.map nodeId).Nodup) : leaders ranking = ranking := by
  have hall : ∀ nodes : List Graph.Node, (∀ n ∈ nodes, n ∈ ranking) →
      resolve [] [] ranking (nodes.map nodeId) = nodes := by
    intro nodes
    induction nodes with
    | nil => exact fun _ => rfl
    | cons m rest ih =>
      intro hnodes
      obtain ⟨hm, hrest⟩ := List.forall_mem_cons.mp hnodes
      obtain ⟨n, hn⟩ := Option.isSome_iff_exists.mp (isSome_lookUp [] [] hm)
      have hmem : n ∈ ranking := List.mem_of_find?_eq_some hn
      rw [List.map_cons, resolve_cons_some hn, ih hrest,
        List.inj_on_of_nodup_map h hmem hm (nodeId_of_lookUp hn)]
  unfold leaders
  rw [firsts_of_nodup h]
  exact hall ranking fun _ => id

end Leaders

/-- Of two items of a list the first is among the first ones if the second is. -/
theorem pair_sublist_take {α : Type} {items : List α} (h : items.Nodup) {a b : α} (hab : [a, b].Sublist items) {n : Nat}
    (hb : b ∈ items.take n) : [a, b].Sublist (items.take n) := by
  rw [← List.take_append_drop n items] at h hab
  obtain ⟨-, -, hdisjoint⟩ := List.nodup_append.mp h
  obtain ⟨front, back, heq, hfront, hback⟩ := List.sublist_append_iff.mp hab
  rcases List.eq_nil_or_concat' back with rfl | ⟨init, c, rfl⟩
  · rwa [heq, List.append_nil]
  · -- the second item would be among the others
    have hc : b = c := by
      have hlast := congrArg List.getLast? heq
      rw [← List.append_assoc, List.getLast?_concat] at hlast
      exact Option.some.inj hlast
    exact absurd hc (hdisjoint b hb c (hback.subset (List.mem_append_right init (List.mem_singleton_self c))))

section Words

variable {fusionK : Nat} (hk : fusionK.toUInt64 ≠ 0) (limit : Nat) (nodes : List Graph.Node) {ranking : List Graph.Node}

theorem map_fst_words (k : Nat) (ids : List String) :
    (addFrom (shareOf k) 0 [] ids).map Prod.fst = firsts ids := map_fst_addFrom 0 [] ids

include hk

theorem fused_words_eq : fused fusionK nodes [] ranking =
    (addFrom (shareOf fusionK) 0 [] (ranking.map nodeId)).mergeSort before :=
  ranked_eq_mergeSort (positive_addFrom (positive_shareOf hk) 0 (List.forall_mem_nil _) _)

theorem select_words : select limit fusionK nodes [] ranking =
    (resolve [] [] ranking ((fused fusionK nodes [] ranking).map Prod.fst)).take limit :=
  select_eq hk limit nodes [] ranking

theorem length_select_words :
    (select limit fusionK nodes [] ranking).length = min limit (firsts (ranking.map nodeId)).length := by
  have hids : ((fused fusionK nodes [] ranking).map Prod.fst).Perm (firsts (ranking.map nodeId)) := by
    rw [fused_words_eq hk, ← map_fst_words fusionK]
    exact (List.mergeSort_perm _ _).map Prod.fst
  have hresolve : (resolve [] [] ranking ((fused fusionK nodes [] ranking).map Prod.fst)).map nodeId =
      (fused fusionK nodes [] ranking).map Prod.fst :=
    map_nodeId_resolve fun id hid => mem_firsts.mp (hids.mem_iff.mp hid)
  rw [select_words hk, List.length_take, ← hids.length_eq, ← congrArg List.length hresolve, List.length_map]

/-- Only leaders are selected. -/
theorem mem_leaders_of_mem_select (h : n ∈ select limit fusionK nodes [] ranking) : n ∈ leaders ranking := by
  rw [select_words hk] at h
  obtain ⟨id, -, hn⟩ := List.mem_filterMap.mp (List.mem_of_mem_take h)
  rw [mem_leaders, ← lookUp_words, nodeId_of_lookUp hn]
  exact hn

variable (hlength : ranking.length ≤ 2 ^ 64)

include hlength

/-- A leader is not left out in favour of a later one whose identifier occurs once. -/
theorem pair_sublist_select {a b : Graph.Node} (hab : [a, b].Sublist (leaders ranking))
    (honce : (ranking.map nodeId).count (nodeId b) = 1) (hb : b ∈ select limit fusionK nodes [] ranking) :
    [a, b].Sublist (select limit fusionK nodes [] ranking) := by
  have hids := hab.map nodeId
  rw [map_nodeId_leaders, ← map_fst_words fusionK] at hids
  obtain ⟨ps, hps, heq⟩ := List.sublist_map_iff.mp hids
  -- the two scores, which are in this order before and after the sorting
  obtain ⟨p, q, rfl⟩ : ∃ p q, ps = [p, q] := by
    rw [← List.length_eq_two, ← List.length_map Prod.fst, ← heq]
    rfl
  obtain ⟨hp, hq⟩ : nodeId a = p.1 ∧ nodeId b = q.1 := by
    injection heq with hp htail
    injection htail with hq
    exact ⟨hp, hq⟩
  have hbefore : before p q :=
    List.pairwise_pair.mp ((pairwise_addFrom hk (by rwa [List.length_map])).sublist hps) (hq ▸ honce)
  have hsorted : [p, q].Sublist (fused fusionK nodes [] ranking) := by
    rw [fused_words_eq hk]
    exact List.pair_sublist_mergeSort before_trans before_total hbefore hps
  have hleader : ∀ n ∈ leaders ranking, lookUp [] [] ranking (nodeId n) = some n := fun n => mem_leaders.mp
  have hresolved := (hsorted.map Prod.fst).filterMap (lookUp [] [] ranking)
  rw [← heq, List.map_cons, List.filterMap_cons_some (hleader a (hab.subset List.mem_cons_self)), List.map_singleton,
    List.filterMap_cons_some (hleader b (hab.subset (List.mem_cons_of_mem a (List.mem_singleton_self b))))] at hresolved
  rw [select_words hk] at hb ⊢
  refine pair_sublist_take ?_ hresolved hb
  exact ((nodup_fused hk nodes [] ranking).sublist (map_nodeId_resolve_sublist [] [] ranking _)).of_map nodeId

/-- Without common identifiers the first of the ranking are selected. -/
theorem select_of_nodup (h : (ranking.map nodeId).Nodup) :
    select limit fusionK nodes [] ranking = ranking.take limit := by
  have hsorted : (addFrom (shareOf fusionK) 0 [] (ranking.map nodeId)).Pairwise fun p q => before p q := by
    refine (pairwise_addFrom hk (by rwa [List.length_map])).imp_of_mem fun {p q} _ hq hbefore => ?_
    have hmem : q.1 ∈ ranking.map nodeId := mem_firsts.mp (map_fst_words fusionK _ ▸ List.mem_map_of_mem hq)
    exact hbefore (List.count_eq_one_of_mem h hmem)
  rw [select_words hk, fused_words_eq hk, List.mergeSort_of_pairwise hsorted, map_fst_words]
  exact congrArg (List.take limit) (leaders_of_nodup h)

end Words

end Retrieval
end CodeAtlas
