import CodeAtlas.Proofs.Retrieval.Leaders
import CodeAtlas.Proofs.Lists

/-! Fusion in exact numbers. An identifier is scored with the sum of what all the places are worth at which it stands, whether
it gained them one list after the other or not. The ranking is told by these scores and by where the identifiers first occur,
so that it does not matter in which order they are kept before they are sorted. -/
namespace CodeAtlas.Retrieval.Fusion

section Sums

variable {α : Type} [AddMonoid α] {share : ℕ → α} {id : String}

/-- What an identifier has gained. -/
def scoreOf (id : String) (scores : List (String × α)) : α := (scores.lookup id).getD 0

/-- What an identifier gains in a list: what the places are worth at which it stands. -/
def gainsIn (share : ℕ → α) (id : String) (ids : List String) : α := ((ids.idxsOf id).map share).sum

theorem scoreOf_gain (other : String) (amount : α) (scores : List (String × α)) :
    scoreOf id (gain other amount scores) =
      if other = id then scoreOf id scores + amount else scoreOf id scores := by
  unfold scoreOf
  split
  · next h =>
    rw [h, lookup_gain_self]
    cases scores.lookup id <;> simp
  · next h => rw [lookup_gain_of_ne (Ne.symm h)]

theorem scoreOf_addFrom (rank : ℕ) (scores : List (String × α)) (ids : List String) :
    scoreOf id (addFrom share rank scores ids) = scoreOf id scores + ((ids.idxsOf id rank).map share).sum := by
  induction ids generalizing rank scores with
  | nil => simp [addFrom]
  | cons other rest ih =>
    rw [addFrom, ih, scoreOf_gain, List.idxsOf_cons]
    by_cases h : other = id
    · simp [h, add_assoc]
    · simp [h]

/-- Gains of several lists add up. -/
theorem scoreOf_scores (lists : List (List String)) :
    scoreOf id (scores share lists) = (lists.map (gainsIn share id)).sum := by
  have hfold : ∀ start : List (String × α), scoreOf id (lists.foldl (addFrom share 0) start) =
      scoreOf id start + (lists.map (gainsIn share id)).sum := by
    induction lists with
    | nil => simp
    | cons ids rest ih =>
      intro start
      rw [List.foldl_cons, ih, scoreOf_addFrom, List.map_cons, List.sum_cons, add_assoc]
      rfl
  have hnothing : scoreOf id ([] : List (String × α)) = 0 := rfl
  rw [scores, hfold, hnothing, zero_add]

theorem eq_sum_of_mem_scores {lists : List (List String)} {p : String × α} (h : p ∈ scores share lists) :
    p.2 = (lists.map (gainsIn share p.1)).sum := by
  have hnodup : ((scores share lists).map Prod.fst).Nodup := by
    rw [map_fst_scores]
    exact nodup_firsts _
  rw [← scoreOf_scores, scoreOf, lookup_of_mem hnodup h]
  rfl

theorem idxsOf_of_notMem {ids : List String} (h : id ∉ ids) (start : ℕ) : ids.idxsOf id start = [] :=
  List.idxsOf_eq_nil_iff.mpr fun _ hother => beq_eq_false_iff_ne.mpr fun heq => h (heq ▸ hother)

/-- An identifier gains nothing in a list in which it does not occur. -/
theorem gainsIn_of_notMem {ids : List String} (h : id ∉ ids) : gainsIn share id ids = 0 := by
  rw [gainsIn, idxsOf_of_notMem h]
  rfl

/-- In a list without repetitions an identifier gains what its only place is worth. -/
theorem gainsIn_of_nodup {ids : List String} (hnodup : ids.Nodup) (h : id ∈ ids) :
    gainsIn share id ids = share (ids.idxOf id) := by
  obtain ⟨earlier, later, rfl, hearlier⟩ := List.eq_append_cons_of_mem h
  have hlater : id ∉ later := (List.nodup_cons.mp (List.nodup_append.mp hnodup).2.1).1
  have hplace : (earlier ++ id :: later).idxOf id = earlier.length := by
    rw [List.idxOf_append_of_notMem hearlier, List.idxOf_cons_self, Nat.add_zero]
  rw [gainsIn, hplace, List.idxsOf_append, List.idxsOf_cons, idxsOf_of_notMem hearlier, idxsOf_of_notMem hlater]
  simp

end Sums

section Exact

/-- What a place is worth, as an exact number. -/
def exactShare (k rank : ℕ) : ℚ := 1 / (k + rank)

/-- Whether a score is at least as high as another. -/
def exactBefore (p q : String × ℚ) : Bool := !decide (p.2 < q.2)

/-- Fuse rankings in exact numbers. -/
def fuseExactly (k : ℕ) (lists : List (List String)) : List (String × ℚ) :=
  ranked (fun a b => a < b) (scores (exactShare k) lists)

theorem exactBefore_iff {p q : String × ℚ} : exactBefore p q ↔ q.2 ≤ p.2 := by
  rw [exactBefore, Bool.not_eq_true', decide_eq_false_iff_not, not_lt]

theorem exactBefore_trans (p q r : String × ℚ) (h : exactBefore p q) (h' : exactBefore q r) : exactBefore p r := by
  rw [exactBefore_iff] at h h' ⊢
  exact h'.trans h

theorem exactBefore_total (p q : String × ℚ) : exactBefore p q || exactBefore q p := by
  rw [Bool.or_eq_true, exactBefore_iff, exactBefore_iff]
  exact le_total _ _

variable {k : ℕ} {lists : List (List String)} {p q : String × ℚ}

theorem perm_fuseExactly (k : ℕ) (lists : List (List String)) :
    (fuseExactly k lists).Perm (scores (exactShare k) lists) := List.mergeSort_perm _ _

theorem nodup_map_fst_fuseExactly (k : ℕ) (lists : List (List String)) :
    ((fuseExactly k lists).map Prod.fst).Nodup := by
  rw [((perm_fuseExactly k lists).map Prod.fst).nodup_iff, map_fst_scores]
  exact nodup_firsts _

theorem mem_map_fst_fuseExactly {id : String} : id ∈ (fuseExactly k lists).map Prod.fst ↔ ∃ ids ∈ lists, id ∈ ids := by
  rw [((perm_fuseExactly k lists).map Prod.fst).mem_iff, map_fst_scores, mem_firsts, List.mem_flatten]

theorem eq_sum_of_mem_fuseExactly (h : p ∈ fuseExactly k lists) :
    p.2 = (lists.map (gainsIn (exactShare k) p.1)).sum :=
  eq_sum_of_mem_scores ((perm_fuseExactly k lists).mem_iff.mp h)

/-- Higher scores come first, and of equal scores the identifier that occurred first. -/
theorem pairwise_fuseExactly (k : ℕ) (lists : List (List String)) : (fuseExactly k lists).Pairwise fun p q =>
    q.2 < p.2 ∨ p.2 = q.2 ∧ lists.flatten.idxOf p.1 < lists.flatten.idxOf q.1 := by
  have hfirst := pairwise_idxOf_firsts lists.flatten
  rw [← map_fst_scores (exactShare k) lists, List.pairwise_map] at hfirst
  refine (Sorting.pairwise_mergeSort_ties exactBefore_trans exactBefore_total hfirst).imp fun {p q} ⟨hle, hties⟩ => ?_
  rw [exactBefore_iff] at hle hties
  exact hle.lt_or_eq.imp id fun heq => ⟨heq.symm, hties heq.symm.le⟩

/-- Who has the higher score comes first. -/
theorem pair_sublist_fuseExactly (hp : p ∈ fuseExactly k lists) (hq : q ∈ fuseExactly k lists) (hlt : q.2 < p.2) :
    [p, q].Sublist (fuseExactly k lists) := by
  refine Sorting.pair_sublist_mergeSort_of_not exactBefore_trans exactBefore_total
    ((perm_fuseExactly k lists).mem_iff.mp hp) ((perm_fuseExactly k lists).mem_iff.mp hq) ?_
  rw [exactBefore_iff, not_le]
  exact hlt

theorem exactShare_pos (hk : 1 ≤ k) (rank : ℕ) : 0 < exactShare k rank := by
  have hk : (0 : ℚ) < k := by exact_mod_cast hk
  unfold exactShare
  positivity

/-- An earlier place is worth more. -/
theorem exactShare_strictAnti (hk : 1 ≤ k) : StrictAnti (exactShare k) := by
  intro rank rank' hlt
  have hk : (0 : ℚ) < k := by exact_mod_cast hk
  have hrank : (rank : ℚ) < rank' := by exact_mod_cast hlt
  unfold exactShare
  gcongr

theorem mem_of_idxOf_lt {ids : List String} {x y : String} (hlt : ids.idxOf x < ids.idxOf y) (hy : y ∈ ids) : x ∈ ids :=
  List.idxOf_lt_length_iff.mp (hlt.trans (List.idxOf_lt_length_iff.mpr hy))

/-- Who stands before another one wherever that occurs gains more. -/
theorem sum_gainsIn_lt (hk : 1 ≤ k) {x y : String} (hnodup : ∀ ids ∈ lists, ids.Nodup)
    (hahead : ∀ ids ∈ lists, y ∈ ids → ids.idxOf x < ids.idxOf y) (hy : ∃ ids ∈ lists, y ∈ ids) :
    (lists.map (gainsIn (exactShare k) y)).sum < (lists.map (gainsIn (exactShare k) x)).sum := by
  have hnonneg (ids : List String) : 0 ≤ gainsIn (exactShare k) x ids :=
    List.sum_nonneg (List.forall_mem_map.mpr fun rank _ => (exactShare_pos hk rank).le)
  have hmore {ids : List String} (hids : ids ∈ lists) (hmem : y ∈ ids) :
      gainsIn (exactShare k) y ids < gainsIn (exactShare k) x ids := by
    have hlt := hahead ids hids hmem
    rw [gainsIn_of_nodup (hnodup ids hids) hmem, gainsIn_of_nodup (hnodup ids hids) (mem_of_idxOf_lt hlt hmem)]
    exact exactShare_strictAnti hk hlt
  refine List.sum_lt_sum _ _ (fun ids hids => ?_) (hy.imp fun ids h => ⟨h.1, hmore h.1 h.2⟩)
  by_cases hmem : y ∈ ids
  · exact (hmore hids hmem).le
  · rw [gainsIn_of_notMem hmem]
    exact hnonneg ids

/-- Fused in exact numbers, rankings of any number and length give a ranking that has every identifier of theirs once and no
other, with the sum of what all its places are worth; higher scores come first, and of equal scores the identifier that
occurred first. It is the same in whatever order the identifiers, numbered as they first occurred, come to be sorted. Who
stands before another one in every ranking that has the other comes before it. -/
theorem fuseExactly_ranks (hk : 1 ≤ k) (lists : List (List String)) :
    ((fuseExactly k lists).map Prod.fst).Nodup ∧
    (∀ id, id ∈ (fuseExactly k lists).map Prod.fst ↔ ∃ ids ∈ lists, id ∈ ids) ∧
    (∀ id score, (id, score) ∈ fuseExactly k lists →
      score = (lists.map fun ids => ((ids.idxsOf id).map fun rank : ℕ => 1 / ((k : ℚ) + rank)).sum).sum) ∧
    ((fuseExactly k lists).Pairwise fun p q =>
      q.2 < p.2 ∨ p.2 = q.2 ∧ lists.flatten.idxOf p.1 < lists.flatten.idxOf q.1) ∧
    (∀ entries : List ((String × ℚ) × ℕ), entries.Perm (scores (exactShare k) lists).zipIdx →
      (entries.mergeSort (List.zipIdxLE exactBefore)).map Prod.fst = fuseExactly k lists) ∧
    ∀ x y, (∀ ids ∈ lists, ids.Nodup) → (∀ ids ∈ lists, y ∈ ids → ids.idxOf x < ids.idxOf y) →
      (∃ ids ∈ lists, y ∈ ids) → [x, y].Sublist ((fuseExactly k lists).map Prod.fst) := by
  refine ⟨nodup_map_fst_fuseExactly k lists, fun id => mem_map_fst_fuseExactly, fun id score h =>
    eq_sum_of_mem_fuseExactly h, pairwise_fuseExactly k lists, fun entries hperm =>
    Sorting.map_fst_mergeSort_of_perm exactBefore_trans exactBefore_total hperm, fun x y hnodup hahead hy => ?_⟩
  have hx : ∃ ids ∈ lists, x ∈ ids := hy.imp fun ids h => ⟨h.1, mem_of_idxOf_lt (hahead ids h.1 h.2) h.2⟩
  obtain ⟨p, hp, rfl⟩ := List.mem_map.mp (mem_map_fst_fuseExactly (k := k).mpr hx)
  obtain ⟨q, hq, rfl⟩ := List.mem_map.mp (mem_map_fst_fuseExactly (k := k).mpr hy)
  have hlt : q.2 < p.2 := by
    rw [eq_sum_of_mem_fuseExactly hp, eq_sum_of_mem_fuseExactly hq]
    exact sum_gainsIn_lt hk hnodup hahead hy
  exact (pair_sublist_fuseExactly hp hq hlt).map Prod.fst

theorem fuseExactly_ranks_shop : 1 ≤ 60 ∧ (fuseExactly 60 [["cart:1", "pay:9"], ["shop:1", "cart:1"]]).Pairwise (fun p q =>
      q.2 < p.2 ∨ p.2 = q.2 ∧ ["cart:1", "pay:9", "shop:1", "cart:1"].idxOf p.1 <
        ["cart:1", "pay:9", "shop:1", "cart:1"].idxOf q.1) ∧
    ["cart:1", "pay:9"].Sublist ((fuseExactly 60 [["cart:1", "pay:9"], ["shop:1", "cart:1"]]).map Prod.fst) := by
  obtain ⟨-, -, -, horder, -, hahead⟩ :=
    fuseExactly_ranks (k := 60) (by decide) [["cart:1", "pay:9"], ["shop:1", "cart:1"]]
  exact ⟨by decide, horder, hahead _ _ (by decide) (by decide) (by decide)⟩

end Exact

end CodeAtlas.Retrieval.Fusion
