import CodeAtlas.Proofs.Floating.Arithmetic
import CodeAtlas.Retrieval.Basic
import CodeAtlas.Retrieval.Retriever

/-! Fused rankings. A place in a ranking is worth something, and never less than a later one, although the places are
counted and divided in floating point. Every identifier stands in the fused ranking once, with a score that no later one
exceeds; of equal scores the one comes first that occurred first. -/
namespace CodeAtlas
namespace Retrieval.Fusion

open Floating

/-- What is left of a number when nothing is added to it. -/
theorem add_zero_eq {x : Float} (hx : Positive x) : x + (0 : UInt64).toFloat = x := by
  have hadd : x + (0 : UInt64).toFloat = .ofModel (.pack x.toModel.unpack) := by
    show Float.ofModel (.pack (.add .binary64 x.toModel.unpack (0 : UInt64).toFloat.toModel.unpack)) = _
    have hzero : (0 : UInt64).toFloat.toModel.unpack = .zero .positive := rfl
    rw [hzero]
    unfold Positive at hx
    generalize x.toModel.unpack = u at hx
    cases hx <;> rfl
  rw [hadd, ← Float.toBits_inj, ← UInt64.toBitVec_inj]
  exact Float.Model.UnpackedFloat.pack_unpack_of_valid x.toModel.valid

section Share

variable {k : ℕ} (hk : k.toUInt64 ≠ 0)

include hk

theorem isRounded_denominator (rank : ℕ) :
    IsRounded (value k.toUInt64.toFloat + value rank.toUInt64.toFloat)
      (k.toUInt64.toFloat + rank.toUInt64.toFloat) := by
  have hpos := (isRounded_toFloat hk).positive
  have hlt := value_toFloat_lt_limit k.toUInt64
  by_cases hrank : rank.toUInt64 = 0
  · rw [hrank, add_zero_eq hpos, value_toFloat_zero, add_zero]
    exact isRounded_value hpos hlt
  · exact isRounded_add hpos (isRounded_toFloat hrank).positive hlt (value_toFloat_lt_limit _)

theorem isRounded_shareOf (rank : ℕ) :
    IsRounded (1 / value (k.toUInt64.toFloat + rank.toUInt64.toFloat)) (shareOf k rank) := by
  have hrounded := isRounded_denominator hk rank
  refine isRounded_one_div hrounded.positive (hrounded.value_le ?_)
  calc value k.toUInt64.toFloat + value rank.toUInt64.toFloat
    _ ≤ 2 ^ 52 * 2 ^ (12 : ℤ) + 2 ^ 52 * 2 ^ (12 : ℤ) := add_le_add (value_toFloat_le _) (value_toFloat_le _)
    _ ≤ 2 ^ 52 * 2 ^ (200 : ℤ) := by norm_num

/-- Every place is worth something. -/
theorem positive_shareOf (rank : ℕ) : Positive (shareOf k rank) := (isRounded_shareOf hk rank).positive

/-- A later place is not worth more. -/
theorem value_shareOf_anti {rank rank' : ℕ} (hle : rank ≤ rank') (hlt : rank' < 2 ^ 64) :
    value (shareOf k rank') ≤ value (shareOf k rank) := by
  have hsum := isRounded_denominator hk rank
  have hsum' := isRounded_denominator hk rank'
  refine (isRounded_shareOf hk rank').mono (isRounded_shareOf hk rank) ?_
  refine one_div_le_one_div_of_le hsum.positive.size_pos (hsum.mono hsum' ?_)
  have hnat : rank.toUInt64.toNat ≤ rank'.toUInt64.toNat := by
    rw [Nat.toUInt64_eq, Nat.toUInt64_eq, UInt64.toNat_ofNat_of_lt' (hle.trans_lt hlt), UInt64.toNat_ofNat_of_lt' hlt]
    exact hle
  gcongr
  exact value_toFloat_mono hnat

end Share
end Retrieval.Fusion

namespace Retrieval

open Floating (Positive value)

section Firsts

variable {α : Type} [BEq α]

/-- See an item, which counts only if it was not seen before. -/
def see (seen : List α) (a : α) : List α := if seen.contains a then seen else seen ++ [a]

theorem firsts_eq_foldl (items : List α) : firsts items = items.foldl see [] := rfl

theorem firsts_concat (items : List α) (a : α) : firsts (items ++ [a]) = see (firsts items) a := by
  rw [firsts_eq_foldl, List.foldl_concat, ← firsts_eq_foldl]

variable [LawfulBEq α]

theorem mem_see {a b : α} {seen : List α} : b ∈ see seen a ↔ b ∈ seen ∨ b = a := by
  unfold see
  split
  · next h =>
    rw [List.contains_iff_mem] at h
    exact ⟨.inl, fun hb => hb.elim id fun heq => heq ▸ h⟩
  · rw [List.mem_append, List.mem_singleton]

theorem nodup_see {seen : List α} (h : seen.Nodup) (a : α) : (see seen a).Nodup := by
  unfold see
  split
  · exact h
  · next ha =>
    rw [List.contains_iff_mem] at ha
    exact List.nodup_append.mpr ⟨h, List.nodup_singleton a, fun b hb c hc hbc =>
      ha (List.mem_singleton.mp hc ▸ hbc ▸ hb)⟩

theorem foldl_see_spec (items seen : List α) (h : seen.Nodup) :
    (items.foldl see seen).Nodup ∧ ∀ a, a ∈ items.foldl see seen ↔ a ∈ seen ∨ a ∈ items := by
  induction items generalizing seen with
  | nil => exact ⟨h, fun a => by simp⟩
  | cons b rest ih =>
    obtain ⟨hnodup, hmem⟩ := ih (see seen b) (nodup_see h b)
    refine ⟨hnodup, fun a => (hmem a).trans ?_⟩
    rw [mem_see, List.mem_cons, or_assoc]

theorem nodup_firsts (items : List α) : (firsts items).Nodup := (foldl_see_spec items [] List.nodup_nil).1

theorem mem_firsts {a : α} {items : List α} : a ∈ firsts items ↔ a ∈ items := by
  have h := (foldl_see_spec items [] List.nodup_nil).2 a
  rwa [or_iff_right (List.not_mem_nil)] at h

/-- Nothing is left out where nothing occurs twice. -/
theorem firsts_of_nodup {items : List α} (h : items.Nodup) : firsts items = items := by
  induction items using List.reverseRecOn with
  | nil => rfl
  | append_singleton items a ih =>
    obtain ⟨hitems, -, hdisjoint⟩ := List.nodup_append.mp h
    rw [firsts_concat, ih hitems]
    refine if_neg fun ha => ?_
    exact hdisjoint a (List.contains_iff_mem.mp ha) a (List.mem_singleton_self a) rfl

end Firsts

namespace Fusion

section Scores

variable {α : Type} [Add α] {share : Nat → α}

theorem map_fst_gain (id : String) (a : α) (scores : List (String × α)) :
    (gain id a scores).map Prod.fst = see (scores.map Prod.fst) id := by
  induction scores with
  | nil => rfl
  | cons p rest ih =>
    unfold gain see
    by_cases h : p.1 = id
    · simp [h]
    · have hne : ¬ id = p.1 := fun heq => h heq.symm
      rw [if_neg h, List.map_cons, ih]
      unfold see
      by_cases hmem : id ∈ rest.map Prod.fst
      · simp [hmem]
      · simp [hmem, hne]

theorem map_fst_addFrom (rank : Nat) (scores : List (String × α)) (ids : List String) :
    (addFrom share rank scores ids).map Prod.fst = ids.foldl see (scores.map Prod.fst) := by
  induction ids generalizing rank scores with
  | nil => rfl
  | cons id rest ih =>
    show (addFrom share (rank + 1) (gain id (share rank) scores) rest).map Prod.fst = _
    rw [ih, map_fst_gain]
    rfl

/-- The identifiers are scored in the order in which they first occur. -/
theorem map_fst_scores (share : Nat → α) (lists : List (List String)) :
    (scores share lists).map Prod.fst = firsts lists.flatten := by
  have hfold : ∀ scores : List (String × α), (lists.foldl (addFrom share 0) scores).map Prod.fst =
      lists.flatten.foldl see (scores.map Prod.fst) := by
    induction lists with
    | nil => exact fun _ => rfl
    | cons ids rest ih =>
      intro scores
      rw [List.foldl_cons, ih, map_fst_addFrom, List.flatten_cons, List.foldl_append]
  exact hfold []

theorem lookup_gain_self (id : String) (a : α) (scores : List (String × α)) :
    (gain id a scores).lookup id = some ((scores.lookup id).elim a (· + a)) := by
  induction scores with
  | nil => simp [gain]
  | cons p rest ih =>
    obtain ⟨i, score⟩ := p
    unfold gain
    by_cases h : i = id
    · simp [h]
    · have hne : (id == i) = false := beq_eq_false_iff_ne.mpr fun heq => h heq.symm
      rw [if_neg h, List.lookup_cons, hne, ih, List.lookup_cons, hne]

theorem lookup_gain_of_ne {id other : String} (h : other ≠ id) (a : α) (scores : List (String × α)) :
    (gain id a scores).lookup other = scores.lookup other := by
  induction scores with
  | nil => simp [gain, h]
  | cons p rest ih =>
    obtain ⟨i, score⟩ := p
    unfold gain
    by_cases hp : i = id
    · have hne : (other == i) = false := beq_eq_false_iff_ne.mpr fun heq => h (heq.trans hp)
      simp only [if_pos hp, List.lookup_cons, hne]
    · rw [if_neg hp, List.lookup_cons, ih, ← List.lookup_cons]

theorem lookup_addFrom_of_not_mem {id : String} {ids : List String} (h : id ∉ ids) (rank : Nat)
    (scores : List (String × α)) : (addFrom share rank scores ids).lookup id = scores.lookup id := by
  induction ids generalizing rank scores with
  | nil => rfl
  | cons other rest ih =>
    rw [List.mem_cons, not_or] at h
    show (addFrom share (rank + 1) (gain other (share rank) scores) rest).lookup id = _
    rw [ih h.2, lookup_gain_of_ne h.1]

theorem addFrom_append (rank : Nat) (scores : List (String × α)) (ids ids' : List String) :
    addFrom share rank scores (ids ++ ids') = addFrom share (rank + ids.length) (addFrom share rank scores ids) ids' := by
  induction ids generalizing rank scores with
  | nil => rfl
  | cons id rest ih =>
    show addFrom share (rank + 1) _ (rest ++ ids') = addFrom share (rank + (rest.length + 1)) _ ids'
    rw [ih, Nat.add_assoc, Nat.add_comm 1]
    rfl

omit [Add α] in
theorem lookup_of_mem {scores : List (String × α)} (hnodup : (scores.map Prod.fst).Nodup) {p : String × α}
    (hp : p ∈ scores) : scores.lookup p.1 = some p.2 := by
  obtain ⟨earlier, later, rfl⟩ := List.append_of_mem hp
  refine List.lookup_eq_some_iff.mpr ⟨earlier, later, rfl, fun q hq => ?_⟩
  rw [List.map_append] at hnodup
  rw [bne_iff_ne]
  exact fun heq => (List.nodup_append.mp hnodup).2.2 q.1 (List.mem_map_of_mem hq) p.1 List.mem_cons_self heq.symm

end Scores

section Positive

theorem positive_gain {scores : List (String × Float)} (h : ∀ p ∈ scores, Positive p.2) (id : String) {a : Float}
    (ha : Positive a) : ∀ p ∈ gain id a scores, Positive p.2 := by
  induction scores with
  | nil =>
    intro p hp
    rw [List.mem_singleton.mp hp]
    exact ha
  | cons q rest ih =>
    unfold gain
    have hq := h q List.mem_cons_self
    have hrest := fun p hp => h p (List.mem_cons_of_mem q hp)
    split
    · exact List.forall_mem_cons.mpr ⟨(hq.add ha).1, hrest⟩
    · exact List.forall_mem_cons.mpr ⟨hq, ih hrest⟩

variable {share : Nat → Float} (hshare : ∀ rank, Positive (share rank))

include hshare

theorem positive_addFrom (rank : Nat) {scores : List (String × Float)} (h : ∀ p ∈ scores, Positive p.2)
    (ids : List String) : ∀ p ∈ addFrom share rank scores ids, Positive p.2 := by
  induction ids generalizing rank scores with
  | nil => exact h
  | cons id rest ih => exact ih (rank + 1) (positive_gain h id (hshare rank))

/-- Every score is positive where every place is worth something. -/
theorem positive_scores (lists : List (List String)) : ∀ p ∈ scores share lists, Positive p.2 := by
  have hfold : ∀ scores : List (String × Float), (∀ p ∈ scores, Positive p.2) →
      ∀ p ∈ lists.foldl (addFrom share 0) scores, Positive p.2 := by
    induction lists with
    | nil => exact fun _ h => h
    | cons ids rest ih => exact fun scores h => ih _ (positive_addFrom hshare 0 h ids)
  exact hfold [] (List.forall_mem_nil _)

/-- What was gained is not lost. -/
theorem le_lookup_addFrom {id : String} {x : Float} (rank : Nat) {scores : List (String × Float)}
    (hlookup : scores.lookup id = some x) (hx : Positive x) (ids : List String) :
    ∃ y, (addFrom share rank scores ids).lookup id = some y ∧ value x ≤ value y := by
  induction ids generalizing rank scores x with
  | nil => exact ⟨x, hlookup, le_rfl⟩
  | cons other rest ih =>
    by_cases h : id = other
    · obtain ⟨hpos, hle⟩ := hx.add (hshare rank)
      have hgain : (gain other (share rank) scores).lookup id = some (x + share rank) := by
        rw [← h, lookup_gain_self, hlookup]
        rfl
      obtain ⟨y, hy, hxy⟩ := ih (rank + 1) hgain hpos
      exact ⟨y, hy, hle.trans hxy⟩
    · exact ih (rank + 1) ((lookup_gain_of_ne h _ _).trans hlookup) hx

end Positive

/-- The order of a ranking, by the numbers that the scores stand for. -/
def before (p q : String × Float) : Bool := decide (value q.2 ≤ value p.2)

theorem before_trans (p q r : String × Float) (h : before p q) (h' : before q r) : before p r := by
  rw [before, decide_eq_true_iff] at h h' ⊢
  exact h'.trans h

theorem before_total (p q : String × Float) : before p q || before q p := by
  rw [Bool.or_eq_true, before, before, decide_eq_true_iff, decide_eq_true_iff]
  exact le_total _ _

/-- Positive scores are ranked by the numbers that they stand for. -/
theorem ranked_eq_mergeSort {scores : List (String × Float)} (h : ∀ p ∈ scores, Positive p.2) :
    ranked (fun a b => a < b) scores = scores.mergeSort before := by
  have hmap := List.map_mergeSort (r := fun a b : String × Float => !decide (a.2 < b.2)) (s := before) (f := id)
    (l := scores) ?_
  · rwa [List.map_id, List.map_id] at hmap
  · intro p hp q hq
    show (!decide (p.2 < q.2)) = decide (value q.2 ≤ value p.2)
    rw [← decide_not, decide_eq_decide, (h p hp).lt_iff (h q hq), not_lt]

section Ranked

variable {k : Nat} (hk : k.toUInt64 ≠ 0) (lists : List (List String))

include hk

theorem fuse_eq : fuse k lists = (scores (shareOf k) lists).mergeSort before :=
  ranked_eq_mergeSort (positive_scores (positive_shareOf hk) lists)

theorem perm_fuse : (fuse k lists).Perm (scores (shareOf k) lists) := by
  rw [fuse_eq hk]
  exact List.mergeSort_perm _ _

/-- The fused ranking has every identifier once. -/
theorem nodup_map_fst_fuse : ((fuse k lists).map Prod.fst).Nodup := by
  refine ((perm_fuse hk lists).map Prod.fst).nodup_iff.mpr ?_
  rw [map_fst_scores]
  exact nodup_firsts _

theorem mem_map_fst_fuse {id : String} : id ∈ (fuse k lists).map Prod.fst ↔ id ∈ lists.flatten := by
  rw [((perm_fuse hk lists).map Prod.fst).mem_iff, map_fst_scores, mem_firsts]

/-- No score exceeds an earlier one. -/
theorem pairwise_fuse : (fuse k lists).Pairwise fun p q => q.2 ≤ p.2 := by
  have hpositive : ∀ p ∈ fuse k lists, Positive p.2 := fun p hp =>
    positive_scores (positive_shareOf hk) lists p ((perm_fuse hk lists).mem_iff.mp hp)
  have hsorted : (fuse k lists).Pairwise fun p q => before p q := by
    rw [fuse_eq hk]
    exact List.pairwise_mergeSort before_trans before_total _
  refine hsorted.imp_of_mem fun {p q} hp hq h => ?_
  rw [before, decide_eq_true_iff] at h
  refine Gate.le_of_not_lt (hpositive q hq).ne_notANumber (hpositive p hp).ne_notANumber ?_
  rw [(hpositive p hp).lt_iff (hpositive q hq)]
  exact not_lt.mpr h

end Ranked
end Fusion
end Retrieval
end CodeAtlas
