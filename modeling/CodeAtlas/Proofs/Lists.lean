import Mathlib.Data.List.Nodup
import Mathlib.Order.Nat

/-! What is read of the items of a list, of all of them or of none. -/
namespace CodeAtlas.AllOrNone

variable {α β : Type} {read? : α → Option β} {items : List α}

theorem isSome_mapM_iff : (items.mapM read?).isSome ↔ ∀ i ∈ items, (read? i).isSome := by
  induction items with
  | nil => simp
  | cons i items ih =>
    rw [List.mapM_cons, List.forall_mem_cons, ← ih]
    cases read? i <;> cases items.mapM read? <;> simp

theorem mapM_eq_some_map {read : α → β} (h : ∀ i ∈ items, read? i = some (read i)) :
    items.mapM read? = some (items.map read) := by
  induction items with
  | nil => rfl
  | cons i items ih =>
    obtain ⟨hi, hrest⟩ := List.forall_mem_cons.mp h
    rw [List.mapM_cons, hi, ih hrest]
    rfl

/-- Whatever is among what was read is what some item was read as. -/
theorem exists_of_mem_mapM {read : List β} (h : items.mapM read? = some read) {x : β} (hx : x ∈ read) :
    ∃ i, read? i = some x := by
  induction items generalizing read with
  | nil =>
    cases h
    cases hx
  | cons i items ih =>
    rw [List.mapM_cons] at h
    obtain ⟨y, hy, hrest⟩ := Option.bind_eq_some_iff.mp h
    obtain ⟨ys, hys, hcons⟩ := Option.bind_eq_some_iff.mp hrest
    cases hcons
    rcases List.mem_cons.mp hx with rfl | hx
    · exact ⟨i, hy⟩
    · exact ih hys hx

end CodeAtlas.AllOrNone

/-! Stable sorting. What is sorted keeps the order of ties. So it does not matter in which order numbered items come to be
sorted when their numbers decide between ties. -/
namespace CodeAtlas.Sorting

section Stable

variable {α : Type} {le : α → α → Bool}

/-- The order of numbered items: their numbers decide between ties. -/
theorem zipIdxLE_iff {p q : α × ℕ} : List.zipIdxLE le p q ↔ le p.1 q.1 ∧ (le q.1 p.1 → p.2 ≤ q.2) := by
  rw [List.zipIdxLE]
  by_cases hle : le p.1 q.1 <;> by_cases hle' : le q.1 p.1 <;> simp [hle, hle']

theorem nodup_map_snd_zipIdx (items : List α) : (items.zipIdx.map Prod.snd).Nodup := by
  rw [List.zipIdx_map_snd]
  exact List.nodup_range'

variable (trans : ∀ a b c, le a b → le b c → le a c) (total : ∀ a b, le a b || le b a)

include trans total

theorem pairwise_mergeSort_numbered (entries : List (α × ℕ)) :
    (entries.mergeSort (List.zipIdxLE le)).Pairwise fun p q => List.zipIdxLE le p q :=
  List.pairwise_mergeSort (List.zipIdxLE_trans trans) (List.zipIdxLE_total total) entries

/-- The order of a list is kept between items that come as well before as behind each other. -/
theorem pairwise_mergeSort_ties {r : α → α → Prop} {items : List α} (h : items.Pairwise r) :
    (items.mergeSort le).Pairwise fun a b => le a b ∧ (le b a → r a b) := by
  have hperm := List.mergeSort_perm items.zipIdx (List.zipIdxLE le)
  have hapart := ((hperm.map Prod.snd).nodup_iff).mpr (nodup_map_snd_zipIdx items)
  have hsorted := (pairwise_mergeSort_numbered trans total items.zipIdx).and (List.pairwise_map.mp hapart)
  rw [← List.mergeSort_zipIdx, List.pairwise_map]
  refine hsorted.imp_of_mem fun {p q} hp hq ⟨hle, hne⟩ => ?_
  obtain ⟨hbefore, hties⟩ := zipIdxLE_iff.mp hle
  refine ⟨hbefore, fun hbehind => ?_⟩
  obtain ⟨hplace, hp⟩ := List.getElem?_eq_some_iff.mp (List.mem_zipIdx_iff_getElem?.mp (hperm.mem_iff.mp hp))
  obtain ⟨hplace', hq⟩ := List.getElem?_eq_some_iff.mp (List.mem_zipIdx_iff_getElem?.mp (hperm.mem_iff.mp hq))
  rw [← hp, ← hq]
  exact List.pairwise_iff_getElem.mp h p.2 q.2 hplace hplace' (lt_of_le_of_ne (hties hbehind) hne)

/-- Numbered items are sorted alike in whatever order they come. -/
theorem map_fst_mergeSort_of_perm {items : List α} {entries : List (α × ℕ)} (h : entries.Perm items.zipIdx) :
    (entries.mergeSort (List.zipIdxLE le)).map Prod.fst = items.mergeSort le := by
  have hperm : (entries.mergeSort (List.zipIdxLE le)).Perm (items.zipIdx.mergeSort (List.zipIdxLE le)) :=
    (List.mergeSort_perm _ _).trans (h.trans (List.mergeSort_perm _ _).symm)
  have hsame : entries.mergeSort (List.zipIdxLE le) = items.zipIdx.mergeSort (List.zipIdxLE le) := by
    refine hperm.eq_of_pairwise (fun p q hp hq hle hle' => ?_) (pairwise_mergeSort_numbered trans total entries)
      (pairwise_mergeSort_numbered trans total items.zipIdx)
    rw [List.mem_mergeSort] at hp hq
    obtain ⟨hbefore, hties⟩ := zipIdxLE_iff.mp hle
    obtain ⟨hbehind, hties'⟩ := zipIdxLE_iff.mp hle'
    exact List.inj_on_of_nodup_map (nodup_map_snd_zipIdx items) (h.mem_iff.mp hp) hq
      (le_antisymm (hties hbehind) (hties' hbefore))
  rw [hsame, List.mergeSort_zipIdx]

end Stable

/-- Of two items of a list one comes first. -/
theorem pair_sublist_or {α : Type} {items : List α} {a b : α} (ha : a ∈ items) (hb : b ∈ items) (hne : a ≠ b) :
    [a, b].Sublist items ∨ [b, a].Sublist items := by
  obtain ⟨front, back, rfl⟩ := List.append_of_mem ha
  rcases List.mem_append.mp hb with hb | hb
  · exact .inr ((List.singleton_sublist.mpr hb).append (List.singleton_sublist.mpr List.mem_cons_self))
  · have hback := (List.mem_cons.mp hb).resolve_left (Ne.symm hne)
    exact .inl (((List.singleton_sublist.mpr hback).cons_cons a).trans (List.sublist_append_right front _))

/-- Who comes before another one, but not as well behind it, comes first when they are sorted. -/
theorem pair_sublist_mergeSort_of_not {α : Type} {le : α → α → Bool} (trans : ∀ a b c, le a b → le b c → le a c)
    (total : ∀ a b, le a b || le b a) {items : List α} {a b : α} (ha : a ∈ items) (hb : b ∈ items) (h : ¬ le b a) :
    [a, b].Sublist (items.mergeSort le) := by
  have hne : a ≠ b := by
    rintro rfl
    exact h ((Bool.or_self _).symm.trans (total a a))
  refine (pair_sublist_or (List.mem_mergeSort.mpr ha) (List.mem_mergeSort.mpr hb) hne).resolve_right fun hsub => ?_
  exact h (List.pairwise_iff_forall_sublist.mp (List.pairwise_mergeSort trans total items) hsub)

end CodeAtlas.Sorting
