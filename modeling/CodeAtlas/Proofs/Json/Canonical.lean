import Mathlib.Data.List.Induction
import Mathlib.Data.String.Basic
import CodeAtlas.Json.Record
import CodeAtlas.Proofs.Json.Tokens

/-! Sorting the fields of a document: what a field holds stays the same as long as no key occurs twice, sorting
again changes nothing, and a structure is decoded from the sorted document as from the one it was made of. -/
namespace CodeAtlas
namespace Json

/-- Whether fields are sorted by key, no key occurring twice. -/
def SortedFields (fields : List (String × Json)) : Prop := fields.Pairwise fun a b => a.1 < b.1

section Insert

variable {key : String} {value : Json}

theorem lookup_field {κ : Type} [BEq κ] [LawfulBEq κ] [DecidableEq κ] (f : κ × Json) (fields : List (κ × Json)) (k : κ) :
    (f :: fields).lookup k = if k = f.1 then some f.2 else fields.lookup k := by
  rw [List.lookup_cons]
  by_cases h : k = f.1
  · simp [h]
  · rw [beq_eq_false_iff_ne.mpr h, if_neg h]

theorem lookup_insertField (fields : List (String × Json)) (k : String) :
    (insertField key value fields).lookup k = if k = key then some value else fields.lookup k := by
  induction fields with
  | nil => simp [insertField, lookup_field]
  | cons f fields ih =>
    unfold insertField
    split
    · rw [lookup_field, lookup_field]
    · split
      · next hkey =>
        rw [lookup_field, lookup_field, ← hkey]
        split <;> rfl
      · next hkey =>
        rw [lookup_field, lookup_field, ih]
        by_cases h : k = f.1
        · have hne : f.1 ≠ key := fun he => hkey he.symm
          simp [h, hne]
        · simp [h]

theorem mem_insertField {fields : List (String × Json)} {f : String × Json}
    (h : f ∈ insertField key value fields) : f = (key, value) ∨ f ∈ fields := by
  induction fields with
  | nil => simpa [insertField] using h
  | cons g fields ih =>
    unfold insertField at h
    split at h
    · simpa using h
    · split at h
      · rcases List.mem_cons.mp h with h | h
        · exact .inl h
        · exact .inr (List.mem_cons_of_mem g h)
      · rcases List.mem_cons.mp h with h | h
        · exact .inr (by simp [h])
        · exact (ih h).imp id (List.mem_cons_of_mem g)

theorem SortedFields.insertField {fields : List (String × Json)} (h : SortedFields fields) :
    SortedFields (insertField key value fields) := by
  induction fields with
  | nil => simp [SortedFields, Json.insertField]
  | cons g fields ih =>
    obtain ⟨hg, hfields⟩ := List.pairwise_cons.mp h
    unfold Json.insertField
    split
    · next hlt =>
      refine List.pairwise_cons.mpr ⟨fun f hf => ?_, h⟩
      rcases List.mem_cons.mp hf with rfl | hf
      · exact hlt
      · exact lt_trans hlt (hg f hf)
    · next hge =>
      split
      · next heq =>
        exact List.pairwise_cons.mpr ⟨fun f hf => heq ▸ hg f hf, hfields⟩
      · next hne =>
        refine List.pairwise_cons.mpr ⟨fun f hf => ?_, ih hfields⟩
        rcases mem_insertField hf with rfl | hf
        · exact lt_of_le_of_ne (not_lt.mp hge) (Ne.symm hne)
        · exact hg f hf

/-- A key behind all others is put at the end. -/
theorem insertField_last {fields : List (String × Json)} (h : ∀ f ∈ fields, f.1 < key) :
    insertField key value fields = fields ++ [(key, value)] := by
  induction fields with
  | nil => rfl
  | cons g fields ih =>
    have hg : g.1 < key := h g (by simp)
    have hrest := ih fun f hf => h f (List.mem_cons_of_mem g hf)
    unfold insertField
    rw [if_neg (lt_asymm hg), if_neg (ne_of_gt hg), hrest, List.cons_append]

end Insert

theorem sortFields_append (fields : List (String × Json)) (f : String × Json) :
    sortFields (fields ++ [f]) = insertField f.1 f.2 (sortFields fields) := by
  simp [sortFields]

theorem sortedFields_sortFields (fields : List (String × Json)) : SortedFields (sortFields fields) := by
  induction fields using List.reverseRecOn with
  | nil => simp [SortedFields, sortFields]
  | append_singleton fields f ih =>
    rw [sortFields_append]
    exact ih.insertField

theorem mem_of_mem_sortFields {fields : List (String × Json)} {f : String × Json} (h : f ∈ sortFields fields) :
    f ∈ fields := by
  induction fields using List.reverseRecOn with
  | nil => simp [sortFields] at h
  | append_singleton fields g ih =>
    rw [sortFields_append] at h
    rcases mem_insertField h with rfl | h
    · simp
    · simp [ih h]

/-- What a field holds stays the same. -/
theorem lookup_sortFields {fields : List (String × Json)} (h : (fields.map Prod.fst).Nodup) (k : String) :
    (sortFields fields).lookup k = fields.lookup k := by
  induction fields using List.reverseRecOn with
  | nil => rfl
  | append_singleton fields f ih =>
    rw [List.map_append, List.nodup_append] at h
    obtain ⟨hfields, _, hlast⟩ := h
    have hrest := ih hfields
    rw [sortFields_append, lookup_insertField, hrest, List.lookup_append]
    by_cases hk : k = f.1
    · have hnone : fields.lookup k = none := by
        rw [List.lookup_eq_none_iff]
        intro p hp
        have hne := hlast p.1 (List.mem_map_of_mem hp) f.1 (by simp)
        rw [bne_iff_ne]
        rintro rfl
        exact hne hk
      rw [hnone]
      simp [hk, lookup_field]
    · simp [hk, lookup_field]

/-- Sorted fields are sorted already. -/
theorem SortedFields.sortFields_eq {fields : List (String × Json)} (h : SortedFields fields) :
    sortFields fields = fields := by
  induction fields using List.reverseRecOn with
  | nil => rfl
  | append_singleton fields f ih =>
    obtain ⟨hfields, _, hlast⟩ := List.pairwise_append.mp h
    rw [sortFields_append, ih hfields, insertField_last fun g hg => hlast g hg f (by simp)]

theorem SortedFields.nodup {fields : List (String × Json)} (h : SortedFields fields) :
    (fields.map Prod.fst).Nodup := by
  rw [List.Nodup, List.pairwise_map]
  exact h.imp fun hlt => ne_of_lt hlt

theorem canonicalItems_eq (items : List Json) : canonicalItems items = items.map canonical := by
  induction items with
  | nil => simp [canonicalItems]
  | cons j items ih => simp [canonicalItems, ih]

theorem canonicalFields_eq (fields : List (String × Json)) :
    canonicalFields fields = fields.map fun f => (f.1, f.2.canonical) := by
  induction fields with
  | nil => simp [canonicalFields]
  | cons f fields ih => simp [canonicalFields, ih]

@[simp] theorem canonical_arr (items : List Json) : canonical (.arr items) = .arr (items.map canonical) := by
  rw [canonical, canonicalItems_eq]

theorem canonical_obj (fields : List (String × Json)) :
    canonical (.obj fields) = .obj (sortFields (fields.map fun f => (f.1, f.2.canonical))) := by
  rw [canonical, canonicalFields_eq]

@[simp] theorem canonical_str (s : String) : canonical (.str s) = .str s := by
  simp [canonical]

@[simp] theorem canonical_int (n : Int) : canonical (.int n) = .int n := by
  simp [canonical]

@[simp] theorem canonical_nat (n : Nat) : canonical (.nat n) = .nat n := by
  simp [nat]

theorem canonical_obj_canonical {fields : List (String × Json)}
    (h : ∀ f ∈ fields, f.2.canonical.canonical = f.2.canonical) :
    (canonical (.obj fields)).canonical = canonical (.obj fields) := by
  rw [canonical_obj, canonical_obj]
  have hsame : (sortFields (fields.map fun f => (f.1, f.2.canonical))).map (fun f => (f.1, f.2.canonical)) =
      sortFields (fields.map fun f => (f.1, f.2.canonical)) := by
    refine (List.map_congr_left (g := id) fun f hf => ?_).trans (List.map_id _)
    obtain ⟨g, hg, rfl⟩ := List.mem_map.mp (mem_of_mem_sortFields hf)
    exact congrArg (g.1, ·) (h g hg)
  rw [hsame, (sortedFields_sortFields _).sortFields_eq]

mutual

/-- Sorting the fields again changes nothing. -/
theorem canonical_canonical : (j : Json) → j.canonical.canonical = j.canonical
  | .arr items => by
    have h := canonical_canonical_items items
    simpa using h
  | .obj fields => canonical_obj_canonical (canonical_canonical_fields fields)
  | .null | .bool _ | .int _ | .float _ | .str _ => by simp [canonical]

theorem canonical_canonical_items : (items : List Json) → ∀ j ∈ items, j.canonical.canonical = j.canonical
  | [] => by simp
  | j :: items => by
    have hj := canonical_canonical j
    have hrest := canonical_canonical_items items
    simpa [hj] using hrest

theorem canonical_canonical_fields :
    (fields : List (String × Json)) → ∀ f ∈ fields, f.2.canonical.canonical = f.2.canonical
  | [] => by simp
  | (k, j) :: fields => by
    have hj := canonical_canonical j
    have hrest := canonical_canonical_fields fields
    simpa [hj] using hrest

end

/-- Sorting does not change whether a document is written without loss. -/
theorem Exact.canonical {depth : Nat} {j : Json} (h : Exact depth j) : Exact depth j.canonical := by
  induction h with
  | null => simpa [Json.canonical] using .null _
  | bool => simpa [Json.canonical] using .bool _ _
  | int _ hn => simpa [Json.canonical] using .int _ hn
  | str => simpa [Json.canonical] using .str _ _
  | arr _ ih =>
    rw [canonical_arr]
    refine .arr fun j hj => ?_
    obtain ⟨i, hi, rfl⟩ := List.mem_map.mp hj
    exact ih i hi
  | obj _ ih =>
    rw [canonical_obj]
    refine .obj fun f hf => ?_
    obtain ⟨g, hg, rfl⟩ := List.mem_map.mp (mem_of_mem_sortFields hf)
    exact ih g hg

theorem lookup_filter {keys : List String} {k : String} (hk : k ∈ keys) (fields : List (String × Json)) :
    (fields.filter fun f => keys.contains f.1).lookup k = fields.lookup k := by
  induction fields with
  | nil => rfl
  | cons f fields ih =>
    by_cases hf : f.1 ∈ keys
    · rw [List.filter_cons_of_pos (by simpa using hf), lookup_field, lookup_field, ih]
    · have hne : k ≠ f.1 := by rintro rfl; exact hf hk
      rw [List.filter_cons_of_neg (by simpa using hf), lookup_field, ih, if_neg hne]

theorem lookup_map (g : Json → Json) (fields : List (String × Json)) (k : String) :
    (fields.map fun f => (f.1, g f.2)).lookup k = (fields.lookup k).map g := by
  induction fields with
  | nil => rfl
  | cons f fields ih =>
    rw [List.map_cons, lookup_field, lookup_field, ih]
    by_cases h : k = f.1 <;> simp [h]

section Decode

variable {α : Type} {keys : List String} {fields : List (String × Json)} {decode : Record → Option α}
  {result : Option α}

/-- To decode a structure from an object it is enough to know the object's fields. -/
theorem decode_obj (h : (fields.map Prod.fst).Nodup)
    (hdecode : ∀ r : Record, (∀ k ∈ keys, r.raw? k = fields.lookup k) → decode r = result) :
    (record? keys (.obj fields) >>= decode) = result := by
  have hknown : ((fields.filter fun f => keys.contains f.1).map Prod.fst).Nodup :=
    h.sublist (List.filter_sublist.map Prod.fst)
  rw [record?, if_pos hknown]
  exact hdecode _ fun k hk => lookup_filter hk fields

/-- A structure is decoded from a sorted object as from the object itself, its values being sorted. -/
theorem decode_canonical (h : (fields.map Prod.fst).Nodup)
    (hdecode : ∀ r : Record, (∀ k ∈ keys, r.raw? k = (fields.lookup k).map canonical) → decode r = result) :
    (record? keys (canonical (.obj fields)) >>= decode) = result := by
  have hkeys : ((fields.map fun f => (f.1, f.2.canonical)).map Prod.fst).Nodup := by
    simpa [Function.comp_def] using h
  rw [canonical_obj]
  refine decode_obj (sortedFields_sortFields _).nodup fun r hr => hdecode r fun k hk => ?_
  rw [hr k hk, lookup_sortFields hkeys, lookup_map]

end Decode

/-- A number that has its width is decoded. -/
theorem nat?_nat {bits n : Nat} (h : n < Width.size bits) : nat? bits (.nat n) = some n := by
  have hfit : (n : Int) < (Width.size bits : Int) := Int.ofNat_lt.mpr h
  simp [nat?, nat, hfit]

end Json
end CodeAtlas
