import Mathlib.Data.List.Nodup
import CodeAtlas.Proofs.Lists
import CodeAtlas.Proofs.Json.Canonical

/-! Forms that documents are filled into. A document is of a form when it is an object in which each field of the form
stands at most once, under one of its keys, or an array of the fields' values in order, and when each field holds what
it may hold. A structure can be decoded from just the documents that are of its form. -/
namespace CodeAtlas.Json

/-- A field of a form: the keys under which it may stand, and what it may hold. -/
structure FormField where
  keys : List String
  Holds : Json → Prop

/-- What a document has under one of some keys or, when it is an array, at a place. -/
def part? (keys : List String) (place : Nat) : Json → Option Json
  | .obj fields => (fields.find? fun f => keys.contains f.1).map Prod.snd
  | .arr items => items[place]?
  | _ => none

/-- Whether a document has each of some fields at most once, and as an array no more than these. -/
def IsShaped (names : List (List String)) : Json → Prop
  | .obj fields => ∀ keys ∈ names, fields.countP (fun f => keys.contains f.1) ≤ 1
  | .arr items => items.length ≤ names.length
  | _ => False

/-- Whether a document is of a form. -/
structure Fits (form : List FormField) (j : Json) : Prop where
  shape : j.IsShaped (form.map FormField.keys)
  parts : ∀ x ∈ form.zipIdx, ∀ v, j.part? x.1.keys x.2 = some v → x.1.Holds v

section Fields

variable {keys : List String} {fields fields' : List (String × Json)}

theorem part?_obj (place : Nat) :
    (obj fields).part? keys place = (fields.filter fun f => keys.contains f.1).head?.map Prod.snd := by
  rw [part?, List.head?_filter]

theorem part?_congr (h : (fields.filter fun f => keys.contains f.1) = fields'.filter fun f => keys.contains f.1)
    (place : Nat) : (obj fields).part? keys place = (obj fields').part? keys place := by
  rw [part?_obj, part?_obj, h]

/-- In an object the order of the fields does not matter. -/
theorem fits_obj_iff {form : List FormField} :
    (obj fields).Fits form ↔ ∀ x ∈ form, (fields.filter fun f => x.keys.contains f.1).length ≤ 1 ∧
      ∀ v, (obj fields).part? x.keys 0 = some v → x.Holds v := by
  have hparts : (∀ x ∈ form.zipIdx, ∀ v, (obj fields).part? x.1.keys x.2 = some v → x.1.Holds v) ↔
      ∀ x ∈ form, ∀ v, (obj fields).part? x.keys 0 = some v → x.Holds v := by
    have hforall := List.forall_mem_map (l := form.zipIdx) (f := Prod.fst)
      (P := fun x => ∀ v, (obj fields).part? x.keys 0 = some v → x.Holds v)
    rw [List.zipIdx_map_fst] at hforall
    rw [hforall]
    rfl
  rw [forall₂_and, ← hparts]
  have hshape : (obj fields).IsShaped (form.map FormField.keys) ↔
      ∀ x ∈ form, (fields.filter fun f => x.keys.contains f.1).length ≤ 1 := by
    rw [IsShaped, List.forall_mem_map]
    exact forall₂_congr fun x _ => by rw [List.countP_eq_length_filter]
  rw [← hshape]
  exact ⟨fun h => ⟨h.shape, h.parts⟩, fun h => ⟨h.1, h.2⟩⟩

/-- Objects with the same fields under the keys of a form are both of this form, or neither. -/
theorem fits_congr {form : List FormField}
    (h : ∀ x ∈ form, (fields.filter fun f => x.keys.contains f.1) = fields'.filter fun f => x.keys.contains f.1) :
    (obj fields).Fits form ↔ (obj fields').Fits form := by
  rw [fits_obj_iff, fits_obj_iff]
  exact forall₂_congr fun x hx => by rw [part?_congr (h x hx), h x hx]

/-- An object is of a form of two parts when it is of both of them. -/
theorem fits_append_iff {form form' : List FormField} :
    (obj fields).Fits (form ++ form') ↔ (obj fields).Fits form ∧ (obj fields).Fits form' := by
  rw [fits_obj_iff, fits_obj_iff, fits_obj_iff, List.forall_mem_append]

end Fields

section Values

variable {α : Type} {decode : Json → Option α} {j : Json}

/-- Whether a document is a text. -/
def IsText (j : Json) : Prop := ∃ s, j = .str s

/-- Whether a document is a whole number of so many bits. -/
def IsWord (bits : Nat) (j : Json) : Prop := ∃ n : Nat, n < Width.size bits ∧ j = .nat n

/-- Whether a document is an array of items of one kind. -/
def IsListOf (Item : Json → Prop) (j : Json) : Prop := ∃ items, j = .arr items ∧ ∀ i ∈ items, Item i

theorem isSome_text?_iff : j.text?.isSome ↔ j.IsText := by
  cases j <;> simp [text?, IsText]

theorem text?_null : text? .null = none := rfl

theorem isSome_nat?_iff {bits : Nat} : (j.nat? bits).isSome ↔ j.IsWord bits := by
  cases j with
  | int n =>
    rw [nat?]
    constructor
    · intro hsome
      split at hsome
      · next hfit => exact ⟨n.toNat, by omega, congrArg int (Int.toNat_of_nonneg hfit.1).symm⟩
      · cases hsome
    · rintro ⟨m, hm, heq⟩
      obtain rfl : n = m := Json.int.inj heq
      rw [if_pos ⟨Int.natCast_nonneg m, Int.ofNat_lt.mpr hm⟩]
      rfl
  | _ => simp [nat?, IsWord, nat]

theorem isSome_list?_iff : (j.list? decode).isSome ↔ j.IsListOf fun i => (decode i).isSome := by
  cases j <;> simp [list?, items?, IsListOf, AllOrNone.isSome_mapM_iff]

end Values

namespace Record

variable {α : Type} {r : Record} {key : String} {decode : Json → Option α}

theorem orElse_eq_some_iff {default a : α} :
    r.orElse key decode default = some a ↔
      (∀ v, r.raw? key = some v → (decode v).isSome) ∧ a = ((r.raw? key).bind decode).getD default := by
  unfold orElse
  cases r.raw? key with
  | none => exact ⟨fun h => ⟨nofun, (Option.some.inj h).symm⟩, fun h => congrArg some h.2.symm⟩
  | some v =>
    dsimp only
    rw [Option.bind_some]
    cases hv : decode v with
    | none => exact ⟨nofun, fun h => absurd (h.1 v rfl) (by simp [hv])⟩
    | some b =>
      refine ⟨fun h => ⟨fun w hw => ?_, (Option.some.inj h).symm⟩, fun h => congrArg some h.2.symm⟩
      cases hw
      rw [hv]
      rfl

/-- A field that may be null, or left out, is decoded unless it is. -/
theorem maybeOrElse_eq_some_iff (hnull : decode .null = none) {o : Option α} :
    r.maybeOrElse key decode = some o ↔
      (∀ v, r.raw? key = some v → v = .null ∨ (decode v).isSome) ∧ o = (r.raw? key).bind decode := by
  unfold maybeOrElse
  cases r.raw? key with
  | none => exact ⟨fun h => ⟨nofun, (Option.some.inj h).symm⟩, fun h => congrArg some h.2.symm⟩
  | some v =>
    dsimp only
    rw [Option.bind_some]
    by_cases hv : v = .null
    · subst hv
      rw [hnull]
      refine ⟨fun h => ⟨fun w hw => .inl (Option.some.inj hw).symm, (Option.some.inj h).symm⟩, ?_⟩
      exact fun h => congrArg some h.2.symm
    · have hpresent : nullable? decode v = (decode v).map some := by
        cases v with
        | null => exact absurd rfl hv
        | _ => rfl
      rw [hpresent]
      cases hw : decode v with
      | none => exact ⟨nofun, fun h => (h.1 v rfl).elim (absurd · hv) fun hsome => absurd hsome (by simp [hw])⟩
      | some b =>
        refine ⟨fun h => ⟨fun w hw' => ?_, (Option.some.inj h).symm⟩, fun h => congrArg some h.2.symm⟩
        cases hw'
        exact .inr (by rw [hw]; rfl)

section Decoding

variable {β : Type} {x : β}

/-- What is decoded after a field is decoded from what the field has. -/
theorem bind_orElse_eq_some_iff {f : α → Option β} {default : α} :
    (r.orElse key decode default >>= f) = some x ↔
      (∀ v, r.raw? key = some v → (decode v).isSome) ∧ f (((r.raw? key).bind decode).getD default) = some x := by
  simp only [Option.bind_eq_bind, Option.bind_eq_some_iff, orElse_eq_some_iff, and_assoc, exists_and_left,
    exists_eq_left]

theorem bind_maybeOrElse_eq_some_iff (hnull : decode .null = none) {f : Option α → Option β} :
    (r.maybeOrElse key decode >>= f) = some x ↔
      (∀ v, r.raw? key = some v → v = .null ∨ (decode v).isSome) ∧ f ((r.raw? key).bind decode) = some x := by
  simp only [Option.bind_eq_bind, Option.bind_eq_some_iff, maybeOrElse_eq_some_iff hnull, and_assoc, exists_and_left,
    exists_eq_left]

theorem pure_eq_some_iff {y : β} : pure y = some x ↔ x = y :=
  ⟨fun h => (Option.some.inj h).symm, fun h => congrArg some h.symm⟩

end Decoding

end Record

section Shape

variable {keys : List String} {key : String}

theorem nodup_filter_contains_iff (names : List String) :
    (names.filter (keys.contains ·)).Nodup ↔ ∀ key ∈ keys, names.count key ≤ 1 := by
  rw [List.nodup_iff_count_le_one]
  constructor
  · intro h key hkey
    have hcount := h key
    rwa [List.count_filter (by simpa using hkey)] at hcount
  · intro h key
    by_cases hkey : key ∈ keys
    · rw [List.count_filter (by simpa using hkey)]
      exact h key hkey
    · rw [List.count_eq_zero.mpr fun hmem => hkey (by simpa using (List.mem_filter.mp hmem).2)]
      exact Nat.zero_le 1

theorem isSome_record?_obj_iff (fields : List (String × Json)) :
    (record? keys (.obj fields)).isSome ↔ ∀ key ∈ keys, (fields.map Prod.fst).count key ≤ 1 := by
  rw [← nodup_filter_contains_iff, record?]
  have hknown : ((fields.filter fun f => keys.contains f.1).map Prod.fst) =
      (fields.map Prod.fst).filter (keys.contains ·) := by
    rw [List.filter_map]
    rfl
  rw [hknown]
  split
  · next hnodup => exact ⟨fun _ => hnodup, fun _ => rfl⟩
  · next hnot => exact ⟨fun hnone => absurd hnone Bool.false_ne_true, fun hnodup => absurd hnodup hnot⟩

theorem raw?_of_record?_obj {r : Record} {fields : List (String × Json)} (h : record? keys (.obj fields) = some r)
    (hkey : key ∈ keys) : r.raw? key = fields.lookup key := by
  rw [record?] at h
  split at h
  · cases h
    exact lookup_filter hkey fields
  · cases h

/-- The values of an array belong to the keys at their places. -/
theorem lookup_zip (hdistinct : keys.Nodup) {i : Nat} (hi : keys[i]? = some key) (items : List Json) :
    (keys.zip items).lookup key = items[i]? := by
  induction keys generalizing i items with
  | nil => cases hi
  | cons k keys ih =>
    obtain ⟨habsent, hrest⟩ := List.nodup_cons.mp hdistinct
    cases items with
    | nil => rfl
    | cons j items =>
      rw [List.zip_cons_cons, lookup_field]
      cases i with
      | zero =>
        cases hi
        rw [if_pos rfl]
        rfl
      | succ i =>
        have hne : key ≠ k := by
          rintro rfl
          exact habsent (List.mem_of_getElem? hi)
        rw [if_neg hne, ih hrest hi]
        rfl

end Shape

end CodeAtlas.Json
