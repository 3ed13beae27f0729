import CodeAtlas.Proofs.Json.Canonical
import CodeAtlas.Proofs.Lists

/-! Documents without some of their fields. A part of a document has a path, and a set of paths says which fields are left
out, at any depth. What is left holds the same as before, so a structure is decoded from it field by field: a field that
was left out is like one that was never given. -/
namespace CodeAtlas.Json

/-- A step into a document: to a field of an object, or to an item of an array. -/
inductive Step where
  | key (name : String)
  | item (place : ℕ)
deriving DecidableEq

/-- The steps to a part of a document. -/
abbrev Path := List Step

/-- The part of a document at a path. -/
def at? : Path → Json → Option Json
  | [], j => some j
  | .key k :: p, .obj fields => (fields.lookup k).bind (at? p)
  | .item i :: p, .arr items => items[i]?.bind (at? p)
  | _, _ => none

@[simp] theorem at?_nil (j : Json) : j.at? [] = some j := by simp [at?]

@[simp] theorem at?_key (fields : List (String × Json)) (k : String) :
    (Json.obj fields).at? [.key k] = fields.lookup k := by
  cases h : fields.lookup k <;> simp [at?, h]

theorem at?_cons {j doc : Json} {k : String} (h : doc.at? [.key k] = some j) (p : Path) :
    doc.at? (.key k :: p) = j.at? p := by
  cases doc <;> simp_all [at?]

/-- A field of an object holds the same when the fields are sorted, its own fields being sorted too. -/
theorem at?_canonical {fields : List (String × Json)} (h : (fields.map Prod.fst).Nodup) (k : String) :
    (canonical (.obj fields)).at? [.key k] = (fields.lookup k).map canonical := by
  have hkeys : ((fields.map fun f => (f.1, f.2.canonical)).map Prod.fst).Nodup := by
    simpa [Function.comp_def] using h
  rw [canonical_obj, at?_key, lookup_sortFields hkeys, lookup_map]

theorem canonical_list {α : Type} (encode : α → Json) (xs : List α) :
    (list encode xs).canonical = .arr (xs.map fun x => (encode x).canonical) := by
  simp [list, Function.comp_def]

/-- The keys on a path. -/
def Path.keys (p : Path) : List String := p.filterMap fun
  | .key k => some k
  | .item _ => none

/-- A set of paths, as it is seen from a step on. -/
def beyond (out : Path → Bool) (s : Step) : Path → Bool := fun p => out (s :: p)

mutual

/-- A document without the fields at some paths. -/
def prune (out : Path → Bool) : Json → Json
  | .arr items => .arr (pruneItems out 0 items)
  | .obj fields => .obj (pruneFields out fields)
  | j => j

/-- `prune` on each item. -/
def pruneItems (out : Path → Bool) (place : ℕ) : List Json → List Json
  | [] => []
  | j :: items => prune (beyond out (.item place)) j :: pruneItems out (place + 1) items

/-- `prune` on each field that stays. -/
def pruneFields (out : Path → Bool) : List (String × Json) → List (String × Json)
  | [] => []
  | (k, j) :: fields =>
    if out [.key k] then pruneFields out fields
    else (k, prune (beyond out (.key k)) j) :: pruneFields out fields

end

section Prune

variable {out : Path → Bool} {k : String} {fields : List (String × Json)}

theorem prune_obj (out : Path → Bool) (fields : List (String × Json)) :
    prune out (.obj fields) = .obj (pruneFields out fields) := rfl

theorem prune_arr (out : Path → Bool) (items : List Json) : prune out (.arr items) = .arr (pruneItems out 0 items) := rfl

@[simp] theorem prune_str (out : Path → Bool) (s : String) : prune out (.str s) = .str s := rfl

@[simp] theorem prune_bool (out : Path → Bool) (b : Bool) : prune out (.bool b) = .bool b := rfl

@[simp] theorem prune_nat (out : Path → Bool) (n : ℕ) : prune out (.nat n) = .nat n := rfl

@[simp] theorem prune_float (out : Path → Bool) (x : Float) : prune out (.float x) = .float x := rfl

@[simp] theorem pruneItems_nil (out : Path → Bool) (place : ℕ) : pruneItems out place [] = [] := rfl

@[simp] theorem pruneItems_cons (out : Path → Bool) (place : ℕ) (j : Json) (items : List Json) :
    pruneItems out place (j :: items) = prune (beyond out (.item place)) j :: pruneItems out (place + 1) items := rfl

@[simp] theorem pruneFields_nil (out : Path → Bool) : pruneFields out [] = [] := rfl

theorem pruneFields_cons (out : Path → Bool) (k : String) (j : Json) (fields : List (String × Json)) :
    pruneFields out ((k, j) :: fields) =
      if out [.key k] then pruneFields out fields
      else (k, prune (beyond out (.key k)) j) :: pruneFields out fields := rfl

/-- A field that stays holds what it held, without the parts left out there. -/
theorem lookup_pruneFields (k : String) (fields : List (String × Json)) :
    (pruneFields out fields).lookup k =
      if out [.key k] then none else (fields.lookup k).map (prune (beyond out (.key k))) := by
  induction fields with
  | nil => simp
  | cons f fields ih =>
    obtain ⟨key, j⟩ := f
    rw [pruneFields_cons, lookup_field]
    by_cases hk : k = key
    · subst hk
      cases hout : out [.key k] <;> simp [hout, ih]
    · cases hout : out [.key key] <;> simp [ih, lookup_field, hk]

theorem pruneFields_sublist (fields : List (String × Json)) :
    ((pruneFields out fields).map Prod.fst).Sublist (fields.map Prod.fst) := by
  induction fields with
  | nil => simp
  | cons f fields ih =>
    obtain ⟨k, j⟩ := f
    rw [pruneFields_cons]
    split
    · exact ih.trans (List.sublist_cons_self _ _)
    · exact ih.cons_cons k

theorem pruneItems_eq (place : ℕ) (items : List Json) :
    pruneItems out place items = items.mapIdx fun i j => prune (beyond out (.item (place + i))) j := by
  induction items generalizing place with
  | nil => simp
  | cons j items ih => simp [ih, List.mapIdx_cons, Nat.add_comm, Nat.add_left_comm]

theorem getElem?_pruneItems (items : List Json) (i : ℕ) :
    (pruneItems out 0 items)[i]? = items[i]?.map (prune (beyond out (.item i))) := by
  rw [pruneItems_eq, List.getElem?_mapIdx]
  simp

/-- A list is decoded from an array of which each item is decoded, whatever was left out there. -/
theorem list?_prune {α : Type} {encode : α → Json} {decode : Json → Option α} {xs : List α}
    (h : ∀ i x, xs[i]? = some x → decode ((encode x).prune (beyond out (.item i))) = some x) :
    list? decode ((Json.arr (xs.map encode)).prune out) = some xs := by
  have hitems : (pruneItems out 0 (xs.map encode)).map decode = xs.map some := by
    refine List.ext_getElem? fun i => ?_
    rw [List.getElem?_map, getElem?_pruneItems, List.getElem?_map, List.getElem?_map]
    cases hx : xs[i]? with
    | none => rfl
    | some x => simp [h i x hx]
  have hread : (pruneItems out 0 (xs.map encode)).mapM decode = some xs := by
    have hid : ((pruneItems out 0 (xs.map encode)).map decode).mapM id = some xs := by
      rw [hitems, List.mapM_map]
      exact (AllOrNone.mapM_eq_some_map fun _ _ => rfl).trans (congrArg some (List.map_id xs))
    rwa [List.mapM_map] at hid
  rw [prune_arr]
  exact hread

theorem list?_prune_strings (xs : List String) : list? text? ((Json.arr (xs.map .str)).prune out) = some xs :=
  list?_prune fun _ _ _ => by simp [text?]

section Decode

variable {α : Type} {keys : List String} {decode : Record → Option α} {result : Option α}

/-- Whether a structure has the fields of a document that are not left out. -/
def Record.Prunes (r : Record) (keys : List String) (j : Json) (out : Path → Bool) : Prop :=
  ∀ k ∈ keys, r.raw? k = if out [.key k] then none else (j.at? [.key k]).map (prune (beyond out (.key k)))

/-- To decode a structure from an object with fields left out it is enough to know the object's fields. -/
theorem decode_prune (h : (fields.map Prod.fst).Nodup)
    (hdecode : ∀ r : Record, r.Prunes keys (.obj fields) out → decode r = result) :
    (record? keys ((Json.obj fields).prune out) >>= decode) = result := by
  rw [prune_obj]
  apply decode_obj (h.sublist (pruneFields_sublist fields))
  intro r hr
  apply hdecode
  intro k hk
  rw [hr k hk, lookup_pruneFields, at?_key]

/-- The same for an object with its fields sorted. -/
theorem decode_prune_canonical
    (hdecode : ∀ r : Record, r.Prunes keys (canonical (.obj fields)) out → decode r = result) :
    (record? keys ((canonical (.obj fields)).prune out) >>= decode) = result := by
  rw [canonical_obj] at hdecode ⊢
  exact decode_prune (sortedFields_sortFields _).nodup hdecode

end Decode

namespace Record

variable {α : Type} {r : Record} {keys : List String} {decode : Json → Option α} {d : α} {doc : Json}

theorem Prunes.need_eq (h : r.Prunes keys doc out) (hk : k ∈ keys) (hgiven : (doc.at? [.key k]).isSome) :
    r.need k decode = if out [.key k] then none
      else decode (((doc.at? [.key k]).getD .null).prune (beyond out (.key k))) := by
  obtain ⟨j, hj⟩ := Option.isSome_iff_exists.mp hgiven
  rw [need, h k hk, hj]
  cases out [.key k] <;> simp

/-- A field that was left out has its default, any other what it had. -/
theorem Prunes.orElse_eq (h : r.Prunes keys doc out) (hk : k ∈ keys) (hgiven : (doc.at? [.key k]).isSome) :
    r.orElse k decode d = if out [.key k] then some d
      else decode (((doc.at? [.key k]).getD .null).prune (beyond out (.key k))) := by
  obtain ⟨j, hj⟩ := Option.isSome_iff_exists.mp hgiven
  rw [orElse, h k hk, hj]
  cases out [.key k] <;> simp

end Record

/-- Whether only such fields are left out of a document as are listed, each with the keys on the way to it and with what
it holds. -/
def Spares (listed : List (List String × Json)) (out : Path → Bool) (doc : Json) : Prop :=
  ∀ (p : Path) (k : String), out (p ++ [.key k]) = true →
    ∃ v, listed.lookup (p.keys ++ [k]) = some v ∧ doc.at? (p ++ [.key k]) = some v

/-- What is listed for the fields of a field. -/
def under (key : String) (listed : List (List String × Json)) : List (List String × Json) :=
  listed.map fun (keys, v) => (key :: keys, v)

@[simp] theorem lookup_under (key : String) (keys : List String) (listed : List (List String × Json)) :
    (under key listed).lookup (key :: keys) = listed.lookup keys := by
  induction listed with
  | nil => rfl
  | cons f listed ih =>
    have hbeq : (key :: keys == key :: f.1) = (keys == f.1) := by
      rw [Bool.eq_iff_iff]
      simp
    rw [under, List.map_cons, List.lookup_cons, List.lookup_cons, hbeq, ← ih, under]

@[simp] theorem lookup_under_nil (key : String) (listed : List (List String × Json)) :
    (under key listed).lookup [] = none := by
  rw [List.lookup_eq_none_iff]
  intro f hf
  obtain ⟨g, -, rfl⟩ := List.mem_map.mp hf
  simp

theorem lookup_under_ne {key k : String} (h : k ≠ key) (keys : List String) (listed : List (List String × Json)) :
    (under key listed).lookup (k :: keys) = none := by
  rw [List.lookup_eq_none_iff]
  intro f hf
  obtain ⟨g, -, rfl⟩ := List.mem_map.mp hf
  simp [h]

theorem Path.keys_append_key (p : Path) (k : String) : Path.keys (p ++ [.key k]) = p.keys ++ [k] := by
  simp [Path.keys]

namespace Spares

variable {α : Type} {r : Record} {keys : List String} {decode : Json → Option α} {d : α} {j doc : Json}
  {listed part : List (List String × Json)}

/-- Single fields are left out of a document, each of them listed. -/
theorem of_paths {paths : List Path}
    (h : ∀ p ∈ paths, (listed.lookup p.keys).isSome ∧ doc.at? p = listed.lookup p.keys) :
    Spares listed (fun p => decide (p ∈ paths)) doc := by
  intro p k hout
  obtain ⟨hsome, hat⟩ := h _ (of_decide_eq_true hout)
  obtain ⟨v, hv⟩ := Option.isSome_iff_exists.mp hsome
  rw [hat, ← Path.keys_append_key]
  exact ⟨v, hv, hv⟩

/-- Within a field only such fields are left out as are listed for it. -/
theorem under (h : Spares listed out doc) (hj : doc.at? [.key k] = some j)
    (hpart : ∀ k' keys, listed.lookup (k :: k' :: keys) = part.lookup (k' :: keys)) :
    Spares part (beyond out (.key k)) j := by
  intro p k' hout
  obtain ⟨v, hv, hat⟩ := h (.key k :: p) k' hout
  have hlookup : listed.lookup (k :: (p.keys ++ [k'])) = part.lookup (p.keys ++ [k']) := by
    cases hkeys : p.keys with
    | nil => exact hpart k' []
    | cons k'' keys => exact hpart k'' (keys ++ [k'])
  refine ⟨v, hlookup ▸ hv, ?_⟩
  rwa [List.cons_append, at?_cons hj] at hat

/-- The same list holds for each item of an array. -/
theorem item {items : List Json} (h : Spares listed out (.arr items)) {i : ℕ} (hj : items[i]? = some j) :
    Spares listed (beyond out (.item i)) j := by
  intro p k' hout
  obtain ⟨v, hv, hat⟩ := h (.item i :: p) k' hout
  refine ⟨v, hv, ?_⟩
  simpa [at?, hj] using hat

/-- A field that is not listed stays. -/
theorem need_eq (h : Spares listed out doc) (hr : r.Prunes keys doc out) (hk : k ∈ keys)
    (hgiven : (doc.at? [.key k]).isSome) (hlisted : listed.lookup [k] = none) :
    r.need k decode = decode (((doc.at? [.key k]).getD .null).prune (beyond out (.key k))) := by
  rw [hr.need_eq hk hgiven, if_neg]
  intro hout
  obtain ⟨v, hv, -⟩ := h [] k hout
  simp [hlisted, Path.keys] at hv

/-- A field that is left out only when it holds its default is decoded as if it had stayed. -/
theorem orElse_eq (h : Spares listed out doc) (hr : r.Prunes keys doc out) (hk : k ∈ keys)
    (hgiven : (doc.at? [.key k]).isSome)
    (hlisted : (listed.lookup [k]).map (fun v => decode (v.prune (beyond out (.key k)))) = some (some d)) :
    r.orElse k decode d = decode (((doc.at? [.key k]).getD .null).prune (beyond out (.key k))) := by
  rw [hr.orElse_eq hk hgiven]
  split
  · next hout =>
    obtain ⟨v, hv, hat⟩ := h [] k hout
    have hdefault : decode (v.prune (beyond out (.key k))) = some d := by
      simpa [show listed.lookup [k] = some v from hv] using hlisted
    rw [List.nil_append] at hat
    rw [hat, Option.getD_some, hdefault]
  · rfl

/-- Of an array of records each item is decoded, when it is decoded with the fields left out that are listed. -/
theorem list?_eq {encode : α → Json} {decode : Json → Option α} {xs : List α}
    (h : Spares listed out (list encode xs).canonical)
    (hitem : ∀ x ∈ xs, ∀ out, Spares listed out (encode x).canonical → decode ((encode x).canonical.prune out) = some x) :
    list? decode ((list encode xs).canonical.prune out) = some xs := by
  rw [canonical_list] at h ⊢
  apply list?_prune
  intro i x hx
  apply hitem x (List.mem_of_getElem? hx)
  exact h.item (by simp [hx])

/-- The same for an array in a field. -/
theorem list?_field_eq {encode : α → Json} {decode : Json → Option α} {xs : List α} (h : Spares listed out doc)
    (hfield : doc.at? [.key k] = some (list encode xs).canonical)
    (hpart : ∀ k' keys, listed.lookup (k :: k' :: keys) = part.lookup (k' :: keys))
    (hitem : ∀ x ∈ xs, ∀ out, Spares part out (encode x).canonical → decode ((encode x).canonical.prune out) = some x) :
    list? decode ((list encode xs).canonical.prune (beyond out (.key k))) = some xs :=
  (h.under hfield hpart).list?_eq hitem

end Spares

end Prune

end CodeAtlas.Json
