import CodeAtlas.Findings.Reply
import CodeAtlas.Proofs.Json.Forms

/-! What a reply has to be like to be read. Every part of it has a form, and a reply is read when it is an object of the
form of replies that carries a purpose: one field that does not hold what it may hold, and all is lost. -/
namespace CodeAtlas.Findings.Reply

open Json (Fits FormField IsListOf IsShaped IsText IsWord Record part? record?)

section Renamed

variable {proper : List (String × String)} {keys : List String} {key : String} {j : Json}

/-- The keys that stand for a proper key. -/
def spellings (proper : List (String × String)) (key : String) : List String :=
  key :: (proper.filter (·.2 == key)).map Prod.fst

/-- Whether keys are told apart by a renaming, which none of them is subject to. -/
structure IsRenaming (proper : List (String × String)) (keys : List String) : Prop where
  once : (proper.map Prod.fst).Nodup
  distinct : keys.Nodup
  apart : ∀ key ∈ keys, key ∉ proper.map Prod.fst

/-- A key stands for a proper one when it is that key or is renamed to it. -/
theorem getD_lookup_eq_iff (hdistinct : (proper.map Prod.fst).Nodup) (hkey : key ∉ proper.map Prod.fst) (k : String) :
    (proper.lookup k).getD k = key ↔ k ∈ spellings proper key := by
  unfold spellings
  induction proper with
  | nil => simp
  | cons p proper ih =>
    obtain ⟨old, new⟩ := p
    obtain ⟨hhead, htail⟩ := List.nodup_cons.mp hdistinct
    obtain ⟨hne, hrest⟩ := not_or.mp (mt List.mem_cons.mpr hkey)
    have hlater := ih htail hrest
    by_cases hk : k = old
    · subst hk
      have habsent : k ∉ (proper.filter (·.2 == key)).map Prod.fst := fun hmem =>
        hhead ((List.filter_sublist.map Prod.fst).subset hmem)
      rw [List.lookup_cons_self]
      by_cases hnew : new = key
      · simp [hnew]
      · simpa [hnew, Ne.symm hne] using habsent
    · rw [List.lookup_cons, beq_eq_false_iff_ne.mpr hk, hlater]
      by_cases hnew : new = key <;> simp [hnew, hk]

theorem lookup_renamed (h : IsRenaming proper keys) (hkey : key ∈ keys) (fields : List (String × Json)) (place : Nat) :
    (fields.map fun f => ((proper.lookup f.1).getD f.1, f.2)).lookup key =
      (Json.obj fields).part? (spellings proper key) place := by
  rw [part?]
  induction fields with
  | nil => rfl
  | cons f fields ih =>
    have hstands := getD_lookup_eq_iff h.once (h.apart key hkey) f.1
    rw [List.map_cons, Json.lookup_field, List.find?_cons]
    by_cases hf : f.1 ∈ spellings proper key
    · rw [if_pos (hstands.mpr hf).symm, List.contains_iff_mem.mpr hf]
      rfl
    · rw [if_neg fun heq => hf (hstands.mp heq.symm), ih, List.contains_eq_mem, decide_eq_false hf]

theorem count_renamed (h : IsRenaming proper keys) (hkey : key ∈ keys) (fields : List (String × Json)) :
    ((fields.map fun f => ((proper.lookup f.1).getD f.1, f.2)).map Prod.fst).count key =
      fields.countP fun f => (spellings proper key).contains f.1 := by
  rw [List.map_map, List.count, List.countP_map]
  refine List.countP_congr fun f _ => ?_
  rw [Function.comp_apply, Function.comp_apply, beq_iff_eq, List.contains_iff_mem]
  exact getD_lookup_eq_iff h.once (h.apart key hkey) f.1

/-- A document is seen as a structure when it has the fields of the structure, whatever they hold. -/
theorem isSome_record?_renamed_iff (h : IsRenaming proper keys) :
    (record? keys (renamed proper j)).isSome ↔ j.IsShaped (keys.map (spellings proper)) := by
  cases j with
  | obj fields =>
    rw [renamed, Json.isSome_record?_obj_iff, IsShaped, List.forall_mem_map]
    exact forall₂_congr fun key hkey => by rw [count_renamed h hkey]
  | arr items =>
    change (record? keys (.arr items)).isSome ↔ _
    rw [record?, IsShaped, List.length_map]
    split
    · next hfew => exact ⟨fun _ => hfew, fun _ => rfl⟩
    · next hmany => exact ⟨fun hnone => absurd hnone Bool.false_ne_true, fun hfew => absurd hfew hmany⟩
  | _ => exact ⟨fun hnone => absurd hnone Bool.false_ne_true, False.elim⟩

/-- What a structure is given for a field is what the document has under a key that stands for it. -/
theorem raw?_eq_part? (h : IsRenaming proper keys) {r : Record} (hr : record? keys (renamed proper j) = some r) :
    ∀ x ∈ keys.zipIdx, r.raw? x.1 = j.part? (spellings proper x.1) x.2 := by
  rintro ⟨key, i⟩ hmem
  have hi : keys[i]? = some key := List.mem_zipIdx_iff_getElem?.mp hmem
  have hkey : key ∈ keys := List.mem_of_getElem? hi
  cases j with
  | obj fields => rw [Json.raw?_of_record?_obj hr hkey, ← lookup_renamed h hkey fields i]
  | arr items =>
    change record? keys (.arr items) = some r at hr
    rw [record?] at hr
    split at hr
    · cases hr
      exact Json.lookup_zip h.distinct hi items
    · cases hr
  | _ => cases hr

theorem renamed_nil (j : Json) : renamed [] j = j := by
  cases j with
  | obj fields => exact congrArg Json.obj (List.map_id fields)
  | _ => rfl

/-- A structure that is decoded field by field is decoded from the documents of its form. -/
theorem bind_record?_eq_some_iff {α : Type} {form : List FormField} {decode : Record → Option α} {x : α} {P : Prop}
    (h : IsRenaming proper keys) (hform : form.map FormField.keys = keys.map (spellings proper))
    (hdecode : ∀ r : Record, (∀ y ∈ keys.zipIdx, r.raw? y.1 = j.part? (spellings proper y.1) y.2) →
      (decode r = some x ↔ (∀ y ∈ form.zipIdx, ∀ v, j.part? y.1.keys y.2 = some v → y.1.Holds v) ∧ P)) :
    (record? keys (renamed proper j) >>= decode) = some x ↔ j.Fits form ∧ P := by
  have hshape := isSome_record?_renamed_iff (j := j) h
  cases hr : record? keys (renamed proper j) with
  | none =>
    refine ⟨nofun, fun ⟨hfits, _⟩ => ?_⟩
    have hsome := hshape.mpr (hform ▸ hfits.shape)
    rw [hr] at hsome
    cases hsome
  | some r =>
    have hshaped : j.IsShaped (form.map FormField.keys) := hform ▸ hshape.mp (by rw [hr]; rfl)
    rw [Option.bind_eq_bind, Option.bind_some, hdecode r (raw?_eq_part? h hr)]
    exact and_congr_left fun _ => ⟨fun hparts => ⟨hshaped, hparts⟩, fun hfits => hfits.parts⟩

theorem bind_record?_eq_some_iff_of_nodup {α : Type} {form : List FormField} {decode : Record → Option α} {x : α}
    {P : Prop} (h : keys.Nodup) (hform : form.map FormField.keys = keys.map fun key => [key])
    (hdecode : ∀ r : Record, (∀ y ∈ keys.zipIdx, r.raw? y.1 = j.part? [y.1] y.2) →
      (decode r = some x ↔ (∀ y ∈ form.zipIdx, ∀ v, j.part? y.1.keys y.2 = some v → y.1.Holds v) ∧ P)) :
    (record? keys j >>= decode) = some x ↔ j.Fits form ∧ P := by
  have hplain : IsRenaming [] keys := ⟨List.nodup_nil, h, fun _ _ => List.not_mem_nil⟩
  rw [← bind_record?_eq_some_iff hplain hform hdecode, renamed_nil]

end Renamed

section Parts

/-- Whether a document is null or has a property. -/
def IsNullOr (P : Json → Prop) (j : Json) : Prop := j = .null ∨ P j

/-- A text among the parts of a document, empty when it is not there. -/
def textPart (keys : List String) (place : Nat) (j : Json) : String := ((j.part? keys place).bind Json.text?).getD ""

/-- A text among the parts of a document, if it is there. -/
def wordPart? (keys : List String) (place : Nat) (j : Json) : Option String := (j.part? keys place).bind Json.text?

/-- A line number among the parts of a document, zero when it is not there. -/
def linePart (keys : List String) (place : Nat) (j : Json) : Nat :=
  ((j.part? keys place).bind (Json.nat? 32)).getD 0

/-- The items of an array among the parts of a document. -/
def itemsPart (keys : List String) (place : Nat) (j : Json) : List Json :=
  ((j.part? keys place).bind Json.items?).getD []

/-- The fields of a rule in a reply. -/
def ruleForm : List FormField := [
  ⟨["rule_text", "rule", "description"], IsText⟩, ⟨["rule_type"], IsText⟩, ⟨["condition"], IsText⟩,
  ⟨["consequence"], IsText⟩, ⟨["line_start"], IsWord 32⟩, ⟨["line_end"], IsWord 32⟩,
  ⟨["confidence"], IsNullOr IsText⟩]

/-- The rule that a document of this form tells of. -/
def ruleOf (file : String) (j : Json) : Rule where
  text := textPart ["rule_text", "rule", "description"] 0 j
  kind := textPart ["rule_type"] 1 j
  condition := textPart ["condition"] 2 j
  consequence := textPart ["consequence"] 3 j
  file := file
  lineStart := linePart ["line_start"] 4 j
  lineEnd := linePart ["line_end"] 5 j
  level := levelOf (wordPart? ["confidence"] 6 j)

/-- The fields of a risk in a reply. -/
def riskForm : List FormField := [
  ⟨["title"], IsText⟩, ⟨["risk_type"], IsText⟩, ⟨["severity"], IsNullOr IsText⟩, ⟨["description"], IsText⟩,
  ⟨["line"], IsWord 32⟩, ⟨["recommendations"], IsListOf IsText⟩, ⟨["recommendation"], IsNullOr IsText⟩,
  ⟨["confidence"], IsNullOr IsText⟩]

/-- The risk that a document of this form tells of. -/
def riskOf (file : String) (j : Json) : Risk where
  title := textPart ["title"] 0 j
  kind := textPart ["risk_type"] 1 j
  severity := severityOf (wordPart? ["severity"] 2 j)
  description := textPart ["description"] 3 j
  file := file
  line := linePart ["line"] 4 j
  recommendations := ((j.part? ["recommendations"] 5).bind (Json.list? Json.text?)).getD [] ++
    (wordPart? ["recommendation"] 6 j).toList
  level := levelOf (wordPart? ["confidence"] 7 j)

variable {file : String} {j : Json}

theorem rule?_eq_some_iff {x : Rule} : rule? file j = some x ↔ j.Fits ruleForm ∧ x = ruleOf file j := by
  refine bind_record?_eq_some_iff ⟨by decide, by decide, by decide⟩ rfl fun r hraw => ?_
  simp only [List.zipIdx_cons, List.zipIdx_nil, List.forall_mem_cons, Nat.reduceAdd, spellings, List.filter_cons,
    List.filter_nil, String.reduceBEq, Bool.false_eq_true, reduceIte, List.map_cons, List.map_nil] at hraw
  simp only [Record.bind_orElse_eq_some_iff, Record.bind_maybeOrElse_eq_some_iff Json.text?_null,
    Record.pure_eq_some_iff, Json.isSome_text?_iff, Json.isSome_nat?_iff, hraw, ruleForm, List.zipIdx_cons,
    List.zipIdx_nil, List.forall_mem_cons, List.not_mem_nil, false_implies, implies_true, Nat.reduceAdd, and_assoc,
    true_and]
  rfl

theorem risk?_eq_some_iff {x : Risk} : risk? file j = some x ↔ j.Fits riskForm ∧ x = riskOf file j := by
  refine bind_record?_eq_some_iff_of_nodup (by decide) rfl fun r hraw => ?_
  simp only [List.zipIdx_cons, List.zipIdx_nil, List.forall_mem_cons, Nat.reduceAdd] at hraw
  simp only [Record.bind_orElse_eq_some_iff, Record.bind_maybeOrElse_eq_some_iff Json.text?_null,
    Record.pure_eq_some_iff, Json.isSome_text?_iff, Json.isSome_nat?_iff, Json.isSome_list?_iff, hraw, riskForm,
    List.zipIdx_cons, List.zipIdx_nil, List.forall_mem_cons, List.not_mem_nil, false_implies, implies_true,
    Nat.reduceAdd, and_assoc, true_and]
  -- the recommendations are read before the other fields
  tauto

/-- The fields of a narrative in a reply. -/
def narrativeForm : List FormField := [
  ⟨["purpose"], IsNullOr IsText⟩, ⟨["behaviors"], IsListOf fun _ => True⟩, ⟨["concepts"], IsListOf fun _ => True⟩,
  ⟨["domain_concepts"], IsListOf fun _ => True⟩, ⟨["confidence"], IsNullOr IsText⟩]

/-- The narrative that a document of this form tells of. -/
def narrativeOf (j : Json) : RawNarrative where
  purpose := wordPart? ["purpose"] 0 j
  behaviors := ((j.part? ["behaviors"] 1).bind (Json.list? anyItem?)).getD []
  concepts := ((j.part? ["concepts"] 2).bind (Json.list? anyItem?)).getD []
  domainConcepts := ((j.part? ["domain_concepts"] 3).bind (Json.list? anyItem?)).getD []
  level := wordPart? ["confidence"] 4 j

theorem decode?_eq_some_iff {x : RawNarrative} :
    RawNarrative.decode? j = some x ↔ j.Fits narrativeForm ∧ x = narrativeOf j := by
  refine bind_record?_eq_some_iff_of_nodup (by decide) rfl fun r hraw => ?_
  have hany : ∀ i, (anyItem? i).isSome = true ↔ True := fun i => ⟨fun _ => trivial, fun _ => rfl⟩
  simp only [narrativeKeys, List.zipIdx_cons, List.zipIdx_nil, List.forall_mem_cons, Nat.reduceAdd] at hraw
  simp only [Record.bind_orElse_eq_some_iff, Record.bind_maybeOrElse_eq_some_iff Json.text?_null,
    Record.pure_eq_some_iff, Json.isSome_text?_iff, Json.isSome_list?_iff, hany, hraw, narrativeForm, List.zipIdx_cons,
    List.zipIdx_nil, List.forall_mem_cons, List.not_mem_nil, false_implies, implies_true, Nat.reduceAdd, and_assoc,
    true_and]
  rfl

theorem decode?_null : RawNarrative.decode? .null = none := rfl

theorem isSome_rule?_iff : (rule? file j).isSome ↔ j.Fits ruleForm := by
  simp [Option.isSome_iff_exists, rule?_eq_some_iff]

theorem isSome_risk?_iff : (risk? file j).isSome ↔ j.Fits riskForm := by
  simp [Option.isSome_iff_exists, risk?_eq_some_iff]

theorem isSome_decode?_iff : (RawNarrative.decode? j).isSome ↔ j.Fits narrativeForm := by
  simp [Option.isSome_iff_exists, decode?_eq_some_iff]

end Parts

section Whole

/-- The fields of a reply beside those of a narrative. -/
def ownForm : List FormField := [
  ⟨["narrative"], IsNullOr (Fits narrativeForm)⟩, ⟨["business_rules", "rules"], IsListOf (Fits ruleForm)⟩,
  ⟨["risks"], IsListOf (Fits riskForm)⟩]

/-- The fields of a reply, which may have those of a narrative among them. -/
def replyForm : List FormField := ownForm ++ narrativeForm

/-- The document in which a reply says what a chunk is for: its narrative or, when it has none, the reply itself. -/
def teller (j : Json) : Json :=
  match j.part? ["narrative"] 0 with
  | none | some .null => j
  | some own => own

/-- The rules that a reply tells of. -/
def rulesIn (file : String) (j : Json) : List Rule := (itemsPart ["business_rules", "rules"] 1 j).map (ruleOf file)

/-- The risks that a reply tells of. -/
def risksIn (file : String) (j : Json) : List Risk := (itemsPart ["risks"] 2 j).map (riskOf file)

variable {file : String} {fields : List (String × Json)}

/-- The fields of a reply that may belong to a narrative stay what they are when its rules are renamed. -/
theorem filter_narrative_field {key : String} (hkey : key ∈ narrativeKeys) :
    (((fields.map fun f => (([("rules", "business_rules")].lookup f.1).getD f.1, f.2)).filter
      fun f => !ownKeys.contains f.1).filter fun f => [key].contains f.1) =
      fields.filter fun f => [key].contains f.1 := by
  have hfixed : ∀ key ∈ narrativeKeys, ownKeys.contains key = false ∧
      ([("rules", "business_rules")].lookup key).getD key = key ∧
      key ∉ [("rules", "business_rules")].map Prod.fst ∧ spellings [("rules", "business_rules")] key = [key] := by
    decide
  obtain ⟨hown, hsame, hproper, honly⟩ := hfixed key hkey
  -- a field under the key is neither renamed nor left out, and no other field is renamed to it
  induction fields with
  | nil => rfl
  | cons f fields ih =>
    have hstands := getD_lookup_eq_iff (by decide) hproper f.1
    rw [honly] at hstands
    by_cases hf : f.1 = key
    · have hname : ([("rules", "business_rules")].lookup f.1).getD f.1 = f.1 := by rw [hf, hsame]
      have hkept : ownKeys.contains f.1 = false := by rw [hf, hown]
      have hfound : [key].contains f.1 = true := by rw [hf, List.contains_iff_mem, List.mem_singleton]
      simp only [List.map_cons, List.filter_cons, hname, hkept, hfound, Bool.not_false, reduceIte, ih]
    · have hname : [key].contains (([("rules", "business_rules")].lookup f.1).getD f.1) = false := by
        rwa [← Bool.not_eq_true, List.contains_iff_mem, List.mem_singleton, hstands, List.mem_singleton]
      have hleft : [key].contains f.1 = false := by
        rwa [← Bool.not_eq_true, List.contains_iff_mem, List.mem_singleton]
      rw [List.map_cons, List.filter_cons]
      split <;> simp only [List.filter_cons, hname, hleft, Bool.false_eq_true, reduceIte, ih]

theorem fits_narrative_fields_iff :
    (otherFields (renamed [("rules", "business_rules")] (.obj fields))).Fits narrativeForm ↔
      (Json.obj fields).Fits narrativeForm := by
  refine Json.fits_congr fun x hx => ?_
  have hkeys : ∀ x ∈ narrativeForm, ∃ key ∈ narrativeKeys, x.keys = [key] := by
    simp [narrativeForm, narrativeKeys]
  obtain ⟨key, hkey, hx'⟩ := hkeys x hx
  rw [hx']
  exact filter_narrative_field hkey

theorem decode?_narrative_fields_eq_some_iff {x : RawNarrative} :
    RawNarrative.decode? (otherFields (renamed [("rules", "business_rules")] (.obj fields))) = some x ↔
      (Json.obj fields).Fits narrativeForm ∧ x = narrativeOf (.obj fields) := by
  have hpart : ∀ key ∈ narrativeKeys, ∀ place,
      (otherFields (renamed [("rules", "business_rules")] (.obj fields))).part? [key] place =
        (Json.obj fields).part? [key] place := fun key hkey place =>
    Json.part?_congr (filter_narrative_field hkey) place
  simp only [narrativeKeys, List.forall_mem_cons] at hpart
  rw [decode?_eq_some_iff, fits_narrative_fields_iff]
  simp only [narrativeOf, wordPart?, hpart]

theorem getD_narrative (h : ∀ v, (Json.obj fields).part? ["narrative"] 0 = some v → IsNullOr (Fits narrativeForm) v) :
    (((Json.obj fields).part? ["narrative"] 0).bind RawNarrative.decode?).getD (narrativeOf (.obj fields)) =
      narrativeOf (teller (.obj fields)) := by
  unfold teller
  cases hown : (Json.obj fields).part? ["narrative"] 0 with
  | none => rfl
  | some own =>
    obtain rfl | hfits := h own hown
    · rfl
    · rw [Option.bind_some, decode?_eq_some_iff.mpr ⟨hfits, rfl⟩, Option.getD_some]
      cases own with
      | null => exact absurd hfits.shape id
      | _ => rfl

theorem getD_list? {α : Type} {decode : Json → Option α} {read : Json → α} {P : Json → Prop} {o : Option Json}
    (hread : ∀ i, P i → decode i = some (read i)) (h : ∀ v, o = some v → IsListOf P v) :
    (o.bind (Json.list? decode)).getD [] = ((o.bind Json.items?).getD []).map read := by
  cases o with
  | none => rfl
  | some v =>
    obtain ⟨items, rfl, hitems⟩ := h v rfl
    rw [Option.bind_some, Option.bind_some, Json.list?, Json.items?, Option.bind_some,
      AllOrNone.mapM_eq_some_map fun i hi => hread i (hitems i hi)]
    rfl

theorem findings?_obj_eq_some_iff {x : ChunkFindings} :
    findings? file (.obj fields) = some x ↔
      (Json.obj fields).Fits ownForm ∧ (Json.obj fields).Fits narrativeForm ∧
        ∃ n, (narrativeOf (teller (.obj fields))).toNarrative? file = some n ∧
          x = ⟨n, (rulesIn file (.obj fields)).filter fun r => !Text.blank r.text,
            (risksIn file (.obj fields)).filter fun r => !Text.blank r.title⟩ := by
  have hrenaming : IsRenaming [("rules", "business_rules")] ownKeys := ⟨by decide, by decide, by decide⟩
  refine bind_record?_eq_some_iff (j := .obj fields) hrenaming rfl fun r hraw => ?_
  simp only [ownKeys, List.zipIdx_cons, List.zipIdx_nil, List.forall_mem_cons, Nat.reduceAdd, spellings,
    List.filter_cons, List.filter_nil, String.reduceBEq, Bool.false_eq_true, reduceIte, List.map_cons,
    List.map_nil] at hraw
  simp only [Record.bind_orElse_eq_some_iff, Record.bind_maybeOrElse_eq_some_iff decode?_null, isSome_decode?_iff,
    isSome_rule?_iff, isSome_risk?_iff, Json.isSome_list?_iff, hraw, ownForm, List.zipIdx_cons, List.zipIdx_nil,
    List.forall_mem_cons, List.not_mem_nil, false_implies, implies_true, Nat.reduceAdd, and_assoc, true_and]
  refine and_congr_right fun hnarrative => and_congr_right fun hrules => and_congr_right fun hrisks => ?_
  simp only [Option.bind_eq_bind, Option.bind_eq_some_iff, decode?_narrative_fields_eq_some_iff,
    Record.pure_eq_some_iff, and_assoc, exists_and_left, exists_eq_left]
  rw [getD_narrative hnarrative, getD_list? (fun i hi => rule?_eq_some_iff.mpr ⟨hi, rfl⟩) hrules,
    getD_list? (fun i hi => risk?_eq_some_iff.mpr ⟨hi, rfl⟩) hrisks]
  rfl

theorem findings?_eq_none_of_not_object {j : Json} (h : ∀ fields, j ≠ .obj fields) : findings? file j = none := by
  cases j with
  | obj fields => exact absurd rfl (h fields)
  | _ => rfl

/-- Whether a reply says what a chunk is for. -/
def CarriesPurpose (j : Json) : Prop :=
  ∃ purpose, (teller j).part? ["purpose"] 0 = some (.str purpose) ∧ Text.blank purpose = false

theorem purpose_narrativeOf_eq_some_iff {j : Json} {purpose : String} :
    (narrativeOf j).purpose = some purpose ↔ j.part? ["purpose"] 0 = some (.str purpose) := by
  rw [narrativeOf, wordPart?, Option.bind_eq_some_iff]
  constructor
  · rintro ⟨v, hv, htext⟩
    cases v with
    | str s => rw [hv, Option.some.inj htext]
    | _ => cases htext
  · exact fun h => ⟨.str purpose, h, rfl⟩

theorem isSome_toNarrative?_iff (file : String) {j : Json} :
    ((narrativeOf (teller j)).toNarrative? file).isSome ↔ CarriesPurpose j := by
  simp only [RawNarrative.toNarrative?, Option.isSome_map, Option.isSome_filter, CarriesPurpose,
    ← purpose_narrativeOf_eq_some_iff]
  cases (narrativeOf (teller j)).purpose <;> simp

/-- A reply is read just when it is an object of the form of replies, in every field, and says what the chunk is for. -/
theorem legible_iff (text : String) (c : Chunk) :
    (read? text c).isSome ↔ ∃ fields, Models.documentOf? text = some (.obj fields) ∧
      (Json.obj fields).Fits replyForm ∧ CarriesPurpose (.obj fields) := by
  have hobject : ∀ fields, (findings? c.file (.obj fields)).isSome ↔
      (Json.obj fields).Fits replyForm ∧ CarriesPurpose (.obj fields) := fun fields => by
    rw [replyForm, Json.fits_append_iff, and_assoc, ← isSome_toNarrative?_iff c.file,
      Option.isSome_iff_exists, Option.isSome_iff_exists]
    simp only [findings?_obj_eq_some_iff]
    constructor
    · rintro ⟨_, hown, hnarrative, n, hn, -⟩
      exact ⟨hown, hnarrative, n, hn⟩
    · rintro ⟨hown, hnarrative, n, hn⟩
      exact ⟨_, hown, hnarrative, n, hn, rfl⟩
  rw [read?]
  cases hdocument : Models.documentOf? text with
  | none => simp
  | some j =>
    rw [Option.bind_some]
    cases j with
    | obj fields => simp [hobject]
    | _ => simp [findings?_eq_none_of_not_object]

/-- A reply that says what a chunk is for is lost when it says null where it could say nothing. -/
theorem illegible_of_null :
    ¬ ∀ text c fields, Models.documentOf? text = some (.obj fields) → CarriesPurpose (.obj fields) →
      (read? text c).isSome := by
  have hdocument : Models.documentOf? "\x7b\"purpose\": \"Greets\", \"risks\": null\x7d" =
      some (.obj [("purpose", .str "Greets"), ("risks", .null)]) := by cbv
  have hlost : (read? "\x7b\"purpose\": \"Greets\", \"risks\": null\x7d"
      ⟨"a.py", "python", 1, 2, "", none⟩).isSome = false := by decide +kernel
  intro h
  have hread := h _ ⟨"a.py", "python", 1, 2, "", none⟩ _ hdocument ⟨"Greets", rfl, by decide⟩
  rw [hlost] at hread
  cases hread

end Whole

end CodeAtlas.Findings.Reply
