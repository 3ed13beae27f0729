import CodeAtlas.Findings.Codec
import CodeAtlas.Findings.Reply
import CodeAtlas.Proofs.Lists
import CodeAtlas.Proofs.Json.Canonical

/-! Findings are decoded from their documents as they were, as long as their line numbers fit 32 bits. -/
namespace CodeAtlas

namespace Json

/-- Whether a number is decoded as a line number. -/
def IsLine (n : Nat) : Prop := n < Width.size 32

theorem line?_nat {n : Nat} (h : IsLine n) : line? (.nat n) = some n := nat?_nat h

theorem IsLine.exact {n : Nat} (h : IsLine n) (depth : Nat) : Exact depth (.nat n) := by
  have hsize : Width.size 32 ≤ Width.size 64 := by decide
  unfold IsLine at h
  exact .int _ ⟨by omega, by omega⟩

theorem exact_list {α : Type} (encode : α → Json) {depth : Nat} {xs : List α}
    (h : ∀ x ∈ xs, Exact depth (encode x)) : Exact (depth + 1) (list encode xs) := by
  refine .arr fun j hj => ?_
  obtain ⟨x, hx, rfl⟩ := List.mem_map.mp hj
  exact h x hx

theorem exact_strings (depth : Nat) (xs : List String) : Exact (depth + 1) (strings xs) :=
  exact_list .str fun x _ => .str depth x

theorem list?_canonical {α : Type} (encode : α → Json) {decode : Json → Option α} {xs : List α}
    (h : ∀ x ∈ xs, decode (encode x).canonical = some x) :
    list? decode (list encode xs).canonical = some xs := by
  have hmap : (xs.map fun x => (encode x).canonical).mapM decode = some xs := by
    have hid : ∀ x ∈ xs, decode (encode x).canonical = some (id x) := h
    rw [List.mapM_map]
    exact (AllOrNone.mapM_eq_some_map hid).trans (congrArg some (List.map_id xs))
  simpa [list, list?, items?, Function.comp_def] using hmap

/-- Every item of a list that was decoded is an item decoded. -/
theorem exists_of_mem_list? {α : Type} {decode : Json → Option α} {j : Json} {xs : List α}
    (h : list? decode j = some xs) {x : α} (hx : x ∈ xs) : ∃ i, decode i = some x := by
  obtain ⟨items, -, hitems⟩ := Option.bind_eq_some_iff.mp h
  exact AllOrNone.exists_of_mem_mapM hitems hx

theorem list?_strings (xs : List String) : list? text? (strings xs).canonical = some xs :=
  list?_canonical .str fun x _ => by simp [text?]

end Json

theorem Level.decode?_encode (l : Level) : Level.decode? l.encode.canonical = some l := by
  cases l <;> simp [Level.decode?, Level.encode, Json.oneOf?, Level.all, Level.text]

namespace Findings

theorem Severity.decode?_text (x : Severity) : Severity.decode? (.str x.text) = some x := by
  cases x <;> simp [Severity.decode?, Json.oneOf?, Severity.all, Severity.text]

/-- Whether the lines of a behaviour fit. -/
def Behavior.Fits (b : Behavior) : Prop := Json.IsLine b.lineStart ∧ Json.IsLine b.lineEnd

/-- Whether the lines of a narrative fit. -/
def Narrative.Fits (n : Narrative) : Prop := ∀ b ∈ n.behaviors, b.Fits

/-- Whether the lines of a rule fit. -/
def Rule.Fits (x : Rule) : Prop := Json.IsLine x.lineStart ∧ Json.IsLine x.lineEnd

/-- Whether the line of a risk fits. -/
def Risk.Fits (x : Risk) : Prop := Json.IsLine x.line

theorem Behavior.decode?_encode {b : Behavior} (h : b.Fits) : Behavior.decode? b.encode.canonical = some b := by
  have hstart := Json.line?_nat h.1
  have hend := Json.line?_nat h.2
  refine Json.decode_canonical (by simp) fun r hraw => ?_
  simp [Json.Record.need, Json.Record.orElse, hraw, Json.lookup_field, Json.text?, hstart, hend]

theorem Behavior.exact_encode {b : Behavior} (h : b.Fits) : Json.Exact 1 b.encode := by
  refine .obj (List.forall_mem_cons.mpr ⟨.str _ _, ?_⟩)
  simpa using ⟨h.1.exact 0, h.2.exact 0⟩

theorem Narrative.decode?_encode {n : Narrative} (h : n.Fits) :
    Narrative.decode? n.encode.canonical = some n := by
  have hbehaviors := Json.list?_canonical _ fun b hb => Behavior.decode?_encode (h b hb)
  have hconcepts := Json.list?_strings n.concepts
  have hlevel := Level.decode?_encode n.level
  refine Json.decode_canonical (by simp) fun r hraw => ?_
  simp [Json.Record.need, Json.Record.orElse, hraw, Json.lookup_field, Json.text?, hbehaviors, hconcepts, hlevel]

theorem Narrative.exact_encode {n : Narrative} (h : n.Fits) : Json.Exact 3 n.encode := by
  have hbehaviors : Json.Exact 2 (Json.list Behavior.encode n.behaviors) :=
    Json.exact_list _ fun b hb => Behavior.exact_encode (h b hb)
  refine .obj ?_
  simpa using ⟨.str _ _, .str _ _, hbehaviors, Json.exact_strings 1 n.concepts, .str _ _⟩

theorem Rule.decode?_encode {x : Rule} (h : x.Fits) : Rule.decode? x.encode.canonical = some x := by
  have hstart := Json.line?_nat h.1
  have hend := Json.line?_nat h.2
  have hlevel := Level.decode?_encode x.level
  refine Json.decode_canonical (by simp) fun r hraw => ?_
  simp [Json.Record.need, Json.Record.orElse, hraw, Json.lookup_field, Json.text?, hstart, hend, hlevel]

theorem Rule.exact_encode {x : Rule} (h : x.Fits) : Json.Exact 1 x.encode := by
  refine .obj ?_
  simpa using ⟨.str _ _, .str _ _, .str _ _, .str _ _, .str _ _, h.1.exact 0, h.2.exact 0, .str _ _⟩

theorem Risk.decode?_encode {x : Risk} (h : x.Fits) : Risk.decode? x.encode.canonical = some x := by
  have hline := Json.line?_nat h
  have hseverity := Severity.decode?_text x.severity
  have hrecommendations := Json.list?_strings x.recommendations
  have hlevel := Level.decode?_encode x.level
  refine Json.decode_canonical (by simp) fun r hraw => ?_
  simp [Json.Record.need, Json.Record.orElse, hraw, Json.lookup_field, Json.text?, hline, hseverity,
    hrecommendations, hlevel]

theorem Risk.exact_encode {x : Risk} (h : x.Fits) : Json.Exact 2 x.encode := by
  refine .obj ?_
  simpa using ⟨.str _ _, .str _ _, .str _ _, .str _ _, .str _ _, Json.IsLine.exact h 1,
    Json.exact_strings 0 x.recommendations, .str _ _⟩

end Findings

/-- Whether all lines of findings fit. -/
structure ChunkFindings.Fits (f : ChunkFindings) : Prop where
  narrative : f.narrative.Fits
  rules : ∀ x ∈ f.rules, x.Fits
  risks : ∀ x ∈ f.risks, x.Fits

/-- Findings are decoded from what a checkpoint keeps of them. -/
theorem ChunkFindings.decode?_encode {f : ChunkFindings} (h : f.Fits) :
    ChunkFindings.decode? f.encode.canonical = some f := by
  have hnarrative := Findings.Narrative.decode?_encode h.narrative
  have hrules := Json.list?_canonical _ fun x hx => Findings.Rule.decode?_encode (h.rules x hx)
  have hrisks := Json.list?_canonical _ fun x hx => Findings.Risk.decode?_encode (h.risks x hx)
  refine Json.decode_canonical (by simp) fun r hraw => ?_
  simp [Json.Record.need, Json.Record.orElse, hraw, Json.lookup_field, hnarrative, hrules, hrisks]

theorem ChunkFindings.exact_encode {f : ChunkFindings} (h : f.Fits) : Json.Exact 4 f.encode := by
  have hnarrative := Findings.Narrative.exact_encode h.narrative
  have hrules : Json.Exact 3 (Json.list Findings.Rule.encode f.rules) :=
    Json.exact_list _ fun x hx => (Findings.Rule.exact_encode (h.rules x hx)).mono (by decide)
  have hrisks : Json.Exact 3 (Json.list Findings.Risk.encode f.risks) :=
    Json.exact_list _ fun x hx => Findings.Risk.exact_encode (h.risks x hx)
  refine .obj ?_
  simpa using ⟨hnarrative, hrules, hrisks⟩

end CodeAtlas

/-! What is read from a model's answer can be kept: its line numbers fit, whatever numbers the model wrote. -/
namespace CodeAtlas
namespace Findings
namespace Reply

theorem isLine_zero : Json.IsLine 0 := Width.size_pos 32

theorem isLine_of_nat? {j : Json} {n : Nat} (h : j.nat? 32 = some n) : Json.IsLine n := by
  unfold Json.nat? at h
  split at h
  · split at h
    · next hfit =>
      cases h
      have := hfit.2
      unfold Json.IsLine
      omega
    · cases h
  · cases h

theorem isLine_of_orElse {r : Json.Record} {key : String} {n : Nat}
    (h : r.orElse key (Json.nat? 32) 0 = some n) : Json.IsLine n := by
  unfold Json.Record.orElse at h
  split at h
  · cases h
    exact isLine_zero
  · exact isLine_of_nat? h

theorem fits_of_behavior? {j : Json} {b : Behavior} (h : behavior? j = some b) : b.Fits := by
  unfold behavior? at h
  split at h
  · cases h
    exact ⟨isLine_zero, isLine_zero⟩
  · obtain ⟨d, _, rfl⟩ := Option.map_eq_some_iff.mp h
    exact ⟨Width.wrap_lt 32 _, Width.wrap_lt 32 _⟩
  · cases h

theorem fits_of_toNarrative? {raw : RawNarrative} {file : String} {n : Narrative}
    (h : raw.toNarrative? file = some n) : n.Fits := by
  obtain ⟨purpose, _, rfl⟩ := Option.map_eq_some_iff.mp h
  intro b hb
  obtain ⟨j, _, hj⟩ := List.mem_filterMap.mp hb
  exact fits_of_behavior? hj

theorem fits_of_rule? {file : String} {j : Json} {x : Rule} (h : rule? file j = some x) : x.Fits := by
  unfold rule? at h
  simp only [Option.bind_eq_bind, Option.bind_eq_some_iff] at h
  obtain ⟨r, _, text, _, kind, _, condition, _, consequence, _, first, hfirst, last, hlast, level, _, hx⟩ := h
  cases hx
  exact ⟨isLine_of_orElse hfirst, isLine_of_orElse hlast⟩

theorem fits_of_risk? {file : String} {j : Json} {x : Risk} (h : risk? file j = some x) : x.Fits := by
  unfold risk? at h
  simp only [Option.bind_eq_bind, Option.bind_eq_some_iff] at h
  obtain ⟨r, _, several, _, single, _, title, _, kind, _, severity, _, description, _, line, hline, level, _, hx⟩ := h
  cases hx
  exact isLine_of_orElse hline

theorem mem_of_orElse_list? {α : Type} {r : Json.Record} {key : String} {decode : Json → Option α} {xs : List α}
    (h : r.orElse key (Json.list? decode) [] = some xs) {x : α} (hx : x ∈ xs) : ∃ j, decode j = some x := by
  unfold Json.Record.orElse at h
  split at h
  · cases h
    cases hx
  · exact Json.exists_of_mem_list? h hx

theorem fits_of_findings? {file : String} {j : Json} {f : ChunkFindings} (h : findings? file j = some f) :
    f.Fits := by
  unfold findings? at h
  simp only [Option.bind_eq_bind, Option.bind_eq_some_iff] at h
  obtain ⟨r, _, own, _, rules, hrules, risks, hrisks, among, _, narrative, hnarrative, hf⟩ := h
  cases hf
  refine ⟨fits_of_toNarrative? hnarrative, fun x hx => ?_, fun x hx => ?_⟩
  · obtain ⟨j, hj⟩ := mem_of_orElse_list? hrules (List.mem_filter.mp hx).1
    exact fits_of_rule? hj
  · obtain ⟨j, hj⟩ := mem_of_orElse_list? hrisks (List.mem_filter.mp hx).1
    exact fits_of_risk? hj

/-- Findings read from an answer fit. -/
theorem fits_of_read? {text : String} {c : Chunk} {f : ChunkFindings} (h : read? text c = some f) : f.Fits := by
  obtain ⟨j, _, hj⟩ := Option.bind_eq_some_iff.mp h
  exact fits_of_findings? hj

end Reply
end Findings
end CodeAtlas
