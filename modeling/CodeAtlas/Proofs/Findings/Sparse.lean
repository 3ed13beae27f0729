import CodeAtlas.Proofs.Findings.Codec
import CodeAtlas.Proofs.Json.Pruned

/-! Findings are decoded from documents in which fields that held their default are missing. So findings that were kept
with fewer fields, at any depth, are the findings that were kept in full. -/
namespace CodeAtlas

open Json (Path Spares under)

variable {out : Path → Bool}

namespace Json

theorem line?_zero : line? (.nat 0) = some 0 := line?_nat (Width.size_pos 32)

theorem list?_nil {α : Type} (decode : Json → Option α) (out : Path → Bool) :
    list? decode ((Json.arr []).prune out) = some [] := by
  simp [prune_arr, list?, items?]

theorem list?_strings_prune (xs : List String) : list? text? ((strings xs).canonical.prune out) = some xs := by
  have hcanonical : (strings xs).canonical = .arr (xs.map .str) := by simp [strings, Function.comp_def]
  rw [hcanonical, list?_prune_strings]

end Json

theorem Level.decode?_text (l : Level) : Level.decode? (.str l.text) = some l := by
  simpa [Level.encode] using l.decode?_encode

namespace Findings

/-- The fields of a behaviour that have a default, and the defaults. -/
def Behavior.defaults : List (List String × Json) := [(["line_start"], .nat 0), (["line_end"], .nat 0)]

/-- The fields of a narrative that have a default, those of its behaviours among them. -/
def Narrative.defaults : List (List String × Json) :=
  [(["behaviors"], .arr []), (["concepts"], .arr []), (["confidence"], .str Level.medium.text)] ++
    under "behaviors" Behavior.defaults

/-- The fields of a rule that have a default. -/
def Rule.defaults : List (List String × Json) :=
  [(["rule_type"], .str ""), (["condition"], .str ""), (["consequence"], .str ""), (["file_path"], .str ""),
    (["line_start"], .nat 0), (["line_end"], .nat 0), (["confidence"], .str Level.medium.text)]

/-- The fields of a risk that have a default. -/
def Risk.defaults : List (List String × Json) :=
  [(["risk_type"], .str ""), (["severity"], .str Severity.medium.text), (["description"], .str ""),
    (["file_path"], .str ""), (["line"], .nat 0), (["recommendations"], .arr []), (["confidence"], .str Level.medium.text)]

theorem Behavior.decode?_prune {b : Behavior} (h : b.Fits) (hout : Spares defaults out b.encode.canonical) :
    decode? (b.encode.canonical.prune out) = some b := by
  have hstart := Json.line?_nat h.1
  have hend := Json.line?_nat h.2
  rw [encode] at hout ⊢
  apply Json.decode_prune_canonical
  intro r hr
  simp [hout.need_eq hr, hout.orElse_eq hr, Json.at?_canonical, Json.lookup_field, defaults, Json.text?, Json.line?_zero,
    hstart, hend]

theorem Narrative.decode?_prune {n : Narrative} (h : n.Fits) (hout : Spares defaults out n.encode.canonical) :
    decode? (n.encode.canonical.prune out) = some n := by
  rw [encode] at hout ⊢
  have hbehaviors : Json.list? Behavior.decode?
      ((Json.list Behavior.encode n.behaviors).canonical.prune (Json.beyond out (.key "behaviors"))) = some n.behaviors := by
    refine hout.list?_field_eq ?_ (?_ : ∀ k keys, _ = Behavior.defaults.lookup (k :: keys)) ?_
    · simp [Json.at?_canonical, Json.lookup_field]
    · simp [defaults, Json.lookup_field]
    · exact fun b hb _ => Behavior.decode?_prune (h b hb)
  apply Json.decode_prune_canonical
  intro r hr
  simp [hout.need_eq hr, hout.orElse_eq hr, Json.at?_canonical, Json.lookup_field, Json.lookup_under_ne, defaults,
    Json.text?, Level.encode, Level.decode?_text, Json.list?_nil, Json.list?_strings_prune, hbehaviors]

theorem Rule.decode?_prune {x : Rule} (h : x.Fits) (hout : Spares defaults out x.encode.canonical) :
    decode? (x.encode.canonical.prune out) = some x := by
  have hstart := Json.line?_nat h.1
  have hend := Json.line?_nat h.2
  rw [encode] at hout ⊢
  apply Json.decode_prune_canonical
  intro r hr
  simp [hout.need_eq hr, hout.orElse_eq hr, Json.at?_canonical, Json.lookup_field, defaults, Json.text?, Json.line?_zero,
    Level.encode, Level.decode?_text, hstart, hend]

theorem Risk.decode?_prune {x : Risk} (h : x.Fits) (hout : Spares defaults out x.encode.canonical) :
    decode? (x.encode.canonical.prune out) = some x := by
  have hline := Json.line?_nat h
  rw [encode] at hout ⊢
  apply Json.decode_prune_canonical
  intro r hr
  simp [hout.need_eq hr, hout.orElse_eq hr, Json.at?_canonical, Json.lookup_field, defaults, Json.text?, Json.line?_zero,
    Level.encode, Level.decode?_text, Severity.decode?_text, Json.list?_nil, Json.list?_strings_prune, hline]

end Findings

namespace ChunkFindings

open Findings

/-- The fields of findings that have a default, those of their parts among them. -/
def defaults : List (List String × Json) :=
  [(["rules"], .arr []), (["risks"], .arr [])] ++ under "narrative" Narrative.defaults ++ under "rules" Rule.defaults ++
    under "risks" Risk.defaults

/-- Findings are decoded from what is kept of them when fields that held their default are left out. -/
theorem decode?_prune {f : ChunkFindings} (h : f.Fits) (hout : Spares defaults out f.encode.canonical) :
    decode? (f.encode.canonical.prune out) = some f := by
  rw [encode] at hout ⊢
  have hnarrative : Narrative.decode? (f.narrative.encode.canonical.prune (Json.beyond out (.key "narrative"))) =
      some f.narrative := by
    apply Narrative.decode?_prune h.narrative
    apply hout.under
    · simp [Json.at?_canonical]
    · simp [defaults, List.lookup_append, Json.lookup_field, Json.lookup_under_ne]
  have hrules : Json.list? Rule.decode? ((Json.list Rule.encode f.rules).canonical.prune (Json.beyond out (.key "rules"))) =
      some f.rules := by
    refine hout.list?_field_eq ?_ (?_ : ∀ k keys, _ = Rule.defaults.lookup (k :: keys)) ?_
    · simp [Json.at?_canonical, Json.lookup_field]
    · simp [defaults, List.lookup_append, Json.lookup_field, Json.lookup_under_ne]
    · exact fun x hx _ => Rule.decode?_prune (h.rules x hx)
  have hrisks : Json.list? Risk.decode? ((Json.list Risk.encode f.risks).canonical.prune (Json.beyond out (.key "risks"))) =
      some f.risks := by
    refine hout.list?_field_eq ?_ (?_ : ∀ k keys, _ = Risk.defaults.lookup (k :: keys)) ?_
    · simp [Json.at?_canonical, Json.lookup_field]
    · simp [defaults, List.lookup_append, Json.lookup_field, Json.lookup_under_ne]
    · exact fun x hx _ => Risk.decode?_prune (h.risks x hx)
  apply Json.decode_prune_canonical
  intro r hr
  simp [hout.need_eq hr, hout.orElse_eq hr, Json.at?_canonical, Json.lookup_field, List.lookup_append,
    Json.lookup_under_ne, defaults, Narrative.defaults, Json.list?_nil, hnarrative, hrules, hrisks]

/-- Kept findings are the findings they were, read in full as well as without any fields that held their default. -/
theorem decode?_full_or_sparse {f : ChunkFindings} (h : f.Fits) :
    decode? f.encode.canonical = some f ∧
      ∀ out, Spares defaults out f.encode.canonical → decode? (f.encode.canonical.prune out) = some f :=
  ⟨decode?_encode h, fun _ hout => decode?_prune h hout⟩

/-- Findings in which a line, a list and a severity are the defaults. -/
def plain : ChunkFindings where
  narrative :=
    { file := "src/cart.rs", purpose := "Keeps the cart", behaviors := [{ description := "adds items", lineEnd := 9 }] }
  risks := [{ title := "No limit", severity := .medium, line := 4 }]

/-- The first line of the behaviour, the empty list of rules and the severity, which `plain` can do without. -/
def plain.spared : List Path :=
  [[.key "narrative", .key "behaviors", .item 0, .key "line_start"], [.key "rules"],
    [.key "risks", .item 0, .key "severity"]]

theorem decode?_full_or_sparse_plain :
    plain.Fits ∧ Spares defaults (fun p => decide (p ∈ plain.spared)) plain.encode.canonical ∧
      decode? (plain.encode.canonical.prune fun p => decide (p ∈ plain.spared)) = some plain := by
  have hfits : plain.Fits := by
    refine ⟨?_, ?_, ?_⟩
    · simp [plain, Narrative.Fits, Behavior.Fits, Json.IsLine, Width.size]
    · simp [plain]
    · simp [plain, Risk.Fits, Json.IsLine, Width.size]
  have hspares : Spares defaults (fun p => decide (p ∈ plain.spared)) plain.encode.canonical := by
    apply Spares.of_paths
    rw [plain.spared, List.forall_mem_cons, List.forall_mem_cons, List.forall_mem_cons]
    exact ⟨⟨rfl, rfl⟩, ⟨rfl, rfl⟩, ⟨rfl, rfl⟩, List.forall_mem_nil _⟩
  exact ⟨hfits, hspares, (decode?_full_or_sparse hfits).2 _ hspares⟩

end ChunkFindings

end CodeAtlas
