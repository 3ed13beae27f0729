import CodeAtlas.Proofs.Chunk.Windows
import CodeAtlas.Proofs.Scan.Places

/-! Definitions nest. A definition ends before the next one that is indented no deeper, so one that opens inside it is
indented deeper than it, and its own search for an end stops no later: of two definitions the later one lies within the
earlier one or behind it, however the lines between them are indented. -/
namespace CodeAtlas

/-- The lines of a definition. -/
def Facts.Definition.range (d : Facts.Definition) : Finset Nat := Finset.Icc d.startLine d.endLine

/-- Whether the definitions found in a chunk stand on its lines, each nested in another or apart from it, and all else
that was found stands on its lines, too. -/
structure Facts.Nested (c : Chunk) (f : Facts) : Prop where
  increasing : f.definitions.Pairwise fun a b => a.startLine < b.startLine
  within : ∀ d ∈ f.definitions, c.startLine ≤ d.startLine ∧ d.startLine ≤ d.endLine ∧ d.endLine ≤ c.endLine
  laminar : f.definitions.Pairwise fun a b => Disjoint a.range b.range ∨ b.range ⊆ a.range
  calls : ∀ call ∈ f.calls, call.line ∈ c.range
  imports : ∀ i ∈ f.imports, i.line ∈ c.range
  endpoints : ∀ e ∈ f.endpoints, e.line ∈ c.range

namespace Scan

variable {file language : String} {chunkEnd : Nat} {o p : Opening} {later opened : List Opening} {c : Chunk}

section Order

/-- Definitions that open on lines of their own, one below the other, up to the end of a chunk. -/
structure InOrder (chunkEnd : Nat) (opened : List Opening) : Prop where
  increasing : opened.Pairwise fun o p => o.line < p.line
  upTo : ∀ o ∈ opened, o.line ≤ chunkEnd

theorem InOrder.sublist {part all : List Opening} (h : InOrder chunkEnd all) (hsub : part.Sublist all) :
    InOrder chunkEnd part :=
  ⟨h.increasing.sublist hsub, fun o ho => h.upTo o (hsub.subset ho)⟩

/-- The lines on which definitions open are lines that were read, in their order. -/
theorem sublist_openings (language : String) (previous : Option String) (readings : List LineReading) :
    ((openings language previous readings).map (·.line)).Sublist (readings.map (·.number)) := by
  induction readings generalizing previous with
  | nil => exact List.Sublist.slnil
  | cons r rest ih =>
    have hrest := ih (some r.text)
    unfold openings
    dsimp only
    split
    · exact hrest.cons_cons r.number
    · exact hrest.cons r.number

theorem inOrder_openings (hc : c.HasRoom) (reader : LineReader) (language : String) (previous : Option String) :
    InOrder c.endLine
      (openings language previous ((numberedLines c).map fun (n, line) => reader.read n line)) := by
  have hsub := sublist_openings language previous ((numberedLines c).map fun (n, line) => reader.read n line)
  rw [map_number_read, map_fst_numberedLines] at hsub
  refine ⟨List.pairwise_map.mp ((List.pairwise_lt_range' 1).sublist hsub), fun o ho => ?_⟩
  have hline := List.mem_range'_1.mp (hsub.subset (List.mem_map_of_mem ho))
  unfold Chunk.HasRoom at hc
  omega

end Order

section Ends

theorem map_startLine_close (file language : String) (chunkEnd : Nat) (opened : List Opening) :
    (close file language chunkEnd opened).map (·.startLine) = opened.map (·.line) := by
  induction opened with
  | nil => rfl
  | cons o later ih => rw [close, List.map_cons, List.map_cons, ih]

/-- A definition ends before the next one when that is indented no deeper; one that is indented deeper does not
matter to it. -/
theorem endLine_cons (o p : Opening) (later : List Opening) (chunkEnd : Nat) :
    o.endLine (p :: later) chunkEnd =
      if p.indent ≤ o.indent then max (p.line - 1) o.line else o.endLine later chunkEnd := by
  unfold Opening.endLine
  by_cases h : p.indent ≤ o.indent <;> simp [h]

/-- A search for an end among later definitions does not come back above the first line that it passes. -/
theorem le_endLine (h : InOrder chunkEnd (p :: later)) (o : Opening) : p.line ≤ o.endLine later chunkEnd := by
  unfold Opening.endLine
  split
  · next next hnext =>
    have hlt := (List.pairwise_cons.mp h.increasing).1 next (List.mem_of_find?_eq_some hnext)
    omega
  · exact h.upTo p (.head _)

/-- Of two searches for an end in the same lines, that of the deeper definition stops first. -/
theorem endLine_le_endLine (h : InOrder chunkEnd (p :: later)) (hline : o.line ≤ p.line) (hdeeper : o.indent ≤ p.indent) :
    p.endLine later chunkEnd ≤ o.endLine later chunkEnd := by
  induction later with
  | nil => exact Nat.le_refl _
  | cons next rest ih =>
    have hnext : p.line < next.line := (List.pairwise_cons.mp h.increasing).1 next (.head _)
    rw [endLine_cons, endLine_cons]
    by_cases hp : next.indent ≤ p.indent
    · rw [if_pos hp]
      by_cases ho : next.indent ≤ o.indent
      · rw [if_pos ho]
        omega
      · -- Here the search of `p` stops, and that of `o` goes on below.
        have hpassed := le_endLine (h.sublist (.cons p (.refl _))) o
        rw [if_neg ho]
        omega
    · rw [if_neg hp, if_neg (by omega)]
      exact ih (h.sublist (.cons_cons p (.cons next (.refl rest))))

/-- What opens below a definition starts behind its end or ends within it. -/
theorem behind_or_inside (h : InOrder chunkEnd (o :: later)) {d : Facts.Definition}
    (hd : d ∈ close file language chunkEnd later) :
    o.endLine later chunkEnd < d.startLine ∨ d.endLine ≤ o.endLine later chunkEnd := by
  induction later with
  | nil => simp [close] at hd
  | cons p rest ih =>
    have hlines := List.pairwise_cons.mp h.increasing
    have hp : o.line < p.line := hlines.1 p (.head _)
    rw [endLine_cons]
    by_cases hindent : p.indent ≤ o.indent
    · -- The search stops here, above everything that is left.
      left
      obtain ⟨q, hq, hline, -⟩ := exists_of_mem_close hd
      rw [if_pos hindent, ← hline]
      rcases List.mem_cons.mp hq with rfl | hq
      · omega
      · have hbelow := (List.pairwise_cons.mp hlines.2).1 q hq
        omega
    · rw [if_neg hindent]
      rw [close, List.mem_cons] at hd
      rcases hd with rfl | hd
      · right
        exact endLine_le_endLine (h.sublist (.cons o (.refl _))) (Nat.le_of_lt hp) (by omega)
      · exact ih (h.sublist (.cons_cons o (.cons p (.refl rest)))) hd

theorem laminar_close (h : InOrder chunkEnd opened) :
    (close file language chunkEnd opened).Pairwise fun a b => Disjoint a.range b.range ∨ b.range ⊆ a.range := by
  induction opened with
  | nil => exact .nil
  | cons o later ih =>
    rw [close, List.pairwise_cons]
    refine ⟨fun d hd => ?_, ih (h.sublist (.cons o (.refl later)))⟩
    rcases behind_or_inside h hd with hbehind | hinside
    · left
      rw [Facts.Definition.range, Facts.Definition.range, Finset.disjoint_left]
      intro line hown hother
      have hle := (Finset.mem_Icc.mp hown).2
      have hge := (Finset.mem_Icc.mp hother).1
      exact absurd (Nat.le_trans hge hle) (Nat.not_le.mpr hbehind)
    · right
      obtain ⟨p, hp, hline, -⟩ := exists_of_mem_close hd
      have hlt := (List.pairwise_cons.mp h.increasing).1 p hp
      exact Finset.Icc_subset_Icc (hline ▸ Nat.le_of_lt hlt) hinside

end Ends

section Lines

variable {reader : LineReader}

theorem number_mem_range (hc : c.HasRoom) {r : LineReading}
    (hr : r ∈ (numberedLines c).map fun (n, line) => reader.read n line) : r.number ∈ c.range := by
  obtain ⟨p, hp, rfl⟩ := List.mem_map.mp hr
  rw [number_read]
  have hholds := holds_of_mem_numberedLines hc hp
  exact Finset.mem_Icc.mpr ⟨hholds.starts, hholds.ends⟩

theorem line_of_mem_calls {r : LineReading} {call : Facts.Call} (h : call ∈ r.calls file) : call.line = r.number := by
  unfold LineReading.calls at h
  split at h
  · obtain ⟨found, -, rfl⟩ := List.mem_map.mp h
    rfl
  · cases h

theorem line_of_mem_imports {r : LineReading} {i : Facts.Import} (h : i ∈ r.imports file) : i.line = r.number := by
  unfold LineReading.imports at h
  split at h
  · rw [List.mem_singleton.mp h]
  · cases h

theorem nested_scanWith (hc : c.HasRoom) (reader : LineReader) : (scanWith reader c).Nested c := by
  have horder := inOrder_openings hc reader c.language none
  have hwithin := within_scanWith hc reader
  refine ⟨?_, fun d hd => ?_, laminar_close horder, fun call hcall => ?_, fun i hi => ?_, fun e he => ?_⟩
  · refine List.pairwise_map.mp ?_
    rw [scanWith, map_startLine_close]
    exact List.pairwise_map.mpr horder.increasing
  · have hholds := hwithin.definitions d hd
    exact ⟨hholds.starts, hholds.order, hholds.ends⟩
  · obtain ⟨r, hr, hcall⟩ := List.mem_flatMap.mp hcall
    rw [line_of_mem_calls hcall]
    exact number_mem_range hc hr
  · obtain ⟨r, hr, hi⟩ := List.mem_flatMap.mp hi
    rw [line_of_mem_imports hi]
    exact number_mem_range hc hr
  · have hholds := hwithin.endpoints e he
    exact Finset.mem_Icc.mpr ⟨hholds.starts, hholds.ends⟩

end Lines

/-- What is found in a chunk of any language but SQL nests, if no more lines are read of it than it says it has. -/
theorem nested_scan (hsql : c.language ≠ "sql") (hlines : (Text.lines c.content).length ≤ c.endLine + 1 - c.startLine) :
    (scan c).Nested c := by
  unfold scan
  rw [if_neg hsql]
  split
  · exact nested_scanWith hlines _
  · refine ⟨.nil, ?_, .nil, ?_, ?_, ?_⟩ <;> exact fun _ h => absurd h List.not_mem_nil

/-- A chunk from the middle of a file, where a method and a function inside it end at a line that is indented less than
both and more than their class. -/
theorem nested_scan_greeter :
    let c : Chunk := ⟨"greeter.py", "python", 41, 46,
      "class Greeter:\n    def greet(self):\n        def name():\n            pass\n  def bye():\nbye()\n", none⟩
    c.language ≠ "sql" ∧ (Text.lines c.content).length ≤ c.endLine + 1 - c.startLine ∧ (scan c).Nested c :=
  ⟨by decide, by decide, nested_scan (by decide) (by decide)⟩

end Scan
end CodeAtlas
