import CodeAtlas.Proofs.Scan.Places
import CodeAtlas.Proofs.Text.Pieces

/-! Docstrings above definitions. In every language but Python the docstring of a definition is read off the line above
it, whatever language it is: the marks it may start with are the same for all languages. That line is a comment unless
it starts with a mark that is none of the language's own, such as the one of an attribute or a preprocessor directive. -/
namespace CodeAtlas.Scan

/-- The marks of docstrings that do not open a comment where comments open with some marks. -/
def foreignMarks (comments : List String) : List String :=
  docMarks.filter fun mark => !comments.any (Text.startsWith mark ·)

variable {language line text : String} {marks : List String} {c : Chunk} {i : Nat}

section Marks

theorem isComment_iff : isComment marks line = true ↔ ∃ mark ∈ marks, mark.toList <+: line.toList.dropWhile Text.isBlank := by
  simp only [isComment, List.any_eq_true, Text.startsWith_iff, Text.trimStart, String.toList_ofList]

theorem exists_mark_of_docstringAbove (h : docstringAbove line = some text) :
    ∃ mark ∈ docMarks, mark.toList <+: line.toList.dropWhile Text.isBlank := by
  obtain ⟨rest, hrest, -⟩ := Option.bind_eq_some_iff.mp h
  obtain ⟨mark, hmark, hdrop⟩ := List.exists_of_findSome?_eq_some hrest
  have hstart : mark.toList <+: Text.trimChars line.toList := ⟨rest, (Text.eq_append_of_dropStart? hdrop).symm⟩
  exact ⟨mark, hmark, hstart.trans (Text.dropEndWhile_isPrefix _ _)⟩

/-- In no language does a mark of its comments start like one that is foreign to it, or the other way round. -/
theorem not_prefix_of_mem_foreignMarks {g : Grammar} (hg : (language, g) ∈ grammars) {own mark : String}
    (hown : own ∈ g.comments) (hmark : mark ∈ foreignMarks g.comments) :
    ¬ own.toList <+: mark.toList ∧ ¬ mark.toList <+: own.toList := by
  have hall : ∀ entry ∈ grammars, ∀ own ∈ entry.2.comments, ∀ mark ∈ foreignMarks entry.2.comments,
      ¬ own.toList <+: mark.toList ∧ ¬ mark.toList <+: own.toList := by decide
  exact hall _ hg own hown mark hmark

/-- A line that a docstring is read off is a comment, or else starts with a foreign mark. -/
theorem isComment_iff_not_foreign {g : Grammar} (hg : (language, g) ∈ grammars) (h : docstringAbove line = some text) :
    isComment g.comments line = true ↔ isComment (foreignMarks g.comments) line = false := by
  rw [← Bool.not_eq_true, isComment_iff, isComment_iff]
  constructor
  · rintro ⟨own, hown, hstart⟩ ⟨mark, hmark, hother⟩
    obtain ⟨hno, hneither⟩ := not_prefix_of_mem_foreignMarks hg hown hmark
    rcases List.prefix_or_prefix_of_prefix hstart hother with hprefix | hprefix
    · exact hno hprefix
    · exact hneither hprefix
  · intro hforeign
    obtain ⟨mark, hmark, hstart⟩ := exists_mark_of_docstringAbove h
    by_cases hown : g.comments.any (Text.startsWith mark ·) = true
    · obtain ⟨own, hmem, hbegins⟩ := List.any_eq_true.mp hown
      exact ⟨own, hmem, (Text.startsWith_iff.mp hbegins).trans hstart⟩
    · exact absurd ⟨mark, List.mem_filter.mpr ⟨hmark, by simpa using hown⟩, hstart⟩ hforeign

end Marks

section Lines

theorem getElem?_numberedLines (c : Chunk) (i : Nat) :
    (numberedLines c)[i]? = (Text.lines c.content)[i]?.map fun line => (c.startLine + i, line) := by
  rw [numberedLines, List.getElem?_map, List.getElem?_zipIdx, Option.map_map, Nat.zero_add]
  rfl

theorem number_of_getElem? {p : Nat × String} (h : (numberedLines c)[i]? = some p) : p.1 = c.startLine + i := by
  rw [getElem?_numberedLines] at h
  obtain ⟨line, -, rfl⟩ := Option.map_eq_some_iff.mp h
  rfl

/-- Whether a definition opens on the line with an index, with the docstring that the lines around it give. -/
structure OpensAt (language : String) (previous : Option String) (readings : List LineReading) (i : Nat) (o : Opening) :
    Prop where
  line : (readings.map (·.number))[i]? = some o.line
  docstring : o.docstring = docstringFor language ((previous :: (readings.map (·.text)).map some)[i]?.join)
    (readings.map (·.text))[i + 1]?

theorem exists_opensAt {previous : Option String} {readings : List LineReading} {o : Opening}
    (h : o ∈ openings language previous readings) : ∃ i, OpensAt language previous readings i o := by
  induction readings generalizing previous with
  | nil => simp [openings] at h
  | cons r rest ih =>
    have hlater : o ∈ openings language (some r.text) rest → ∃ i, OpensAt language previous (r :: rest) i o := by
      intro hmem
      obtain ⟨i, hline, hdocstring⟩ := ih hmem
      exact ⟨i + 1, hline, hdocstring⟩
    unfold openings at h
    dsimp only at h
    split at h
    · rcases List.mem_cons.mp h with rfl | h
      · refine ⟨0, rfl, ?_⟩
        cases rest <;> rfl
      · exact hlater h
    · exact hlater h

/-- The docstring of a definition is that of the line above it, if there is one. -/
theorem exists_above {g : Grammar} (hg : grammars.lookup c.language = some g) (hpython : c.language ≠ "python")
    {d : Facts.Definition} (hd : d ∈ (scan c).definitions) (hdoc : d.docstring = some text) :
    ∃ n above, (n, above) ∈ numberedLines c ∧ d.startLine = n + 1 ∧ docstringAbove above = some text := by
  have hsql : c.language ≠ "sql" := by
    intro hsql
    rw [hsql] at hg
    cases hg
  rw [scan, if_neg hsql, hg] at hd
  obtain ⟨o, ho, hline, hsame⟩ := exists_of_mem_close hd
  obtain ⟨i, hi, hdocstring⟩ := exists_opensAt ho
  rw [hsame, hdoc, docstringFor, if_neg hpython] at hdocstring
  obtain ⟨above, habove, htext⟩ := Option.bind_eq_some_iff.mp hdocstring.symm
  cases i with
  | zero => cases habove
  | succ i =>
    rw [map_number_read, List.getElem?_map] at hi
    obtain ⟨own, hown, hnumber⟩ := Option.map_eq_some_iff.mp hi
    rw [List.getElem?_cons_succ, map_text_read, List.map_map, List.getElem?_map] at habove
    obtain ⟨p, hp, rfl⟩ : ∃ p, (numberedLines c)[i]? = some p ∧ p.2 = above := by
      cases hp : (numberedLines c)[i]? with
      | none => simp [hp] at habove
      | some p => exact ⟨p, rfl, by simpa [hp] using habove⟩
    refine ⟨p.1, p.2, List.mem_of_getElem? hp, ?_, htext⟩
    rw [← hline, ← hnumber, number_of_getElem? hown, number_of_getElem? hp, Nat.add_assoc]

end Lines

/-- Docstrings come from the line above, in every language but Python. That line is a comment of the chunk's language
exactly if it does not start with one of the marks that are foreign to it. -/
theorem documented_above {g : Grammar} (hg : grammars.lookup c.language = some g) (hpython : c.language ≠ "python")
    {d : Facts.Definition} (hd : d ∈ (scan c).definitions) (hdoc : d.docstring = some text) :
    ∃ n above, (n, above) ∈ numberedLines c ∧ d.startLine = n + 1 ∧ docstringAbove above = some text ∧
      (isComment g.comments above = true ↔ isComment (foreignMarks g.comments) above = false) := by
  obtain ⟨n, above, hmem, hline, htext⟩ := exists_above hg hpython hd hdoc
  obtain ⟨before, after, hsplit, -⟩ := List.lookup_eq_some_iff.mp hg
  have hgrammar : (c.language, g) ∈ grammars := hsplit ▸ List.mem_append_right before (.head after)
  exact ⟨n, above, hmem, hline, htext, isComment_iff_not_foreign hgrammar htext⟩

/-- The marks that are foreign to a language: none to PHP, directives to C, attributes and pointers to Rust. -/
example : foreignMarks php.comments = [] ∧ foreignMarks cLike.comments = ["#"] ∧
    foreignMarks rust.comments = ["#", "*", "/**"] ∧ foreignMarks ruby.comments = ["///", "//", "*", "/**"] := by decide

/-- A comment between a directive and a function. -/
theorem documented_above_directive :
    let c : Chunk := ⟨"sum.c", "c", 11, 13, "#endif\n/** Adds. */\nint add(int a, int b) \x7b", none⟩
    grammars.lookup c.language = some cLike ∧ c.language ≠ "python" ∧
      ∃ d ∈ (scan c).definitions, d.docstring = some "Adds." ∧
        ∃ n above, (n, above) ∈ numberedLines c ∧ d.startLine = n + 1 ∧ docstringAbove above = some "Adds." ∧
          (isComment cLike.comments above = true ↔ isComment (foreignMarks cLike.comments) above = false) := by
  intro c
  obtain ⟨d, hd, hdoc⟩ : ∃ d ∈ (scan c).definitions, d.docstring = some "Adds." := by decide +kernel
  exact ⟨rfl, by decide, d, hd, hdoc, documented_above rfl (by decide) hd hdoc⟩

/-- An attribute of Rust is taken for a docstring. -/
theorem attribute_documents :
    ¬ ∀ c g, grammars.lookup c.language = some g → c.language ≠ "python" →
      ∀ d ∈ (scan c).definitions, d.docstring.isSome →
        ∃ n above, (n, above) ∈ numberedLines c ∧ d.startLine = n + 1 ∧ isComment g.comments above = true := by
  intro h
  let c : Chunk := ⟨"check.rs", "rust", 1, 2, "#[test]\nfn check() \x7b\x7d", none⟩
  obtain ⟨d, hd, hdoc, hline⟩ : ∃ d ∈ (scan c).definitions, d.docstring.isSome ∧ d.startLine = 2 := by decide +kernel
  have hfirst : ∀ p ∈ numberedLines c, p.1 = 1 → isComment rust.comments p.2 = false := by decide +kernel
  obtain ⟨n, above, hmem, hnext, hcomment⟩ := h c rust rfl (by decide) d hd hdoc
  rw [hfirst _ hmem (by omega)] at hcomment
  cases hcomment

end CodeAtlas.Scan
