import CodeAtlas.Chunk.Basic
import CodeAtlas.Width
import Mathlib.Data.List.Induction
import Mathlib.Order.Interval.Finset.Nat

/-! Windows of a text. The windows of a file are its lines, one after the other. What is read back of a chunk are the
lines of its window, up to an empty last one and to carriage returns at their ends. -/
namespace CodeAtlas

namespace Text

/-- The lines that pieces between line feeds amount to. -/
def linesOf (pieces : List (List Char)) : List (List Char) :=
  pieces.dropLast.map dropReturn ++ pieces.getLast?.toList.filter (· ≠ [])

section Pieces

variable {p : Char → Bool} {piece rest cs : List Char} {c : Char}

@[simp] theorem splitChars_nil (p : Char → Bool) : splitChars p [] = [[]] := rfl

theorem splitChars_ne_nil (p : Char → Bool) (cs : List Char) : splitChars p cs ≠ [] := by
  cases cs with
  | nil => simp
  | cons c cs =>
    unfold splitChars
    split
    · simp
    · split <;> simp

/-- A character begins another piece behind it, or is the first one of the first piece. -/
theorem splitChars_cons {first : List Char} {others : List (List Char)} (h : splitChars p cs = first :: others) :
    splitChars p (c :: cs) = if p c then [] :: first :: others else (c :: first) :: others := by
  rw [splitChars, h]

theorem splitChars_append_cons (hpiece : ∀ x ∈ piece, p x = false) (hc : p c = true) :
    splitChars p (piece ++ c :: rest) = piece :: splitChars p rest := by
  induction piece with
  | nil =>
    obtain ⟨first, others, hrest⟩ := List.exists_cons_of_ne_nil (splitChars_ne_nil p rest)
    rw [List.nil_append, splitChars_cons hrest, if_pos hc, hrest]
  | cons x piece ih =>
    have hx := hpiece x (.head _)
    rw [List.cons_append, splitChars_cons (ih fun y hy => hpiece y (.tail _ hy))]
    simp [hx]

/-- What stands before a separator and what stands behind it are cut on their own. -/
theorem splitChars_append_sep (hc : p c = true) (before rest : List Char) :
    splitChars p (before ++ c :: rest) = splitChars p before ++ splitChars p rest := by
  induction before with
  | nil => exact splitChars_append_cons (List.forall_mem_nil _) hc
  | cons x before ih =>
    obtain ⟨first, others, hbefore⟩ := List.exists_cons_of_ne_nil (splitChars_ne_nil p before)
    rw [hbefore, List.cons_append] at ih
    rw [List.cons_append, splitChars_cons ih, splitChars_cons hbefore]
    split <;> rfl

theorem splitChars_of_none (hpiece : ∀ x ∈ piece, p x = false) : splitChars p piece = [piece] := by
  induction piece with
  | nil => rfl
  | cons x piece ih =>
    rw [splitChars_cons (ih fun y hy => hpiece y (.tail _ hy))]
    simp [hpiece x (.head _)]

/-- Pieces that are joined are found again. -/
theorem splitChars_intercalate {pieces : List (List Char)} (hne : pieces ≠ []) (h : ∀ piece ∈ pieces, c ∉ piece) :
    splitChars (· == c) ([c].intercalate pieces) = pieces := by
  have hnone : ∀ {piece}, piece ∈ pieces → ∀ x ∈ piece, (x == c) = false := fun hpiece x hx =>
    beq_eq_false_iff_ne.mpr fun heq => h _ hpiece (heq ▸ hx)
  induction pieces with
  | nil => exact absurd rfl hne
  | cons piece rest ih =>
    cases rest with
    | nil =>
      rw [List.intercalate_singleton]
      exact splitChars_of_none (hnone (.head _))
    | cons next rest =>
      rw [List.intercalate_cons_cons, List.append_assoc, List.singleton_append,
        splitChars_append_cons (hnone (.head _)) (beq_self_eq_true c),
        ih (by simp) (fun x hx => h x (.tail _ hx)) fun hx => hnone (.tail _ hx)]

/-- The pieces of a text amount to it when they are joined. -/
theorem intercalate_splitChars (c : Char) (cs : List Char) : [c].intercalate (splitChars (· == c) cs) = cs := by
  induction cs with
  | nil => simp
  | cons x cs ih =>
    obtain ⟨first, others, hrest⟩ := List.exists_cons_of_ne_nil (splitChars_ne_nil (· == c) cs)
    rw [hrest] at ih
    rw [splitChars_cons hrest]
    by_cases hx : x = c
    · simp [hx, List.intercalate_cons_cons, ih]
    · have hpush : [c].intercalate ((x :: first) :: others) = x :: [c].intercalate (first :: others) := by
        cases others <;> simp
      simp [hx, hpush, ih]

theorem of_mem_splitChars (h : piece ∈ splitChars p cs) : ∀ x ∈ piece, x ∈ cs ∧ p x = false := by
  induction cs generalizing piece with
  | nil =>
    obtain rfl : piece = [] := by simpa using h
    simp
  | cons c cs ih =>
    obtain ⟨first, others, hrest⟩ := List.exists_cons_of_ne_nil (splitChars_ne_nil p cs)
    have hall : ∀ {piece}, piece ∈ first :: others → ∀ x ∈ piece, x ∈ c :: cs ∧ p x = false := by
      intro piece hpiece x hx
      obtain ⟨hmem, hno⟩ := ih (hrest ▸ hpiece) x hx
      exact ⟨.tail _ hmem, hno⟩
    rw [splitChars_cons hrest] at h
    split at h
    · rcases List.mem_cons.mp h with rfl | h
      · simp
      · exact hall h
    · next hc =>
      rcases List.mem_cons.mp h with rfl | h
      · intro x hx
        rcases List.mem_cons.mp hx with rfl | hx
        · exact ⟨.head _, by simpa using hc⟩
        · exact hall (.head _) x hx
      · exact hall (.tail _ h)

end Pieces

section Lines

variable {pieces : List (List Char)}

theorem lineChars_eq (cs : List Char) : lineChars cs = linesOf (splitChars (· == '\n') cs) := by
  rw [lineChars]
  generalize splitChars (· == '\n') cs = pieces
  cases pieces with
  | nil => rfl
  | cons piece rest =>
    unfold linesOf
    dsimp only
    cases hlast : (piece :: rest).getLast? with
    | none => simp
    | some last => cases last <;> simp

theorem length_linesOf_le (pieces : List (List Char)) : (linesOf pieces).length ≤ pieces.length := by
  cases pieces using List.reverseRecOn with
  | nil => simp [linesOf]
  | append_singleton before last =>
    have hlast := List.length_filter_le (fun cs : List Char => decide (cs ≠ [])) [last]
    simpa [linesOf] using hlast

theorem dropReturn_of_notMem {line : List Char} (h : '\r' ∉ line) : dropReturn line = line := by
  unfold dropReturn
  split
  · next rest hrest =>
    have hmem : '\r' ∈ line.reverse := hrest ▸ .head _
    exact absurd (List.mem_reverse.mp hmem) h
  · rfl

/-- Without carriage returns at most an empty last piece is no line. -/
theorem linesOf_cases (h : ∀ piece ∈ pieces, '\r' ∉ piece) :
    linesOf pieces = pieces ∨ linesOf pieces ++ [[]] = pieces := by
  cases pieces using List.reverseRecOn with
  | nil => exact .inl rfl
  | append_singleton before last =>
    have hbefore : before.map dropReturn = before := by
      refine (List.map_congr_left fun piece hpiece => ?_).trans (List.map_id before)
      exact dropReturn_of_notMem (h piece (List.mem_append_left _ hpiece))
    cases last with
    | nil => exact .inr (by simp [linesOf, hbefore])
    | cons c cs => exact .inl (by simp [linesOf, hbefore])

theorem mem_of_mem_dropReturn {line : List Char} {c : Char} (h : c ∈ dropReturn line) : c ∈ line := by
  unfold dropReturn at h
  split at h
  · next rest hrest => exact List.mem_reverse.mp (hrest ▸ .tail _ (List.mem_reverse.mp h))
  · exact h

/-- A line holds characters of the text, and no line feed. -/
theorem of_mem_lines {s line : String} (h : line ∈ lines s) : ∀ c ∈ line.toList, c ∈ s.toList ∧ c ≠ '\n' := by
  obtain ⟨cs, hcs, rfl⟩ := List.mem_map.mp h
  rw [lineChars_eq] at hcs
  have hpiece : ∃ piece ∈ splitChars (· == '\n') s.toList, ∀ c ∈ cs, c ∈ piece := by
    rcases List.mem_append.mp hcs with hcs | hcs
    · obtain ⟨piece, hpiece, rfl⟩ := List.mem_map.mp hcs
      exact ⟨piece, List.dropLast_subset _ hpiece, fun c => mem_of_mem_dropReturn⟩
    · have hlast := Option.mem_toList.mp (List.mem_filter.mp hcs).1
      exact ⟨cs, List.mem_of_getLast? hlast, fun c hc => hc⟩
  obtain ⟨piece, hpiece, hsub⟩ := hpiece
  intro c hc
  rw [String.toList_ofList] at hc
  obtain ⟨hmem, hno⟩ := of_mem_splitChars hpiece c (hsub c hc)
  exact ⟨hmem, by simpa using hno⟩

/-- The lines of joined texts. -/
theorem lines_intercalate {window : List String} (hne : window ≠ []) (h : ∀ line ∈ window, '\n' ∉ line.toList) :
    lines ("\n".intercalate window) = (linesOf (window.map String.toList)).map String.ofList := by
  have hpieces : ∀ piece ∈ window.map String.toList, '\n' ∉ piece := by simpa using h
  have hsep : "\n".toList = ['\n'] := rfl
  rw [lines, lineChars_eq, String.toList_intercalate, hsep,
    splitChars_intercalate (by simpa using hne) hpieces]

/-- Reading a chunk of joined lines gives the lines, but for an empty last one. -/
theorem lines_joined {window : List String} (hne : window ≠ [])
    (h : ∀ line ∈ window, '\n' ∉ line.toList ∧ '\r' ∉ line.toList) :
    lines ("\n".intercalate window) = window ∨
      lines ("\n".intercalate window) ++ [""] = window := by
  have hcr : ∀ piece ∈ window.map String.toList, '\r' ∉ piece := by simpa using fun line hline => (h line hline).2
  have hback : (window.map String.toList).map String.ofList = window := by simp
  rw [lines_intercalate hne fun line hline => (h line hline).1]
  rcases linesOf_cases hcr with hall | hbut
  · left
    rw [hall, hback]
  · right
    conv_rhs => rw [← hback, ← hbut, List.map_append]
    rfl

end Lines

end Text

namespace Chunk

variable {α : Type}

theorem flatten_windowsOf (size : Nat) (lines : List α) : (windowsOf size lines).flatten = lines := by
  induction lines using windowsOf.induct size with
  | case1 => simp [windowsOf]
  | case2 l rest ih => simp [windowsOf, ih]

theorem ne_nil_of_mem_windowsOf {size : Nat} {lines window : List α} (h : window ∈ windowsOf size lines) :
    window ≠ [] := by
  induction lines using windowsOf.induct size with
  | case1 => simp [windowsOf] at h
  | case2 l rest ih =>
    rw [windowsOf, List.mem_cons] at h
    rcases h with rfl | h
    · simp
    · exact ih h

/-- A line of a window is a line of the text. -/
theorem mem_of_mem_windowsOf {size : Nat} {lines window : List α} (h : window ∈ windowsOf size lines) {l : α}
    (hl : l ∈ window) : l ∈ lines := by
  rw [← flatten_windowsOf size lines]
  exact List.mem_flatten.mpr ⟨window, h, hl⟩

/-- A chunk of a file is one of its windows, with the lines it says it has. -/
structure IsWindow (file language : String) (windows : List (List String)) (c : Chunk) : Prop where
  file : c.file = file
  language : c.language = language
  startLine : 1 ≤ c.startLine
  window : ∃ window ∈ windows, c.endLine = c.startLine + window.length - 1 ∧ c.content = "\n".intercalate window

theorem isWindow_of_mem {file language : String} {start : Nat} {windows : List (List String)} (hstart : 1 ≤ start)
    {c : Chunk} (h : c ∈ ofWindows file language start windows) : IsWindow file language windows c := by
  induction windows generalizing start with
  | nil => simp [ofWindows] at h
  | cons window rest ih =>
    rw [ofWindows, List.mem_cons] at h
    rcases h with rfl | h
    · exact ⟨rfl, rfl, hstart, window, .head _, rfl, rfl⟩
    · obtain ⟨hfile, hlanguage, hline, w, hw, hends⟩ := ih (by omega) h
      exact ⟨hfile, hlanguage, hline, w, .tail _ hw, hends⟩

end Chunk
end CodeAtlas

/-! The chunks of a file tile it: their lines follow each other from the first line of the file to its last, all
chunks but the last are full, and what they hold is the file. Where a chunk starts and where it ends is computed from
its place among the chunks alone (`getElem?_ofWindows`), and all else follows from that. -/
namespace CodeAtlas.Chunk

/-- The lines of its file that a chunk says it has. -/
def range (c : Chunk) : Finset Nat := Finset.Icc c.startLine c.endLine

/-- Whether chunks of a given number of lines tile the lines of a file. -/
structure Tiles (lines : List String) (size : Nat) (chunks : List Chunk) : Prop where
  first : ∀ c ∈ chunks.head?, c.startLine = 1
  last : ∀ c ∈ chunks.getLast?, c.endLine = lines.length
  consecutive : chunks.IsChain fun c d => d.startLine = c.endLine + 1
  apart : chunks.Pairwise fun c d => Disjoint c.range d.range
  full : ∀ c ∈ chunks.dropLast, c.range.card = size
  rest : ∀ c ∈ chunks.getLast?, 1 ≤ c.range.card ∧ c.range.card ≤ size
  /-- A chunk holds the lines that it says it has. -/
  own : ∀ c ∈ chunks, c.content = "\n".intercalate ((lines.drop (c.startLine - 1)).take c.range.card)
  joined : "\n".intercalate (chunks.map (·.content)) = "\n".intercalate lines
  empty : chunks = [] ↔ lines = []
  /-- The numbers of the lines fit into 32 bits when their count does. -/
  fits : lines.length < Width.size 32 → ∀ c ∈ chunks, c.startLine < Width.size 32 ∧ c.endLine < Width.size 32

variable {file language : String} {lines : List String} {size i : Nat} {c : Chunk}

theorem card_range (c : Chunk) : c.range.card = c.endLine + 1 - c.startLine := Nat.card_Icc _ _

section Places

/-- The chunk of the window at an index, in a text whose first line has a given number. -/
def atIndex (file language : String) (start size : Nat) (lines : List String) (i : Nat) : Chunk where
  file := file
  language := language
  startLine := start + i * size
  endLine := start + min ((i + 1) * size) lines.length - 1
  content := "\n".intercalate ((lines.drop (i * size)).take size)

theorem atIndex_drop (h : size ≤ lines.length) (start i : Nat) :
    atIndex file language (start + size) size (lines.drop size) i = atIndex file language start size lines (i + 1) := by
  have hsucc : (i + 1) * size = i * size + size := Nat.succ_mul i size
  have hstart : start + size + i * size = start + (i + 1) * size := by omega
  have hend : start + size + min ((i + 1) * size) (lines.drop size).length - 1 =
      start + min ((i + 1 + 1) * size) lines.length - 1 := by
    rw [List.length_drop, Nat.succ_mul (i + 1)]
    omega
  have hdrop : (lines.drop size).drop (i * size) = lines.drop ((i + 1) * size) := by
    rw [List.drop_drop, hsucc, Nat.add_comm]
  rw [atIndex, atIndex, hstart, hend, hdrop]

/-- Which chunks there are, and what each is, by index. -/
theorem getElem?_ofWindows (file language : String) (start k : Nat) (lines : List String) (i : Nat) :
    (ofWindows file language start (windowsOf k lines))[i]? =
      if i * (k + 1) < lines.length then some (atIndex file language start (k + 1) lines i) else none := by
  induction lines using windowsOf.induct k generalizing start i with
  | case1 => simp [windowsOf, ofWindows]
  | case2 l rest ih =>
    have hlength : (l :: rest.take k).length = min (k + 1) (rest.length + 1) := by
      rw [List.length_cons, List.length_take]
      omega
    rw [windowsOf, ofWindows]
    cases i with
    | zero => simp [atIndex, hlength]
    | succ i =>
      have hsucc : (i + 1) * (k + 1) = i * (k + 1) + (k + 1) := Nat.succ_mul i (k + 1)
      have hdrop : (rest.drop k).length = rest.length - k := List.length_drop
      have hall : (l :: rest).length = rest.length + 1 := List.length_cons
      rw [List.getElem?_cons_succ, ih]
      -- A window that another one follows is full, and only then does the next one start where it should.
      by_cases hi : (i + 1) * (k + 1) < (l :: rest).length
      · have hfull : (l :: rest.take k).length = k + 1 := by omega
        rw [if_pos hi, if_pos (by omega), hfull]
        have hsame : atIndex file language (start + (k + 1)) (k + 1) ((l :: rest).drop (k + 1)) i =
            atIndex file language start (k + 1) (l :: rest) (i + 1) := atIndex_drop (by omega) start i
        exact congrArg some hsame
      · rw [if_neg hi, if_neg (by omega)]

end Places

section Contents

theorem map_content_ofWindows (file language : String) (start : Nat) (windows : List (List String)) :
    (ofWindows file language start windows).map (·.content) = windows.map "\n".intercalate := by
  induction windows generalizing start with
  | nil => rfl
  | cons window rest ih => rw [ofWindows, List.map_cons, List.map_cons, ih]

/-- Texts that are joined piece by piece are joined as one. -/
theorem intercalate_map_intercalate (sep : String) {windows : List (List String)} (h : ∀ window ∈ windows, window ≠ []) :
    sep.intercalate (windows.map sep.intercalate) = sep.intercalate windows.flatten := by
  induction windows with
  | nil => rfl
  | cons window rest ih =>
    have hrest : ∀ w ∈ rest, w ≠ [] := fun w hw => h w (.tail _ hw)
    cases rest with
    | nil => simp
    | cons next rest =>
      have hflat : (next :: rest).flatten ≠ [] := by
        intro hnil
        exact hrest next (.head _) (List.flatten_eq_nil_iff.mp hnil next (.head _))
      rw [List.map_cons, List.flatten_cons, String.intercalate_append_of_ne_nil (h window (.head _)) hflat,
        String.intercalate_cons_of_ne_nil (by simp), ih hrest]

end Contents

section Tiling

variable {chunks : List Chunk}

/-- Whether a chunk is the one at an index, among chunks of a given number of lines. -/
structure StandsAt (lines : List String) (size i : Nat) (c : Chunk) : Prop where
  below : i * size < lines.length
  startLine : c.startLine = i * size + 1
  endLine : c.endLine = min (i * size + size) lines.length
  content : c.content = "\n".intercalate ((lines.drop (i * size)).take size)

theorem StandsAt.card_range (h : StandsAt lines size i c) : c.range.card = min size (lines.length - i * size) := by
  rw [Chunk.card_range, h.startLine, h.endLine]
  have hbelow := h.below
  omega

/-- Whether some chunks are all the chunks of a text, in order. -/
structure Placed (lines : List String) (size : Nat) (chunks : List Chunk) : Prop where
  standsAt : ∀ {i c}, chunks[i]? = some c → StandsAt lines size i c
  length : ∀ i, i < chunks.length ↔ i * size < lines.length

theorem placed_ofText (file language content : String) (maxLines : Nat) :
    Placed (Text.lines content) (max maxLines 1) (ofText file language content maxLines) := by
  have hsize : max maxLines 1 = maxLines - 1 + 1 := by omega
  have hget := getElem?_ofWindows file language 1 (maxLines - 1) (Text.lines content)
  rw [hsize, ofText]
  generalize Text.lines content = lines at hget ⊢
  refine ⟨fun {i c} hc => ?_, fun i => ?_⟩
  · obtain ⟨hbelow, heq⟩ := Option.ite_none_right_eq_some.mp ((hget i).symm.trans hc)
    obtain rfl := Option.some.inj heq
    refine ⟨hbelow, Nat.add_comm _ _, ?_, rfl⟩
    rw [atIndex, Nat.succ_mul, Nat.add_sub_cancel_left]
  · rw [← not_iff_not, Nat.not_lt, ← List.getElem?_eq_none_iff, hget]
    simp

namespace Placed

theorem exists_of_getLast? (h : Placed lines size chunks) (hc : c ∈ chunks.getLast?) :
    ∃ i, StandsAt lines size i c ∧ lines.length ≤ i * size + size := by
  rw [Option.mem_def, List.getLast?_eq_getElem?] at hc
  have hpos : 0 < chunks.length := by
    have hlt := (List.getElem?_eq_some_iff.mp hc).1
    omega
  have hlength : chunks.length * size = (chunks.length - 1) * size + size := by
    conv_lhs => rw [← Nat.succ_pred_eq_of_pos hpos, Nat.succ_mul]
    rfl
  have hend := mt (h.length chunks.length).mpr (Nat.lt_irrefl _)
  exact ⟨chunks.length - 1, h.standsAt hc, by omega⟩

theorem exists_of_mem_dropLast (h : Placed lines size chunks) (hc : c ∈ chunks.dropLast) :
    ∃ i, StandsAt lines size i c ∧ i * size + size < lines.length := by
  obtain ⟨i, hi⟩ := List.mem_iff_getElem?.mp hc
  rw [List.getElem?_dropLast] at hi
  obtain ⟨hlt, hi⟩ := Option.ite_none_right_eq_some.mp hi
  refine ⟨i, h.standsAt hi, ?_⟩
  rw [← Nat.succ_mul]
  exact (h.length (i + 1)).mp (by omega)

theorem consecutive (h : Placed lines size chunks) : chunks.IsChain fun c d => d.startLine = c.endLine + 1 := by
  rw [List.isChain_iff_getElem]
  intro i hi
  have hc := h.standsAt (List.getElem?_eq_getElem (Nat.lt_of_succ_lt hi))
  have hd := h.standsAt (List.getElem?_eq_getElem hi)
  have hbelow := hd.below
  rw [hc.endLine, hd.startLine]
  rw [Nat.succ_mul] at hbelow ⊢
  omega

theorem apart (h : Placed lines size chunks) : chunks.Pairwise fun c d => Disjoint c.range d.range := by
  rw [List.pairwise_iff_getElem]
  intro i j hi hj hij
  have hc := h.standsAt (List.getElem?_eq_getElem hi)
  have hd := h.standsAt (List.getElem?_eq_getElem hj)
  have hstarts : i * size + size ≤ j * size := Nat.succ_mul i size ▸ Nat.mul_le_mul_right size hij
  rw [range, range, hc.endLine, hd.startLine, Finset.disjoint_left]
  intro line hline hother
  have hle := (Finset.mem_Icc.mp hline).2
  have hge := (Finset.mem_Icc.mp hother).1
  omega

end Placed

/-- The chunks of a file tile it, whatever it holds and however many lines a chunk may have; zero counts as one. -/
theorem tiles_ofText (file language content : String) (maxLines : Nat) :
    Tiles (Text.lines content) (max maxLines 1) (ofText file language content maxLines) := by
  have h := placed_ofText file language content maxLines
  have hsize : 1 ≤ max maxLines 1 := le_max_right _ _
  refine ⟨?_, ?_, h.consecutive, h.apart, ?_, ?_, ?_, ?_, ?_, ?_⟩
  · intro c hc
    rw [Option.mem_def, List.head?_eq_getElem?] at hc
    rw [(h.standsAt hc).startLine, Nat.zero_mul]
  · intro c hc
    obtain ⟨i, hi, hend⟩ := h.exists_of_getLast? hc
    rw [hi.endLine, min_eq_right hend]
  · intro c hc
    obtain ⟨i, hi, hend⟩ := h.exists_of_mem_dropLast hc
    rw [hi.card_range]
    omega
  · intro c hc
    obtain ⟨i, hi, -⟩ := h.exists_of_getLast? hc
    have hbelow := hi.below
    rw [hi.card_range]
    omega
  · intro c hc
    obtain ⟨i, hi⟩ := List.mem_iff_getElem?.mp hc
    have hstands := h.standsAt hi
    have hlength : ((Text.lines content).drop (i * max maxLines 1)).length = (Text.lines content).length - i * max maxLines 1 :=
      List.length_drop
    rw [hstands.content, hstands.card_range, hstands.startLine, Nat.add_sub_cancel, ← hlength, ← List.take_eq_take_min]
  · rw [ofText, map_content_ofWindows, intercalate_map_intercalate "\n" fun window => ne_nil_of_mem_windowsOf,
      flatten_windowsOf]
  · rw [← List.length_eq_zero_iff, ← List.length_eq_zero_iff]
    have hzero := h.length 0
    omega
  · intro hfits c hc
    obtain ⟨i, hi⟩ := List.mem_iff_getElem?.mp hc
    have hstands := h.standsAt hi
    have hbelow := hstands.below
    rw [hstands.startLine, hstands.endLine]
    omega

end Tiling

end CodeAtlas.Chunk
