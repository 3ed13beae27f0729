import CodeAtlas.Document.Sketch
import CodeAtlas.Proofs.Text.Pieces

/-! Rows of tables as they are read. A row is cut into cells at its bars, except for bars with an odd number of
backslashes right before them. What is written into a cell gets one more backslash before each of its bars, so a bar that
was escaped before is one that cuts, and the other way round. -/
namespace CodeAtlas.Markdown

/-- The pieces of a line between the bars that cut it. A bar cuts when the number of backslashes right before it is even;
`slashes` of them stand before the text. -/
def pieces (slashes : ℕ) : List Char → List (List Char)
  | [] => [[]]
  | c :: cs =>
    if c = '|' ∧ Even slashes then [] :: pieces 0 cs
    else (pieces (if c = '\\' then slashes + 1 else 0) cs).modifyHead (c :: ·)

/-- The cells of a row: its pieces between the first bar and the last one. -/
def cells (line : String) : List String := (pieces 0 line.toList).tail.dropLast.map String.ofList

/-- Whether a text has no line break. -/
def IsLine (s : String) : Prop := '\n' ∉ s.toList ∧ '\r' ∉ s.toList

instance (s : String) : Decidable (IsLine s) := inferInstanceAs (Decidable (_ ∧ _))

/-- How many bars of a text have a number of backslashes right before them that is odd, or one that is even. -/
def bars (odd : Bool) (slashes : ℕ) : List Char → ℕ
  | [] => 0
  | c :: cs => (if c = '|' ∧ slashes.bodd = odd then 1 else 0) + bars odd (if c = '\\' then slashes + 1 else 0) cs

/-- How many bars of a text cut it. -/
def openBars (s : String) : ℕ := bars false 0 s.toList

/-- How many bars of a text are escaped. -/
def escapedBars (s : String) : ℕ := bars true 0 s.toList

section Bars

variable {odd : Bool} {slashes : ℕ} {c : Char} {cs before after : List Char}

/-- Whether a character is neither a bar nor a backslash. -/
def IsPlain (c : Char) : Prop := c ≠ '|' ∧ c ≠ '\\'

theorem isPlain_of_isBlank (h : Text.isBlank c) : IsPlain c := by
  constructor <;> rintro rfl <;> exact absurd h (by decide)

theorem isPlain_of_alphanum (h : c.isAlphanum) : IsPlain c := by
  constructor <;> rintro rfl <;> exact absurd h (by decide)

theorem bars_cons_of_isPlain (h : IsPlain c) (cs : List Char) : bars odd slashes (c :: cs) = bars odd 0 cs := by
  simp [bars, h.1, h.2]

theorem bars_of_isPlain (h : ∀ c ∈ cs, IsPlain c) : bars odd slashes cs = 0 := by
  induction cs generalizing slashes with
  | nil => rfl
  | cons c cs ih =>
    obtain ⟨hc, hcs⟩ := List.forall_mem_cons.mp h
    rw [bars_cons_of_isPlain hc, ih hcs]

/-- Behind a character that is no backslash the count begins anew. -/
theorem bars_append_cons (h : IsPlain c) (cs after : List Char) :
    bars odd slashes (cs ++ c :: after) = bars odd slashes cs + bars odd 0 after := by
  induction cs generalizing slashes with
  | nil => simp [bars_cons_of_isPlain h, bars]
  | cons d cs ih => simp [bars, ih, Nat.add_assoc]

theorem bars_append_of_isPlain (h : ∀ c ∈ after, IsPlain c) (cs : List Char) :
    bars odd slashes (cs ++ after) = bars odd slashes cs := by
  cases after with
  | nil => simp
  | cons c after =>
    obtain ⟨hc, hafter⟩ := List.forall_mem_cons.mp h
    rw [bars_append_cons hc, bars_of_isPlain hafter, Nat.add_zero]

theorem bars_isPlain_append (h : ∀ c ∈ before, IsPlain c) (cs : List Char) :
    bars odd 0 (before ++ cs) = bars odd 0 cs := by
  induction before with
  | nil => rfl
  | cons c before ih =>
    obtain ⟨hc, hbefore⟩ := List.forall_mem_cons.mp h
    rw [List.cons_append, bars_cons_of_isPlain hc, ih hbefore]

/-- White space around a text does not matter. -/
theorem bars_trimChars (cs : List Char) : bars odd 0 (Text.trimChars cs) = bars odd 0 cs := by
  have hfront : ∀ c ∈ cs.takeWhile Text.isBlank, IsPlain c := fun c hc =>
    isPlain_of_isBlank (List.mem_takeWhile_imp hc)
  have hback : ∀ c ∈ ((cs.dropWhile Text.isBlank).reverse.takeWhile Text.isBlank).reverse, IsPlain c := fun c hc =>
    isPlain_of_isBlank (List.mem_takeWhile_imp (List.mem_reverse.mp hc))
  have hsplit : Text.trimChars cs ++ ((cs.dropWhile Text.isBlank).reverse.takeWhile Text.isBlank).reverse =
      cs.dropWhile Text.isBlank := by
    rw [Text.trimChars, Text.dropEndWhile, ← List.reverse_append, List.takeWhile_append_dropWhile, List.reverse_reverse]
  calc bars odd 0 (Text.trimChars cs)
    _ = bars odd 0 (cs.dropWhile Text.isBlank) := by rw [← hsplit, bars_append_of_isPlain hback]
    _ = bars odd 0 (cs.takeWhile Text.isBlank ++ cs.dropWhile Text.isBlank) := (bars_isPlain_append hfront _).symm
    _ = bars odd 0 cs := by rw [List.takeWhile_append_dropWhile]

/-- Characters that stay bars, backslashes or neither keep the count. -/
theorem bars_map {f : Char → Char} (h : ∀ c, (IsPlain c ∧ IsPlain (f c)) ∨ f c = c) (cs : List Char) :
    bars odd slashes (cs.map f) = bars odd slashes cs := by
  induction cs generalizing slashes with
  | nil => rfl
  | cons c cs ih =>
    rw [List.map_cons]
    rcases h c with ⟨hc, hfc⟩ | heq
    · rw [bars_cons_of_isPlain hfc, bars_cons_of_isPlain hc, ih]
    · simp only [heq, bars, ih]

theorem cellChar_of_ne (hbar : c ≠ '|') (hfeed : c ≠ '\n') (hreturn : c ≠ '\r') : cellChar c = [c] := by
  unfold cellChar
  split <;> simp_all

/-- With one more backslash before each bar, a bar that was escaped is open. -/
theorem bars_flatMap_cellChar (cs : List Char) : bars false slashes (cs.flatMap cellChar) = bars true slashes cs := by
  have hspace : IsPlain ' ' := isPlain_of_isBlank (by decide)
  have hfeed : IsPlain '\n' := isPlain_of_isBlank (by decide)
  have hreturn : IsPlain '\r' := isPlain_of_isBlank (by decide)
  induction cs generalizing slashes with
  | nil => rfl
  | cons c cs ih =>
    rw [List.flatMap_cons]
    by_cases hbar : c = '|'
    · subst hbar
      cases hodd : slashes.bodd <;> simp [cellChar, bars, ih, hodd]
    by_cases hline : c = '\n' ∨ c = '\r'
    · rcases hline with rfl | rfl
      · rw [cellChar, List.singleton_append, bars_cons_of_isPlain hspace, bars_cons_of_isPlain hfeed, ih]
      · rw [cellChar, List.singleton_append, bars_cons_of_isPlain hspace, bars_cons_of_isPlain hreturn, ih]
    · obtain ⟨hnofeed, hnoreturn⟩ := not_or.mp hline
      rw [cellChar_of_ne hbar hnofeed hnoreturn, List.singleton_append]
      simp [bars, hbar, ih]

end Bars

section Cells

variable {s : String} {texts : List String}

theorem toList_cell (s : String) : (cell s).toList = Text.trimChars (s.toList.flatMap cellChar) := by
  rw [cell, String.toList_ofList]

/-- The bars of a value that cut its cell are those that were escaped. -/
theorem openBars_cell (s : String) : openBars (cell s) = escapedBars s := by
  rw [openBars, toList_cell, bars_trimChars, bars_flatMap_cellChar, escapedBars]

theorem escapedBars_of_blank (h : Text.blank s) : escapedBars s = 0 :=
  bars_of_isPlain fun c hc => isPlain_of_isBlank (List.all_eq_true.mp h c hc)

theorem openBars_code (s : String) : openBars (code s) = escapedBars s := by
  unfold code
  split
  · next hblank =>
    rw [escapedBars_of_blank hblank]
    rfl
  · have hquote : IsPlain '\x60' := by unfold IsPlain; decide
    have hkeep : ∀ c : Char, (IsPlain c ∧ IsPlain (if c == '\x60' then '\x27' else c)) ∨
        (if c == '\x60' then '\x27' else c) = c := by
      intro c
      by_cases hc : c = '\x60'
      · subst hc
        exact .inl ⟨hquote, by unfold IsPlain; decide⟩
      · exact .inr (by simp [hc])
    have hopen : bars false 0 (cell s).toList = escapedBars s := openBars_cell s
    simp only [openBars, String.toList_append, String.toList_map]
    show bars false 0 (['\x60'] ++ (cell s).toList.map _ ++ ['\x60']) = _
    rw [bars_append_of_isPlain (by simpa using hquote), bars_isPlain_append (by simpa using hquote), bars_map hkeep, hopen]

theorem isLine_cell (s : String) : IsLine (cell s) := by
  have hline : ∀ c ∈ s.toList.flatMap cellChar, c ≠ '\n' ∧ c ≠ '\r' := by
    intro c hc
    obtain ⟨d, -, hd⟩ := List.mem_flatMap.mp hc
    unfold cellChar at hd
    split at hd <;> simp_all
    rcases hd with rfl | rfl <;> decide
  have htrim : ∀ c ∈ (cell s).toList, c ∈ s.toList.flatMap cellChar := by
    intro c hc
    rw [toList_cell, Text.trimChars] at hc
    exact (List.dropWhile_suffix _).subset ((Text.dropEndWhile_isPrefix _ _).subset hc)
  exact ⟨fun h => (hline _ (htrim _ h)).1 rfl, fun h => (hline _ (htrim _ h)).2 rfl⟩

theorem isLine_append {t : String} : IsLine (s ++ t) ↔ IsLine s ∧ IsLine t := by
  simp only [IsLine, String.toList_append, List.mem_append, not_or]
  exact and_and_and_comm

theorem isLine_code (s : String) : IsLine (code s) := by
  unfold code
  split
  · decide
  · obtain ⟨hfeed, hreturn⟩ := isLine_cell s
    refine isLine_append.mpr ⟨isLine_append.mpr ⟨by decide, ?_⟩, by decide⟩
    simp only [IsLine, String.toList_map, List.mem_map, not_exists, not_and]
    constructor <;> intro c hc <;> split <;> first | decide | (rintro rfl; contradiction)

end Cells

section Rows

variable {texts : List String}

/-- A row, character by character. -/
theorem toList_row (h : texts ≠ []) :
    (row texts).toList = '|' :: texts.flatMap fun t => ' ' :: t.toList ++ [' ', '|'] := by
  have hbody : ∀ {texts : List String}, texts ≠ [] → ' ' :: (" | ".intercalate texts).toList ++ [' ', '|'] =
      texts.flatMap fun t => ' ' :: t.toList ++ [' ', '|'] := by
    intro texts h
    induction texts with
    | nil => exact absurd rfl h
    | cons t texts ih =>
      cases texts with
      | nil => simp
      | cons u texts =>
        have hrest := ih (List.cons_ne_nil u texts)
        rw [List.flatMap_cons, ← hrest, String.intercalate_cons_cons]
        simp
  rw [← hbody h]
  simp [row]

theorem length_pieces (slashes : ℕ) (cs : List Char) : (pieces slashes cs).length = bars false slashes cs + 1 := by
  induction cs generalizing slashes with
  | nil => rfl
  | cons c cs ih =>
    have heven : Even slashes ↔ slashes.bodd = false := by
      rw [Nat.even_iff, Nat.mod_two_of_bodd]
      cases slashes.bodd <;> simp
    rw [pieces, bars]
    by_cases hcut : c = '|' ∧ slashes.bodd = false
    · have hslash : ¬ c = '\\' := by rw [hcut.1]; decide
      rw [if_pos (by rwa [heven]), if_pos hcut, if_neg hslash, List.length_cons, ih]
      omega
    · rw [if_neg (by rwa [heven]), if_neg hcut, List.length_modifyHead, ih, Nat.zero_add]

/-- A bar behind a space cuts. -/
theorem pieces_append_bar (slashes : ℕ) (cs after : List Char) :
    pieces slashes (cs ++ ' ' :: '|' :: after) = pieces slashes (cs ++ [' ']) ++ pieces 0 after := by
  induction cs generalizing slashes with
  | nil => simp [pieces]
  | cons c cs ih =>
    have hne : ∀ n, pieces n (cs ++ [' ']) ≠ [] := fun n =>
      List.ne_nil_of_length_pos (by rw [length_pieces]; exact Nat.succ_pos _)
    simp only [List.cons_append, pieces, ih]
    split
    · rfl
    · cases hpieces : pieces (if c = '\\' then slashes + 1 else 0) (cs ++ [' ']) with
      | nil => exact absurd hpieces (hne _)
      | cons piece pieces => rfl

/-- The pieces of a row: one or more for each of its texts, between two empty ones. -/
theorem pieces_row (h : texts ≠ []) :
    pieces 0 (row texts).toList = [] :: (texts.flatMap fun t => pieces 0 (' ' :: t.toList ++ [' '])) ++ [[]] := by
  have hbody : pieces 0 (texts.flatMap fun t => ' ' :: t.toList ++ [' ', '|']) =
      (texts.flatMap fun t => pieces 0 (' ' :: t.toList ++ [' '])) ++ [[]] := by
    clear h
    induction texts with
    | nil => rfl
    | cons t texts ih =>
      have hcut := pieces_append_bar 0 (' ' :: t.toList)
        (texts.flatMap fun t => ' ' :: t.toList ++ [' ', '|'])
      simp only [List.flatMap_cons, List.append_assoc, ← ih]
      simpa using hcut
  rw [toList_row h, pieces, if_pos ⟨rfl, Even.zero⟩, hbody, List.cons_append]

/-- A row has a cell for each of its texts, and one more for each bar in them that cuts. -/
theorem length_cells_row (h : texts ≠ []) :
    (cells (row texts)).length = texts.length + (texts.map openBars).sum := by
  have hspace : IsPlain ' ' := isPlain_of_isBlank (by decide)
  have hcells : cells (row texts) =
      (texts.flatMap fun t => pieces 0 (' ' :: t.toList ++ [' '])).map String.ofList := by
    simp only [cells, pieces_row h, List.cons_append, List.tail_cons, List.dropLast_concat]
  have heach (t : String) : (pieces 0 (' ' :: t.toList ++ [' '])).length = openBars t + 1 := by
    rw [length_pieces, List.cons_append, bars_cons_of_isPlain hspace, bars_append_of_isPlain (by simpa using hspace),
      openBars]
  rw [hcells, List.length_map, List.length_flatMap]
  simp only [heach, List.sum_map_add]
  simp [Nat.add_comm]

theorem isLine_row : IsLine (row texts) ↔ ∀ t ∈ texts, IsLine t := by
  by_cases h : texts = []
  · subst h
    exact iff_of_true (by decide) (by simp)
  · have hchars : ∀ c : Char, c ≠ '|' → c ≠ ' ' → (c ∉ (row texts).toList ↔ ∀ t ∈ texts, c ∉ t.toList) := by
      intro c hbar hspace
      rw [toList_row h]
      simp [hbar, hspace]
    rw [IsLine, hchars _ (by decide) (by decide), hchars _ (by decide) (by decide)]
    exact forall₂_and.symm

end Rows

end CodeAtlas.Markdown
