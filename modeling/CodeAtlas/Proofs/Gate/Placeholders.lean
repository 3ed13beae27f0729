import Mathlib
import CodeAtlas.Gate.Checks
import CodeAtlas.Proofs.Text.Pieces

/-! Placeholders outside code. Before the first backtick nothing is code, so the code that begins there is dropped
whatever follows it. Outside code the words between brackets are listed from left to right; none holds a bracket, so
no two of them overlap. -/
namespace CodeAtlas.Gate

section Code

variable {a x b : List Char} {c : Char}

theorem not_fence_of_ne (hc : c ≠ '\x60') (cs : List Char) : ¬ fence <+: c :: cs := by
  intro h
  exact hc (List.cons_prefix_cons.mp h).1.symm

theorem outsideFences_modifyHead (a : List Char) {pieces : List (List Char)} (h : pieces ≠ []) :
    outsideFences (pieces.modifyHead (a ++ ·)) = a ++ outsideFences pieces := by
  match pieces with
  | [] => exact absurd rfl h
  | [piece] => rfl
  | [piece, rest] => simp [outsideFences]
  | piece :: block :: next :: rest => simp [outsideFences]

theorem withoutBlocks_cons (h : ¬ fence <+: c :: b) : withoutBlocks (c :: b) = c :: withoutBlocks b := by
  rw [withoutBlocks, Text.splitOnChars_cons h]
  exact outsideFences_modifyHead [c] (Text.splitOnChars_ne_nil fence 0 b)

/-- Blocks of code begin with a backtick. -/
theorem withoutBlocks_append (ha : '\x60' ∉ a) (b : List Char) : withoutBlocks (a ++ b) = a ++ withoutBlocks b := by
  induction a with
  | nil => rfl
  | cons c a ih =>
    obtain ⟨hc, ha⟩ := not_or.mp (mt List.mem_cons.mpr ha)
    rw [List.cons_append, withoutBlocks_cons (not_fence_of_ne (Ne.symm hc) _), ih ha, List.cons_append]

theorem fence_ne_nil : fence ≠ [] := List.cons_ne_nil _ _

/-- Whether a fence behind a text is the first one. -/
def IsUnfenced (cs : List Char) : Prop := ¬ fence <:+: cs ++ fence.dropLast

theorem isUnfenced_of_plain (ha : '\x60' ∉ a) : IsUnfenced a := by
  intro hfence
  have hcount := hfence.sublist.count_le '\x60'
  rw [List.count_append, List.count_eq_zero.mpr ha] at hcount
  exact absurd hcount (by decide)

theorem splitFirst?_fence (ha : IsUnfenced a) (b : List Char) :
    Text.splitFirst? fence (a ++ (fence ++ b)) = some (a, b) :=
  (Text.splitFirst?_eq_some_iff fence_ne_nil).mpr ⟨rfl, ha⟩

/-- A block of code is dropped. -/
theorem withoutBlocks_between (ha : IsUnfenced a) (hx : IsUnfenced x) (b : List Char) :
    withoutBlocks (a ++ (fence ++ (x ++ (fence ++ b)))) = a ++ withoutBlocks b := by
  rw [withoutBlocks, Text.splitOnChars_eq fence_ne_nil, splitFirst?_fence ha]
  show outsideFences (a :: Text.splitOnChars fence 0 (x ++ (fence ++ b))) = _
  rw [Text.splitOnChars_eq fence_ne_nil, splitFirst?_fence hx]
  show outsideFences (a :: x :: Text.splitOnChars fence 0 b) = _
  cases hpieces : Text.splitOnChars fence 0 b with
  | nil => exact absurd hpieces (Text.splitOnChars_ne_nil fence 0 b)
  | cons piece pieces =>
    rw [withoutBlocks, hpieces]
    rfl

theorem withoutPieces_skip (skipped cs : List Char) :
    withoutPieces skipped.length (skipped ++ cs) = withoutPieces 0 cs := by
  induction skipped with
  | nil => rfl
  | cons c skipped ih => exact ih

theorem withoutPieces_keep (hc : c ≠ '\x60') (cs : List Char) : withoutPieces 0 (c :: cs) = c :: withoutPieces 0 cs := by
  rw [withoutPieces, if_neg hc]

theorem withoutPieces_append (ha : '\x60' ∉ a) (b : List Char) : withoutPieces 0 (a ++ b) = a ++ withoutPieces 0 b := by
  induction a with
  | nil => rfl
  | cons c a ih =>
    obtain ⟨hc, ha⟩ := not_or.mp (mt List.mem_cons.mpr ha)
    rw [List.cons_append, withoutPieces_keep (Ne.symm hc), ih ha, List.cons_append]

theorem codeLength?_piece (hx : '\x60' ∉ x) (hne : x ≠ []) (b : List Char) :
    codeLength? (x ++ '\x60' :: b) = some (x.length + 1) := by
  have hplain : ∀ c ∈ x, decide (c ≠ '\x60') = true := fun c hc => decide_eq_true fun heq => hx (heq ▸ hc)
  have hcode : (x ++ '\x60' :: b).takeWhile (· ≠ '\x60') = x := by
    rw [List.takeWhile_append_of_pos hplain, List.takeWhile_cons_of_neg (by decide), List.append_nil]
  have hrest : (x ++ '\x60' :: b).drop x.length = '\x60' :: b := List.drop_left
  simp only [codeLength?, hcode, hrest, List.isEmpty_cons, Bool.or_false, List.isEmpty_iff, hne, if_false]

theorem withoutPieces_piece (hx : '\x60' ∉ x) (hne : x ≠ []) (b : List Char) :
    withoutPieces 0 ('\x60' :: (x ++ '\x60' :: b)) = withoutPieces 0 b := by
  have hpassed : x ++ '\x60' :: b = (x ++ ['\x60']) ++ b := by simp
  have hlength : x.length + 1 = (x ++ ['\x60']).length := by simp
  rw [withoutPieces, if_pos rfl, codeLength?_piece hx hne]
  show withoutPieces (x.length + 1) (x ++ '\x60' :: b) = _
  rw [hpassed, hlength, withoutPieces_skip]

/-- A block of code at the first backtick is dropped. -/
theorem withoutCode_block (ha : '\x60' ∉ a) (hx : '\x60' ∉ x) (b : List Char) :
    withoutCode (a ++ (fence ++ (x ++ (fence ++ b)))) = withoutCode (a ++ b) := by
  rw [withoutCode, withoutCode, withoutBlocks_between (isUnfenced_of_plain ha) (isUnfenced_of_plain hx),
    withoutBlocks_append ha]

/-- A piece of code at the first backtick is dropped, unless its last backtick can begin a block. -/
theorem withoutCode_piece (ha : '\x60' ∉ a) (hx : '\x60' ∉ x) (hne : x ≠ []) (hb : b.head? ≠ some '\x60') :
    withoutCode (a ++ '\x60' :: (x ++ '\x60' :: b)) = withoutCode (a ++ b) := by
  have hfirst : ¬ fence <+: '\x60' :: (x ++ '\x60' :: b) := by
    cases x with
    | nil => exact absurd rfl hne
    | cons c x =>
      obtain ⟨hc, _⟩ := not_or.mp (mt List.mem_cons.mpr hx)
      intro h
      exact hc (List.cons_prefix_cons.mp (List.cons_prefix_cons.mp h).2).1
  have hlast : ¬ fence <+: '\x60' :: b := by
    cases b with
    | nil => decide
    | cons c b =>
      intro h
      exact hb (congrArg some (List.cons_prefix_cons.mp (List.cons_prefix_cons.mp h).2).1.symm)
  rw [withoutCode, withoutCode, withoutBlocks_append ha, withoutBlocks_append ha, withoutBlocks_cons hfirst,
    withoutBlocks_append hx, withoutBlocks_cons hlast, withoutPieces_append ha, withoutPieces_append ha,
    withoutPieces_piece hx hne]

theorem withoutCode_of_plain (ha : '\x60' ∉ a) : withoutCode a = a := by
  have hblocks := withoutBlocks_append ha []
  have hpieces := withoutPieces_append ha []
  rw [List.append_nil] at hblocks hpieces
  rw [withoutCode, hblocks]
  show withoutPieces 0 (a ++ []) = a
  rw [List.append_nil, hpieces]
  exact List.append_nil a

end Code

/-- A word that can stand between brackets: a capital with two to thirty capitals, digits, underscores or blanks. -/
def IsToken (word : List Char) : Prop :=
  ∃ c more, word = c :: more ∧ ('A' ≤ c ∧ c ≤ 'Z') ∧ 2 ≤ more.length ∧ more.length ≤ 30 ∧
    ∀ d ∈ more, ('A' ≤ d ∧ d ≤ 'Z') ∨ ('0' ≤ d ∧ d ≤ '9') ∨ d = '_' ∨ Text.isBlank d = true

/-- Whether a word is on the list of placeholders or holds one of the words that make it one. -/
def IsUnfilled (word : List Char) : Prop :=
  String.ofList word ∈ knownPlaceholders ∨ ∃ keyword ∈ placeholderKeywords, keyword.toList <:+: word

instance (word : List Char) : Decidable (IsUnfilled word) := inferInstanceAs (Decidable (_ ∨ _))

/-- A word between brackets, with the place of the opening one. -/
structure Mark where
  place : Nat
  word : List Char
deriving DecidableEq

namespace Mark

/-- The place behind the closing bracket. -/
def stop (m : Mark) : Nat := m.place + m.word.length + 2

/-- The mark in a text with one more character in front. -/
def behind (m : Mark) : Mark := { m with place := m.place + 1 }

/-- Whether a text has a bracketed word at the place of a mark. -/
def StandsIn (m : Mark) (cs : List Char) : Prop := IsToken m.word ∧ '[' :: (m.word ++ [']']) <+: cs.drop m.place

theorem standsIn_behind {m : Mark} {c : Char} {cs : List Char} : m.behind.StandsIn (c :: cs) ↔ m.StandsIn cs := Iff.rfl

end Mark

section Marks

variable {c d : Char} {cs word : List Char} {m : Mark}

theorem isCapital_iff : isCapital c = true ↔ 'A' ≤ c ∧ c ≤ 'Z' := by
  rw [isCapital, Bool.and_eq_true, decide_eq_true_eq, decide_eq_true_eq]

theorem isPlaceholderChar_iff : isPlaceholderChar d = true ↔
    ('A' ≤ d ∧ d ≤ 'Z') ∨ ('0' ≤ d ∧ d ≤ '9') ∨ d = '_' ∨ Text.isBlank d = true := by
  have hdigit : d.isDigit = true ↔ '0' ≤ d ∧ d ≤ '9' := by
    rw [Char.isDigit, Bool.and_eq_true, decide_eq_true_eq, decide_eq_true_eq]
    rfl
  rw [isPlaceholderChar, Bool.or_eq_true, Bool.or_eq_true, Bool.or_eq_true, isCapital_iff, hdigit, beq_iff_eq, or_assoc,
    or_assoc]

/-- A bracketed word is read where a text goes on with it and with the closing bracket. -/
theorem bracketed?_eq_some_iff : bracketed? cs = some word ↔ IsToken word ∧ word ++ [']'] <+: cs := by
  constructor
  · intro h
    cases cs with
    | nil => cases h
    | cons c cs =>
      rw [bracketed?] at h
      split at h
      · next hword =>
        cases h
        simp only [Bool.and_eq_true, decide_eq_true_eq, beq_iff_eq, isCapital_iff] at hword
        obtain ⟨⟨⟨hcapital, hleast⟩, hmost⟩, hclosed⟩ := hword
        refine ⟨⟨c, _, rfl, hcapital, hleast, hmost, fun d hd => ?_⟩, ?_⟩
        · exact isPlaceholderChar_iff.mp (List.mem_takeWhile_imp hd)
        · obtain ⟨rest, hrest⟩ := List.head?_eq_some_iff.mp hclosed
          have hcs : cs.takeWhile isPlaceholderChar ++ ']' :: rest = cs := by
            rw [← hrest]
            exact List.prefix_iff_eq_append.mp (List.takeWhile_prefix isPlaceholderChar)
          exact ⟨rest, by simpa using hcs⟩
      · cases h
  · rintro ⟨⟨c, more, rfl, hcapital, hleast, hmost, hmore⟩, rest, rfl⟩
    have hrun : ∀ d ∈ more, isPlaceholderChar d = true := fun d hd => isPlaceholderChar_iff.mpr (hmore d hd)
    have htake : (more ++ ']' :: rest).takeWhile isPlaceholderChar = more := by
      rw [List.takeWhile_append_of_pos hrun, List.takeWhile_cons_of_neg (by decide), List.append_nil]
    have hdrop : (more ++ ']' :: rest).drop more.length = ']' :: rest := List.drop_left
    have htext : c :: more ++ [']'] ++ rest = c :: (more ++ ']' :: rest) := by simp
    rw [htext, bracketed?]
    simp [htake, hdrop, isCapital_iff.mpr hcapital, hleast, hmost]

/-- The bracketed words of a text with their places. -/
def marks : List Char → List Mark
  | [] => []
  | c :: cs => (if c = '[' then (bracketed? cs).toList.map (⟨0, ·⟩) else []) ++ (marks cs).map Mark.behind

theorem map_word_marks (cs : List Char) : (marks cs).map Mark.word = bracketedWords cs := by
  induction cs with
  | nil => rfl
  | cons c cs ih =>
    have hbehind : (marks cs).map (Mark.word ∘ Mark.behind) = bracketedWords cs := ih
    rw [marks, bracketedWords, List.map_append, List.map_map, hbehind]
    split
    · rw [List.map_map]
      exact congrArg (· ++ _) (List.map_id _)
    · rfl

/-- Every bracketed word is listed. -/
theorem mem_marks_iff : m ∈ marks cs ↔ m.StandsIn cs := by
  induction cs generalizing m with
  | nil =>
    refine iff_of_false List.not_mem_nil fun ⟨_, h⟩ => ?_
    rw [List.drop_nil] at h
    cases List.prefix_nil.mp h
  | cons c cs ih =>
    obtain ⟨place, word⟩ := m
    rw [marks, List.mem_append]
    cases place with
    | zero =>
      have hbehind : ⟨0, word⟩ ∉ (marks cs).map Mark.behind := by
        simp [Mark.behind]
      have hstands : Mark.StandsIn ⟨0, word⟩ (c :: cs) ↔ c = '[' ∧ bracketed? cs = some word := by
        rw [Mark.StandsIn, List.drop_zero, List.cons_prefix_cons, bracketed?_eq_some_iff, eq_comm, and_left_comm]
      rw [hstands, or_iff_left hbehind]
      by_cases hc : c = '[' <;> simp [hc]
    | succ place =>
      have hfirst : ⟨place + 1, word⟩ ∉ if c = '[' then (bracketed? cs).toList.map (Mark.mk 0) else [] := by
        split <;> simp
      have hbehind : ⟨place + 1, word⟩ ∈ (marks cs).map Mark.behind ↔ ⟨place, word⟩ ∈ marks cs := by
        constructor
        · intro h
          obtain ⟨⟨place', word'⟩, hmem, heq⟩ := List.mem_map.mp h
          cases heq
          exact hmem
        · exact fun h => List.mem_map.mpr ⟨_, h, rfl⟩
      rw [or_iff_right hfirst, hbehind, ih]
      exact Mark.standsIn_behind.symm

theorem IsToken.notMem (h : IsToken word) (hd : isPlaceholderChar d = false) : d ∉ word := by
  obtain ⟨c, more, rfl, hcapital, _, _, hmore⟩ := h
  rw [← Bool.not_eq_true, isPlaceholderChar_iff] at hd
  rw [List.mem_cons, not_or]
  exact ⟨fun heq => hd (.inl (heq ▸ hcapital)), fun hmem => hd (hmore d hmem)⟩

theorem IsToken.bracket_notMem (h : IsToken word) : '[' ∉ word ++ [']'] := by
  rw [List.mem_append, not_or]
  exact ⟨h.notMem rfl, by decide⟩

/-- Inside a bracketed word no other one begins. -/
theorem Mark.StandsIn.stop_le {place : Nat} {word' : List Char} (h : Mark.StandsIn ⟨0, word⟩ cs)
    (h' : Mark.StandsIn ⟨place + 1, word'⟩ cs) : word.length + 1 ≤ place := by
  obtain ⟨htoken, rest, rfl⟩ := h
  obtain ⟨_, rest', hopen⟩ := h'
  have hbracket : ((word ++ [']']) ++ rest)[place]? = some '[' := by
    have hhead := congrArg List.head? hopen
    rw [List.head?_drop] at hhead
    exact hhead.symm
  by_contra hless
  rw [List.getElem?_append_left (by simpa using Nat.not_le.mp hless)] at hbracket
  exact htoken.bracket_notMem (List.mem_of_getElem? hbracket)

/-- The bracketed words are listed in the order in which they stand, and no two of them overlap. -/
theorem pairwise_marks (cs : List Char) : (marks cs).Pairwise fun m n => m.stop ≤ n.place := by
  induction cs with
  | nil => exact .nil
  | cons c cs ih =>
    have hbehind : ((marks cs).map Mark.behind).Pairwise fun m n => m.stop ≤ n.place := by
      refine List.pairwise_map.mpr (ih.imp fun {m n} h => ?_)
      show m.place + 1 + m.word.length + 2 ≤ n.place + 1
      unfold Mark.stop at h
      omega
    rw [marks]
    split
    · next hc =>
      cases hword : bracketed? cs with
      | none => exact hbehind
      | some word =>
        have hfirst : (⟨0, word⟩ : Mark) ∈ marks (c :: cs) := by simp [marks, hc, hword]
        refine List.pairwise_cons.mpr ⟨?_, hbehind⟩
        show ∀ n ∈ (marks cs).map Mark.behind, Mark.stop ⟨0, word⟩ ≤ n.place
        rw [List.forall_mem_map]
        intro n hn
        have hstop := (mem_marks_iff.mp hfirst).stop_le (Mark.standsIn_behind.mpr (mem_marks_iff.mp hn))
        show 0 + word.length + 2 ≤ n.place + 1
        omega
    · exact hbehind

theorem isPlaceholder_iff : isPlaceholder (String.ofList word) = true ↔ IsUnfilled word := by
  simp only [isPlaceholder, IsUnfilled, Bool.or_eq_true, List.contains_iff_mem, List.any_eq_true, Text.contains_iff,
    String.toList_ofList]

end Marks

/-- The placeholders of a text are told by what is left of it without code. -/
theorem placeholders_congr {s t : String} (h : withoutCode s.toList = withoutCode t.toList) :
    placeholders s = placeholders t := by
  rw [placeholders, placeholders, h]

/-- The placeholders of a text, from the marks of what is left of it without code. -/
theorem placeholders_eq_marks (s : String) : placeholders s =
    ((marks (withoutCode s.toList)).filter fun m => IsUnfilled m.word).map fun m => "[" ++ String.ofList m.word ++ "]" := by
  have hfilter (ms : List Mark) : ((ms.map Mark.word).map String.ofList).filter isPlaceholder =
      ((ms.filter fun m => IsUnfilled m.word).map Mark.word).map String.ofList := by
    rw [List.map_map, List.map_map, List.filter_map]
    refine congrArg _ (List.filter_congr fun m _ => ?_)
    rw [Bool.eq_iff_iff, decide_eq_true_iff]
    exact isPlaceholder_iff
  rw [placeholders, ← map_word_marks, hfilter, List.map_map, List.map_map]
  rfl

/-- The placeholders of a text without backticks, from its marks. -/
theorem placeholders_of_plain {s : String} (h : '\x60' ∉ s.toList) :
    placeholders s = ((marks s.toList).filter fun m => IsUnfilled m.word).map fun m =>
      "[" ++ String.ofList m.word ++ "]" := by
  rw [placeholders_eq_marks, withoutCode_of_plain h]

/-- A placeholder is an unfilled word that stands between brackets in what is left of a text without code. -/
theorem mem_placeholders_iff {s token : String} : token ∈ placeholders s ↔ ∃ word, IsToken word ∧ IsUnfilled word ∧
    '[' :: (word ++ [']']) <:+: withoutCode s.toList ∧ "[" ++ String.ofList word ++ "]" = token := by
  have hmark (word : List Char) : (∃ m ∈ marks (withoutCode s.toList), m.word = word) ↔
      IsToken word ∧ '[' :: (word ++ [']']) <:+: withoutCode s.toList := by
    simp only [mem_marks_iff, Mark.StandsIn]
    constructor
    · rintro ⟨m, ⟨htoken, hfront⟩, rfl⟩
      exact ⟨htoken, hfront.isInfix.trans (List.drop_suffix _ _).isInfix⟩
    · rintro ⟨htoken, front, back, heq⟩
      refine ⟨⟨front.length, word⟩, ⟨htoken, back, ?_⟩, rfl⟩
      rw [← heq, List.append_assoc, List.drop_left]
  simp only [placeholders_eq_marks, List.mem_map, List.mem_filter, decide_eq_true_eq]
  constructor
  · rintro ⟨m, ⟨hm, hunfilled⟩, rfl⟩
    obtain ⟨htoken, hwithin⟩ := (hmark m.word).mp ⟨m, hm, rfl⟩
    exact ⟨m.word, htoken, hunfilled, hwithin, rfl⟩
  · rintro ⟨word, htoken, hunfilled, hwithin, rfl⟩
    obtain ⟨m, hm, rfl⟩ := (hmark word).mpr ⟨htoken, hwithin⟩
    exact ⟨m, ⟨hm, hunfilled⟩, rfl⟩

/-- Code does not matter to the search for placeholders: a block of code at the first backtick of a text is as good as
nothing, whatever follows it, and so is a piece of code there unless another backtick follows. In a text without
backticks the placeholders are, from left to right, the bracketed words that are unfilled; no two of these overlap. -/
theorem placeholders_outside_code :
    (∀ a x b : String, '\x60' ∉ a.toList → '\x60' ∉ x.toList →
      placeholders (a ++ "```" ++ x ++ "```" ++ b) = placeholders (a ++ b)) ∧
    (∀ a x b : String, '\x60' ∉ a.toList → '\x60' ∉ x.toList → x ≠ "" → b.toList.head? ≠ some '\x60' →
      placeholders (a ++ "`" ++ x ++ "`" ++ b) = placeholders (a ++ b)) ∧
    ∀ text : String, '\x60' ∉ text.toList → ∃ found : List Mark,
      (∀ m, m ∈ found ↔ m.StandsIn text.toList) ∧ (found.Pairwise fun m n => m.stop ≤ n.place) ∧
        placeholders text =
          (found.filter fun m => IsUnfilled m.word).map fun m => "[" ++ String.ofList m.word ++ "]" := by
  refine ⟨fun a x b ha hx => ?_, fun a x b ha hx hne hb => ?_, fun text htext => ?_⟩
  · have hcode := withoutCode_block ha hx b.toList
    exact placeholders_congr (by simpa [fence] using hcode)
  · have hcode := withoutCode_piece ha hx (mt String.toList_eq_nil_iff.mp hne) hb
    exact placeholders_congr (by simpa using hcode)
  · exact ⟨marks text.toList, fun m => mem_marks_iff, pairwise_marks text.toList, placeholders_of_plain htext⟩

theorem placeholders_outside_code_owner :
    placeholders ("Owner: [TODO] " ++ "```" ++ "[TBD]" ++ "```" ++ "``` [YOUR NAME]") =
        placeholders ("Owner: [TODO] " ++ "``` [YOUR NAME]") ∧
      placeholders ("Owner: [TODO] " ++ "`" ++ "[TBD]" ++ "`" ++ " ``` [YOUR NAME]") =
        placeholders ("Owner: [TODO] " ++ " ``` [YOUR NAME]") ∧
      ∃ found : List Mark, (∀ m, m ∈ found ↔ m.StandsIn "[[TODO] [HTTP] [ASK YOUR\nTEAM]".toList) ∧
        (found.Pairwise fun m n => m.stop ≤ n.place) ∧
          ((found.filter fun m => IsUnfilled m.word).map fun m => "[" ++ String.ofList m.word ++ "]") =
            ["[TODO]", "[ASK YOUR\nTEAM]"] := by
  obtain ⟨hblock, hpiece, hplain⟩ := placeholders_outside_code
  refine ⟨hblock _ _ _ (by decide) (by decide), hpiece _ _ _ (by decide) (by decide) (by decide) (by decide), ?_⟩
  obtain ⟨found, hfound, hapart, heq⟩ := hplain "[[TODO] [HTTP] [ASK YOUR\nTEAM]" (by decide)
  refine ⟨found, hfound, hapart, heq.symm.trans ?_⟩
  decide +kernel

end CodeAtlas.Gate
