import CodeAtlas.Words
import Mathlib.Data.List.Chain

/-! Pieces of words. Three characters in a row decide where a word is cut, but of every piece it can be told from the piece
alone that it is one: digits, capitals, or small letters with at most one capital in front. Of all ways to cut a word into
such pieces there is one in which no two neighbours are one piece together and no capital is cut off from the small letters
behind it. One more character in front changes only the first piece (`isSegmentation_cons_cons`), and by induction this one
way is the one in which words are cut. -/
namespace CodeAtlas
namespace Words

/-- Whether a text is not empty and all its characters are of one class. -/
def IsRun (k : Class) (cs : List Char) : Prop := cs ≠ [] ∧ ∀ c ∈ cs, classOf c = k

/-- What a piece of a word can be. -/
inductive IsPiece : List Char → Prop
  | digits {cs : List Char} (run : IsRun .digit cs) : IsPiece cs
  | capitals {cs : List Char} (run : IsRun .upper cs) : IsPiece cs
  | small {cs : List Char} (run : IsRun .lower cs) : IsPiece cs
  | capitalized {c : Char} {cs : List Char} (capital : classOf c = .upper) (run : IsRun .lower cs) : IsPiece (c :: cs)

/-- Whether no capital at the end of a piece is cut off from small letters behind it. -/
def KeepsCapital (p cs : List Char) : Prop :=
  ∀ c ∈ p.getLast?, ∀ d ∈ cs.head?, classOf c = .upper → classOf d ≠ .lower

/-- Whether two neighbours are rightly two pieces: together they are none, and no capital is cut off. -/
def Parted (p q : List Char) : Prop := ¬ IsPiece (p ++ q) ∧ KeepsCapital p q

/-- A way to cut a word into pieces. -/
structure IsSegmentation (word : List Char) (ps : List (List Char)) : Prop where
  joined : ps.flatten = word
  shape : ∀ p ∈ ps, IsPiece p
  parted : ps.IsChain Parted

section Piece

variable {k : Class} {c d : Char} {p q cs : List Char}

@[simp] theorem isRun_cons : IsRun k (c :: cs) ↔ classOf c = k ∧ ∀ d ∈ cs, classOf d = k := by
  simp [IsRun]

theorem IsPiece.ne_nil (h : IsPiece p) : p ≠ [] := by
  cases h with
  | digits run => exact run.1
  | capitals run => exact run.1
  | small run => exact run.1
  | capitalized _ _ => simp

theorem isPiece_singleton (c : Char) : IsPiece [c] := by
  cases hc : classOf c with
  | upper => apply IsPiece.capitals; simp [hc]
  | lower => apply IsPiece.small; simp [hc]
  | digit => apply IsPiece.digits; simp [hc]

/-- A character belongs to the piece behind it where a word is not cut between the two. -/
theorem isPiece_cons_cons : IsPiece (c :: d :: cs) ↔
    IsPiece (d :: cs) ∧ isCut (classOf c) (classOf d) (cs.head?.map classOf) = false := by
  constructor
  · intro h
    cases h with
    | digits run =>
      simp only [isRun_cons, List.forall_mem_cons] at run
      refine ⟨.digits ?_, by simp [run, isCut]⟩
      simpa using run.2
    | capitals run =>
      simp only [isRun_cons, List.forall_mem_cons] at run
      refine ⟨.capitals (by simpa using run.2), ?_⟩
      cases cs with
      | nil => simp [run, isCut]
      | cons e cs => simp [run, isCut]
    | small run =>
      simp only [isRun_cons, List.forall_mem_cons] at run
      refine ⟨.small (by simpa using run.2), by simp [run, isCut]⟩
    | capitalized capital run => exact ⟨.small run, by simp [capital, (isRun_cons.mp run).1, isCut]⟩
  · rintro ⟨h, hcut⟩
    cases h with
    | digits run =>
      have hd := (isRun_cons.mp run).1
      apply IsPiece.digits
      cases hc : classOf c <;> simp_all [isCut]
    | capitals run =>
      have hd := (isRun_cons.mp run).1
      apply IsPiece.capitals
      cases hc : classOf c <;> simp_all [isCut]
    | small run =>
      have hd := (isRun_cons.mp run).1
      cases hc : classOf c with
      | upper => exact .capitalized hc run
      | lower => apply IsPiece.small; simp_all
      | digit => simp [hc, hd, isCut] at hcut
    | capitalized capital run =>
      -- the capital begins a piece of its own
      obtain ⟨e, es, rfl⟩ := List.exists_cons_of_ne_nil run.1
      have he := (isRun_cons.mp run).1
      cases hc : classOf c <;> simp [hc, capital, he, isCut] at hcut

/-- What stands behind a piece does not decide whether it is cut behind its first character. -/
theorem KeepsCapital.isCut_append (h : KeepsCapital (d :: q) cs) (k : Class) :
    isCut k (classOf d) ((q ++ cs).head?.map classOf) = isCut k (classOf d) (q.head?.map classOf) := by
  cases q with
  | cons e q => rfl
  | nil =>
    cases cs with
    | nil => rfl
    | cons e cs =>
      -- the third character counts only between two capitals
      have hlast : classOf d = .upper → classOf e ≠ .lower := h d rfl e rfl
      cases hd : classOf d <;> cases k <;> simp_all [isCut]

/-- A character that belongs to a piece does not change how the piece stands to the next one. -/
theorem parted_cons_cons (h : IsPiece (c :: d :: p)) : Parted (c :: d :: p) q ↔ Parted (d :: p) q := by
  have hlast : KeepsCapital (c :: d :: p) q ↔ KeepsCapital (d :: p) q := by
    rw [KeepsCapital, List.getLast?_cons_cons, KeepsCapital]
  rw [Parted, Parted, hlast]
  apply and_congr_left
  intro hkeeps
  have hcut : isCut (classOf c) (classOf d) ((p ++ q).head?.map classOf) = false := by
    rw [hkeeps.isCut_append, (isPiece_cons_cons.mp h).2]
  show ¬ IsPiece (c :: d :: (p ++ q)) ↔ ¬ IsPiece (d :: (p ++ q))
  rw [isPiece_cons_cons, hcut]
  simp

end Piece

section Segmentation

variable {c d : Char} {p q word rest : List Char} {ps qs : List (List Char)}

theorem isSegmentation_nil : IsSegmentation [] ps ↔ ps = [] := by
  constructor
  · intro h
    cases ps with
    | nil => rfl
    | cons p ps =>
      have hempty : p = [] := (List.append_eq_nil_iff.mp h.joined).1
      exact absurd hempty (h.shape p List.mem_cons_self).ne_nil
  · rintro rfl
    exact ⟨rfl, by simp, .nil⟩

theorem IsSegmentation.tail (h : IsSegmentation word (p :: ps)) : IsSegmentation ps.flatten ps where
  joined := rfl
  shape q hq := h.shape q (List.mem_cons_of_mem p hq)
  parted := h.parted.tail

/-- A word begins with its first piece. -/
theorem IsSegmentation.exists_cons (h : IsSegmentation (c :: word) ps) :
    ∃ q qs, ps = (c :: q) :: qs ∧ word = q ++ qs.flatten := by
  cases ps with
  | nil => cases h.joined
  | cons p ps =>
    obtain ⟨b, q, rfl⟩ := List.exists_cons_of_ne_nil (h.shape p List.mem_cons_self).ne_nil
    obtain ⟨rfl, hword⟩ := List.cons.inj h.joined
    exact ⟨q, ps, rfl, hword.symm⟩

theorem isSegmentation_singleton : IsSegmentation [c] ps ↔ ps = [[c]] := by
  constructor
  · intro h
    obtain ⟨q, qs, rfl, hrest⟩ := h.exists_cons
    obtain ⟨rfl, hqs⟩ := List.append_eq_nil_iff.mp hrest.symm
    have htail := h.tail
    rw [hqs, isSegmentation_nil] at htail
    rw [htail]
  · rintro rfl
    exact ⟨rfl, by simp [isPiece_singleton], .singleton _⟩

/-- A character in front belongs to the first piece unless the word is cut behind it. -/
theorem IsSegmentation.isPiece_cons_iff (h : IsSegmentation (d :: rest) ((d :: q) :: qs)) (c : Char) :
    IsPiece (c :: d :: q) ↔ isCut (classOf c) (classOf d) (rest.head?.map classOf) = false := by
  have hrest : rest = q ++ qs.flatten := (List.cons.inj h.joined).2.symm
  have hkeeps : KeepsCapital (d :: q) qs.flatten := by
    cases qs with
    | nil => simp [KeepsCapital]
    | cons p qs =>
      obtain ⟨e, p, rfl⟩ := List.exists_cons_of_ne_nil (h.shape p (by simp)).ne_nil
      exact (List.isChain_cons_cons.mp h.parted).1.2
  rw [isPiece_cons_cons, hrest, hkeeps.isCut_append]
  exact and_iff_right (h.shape _ List.mem_cons_self)

/-- One more character in front is a piece of its own, or belongs to the first piece. -/
theorem isSegmentation_cons_cons : IsSegmentation (c :: d :: rest) ps ↔
    ∃ q qs, IsSegmentation (d :: rest) ((d :: q) :: qs) ∧
      ps = if isCut (classOf c) (classOf d) (rest.head?.map classOf) then [c] :: (d :: q) :: qs
        else (c :: d :: q) :: qs := by
  constructor
  · intro h
    obtain ⟨p, ps, rfl, hrest⟩ := h.exists_cons
    -- the first piece is the character alone, or goes on behind it
    cases p with
    | nil =>
      have htail : IsSegmentation (d :: rest) ps := by
        rw [hrest]
        exact h.tail
      obtain ⟨q, qs, rfl, -⟩ := htail.exists_cons
      refine ⟨q, qs, htail, ?_⟩
      have hparted : Parted [c] (d :: q) := (List.isChain_cons_cons.mp h.parted).1
      have hcut := mt (htail.isPiece_cons_iff c).mpr hparted.1
      rw [Bool.not_eq_false] at hcut
      rw [if_pos hcut]
    | cons b q =>
      obtain ⟨rfl, hrest⟩ := List.cons.inj hrest
      have hpiece : IsPiece (c :: d :: q) := h.shape _ List.mem_cons_self
      have hbehind : IsSegmentation (d :: rest) ((d :: q) :: ps) := by
        refine ⟨by rw [hrest]; rfl, ?_, ?_⟩
        · rw [List.forall_mem_cons]
          exact ⟨(isPiece_cons_cons.mp hpiece).1, h.tail.shape⟩
        · rw [List.isChain_cons]
          exact ⟨fun r hr => (parted_cons_cons hpiece).mp ((List.isChain_cons.mp h.parted).1 r hr), h.tail.parted⟩
      refine ⟨q, ps, hbehind, ?_⟩
      rw [(hbehind.isPiece_cons_iff c).mp hpiece]
      rfl
  · rintro ⟨q, qs, h, rfl⟩
    split
    · next hcut =>
      have hparted : Parted [c] (d :: q) := by
        constructor
        · intro hpiece
          rw [(h.isPiece_cons_iff c).mp hpiece] at hcut
          cases hcut
        · simp only [KeepsCapital, List.getLast?_singleton, List.head?_cons, Option.mem_some_iff, forall_eq']
          intro hc hd
          rw [hc, hd] at hcut
          cases hcut
      refine ⟨congrArg (c :: ·) h.joined, ?_, List.isChain_cons_cons.mpr ⟨hparted, h.parted⟩⟩
      rw [List.forall_mem_cons]
      exact ⟨isPiece_singleton c, h.shape⟩
    · next hcut =>
      have hpiece : IsPiece (c :: d :: q) := (h.isPiece_cons_iff c).mpr (Bool.eq_false_iff.mpr hcut)
      refine ⟨congrArg (c :: ·) h.joined, ?_, ?_⟩
      · rw [List.forall_mem_cons]
        exact ⟨hpiece, h.tail.shape⟩
      · rw [List.isChain_cons]
        exact ⟨fun r hr => (parted_cons_cons hpiece).mpr ((List.isChain_cons.mp h.parted).1 r hr), h.tail.parted⟩

theorem exists_pieces_cons (c : Char) (cs : List Char) : ∃ q qs, pieces (c :: cs) = (c :: q) :: qs := by
  cases cs with
  | nil => exact ⟨[], [], rfl⟩
  | cons d rest =>
    rw [pieces]
    split
    · exact ⟨[], _, rfl⟩
    · cases pieces (d :: rest) with
      | nil => exact ⟨[], [], rfl⟩
      | cons p ps => exact ⟨p, ps, rfl⟩

/-- Words are cut in the only way there is. -/
theorem isSegmentation_iff : IsSegmentation word ps ↔ ps = pieces word := by
  induction word using pieces.induct generalizing ps with
  | case1 => exact isSegmentation_nil
  | case2 c => exact isSegmentation_singleton
  | case3 c d rest hcut ih =>
    obtain ⟨q, qs, hpieces⟩ := exists_pieces_cons d rest
    rw [isSegmentation_cons_cons, pieces]
    simp [ih, hcut, hpieces]
  | case4 c d rest hcut ih =>
    obtain ⟨q, qs, hpieces⟩ := exists_pieces_cons d rest
    rw [isSegmentation_cons_cons, pieces]
    simp [ih, hcut, hpieces, extendFirst]

end Segmentation

/-- The pieces of a word make up the word again, and each is digits, capitals, or small letters with at most one capital in
front. There is no other way to cut a word into such pieces unless two neighbours are one piece together, or a capital is
cut off from small letters behind it. -/
theorem segmentation_pieces (word : List Char) :
    (pieces word).flatten = word ∧ (∀ p ∈ pieces word, p ≠ [] ∧ IsPiece p) ∧
      ∀ ps, IsSegmentation word ps ↔ ps = pieces word := by
  have h : IsSegmentation word (pieces word) := isSegmentation_iff.mpr rfl
  exact ⟨h.joined, fun p hp => ⟨(h.shape p hp).ne_nil, h.shape p hp⟩, fun ps => isSegmentation_iff⟩

theorem segmentation_pieces_server :
    pieces "parseHTTPServer2Übung".toList =
        ["parse".toList, "HTTP".toList, "Server".toList, ['2'], "Übung".toList] ∧
      "Übung".toList ∈ pieces "parseHTTPServer2Übung".toList ∧ IsPiece "Übung".toList ∧
      ¬ IsSegmentation "parseHTTPServer2Übung".toList
        ["parse".toList, "HTTPS".toList, "erver".toList, ['2'], "Übung".toList] := by
  have hpieces : pieces "parseHTTPServer2Übung".toList =
      ["parse".toList, "HTTP".toList, "Server".toList, ['2'], "Übung".toList] := by decide +kernel
  have hmem : "Übung".toList ∈ pieces "parseHTTPServer2Übung".toList := by
    rw [hpieces]
    simp
  obtain ⟨-, hshape, honly⟩ := segmentation_pieces "parseHTTPServer2Übung".toList
  refine ⟨hpieces, hmem, (hshape _ hmem).2, ?_⟩
  rw [honly, hpieces]
  decide

end Words
end CodeAtlas
