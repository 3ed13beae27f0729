import Mathlib
import CodeAtlas.Text.Basic

/-! The two ends of a text: what it begins with, and the white space around it. -/
namespace CodeAtlas.Text

theorem dropStart?_append (start cs : List Char) : dropStart? start (start ++ cs) = some cs := by
  induction start with
  | nil => cases cs <;> rfl
  | cons c start ih => simpa [dropStart?] using ih

theorem eq_append_of_dropStart? {start cs rest : List Char} (h : dropStart? start cs = some rest) :
    cs = start ++ rest := by
  induction start generalizing cs with
  | nil =>
    unfold dropStart? at h
    exact Option.some.inj h
  | cons a start ih =>
    cases cs with
    | nil => cases h
    | cons c cs =>
      rw [dropStart?] at h
      split at h
      · next hac => rw [hac, ih h, List.cons_append]
      · cases h

theorem dropStart?_eq_none_iff {start cs : List Char} : dropStart? start cs = none ↔ ¬ start <+: cs := by
  constructor
  · rintro h ⟨rest, rfl⟩
    rw [dropStart?_append] at h
    cases h
  · intro h
    cases hrest : dropStart? start cs with
    | none => rfl
    | some rest => exact absurd ⟨rest, (eq_append_of_dropStart? hrest).symm⟩ h

theorem startsWith_iff {s start : String} : startsWith s start = true ↔ start.toList <+: s.toList := by
  rw [startsWith, ← not_iff_not, Bool.not_eq_true, Option.isSome_eq_false_iff, Option.isNone_iff_eq_none,
    dropStart?_eq_none_iff]

section Trim

variable {p : Char → Bool} {before cs after : List Char}

theorem dropEndWhile_append (h : ∀ c ∈ after, p c = true) : dropEndWhile p (cs ++ after) = dropEndWhile p cs := by
  have hreverse : ∀ c ∈ after.reverse, p c = true := fun c hc => h c (List.mem_reverse.mp hc)
  rw [dropEndWhile, List.reverse_append, List.dropWhile_append_of_pos hreverse]
  rfl

theorem dropEndWhile_isPrefix (p : Char → Bool) (cs : List Char) : dropEndWhile p cs <+: cs := by
  have hsuffix := List.dropWhile_suffix p (l := cs.reverse)
  rwa [← List.reverse_prefix, List.reverse_reverse] at hsuffix

/-- White space around a text does not matter when it is trimmed. -/
theorem trimChars_append (hbefore : ∀ c ∈ before, isBlank c = true) (hafter : ∀ c ∈ after, isBlank c = true) :
    trimChars (before ++ cs ++ after) = trimChars cs := by
  rw [trimChars, List.append_assoc, List.dropWhile_append_of_pos hbefore, List.dropWhile_append]
  split
  · next hempty =>
    have hcs : cs.dropWhile isBlank = [] := List.isEmpty_iff.mp hempty
    have hrest : after.dropWhile isBlank = [] := List.dropWhile_eq_nil_iff.mpr hafter
    rw [trimChars, hcs, hrest]
  · exact dropEndWhile_append hafter

/-- A text between two characters that are no white space is trimmed already. -/
theorem trimChars_of_ends {a b : Char} (ha : isBlank a = false) (hb : isBlank b = false) (cs : List Char) :
    trimChars (a :: cs ++ [b]) = a :: cs ++ [b] := by
  have hhead : (a :: cs ++ [b]).dropWhile isBlank = a :: cs ++ [b] := by
    rw [List.cons_append, List.dropWhile_cons_of_neg (by simp [ha])]
  have hlast : (a :: cs ++ [b]).reverse = b :: (a :: cs).reverse := by simp
  rw [trimChars, hhead, dropEndWhile, hlast, List.dropWhile_cons_of_neg (by simp [hb]), ← hlast, List.reverse_reverse]

end Trim

/-- A text is cut at a separator where that stands first. -/
theorem splitFirst?_singleton {c : Char} {before : List Char} (h : c ∉ before) (after : List Char) :
    splitFirst? [c] (before ++ c :: after) = some (before, after) := by
  induction before with
  | nil => simp [splitFirst?, dropStart?]
  | cons d before ih =>
    obtain ⟨hne, hrest⟩ := not_or.mp (mt List.mem_cons.mpr h)
    rw [List.cons_append, splitFirst?, dropStart?, if_neg hne, ih hrest]
    rfl

end CodeAtlas.Text

/-! Parts of a text: whether a text holds one, and the pieces between the occurrences of one. Where a part begins is
told by what comes next, so a text is cut from left to right. -/
namespace CodeAtlas.Text

theorem isSome_splitFirst?_iff {part cs : List Char} : (splitFirst? part cs).isSome ↔ part <:+: cs := by
  induction cs with
  | nil =>
    rw [splitFirst?, List.infix_nil]
    cases part <;> simp
  | cons c cs ih =>
    rw [splitFirst?, List.infix_cons_iff]
    cases hstart : dropStart? part (c :: cs) with
    | some rest => simpa using .inl ⟨rest, (eq_append_of_dropStart? hstart).symm⟩
    | none =>
      have hnot := dropStart?_eq_none_iff.mp hstart
      simp only [Option.isSome_map, ih, hnot, false_or]

/-- A text is cut at a separator where that stands first, which is told by what comes up to there. -/
theorem splitFirst?_eq_some_iff {part cs before after : List Char} (hpart : part ≠ []) :
    splitFirst? part cs = some (before, after) ↔ cs = before ++ (part ++ after) ∧ ¬ part <:+: before ++ part.dropLast := by
  have hshort : part.dropLast.length < part.length := by
    have hpos := List.length_pos_of_ne_nil hpart
    rw [List.length_dropLast]
    omega
  have hupTo (before after : List Char) : before ++ part.dropLast <+: before ++ (part ++ after) :=
    (List.prefix_append_right_inj before).mpr ((List.dropLast_prefix part).trans (List.prefix_append part after))
  induction cs generalizing before with
  | nil => simp [splitFirst?, hpart]
  | cons c cs ih =>
    rw [splitFirst?]
    cases hstart : dropStart? part (c :: cs) with
    | some rest =>
      have hcs := eq_append_of_dropStart? hstart
      rw [hcs]
      constructor
      · intro h
        obtain ⟨rfl, rfl⟩ := Prod.mk.inj (Option.some.inj h)
        exact ⟨rfl, fun hwithin => absurd hwithin.length_le (Nat.not_le.mpr hshort)⟩
      · rintro ⟨heq, hfirst⟩
        cases before with
        | nil => rw [List.append_cancel_left heq]
        | cons d before =>
          -- the separator would stand in front of its first place
          have hfront : part <+: d :: before ++ part.dropLast := by
            refine List.prefix_of_prefix_length_le (List.prefix_append part rest) (heq ▸ hupTo (d :: before) after) ?_
            rw [List.length_append, List.length_dropLast, List.length_cons]
            omega
          exact absurd hfront.isInfix hfirst
    | none =>
      have hnot := dropStart?_eq_none_iff.mp hstart
      rw [Option.map_eq_some_iff]
      constructor
      · rintro ⟨⟨before', after'⟩, hrest, heq⟩
        obtain ⟨rfl, rfl⟩ := Prod.mk.inj heq
        obtain ⟨rfl, hfirst⟩ := ih.mp hrest
        refine ⟨rfl, fun hwithin => ?_⟩
        rcases List.infix_cons_iff.mp hwithin with hfront | hwithin
        · exact hnot (hfront.trans (hupTo (c :: before') after'))
        · exact hfirst hwithin
      · rintro ⟨heq, hfirst⟩
        cases before with
        | nil => exact absurd ⟨after, heq.symm⟩ hnot
        | cons d before =>
          obtain ⟨rfl, hcs⟩ := List.cons.inj heq
          exact ⟨(before, after), ih.mpr ⟨hcs, fun hwithin => hfirst (List.infix_cons hwithin)⟩, rfl⟩

theorem contains_iff {s part : String} : contains s part = true ↔ part.toList <:+: s.toList := isSome_splitFirst?_iff

section Split

variable {sep : List Char} {c : Char} {cs before : List Char}

theorem splitOnChars_ne_nil (sep : List Char) (skip : Nat) (cs : List Char) : splitOnChars sep skip cs ≠ [] := by
  induction cs generalizing skip with
  | nil => simp [splitOnChars]
  | cons c cs ih =>
    rw [splitOnChars]
    split
    · exact ih _
    · split
      · exact List.cons_ne_nil _ _
      · split <;> exact List.cons_ne_nil _ _

/-- What is passed over does not count. -/
theorem splitOnChars_skip (sep skipped cs : List Char) :
    splitOnChars sep skipped.length (skipped ++ cs) = splitOnChars sep 0 cs := by
  induction skipped with
  | nil => rfl
  | cons c skipped ih =>
    rw [List.cons_append, splitOnChars, if_pos (by simp)]
    exact ih

theorem splitOnChars_sep (hsep : sep ≠ []) (cs : List Char) :
    splitOnChars sep 0 (sep ++ cs) = [] :: splitOnChars sep 0 cs := by
  cases sep with
  | nil => exact absurd rfl hsep
  | cons d sep =>
    have hstart : (dropStart? (d :: sep) (d :: (sep ++ cs))).isSome = true := by
      rw [← List.cons_append, dropStart?_append]
      rfl
    rw [List.cons_append, splitOnChars]
    simp only [hstart, ne_eq, not_true_eq_false, if_false, List.isEmpty_cons, Bool.not_false, Bool.and_true, if_true,
      List.length_cons, Nat.add_sub_cancel]
    rw [splitOnChars_skip]

theorem splitOnChars_cons (h : ¬ sep <+: c :: cs) :
    splitOnChars sep 0 (c :: cs) = (splitOnChars sep 0 cs).modifyHead (c :: ·) := by
  have hstart : (dropStart? sep (c :: cs)).isSome = false := by
    rw [dropStart?_eq_none_iff.mpr h]
    rfl
  rw [splitOnChars]
  simp only [hstart, ne_eq, not_true_eq_false, if_false, Bool.false_and, Bool.false_eq_true]
  cases hpieces : splitOnChars sep 0 cs with
  | nil => exact absurd hpieces (splitOnChars_ne_nil sep 0 cs)
  | cons piece pieces => rfl

/-- The first piece comes up to the first separator. -/
theorem splitOnChars_eq (hsep : sep ≠ []) (cs : List Char) :
    splitOnChars sep 0 cs = (splitFirst? sep cs).elim [cs] fun (before, after) => before :: splitOnChars sep 0 after := by
  induction cs with
  | nil => simp [splitFirst?, splitOnChars, hsep]
  | cons c cs ih =>
    rw [splitFirst?]
    cases hstart : dropStart? sep (c :: cs) with
    | some rest =>
      rw [eq_append_of_dropStart? hstart, splitOnChars_sep hsep]
      rfl
    | none =>
      rw [splitOnChars_cons (dropStart?_eq_none_iff.mp hstart), ih]
      cases splitFirst? sep cs <;> rfl

end Split

end CodeAtlas.Text

/-! Texts that are put together of fields. A field that is followed by a mark which it does not hold is read back, and
so is what comes behind the mark; of the last field nothing is asked. The mark in what is hashed is the character
zero, a byte of its own in UTF-8. -/
namespace CodeAtlas.Text

theorem toList_loop (b : ByteArray) (i : Nat) (seen : List UInt8) :
    ByteArray.toList.loop b i seen = seen.reverse ++ b.data.toList.drop i := by
  fun_induction ByteArray.toList.loop b i seen with
  | case1 i seen hi ih =>
    have hget : b.get! i = b.data.toList[i] := getElem!_pos b.data i hi
    rw [ih, hget, List.reverse_cons, List.append_assoc, List.singleton_append, List.getElem_cons_drop]
  | case2 i seen hi =>
    have hle : b.data.toList.length ≤ i := Nat.le_of_not_lt hi
    rw [List.drop_of_length_le hle, List.append_nil]

theorem toList_eq_data (b : ByteArray) : b.toList = b.data.toList := toList_loop b 0 []

section Bytes

variable {s t : String}

theorem toList_toUTF8_append (s t : String) : (s ++ t).toUTF8.toList = s.toUTF8.toList ++ t.toUTF8.toList := by
  simp only [toList_eq_data, String.toUTF8, String.toByteArray_append, ByteArray.toList_data_append]

/-- A text is told by its bytes. -/
theorem toList_toUTF8_inj : s.toUTF8.toList = t.toUTF8.toList ↔ s = t := by
  simp only [toList_eq_data, String.toUTF8, Array.toList_inj, ← ByteArray.ext_iff, String.toByteArray_inj]

theorem toList_toUTF8_marked (s t : String) :
    (s ++ "\x00" ++ t).toUTF8.toList = s.toUTF8.toList ++ 0 :: t.toUTF8.toList := by
  have hmark : "\x00".toUTF8.toList = [0] := toList_eq_data _
  rw [toList_toUTF8_append, toList_toUTF8_append, hmark, List.append_assoc, List.singleton_append]

end Bytes

/-- A field and what comes behind its mark are read back. -/
theorem marked_inj {c : Char} {field field' rest rest' : List Char} (h : c ∉ field) (h' : c ∉ field') :
    field ++ c :: rest = field' ++ c :: rest' ↔ field = field' ∧ rest = rest' := by
  constructor
  · intro heq
    have hcut := congrArg (splitFirst? [c]) heq
    rw [splitFirst?_singleton h, splitFirst?_singleton h'] at hcut
    exact Prod.mk.inj (Option.some.inj hcut)
  · rintro ⟨rfl, rfl⟩
    rfl

/-- Whether a text can be told from what comes behind it, that is, does not hold the mark. -/
def IsField (s : String) : Prop := '\x00' ∉ s.toList

instance (s : String) : Decidable (IsField s) := inferInstanceAs (Decidable (¬ _))

theorem isField_append {s t : String} : IsField (s ++ t) ↔ IsField s ∧ IsField t := by
  rw [IsField, String.toList_append, List.mem_append, not_or]
  rfl

theorem IsField.marked_inj {s s' t t' : String} (h : IsField s) (h' : IsField s') :
    s ++ "\x00" ++ t = s' ++ "\x00" ++ t' ↔ s = s' ∧ t = t' := by
  have hchars (a b : String) : (a ++ "\x00" ++ b).toList = a.toList ++ '\x00' :: b.toList := by simp
  rw [← String.toList_inj, hchars, hchars, Text.marked_inj h h', String.toList_inj, String.toList_inj]

end CodeAtlas.Text
