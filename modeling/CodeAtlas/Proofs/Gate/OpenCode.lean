import CodeAtlas.Proofs.Gate.Stretches
import CodeAtlas.Proofs.Gate.Verdict

/-! Code that is open. In a text without fences a backtick opens code, and the next one closes it however far away that is;
of two backticks side by side the second opens. So a stretch without backticks is searched for placeholders unless code is
open in front of it and a backtick behind it closes that code. -/
namespace CodeAtlas.Gate

/-- How far the reading of a text without fences has come. -/
inductive Reading where
  | outside
  | opened
  | inside
deriving DecidableEq

/-- Read a character. -/
def Reading.next : Reading → Char → Reading
  | outside, c => if c = '\x60' then opened else outside
  | opened, c => if c = '\x60' then opened else inside
  | inside, c => if c = '\x60' then outside else inside

/-- Whether code is open behind a text, if a backtick follows that can close it. -/
def LeavesOpen (cs : List Char) : Prop := cs.foldl Reading.next .outside ≠ .outside

instance (cs : List Char) : Decidable (LeavesOpen cs) := inferInstanceAs (Decidable (_ ≠ _))

section Reading

variable {a x b : List Char} {c : Char}

theorem leavesOpen_keep (hc : c ≠ '\x60') : LeavesOpen (c :: a) ↔ LeavesOpen a := by
  rw [LeavesOpen, List.foldl_cons, Reading.next, if_neg hc]
  rfl

theorem foldl_next_inside (hx : '\x60' ∉ x) : x.foldl Reading.next .inside = .inside := by
  induction x with
  | nil => rfl
  | cons c x ih =>
    obtain ⟨hc, hx⟩ := not_or.mp (mt List.mem_cons.mpr hx)
    rw [List.foldl_cons, Reading.next, if_neg (Ne.symm hc), ih hx]

theorem foldl_next_opened (hx : '\x60' ∉ x) (hne : x ≠ []) : x.foldl Reading.next .opened = .inside := by
  cases x with
  | nil => exact absurd rfl hne
  | cons c x =>
    obtain ⟨hc, hx⟩ := not_or.mp (mt List.mem_cons.mpr hx)
    rw [List.foldl_cons, Reading.next, if_neg (Ne.symm hc), foldl_next_inside hx]

theorem leavesOpen_piece (hx : '\x60' ∉ x) (hne : x ≠ []) (a : List Char) :
    LeavesOpen ('\x60' :: (x ++ '\x60' :: a)) ↔ LeavesOpen a := by
  have hopen : Reading.outside.next '\x60' = .opened := rfl
  have hclose : Reading.inside.next '\x60' = .outside := rfl
  rw [LeavesOpen, List.foldl_cons, List.foldl_append, List.foldl_cons, hopen, foldl_next_opened hx hne, hclose]
  rfl

/-- Of two backticks the second opens code. -/
theorem leavesOpen_backticks (a : List Char) : LeavesOpen ('\x60' :: '\x60' :: a) ↔ LeavesOpen ('\x60' :: a) := Iff.rfl

theorem leavesOpen_backtick (hx : '\x60' ∉ x) : LeavesOpen ('\x60' :: x) := by
  cases x with
  | nil => decide
  | cons c x =>
    have hopen : Reading.outside.next '\x60' = .opened := rfl
    rw [LeavesOpen, List.foldl_cons, hopen, foldl_next_opened hx (List.cons_ne_nil c x)]
    decide

/-- A text is read apart from what stands in front of it unless it closes code that is open there. -/
theorem withoutPieces_append_of_closed (h : ¬ LeavesOpen a ∨ '\x60' ∉ b) :
    withoutPieces 0 (a ++ b) = withoutPieces 0 a ++ withoutPieces 0 b := by
  induction a using pieces_induction with
  | nil => rfl
  | keep c a hc ih =>
    rw [leavesOpen_keep hc] at h
    rw [List.cons_append, withoutPieces_keep hc, withoutPieces_keep hc, ih h, List.cons_append]
  | piece code a hcode hne ih =>
    rw [leavesOpen_piece hcode hne] at h
    have hassoc : '\x60' :: (code ++ '\x60' :: a) ++ b = '\x60' :: (code ++ '\x60' :: (a ++ b)) := by simp
    rw [hassoc, withoutPieces_piece hcode hne, withoutPieces_piece hcode hne, ih h]
  | lone a hlone ih =>
    have hapart : IsLone (a ++ b) ∧ (¬ LeavesOpen a ∨ '\x60' ∉ b) := by
      rcases hlone with hhead | hplain
      · obtain ⟨rest, rfl⟩ := List.head?_eq_some_iff.mp hhead
        exact ⟨.inl rfl, h.imp (mt (leavesOpen_backticks rest).mpr) id⟩
      · have hb := h.resolve_left (not_not.mpr (leavesOpen_backtick hplain))
        exact ⟨.inr (by simp [hplain, hb]), .inr hb⟩
    rw [List.cons_append, withoutPieces_lone hapart.1, withoutPieces_lone hlone, ih hapart.2, List.cons_append]

/-- Code that is open reaches from the last backtick in front to the first one behind. -/
theorem exists_withoutPieces_of_open (h : LeavesOpen a) : ∃ front code, a = front ++ '\x60' :: code ∧ '\x60' ∉ code ∧
    ∀ x b, '\x60' ∉ x → x ≠ [] →
      withoutPieces 0 (a ++ (x ++ '\x60' :: b)) = withoutPieces 0 front ++ withoutPieces 0 b := by
  induction a using pieces_induction with
  | nil => exact absurd h (by decide)
  | keep c a hc ih =>
    obtain ⟨front, code, rfl, hcode, hcut⟩ := ih ((leavesOpen_keep hc).mp h)
    refine ⟨c :: front, code, rfl, hcode, fun x b hx hne => ?_⟩
    rw [List.cons_append, withoutPieces_keep hc, withoutPieces_keep hc, hcut x b hx hne, List.cons_append]
  | piece piece a hpiece hne' ih =>
    obtain ⟨front, code, rfl, hcode, hcut⟩ := ih ((leavesOpen_piece hpiece hne' _).mp h)
    refine ⟨'\x60' :: (piece ++ '\x60' :: front), code, by simp, hcode, fun x b hx hne => ?_⟩
    have hfront := withoutPieces_piece hpiece hne' (front ++ '\x60' :: code ++ (x ++ '\x60' :: b))
    rw [withoutPieces_piece hpiece hne', ← hcut x b hx hne, ← hfront]
    simp
  | lone a hlone ih =>
    rcases hlone with hhead | hplain
    · obtain ⟨rest, rfl⟩ := List.head?_eq_some_iff.mp hhead
      obtain ⟨front, code, hrest, hcode, hcut⟩ := ih ((leavesOpen_backticks rest).mp h)
      refine ⟨'\x60' :: front, code, by rw [hrest]; rfl, hcode, fun x b hx hne => ?_⟩
      have hfront : IsLone front := by
        cases front with
        | nil => exact .inr List.not_mem_nil
        | cons d front => exact .inl (congrArg some (List.cons.inj hrest).1.symm)
      rw [List.cons_append, withoutPieces_lone (.inl rfl), withoutPieces_lone hfront, hcut x b hx hne, List.cons_append]
    · refine ⟨[], a, rfl, hplain, fun x b hx hne => ?_⟩
      have hcut := withoutPieces_piece (x := a ++ x) (by simp [hplain, hx]) (by simp [hne]) b
      simpa [withoutPieces] using hcut

end Reading

section Stretch

variable {a x b : List Char}

/-- A stretch without backticks stays unless code is open in front of it and closed behind it. -/
theorem withoutPieces_stretch (hx : '\x60' ∉ x) (h : ¬ LeavesOpen a ∨ '\x60' ∉ b) :
    withoutPieces 0 (a ++ (x ++ b)) = withoutPieces 0 a ++ (x ++ withoutPieces 0 b) := by
  have hrest : ¬ LeavesOpen a ∨ '\x60' ∉ x ++ b := h.imp id fun hb => by simp [hx, hb]
  rw [withoutPieces_append_of_closed hrest, withoutPieces_append hx]

/-- A stretch without backticks is passed over together with the code in which it stands. -/
theorem exists_withoutPieces_stretch (hx : '\x60' ∉ x) (hne : x ≠ []) (ha : LeavesOpen a) (hb : '\x60' ∈ b) :
    ∃ front code code' back, a = front ++ '\x60' :: code ∧ '\x60' ∉ code ∧ b = code' ++ '\x60' :: back ∧ '\x60' ∉ code' ∧
      withoutPieces 0 (a ++ (x ++ b)) = withoutPieces 0 front ++ withoutPieces 0 back := by
  obtain ⟨front, code, hfront, hcode, hcut⟩ := exists_withoutPieces_of_open ha
  obtain ⟨code', back, rfl, hcode'⟩ := List.eq_append_cons_of_mem hb
  refine ⟨front, code, code', back, hfront, hcode, rfl, hcode', ?_⟩
  rw [← hcut (x ++ code') back (by simp [hx, hcode']) (by simp [hne]), List.append_assoc]

theorem withoutCode_of_not_fence (h : ¬ fence <:+: a) : withoutCode a = withoutPieces 0 a := by
  have hblock : ¬ HoldsBlock a := fun ⟨before, code, after, heq⟩ => h (heq ▸ List.infix_append' _ _ _)
  rw [withoutCode, withoutBlocks_of_not_holdsBlock hblock]

end Stretch

section Verdict

variable {content token : String} {rules : Rules}

/-- A section in which a placeholder is found is forbidden. -/
theorem judge_of_mem_placeholders (name : String) (hcheck : rules.checkPlaceholders) (h : token ∈ placeholders content) :
    (judge name rules content).passed = false ∧
      ∃ f ∈ (judge name rules content).failures, f.field = "placeholders" ∧ f.severity = .error := by
  have hfails : Check.placeholders.Fails rules content := List.ne_nil_of_mem h
  obtain ⟨f, hf⟩ := exists_failure?_iff.mpr hfails
  refine ⟨?_, f, mem_failures_judge.mpr ⟨.placeholders, hcheck, hf⟩, of_failure?_eq_some hf⟩
  rw [Bool.eq_false_iff, Ne, passed_judge_iff]
  exact fun h => h .placeholders hcheck rfl hfails

end Verdict

/-- Every word on the list can stand between brackets. -/
theorem isToken_of_known {word : String} (h : word ∈ knownPlaceholders) : IsToken word.toList := by
  have hall : ∀ w ∈ knownPlaceholders, bracketed? (w.toList ++ [']']) = some w.toList := by decide +kernel
  exact (bracketed?_eq_some_iff.mp (hall word h)).1

section Paragraphs

variable {before paragraph after word : String}

/-- A word on the list that stands between brackets in a stretch of a text, such as a paragraph, is reported, and forbids a
section that is searched for placeholders, when there is no fence in the text, no backtick in the stretch, and code that is
open in front of the stretch is not closed behind it. When it is, all from the last backtick in front of the stretch to the
first one behind it is passed over. -/
theorem placeholders_in_stretch (hfence : ¬ "```".toList <:+: (before ++ paragraph ++ after).toList)
    (hplain : '\x60' ∉ paragraph.toList) (hword : word ∈ knownPlaceholders)
    (hstands : ("[" ++ word ++ "]").toList <:+: paragraph.toList) :
    ((¬ LeavesOpen before.toList ∨ '\x60' ∉ after.toList) →
      "[" ++ word ++ "]" ∈ placeholders (before ++ paragraph ++ after) ∧
      ∀ name rules, rules.checkPlaceholders → (judge name rules (before ++ paragraph ++ after)).passed = false ∧
        ∃ f ∈ (judge name rules (before ++ paragraph ++ after)).failures,
          f.field = "placeholders" ∧ f.severity = .error) ∧
    (LeavesOpen before.toList → '\x60' ∈ after.toList → ∃ front code code' back : String,
      before = front ++ "`" ++ code ∧ '\x60' ∉ code.toList ∧ after = code' ++ "`" ++ back ∧ '\x60' ∉ code'.toList ∧
      withoutCode (before ++ paragraph ++ after).toList = withoutCode front.toList ++ withoutCode back.toList) := by
  have htext : (before ++ paragraph ++ after).toList = before.toList ++ (paragraph.toList ++ after.toList) := by simp
  have hcode : withoutCode (before ++ paragraph ++ after).toList =
      withoutPieces 0 (before.toList ++ (paragraph.toList ++ after.toList)) := by
    rw [withoutCode_of_not_fence hfence, htext]
  constructor
  · intro hclosed
    rw [withoutPieces_stretch hplain hclosed] at hcode
    have hmem : "[" ++ word ++ "]" ∈ placeholders (before ++ paragraph ++ after) := by
      refine mem_placeholders_iff.mpr ⟨word.toList, isToken_of_known hword, .inl (by simpa using hword), ?_, by simp⟩
      rw [hcode]
      have hwithin : '[' :: (word.toList ++ [']']) <:+: paragraph.toList := by simpa using hstands
      exact hwithin.trans (List.infix_append' _ _ _)
    exact ⟨hmem, fun name rules hcheck => judge_of_mem_placeholders name hcheck hmem⟩
  · intro hopen hclose
    have hne : paragraph.toList ≠ [] := by
      rintro hempty
      rw [hempty, List.infix_nil] at hstands
      simp at hstands
    obtain ⟨front, code, code', back, hfront, hplain, hback, hplain', hcut⟩ :=
      exists_withoutPieces_stretch hplain hne hopen hclose
    have hpart {part : List Char} (h : part <:+: before.toList ++ (paragraph.toList ++ after.toList)) :
        withoutCode part = withoutPieces 0 part :=
      withoutCode_of_not_fence fun hpart => hfence (htext ▸ hpart.trans h)
    refine ⟨String.ofList front, String.ofList code, String.ofList code', String.ofList back, ?_, ?_, ?_, ?_, ?_⟩
    · rw [← String.toList_inj]
      simpa using hfront
    · simpa using hplain
    · rw [← String.toList_inj]
      simpa using hback
    · simpa using hplain'
    · have hfirst : front <:+: before.toList ++ (paragraph.toList ++ after.toList) :=
        ⟨[], '\x60' :: code ++ (paragraph.toList ++ after.toList), by simp [hfront]⟩
      have hlast : back <:+: before.toList ++ (paragraph.toList ++ after.toList) :=
        ⟨before.toList ++ paragraph.toList ++ code' ++ ['\x60'], [], by simp [hback]⟩
      rw [hcode, hcut, String.toList_ofList, String.toList_ofList, hpart hfirst, hpart hlast]

theorem placeholders_in_stretch_owner :
    "[TODO]" ∈ placeholders ("Use `run`.\n\n" ++ "Owner: [TODO]" ++ "\n\nSee ` there.") ∧
      (judge "notes" {} ("Use `run`.\n\n" ++ "Owner: [TODO]" ++ "\n\nSee ` there.")).passed = false := by
  have hfence : ¬ "```".toList <:+: ("Use `run`.\n\n" ++ "Owner: [TODO]" ++ "\n\nSee ` there.").toList := by
    decide +kernel
  have hstands : ("[" ++ "TODO" ++ "]").toList <:+: "Owner: [TODO]".toList := by decide +kernel
  obtain ⟨hmem, hjudge⟩ := (placeholders_in_stretch hfence (by decide) (by decide) hstands).1 (.inl (by decide +kernel))
  exact ⟨hmem, (hjudge "notes" {} rfl).1⟩

/-- A placeholder in a paragraph of its own is passed over between two stray backticks in the paragraphs around it. -/
theorem placeholder_between_paragraphs :
    Text.splitOn "\n\n" "Use ` here.\n\n[TODO]\n\nSee ` there." = ["Use ` here.", "[TODO]", "See ` there."] ∧
      ¬ "```".toList <:+: "Use ` here.\n\n[TODO]\n\nSee ` there.".toList ∧
      "TODO" ∈ knownPlaceholders ∧ placeholders "Use ` here.\n\n[TODO]\n\nSee ` there." = [] := by
  decide +kernel

end Paragraphs

end CodeAtlas.Gate
