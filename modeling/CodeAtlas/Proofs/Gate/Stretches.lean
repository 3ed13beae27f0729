import CodeAtlas.Proofs.Gate.Placeholders

/-! Where what is left of a text comes from. Code is cut out of a text from left to right, and what is cut begins and ends
with backticks. So a stretch of what is left that is bounded by other characters is what is left of a stretch of the text
with the same bounds; cutting blocks first and pieces afterwards does not change that. -/
namespace CodeAtlas.Gate

section Blocks

variable {cs cs' before code after : List Char}

/-- Whether a text has two fences, one behind the other. -/
def HoldsBlock (cs : List Char) : Prop := ∃ before code after, cs = before ++ (fence ++ (code ++ (fence ++ after)))

theorem HoldsBlock.mono (h : HoldsBlock cs) (hwithin : cs <:+: cs') : HoldsBlock cs' := by
  obtain ⟨before, code, after, rfl⟩ := h
  obtain ⟨front, back, rfl⟩ := hwithin
  exact ⟨front ++ before, code, after ++ back, by simp⟩

theorem IsUnfenced.not_holdsBlock (h : IsUnfenced cs) (hwithin : cs' <:+: cs) : ¬ HoldsBlock cs' := by
  rintro ⟨before, code, after, rfl⟩
  have hfence : fence <:+: before ++ (fence ++ (code ++ (fence ++ after))) := List.infix_append' _ _ _
  exact h (hfence.trans (hwithin.trans (List.prefix_append _ _).isInfix))

/-- Behind the first fence of a block there is another one. -/
theorem not_holdsBlock_of_open (hbefore : IsUnfenced before) (hafter : ¬ fence <:+: after) :
    ¬ HoldsBlock (before ++ (fence ++ after)) := by
  rintro ⟨before', code, after', heq⟩
  have hlength := congrArg List.length heq
  simp only [List.length_append] at hlength
  have hfirst : before.length ≤ before'.length := by
    by_contra hless
    have hleft : before' ++ fence <+: before ++ (fence ++ after) :=
      ⟨code ++ (fence ++ after'), by rw [heq, List.append_assoc]⟩
    have hright : before ++ fence.dropLast <+: before ++ (fence ++ after) :=
      (List.prefix_append_right_inj before).mpr ((List.dropLast_prefix fence).trans (List.prefix_append _ _))
    have hfront : before' ++ fence <+: before ++ fence.dropLast := by
      refine List.prefix_of_prefix_length_le hleft hright ?_
      have hfence : fence.length = 3 := rfl
      simp only [List.length_append, List.length_dropLast, hfence]
      omega
    exact hbefore ((List.suffix_append before' fence).isInfix.trans hfront.isInfix)
  have hleft : fence ++ after' <:+ before ++ (fence ++ after) := ⟨before' ++ (fence ++ code), by rw [heq]; simp⟩
  have hright : after <:+ before ++ (fence ++ after) := ⟨before ++ fence, List.append_assoc _ _ _⟩
  have hsuffix : fence ++ after' <:+ after := by
    refine List.suffix_of_suffix_length_le hleft hright ?_
    simp only [List.length_append]
    omega
  exact hafter ((List.prefix_append fence after').isInfix.trans hsuffix.isInfix)

/-- Texts are read from one block to the next. -/
theorem blocks_induction {motive : List Char → Prop} (whole : ∀ cs, ¬ HoldsBlock cs → motive cs)
    (block : ∀ before code after, IsUnfenced before → IsUnfenced code → motive after →
      motive (before ++ (fence ++ (code ++ (fence ++ after))))) (cs : List Char) : motive cs := by
  cases hfirst : Text.splitFirst? fence cs with
  | none =>
    refine whole cs fun ⟨before, code, after, heq⟩ => ?_
    have hfence : ¬ fence <:+: cs := by rw [← Text.isSome_splitFirst?_iff, hfirst]; decide
    exact hfence (heq ▸ List.infix_append' _ _ _)
  | some cut =>
    obtain ⟨before, rest⟩ := cut
    obtain ⟨hcs, hbefore⟩ := (Text.splitFirst?_eq_some_iff fence_ne_nil).mp hfirst
    cases hsecond : Text.splitFirst? fence rest with
    | none =>
      have hfence : ¬ fence <:+: rest := by rw [← Text.isSome_splitFirst?_iff, hsecond]; decide
      exact whole _ (hcs ▸ not_holdsBlock_of_open hbefore hfence)
    | some cut =>
      obtain ⟨code, after⟩ := cut
      obtain ⟨hrest, hcode⟩ := (Text.splitFirst?_eq_some_iff fence_ne_nil).mp hsecond
      have hshorter : after.length < cs.length := by
        rw [hcs, hrest]
        simp [fence]
        omega
      rw [hcs, hrest]
      exact block before code after hbefore hcode (blocks_induction whole block after)
  termination_by cs.length

theorem withoutBlocks_of_not_holdsBlock (h : ¬ HoldsBlock cs) : withoutBlocks cs = cs := by
  rw [withoutBlocks, Text.splitOnChars_eq fence_ne_nil]
  cases hfirst : Text.splitFirst? fence cs with
  | none => rfl
  | some cut =>
    obtain ⟨before, rest⟩ := cut
    obtain ⟨rfl, -⟩ := (Text.splitFirst?_eq_some_iff fence_ne_nil).mp hfirst
    show outsideFences (before :: Text.splitOnChars fence 0 rest) = _
    rw [Text.splitOnChars_eq fence_ne_nil]
    cases hsecond : Text.splitFirst? fence rest with
    | none => exact List.append_assoc _ _ _
    | some cut =>
      obtain ⟨rfl, -⟩ := (Text.splitFirst?_eq_some_iff fence_ne_nil).mp hsecond
      exact absurd ⟨before, cut.1, cut.2, rfl⟩ h

end Blocks

section Pieces

variable {cs : List Char} {c : Char}

/-- Whether a backtick in front of a text begins no code. -/
def IsLone (cs : List Char) : Prop := cs.head? = some '\x60' ∨ '\x60' ∉ cs

theorem codeLength?_eq_none (h : IsLone cs) : codeLength? cs = none := by
  rcases h with hhead | hplain
  · obtain ⟨rest, rfl⟩ := List.head?_eq_some_iff.mp hhead
    rfl
  · have hcode : cs.takeWhile (· ≠ '\x60') = cs :=
      List.takeWhile_eq_self_iff.mpr fun c hc => decide_eq_true fun heq => hplain (heq ▸ hc)
    simp only [codeLength?, hcode, List.drop_length, List.isEmpty_nil, Bool.or_true, if_true]

theorem withoutPieces_lone (h : IsLone cs) : withoutPieces 0 ('\x60' :: cs) = '\x60' :: withoutPieces 0 cs := by
  rw [withoutPieces, if_pos rfl, codeLength?_eq_none h]

/-- Texts are read from one piece of code to the next. -/
theorem pieces_induction {motive : List Char → Prop} (nil : motive [])
    (keep : ∀ c cs, c ≠ '\x60' → motive cs → motive (c :: cs))
    (piece : ∀ code cs, '\x60' ∉ code → code ≠ [] → motive cs → motive ('\x60' :: (code ++ '\x60' :: cs)))
    (lone : ∀ cs, IsLone cs → motive cs → motive ('\x60' :: cs)) (cs : List Char) : motive cs := by
  match cs with
  | [] => exact nil
  | c :: cs =>
    by_cases hc : c = '\x60'
    · subst hc
      by_cases hmem : '\x60' ∈ cs
      · obtain ⟨code, rest, hcs, hcode⟩ := List.eq_append_cons_of_mem hmem
        by_cases hne : code = []
        · exact lone cs (.inl (by rw [hcs, hne]; rfl)) (pieces_induction nil keep piece lone cs)
        · have hshorter : rest.length < cs.length := by
            rw [hcs, List.length_append, List.length_cons]
            omega
          rw [hcs]
          exact piece code rest hcode hne (pieces_induction nil keep piece lone rest)
      · exact lone cs (.inr hmem) (pieces_induction nil keep piece lone cs)
    · exact keep c cs hc (pieces_induction nil keep piece lone cs)
  termination_by cs.length

end Pieces

/-- How a way to cut code out of a text goes along it. Where no code has begun, characters other than backticks stay; each
one that stays ends a text that is cut for itself, and begins another one. -/
structure Cuts (cut : List Char → List Char) : Prop where
  keep : ∀ {c : Char} (cs : List Char), c ≠ '\x60' → cut (c :: cs) = c :: cut cs
  apart : ∀ {c : Char} {cs x y : List Char}, c ≠ '\x60' → cut cs = x ++ c :: y →
    ∃ a b, cs = a ++ c :: b ∧ cut (a ++ [c]) = x ++ [c] ∧ cut b = y

namespace Cuts

variable {cut cut' : List Char → List Char}

/-- Two ways to cut code, one after the other. -/
theorem comp (h : Cuts cut) (h' : Cuts cut') : Cuts fun cs => cut' (cut cs) where
  keep cs hc := by rw [h.keep cs hc, h'.keep _ hc]
  apart hc heq := by
    obtain ⟨a, b, hcut, hstop, rfl⟩ := h'.apart hc heq
    obtain ⟨a', b', rfl, hstop', rfl⟩ := h.apart hc hcut
    exact ⟨a', b', rfl, by rw [hstop', hstop], rfl⟩

/-- A stretch of what is left that no backtick bounds is what is left of a stretch of the text. -/
theorem exists_stretch (h : Cuts cut) {c d : Char} (hc : c ≠ '\x60') (hd : d ≠ '\x60') {cs before inside after : List Char}
    (heq : cut cs = before ++ c :: (inside ++ d :: after)) :
    ∃ before' inside' after', cs = before' ++ c :: (inside' ++ d :: after') ∧
      cut (c :: (inside' ++ [d])) = c :: (inside ++ [d]) := by
  obtain ⟨before', rest, rfl, -, hrest⟩ := h.apart hc heq
  obtain ⟨inside', after', rfl, hstop, -⟩ := h.apart hd hrest
  exact ⟨before', inside', after', rfl, by rw [h.keep _ hc, hstop]⟩

end Cuts

/-- A character of two texts together is one of the first or of the second. -/
theorem append_eq_append_cons_iff {u v x y : List Char} {c : Char} : u ++ v = x ++ c :: y ↔
    (∃ x', x = u ++ x' ∧ v = x' ++ c :: y) ∨ ∃ u', u = x ++ c :: u' ∧ y = u' ++ v := by
  rw [List.append_eq_append_iff]
  constructor
  · rintro (⟨x', rfl, rfl⟩ | ⟨u', rfl, heq⟩)
    · exact .inl ⟨x', rfl, rfl⟩
    · cases u' with
      | nil => exact .inl ⟨[], by simp, by simpa using heq.symm⟩
      | cons d u' =>
        obtain ⟨rfl, rfl⟩ := List.cons.inj heq
        exact .inr ⟨u', rfl, rfl⟩
  · rintro (⟨x', rfl, rfl⟩ | ⟨u', rfl, rfl⟩)
    · exact .inl ⟨x', rfl, rfl⟩
    · exact .inr ⟨c :: u', rfl, rfl⟩

theorem cuts_withoutBlocks : Cuts withoutBlocks where
  keep cs hc := withoutBlocks_cons (not_fence_of_ne hc cs)
  apart {c cs x y} hc heq := by
    induction cs using blocks_induction generalizing x with
    | whole cs hwhole =>
      rw [withoutBlocks_of_not_holdsBlock hwhole] at heq
      have hpart {part : List Char} (hwithin : part <:+: cs) : withoutBlocks part = part :=
        withoutBlocks_of_not_holdsBlock fun h => hwhole (h.mono hwithin)
      exact ⟨x, y, heq, hpart ⟨[], y, by simp [heq]⟩, hpart ⟨x ++ [c], [], by simp [heq]⟩⟩
    | block before code after hbefore hcode ih =>
      rw [withoutBlocks_between hbefore hcode] at heq
      rcases append_eq_append_cons_iff.mp heq with ⟨x', rfl, hafter⟩ | ⟨before', rfl, rfl⟩
      · obtain ⟨a, b, rfl, hstop, hb⟩ := ih hafter
        have hcut := withoutBlocks_between hbefore hcode (a ++ [c])
        rw [hstop] at hcut
        exact ⟨before ++ (fence ++ (code ++ (fence ++ a))), b, by simp, by simpa using hcut, hb⟩
      · have hrest : IsUnfenced before' := fun h => hbefore (h.trans ⟨x ++ [c], [], by simp⟩)
        have hstop : ¬ HoldsBlock (x ++ [c]) := hbefore.not_holdsBlock ⟨[], before', by simp⟩
        exact ⟨x, before' ++ (fence ++ (code ++ (fence ++ after))), by simp, withoutBlocks_of_not_holdsBlock hstop,
          withoutBlocks_between hrest hcode after⟩

theorem cuts_withoutPieces : Cuts (withoutPieces 0) where
  keep cs hc := withoutPieces_keep hc cs
  apart {c cs x y} hc heq := by
    induction cs using pieces_induction generalizing x with
    | nil => simp [withoutPieces] at heq
    | keep d cs hd ih =>
      rw [withoutPieces_keep hd] at heq
      cases x with
      | nil =>
        obtain ⟨rfl, hrest⟩ := List.cons.inj heq
        exact ⟨[], cs, rfl, withoutPieces_keep hd [], hrest⟩
      | cons _ x =>
        obtain ⟨rfl, hrest⟩ := List.cons.inj heq
        obtain ⟨a, b, rfl, hstop, hb⟩ := ih hrest
        exact ⟨d :: a, b, rfl, by rw [List.cons_append, withoutPieces_keep hd, hstop, List.cons_append], hb⟩
    | piece code cs hcode hne ih =>
      rw [withoutPieces_piece hcode hne] at heq
      obtain ⟨a, b, rfl, hstop, hb⟩ := ih heq
      have hcut := withoutPieces_piece hcode hne (a ++ [c])
      rw [hstop] at hcut
      exact ⟨'\x60' :: (code ++ '\x60' :: a), b, by simp, by simpa using hcut, hb⟩
    | lone cs hlone ih =>
      rw [withoutPieces_lone hlone] at heq
      cases x with
      | nil => exact absurd (List.cons.inj heq).1.symm hc
      | cons _ x =>
        obtain ⟨rfl, hrest⟩ := List.cons.inj heq
        obtain ⟨a, b, rfl, hstop, hb⟩ := ih hrest
        -- the backtick begins no code in the text that ends here either
        have hlone' : IsLone (a ++ [c]) := by
          cases a with
          | nil => exact .inr (by simpa using Ne.symm hc)
          | cons d a => exact hlone.imp id fun hplain hmem => hplain (by simp at hmem ⊢; tauto)
        exact ⟨'\x60' :: a, b, rfl, by rw [List.cons_append, withoutPieces_lone hlone', hstop, List.cons_append], hb⟩

theorem cuts_withoutCode : Cuts withoutCode := cuts_withoutBlocks.comp cuts_withoutPieces

section Placeholders

variable {text token : String}

/-- Every placeholder that is found is what is left, without its code, of a stretch of the text between brackets, and it
stands in the text as it is reported exactly when there is no code between these brackets. -/
theorem placeholders_from_stretches (h : token ∈ placeholders text) : ∃ before inside after : String,
    text = before ++ ("[" ++ inside ++ "]") ++ after ∧
      String.ofList (withoutCode ("[" ++ inside ++ "]").toList) = token ∧
      (token = "[" ++ inside ++ "]" ↔ '\x60' ∉ inside.toList) := by
  obtain ⟨word, htoken, -, ⟨front, back, heq⟩, rfl⟩ := mem_placeholders_iff.mp h
  have hstretch : withoutCode text.toList = front ++ '[' :: (word ++ ']' :: back) := by simpa using heq.symm
  obtain ⟨before, inside, after, htext, hinside⟩ :=
    cuts_withoutCode.exists_stretch (by decide) (by decide) hstretch
  refine ⟨String.ofList before, String.ofList inside, String.ofList after, ?_, ?_, ?_⟩
  · rw [← String.toList_inj]
    simpa using htext
  · rw [← String.toList_inj]
    simpa using hinside
  · rw [← String.toList_inj]
    simp only [String.toList_append, String.toList_ofList]
    constructor
    · intro hsame
      have hword : word = inside := by simpa using hsame
      rw [← hword]
      exact htoken.notMem rfl
    · intro hplain
      have hbrackets : '\x60' ∉ '[' :: (inside ++ [']']) := by simpa using hplain
      rw [withoutCode_of_plain hbrackets] at hinside
      simpa using hinside.symm

theorem placeholders_from_stretches_owner : "[TBD]" ∈ placeholders "Owner: [TO`a`DO], [TBD]" ∧
    ∃ before inside after : String, "Owner: [TO`a`DO], [TBD]" = before ++ ("[" ++ inside ++ "]") ++ after ∧
      String.ofList (withoutCode ("[" ++ inside ++ "]").toList) = "[TBD]" ∧
      ("[TBD]" = "[" ++ inside ++ "]" ↔ '\x60' ∉ inside.toList) :=
  ⟨by decide +kernel, placeholders_from_stretches (by decide +kernel)⟩

/-- Code between brackets is cut out of a word, and what is left is reported although it stands nowhere in the text. -/
theorem placeholder_out_of_code :
    placeholders "[TO`x`DO]" = ["[TODO]"] ∧ ¬ "[TODO]".toList <:+: "[TO`x`DO]".toList := by
  decide +kernel

end Placeholders

end CodeAtlas.Gate
