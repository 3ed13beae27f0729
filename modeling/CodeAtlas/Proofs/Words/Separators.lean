import CodeAtlas.Proofs.Chunk.Windows
import CodeAtlas.Words
import Mathlib.Data.Finset.Insert
import Mathlib.Data.Finset.Lattice.Basic

/-! Words across separators. Where a word is cut depends on three characters in a row, and its lower case on all of it,
but nothing of this looks past a separator. So the words of a text are those of what stands before a separator, and then
those of what stands behind it (`words_append_separator`); all else is read off this one equation. -/
namespace CodeAtlas
namespace Words

/-- The distinct words of a text, as a set. -/
def tokens (text : String) : Finset String := (vocabulary text).toFinset

/-- Whether a character stands between words and in none. -/
def IsSeparator (c : Char) : Prop := Text.isAlphanumeric c = false

instance (c : Char) : Decidable (IsSeparator c) := inferInstanceAs (Decidable (_ = _))

/-- Whether a part occurs in a text with a separator, or the start or the end of the text, on each side of it. -/
def StandsApart (part text : String) : Prop :=
  ∃ before after : String, text = before ++ part ++ after ∧
    (∀ c ∈ before.toList.getLast?, IsSeparator c) ∧ ∀ c ∈ after.toList.head?, IsSeparator c

section Separators

variable {a b : String} {c : Char}

theorem mem_tokens {word text : String} : word ∈ tokens text ↔ word ∈ words text := by
  simp [tokens, vocabulary]

theorem words_empty : words "" = [] := rfl

theorem words_append_separator (hc : IsSeparator c) (a b : String) :
    words (a ++ String.singleton c ++ b) = words a ++ words b := by
  have htext : (a ++ String.singleton c ++ b).toList = a.toList ++ c :: b.toList := by simp
  have hsep : (!Text.isAlphanumeric c) = true := by rw [hc, Bool.not_false]
  have hsplit := Text.splitChars_append_sep (p := fun c => !Text.isAlphanumeric c) hsep a.toList b.toList
  simp only [words, htext, hsplit, List.flatMap_append, List.filterMap_append]

/-- A text ends its words where a separator, or nothing, follows. -/
theorem words_append_of_head (h : ∀ c ∈ b.toList.head?, IsSeparator c) (a : String) :
    words (a ++ b) = words a ++ words b := by
  cases hb : b.toList with
  | nil =>
    obtain rfl : b = "" := String.toList_eq_nil_iff.mp hb
    rw [String.append_empty, words_empty, List.append_nil]
  | cons c rest =>
    have hc : IsSeparator c := h c (by rw [hb]; rfl)
    obtain rfl : b = "" ++ String.singleton c ++ String.ofList rest := String.toList_inj.mp (by simp [hb])
    rw [words_append_separator hc, words_empty, List.nil_append, String.empty_append, ← String.append_assoc,
      words_append_separator hc]

/-- A text begins its words behind a separator, or behind nothing. -/
theorem words_append_of_last (h : ∀ c ∈ a.toList.getLast?, IsSeparator c) (b : String) :
    words (a ++ b) = words a ++ words b := by
  cases ha : a.toList using List.reverseRecOn with
  | nil =>
    obtain rfl : a = "" := String.toList_eq_nil_iff.mp ha
    rw [String.empty_append, words_empty, List.nil_append]
  | append_singleton front c =>
    have hc : IsSeparator c := h c (by rw [ha]; simp)
    obtain rfl : a = String.ofList front ++ String.singleton c ++ "" := String.toList_inj.mp (by simp [ha])
    rw [words_append_separator hc, words_empty, List.append_nil, String.append_empty, words_append_separator hc]

/-- The words of a part that stands apart are words of the text, one behind the other. -/
theorem StandsApart.words_infix {part text : String} (h : StandsApart part text) : words part <:+: words text := by
  obtain ⟨before, after, rfl, hbefore, hafter⟩ := h
  rw [words_append_of_head hafter, words_append_of_last hbefore]
  exact ⟨words before, words after, rfl⟩

end Separators

/-- A separator keeps the words on both sides of it apart: those of the whole are those of either side. So a text in which
a name stands apart has all words of the name. -/
theorem tokens_separated :
    (∀ (a b : String) (c : Char), IsSeparator c → tokens (a ++ String.singleton c ++ b) = tokens a ∪ tokens b) ∧
      ∀ name text : String, StandsApart name text → tokens name ⊆ tokens text := by
  refine ⟨fun a b c hc => ?_, fun name text h word hword => ?_⟩
  · ext word
    rw [Finset.mem_union, mem_tokens, mem_tokens, mem_tokens, words_append_separator hc, List.mem_append]
  · rw [mem_tokens] at hword ⊢
    exact h.words_infix.subset hword

theorem tokens_separated_server :
    StandsApart "HTTPServer" "calls HTTPServer.login_v2" ∧ tokens "HTTPServer" = {"http", "server"} ∧
      tokens "HTTPServer" ⊆ tokens "calls HTTPServer.login_v2" ∧
      tokens "login_v2" = tokens "login" ∪ tokens "v2" := by
  have hspace : IsSeparator ' ' := by decide
  have hdot : IsSeparator '.' := by decide
  have happart : StandsApart "HTTPServer" "calls HTTPServer.login_v2" :=
    ⟨"calls ", ".login_v2", by decide, by simpa using hspace, by simpa using hdot⟩
  have hwords : words "HTTPServer" = ["http", "server"] := by decide +kernel
  refine ⟨happart, ?_, tokens_separated.2 _ _ happart, tokens_separated.1 "login" "v2" '_' (by decide)⟩
  ext word
  simp [mem_tokens, hwords]

end Words
end CodeAtlas
