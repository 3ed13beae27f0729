import CodeAtlas.Retrieval.Basic
import Mathlib.Data.List.Basic

/-! The text of a retrieval within its budget. Blocks are added as long as they fit, so that what stands in the text are the
first pieces of code and the first nodes, each kind under its heading, and the next block of either kind would be too much. -/
namespace CodeAtlas.Retrieval

/-- Blocks under their heading. Where there are no blocks there is no heading. -/
def under (heading : String) : List String → String
  | [] => ""
  | block :: rest => heading ++ String.join (block :: rest)

section Blocks

variable {heading : String}

theorem take_headed (blocks : List String) (n : ℕ) : (headed heading blocks).take n = headed heading (blocks.take n) := by
  cases blocks <;> cases n <;> rfl

theorem length_headed (blocks : List String) : (headed heading blocks).length = blocks.length := by
  cases blocks <;> rfl

theorem join_headed (blocks : List String) : String.join (headed heading blocks) = under heading blocks := by
  cases blocks with
  | nil => rfl
  | cons block rest => simp only [headed, under, String.join_cons, String.append_assoc]

/-- Blocks are added up to the first one that does not fit. -/
theorem exists_addBlocks (maxBytes : ℕ) (text : String) (blocks : List String) : ∃ n ≤ blocks.length,
    addBlocks maxBytes text blocks = text ++ String.join (blocks.take n) ∧
    (text.utf8ByteSize ≤ maxBytes → (text ++ String.join (blocks.take n)).utf8ByteSize ≤ maxBytes) ∧
    (n < blocks.length → maxBytes < (text ++ String.join (blocks.take (n + 1))).utf8ByteSize) := by
  induction blocks generalizing text with
  | nil => exact ⟨0, Nat.zero_le _, by simp [addBlocks], by simp, nofun⟩
  | cons block rest ih =>
    unfold addBlocks
    by_cases hfits : text.utf8ByteSize + block.utf8ByteSize ≤ maxBytes
    · have hjoin (n : ℕ) : text ++ block ++ String.join (rest.take n) = text ++ String.join ((block :: rest).take (n + 1)) := by
        rw [List.take_succ_cons, String.join_cons, String.append_assoc]
      obtain ⟨n, hn, heq, hsize, hnext⟩ := ih (text ++ block)
      rw [hjoin] at heq hsize hnext
      rw [String.utf8ByteSize_append] at hsize
      rw [if_pos hfits]
      exact ⟨n + 1, Nat.succ_le_succ hn, heq, fun _ => hsize hfits, fun hlt => hnext (Nat.lt_of_succ_lt_succ hlt)⟩
    · rw [if_neg hfits]
      exact ⟨0, Nat.zero_le _, by simp, by simp, fun _ => by simpa [String.utf8ByteSize_append] using hfits⟩

/-- Under a heading blocks are added up to the first one that does not fit; the heading counts with the first block. -/
theorem exists_addBlocks_headed (heading : String) (maxBytes : ℕ) (text : String) (blocks : List String) :
    ∃ n ≤ blocks.length,
    addBlocks maxBytes text (headed heading blocks) = text ++ under heading (blocks.take n) ∧
    (text.utf8ByteSize ≤ maxBytes → (text ++ under heading (blocks.take n)).utf8ByteSize ≤ maxBytes) ∧
    (n < blocks.length → maxBytes < (text ++ under heading (blocks.take (n + 1))).utf8ByteSize) := by
  have h := exists_addBlocks maxBytes text (headed heading blocks)
  simpa only [take_headed, length_headed, join_headed] using h

theorem blank_append (s t : String) : Text.blank (s ++ t) = (Text.blank s && Text.blank t) := by
  simp [Text.blank]

theorem blank_under {blocks : List String} (h : Text.blank heading = false) :
    Text.blank (under heading blocks) = blocks.isEmpty := by
  cases blocks with
  | nil => rfl
  | cons block rest => rw [under, blank_append, h, Bool.false_and, List.isEmpty_cons]

end Blocks

/-- The text of the first pieces of code and the first nodes, each under its heading. -/
def excerpt (r : Retrieval) (snippetChars hits nodes : ℕ) : String :=
  under "## Semantic Matches\n\n" ((r.hits.take hits).map (hitBlock snippetChars)) ++
    under "## Code Entities\n\n" ((r.nodes.take nodes).map nodeBlock)

theorem blank_excerpt (r : Retrieval) (snippetChars : ℕ) {i j : ℕ} (hi : i ≤ r.hits.length) (hj : j ≤ r.nodes.length) :
    Text.blank (r.excerpt snippetChars i j) = true ↔ i = 0 ∧ j = 0 := by
  have hcode : Text.blank "## Semantic Matches\n\n" = false := by decide
  have hnodes : Text.blank "## Code Entities\n\n" = false := by decide
  rw [excerpt, blank_append, blank_under hcode, blank_under hnodes, Bool.and_eq_true, List.isEmpty_iff, List.isEmpty_iff,
    ← List.length_eq_zero_iff, ← List.length_eq_zero_iff, List.length_map, List.length_map, List.length_take,
    List.length_take, Nat.min_eq_left hi, Nat.min_eq_left hj]

/-- The text of a retrieval is within the size allowed and consists of whole blocks, unless no block fits and it says so:
the first pieces of code under their heading, then the first nodes under theirs. Of each kind there are as many as fit: with
the next block the text up to it would exceed the size allowed. -/
theorem text_eq_excerpt (r : Retrieval) (snippetChars maxBytes : ℕ) : ∃ i ≤ r.hits.length, ∃ j ≤ r.nodes.length,
    r.text snippetChars maxBytes = (if i = 0 ∧ j = 0 then noContext else r.excerpt snippetChars i j) ∧
    (r.excerpt snippetChars i j).utf8ByteSize ≤ maxBytes ∧
    (i < r.hits.length → maxBytes < (r.excerpt snippetChars (i + 1) 0).utf8ByteSize) ∧
    (j < r.nodes.length → maxBytes < (r.excerpt snippetChars i (j + 1)).utf8ByteSize) := by
  obtain ⟨i, hi, hcode, hcodeSize, hcodeNext⟩ := exists_addBlocks_headed "## Semantic Matches\n\n" maxBytes ""
    (r.hits.map (hitBlock snippetChars))
  -- the nodes are left what room the pieces of code have not taken
  obtain ⟨j, hj, hnodes, hnodesSize, hnodesNext⟩ := exists_addBlocks_headed "## Code Entities\n\n" maxBytes
    (under "## Semantic Matches\n\n" ((r.hits.take i).map (hitBlock snippetChars))) (r.nodes.map nodeBlock)
  simp only [String.empty_append, ← List.map_take] at hcode hcodeSize hcodeNext hnodes hnodesSize hnodesNext
  rw [List.length_map] at hi hcodeNext hj hnodesNext
  refine ⟨i, hi, j, hj, ?_, hnodesSize (hcodeSize (Nat.zero_le _)), fun hlt => ?_, hnodesNext⟩
  · have htext : r.text snippetChars maxBytes =
        if Text.blank (r.excerpt snippetChars i j) then noContext else r.excerpt snippetChars i j := by
      unfold text excerpt
      dsimp only
      rw [hcode, hnodes]
    simp only [htext, blank_excerpt r snippetChars hi hj]
  · have hnone : under "## Code Entities\n\n" ((r.nodes.take 0).map nodeBlock) = "" := rfl
    rw [excerpt, hnone, String.append_empty]
    exact hcodeNext hlt

end CodeAtlas.Retrieval
