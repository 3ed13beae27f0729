import Mathlib.Data.String.Basic
import CodeAtlas.Models.Guarded

/-! Batches of texts to embed. Batches are filled in order, and one is closed only for a text that does not fit into it
any more; a text that is too long is cut to its longest beginning of whole characters. -/
namespace CodeAtlas.Models

/-- Whether a text is the longest beginning of another one that ends with a whole character and has at most some
bytes. -/
structure IsLongestBeginning (room : Nat) (text cut : String) : Prop where
  begins : cut.toList <+: text.toList
  size : cut.utf8ByteSize ≤ room
  longest : ∀ other : String, other.toList <+: text.toList → other.utf8ByteSize ≤ room → other.toList <+: cut.toList

section Cutting

theorem takeBytes_begins (room : Nat) (cs : List Char) : takeBytes room cs <+: cs := by
  induction cs generalizing room with
  | nil => exact List.prefix_rfl
  | cons c rest ih =>
    unfold takeBytes
    split
    · exact List.cons_prefix_cons.mpr ⟨rfl, ih _⟩
    · exact List.nil_prefix

theorem size_takeBytes_le (room : Nat) (cs : List Char) : String.utf8Len (takeBytes room cs) ≤ room := by
  induction cs generalizing room with
  | nil => exact Nat.zero_le room
  | cons c rest ih =>
    unfold takeBytes
    split
    · next hfits =>
      have hrest := ih (room - c.utf8Size)
      rw [String.utf8Len_cons]
      omega
    · exact Nat.zero_le room

theorem begins_takeBytes {room : Nat} {cs ds : List Char} (h : ds <+: cs) (hsize : String.utf8Len ds ≤ room) :
    ds <+: takeBytes room cs := by
  induction cs generalizing room ds with
  | nil => exact h
  | cons c rest ih =>
    cases ds with
    | nil => exact List.nil_prefix
    | cons d ds =>
      obtain ⟨rfl, hrest⟩ := List.cons_prefix_cons.mp h
      rw [String.utf8Len_cons] at hsize
      rw [takeBytes, if_pos (by omega)]
      exact List.cons_prefix_cons.mpr ⟨rfl, ih hrest (by omega)⟩

theorem isLongestBeginning_cutToTokens (text : String) (maxTokens : Nat) :
    IsLongestBeginning (maxTokens * bytesPerToken) text (cutToTokens text maxTokens) := by
  unfold cutToTokens
  split
  · next hfits => exact ⟨List.prefix_rfl, hfits, fun _ hother _ => hother⟩
  · refine ⟨?_, ?_, fun other hother hsize => ?_⟩
    · rw [String.toList_ofList]
      exact takeBytes_begins _ _
    · rw [String.utf8ByteSize_ofList]
      exact size_takeBytes_le _ _
    · rw [String.toList_ofList]
      exact begins_takeBytes hother (String.utf8Len_toList other ▸ hsize)

end Cutting

section Inputs

variable {texts : List String}

theorem isLongEnough_iff (text : String) : minTextTokens ≤ estimateTokens text ↔ 40 ≤ text.utf8ByteSize :=
  Nat.le_div_iff_mul_le (by decide)

/-- The texts that are long enough keep their places. -/
theorem index_inputs (texts : List String) :
    (inputs texts).map Input.index =
      (List.range texts.length).filter fun i => texts[i]?.any fun text => 40 ≤ text.utf8ByteSize := by
  have hplaces : List.range texts.length = texts.zipIdx.map Prod.snd := by
    rw [List.zipIdx_map_snd, List.range_eq_range']
  rw [inputs, List.map_map, hplaces, List.filter_map]
  congr 1
  refine List.filter_congr fun ⟨text, i⟩ hmem => ?_
  have htext : texts[i]? = some text := List.mem_zipIdx_iff_getElem?.mp hmem
  simp only [Function.comp, htext, Option.any_some, isLongEnough_iff]

theorem exists_of_mem_inputs {x : Input} (h : x ∈ inputs texts) :
    ∃ text, texts[x.index]? = some text ∧ IsLongestBeginning 32000 text x.text := by
  obtain ⟨⟨text, i⟩, hmem, rfl⟩ := List.mem_map.mp h
  exact ⟨text, List.mem_zipIdx_iff_getElem?.mp (List.mem_filter.mp hmem).1,
    isLongestBeginning_cutToTokens text maxTextTokens⟩

/-- A text that is cut fits into a batch of its own. -/
theorem estimateTokens_le_of_mem_inputs {x : Input} (h : x ∈ inputs texts) :
    estimateTokens x.text ≤ maxBatchTokens := by
  obtain ⟨text, -, hcut⟩ := exists_of_mem_inputs h
  have htokens : estimateTokens x.text ≤ 32000 / bytesPerToken := Nat.div_le_div_right hcut.size
  exact Nat.le_trans htokens (by decide)

end Inputs

section Packing

variable {current : List Input}

@[simp] theorem batchTokens_append (b b' : List Input) : batchTokens (b ++ b') = batchTokens b + batchTokens b' := by
  induction b with
  | nil => exact (Nat.zero_add _).symm
  | cons x b ih => rw [List.cons_append, batchTokens, batchTokens, ih, Nat.add_assoc]

theorem batchTokens_singleton (x : Input) : batchTokens [x] = estimateTokens x.text := rfl

/-- Whether a batch has no room for the first input of the next one. -/
def IsFull (b next : List Input) : Prop :=
  ∃ x, next.head? = some x ∧ maxBatchTokens < batchTokens b + estimateTokens x.text

/-- The next input either opens a batch of its own, because it does not fit, or is put into the open one. -/
theorem pack_cons (current : List Input) (x : Input) (rest : List Input) :
    (current ≠ [] ∧ maxBatchTokens < batchTokens current + estimateTokens x.text ∧
      pack current (x :: rest) = current :: pack [x] rest) ∨
    ((current = [] ∨ batchTokens current + estimateTokens x.text ≤ maxBatchTokens) ∧
      pack current (x :: rest) = pack (current ++ [x]) rest) := by
  rw [pack]
  split
  · next hclosed =>
    simp only [Bool.and_eq_true, Bool.not_eq_true', List.isEmpty_eq_false_iff, decide_eq_true_eq] at hclosed
    exact .inl ⟨hclosed.1, hclosed.2, rfl⟩
  · next hopen =>
    simp only [Bool.and_eq_true, Bool.not_eq_true', List.isEmpty_eq_false_iff, decide_eq_true_eq, not_and_or, not_not,
      Nat.not_lt] at hopen
    exact .inr ⟨hopen, rfl⟩

theorem flatten_pack (current xs : List Input) : (pack current xs).flatten = current ++ xs := by
  induction xs generalizing current with
  | nil => cases current <;> simp [pack]
  | cons x rest ih =>
    rcases pack_cons current x rest with ⟨-, -, hpack⟩ | ⟨-, hpack⟩
    · rw [hpack, List.flatten_cons, ih, List.singleton_append]
    · rw [hpack, ih, List.append_assoc, List.singleton_append]

theorem ne_nil_of_mem_pack {xs b : List Input} (h : b ∈ pack current xs) : b ≠ [] := by
  induction xs generalizing current with
  | nil =>
    cases current with
    | nil => cases h
    | cons y current =>
      rw [List.mem_singleton.mp h]
      exact List.cons_ne_nil _ _
  | cons x rest ih =>
    rcases pack_cons current x rest with ⟨hne, -, hpack⟩ | ⟨-, hpack⟩
    · rw [hpack] at h
      rcases List.mem_cons.mp h with rfl | h
      · exact hne
      · exact ih h
    · exact ih (hpack ▸ h)

/-- No batch gets more than it may hold, when no single input has more. -/
theorem batchTokens_le_of_mem_pack {xs b : List Input} (hcurrent : batchTokens current ≤ maxBatchTokens)
    (hxs : ∀ x ∈ xs, estimateTokens x.text ≤ maxBatchTokens) (h : b ∈ pack current xs) :
    batchTokens b ≤ maxBatchTokens := by
  induction xs generalizing current with
  | nil =>
    cases current with
    | nil => cases h
    | cons y current => rwa [List.mem_singleton.mp h]
  | cons x rest ih =>
    obtain ⟨hx, hrest⟩ := List.forall_mem_cons.mp hxs
    rcases pack_cons current x rest with ⟨-, -, hpack⟩ | ⟨hfits, hpack⟩
    · rw [hpack] at h
      rcases List.mem_cons.mp h with rfl | h
      · exact hcurrent
      · exact ih (show batchTokens [x] ≤ maxBatchTokens from hx) hrest h
    · refine ih ?_ hrest (hpack ▸ h)
      rw [batchTokens_append, batchTokens_singleton]
      rcases hfits with rfl | hfits
      · exact (Nat.zero_add _).trans_le hx
      · exact hfits

/-- The first batch goes on with the open one. -/
theorem exists_pack_eq_cons (xs : List Input) (hne : current ≠ []) :
    ∃ b later, pack current xs = b :: later ∧ b.head? = current.head? := by
  induction xs generalizing current with
  | nil =>
    cases current with
    | nil => exact absurd rfl hne
    | cons y current => exact ⟨_, [], rfl, rfl⟩
  | cons x rest ih =>
    rcases pack_cons current x rest with ⟨-, -, hpack⟩ | ⟨-, hpack⟩
    · exact ⟨current, _, hpack, rfl⟩
    · obtain ⟨b, later, hb, hhead⟩ := ih (List.append_ne_nil_of_right_ne_nil current (List.cons_ne_nil x []))
      refine ⟨b, later, hpack.trans hb, hhead.trans ?_⟩
      cases current with
      | nil => exact absurd rfl hne
      | cons y current => rfl

/-- A batch is closed only for an input for which it has no room. -/
theorem isChain_pack (current xs : List Input) : (pack current xs).IsChain IsFull := by
  induction xs generalizing current with
  | nil => cases current <;> simp [pack]
  | cons x rest ih =>
    rcases pack_cons current x rest with ⟨-, hfull, hpack⟩ | ⟨-, hpack⟩
    · obtain ⟨b, later, hb, hhead⟩ := exists_pack_eq_cons rest (List.cons_ne_nil x [])
      have hlater := ih [x]
      rw [hpack]
      rw [hb] at hlater ⊢
      exact List.isChain_cons_cons.mpr ⟨⟨x, hhead, hfull⟩, hlater⟩
    · rw [hpack]
      exact ih _

end Packing

/-- What batches are planned for some texts. -/
structure Planned (texts : List String) (batches : List (List Input)) : Prop where
  /-- The texts that are long enough are there once each and in order. -/
  places : batches.flatten.map Input.index =
    (List.range texts.length).filter fun i => texts[i]?.any fun text => 40 ≤ text.utf8ByteSize
  /-- Each of them is cut as little as can be. -/
  texts : ∀ x ∈ batches.flatten, ∃ text, texts[x.index]? = some text ∧ IsLongestBeginning 32000 text x.text
  nonempty : ∀ b ∈ batches, b ≠ []
  most : ∀ b ∈ batches, batchTokens b ≤ 250000
  /-- The next text would not have fitted into a batch after which there is another one. -/
  full : ∀ k b next, batches[k]? = some b → batches[k + 1]? = some next →
    ∃ x, next.head? = some x ∧ 250000 < batchTokens b + estimateTokens x.text

theorem planned_batches (texts : List String) : Planned texts (batches texts) where
  places := by rw [batches, flatten_pack, List.nil_append, index_inputs]
  texts x hx := by
    rw [batches, flatten_pack, List.nil_append] at hx
    exact exists_of_mem_inputs hx
  nonempty _ hb := ne_nil_of_mem_pack hb
  most _ hb := batchTokens_le_of_mem_pack (Nat.zero_le _) (fun _ hx => estimateTokens_le_of_mem_inputs hx) hb
  full k b next hb hnext := by
    obtain ⟨hk, rfl⟩ := List.getElem?_eq_some_iff.mp hb
    obtain ⟨hk', rfl⟩ := List.getElem?_eq_some_iff.mp hnext
    exact List.isChain_iff_getElem.mp (isChain_pack [] (inputs texts)) k hk'

end CodeAtlas.Models
