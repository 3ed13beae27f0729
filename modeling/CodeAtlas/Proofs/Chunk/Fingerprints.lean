import Mathlib
import CodeAtlas.Chunk.Basic
import CodeAtlas.Proofs.Decimal.Digits
import CodeAtlas.Proofs.Text.Pieces

/-! What a fingerprint tells of a chunk. The bytes that are hashed are the path, the two lines and the content, the
first three each with a mark behind it; none of these can hold the mark, and the content, which can, stands last. So
the bytes tell the four, and fingerprints tell them as far as the hash tells the bytes. -/
namespace CodeAtlas

namespace Decimal

theorem isField_natText (n : Nat) : Text.IsField (natText n) := by
  rw [Text.IsField, toList_natText]
  intro h
  exact absurd (isDigit_of_mem h) (by decide)

theorem natText_inj {n m : Nat} : natText n = natText m ↔ n = m := by
  refine ⟨fun h => ?_, congrArg natText⟩
  have hvalue := congrArg (fun s => Json.digitsValue s.toList) h
  simpa using hvalue

end Decimal

namespace Chunk

/-- Whether two chunks are the same stretch of a file with the same content; language and symbol do not count. -/
structure SameText (c d : Chunk) : Prop where
  file : c.file = d.file
  startLine : c.startLine = d.startLine
  endLine : c.endLine = d.endLine
  content : c.content = d.content

/-- The bytes that a chunk's fingerprint is computed from. -/
def hashed (c : Chunk) : List UInt8 := fingerprintBytes c.file c.startLine c.endLine c.content

/-- The text whose bytes are hashed. -/
theorem hashed_eq (c : Chunk) :
    c.hashed = (c.file ++ "\x00" ++ (Decimal.natText c.startLine ++ "\x00" ++
      (Decimal.natText c.endLine ++ "\x00" ++ c.content))).toUTF8.toList := by
  rw [Text.toList_toUTF8_marked, Text.toList_toUTF8_marked, Text.toList_toUTF8_marked, hashed, fingerprintBytes]
  simp only [List.append_assoc, List.cons_append]

/-- The bytes that are hashed tell the path, the lines and the content. -/
theorem hashed_inj {c d : Chunk} (hc : Text.IsField c.file) (hd : Text.IsField d.file) :
    c.hashed = d.hashed ↔ c.SameText d := by
  rw [hashed_eq, hashed_eq, Text.toList_toUTF8_inj, hc.marked_inj hd,
    (Decimal.isField_natText _).marked_inj (Decimal.isField_natText _),
    (Decimal.isField_natText _).marked_inj (Decimal.isField_natText _), Decimal.natText_inj, Decimal.natText_inj]
  exact ⟨fun ⟨hfile, hstart, hend, hcontent⟩ => ⟨hfile, hstart, hend, hcontent⟩,
    fun ⟨hfile, hstart, hend, hcontent⟩ => ⟨hfile, hstart, hend, hcontent⟩⟩

/-- Among chunks whose paths do not hold the mark the hashed bytes tell the path, the lines and the content, and so
fingerprints tell them just if the hash does not send two of these byte strings to one value. -/
theorem fingerprints_tell {chunks : Set Chunk} (hpaths : ∀ c ∈ chunks, Text.IsField c.file) :
    (∀ c ∈ chunks, ∀ d ∈ chunks, c.hashed = d.hashed ↔ c.SameText d) ∧
      (Set.InjOn Hash.hashBytes (hashed '' chunks) ↔
        ∀ c ∈ chunks, ∀ d ∈ chunks, c.fingerprint = d.fingerprint ↔ c.SameText d) := by
  have htell : ∀ c ∈ chunks, ∀ d ∈ chunks, c.hashed = d.hashed ↔ c.SameText d := fun c hc d hd =>
    hashed_inj (hpaths c hc) (hpaths d hd)
  refine ⟨htell, fun hfree c hc d hd => ?_, ?_⟩
  · rw [← htell c hc d hd]
    exact ⟨fun h => hfree ⟨c, hc, rfl⟩ ⟨d, hd, rfl⟩ h, congrArg Hash.hashBytes⟩
  · rintro hsame _ ⟨c, hc, rfl⟩ _ ⟨d, hd, rfl⟩ h
    exact (htell c hc d hd).mpr ((hsame c hc d hd).mp h)

/-- Two stretches of one file whose lines have the same digits in a row, and whose contents differ in the mark. -/
def alikeChunks : Set Chunk :=
  {⟨"p.py", "python", 1, 12, "", none⟩, ⟨"p.py", "python", 11, 2, "\x00", none⟩}

theorem fingerprints_tell_alike :
    (∀ c ∈ alikeChunks, Text.IsField c.file) ∧ Set.InjOn Hash.hashBytes (hashed '' alikeChunks) ∧
      ∀ c ∈ alikeChunks, ∀ d ∈ alikeChunks, c.fingerprint = d.fingerprint ↔ c.SameText d := by
  have hpaths : ∀ c ∈ alikeChunks, Text.IsField c.file := by
    rintro c (rfl | rfl) <;> decide
  have hhashes : Chunk.fingerprint ⟨"p.py", "python", 1, 12, "", none⟩ ≠
      Chunk.fingerprint ⟨"p.py", "python", 11, 2, "\x00", none⟩ := by
    have hfirst : (Chunk.fingerprint ⟨"p.py", "python", 1, 12, "", none⟩).toList.head? = some 'e' :=
      (Hash.head?_hashBytes _).trans (by decide +kernel)
    have hsecond : (Chunk.fingerprint ⟨"p.py", "python", 11, 2, "\x00", none⟩).toList.head? = some '6' :=
      (Hash.head?_hashBytes _).trans (by decide +kernel)
    intro h
    rw [h, hsecond] at hfirst
    exact absurd hfirst (by decide)
  have hfree : Set.InjOn Hash.hashBytes (hashed '' alikeChunks) := by
    rintro _ ⟨c, rfl | rfl, rfl⟩ _ ⟨d, rfl | rfl, rfl⟩ h
    · rfl
    · exact absurd h hhashes
    · exact absurd h.symm hhashes
    · rfl
  exact ⟨hpaths, hfree, (fingerprints_tell hpaths).2.mp hfree⟩

end Chunk
end CodeAtlas
