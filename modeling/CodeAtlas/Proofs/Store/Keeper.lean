import CodeAtlas.Proofs.Activity.Proceeds
import CodeAtlas.Proofs.Store.Written

/-! Which records a keeper gives from the moment it keeps them. A record whose key is taken is not kept, and in files
one that is older than another about its chunk is not given; any other record is what its chunk is looked up as. -/
namespace CodeAtlas
namespace Store

open Checkpoints (Record)

namespace CheckpointFiles

variable {s s' : CheckpointFiles} {r : Record} {records : List Record}

theorem get?_of_recordsAt {project fingerprint : String}
    (h : s.recordsAt (chunkPlace project fingerprint) = .ok records) :
    s.get? project fingerprint =
      .ok ((newest? (records.filter (·.isAbout project fingerprint))).map (·.result)) := by
  unfold get?
  rw [h]
  rfl

theorem exists_recordsAt {project fingerprint : String} {result : Option Json}
    (h : s.get? project fingerprint = .ok result) :
    ∃ records, s.recordsAt (chunkPlace project fingerprint) = .ok records := by
  unfold get? at h
  cases hr : s.recordsAt (chunkPlace project fingerprint) with
  | ok records => exact ⟨records, rfl⟩
  | error e =>
    rw [hr] at h
    cases h

theorem put_of_isTaken (h : s.isTaken r = true) (hput : s.put r = .ok s') : s' = s := by
  rw [put_eq, if_pos h] at hput
  split at hput
  · cases hput
  · cases hput
    rfl

/-- A record whose place is free is found behind the others about its chunk. -/
theorem recordsAt_put (hr : r.Writable) (hfree : s.isTaken r = false) (hput : s.put r = .ok s')
    (h : s.recordsAt (chunkPlace r.project r.fingerprint) = .ok records) :
    s'.recordsAt (chunkPlace r.project r.fingerprint) = .ok (records ++ [r]) := by
  rw [put_eq] at hput
  split at hput
  · cases hput
  · rw [hfree, if_neg (by simp)] at hput
    cases hput
    simp only [isTaken, Bool.or_eq_false_iff, Bool.not_eq_false', List.isEmpty_iff] at hfree
    exact recordsAt_append (isRecordName_component r.commit) hfree.1 hfree.2 hr.read?_text h

theorem filter_isAbout_append : (records ++ [r]).filter (·.isAbout r.project r.fingerprint) =
    records.filter (·.isAbout r.project r.fingerprint) ++ [r] := by
  simp [Checkpoints.isAbout_self]

end CheckpointFiles

namespace Keeper

/-- What a keeper knows about a chunk of a project. -/
def about (k : Keeper) (project fingerprint : String) : Keeper :=
  match k with
  | memory c => memory (c.about project fingerprint)
  | files s => files (s.about project fingerprint)

variable {k k' : Keeper} {r : Record} {project fingerprint : String}

theorem get?_about : (k.about project fingerprint).get? project fingerprint = k.get? project fingerprint := by
  cases k with
  | memory c => exact congrArg Except.ok Checkpoints.get?_about
  | files s => exact CheckpointFiles.get?_about

/-- Keeping a record concerns what is known about its chunk. -/
theorem about_put_same (h : k.put r = .ok k') :
    (k.about r.project r.fingerprint).put r = .ok (k'.about r.project r.fingerprint) := by
  cases k with
  | memory c =>
    cases h
    exact congrArg (fun c => Except.ok (memory c)) (Checkpoints.about_put_same (c := c) (r := r)).symm
  | files s =>
    cases hs : s.put r with
    | error e =>
      rw [put, hs] at h
      cases h
    | ok s' =>
      rw [put, hs] at h
      cases h
      have hsame := CheckpointFiles.about_put_same (s := s) (r := r)
      rw [hs] at hsame
      show ((s.about r.project r.fingerprint).put r).map files = .ok (files (s'.about r.project r.fingerprint))
      rw [← hsame]
      rfl

/-- Keeping a record leaves alone what is known about chunks with other places. -/
theorem about_put_other (hplaces : CheckpointFiles.HaveOwnPlaces r.project r.fingerprint project fingerprint)
    (h : k.put r = .ok k') : k'.about project fingerprint = k.about project fingerprint := by
  cases k with
  | memory c =>
    cases h
    have hother : r.isAbout project fingerprint = false := by
      rw [Bool.eq_false_iff]
      intro habout
      simp only [Record.isAbout, Bool.and_eq_true, beq_iff_eq] at habout
      obtain ⟨rfl, rfl⟩ := habout
      rcases hplaces with hne | hne <;> exact hne rfl
    exact congrArg memory (Checkpoints.about_put_other hother)
  | files s =>
    cases hs : s.put r with
    | error e =>
      rw [put, hs] at h
      cases h
    | ok s' =>
      rw [put, hs] at h
      cases h
      exact congrArg files (CheckpointFiles.about_put_other hplaces hs)

section Service

variable {σ : Type} {part : Activity.Part σ Keeper}

/-- Looking up a chunk changes nothing. -/
theorem service_get? (h : part.Lawful) (project fingerprint : String) :
    (service part).get? project fingerprint =
      Activity.update fun _ s => ((part.get s).get? project fingerprint, s) := by
  refine congrArg Activity.update (funext fun _ => funext fun s => ?_)
  cases hget : (part.get s).get? project fingerprint with
  | ok value => simp [hget, Except.map, h.set_get]
  | error e => simp [hget, Except.map, h.set_get]

/-- Keeping a record changes what is kept, and nothing if it fails. -/
theorem service_put (h : part.Lawful) (r : Record) :
    (service part).put r = Activity.update fun _ s =>
      match (part.get s).put r with
      | .ok k => (.ok (), part.set k s)
      | .error e => (.error e, s) := by
  refine congrArg Activity.update (funext fun _ => funext fun s => ?_)
  cases hput : (part.get s).put r with
  | ok k => simp [hput, Except.map]
  | error e => simp [hput, Except.map, h.set_get]

end Service

/-- Whether a keeper gives a record from the moment it is asked to keep it: its key is free, and in files every
other record about its chunk is older. -/
def Accepts (k : Keeper) (r : Record) : Prop :=
  match k with
  | memory c => c.any r.sameKey = false
  | files s => s.isTaken r = false ∧
      ∀ records, s.recordsAt (CheckpointFiles.chunkPlace r.project r.fingerprint) = .ok records →
        ∀ b ∈ records, b.isAbout r.project r.fingerprint = true → b.createdAt < r.createdAt

/-- Whether a keeper goes on giving what it gave: the key is taken, or in files another record about the chunk is
newer. -/
def Rejects (k : Keeper) (r : Record) : Prop :=
  match k with
  | memory c => c.any r.sameKey = true
  | files s => s.isTaken r = true ∨
      ∃ records, s.recordsAt (CheckpointFiles.chunkPlace r.project r.fingerprint) = .ok records ∧
        ∃ b ∈ records, b.isAbout r.project r.fingerprint = true ∧ r.createdAt < b.createdAt

theorem accepts_about : (k.about r.project r.fingerprint).Accepts r ↔ k.Accepts r := by
  cases k with
  | memory c => exact iff_of_eq (congrArg (· = false) Checkpoints.any_sameKey_about)
  | files s => simp only [about, Accepts, CheckpointFiles.isTaken_about, CheckpointFiles.recordsAt_about]

theorem rejects_about : (k.about r.project r.fingerprint).Rejects r ↔ k.Rejects r := by
  cases k with
  | memory c => exact iff_of_eq (congrArg (· = true) Checkpoints.any_sameKey_about)
  | files s => simp only [about, Rejects, CheckpointFiles.isTaken_about, CheckpointFiles.recordsAt_about]

/-- A record that is accepted is what its chunk is looked up as. -/
theorem get?_put_of_accepts {before : Option Json} (hr : r.Writable) (haccepts : k.Accepts r)
    (hbefore : k.get? r.project r.fingerprint = .ok before) (h : k.put r = .ok k') :
    k'.get? r.project r.fingerprint = .ok (some r.result) := by
  cases k with
  | memory c =>
    cases h
    exact congrArg Except.ok (Checkpoints.get?_put haccepts)
  | files s =>
    obtain ⟨hfree, holder⟩ := haccepts
    obtain ⟨records, hrecords⟩ := CheckpointFiles.exists_recordsAt hbefore
    cases hs : s.put r with
    | error e =>
      rw [put, hs] at h
      cases h
    | ok s' =>
      rw [put, hs] at h
      cases h
      have hput := CheckpointFiles.recordsAt_put hr hfree hs hrecords
      have hnewest : CheckpointFiles.newest?
          ((records ++ [r]).filter (·.isAbout r.project r.fingerprint)) = some r := by
        rw [CheckpointFiles.filter_isAbout_append, CheckpointFiles.newest?_append]
        split
        · next b hb =>
          obtain ⟨hmem, habout⟩ := List.mem_filter.mp (CheckpointFiles.mem_of_newest? hb)
          have hlt := holder records hrecords b hmem habout
          rw [if_neg (Int.not_lt.mpr (Int.le_of_lt hlt))]
        · rfl
      exact (CheckpointFiles.get?_of_recordsAt hput).trans (by rw [hnewest]; rfl)

/-- A record that is rejected does not change what its chunk is looked up as. -/
theorem get?_put_of_rejects (hr : r.Writable) (hrejects : k.Rejects r) (h : k.put r = .ok k') :
    k'.get? r.project r.fingerprint = k.get? r.project r.fingerprint := by
  cases k with
  | memory c =>
    cases h
    unfold Rejects at hrejects
    simp only [get?, Checkpoints.put, hrejects, if_true]
  | files s =>
    cases hs : s.put r with
    | error e =>
      rw [put, hs] at h
      cases h
    | ok s' =>
      rw [put, hs] at h
      cases h
      by_cases htaken : s.isTaken r = true
      · rw [CheckpointFiles.put_of_isTaken htaken hs]
      · obtain ⟨records, hrecords, b, hb, habout, hnewer⟩ := hrejects.resolve_left htaken
        have hput := CheckpointFiles.recordsAt_put hr (by simpa using htaken) hs hrecords
        have hmem : b ∈ records.filter (·.isAbout r.project r.fingerprint) := List.mem_filter.mpr ⟨hb, habout⟩
        have hsame : CheckpointFiles.newest? ((records ++ [r]).filter (·.isAbout r.project r.fingerprint)) =
            CheckpointFiles.newest? (records.filter (·.isAbout r.project r.fingerprint)) := by
          rw [CheckpointFiles.filter_isAbout_append, CheckpointFiles.newest?_append]
          split
          · next best hbest =>
            have hle := CheckpointFiles.le_of_newest? hbest b hmem
            rw [if_pos (Int.lt_of_lt_of_le hnewer hle), hbest]
          · next hnone =>
            rw [CheckpointFiles.newest?_eq_none.mp hnone] at hmem
            cases hmem
        exact (CheckpointFiles.get?_of_recordsAt hput).trans
          ((CheckpointFiles.get?_of_recordsAt hrecords).trans (by rw [hsame])).symm

end Keeper
end Store
end CodeAtlas
