import CodeAtlas.Findings.Analyst
import CodeAtlas.Proofs.Activity.Stops

/-! Reading chunks up to a deadline. Every reading that has ended when the time is up is taken in. Any other reading
still waits then, or it could not begin for others that wait. -/
namespace CodeAtlas
namespace Analyst

open Activity (Leads Lasting TurnsOut)

variable {σ : Type}

/-- When readings of some number of chunks begin, all in all: at once, or up to the limit if they have to wait for
others. -/
def Begins (a : Analyst σ) (count : Nat) (begun limit t : Moment) : Prop :=
  begun ≤ t ∧ (t = begun ∨ max 1 a.capacity < count ∧ t ≤ max begun limit)

/-- Whether a reading of a chunk may still wait when a limit has passed. -/
def MayWait (a : Analyst σ) (project commit : String) (begins : Moment → Prop) (limit : Moment) (c : Chunk) : Prop :=
  ∃ u n t, Leads begins (a.read project commit c) (.wait u n) t ∧ ∀ v, u = some v → limit < v

/-- What readings have found, taken in in the order in which they ended. -/
def found (ended : List (Nat × Reading)) : Findings :=
  (ended.foldl (fun (tally : Tally) x => tally.add x.2) {}).findings

/-- Which readings of chunks have ended when a limit has passed, each with the place of its chunk. Of the others, as
many as may be under way wait, or all that there are. -/
structure Caught (a : Analyst σ) (project commit : String) (chunks : List Chunk) (begun limit : Moment)
    (ended : List (Nat × Reading)) : Prop where
  nodup : (ended.map Prod.fst).Nodup
  inTime : ∀ x ∈ ended, ∃ c t, chunks[x.1]? = some c ∧ t ≤ max begun limit ∧
    Leads (a.Begins chunks.length begun limit) (a.read project commit c) (.done x.2) t
  others : ∃ waiting : List Nat, waiting.Nodup ∧
    (∀ i ∈ waiting, ∃ c, chunks[i]? = some c ∧
      a.MayWait project commit (a.Begins chunks.length begun limit) limit c) ∧
    ∀ i < chunks.length, i ∈ ended.map Prod.fst ∨ i ∈ waiting ∨ max 1 a.capacity ≤ waiting.length

section Caught

variable {a : Analyst σ} {project commit : String} {chunks : List Chunk} {begun limit : Moment}
  {ended : List (Nat × Reading)}

theorem Caught.places_lt (h : a.Caught project commit chunks begun limit ended) :
    ∀ i ∈ ended.map Prod.fst, i < chunks.length := by
  intro i hi
  obtain ⟨x, hx, rfl⟩ := List.mem_map.mp hi
  obtain ⟨c, _, hc, _, _⟩ := h.inTime x hx
  exact (List.getElem?_eq_some_iff.mp hc).1

/-- When no reading may wait, all have ended. -/
theorem Caught.length_eq (h : a.Caught project commit chunks begun limit ended)
    (hnone : ∀ c ∈ chunks, ¬ a.MayWait project commit (a.Begins chunks.length begun limit) limit c) :
    ended.length = chunks.length := by
  obtain ⟨waiting, _, hwaiting, hothers⟩ := h.others
  have hempty : waiting = [] := by
    refine List.eq_nil_iff_forall_not_mem.mpr fun i hi => ?_
    obtain ⟨c, hc, hwait⟩ := hwaiting i hi
    exact hnone c (List.mem_of_getElem? hc) hwait
  have hall : ∀ i ∈ List.range chunks.length, i ∈ ended.map Prod.fst := by
    intro i hi
    rcases hothers i (List.mem_range.mp hi) with hended | hwaits | hfull
    · exact hended
    · rw [hempty] at hwaits
      cases hwaits
    · have hroom := Nat.le_trans (Nat.le_max_left 1 a.capacity) hfull
      rw [hempty] at hroom
      cases hroom
  have hperm : (ended.map Prod.fst).Perm (List.range chunks.length) := by
    rw [List.perm_ext_iff_of_nodup h.nodup List.nodup_range]
    exact fun i => ⟨fun hi => List.mem_range.mpr (h.places_lt i hi), hall i⟩
  simpa using hperm.length_eq

end Caught

section Turns

end Turns

end Analyst
end CodeAtlas
