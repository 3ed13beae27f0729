import CodeAtlas.Proofs.Activity.TurnsOut
import CodeAtlas.Retrieval.Retriever

/-! A retrieval with room for its results does not crash on its own account. -/
namespace CodeAtlas
namespace Retriever

open Activity (Safe)
open Retrieval

variable {σ : Type}

/-- A retriever whose stores and whose search for vectors may fail but never crash. -/
structure Reliable (r : Retriever σ) : Prop where
  vectors : ∀ project question, (r.searchVectors project question).Safe
  search : ∀ project word limit, (r.store.search project word limit).Safe
  load : ∀ project, (r.store.load? project).Safe

theorem double_lt_of_room {n : Nat} (h : n ≤ maxRoom) : n * 2 < Width.size 64 := by
  have hroom : maxRoom * 2 < Width.size 64 := by decide
  exact Nat.lt_of_le_of_lt (Nat.mul_le_mul_right 2 h) hroom

section Reliable

variable {r : Retriever σ} (hr : r.Reliable) (hroom : r.settings.maxResults ≤ maxRoom)

include hr

include hroom in
theorem safe_searchWords (project : String) (words : List String) : (r.searchWords project words).Safe := by
  induction words with
  | nil => exact .done _
  | cons word rest ih =>
    unfold searchWords
    rw [if_neg (Nat.not_le.mpr (double_lt_of_room hroom))]
    refine (hr.search project word _).andThen fun found => ?_
    cases found with
    | error e => exact .done _
    | ok nodes =>
      refine ih.andThen fun more => ?_
      cases more <;> exact .done _

theorem safe_nodesFor (project : String) (hits : List Store.Vectors.Hit) : (r.nodesFor project hits).Safe := by
  unfold nodesFor
  split
  · exact .done _
  · refine (hr.load project).andThen fun record => ?_
    cases record <;> exact .done _

include hroom in
/-- With room for its results a retrieval crashes only where somebody does whom it asks. -/
theorem safe_retrieve (project question : String) : (r.retrieve project question).Safe := by
  refine (hr.vectors project question).andThen fun hits? => ?_
  refine (safe_searchWords hr hroom project _).andThen fun found => ?_
  cases found with
  | error e => exact .done _
  | ok found =>
    refine (safe_nodesFor hr project _).andThen fun nodes => ?_
    cases nodes with
    | error e => exact .done _
    | ok nodes =>
      dsimp only
      rw [if_neg (Nat.not_lt.mpr hroom)]
      exact .done _

end Reliable

/-- A retriever that searches without models, in stores that hold nothing. -/
def idle (models : Models Unit) (s : Settings.Retrieval) : Retriever Unit where
  models := { models with embedding := none }
  vectors := {
    replace := fun _ _ => .done (.ok ())
    nearest := fun _ _ _ _ => .done (.ok []) }
  store := {
    save := fun _ => .done (.ok ())
    load? := fun _ => .done (.ok none)
    search := fun _ _ _ => .done (.ok []) }
  settings := s
  memory := ⟨fun _ => [], fun _ s => s⟩
  calendar := .done 0

section Idle

variable (models : Models Unit) (s : Settings.Retrieval)

theorem reliable_idle : (idle models s).Reliable where
  vectors _ _ := .done _
  search _ _ _ := .done _
  load _ := .done _

theorem searchWords_idle (project : String) (words : List String) :
    (idle models s).searchWords project words = .crash doublingMessage ∨
      ∃ found, (idle models s).searchWords project words = .done (.ok found) := by
  induction words with
  | nil => exact .inr ⟨[], rfl⟩
  | cons word rest ih =>
    by_cases hdouble : Width.size 64 ≤ (idle models s).settings.maxResults * 2
    · exact .inl (if_pos hdouble)
    · unfold searchWords
      rw [if_neg hdouble]
      show Activity.andThen ((idle models s).searchWords project rest) _ = _ ∨
        ∃ found, Activity.andThen ((idle models s).searchWords project rest) _ = _
      rcases ih with hcrash | ⟨found, hfound⟩
      · rw [hcrash]
        exact .inl rfl
      · rw [hfound]
        exact .inr ⟨_, rfl⟩

/-- Without room for its results a retrieval crashes, although nobody does whom it asks. -/
theorem exists_crash_idle (h : maxRoom < s.maxResults) (project question : String) :
    ∃ m, (idle models s).retrieve project question = .crash m := by
  unfold retrieve
  show ∃ m, Activity.andThen ((idle models s).searchWords project (keywordsOf question)) _ = _
  rcases searchWords_idle models s project (keywordsOf question) with hcrash | ⟨found, hfound⟩
  · rw [hcrash]
    exact ⟨_, rfl⟩
  · rw [hfound]
    exact ⟨_, if_pos h⟩

end Idle

end Retriever
end CodeAtlas
