import Mathlib.Data.List.Basic
import CodeAtlas.Store.Keeper

/-! What a keeper of checkpoints knows about one chunk, apart from all else that it keeps. Looking up a chunk and
keeping a record about it concern only this, and records about other chunks leave it alone. -/
namespace CodeAtlas
namespace Store

namespace Checkpoints

/-- The records about a chunk of a project. -/
def about (c : Checkpoints) (project fingerprint : String) : Checkpoints :=
  c.filter (·.isAbout project fingerprint)

variable {c : Checkpoints} {project fingerprint : String} {r : Record}

theorem get?_about : (c.about project fingerprint).get? project fingerprint = c.get? project fingerprint := by
  simp [about, get?, List.filter_filter]

theorem isAbout_self (r : Record) : r.isAbout r.project r.fingerprint = true := by
  simp [Record.isAbout]

theorem any_sameKey_about : (c.about r.project r.fingerprint).any r.sameKey = c.any r.sameKey := by
  unfold about
  rw [List.any_filter]
  refine congrArg (List.any c) (funext fun b => ?_)
  unfold Record.sameKey
  cases b.isAbout r.project r.fingerprint <;> simp

theorem about_put_same : (c.put r).about r.project r.fingerprint = (c.about r.project r.fingerprint).put r := by
  unfold put
  rw [any_sameKey_about]
  split
  · rfl
  · simp [about, isAbout_self]

theorem about_put_other (h : r.isAbout project fingerprint = false) :
    (c.put r).about project fingerprint = c.about project fingerprint := by
  unfold put
  split
  · rfl
  · simp [about, h]

/-- A record whose key is new is the newest one. -/
theorem get?_put (h : c.any r.sameKey = false) : (c.put r).get? r.project r.fingerprint = some r.result := by
  simp [put, get?, h, isAbout_self]

end Checkpoints

namespace CheckpointFiles

/-- Whether a file has to do with a chunk: it lies at or below its place, or in the way. -/
def concerns (project fingerprint : String) (path : List String) : Bool :=
  (chunkPlace project fingerprint).isPrefixOf path || path.isPrefixOf (chunkPlace project fingerprint)

/-- The files that have to do with a chunk. -/
def about (s : CheckpointFiles) (project fingerprint : String) : CheckpointFiles :=
  ⟨s.files.filter fun f => concerns project fingerprint f.1⟩

variable {s : CheckpointFiles} {project fingerprint : String} {r : Checkpoints.Record}

theorem isBlocked_about : (s.about project fingerprint).isBlocked (chunkPlace project fingerprint) =
    s.isBlocked (chunkPlace project fingerprint) := by
  unfold about isBlocked
  rw [List.any_filter]
  refine congrArg (List.any s.files) (funext fun ⟨path, _⟩ => ?_)
  cases hpath : path.isPrefixOf (chunkPlace project fingerprint) with
  | true => simp only [concerns, hpath, Bool.or_true, Bool.true_and]
  | false => simp only [hpath, Bool.and_false]

theorem concerns_of_above {path more : List String} (h : (chunkPlace project fingerprint).isPrefixOf path = true)
    (hmore : path.isPrefixOf more = true) : concerns project fingerprint more = true := by
  rw [List.isPrefixOf_iff_prefix] at h hmore
  rw [concerns, List.isPrefixOf_iff_prefix.mpr (h.trans hmore), Bool.true_or]

theorem below_about {path : List String} (h : (chunkPlace project fingerprint).isPrefixOf path = true) :
    (s.about project fingerprint).below path = s.below path := by
  unfold about below
  rw [List.filterMap_filter]
  refine congrArg (List.filterMap · s.files) (funext fun f => ?_)
  cases hf : path.isPrefixOf f.1 with
  | true => rw [if_pos (concerns_of_above h hf)]
  | false =>
    split
    · rfl
    · simp [hf]

theorem isFile_about {path : List String} (h : (chunkPlace project fingerprint).isPrefixOf path = true) :
    (s.about project fingerprint).isFile path = s.isFile path := by
  unfold about isFile
  rw [List.any_filter]
  refine congrArg (List.any s.files) (funext fun f => ?_)
  by_cases hf : f.1 = path
  · rw [hf, concerns, h, Bool.true_or, Bool.true_and]
  · rw [beq_eq_false_iff_ne.mpr hf, Bool.and_false]

theorem chunkPlace_isPrefixOf (commit : String) :
    (chunkPlace project fingerprint).isPrefixOf (recordPlace project fingerprint commit) = true := by
  simp [chunkPlace, recordPlace]

theorem chunkPlace_isPrefixOf_self :
    (chunkPlace project fingerprint).isPrefixOf (chunkPlace project fingerprint) = true := by
  simp

theorem recordsAt_about : (s.about project fingerprint).recordsAt (chunkPlace project fingerprint) =
    s.recordsAt (chunkPlace project fingerprint) := by
  unfold recordsAt entries
  rw [isBlocked_about, below_about chunkPlace_isPrefixOf_self]

theorem get?_about : (s.about project fingerprint).get? project fingerprint = s.get? project fingerprint := by
  unfold get?
  rw [recordsAt_about]

/-- Whether something lies at the place of a record. -/
def isTaken (s : CheckpointFiles) (r : Checkpoints.Record) : Bool :=
  s.isFile (recordPlace r.project r.fingerprint r.commit) ||
    !(s.below (recordPlace r.project r.fingerprint r.commit)).isEmpty

theorem put_eq (s : CheckpointFiles) (r : Checkpoints.Record) : s.put r =
    if s.isBlocked (chunkPlace r.project r.fingerprint) then .error .files
    else if s.isTaken r then .ok s
    else .ok ⟨s.files ++ [(recordPlace r.project r.fingerprint r.commit, r.encode.pretty)]⟩ := rfl

theorem isTaken_about : (s.about r.project r.fingerprint).isTaken r = s.isTaken r := by
  unfold isTaken
  rw [isFile_about (chunkPlace_isPrefixOf r.commit), below_about (chunkPlace_isPrefixOf r.commit)]

theorem about_put_same : (s.put r).map (·.about r.project r.fingerprint) =
    (s.about r.project r.fingerprint).put r := by
  rw [put_eq, put_eq, isBlocked_about, isTaken_about]
  split
  · rfl
  · split
    · rfl
    · have hplace : concerns r.project r.fingerprint (recordPlace r.project r.fingerprint r.commit) = true := by
        rw [concerns, chunkPlace_isPrefixOf, Bool.true_or]
      simp [Except.map, about, hplace]

/-- Whether two chunks have places of their own. -/
def HaveOwnPlaces (project fingerprint project' fingerprint' : String) : Prop :=
  component project ≠ component project' ∨ component fingerprint ≠ component fingerprint'

theorem about_put_other {s' : CheckpointFiles} (h : HaveOwnPlaces r.project r.fingerprint project fingerprint)
    (hput : s.put r = .ok s') : s'.about project fingerprint = s.about project fingerprint := by
  have hplace : concerns project fingerprint (recordPlace r.project r.fingerprint r.commit) = false := by
    unfold HaveOwnPlaces at h
    simp [concerns, chunkPlace, recordPlace]
    grind
  rw [put_eq] at hput
  split at hput
  · cases hput
  · split at hput
    · cases hput
      rfl
    · cases hput
      simp [about, hplace]

end CheckpointFiles
end Store
end CodeAtlas
