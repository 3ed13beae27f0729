import CodeAtlas.Activity.Basic
import CodeAtlas.Calendar
import CodeAtlas.Json.Record
import CodeAtlas.Failure

/-!
Checkpoints: findings about chunks that are kept across runs. For a project, a fingerprint and a commit the
first result is kept and never replaced; a look-up disregards the commit and gives the newest result.
-/
namespace CodeAtlas.Store

/-- What is known about a chunk since some commit. -/
structure Checkpoints.Record where
  project : String
  commit : String
  fingerprint : String
  file : String
  result : Json
  createdAt : Instant := 0

/-- Checkpoints in the order in which they were made. -/
abbrev Checkpoints := List Checkpoints.Record

namespace Checkpoints

/-- Whether a record is about a chunk of a project. -/
def Record.isAbout (project fingerprint : String) (r : Record) : Bool :=
  r.project == project && r.fingerprint == fingerprint

/-- Whether two records have the same project, fingerprint and commit. -/
def Record.sameKey (a b : Record) : Bool := b.isAbout a.project a.fingerprint && b.commit == a.commit

/-- Keep a record unless there is one for its project, fingerprint and commit. -/
def put (c : Checkpoints) (r : Record) : Checkpoints := if c.any r.sameKey then c else c ++ [r]

/-- The newest result about a chunk of a project. -/
def get? (c : Checkpoints) (project fingerprint : String) : Option Json :=
  (c.filter (·.isAbout project fingerprint)).getLast?.map (·.result)

/-- The number of checkpoints of a project. -/
def count (c : Checkpoints) (project : String) : Nat := c.countP (·.project == project)

/-- Drop the checkpoints of a project. -/
def invalidate (c : Checkpoints) (project : String) : Checkpoints := c.filter (·.project != project)

/-- Encode a record. -/
def Record.encode (r : Record) : Json :=
  .obj [("project_id", .str r.project), ("commit_sha", .str r.commit),
    ("fingerprint", .str r.fingerprint), ("file_path", .str r.file), ("result", r.result),
    ("created_at", .str r.createdAt.text)]

/-- Decode a record. -/
def Record.decode? (j : Json) : Option Record := do
  let r ← j.record? ["project_id", "commit_sha", "fingerprint", "file_path", "result", "created_at"]
  return {
    project := ← r.need "project_id" Json.text?
    commit := ← r.need "commit_sha" Json.text?
    fingerprint := ← r.need "fingerprint" Json.text?
    file := ← r.need "file_path" Json.text?
    result := ← r.need "result" fun j => some j.canonical
    createdAt := ← (← r.need "created_at" Json.text?) |> Instant.read? }

/-- Whoever keeps checkpoints. -/
structure Service (σ : Type) where
  put : Record → Activity σ (Except Failure Unit)
  get? : String → String → Activity σ (Except Failure (Option Json))

/-- Checkpoints kept in a part of the state. -/
def service {σ : Type} (part : Activity.Part σ Checkpoints) : Service σ where
  put r := Activity.updatePart part fun _ c => (.ok (), c.put r)
  get? project fingerprint := Activity.updatePart part fun _ c => (.ok (c.get? project fingerprint), c)

end Checkpoints
end CodeAtlas.Store
