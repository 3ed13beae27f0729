import CodeAtlas.Hash.Blake3
import CodeAtlas.Json.Printer
import CodeAtlas.Json.Reader
import CodeAtlas.Store.Checkpoints

/-!
Checkpoints in files. A record lies at `project/fingerprint/commit.json`, where each name is the hash of what
it stands for, so that no name can lead out of the store. Files that are not records are passed over.
-/
namespace CodeAtlas.Store

/-- The files of a store, by the components of their paths below its root. -/
structure CheckpointFiles where
  files : List (List String × String) := []

namespace CheckpointFiles

/-- The name that stands for an identifier. -/
def component (id : String) : String := Hash.hashText id

/-- Where the checkpoints of a project lie. -/
def projectPlace (project : String) : List String := [component project]

/-- Where the checkpoints about a chunk lie. -/
def chunkPlace (project fingerprint : String) : List String := [component project, component fingerprint]

/-- Where a record lies. -/
def recordPlace (project fingerprint commit : String) : List String :=
  [component project, component fingerprint, component commit ++ ".json"]

/-- Whether there is a file at a path. -/
def isFile (s : CheckpointFiles) (path : List String) : Bool := s.files.any (·.1 == path)

/-- What lies below a path, by the components that remain. -/
def below (s : CheckpointFiles) (path : List String) : List (List String × String) :=
  s.files.filterMap fun (p, text) =>
    if path.isPrefixOf p && path.length < p.length then some (p.drop path.length, text) else none

/-- Whether a path or a place above it is a file, so that nothing can lie below it. -/
def isBlocked (s : CheckpointFiles) (path : List String) : Bool :=
  s.files.any fun (p, _) => p.isPrefixOf path

/-- Whether a name ends in `.json` and has something before that. -/
def isRecordName (name : String) : Bool :=
  match Text.beforeEnd? name ".json" with
  | some stem => !stem.isEmpty
  | none => false

/-- The names directly below a path, each with the text of the file or none for a directory. -/
def entries (s : CheckpointFiles) (path : List String) : List (String × Option String) :=
  ((s.below path).map fun (p, text) => match p with
    | [name] => (name, some text)
    | name :: _ => (name, none)
    | [] => ("", none)).foldl (fun seen e => if seen.any (·.1 == e.1) then seen else seen ++ [e]) []

/-- The records that lie directly below a path. -/
def recordsAt (s : CheckpointFiles) (path : List String) : Except Failure (List Checkpoints.Record) :=
  if s.isBlocked path then .error .files
  else
    ((s.entries path).filter (isRecordName ·.1)).foldlM (fun records (_, text) =>
      match text with
      | none => .error .files
      | some text => .ok (records ++ ((Json.parse? text).bind Checkpoints.Record.decode?).toList)) []

/-- The last of the newest records. -/
def newest? (records : List Checkpoints.Record) : Option Checkpoints.Record :=
  records.foldl (fun best r => match best with
    | some b => if r.createdAt < b.createdAt then some b else some r
    | none => some r) none

/-- The newest result about a chunk of a project. -/
def get? (s : CheckpointFiles) (project fingerprint : String) : Except Failure (Option Json) := do
  let records ← s.recordsAt (chunkPlace project fingerprint)
  return (newest? (records.filter (·.isAbout project fingerprint))).map (·.result)

/-- Write a record unless its place is taken. -/
def put (s : CheckpointFiles) (r : Checkpoints.Record) : Except Failure CheckpointFiles :=
  let place := recordPlace r.project r.fingerprint r.commit
  if s.isBlocked (chunkPlace r.project r.fingerprint) then .error .files
  else if s.isFile place || !(s.below place).isEmpty then .ok s
  else .ok ⟨s.files ++ [(place, r.encode.pretty)]⟩

/-- The number of checkpoints of a project. -/
def count (s : CheckpointFiles) (project : String) : Except Failure Nat :=
  if s.isBlocked (projectPlace project) then .error .files
  else
    ((s.entries (projectPlace project)).filter (·.2.isNone)).foldlM (fun total (name, _) => do
      return total + (← s.recordsAt (projectPlace project ++ [name])).length) 0

/-- Drop all that lies at the place of a project, and say how many checkpoints that were. -/
def invalidate (s : CheckpointFiles) (project : String) : Except Failure (Nat × CheckpointFiles) := do
  let removed ← s.count project
  return (removed, ⟨s.files.filter fun (p, _) => !(projectPlace project).isPrefixOf p⟩)

/-- The paths of all files, sorted. -/
def paths (s : CheckpointFiles) : List String :=
  (s.files.map fun (p, _) => "/".intercalate p).mergeSort fun a b => !(b < a)

/-- Put a text at a path, in place of what is there. -/
def write (s : CheckpointFiles) (path : List String) (text : String) : CheckpointFiles :=
  ⟨s.files.filter (·.1 != path) ++ [(path, text)]⟩

end CheckpointFiles
end CodeAtlas.Store

/-!
Keepers of checkpoints: in memory or in files, behind one set of operations.
-/
namespace CodeAtlas.Store

/-- Whoever keeps checkpoints, with all that is kept. -/
inductive Keeper where
  | memory (records : Checkpoints)
  | files (store : CheckpointFiles)

namespace Keeper

/-- Keep a record unless there is one for its project, fingerprint and commit. -/
def put (k : Keeper) (r : Checkpoints.Record) : Except Failure Keeper :=
  match k with
  | memory c => .ok (memory (c.put r))
  | files s => (s.put r).map files

/-- The newest result about a chunk of a project. -/
def get? (k : Keeper) (project fingerprint : String) : Except Failure (Option Json) :=
  match k with
  | memory c => .ok (c.get? project fingerprint)
  | files s => s.get? project fingerprint

/-- The number of checkpoints of a project. -/
def count (k : Keeper) (project : String) : Except Failure Nat :=
  match k with
  | memory c => .ok (c.count project)
  | files s => s.count project

/-- Drop the checkpoints of a project, and say how many that were. -/
def invalidate (k : Keeper) (project : String) : Except Failure (Nat × Keeper) :=
  match k with
  | memory c => .ok (c.count project, memory (c.invalidate project))
  | files s => (s.invalidate project).map fun (n, s) => (n, files s)

/-- Checkpoints kept in a part of the state. -/
def service {σ : Type} (part : Activity.Part σ Keeper) : Checkpoints.Service σ where
  put r := Activity.tryPart part fun _ k => (k.put r).map ((), ·)
  get? project fingerprint := Activity.tryPart part fun _ k => (k.get? project fingerprint).map (·, k)

/-- The files of a keeper. -/
def stored : Keeper → CheckpointFiles
  | memory _ => {}
  | files s => s

end Keeper
end CodeAtlas.Store
