import CodeAtlas.CommandLine.Run
import Std.Time.DateTime.Timestamp

/-!
The program on a file system. What a command can look at is read into a tree, the command is carried out on that
tree, and what it changed is written back. Nothing carries requests to models here, so what is found rests on the
code and on earlier checkpoints alone.
-/
namespace CodeAtlas.Program

/-- The path of a place. -/
def pathOf (place : List String) :=
  System.mkFilePath ("" :: if place.isEmpty then [""] else place)

/-- What is at a place itself; what cannot be read counts as nothing. -/
def entryAt? (place : List String) : IO (Option FileTree.Entry) := do
  let path := pathOf place
  if ← path.isDir then return some ⟨place, none⟩
  else try return some ⟨place, some (← IO.FS.readBinFile path)⟩ catch _ => return none

/-- The names in a directory; one that cannot be read counts as empty. -/
def namesIn (place : List String) : IO (List String) := do
  try return (← (pathOf place).readDir).toList.map (·.fileName) catch _ => return []

/-- Everything below a directory whose path from `top` passes a test; links are not followed. -/
partial def treeBelow (enters : List String → Bool) (top below : List String) : IO FileTree := do
  let trees ← (← namesIn (top ++ below)).mapM fun name => do
    let inner := below ++ [name]
    if !enters inner then return []
    let place := top ++ inner
    match (← (pathOf place).symlinkMetadata).type with
    | .dir => return ⟨place, none⟩ :: (← treeBelow enters top inner)
    | .file => return (← entryAt? place).toList
    | _ => return []
  return trees.flatten

/-- The part of the file system that a command looks at. -/
def treeOf (start : List String) (sights : List CommandLine.Sight) : IO FileTree := do
  let trails := (sights.flatMap fun s => FileTree.trail start s.path).eraseDups
  let onTheWay ← trails.filterMapM entryAt?
  let below ← sights.mapM fun s => do
    let place := (FileTree.trail start s.path).getLast?.getD []
    if s.enters [] && (← (pathOf place).isDir) then treeBelow s.enters place [] else return []
  return FileTree.distinct (onTheWay ++ below.flatten)

/-- Make a change on the file system. -/
def apply : FileTree.Change → IO Unit
  | .make place => IO.FS.createDirAll (pathOf place)
  | .write place bytes => IO.FS.writeBinFile (pathOf place) bytes
  | .remove place => do
    let path := pathOf place
    if ← path.isDir then IO.FS.removeDir path else IO.FS.removeFile path

/-- What surrounds the program. -/
def surroundings (directory : List String) : IO CommandLine.Surroundings := do
  let given ← Settings.variableNames.filterMapM fun name => do
    return (← IO.getEnv name).map fun value => (name, value)
  let now ← Std.Time.Timestamp.now
  let id ← IO.getRandomBytes 16
  return {
    directory := directory
    environment := (given.lookup ·)
    carrier := fun _ => .done none
    now := now.toNanosecondsSinceUnixEpoch.val
    surveyId := String.ofList (id.toList.flatMap fun b =>
      [Json.hexDigit (b.toNat / 16), Json.hexDigit (b.toNat % 16)]) }

/-- Carry out the command that some words stand for, and give its exit code. -/
def perform (words : List String) : IO UInt32 := do
  let directory := FileTree.components (← IO.currentDir).toString
  match CommandLine.read words with
  | .error .help => IO.print CommandLine.usage
  | .error .misuse => IO.eprint CommandLine.usage
  | .ok _ => pure ()
  let sights := match CommandLine.read words with
    | .ok i => i.sights directory
    | .error _ => []
  let tree ← treeOf directory sights
  let outcome := CommandLine.run (← surroundings directory) tree words
  (FileTree.changes tree outcome.tree).forM apply
  IO.print outcome.output
  if let some message := outcome.error then IO.eprintln ("Error: " ++ message)
  return outcome.exitCode.toUInt32

end CodeAtlas.Program

/-- The program. -/
def main (words : List String) : IO UInt32 := CodeAtlas.Program.perform words
