import CodeAtlas.Text.Basic
import Std.Data.HashMap.Basic
import Std.Data.HashSet.Basic

/-!
Trees of files and directories, and paths in them. A path is followed part by part, and only directories lead
on, so a path that leads out of a file or through nothing leads nowhere.
-/
namespace CodeAtlas

/-- A file or a directory, known by the components of its path. -/
structure FileTree.Entry where
  path : List String
  bytes : Option ByteArray

/-- Files and directories below one place. -/
abbrev FileTree := List FileTree.Entry

namespace FileTree

/-- Where one part of a path leads; empty parts and single dots lead nowhere else, two dots lead up. -/
def lead (place : List String) (part : String) : List String :=
  if part.isEmpty || part == "." then place
  else if part == ".." then place.dropLast else place ++ [part]

/-- The components of a path. -/
def components (path : String) : List String := (Text.splitWhere (· == '/') path).foldl lead []

/-- What a path lies below a place as; none when it does not. -/
def below? (place path : List String) : Option (List String) :=
  match place, path with
  | [], path => some path
  | _ :: _, [] => none
  | a :: place, b :: path => if a = b then below? place path else none

/-- The part of a tree that lies strictly below a place. -/
def within (tree : FileTree) (place : List String) : FileTree :=
  tree.filterMap fun e => (below? place e.path).bind fun path =>
    if path.isEmpty then none else some { e with path := path }

/-- A tree moved below a place. -/
def placed (tree : FileTree) (place : List String) : FileTree :=
  tree.map fun e => { e with path := place ++ e.path }

/-- Whether a place is a directory: something lies below it, or it is listed as one. -/
def isDirectory (tree : FileTree) (place : List String) : Bool :=
  place.isEmpty || !(tree.within place).isEmpty || tree.any fun e => e.path == place && e.bytes.isNone

/-- The text of a file, when it is there and is UTF-8. -/
def read? (tree : FileTree) (path : List String) : Option String :=
  (tree.find? fun e => e.path == path && e.bytes.isSome).bind fun e =>
    e.bytes.bind String.fromUTF8?

/-- Whether a place is a file. -/
def isFile (tree : FileTree) (place : List String) : Bool :=
  tree.any fun e => e.path == place && e.bytes.isSome

/-- How many bytes the name of a file may have. -/
def maxNameBytes : Nat := 255

/-- The place that one part of a path leads to; only directories can be left. -/
def step? (tree : FileTree) (place : List String) (part : String) : Option (List String) :=
  if tree.isDirectory place && part.utf8ByteSize ≤ maxNameBytes then some (lead place part) else none

/-- Where a path begins, seen from a directory. -/
def origin (start : List String) (path : String) : List String := if path.startsWith "/" then [] else start

/-- All places that a path leads through, seen from a directory, whether anything is there or not. -/
def trail (start : List String) (path : String) : List (List String) :=
  (Text.splitWhere (· == '/') path).foldl (fun seen part =>
    seen ++ [lead (seen.getLast?.getD []) part]) [origin start path]

/-- The place that a path leads to, seen from a directory; the last part need not be there yet. -/
def resolve? (tree : FileTree) (start : List String) (path : String) : Option (List String) :=
  (Text.splitWhere (· == '/') path).foldlM (tree.step? · ·) (origin start path)

/-- The place of a path at which there is a file or a directory. -/
def locate? (tree : FileTree) (start : List String) (path : String) : Option (List String) :=
  (tree.resolve? start path).filter fun place => tree.isDirectory place || tree.isFile place

/-- The bytes of the file that a path leads to. -/
def bytesAt? (tree : FileTree) (start : List String) (path : String) : Option ByteArray := do
  let place ← tree.resolve? start path
  (← List.find? (fun e => e.path == place && e.bytes.isSome) tree).bytes

/-- Put a file at a place, instead of the file that is there. -/
def put (tree : FileTree) (place : List String) (bytes : ByteArray) : FileTree :=
  tree.filter (·.path != place) ++ [⟨place, some bytes⟩]

/-- Write a file at the end of a path; its directory must be there. -/
def write? (tree : FileTree) (start : List String) (path : String) (bytes : ByteArray) : Option FileTree := do
  let place ← tree.resolve? start path
  if tree.isDirectory place then none else some (tree.put place bytes)

/-- Go one part along a path, making a directory where there is nothing. -/
def enter? (here : FileTree × List String) (part : String) : Option (FileTree × List String) := do
  let (tree, place) := here
  let place ← tree.step? place part
  if tree.isDirectory place then some (tree, place)
  else if tree.isFile place then none
  else some (tree ++ [⟨place, none⟩], place)

/-- Make the directory that a path leads to, and those on the way. -/
def makeDirectory? (tree : FileTree) (start : List String) (path : String) : Option (FileTree × List String) :=
  (Text.splitWhere (· == '/') path).foldlM enter? (tree, origin start path)

/-- A tree with every place listed once, as it is listed first. -/
def distinct (tree : FileTree) : FileTree :=
  (tree.foldl (fun (seen, kept) e =>
    if seen.contains e.path then (seen, kept) else (seen.insert e.path, e :: kept))
    ((∅ : Std.HashSet (List String)), [])).2.reverse

/-- What has to be done to make one tree of another. -/
inductive Change where
  | make (place : List String)
  | write (place : List String) (bytes : ByteArray)
  | remove (place : List String)

/-- The changes that make the second tree of the first: what is gone, deepest first, then what is new. -/
def changes (before after : FileTree) : List Change :=
  let index (tree : FileTree) : Std.HashMap (List String) (Option ByteArray) :=
    .ofList (tree.map fun e => (e.path, e.bytes))
  let old := index before
  let new := index after
  let gone := before.filter fun e => !new.contains e.path
  let fresh := after.filter fun e => old[e.path]? != some e.bytes
  (gone.mergeSort fun a b => b.path.length ≤ a.path.length).map (.remove ·.path) ++ fresh.map fun e =>
    match e.bytes with
    | some bytes => .write e.path bytes
    | none => .make e.path

end FileTree

end CodeAtlas
