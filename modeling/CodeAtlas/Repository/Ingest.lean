import CodeAtlas.Chunk.Basic
import CodeAtlas.Failure
import CodeAtlas.FileTree
import Std.Data.TreeMap

/-!
A repository as the rest of the atlas sees it: its commit, its files with their languages and lengths, and
its chunks.
-/
namespace CodeAtlas

namespace Repository

/-- A source file. -/
structure File where
  path : String
  language : String
  lineCount : Nat

/-- The number of lines of every known file. -/
abbrev LineCounts := List (String × Nat)

end Repository

/-- A repository at one commit. -/
structure Repository where
  commit : String := ""
  files : List Repository.File := []
  chunks : List Chunk := []

namespace Repository

/-- How many files there are of each language, by language. -/
def languages (r : Repository) : List (String × Nat) :=
  let counts := r.files.foldl (fun (m : Std.TreeMap String Nat) f => m.alter f.language fun n =>
    some (n.getD 0 + 1)) {}
  counts.toList

/-- The number of lines of every file. -/
def lineCounts (r : Repository) : LineCounts := r.files.map fun f => (f.path, f.lineCount)

/-- Take a chunk into account: a file has the language of its first chunk and ends with its last line. -/
def noteChunk (files : Std.TreeMap String File) (c : Chunk) : Std.TreeMap String File :=
  files.alter c.file fun known =>
    let file := known.getD ⟨c.file, c.language, 0⟩
    some { file with lineCount := max file.lineCount c.endLine }

/-- A repository that is known by its chunks alone. -/
def ofChunks (commit : String) (chunks : List Chunk) : Repository where
  commit := commit
  files := (chunks.foldl noteChunk {}).values
  chunks := chunks

/-- Encode a file. -/
def File.encode (f : File) : Json :=
  .obj [("path", .str f.path), ("language", .str f.language), ("line_count", .nat f.lineCount)]

/-- Encode counts by name. -/
def encodeCounts (counts : List (String × Nat)) : Json := .obj (counts.map fun (name, n) => (name, .nat n))

/-- Encode a repository, given how its chunks are encoded. -/
def encode (chunk : Chunk → Json) (r : Repository) : Json :=
  .obj [("commit", .str r.commit), ("files", Json.list File.encode r.files),
    ("file_count", .nat r.files.length), ("chunks", Json.list chunk r.chunks),
    ("languages", encodeCounts r.languages), ("tree", encodeCounts r.lineCounts)]

end Repository
end CodeAtlas

/-!
Reading a repository out of a tree of files. Files are taken in the order of their paths, component by
component; directories that hold tools' own files, large files, files of unknown language, files that are
not UTF-8 and blank files are passed over. The commit is the one that `.git` names, or else a hash over
the files.
-/
namespace CodeAtlas

namespace Repository

/-- Why a repository could not be read. -/
inductive Failure where
  | notADirectory (path : String)

/-- The text of a failure. -/
def Failure.message : Failure → String
  | notADirectory path => "not a directory: " ++ path

/-- A failure as it is reported, without the path. -/
def Failure.fault : Failure → Fault
  | notADirectory _ => ⟨"Ingestion", "not a directory"⟩

/-- Directories that are never entered. -/
def skippedDirectories : List String := [
  ".git", ".hg", ".svn", "target", "node_modules", "dist", "build", "__pycache__", ".venv", "venv",
  ".idea", ".vscode"]

/-- The size in bytes above which a file is passed over. -/
def maxFileBytes : Nat := 1024 * 1024

/-- Whether a text is the name of a commit: at least forty characters, all hexadecimal. -/
def isCommitName (s : String) : Bool :=
  40 ≤ s.utf8ByteSize && s.toList.all fun c =>
    c.isDigit || ('a' ≤ c && c ≤ 'f') || ('A' ≤ c && c ≤ 'F')

/-- The two parts of a line around its first blank. -/
def splitAtBlank? (line : String) : Option (String × String) :=
  (Text.splitFirst? [' '] line.toList).map fun (a, b) => (String.ofList a, String.ofList b)

/-- The commit that a list of packed references gives for a reference. -/
def packedCommit? (packed reference : String) : Option String :=
  (Text.lines packed).findSome? fun line => (splitAtBlank? line).bind fun (commit, name) =>
    if name == reference && isCommitName commit then some commit else none

/-- The commit that the `.git` directory of a tree names, following one reference. -/
def headCommit? (tree : FileTree) : Option String := do
  let head := Text.trim (← tree.read? [".git", "HEAD"])
  match Text.afterStart? head "ref: " with
  | none => if isCommitName head then some head else none
  | some reference =>
    let loose := (tree.read? (".git" :: FileTree.components reference)).map Text.trim
    match loose.filter isCommitName with
    | some commit => some commit
    | none => packedCommit? (← tree.read? [".git", "packed-refs"]) reference

/-- A text file that is taken into the repository. -/
structure Source where
  path : String
  language : String
  content : String

/-- The source file of an entry, unless the entry is passed over. -/
def sourceOf? (e : FileTree.Entry) : Option Source := do
  let bytes ← e.bytes
  if e.path.dropLast.any skippedDirectories.contains || maxFileBytes < bytes.size then none
  let path := "/".intercalate e.path
  let language ← Language.ofPath? path
  let content ← String.fromUTF8? bytes
  if Text.blank content then none else some ⟨path, language, content⟩

/-- The source files of a tree, by path. -/
def sources (tree : FileTree) : List Source :=
  (tree.mergeSort fun a b => !decide (b.path < a.path)).filterMap sourceOf?

/-- The bytes that stand for the files when there is no commit. -/
def contentBytes (sources : List Source) : List UInt8 :=
  sources.flatMap fun s => s.path.toUTF8.toList ++ 0 :: s.content.toUTF8.toList

/-- The name that stands for a commit when there is none. -/
def contentName (sources : List Source) : String :=
  "content-" ++ Text.take 16 (Hash.hashBytes (contentBytes sources))

/-- The chunks of a source file. -/
def Source.chunks (s : Source) (maxLines : Nat) : List Chunk :=
  Chunk.ofText s.path s.language s.content maxLines

/-- The repository at the top of a tree. -/
def ofTree (tree : FileTree) (maxLines : Nat) : Repository :=
  let sources := sources tree
  { commit := (headCommit? tree).getD (contentName sources)
    files := sources.map fun s =>
      ⟨s.path, s.language, ((s.chunks maxLines).getLast?.map (·.endLine)).getD 0⟩
    chunks := sources.flatMap (·.chunks maxLines) }

/-- The repository at a place in a tree. -/
def ingest (tree : FileTree) (root : String) (maxLines : Nat) : Except Failure Repository :=
  let place := FileTree.components root
  if tree.isDirectory place then .ok (ofTree (tree.within place) maxLines)
  else .error (.notADirectory root)

end Repository
end CodeAtlas
