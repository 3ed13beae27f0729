import CodeAtlas.CommandLine.Run
import CodeAtlas.Json.Reader
import CodeAtlas.Rehearsal.Brief
import CodeAtlas.Rehearsal.Setup

/-!
Commands rehearsed in a directory of their own, with nobody to carry requests to models. What one command leaves
behind, the next one finds.
-/
namespace CodeAtlas.Rehearsal

/-- A command to rehearse, and which of its answers are to be shown. -/
structure Errand where
  words : List String
  environment : List (String × String) := []
  showsError : Bool := true
  showsOutput : Bool := true

/-- Decode an object all of whose values are texts. -/
def textTable? : Json → Option (List (String × String))
  | .obj fields => fields.mapM fun (k, j) => return (k, ← j.text?)
  | _ => none

/-- A key and the address of an endpoint for models, at which nobody answers. -/
def endpointVariables : List (String × String) :=
  [("OPENAI_API_KEY", "sk-test"), ("REPOGRAPH_API_BASE", "http://127.0.0.1:1/v1/")]

/-- Decode a command to rehearse. -/
def Errand.decode? (j : Json) : Option Errand := do
  let endpoint := if ← j.orDefault? "api" Json.bool? false then endpointVariables else []
  return {
    words := ← j.required? "args" (Json.list? Json.text?)
    environment := endpoint ++ (← j.orDefault? "env" textTable? [])
    showsError := ← j.orDefault? "show_error" Json.bool? true
    showsOutput := ← j.orDefault? "show_stdout" Json.bool? true }

/-- The directory in which commands are rehearsed. -/
def workplace : List String := ["tmp", "work"]

/-- The moment at which all commands are carried out. -/
def commandTime : Instant := 1767225600000000000

/-- Carry out a command. -/
def Errand.perform (e : Errand) (tree : FileTree) : CommandLine.Outcome :=
  CommandLine.run ⟨workplace, (e.environment.lookup ·), fun _ => .done none, commandTime, ""⟩ tree e.words

/-- How a command came out, as far as it is to be shown: what it printed is shown as a document when it is one. -/
def Errand.report (e : Errand) (r : CommandLine.Outcome) : Json :=
  let document := Json.read? r.output
  let printed := (Text.lines r.output).map briefLine
  .obj [("exit", .nat r.exitCode),
    ("error", if e.showsError then Json.optional (fun m => .str ((Text.lines m).headD "")) r.error else .null),
    ("stdout", if e.showsOutput && document.isNone then Json.strings printed else .null),
    ("json", if e.showsOutput then (document.map timeless).getD .null else .null)]

/-- Carry out commands one after another in a directory that holds some files. -/
def carryOut (errands : List Errand) (files : FileTree) : FileTree × List Json :=
  let (tree, reports) := errands.foldl (fun (tree, out) e =>
    let r := e.perform tree
    (r.tree, out ++ [e.report r])) (files.placed workplace, [])
  (tree.within workplace, reports)

/-- A file as it is shown: a document by its name, or a text; null when there is none. -/
def fileAt (tree : FileTree) (path : String) : Json :=
  let content := (tree.bytesAt? [] path).bind String.fromUTF8?
  if path.endsWith ".json" then ((content.bind Json.read?).map timeless).getD .null
  else Json.optional .str content

/-- The paths of all files of a tree, sorted as texts. -/
def filePaths (tree : FileTree) : List String :=
  ((tree.filter (·.bytes.isSome)).map fun e => "/".intercalate e.path).mergeSort fun a b => !(b < a)

end CodeAtlas.Rehearsal
