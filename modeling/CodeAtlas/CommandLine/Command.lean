import CodeAtlas.CommandLine.Switches
import CodeAtlas.Text.Basic

/-!
The commands: surveying a repository, asking a question about a project, and looking after its checkpoints.
-/
namespace CodeAtlas.CommandLine

/-- What is to be done. -/
inductive Command where
  /-- Survey a repository and write its document. -/
  | survey (path : String) (project : Option String) (sections : List String) (out checkpoints : String)
      (asJson : Bool)
  /-- Ask a question about a project that was surveyed. -/
  | ask (project question out : String)
  /-- Count the checkpoints of a project, or drop them. -/
  | checkpoints (project directory : String) (drops : Bool)
deriving DecidableEq, Repr

/-- A command with the file that its settings are in. -/
structure Invocation where
  settingsFile : Option String
  command : Command
deriving DecidableEq, Repr

/-- Where documents are written unless another place is given. -/
def defaultOut : String := "./repograph-out"

/-- Where checkpoints are kept unless another place is given. -/
def defaultCheckpoints : String := "./repograph-checkpoints"

/-- A switch whose value is a path. -/
def pathSwitch (name : String) (letter : Option Char) : Switch :=
  { name := name, letter := letter, mayBeEmpty := false }

/-- A switch without a value. -/
def bareSwitch (name : String) (letter : Option Char) : Switch :=
  { name := name, letter := letter, takesValue := false }

/-- The switches that every command knows. -/
def generalSwitches : List Switch :=
  [pathSwitch "config" 'c', bareSwitch "verbose" 'v', bareSwitch "log-json" none]

/-- What the survey of a repository takes. -/
def surveySignature : Signature where
  switches := generalSwitches ++ [{ name := "project" }, { name := "sections", repeats := true },
    pathSwitch "out" 'o', pathSwitch "checkpoints" none, bareSwitch "json" none]
  arguments := [false]

/-- What a question takes. -/
def askSignature : Signature where
  switches := generalSwitches ++ [pathSwitch "out" 'o']
  arguments := [true, true]

/-- What looking after checkpoints takes. -/
def checkpointsSignature : Signature where
  switches := generalSwitches ++ [pathSwitch "dir" none, bareSwitch "clear" none]
  arguments := [true]

/-- The signature of a command by its name. -/
def signature? (name : String) : Option Signature :=
  if name == "analyze" then some surveySignature
  else if name == "ask" then some askSignature
  else if name == "checkpoints" then some checkpointsSignature
  else none

/-- The command that was given by its name. -/
def commandOf? (name : String) (g : Given) : Option Command :=
  match name, g.arguments with
  | "analyze", [path] =>
    some (.survey path (g.value? "project")
      ((g.values "sections").flatMap (Text.splitWhere (· == ',')))
      ((g.value? "out").getD defaultOut) ((g.value? "checkpoints").getD defaultCheckpoints) (g.has "json"))
  | "ask", [project, question] => some (.ask project question ((g.value? "out").getD defaultOut))
  | "checkpoints", [project] =>
    some (.checkpoints project ((g.value? "dir").getD defaultCheckpoints) (g.has "clear"))
  | _, _ => none

/-- Whether help can be had on a command, given the words that follow `help`. -/
def knowsHelp : List String → Bool
  | [] => true
  | [name] => name == "help" || (signature? name).isSome
  | _ => false

/-- Read a command with its settings file; switches that every command knows may also stand in front. -/
def read (words : List String) : Except Refusal Invocation := do
  let (front, words) ← readFront ⟨generalSwitches, []⟩ words.length {} words
  match words with
  | [] => throw .misuse
  | "help" :: words => throw (if knowsHelp words then .help else .misuse)
  | name :: words =>
    match signature? name with
    | none => throw .misuse
    | some sig =>
      let g ← sig.read words
      match commandOf? name g with
      | some command => return ⟨(g.value? "config").or (front.value? "config"), command⟩
      | none => throw .misuse

end CodeAtlas.CommandLine
