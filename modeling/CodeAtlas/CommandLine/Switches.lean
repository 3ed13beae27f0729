/-!
Switches and arguments of a command. Switches are long (`--name value`, `--name=value`) or short (`-n value`,
`-nvalue`, `-n=value`); short ones without a value can be written together, and `--` ends them all. A switch
that needs a value does not take one that looks like a switch.
-/
namespace CodeAtlas.CommandLine

/-- Why arguments are no command. -/
inductive Refusal where
  /-- Help is asked for. -/
  | help
  | misuse
deriving DecidableEq, Repr

/-- A switch that a command knows. -/
structure Switch where
  name : String
  letter : Option Char := none
  takesValue : Bool := true
  /-- Whether the switch may be given several times. -/
  repeats : Bool := false
  /-- Whether its value may be empty. -/
  mayBeEmpty : Bool := true
deriving DecidableEq, Repr

/-- What a command takes: its switches, and for each argument whether it may be empty. -/
structure Signature where
  switches : List Switch
  arguments : List Bool
deriving DecidableEq, Repr

/-- What was given to a command: switches with their values, and arguments. -/
structure Given where
  switches : List (String × String) := []
  arguments : List String := []
deriving DecidableEq, Repr

namespace Given

/-- Whether a switch was given. -/
def has (g : Given) (name : String) : Bool := g.switches.any (·.1 == name)

/-- The value of a switch. -/
def value? (g : Given) (name : String) : Option String := g.switches.lookup name

/-- All values of a switch, in order. -/
def values (g : Given) (name : String) : List String :=
  (g.switches.filter (·.1 == name)).map (·.2)

/-- Note a switch with its value. -/
def addSwitch (g : Given) (s : Switch) (value : String) : Except Refusal Given :=
  if (g.has s.name && !s.repeats) || (value.isEmpty && !s.mayBeEmpty) then .error .misuse
  else .ok { g with switches := g.switches ++ [(s.name, value)] }

/-- Note an argument, if one more is taken. -/
def addArgument (g : Given) (sig : Signature) (value : String) : Except Refusal Given :=
  match sig.arguments[g.arguments.length]? with
  | none => .error .misuse
  | some mayBeEmpty =>
    if value.isEmpty && !mayBeEmpty then .error .misuse
    else .ok { g with arguments := g.arguments ++ [value] }

end Given

/-- Whether a word looks like a switch. -/
def looksLikeSwitch (word : String) : Bool := word.startsWith "-" && word != "-"

/-- The value of a switch, and the words that are left: what is attached to it, or the next word. -/
def takeValue (attached : Option String) (rest : List String) : Except Refusal (String × List String) :=
  match attached, rest with
  | some value, rest => .ok (value, rest)
  | none, value :: rest => if looksLikeSwitch value then .error .misuse else .ok (value, rest)
  | none, [] => .error .misuse

/-- A long switch without its dashes: its name and what follows an equals sign. -/
def splitLong (word : List Char) : String × Option String :=
  let name := String.ofList (word.takeWhile (· != '='))
  match word.dropWhile (· != '=') with
  | _ :: value => (name, some (String.ofList value))
  | [] => (name, none)

/-- Take a long switch. -/
def takeLong (sig : Signature) (g : Given) (word : List Char) (rest : List String) :
    Except Refusal (Given × List String) := do
  let (name, attached) := splitLong word
  if name == "help" then
    throw (if attached.isSome then .misuse else .help)
  match sig.switches.find? (·.name == name) with
  | none => throw .misuse
  | some s =>
    if s.takesValue then
      let (value, rest) ← takeValue attached rest
      return (← g.addSwitch s value, rest)
    else if attached.isSome then throw .misuse
    else return (← g.addSwitch s "", rest)

/-- The value that is attached to a short switch. -/
def attachedValue : List Char → Option String
  | [] => none
  | '=' :: value => some (String.ofList value)
  | value => some (String.ofList value)

/-- Take short switches written together. -/
def takeShort (sig : Signature) (g : Given) (letters : List Char) (rest : List String) :
    Except Refusal (Given × List String) :=
  match letters with
  | [] => .ok (g, rest)
  | c :: more =>
    if c = 'h' then .error .help
    else match sig.switches.find? (·.letter == some c) with
      | none => .error .misuse
      | some s =>
        if s.takesValue then do
          let (value, rest) ← takeValue (attachedValue more) rest
          return (← g.addSwitch s value, rest)
        else do
          takeShort sig (← g.addSwitch s "") more rest

/-- Take a word as switches; none when it is an argument. -/
def takeSwitch? (sig : Signature) (g : Given) (word : String) (rest : List String) :
    Option (Except Refusal (Given × List String)) :=
  match word.toList with
  | '-' :: '-' :: name => some (takeLong sig g name rest)
  | '-' :: c :: letters => some (takeShort sig g (c :: letters) rest)
  | _ => none

/-- Take all words as arguments. -/
def takeArguments (sig : Signature) (g : Given) (words : List String) : Except Refusal Given :=
  words.foldlM (·.addArgument sig ·) g

/-- Read all words of a command; no word is read twice, so the number of words bounds the steps. -/
def readAll (sig : Signature) : Nat → Given → List String → Except Refusal Given
  | _, g, [] => .ok g
  | 0, g, _ => .ok g
  | steps + 1, g, word :: rest =>
    if word == "--" then takeArguments sig g rest
    else match takeSwitch? sig g word rest with
      | some taken => do
        let (g, rest) ← taken
        readAll sig steps g rest
      | none => do readAll sig steps (← g.addArgument sig word) rest

/-- Read the words of a command; all arguments must be given. -/
def Signature.read (sig : Signature) (words : List String) : Except Refusal Given := do
  let g ← readAll sig words.length {} words
  if g.arguments.length = sig.arguments.length then return g else throw .misuse

/-- Read switches up to the first argument, and give the words from there on. -/
def readFront (sig : Signature) : Nat → Given → List String → Except Refusal (Given × List String)
  | _, g, [] => .ok (g, [])
  | 0, g, words => .ok (g, words)
  | steps + 1, g, word :: rest =>
    if word == "--" then .error .misuse
    else match takeSwitch? sig g word rest with
      | some taken => do
        let (g, rest) ← taken
        readFront sig steps g rest
      | none => .ok (g, word :: rest)

end CodeAtlas.CommandLine
