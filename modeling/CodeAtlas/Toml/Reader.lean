import CodeAtlas.Json.Basic
import CodeAtlas.Toml.Scalar

/-!
The tables of a settings document while it is read. A table is opened once: by a header, by dotted keys, or
without being named itself on the way to another table. `insert?` and `open?` refuse whatever would define
a key or a table a second time.
-/
namespace CodeAtlas.Toml

/-- How a table came to be. -/
inductive Origin where
  | passed
  | header
  | dotted
deriving DecidableEq, Repr

/-- A value, a table, or a list of tables of which the last one is open. -/
inductive Node where
  | value (j : Json)
  | table (origin : Origin) (fields : List (String × Node))
  | tables (items : List (List (String × Node)))

/-- The fields of a table. -/
abbrev Fields := List (String × Node)

/-- Put a node at a key, in place of what is there. -/
def put (key : String) (node : Node) : Fields → Fields
  | [] => [(key, node)]
  | (k, n) :: rest => if k = key then (k, node) :: rest else (k, n) :: put key node rest

/-- Put a value at a dotted key: the key is new, and the table that holds it is made by dotted keys. -/
def insert? (value : Json) : List String → Fields → Option Fields
  | [], _ => none
  | [key], fields =>
    match fields.lookup key with
    | some _ => none
    | none => some (put key (.value value) fields)
  | key :: rest, fields =>
    match fields.lookup key with
    | none => (insert? value rest []).map fun inner => put key (.table .dotted inner) fields
    | some (.table origin inner) =>
      if origin = .dotted ∨ (origin = .passed ∧ 2 ≤ rest.length) then
        (insert? value rest inner).map fun inner => put key (.table origin inner) fields
      else none
    | some _ => none

/-- Change the table at a path of headers, making tables on the way; of a list of tables the last one is
meant. -/
def within? (change : Fields → Option Fields) : List String → Fields → Option Fields
  | [], fields => change fields
  | key :: rest, fields =>
    match fields.lookup key with
    | none => (within? change rest []).map fun inner => put key (.table .passed inner) fields
    | some (.table origin inner) =>
      (within? change rest inner).map fun inner => put key (.table origin inner) fields
    | some (.tables items) =>
      match items.getLast? with
      | some last => (within? change rest last).map fun inner =>
          put key (.tables (items.dropLast ++ [inner])) fields
      | none => none
    | some (.value _) => none

/-- Open a table by its header: it is new, or was only passed on the way to another one. -/
def openTable? (key : String) (fields : Fields) : Option Fields :=
  match fields.lookup key with
  | none => some (put key (.table .header []) fields)
  | some (.table .passed inner) => some (put key (.table .header inner) fields)
  | some _ => none

/-- Open one more table of a list by its header. -/
def openItem? (key : String) (fields : Fields) : Option Fields :=
  match fields.lookup key with
  | none => some (put key (.tables [[]]) fields)
  | some (.tables items) => some (put key (.tables (items ++ [[]])) fields)
  | some _ => none

mutual

/-- A node as a document. -/
def Node.toJson : Node → Json
  | .value j => j
  | .table _ fields => .obj (fieldsToJson fields)
  | .tables items => .arr (itemsToJson items)

/-- Fields as the fields of a document. -/
def fieldsToJson : List (String × Node) → List (String × Json)
  | [] => []
  | (k, n) :: rest => (k, n.toJson) :: fieldsToJson rest

/-- Tables as the items of a document. -/
def itemsToJson : List (List (String × Node)) → List Json
  | [] => []
  | fields :: rest => .obj (fieldsToJson fields) :: itemsToJson rest

end

end CodeAtlas.Toml

/-!
Reading a settings document: comments, headers of tables and of lists of tables, and keys with values.
`read?` gives the settings as a document, or none when the text is not well formed or defines something
twice.
-/
namespace CodeAtlas.Toml

/-- Drop blanks and tabs. -/
def skipBlanks (cs : List Char) : List Char := cs.dropWhile fun c => c == ' ' || c == '\t'

/-- Drop a comment, if one stands here. -/
def skipComment? (cs : List Char) : Option (List Char) :=
  match cs with
  | '#' :: rest =>
    let rest := rest.dropWhile isPrintable
    if rest.isEmpty || (newline? rest).isSome then some rest else none
  | _ => some cs

/-- Drop blanks, comments and line ends; `fuel` bounds how many. -/
def skipLines? : Nat → List Char → Option (List Char)
  | 0, cs => some cs
  | fuel + 1, cs => do
    let cs ← skipComment? (skipBlanks cs)
    match newline? cs with
    | some rest => skipLines? fuel rest
    | none => some cs

/-- The end of a line: blanks, a comment, and the line end or the end of the text. -/
def lineEnd? (cs : List Char) : Option (List Char) := do
  let cs ← skipComment? (skipBlanks cs)
  if cs.isEmpty then some [] else newline? cs

/-- A character of a key without quotes. -/
def isKeyChar (c : Char) : Bool := c.isAlphanum || c == '_' || c == '-'

/-- One part of a key. -/
def keyPart? (cs : List Char) : Read String :=
  match cs with
  | '"' :: rest => basic? (rest.length + 1) [] rest
  | '\x27' :: rest => literal? rest
  | _ =>
    let name := cs.takeWhile isKeyChar
    if name.isEmpty then none else some (String.ofList name, cs.dropWhile isKeyChar)

/-- A key: parts with dots between them, blanks around each. -/
def key? : Nat → List Char → Option (List String × List Char)
  | 0, _ => none
  | fuel + 1, cs => do
    let (part, rest) ← keyPart? (skipBlanks cs)
    match skipBlanks rest with
    | '.' :: rest =>
      let (parts, rest) ← key? fuel rest
      some (part :: parts, rest)
    | rest => some ([part], rest)

/-- A character that may stand in a value written as one word. -/
def isWordChar (c : Char) : Bool := c.isAlphanum || "+-_.:".toList.contains c

/-- A value written as one word; a date may be followed by a blank and a time. -/
def wordValue? (cs : List Char) : Read Json :=
  let word := cs.takeWhile isWordChar
  let rest := cs.dropWhile isWordChar
  match rest with
  | ' ' :: after =>
    let longer := word ++ ' ' :: after.takeWhile isWordChar
    if (date? word) == some [] && isMoment longer then
      some (moment longer, after.dropWhile isWordChar)
    else (word? word).map (·, rest)
  | _ => (word? word).map (·, rest)

mutual

/-- A value, nested at most `depth` deep. -/
def value? : Nat → List Char → Read Json
  | 0, _ => none
  | fuel + 1, cs =>
    match cs with
    | '"' :: _ => (string? cs).map fun (s, rest) => (.str s, rest)
    | '\x27' :: _ => (string? cs).map fun (s, rest) => (.str s, rest)
    | '[' :: rest => (items? fuel [] rest).map fun (xs, rest) => (.arr xs, rest)
    | '\x7b' :: rest =>
      match skipBlanks rest with
      | '\x7d' :: rest => some (.obj [], rest)
      | _ => (inline? fuel [] rest).map fun (fields, rest) => (.obj (fieldsToJson fields), rest)
    | _ => wordValue? cs

/-- The rest of an array. -/
def items? : Nat → List Json → List Char → Option (List Json × List Char)
  | 0, _, _ => none
  | fuel + 1, seen, cs => do
    match ← skipLines? cs.length cs with
    | ']' :: rest => some (seen.reverse, rest)
    | cs =>
      let (j, rest) ← value? fuel cs
      match ← skipLines? rest.length rest with
      | ',' :: rest => items? fuel (j :: seen) rest
      | ']' :: rest => some ((j :: seen).reverse, rest)
      | _ => none

/-- The rest of a table on one line. -/
def inline? : Nat → Fields → List Char → Option (Fields × List Char)
  | 0, _, _ => none
  | fuel + 1, fields, cs => do
    let (key, rest) ← key? cs.length cs
    let rest ← skip? '=' rest
    let (j, rest) ← value? fuel (skipBlanks rest)
    let fields ← insert? j key fields
    match skipBlanks rest with
    | ',' :: rest => inline? fuel fields rest
    | '\x7d' :: rest => some (fields, rest)
    | _ => none

end

/-- The document so far and the header that is open. -/
structure Reading where
  root : Fields := []
  header : List String := []

/-- Take the line that stands at the start of a text. -/
def line? (r : Reading) (cs : List Char) : Option (Reading × List Char) :=
  match cs with
  | '[' :: '[' :: rest => do
    let (path, rest) ← key? rest.length rest
    let rest ← skip? ']' rest
    let rest ← lineEnd? (← skip? ']' rest)
    let last ← path.getLast?
    let root ← within? (openItem? last) path.dropLast r.root
    return (⟨root, path⟩, rest)
  | '[' :: rest => do
    let (path, rest) ← key? rest.length rest
    let rest ← lineEnd? (← skip? ']' rest)
    let last ← path.getLast?
    let root ← within? (openTable? last) path.dropLast r.root
    return (⟨root, path⟩, rest)
  | _ => do
    let (key, rest) ← key? cs.length cs
    let rest ← skip? '=' rest
    let (j, rest) ← value? (rest.length + 1) (skipBlanks rest)
    let root ← within? (insert? j key) r.header r.root
    return ({ r with root := root }, ← lineEnd? rest)

/-- Take all lines; `fuel` bounds how many. -/
def lines? : Nat → Reading → List Char → Option Reading
  | 0, r, cs => if cs.isEmpty then some r else none
  | fuel + 1, r, cs => do
    match ← skipLines? cs.length cs with
    | [] => some r
    | cs =>
      let (r, rest) ← line? r cs
      lines? fuel r rest

/-- The settings that a text holds, as a document. -/
def read? (text : String) : Option Json :=
  let cs := text.toList
  let cs := if cs.head? == some '\ufeff' then cs.tail else cs
  (lines? (cs.length + 1) {} cs).map fun r => (.obj (fieldsToJson r.root) : Json)

end CodeAtlas.Toml
