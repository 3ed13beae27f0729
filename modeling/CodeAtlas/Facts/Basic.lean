import CodeAtlas.Confidence

/-!
What the scanner reads off source text: definitions, calls, imports, schemas and endpoints.
Facts from several chunks are appended list by list.
-/
namespace CodeAtlas

/-- What kind of thing an entity is. -/
inductive EntityKind where
  | function
  | method
  | type
  | interface
  | module
  | binding
  | constant
  | table
  | endpoint
  | businessRule
deriving DecidableEq, Repr

namespace EntityKind

/-- The word for a kind. -/
def text : EntityKind → String
  | function => "function"
  | method => "method"
  | type => "class"
  | interface => "interface"
  | module => "module"
  | binding => "variable"
  | constant => "constant"
  | table => "table"
  | endpoint => "endpoint"
  | businessRule => "business_rule"

/-- All kinds. -/
def all : List EntityKind :=
  [function, method, type, interface, module, binding, constant, table, endpoint, businessRule]

/-- Functions and methods can be called. -/
def isCallable (k : EntityKind) : Bool := k == function || k == method

/-- Kinds that stand for a piece of code, and so can call and be called. -/
def isCode (k : EntityKind) : Bool := !(k == businessRule || k == table || k == endpoint)

end EntityKind

namespace Facts

/-- A named piece of code with its lines, both counted from one and included. -/
structure Definition where
  name : String
  kind : EntityKind
  file : String
  startLine : Nat
  endLine : Nat
  language : String := ""
  signature : Option String := none
  docstring : Option String := none

/-- A place where something is called. -/
structure Call where
  file : String
  line : Nat
  callee : String
  receiver : Option String := none
  level : Level := .medium

/-- A module that a file imports, as written. -/
structure Import where
  file : String
  target : String
  line : Nat := 0

/-- A column of a schema. -/
structure Attribute where
  name : String
  dataType : String := ""

/-- A reference from one schema to another. -/
structure Relation where
  target : String
  kind : String

/-- A table or a record model. -/
structure Schema where
  name : String
  file : String
  startLine : Nat
  source : String
  attributes : List Attribute := []
  relations : List Relation := []

/-- An HTTP route and the place that handles it. -/
structure Endpoint where
  method : String
  path : String
  file : String
  line : Nat
  handler : Option String := none

end Facts

/-- Everything the scanner found. -/
structure Facts where
  definitions : List Facts.Definition := []
  calls : List Facts.Call := []
  imports : List Facts.Import := []
  schemas : List Facts.Schema := []
  endpoints : List Facts.Endpoint := []

namespace Facts

/-- No facts. -/
def empty : Facts := {}

/-- The facts of one text followed by those of another. -/
def append (a b : Facts) : Facts where
  definitions := a.definitions ++ b.definitions
  calls := a.calls ++ b.calls
  imports := a.imports ++ b.imports
  schemas := a.schemas ++ b.schemas
  endpoints := a.endpoints ++ b.endpoints

instance : Append Facts := ⟨append⟩

/-- The facts of several texts. -/
def concat (parts : List Facts) : Facts := parts.foldl append empty

/-- Whether nothing was found. -/
def isEmpty (f : Facts) : Bool :=
  f.definitions.isEmpty && f.calls.isEmpty && f.imports.isEmpty && f.schemas.isEmpty &&
    f.endpoints.isEmpty

end Facts
end CodeAtlas
