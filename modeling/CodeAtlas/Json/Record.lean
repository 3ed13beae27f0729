import CodeAtlas.Json.Basic

/-!
Decoding a document into a structure. A structure is an object with the fields named, where keys that are
not known are passed over, or an array of the fields' values in order, of which only trailing fields with
a default may be missing. A known key that occurs twice is refused.
-/
namespace CodeAtlas.Json

/-- The fields of a structure as a document gives them. -/
structure Record where
  keys : List String
  values : List (String × Json)
  positional : Bool

/-- See a document as a structure with the given keys. -/
def record? (keys : List String) : Json → Option Record
  | .obj fields =>
    let known := fields.filter fun field => keys.contains field.1
    if (known.map Prod.fst).Nodup then some ⟨keys, known, false⟩ else none
  | .arr items => if items.length ≤ keys.length then some ⟨keys, keys.zip items, true⟩ else none
  | _ => none

/-- See a document as a structure that must be an object. -/
def keyedRecord? (keys : List String) : Json → Option Record
  | .obj fields => record? keys (.obj fields)
  | _ => none

/-- The value given for a field. -/
def Record.raw? (r : Record) (key : String) : Option Json := r.values.lookup key

/-- A field that must be given. -/
def Record.need (r : Record) (key : String) (decode : Json → Option α) : Option α :=
  (r.raw? key).bind decode

/-- A field that takes a default when it is not given. -/
def Record.orElse (r : Record) (key : String) (decode : Json → Option α) (default : α) : Option α :=
  match r.raw? key with
  | none => some default
  | some j => decode j

/-- A field that may be null or, in an object, not given. -/
def Record.maybe (r : Record) (key : String) (decode : Json → Option α) : Option (Option α) :=
  match r.raw? key with
  | none => if r.positional then none else some none
  | some j => nullable? decode j

/-- A field that may be null or not given, also at the end of an array. -/
def Record.maybeOrElse (r : Record) (key : String) (decode : Json → Option α) : Option (Option α) :=
  match r.raw? key with
  | none => some none
  | some j => nullable? decode j

/-- One of several values by its word; an object with the word as only key and null stands for it too. -/
def oneOf? (values : List α) (text : α → String) : Json → Option α
  | .str s => values.find? (text · == s)
  | .obj [(s, .null)] => values.find? (text · == s)
  | _ => none

end CodeAtlas.Json

/-!
Single fields of an object. A field that is null counts as not given.
-/
namespace CodeAtlas.Json

/-- The value of a field that is given. -/
def given? (j : Json) (key : String) : Option Json :=
  match j.get? key with
  | some .null => none
  | value => value

/-- A field that must be given. -/
def required? (j : Json) (key : String) (decode : Json → Option α) : Option α :=
  (j.given? key).bind decode

/-- A field with a default. -/
def orDefault? (j : Json) (key : String) (decode : Json → Option α) (default : α) : Option α :=
  match j.given? key with
  | none => some default
  | some value => decode value

/-- A field that may be left out. -/
def ifGiven? (j : Json) (key : String) (decode : Json → Option α) : Option (Option α) :=
  match j.given? key with
  | none => some none
  | some value => (decode value).map some

/-!
Changes to documents: fields left out or changed, items changed. What is not of the shape asked for stays as
it is.
-/

/-- An object without some fields. -/
def without (keys : List String) : Json → Json
  | .obj fields => .obj (fields.filter fun f => !keys.contains f.1)
  | j => j

mutual

/-- A document without some fields, at any depth. -/
def withoutAny (keys : List String) : Json → Json
  | .arr items => .arr (withoutAnyItems keys items)
  | .obj fields => .obj (withoutAnyFields keys fields)
  | j => j

/-- `withoutAny` on each item. -/
def withoutAnyItems (keys : List String) : List Json → List Json
  | [] => []
  | j :: rest => withoutAny keys j :: withoutAnyItems keys rest

/-- `withoutAny` on each field that stays. -/
def withoutAnyFields (keys : List String) : List (String × Json) → List (String × Json)
  | [] => []
  | (k, j) :: rest =>
    if keys.contains k then withoutAnyFields keys rest
    else (k, withoutAny keys j) :: withoutAnyFields keys rest

end

/-- An object with one field changed. -/
def mapField (key : String) (f : Json → Json) : Json → Json
  | .obj fields => .obj (fields.map fun (k, v) => (k, if k == key then f v else v))
  | j => j

/-- An object with more fields. -/
def extend (more : List (String × Json)) : Json → Json
  | .obj fields => .obj (fields ++ more)
  | j => j

/-- An array with every item changed. -/
def mapItems (f : Json → Json) : Json → Json
  | .arr items => .arr (items.map f)
  | j => j

end CodeAtlas.Json
