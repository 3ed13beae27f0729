import CodeAtlas.Precision
import CodeAtlas.Width

/-!
Documents: the values of JSON, with whole numbers kept apart from floating-point ones and object fields
in the order they were written. `canonical` is the same document with fields sorted by key, the last of
several equal keys winning.
-/
namespace CodeAtlas

/-- A JSON document. -/
inductive Json where
  | null
  | bool (value : Bool)
  | int (value : Int)
  | float (value : Float)
  | str (value : String)
  | arr (items : List Json)
  | obj (fields : List (String × Json))
deriving Inhabited

namespace Json

/-- Put a field into a list sorted by key; an equal key is replaced. -/
def insertField (key : String) (value : Json) : List (String × Json) → List (String × Json)
  | [] => [(key, value)]
  | (k, v) :: rest =>
    if key < k then (key, value) :: (k, v) :: rest
    else if key = k then (key, value) :: rest
    else (k, v) :: insertField key value rest

/-- Sort fields by key; of equal keys the last one stays. -/
def sortFields (fields : List (String × Json)) : List (String × Json) :=
  fields.foldl (fun sorted (k, v) => insertField k v sorted) []

mutual

/-- The document with the fields of every object sorted by key. -/
def canonical : Json → Json
  | .arr items => .arr (canonicalItems items)
  | .obj fields => .obj (sortFields (canonicalFields fields))
  | j => j

/-- `canonical` on each item. -/
def canonicalItems : List Json → List Json
  | [] => []
  | j :: rest => canonical j :: canonicalItems rest

/-- `canonical` on each field's value. -/
def canonicalFields : List (String × Json) → List (String × Json)
  | [] => []
  | (k, v) :: rest => (k, canonical v) :: canonicalFields rest

end

/-- The value of an object's field. -/
def get? (key : String) : Json → Option Json
  | .obj fields => fields.lookup key
  | _ => none

/-- The items of an array. -/
def items? : Json → Option (List Json)
  | .arr items => some items
  | _ => none

/-- The text of a string. -/
def text? : Json → Option String
  | .str s => some s
  | _ => none

/-- A truth value. -/
def bool? : Json → Option Bool
  | .bool b => some b
  | _ => none

/-- A whole number that is not negative and fits in `bits` bits. -/
def nat? (bits : Nat) : Json → Option Nat
  | .int n => if 0 ≤ n ∧ n < Width.size bits then some n.toNat else none
  | _ => none

/-- A whole number between the least and the greatest that 64 bits with a sign can hold. -/
def int? : Json → Option Int
  | .int n => if -(Width.size 63 : Int) ≤ n ∧ n < Width.size 63 then some n else none
  | _ => none

/-- A number as a double; whole numbers are rounded to the nearest. -/
def float? : Json → Option Float
  | .int n => some (if n < 0 then -n.natAbs.toUInt64.toFloat else n.toNat.toUInt64.toFloat)
  | .float x => some x
  | _ => none

/-- A number as a single-precision float. -/
def float32? : Json → Option Float32
  | .int n => some (if n < 0 then -n.natAbs.toUInt64.toFloat32 else n.toNat.toUInt64.toFloat32)
  | .float x => some (Precision.narrow x)
  | _ => none

/-- Every item of an array, decoded. -/
def list? (decode : Json → Option α) (j : Json) : Option (List α) :=
  j.items?.bind fun items => items.mapM decode

/-- A value that may be null. -/
def nullable? (decode : Json → Option α) : Json → Option (Option α)
  | .null => some none
  | j => (decode j).map some

/-- Whether the document is null. -/
def isNull : Json → Bool
  | .null => true
  | _ => false

/-- A natural number as a document. -/
def nat (n : Nat) : Json := .int n

/-- A list of texts as a document. -/
def strings (xs : List String) : Json := .arr (xs.map .str)

/-- A list of values as a document. -/
def list (encode : α → Json) (xs : List α) : Json := .arr (xs.map encode)

/-- A value that may be absent, null when it is. -/
def optional (encode : α → Json) : Option α → Json
  | none => .null
  | some a => encode a

/-- A single-precision float, widened. -/
def float32 (x : Float32) : Json := .float (Precision.widen x)

/-- A field that is left out when there is no value. -/
def fieldIfSome (key : String) (encode : α → Json) : Option α → List (String × Json)
  | none => []
  | some a => [(key, encode a)]

end Json
end CodeAtlas
