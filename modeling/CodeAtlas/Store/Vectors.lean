import CodeAtlas.Activity.Basic
import CodeAtlas.Precision
import CodeAtlas.Json.Record
import CodeAtlas.Failure
import Std.Data.TreeMap

/-!
Stored vectors and the search for the nearest ones. The distance of two vectors is one minus the cosine of
their angle, in single precision; sums run from left to right. A vector without length, or of another
dimension, has distance one to any other.
-/
namespace CodeAtlas.Store

/-- A piece of code with its vector. -/
structure Vectors.Record where
  file : String
  symbol : Option String := none
  content : String
  startLine : Nat
  endLine : Nat
  vector : List Float32

/-- A piece of code that a search found, with its distance. -/
structure Vectors.Hit where
  file : String
  symbol : Option String := none
  content : String
  startLine : Nat
  endLine : Nat
  distance : Float32

/-- The vectors of all projects. -/
structure Vectors where
  projects : Std.TreeMap String (List Vectors.Record) := {}

namespace Vectors

/-- The sum of the products of two lists of numbers. -/
def dot (a b : List Float32) : Float32 := (a.zip b).foldl (fun sum (x, y) => sum + x * y) 0.0

/-- The length of a vector. -/
def norm (a : List Float32) : Float32 := (dot a a).sqrt

/-- Vectors that are shorter count as zero. -/
def minNorm : Float32 := 1e-8

/-- The cosine of the angle between two vectors, zero where there is none. -/
def cosine (a b : List Float32) : Float32 :=
  if a.length ≠ b.length then 0.0
  else if norm a < minNorm || norm b < minNorm then 0.0
  else dot a b / (norm a * norm b)

/-- The distance of two vectors. -/
def distance (a b : List Float32) : Float32 := 1.0 - cosine a b

/-- A record as a search finds it. -/
def Record.hit (r : Record) (distance : Float32) : Hit where
  file := r.file
  symbol := r.symbol
  content := r.content
  startLine := r.startLine
  endLine := r.endLine
  distance := distance

/-- The records of a project. -/
def records (v : Vectors) (project : String) : List Record := v.projects.getD project []

/-- The failure of vectors that have not all the dimension of the first one. -/
def mismatch? : List Record → Option Failure
  | [] => none
  | first :: rest =>
    (rest.find? (·.vector.length ≠ first.vector.length)).map fun r =>
      .dimension first.vector.length r.vector.length

/-- Store records in place of those of a project. -/
def replace (v : Vectors) (project : String) (records : List Record) : Except Failure Vectors :=
  match mismatch? records with
  | some f => .error f
  | none => .ok { v with projects := v.projects.insert project records }

/-- The `count` nearest records of a project that are no farther than `maxDistance`, nearest first. -/
def nearest (v : Vectors) (project : String) (vector : List Float32) (count : Nat)
    (maxDistance : Float32) : Except Failure (List Hit) :=
  let records := v.records project
  match records.head?.map (·.vector.length) with
  | some dimension =>
    if dimension = vector.length then
      let hits := records.map fun r => r.hit (distance r.vector vector)
      let near := hits.filter fun h => h.distance ≤ maxDistance
      .ok ((near.mergeSort fun a b => Decimal.atMost32 a.distance b.distance).take count)
    else .error (.dimension dimension vector.length)
  | none => .ok []

/-- Whoever keeps vectors. -/
structure Service (σ : Type) where
  replace : String → List Record → Activity σ (Except Failure Unit)
  nearest : String → List Float32 → Nat → Float32 → Activity σ (Except Failure (List Hit))

/-- Vectors kept in a part of the state. -/
def service {σ : Type} (part : Activity.Part σ Vectors) : Service σ where
  replace project records := Activity.tryPart part fun _ v => (v.replace project records).map ((), ·)
  nearest project vector count maxDistance := Activity.tryPart part fun _ v =>
    (v.nearest project vector count maxDistance).map (·, v)

/-- Decode a record. -/
def Record.decode? (j : Json) : Option Record := do
  let r ← j.record? ["file_path", "symbol_name", "content", "start_line", "end_line", "embedding"]
  return {
    file := ← r.need "file_path" Json.text?
    symbol := ← r.maybeOrElse "symbol_name" Json.text?
    content := ← r.need "content" Json.text?
    startLine := ← r.need "start_line" (Json.nat? 32)
    endLine := ← r.need "end_line" (Json.nat? 32)
    vector := ← r.need "embedding" (Json.list? Json.float32?) }

/-- Encode a hit. -/
def Hit.encode (h : Hit) : Json :=
  .obj [("file_path", .str h.file), ("symbol_name", Json.optional .str h.symbol),
    ("content", .str h.content), ("start_line", .nat h.startLine), ("end_line", .nat h.endLine),
    ("distance", .float32 h.distance)]

/-- Decode a hit. -/
def Hit.decode? (j : Json) : Option Hit := do
  let r ← j.record? ["file_path", "symbol_name", "content", "start_line", "end_line", "distance"]
  return {
    file := ← r.need "file_path" Json.text?
    symbol := ← r.maybeOrElse "symbol_name" Json.text?
    content := ← r.need "content" Json.text?
    startLine := ← r.need "start_line" (Json.nat? 32)
    endLine := ← r.need "end_line" (Json.nat? 32)
    distance := ← r.need "distance" Json.float32? }

end Vectors
end CodeAtlas.Store
