import CodeAtlas.Graph.Codec

/-!
What is kept of a graph: its nodes by identifier and its edges in the order they were added.
-/
namespace CodeAtlas.Graph

/-- The nodes and edges of a graph. -/
structure Snapshot where
  nodes : List Node := []
  edges : List Edge := []

/-- What is kept of a graph. -/
def snapshot (g : Graph) : Snapshot := ⟨g.sortedNodes, g.edges.toList⟩

/-- Encode a snapshot. -/
def Snapshot.encode (s : Snapshot) : Json :=
  .obj [("entities", Json.list Node.encode s.nodes), ("relationships", Json.list Edge.encode s.edges)]

/-- Decode a snapshot. -/
def Snapshot.decode? (j : Json) : Option Snapshot := do
  let r ← j.record? ["entities", "relationships"]
  return {
    nodes := ← r.need "entities" (Json.list? Node.decode?)
    edges := ← r.need "relationships" (Json.list? Edge.decode?) }

end CodeAtlas.Graph
