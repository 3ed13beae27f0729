import CodeAtlas.Graph.Build

/-!
Small graphs to try things on: functions, links between them, and a chain of functions each calling the next.
-/
namespace CodeAtlas.Rehearsal

/-- A node that the scanner might have found. -/
def nodeOf (file name : String) (kind : EntityKind) (startLine endLine : Nat) : Graph.Node where
  id := entityId file name
  name := name
  kind := kind
  file := file
  startLine := startLine
  endLine := endLine
  confidence := ⟨0.9, .deterministic, ""⟩

/-- An edge named for its kind and its ends. -/
def edgeOf (kind : Graph.EdgeKind) (source target : String) : Graph.Edge where
  id := kind.text ++ ":" ++ source ++ ":" ++ target
  source := source
  target := target
  kind := kind

/-- The name of a function in a chain. -/
def linkName (i : Nat) : String := "f" ++ Decimal.natText i

/-- The file that a chain is in. -/
def chainFile : String := "chain.py"

/-- A graph with a chain of `n` functions. -/
def addChain (g : Graph) (n : Nat) : Except Graph.Refusal Graph := do
  let g ← (List.range n).foldlM (fun g i => g.addNode (nodeOf chainFile (linkName i) .function 1 2)) g
  (List.range (n - 1)).foldlM (fun g i =>
    g.link (edgeOf .calls (entityId chainFile (linkName i)) (entityId chainFile (linkName (i + 1))))) g

end CodeAtlas.Rehearsal
