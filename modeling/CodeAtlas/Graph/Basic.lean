import CodeAtlas.Decimal.Notation
import CodeAtlas.Failure
import CodeAtlas.Report
import Std.Data.TreeMap
import Std.Data.TreeSet

/-!
The knowledge graph: nodes by identifier, edges in the order they were added, and four indices that grow
with every insertion. A node that replaces another one of the same identifier stays where the first one
was indexed. The target of an edge need not be a node.
-/
namespace CodeAtlas

namespace Graph

/-- A node of the graph. -/
structure Node where
  id : String
  name : String
  kind : EntityKind
  file : String
  startLine : Nat
  endLine : Nat
  language : String := ""
  signature : Option String := none
  description : Option String := none
  confidence : Confidence

/-- What an edge says about its two ends. -/
inductive EdgeKind where
  | calls
  | imports
  | inherits
  | uses
  | references
deriving DecidableEq, Repr

namespace EdgeKind

/-- The word for a kind of edge. -/
def text : EdgeKind → String
  | calls => "calls"
  | imports => "imports"
  | inherits => "inherits"
  | uses => "uses"
  | references => "references"

/-- All kinds of edges. -/
def all : List EdgeKind := [calls, imports, inherits, uses, references]

end EdgeKind

/-- A directed edge with a weight. -/
structure Edge where
  id : String
  source : String
  target : String
  kind : EdgeKind
  weight : Float := 1.0
  context : Option String := none

/-- Why a node or an edge is refused. -/
inductive Refusal where
  | unnamedNode (id : String)
  | confidenceOutOfRange (id : String) (value : Float)
  | unnamedEdge (id : String)
  | weightOutOfRange (id : String) (value : Float)

/-- The text of a refusal. -/
def Refusal.message : Refusal → String
  | unnamedNode id => "Invalid entity " ++ id ++ ": id and name must be non-empty"
  | confidenceOutOfRange id value =>
    "Invalid entity " ++ id ++ ": confidence " ++ Decimal.plain value ++ " outside [0, 1]"
  | unnamedEdge id => "Invalid relationship " ++ id ++ ": id, source and target must be non-empty"
  | weightOutOfRange id value =>
    "Invalid relationship " ++ id ++ ": weight " ++ Decimal.plain value ++
      " is not a non-negative number"

/-- A refusal as it is reported. -/
def Refusal.fault (r : Refusal) : Fault :=
  match r with
  | unnamedNode _ => ⟨"InvalidEntity", r.message⟩
  | confidenceOutOfRange .. => ⟨"InvalidEntity", r.message⟩
  | unnamedEdge _ => ⟨"InvalidRelationship", r.message⟩
  | weightOutOfRange .. => ⟨"InvalidRelationship", r.message⟩

/-- Positions or identifiers filed under a key, in the order they were filed. -/
abbrev Index (α : Type) := Std.TreeMap String (Array α)

/-- What is filed under a key. -/
def Index.at (index : Index α) (key : String) : List α := (index.getD key #[]).toList

/-- File one more entry under a key. -/
def Index.file (index : Index α) (key : String) (entry : α) : Index α :=
  index.alter key fun entries => some ((entries.getD #[]).push entry)

end Graph

/-- Nodes, edges and the indices over them. -/
structure Graph where
  nodes : Std.TreeMap String Graph.Node := {}
  edges : Array Graph.Edge := #[]
  edgeIds : Std.TreeSet String := {}
  outgoingIndex : Graph.Index Nat := {}
  incomingIndex : Graph.Index Nat := {}
  fileIndex : Graph.Index String := {}
  nameIndex : Graph.Index String := {}

namespace Graph

/-- The graph without nodes and edges. -/
def empty : Graph := {}

/-- Why a node would be refused. -/
def Node.refusal? (n : Node) : Option Refusal :=
  if n.id.isEmpty || n.name.isEmpty then some (.unnamedNode n.id)
  else if n.confidence.isValid then none
  else some (.confidenceOutOfRange n.id n.confidence.value)

/-- Why an edge would be refused. -/
def Edge.refusal? (e : Edge) : Option Refusal :=
  if e.id.isEmpty || e.source.isEmpty || e.target.isEmpty then some (.unnamedEdge e.id)
  else if e.weight.isFinite && 0.0 ≤ e.weight then none
  else some (.weightOutOfRange e.id e.weight)

/-- Put a node into the graph, in place of the one with its identifier if there is one. -/
def insertNode (g : Graph) (n : Node) : Graph :=
  if g.nodes.contains n.id then { g with nodes := g.nodes.insert n.id n }
  else
    { g with
      nodes := g.nodes.insert n.id n
      fileIndex := g.fileIndex.file n.file n.id
      nameIndex := g.nameIndex.file n.name n.id }

/-- Put a node into the graph unless it is refused. -/
def addNode (g : Graph) (n : Node) : Except Refusal Graph :=
  match n.refusal? with
  | some refusal => .error refusal
  | none => .ok (g.insertNode n)

/-- Append an edge whose identifier is new. -/
def insertEdge (g : Graph) (e : Edge) : Graph :=
  { g with
    edges := g.edges.push e
    edgeIds := g.edgeIds.insert e.id
    outgoingIndex := g.outgoingIndex.file e.source g.edges.size
    incomingIndex := g.incomingIndex.file e.target g.edges.size }

/-- Append an edge unless it is refused; also says whether its identifier was new. -/
def addEdge (g : Graph) (e : Edge) : Except Refusal (Graph × Bool) :=
  match e.refusal? with
  | some refusal => .error refusal
  | none => if g.edgeIds.contains e.id then .ok (g, false) else .ok (g.insertEdge e, true)

/-- The node with an identifier. -/
def node? (g : Graph) (id : String) : Option Node := g.nodes[id]?

/-- Whether there is a node with an identifier. -/
def contains (g : Graph) (id : String) : Bool := g.nodes.contains id

/-- All nodes by identifier. -/
def sortedNodes (g : Graph) : List Node := g.nodes.values

/-- The number of nodes. -/
def nodeCount (g : Graph) : Nat := g.nodes.size

/-- The nodes filed under a key. -/
def nodesAt (g : Graph) (index : Index String) (key : String) : List Node :=
  (index.at key).filterMap g.node?

/-- The nodes of a file, in the order they were added. -/
def nodesInFile (g : Graph) (file : String) : List Node := g.nodesAt g.fileIndex file

/-- The nodes of a name, in the order they were added. -/
def nodesNamed (g : Graph) (name : String) : List Node := g.nodesAt g.nameIndex name

/-- The nodes of a kind, by name and then by identifier. -/
def nodesOfKind (g : Graph) (kind : EntityKind) : List Node :=
  (g.sortedNodes.filter (·.kind == kind)).mergeSort fun a b => !decide (b.name < a.name)

/-- The files that nodes were filed under. -/
def files (g : Graph) : List String := g.fileIndex.keys

/-- The edges at the positions filed under a key. -/
def edgesAt (g : Graph) (index : Index Nat) (key : String) : List Edge :=
  (index.at key).filterMap (g.edges[·]?)

/-- The edges that start at an identifier. -/
def outgoing (g : Graph) (id : String) : List Edge := g.edgesAt g.outgoingIndex id

/-- The edges that end at an identifier. -/
def incoming (g : Graph) (id : String) : List Edge := g.edgesAt g.incomingIndex id

theorem contains_insert_iff {seen : Std.TreeSet String} {id x : String} :
    (seen.insert id).contains x = true ↔ x = id ∨ seen.contains x = true := by
  rw [Std.TreeSet.contains_insert, Bool.or_eq_true, beq_iff_eq, Std.LawfulEqCmp.compare_eq_iff_eq, eq_comm]

theorem contains_insert_eq_false_iff {seen : Std.TreeSet String} {id x : String} :
    (seen.insert id).contains x = false ↔ x ≠ id ∧ seen.contains x = false := by
  rw [Std.TreeSet.contains_insert, Bool.or_eq_false_iff, beq_eq_false_iff_ne, ne_eq,
    Std.LawfulEqCmp.compare_eq_iff_eq, eq_comm]

/-- The edges whose identifiers were not seen, each identifier once. -/
def unseen (seen : Std.TreeSet String) : List Edge → List Edge
  | [] => []
  | e :: rest => if seen.contains e.id then unseen seen rest else e :: unseen (seen.insert e.id) rest

/-- The edges that touch an identifier; one that starts and ends there is listed once. -/
def edgesOf (g : Graph) (id : String) : List Edge := unseen {} (g.outgoing id ++ g.incoming id)

/-- Sizes of the graph. -/
structure Stats where
  nodes : Nat
  edges : Nat
  files : Nat
  danglingTargets : Nat

/-- The sizes of a graph; a target that is no node counts once. -/
def stats (g : Graph) : Stats where
  nodes := g.nodes.size
  edges := g.edges.size
  files := g.fileIndex.size
  danglingTargets := (g.incomingIndex.keys.filter fun id => !g.contains id).length

end Graph
end CodeAtlas
