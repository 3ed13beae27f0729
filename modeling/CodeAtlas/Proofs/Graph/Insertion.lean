import CodeAtlas.Graph.Basic
import Mathlib.Data.Finset.Card
import Mathlib.Data.List.Nodup

/-! Graphs that arise from insertions. Whatever was inserted, refused or repeated, the indices of a graph
tell nothing but what its edges tell (`Consistent`), so every answer can be read off the list of edges. -/
namespace CodeAtlas
namespace Graph

/-- One attempt to add to a graph. -/
inductive Insertion where
  | node (n : Node)
  | edge (e : Edge)

/-- What an attempt is answered, and the graph it leaves behind. A node that is accepted counts as added. -/
def Insertion.perform (g : Graph) : Insertion → Except Refusal Bool × Graph
  | node n =>
    match g.addNode n with
    | .ok g' => (.ok true, g')
    | .error r => (.error r, g)
  | edge e =>
    match g.addEdge e with
    | .ok (g', isNew) => (.ok isNew, g')
    | .error r => (.error r, g)

/-- The graph that some attempts leave behind, the first one made on the empty graph. -/
def built (attempts : List Insertion) : Graph := attempts.foldl (fun g i => (i.perform g).2) empty

/-- An index holds the positions of edges, filed by one of their ends. -/
structure Index.Files (index : Index Nat) (edges : Array Edge) (key : Edge → String) : Prop where
  inRange : ∀ id, ∀ i ∈ index.at id, i < edges.size
  edges_at : ∀ id, (index.at id).filterMap (edges[·]?) = edges.toList.filter (key · == id)
  mem_keys : ∀ id, id ∈ index ↔ id ∈ edges.toList.map key

/-- What holds of every graph that arises from insertions. -/
structure Consistent (g : Graph) : Prop where
  id_of_node : ∀ {id n}, g.node? id = some n → n.id = id
  node_accepted : ∀ {id n}, g.node? id = some n → n.refusal? = none
  edge_accepted : ∀ e ∈ g.edges.toList, e.refusal? = none
  edgeIds_iff : ∀ id, g.edgeIds.contains id = true ↔ id ∈ g.edges.toList.map Edge.id
  edgeIds_nodup : (g.edges.toList.map Edge.id).Nodup
  outgoing_files : g.outgoingIndex.Files g.edges Edge.source
  incoming_files : g.incomingIndex.Files g.edges Edge.target

namespace Index

theorem at_file (index : Index α) (key id : String) (entry : α) :
    (index.file key entry).at id = index.at id ++ if key = id then [entry] else [] := by
  unfold Index.at file
  rw [Std.TreeMap.getD_alter]
  by_cases h : key = id
  · subst h
    rw [Std.TreeMap.getD_eq_getD_getElem?]
    simp
  · simp [h]

theorem mem_file (index : Index α) (key id : String) (entry : α) :
    id ∈ index.file key entry ↔ id = key ∨ id ∈ index := by
  unfold file
  rw [Std.TreeMap.mem_alter]
  by_cases h : key = id
  · simp [h]
  · simp [h, Ne.symm h]

theorem Files.empty (key : Edge → String) : Files {} #[] key where
  inRange id i hi := by simp [Index.at] at hi
  edges_at id := by simp
  mem_keys id := by simp

/-- Filing the next position under an end of the next edge keeps an index in step with the edges. -/
theorem Files.push {index : Index Nat} {edges : Array Edge} {key : Edge → String}
    (h : index.Files edges key) (e : Edge) : (index.file (key e) edges.size).Files (edges.push e) key where
  inRange id i hi := by
    rw [at_file, List.mem_append] at hi
    rw [Array.size_push]
    rcases hi with hi | hi
    · have := h.inRange id i hi
      omega
    · split at hi
      · simp only [List.mem_singleton] at hi
        omega
      · simp at hi
  edges_at id := by
    have hold : (index.at id).filterMap ((edges.push e)[·]?) = (index.at id).filterMap (edges[·]?) := by
      apply List.filterMap_congr
      intro i hi
      have hlt := h.inRange id i hi
      rw [Array.getElem?_push, if_neg (by omega)]
    rw [at_file, List.filterMap_append, hold, h.edges_at id, Array.toList_push, List.filter_append]
    congr 1
    by_cases hk : key e = id <;> simp [hk]
  mem_keys id := by
    rw [mem_file, h.mem_keys id, Array.toList_push, List.map_append, List.mem_append]
    simp [or_comm]

end Index

theorem Consistent.empty : Consistent Graph.empty where
  id_of_node h := by simp [Graph.empty, node?] at h
  node_accepted h := by simp [Graph.empty, node?] at h
  edge_accepted e he := by simp [Graph.empty] at he
  edgeIds_iff id := by simp [Graph.empty]
  edgeIds_nodup := by simp [Graph.empty]
  outgoing_files := .empty Edge.source
  incoming_files := .empty Edge.target

theorem node?_insertNode (g : Graph) (n : Node) (id : String) :
    (g.insertNode n).node? id = if n.id = id then some n else g.node? id := by
  unfold insertNode node?
  split <;> simp [Std.TreeMap.getElem?_insert]

/-- A node goes into the indices over nodes alone. -/
theorem insertNode_edges (g : Graph) (n : Node) :
    (g.insertNode n).edges = g.edges ∧ (g.insertNode n).edgeIds = g.edgeIds ∧
      (g.insertNode n).outgoingIndex = g.outgoingIndex ∧
      (g.insertNode n).incomingIndex = g.incomingIndex := by
  unfold insertNode
  split <;> exact ⟨rfl, rfl, rfl, rfl⟩

theorem Consistent.insertNode {g : Graph} (h : g.Consistent) {n : Node} (hn : n.refusal? = none) :
    (g.insertNode n).Consistent := by
  obtain ⟨he, hi, ho, hc⟩ := insertNode_edges g n
  constructor
  case id_of_node =>
    intro id m hm
    rw [node?_insertNode] at hm
    split at hm
    · cases hm
      assumption
    · exact h.id_of_node hm
  case node_accepted =>
    intro id m hm
    rw [node?_insertNode] at hm
    split at hm
    · cases hm
      exact hn
    · exact h.node_accepted hm
  case edge_accepted => rw [he]; exact h.edge_accepted
  case edgeIds_iff => rw [he, hi]; exact h.edgeIds_iff
  case edgeIds_nodup => rw [he]; exact h.edgeIds_nodup
  case outgoing_files => rw [he, ho]; exact h.outgoing_files
  case incoming_files => rw [he, hc]; exact h.incoming_files

theorem Consistent.insertEdge {g : Graph} (h : g.Consistent) {e : Edge} (he : e.refusal? = none)
    (hnew : g.edgeIds.contains e.id = false) : (g.insertEdge e).Consistent := by
  have hid : e.id ∉ g.edges.toList.map Edge.id := by
    rw [← h.edgeIds_iff, hnew]
    simp
  constructor
  case id_of_node => exact h.id_of_node
  case node_accepted => exact h.node_accepted
  case edge_accepted =>
    intro x hx
    simp only [Graph.insertEdge, Array.toList_push, List.mem_append, List.mem_singleton] at hx
    rcases hx with hx | rfl
    · exact h.edge_accepted x hx
    · exact he
  case edgeIds_iff =>
    intro id
    simp only [Graph.insertEdge, Std.TreeSet.contains_insert, Array.toList_push, List.map_append,
      List.mem_append, Bool.or_eq_true, h.edgeIds_iff id, List.map_cons, List.map_nil, List.mem_singleton,
      beq_iff_eq, Std.LawfulEqCmp.compare_eq_iff_eq]
    rw [or_comm, eq_comm]
  case edgeIds_nodup =>
    simp only [Graph.insertEdge, Array.toList_push, List.map_append, List.map_cons, List.map_nil]
    refine List.nodup_append.mpr ⟨h.edgeIds_nodup, List.nodup_singleton _, ?_⟩
    intro a ha b hb hab
    rw [List.mem_singleton] at hb
    exact hid (hb ▸ hab ▸ ha)
  case outgoing_files => exact h.outgoing_files.push e
  case incoming_files => exact h.incoming_files.push e

/-- What an attempt can do: it is turned down and changes nothing, or a node or a new edge is inserted. -/
theorem perform_cases (g : Graph) (i : Insertion) :
    ((i.perform g).1 ≠ .ok true ∧ (i.perform g).2 = g) ∨
      (∃ n, i = .node n ∧ n.refusal? = none ∧ i.perform g = (.ok true, g.insertNode n)) ∨
      (∃ e, i = .edge e ∧ e.refusal? = none ∧ g.edgeIds.contains e.id = false ∧
        i.perform g = (.ok true, g.insertEdge e)) := by
  cases i with
  | node n =>
    cases hr : n.refusal? with
    | some r => exact .inl (by simp [Insertion.perform, addNode, hr])
    | none => exact .inr (.inl ⟨n, rfl, hr, by simp [Insertion.perform, addNode, hr]⟩)
  | edge e =>
    cases hr : e.refusal? with
    | some r => exact .inl (by simp [Insertion.perform, addEdge, hr])
    | none =>
      cases hc : g.edgeIds.contains e.id with
      | true => exact .inl (by simp [Insertion.perform, addEdge, hr, hc])
      | false => exact .inr (.inr ⟨e, rfl, hr, hc, by simp [Insertion.perform, addEdge, hr, hc]⟩)

theorem Consistent.perform {g : Graph} (h : g.Consistent) (i : Insertion) : (i.perform g).2.Consistent := by
  obtain ⟨-, hg⟩ | ⟨n, -, hn, hp⟩ | ⟨e, -, he, hnew, hp⟩ := perform_cases g i
  · rw [hg]
    exact h
  · rw [hp]
    exact h.insertNode hn
  · rw [hp]
    exact h.insertEdge he hnew

/-- The indices of a graph stay in step with its nodes and edges over any run of insertions. -/
theorem consistent_built (attempts : List Insertion) : (built attempts).Consistent := by
  unfold built
  generalize hg : Graph.empty = g
  have h : g.Consistent := hg ▸ Consistent.empty
  clear hg
  induction attempts generalizing g with
  | nil => exact h
  | cons i rest ih => exact ih _ (h.perform i)

end Graph
end CodeAtlas
