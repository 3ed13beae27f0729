import CodeAtlas.Proofs.Graph.Passes

/-! How nodes are filed. A graph keeps the last node of each identifier, but files an identifier where its first node
was; so its tables can be read off the list of the nodes that were added. -/
namespace CodeAtlas
namespace Graph

/-- The nodes of which none before has the same identifier. -/
def firstNodes (nodes : List Node) : List Node :=
  nodes.foldl (fun kept n => if kept.any (·.id == n.id) then kept else kept ++ [n]) []

/-- Whether the tables of a graph hold some nodes as they are after adding them one after the other. -/
structure Filed (nodes : List Node) (g : Graph) : Prop where
  node? : ∀ id, g.node? id = latest? nodes id
  inFile : ∀ file, g.fileIndex.at file = ((firstNodes nodes).filter (·.file == file)).map Node.id
  named : ∀ name, g.nameIndex.at name = ((firstNodes nodes).filter (·.name == name)).map Node.id

section Lists

variable {nodes others : List Node} {n : Node} {id : String}

theorem firstNodes_append_singleton (nodes : List Node) (n : Node) : firstNodes (nodes ++ [n]) =
    if (firstNodes nodes).any (·.id == n.id) then firstNodes nodes else firstNodes nodes ++ [n] := List.foldl_append

theorem firstNodes_subset (nodes : List Node) : firstNodes nodes ⊆ nodes := by
  induction nodes using List.reverseRecOn with
  | nil => simp [firstNodes]
  | append_singleton nodes n ih =>
    have hwiden : firstNodes nodes ⊆ nodes ++ [n] := List.Subset.trans ih (List.subset_append_left nodes [n])
    rw [firstNodes_append_singleton]
    split
    · exact hwiden
    · exact List.append_subset.mpr ⟨hwiden, List.subset_append_right nodes [n]⟩

/-- No identifier is left out. -/
theorem any_firstNodes (nodes : List Node) (id : String) :
    (firstNodes nodes).any (·.id == id) = nodes.any (·.id == id) := by
  induction nodes using List.reverseRecOn with
  | nil => rfl
  | append_singleton nodes n ih =>
    rw [firstNodes_append_singleton, List.any_append]
    split
    · next hold =>
      by_cases hid : n.id = id
      · subst hid
        rw [hold, ← ih, hold, Bool.true_or]
      · simp [ih, hid]
    · rw [List.any_append, ih]

/-- What is kept of nodes behind others depends on the others' identifiers alone. -/
theorem firstNodes_append (nodes others : List Node) :
    firstNodes (nodes ++ others) = firstNodes nodes ++
      (firstNodes others).filter fun n => !nodes.any (·.id == n.id) := by
  induction others using List.reverseRecOn with
  | nil => simp [firstNodes]
  | append_singleton others n ih =>
    rw [← List.append_assoc, firstNodes_append_singleton, firstNodes_append_singleton, any_firstNodes, any_firstNodes,
      List.any_append, ih]
    cases hnodes : nodes.any (·.id == n.id) with
    | true =>
      rw [Bool.true_or, if_pos rfl]
      split
      · rfl
      · rw [List.filter_append, List.filter_cons_of_neg (by simp [hnodes]), List.filter_nil, List.append_nil]
    | false =>
      rw [Bool.false_or]
      split
      · rfl
      · rw [List.filter_append, List.filter_cons_of_pos (by simp [hnodes]), List.filter_nil, List.append_assoc]

/-- A test that does not tell nodes of one identifier apart finds the same one among the first nodes. -/
theorem find?_firstNodes {test : Node → Bool}
    (h : ∀ n ∈ nodes, ∀ m ∈ nodes, n.id = m.id → test n = test m) : (firstNodes nodes).find? test = nodes.find? test := by
  induction nodes using List.reverseRecOn with
  | nil => rfl
  | append_singleton nodes n ih =>
    have hold := ih fun a ha b hb => h a (List.mem_append_left _ ha) b (List.mem_append_left _ hb)
    rw [firstNodes_append_singleton, List.find?_append, ← hold]
    split
    · next hany =>
      obtain ⟨m, hm, hid⟩ := List.any_eq_true.mp hany
      have hsame := h n (by simp) m (List.mem_append_left _ (firstNodes_subset nodes hm)) (beq_iff_eq.mp hid).symm
      cases hfound : (firstNodes nodes).find? test with
      | some x => rfl
      | none =>
        have hno := List.find?_eq_none.mp hfound m hm
        rw [← hsame] at hno
        simp [hno]
    · rw [List.find?_append]

theorem exists_latest? (h : n ∈ nodes) : ∃ m ∈ nodes, m.id = n.id ∧ latest? nodes n.id = some m := by
  have hmem : n ∈ nodes.filter (·.id == n.id) := List.mem_filter.mpr ⟨h, beq_self_eq_true _⟩
  have hlast : latest? nodes n.id = some ((nodes.filter (·.id == n.id)).getLast (List.ne_nil_of_mem hmem)) :=
    List.getLast?_eq_some_getLast (List.ne_nil_of_mem hmem)
  obtain ⟨hm, hid⟩ := mem_of_latest? hlast
  exact ⟨_, hm, hid, hlast⟩

end Lists

namespace Filed

variable {nodes : List Node} {g : Graph} {n : Node}

theorem empty : Filed [] Graph.empty where
  node? id := by simp [Graph.empty, Graph.node?, latest?]
  inFile file := by simp [Graph.empty, Index.at, firstNodes]
  named name := by simp [Graph.empty, Index.at, firstNodes]

theorem contains_iff (h : Filed nodes g) (id : String) : g.nodes.contains id = (firstNodes nodes).any (·.id == id) := by
  have hnode := h.node? id
  rw [any_firstNodes, Bool.eq_iff_iff, ← Std.TreeMap.isSome_getElem?_eq_contains, List.any_eq_true]
  have hget : g.nodes[id]? = latest? nodes id := hnode
  rw [hget]
  constructor
  · intro hsome
    obtain ⟨m, hm⟩ := Option.isSome_iff_exists.mp hsome
    obtain ⟨hmem, hid⟩ := mem_of_latest? hm
    exact ⟨m, hmem, beq_iff_eq.mpr hid⟩
  · rintro ⟨m, hm, hid⟩
    obtain ⟨x, -, -, hx⟩ := exists_latest? hm
    rw [← beq_iff_eq.mp hid, hx]
    rfl

theorem insertNode (h : Filed nodes g) (n : Node) : Filed (nodes ++ [n]) (g.insertNode n) := by
  have hnode : ∀ id, (g.insertNode n).node? id = latest? (nodes ++ [n]) id := by
    intro id
    rw [node?_insertNode, latest?_append_singleton, h.node?]
  have hkey (key : Node → String) (k : String) : ((firstNodes nodes ++ [n]).filter (key · == k)).map Node.id =
      ((firstNodes nodes).filter (key · == k)).map Node.id ++ if key n = k then [n.id] else [] := by
    rw [List.filter_append, List.map_append]
    by_cases hk : key n = k <;> simp [hk]
  unfold Graph.insertNode at hnode ⊢
  rw [h.contains_iff] at hnode ⊢
  split at hnode
  · next hold =>
    rw [if_pos hold]
    exact ⟨hnode, by rw [firstNodes_append_singleton, if_pos hold]; exact h.inFile,
      by rw [firstNodes_append_singleton, if_pos hold]; exact h.named⟩
  · next hnew =>
    rw [if_neg hnew]
    refine ⟨hnode, fun file => ?_, fun name => ?_⟩
    · rw [Index.at_file, h.inFile, firstNodes_append_singleton, if_neg hnew, hkey]
    · rw [Index.at_file, h.named, firstNodes_append_singleton, if_neg hnew, hkey]

theorem insertEdge (h : Filed nodes g) (e : Edge) : Filed nodes (g.insertEdge e) := ⟨h.node?, h.inFile, h.named⟩

end Filed

end Graph
end CodeAtlas
