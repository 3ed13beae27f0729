import CodeAtlas.Proofs.Graph.Filed

/-! What a graph lists under a file or a name. A node is listed where the first node of its identifier was filed, so the
lists tell the files and names of the stored nodes exactly as long as no node has replaced one of another file or name. -/
namespace CodeAtlas
namespace Graph

/-- The first of some nodes with an identifier. -/
def first? (nodes : List Node) (id : String) : Option Node := nodes.find? (·.id == id)

/-- Whether lists of nodes under the texts of a key are those of a graph to which some nodes were added: each stored node
is listed under the text of the first node of its identifier, in the order in which the identifiers came. -/
structure Lists (nodes : List Node) (g : Graph) (key : Node → String) (listed : String → List Node) : Prop where
  inOrder : ∀ k, listed k = ((firstNodes nodes).filter (key · == k)).filterMap fun n => g.node? n.id
  once : ∀ k, ((listed k).map Node.id).Nodup
  mem_iff : ∀ k n, n ∈ listed k ↔ n ∈ g.sortedNodes ∧ (first? nodes n.id).map key = some k
  /-- The lists are right when nobody has replaced a node of another text, and only then. -/
  exact_iff : (∀ k n, n ∈ listed k ↔ n ∈ g.sortedNodes ∧ key n = k) ↔
    ∀ n ∈ g.sortedNodes, (first? nodes n.id).map key = some (key n)

section Firsts

variable {nodes : List Node} {n : Node} {id : String}

theorem nodup_firstNodes (nodes : List Node) : ((firstNodes nodes).map Node.id).Nodup := by
  induction nodes using List.reverseRecOn with
  | nil => simp [firstNodes]
  | append_singleton nodes n ih =>
    rw [firstNodes_append_singleton]
    split
    · exact ih
    · next hnew =>
      rw [List.map_append, List.map_singleton, List.nodup_append]
      refine ⟨ih, List.nodup_singleton _, ?_⟩
      rintro _ hid _ hn rfl
      obtain ⟨m, hm, hsame⟩ := List.mem_map.mp hid
      exact hnew (List.any_eq_true.mpr ⟨m, hm, beq_iff_eq.mpr (hsame.trans (List.mem_singleton.mp hn))⟩)

theorem id_of_first? (h : first? nodes id = some n) : n.id = id := by simpa using List.find?_some h

/-- A node is kept exactly when it is the first one of its identifier. -/
theorem mem_firstNodes_iff : n ∈ firstNodes nodes ↔ first? nodes n.id = some n := by
  have hfind : (firstNodes nodes).find? (·.id == n.id) = first? nodes n.id :=
    find?_firstNodes fun a _ b _ hid => by rw [hid]
  rw [← hfind]
  refine ⟨fun h => ?_, List.mem_of_find?_eq_some⟩
  cases hfound : (firstNodes nodes).find? (·.id == n.id) with
  | none => exact absurd (List.find?_eq_none.mp hfound n h) (by simp)
  | some m =>
    have hid : m.id = n.id := by simpa using List.find?_some hfound
    rw [List.inj_on_of_nodup_map (nodup_firstNodes nodes) (List.mem_of_find?_eq_some hfound) h hid]

end Firsts

section Stored

variable {nodes : List Node} {g : Graph} {key : Node → String}

theorem Consistent.mem_sortedNodes_iff (h : g.Consistent) {n : Node} : n ∈ g.sortedNodes ↔ g.node? n.id = some n := by
  refine ⟨h.node?_of_mem, fun hn => ?_⟩
  rw [sortedNodes, values_eq_map_toList]
  exact List.mem_map.mpr ⟨(n.id, n), Std.TreeMap.mem_toList_iff_getElem?_eq_some.mpr hn, rfl⟩

/-- Whoever is filed is found. -/
theorem Consistent.map_id_filterMap_node? (h : g.Consistent) {ids : List String}
    (hfound : ∀ id ∈ ids, ∃ n, g.node? id = some n) : (ids.filterMap g.node?).map Node.id = ids := by
  induction ids with
  | nil => rfl
  | cons id ids ih =>
    obtain ⟨hhead, htail⟩ := List.forall_mem_cons.mp hfound
    obtain ⟨n, hn⟩ := hhead
    rw [List.filterMap_cons_some hn, List.map_cons, h.id_of_node hn, ih htail]

/-- What is listed has the identifiers that are filed. -/
theorem Filed.map_id_nodesAt (hg : Filed nodes g) (h : g.Consistent) {index : Index String} {k : String}
    (hindex : index.at k = ((firstNodes nodes).filter (key · == k)).map Node.id) :
    (g.nodesAt index k).map Node.id = index.at k := by
  refine h.map_id_filterMap_node? fun id hid => ?_
  rw [hindex] at hid
  obtain ⟨m, hm, rfl⟩ := List.mem_map.mp hid
  obtain ⟨n, -, -, hn⟩ := exists_latest? (firstNodes_subset nodes (List.mem_of_mem_filter hm))
  exact ⟨n, (hg.node? m.id).trans hn⟩

/-- What is filed under the texts of a key is listed by these texts. -/
theorem Filed.lists (hg : Filed nodes g) (h : g.Consistent) {index : Index String}
    (hindex : ∀ k, index.at k = ((firstNodes nodes).filter (key · == k)).map Node.id) :
    Lists nodes g key (g.nodesAt index) := by
  have hlisted (k : String) : g.nodesAt index k =
      ((firstNodes nodes).filter (key · == k)).filterMap fun n => g.node? n.id := by
    rw [nodesAt, hindex, List.filterMap_map]
    rfl
  have hmem (k : String) (n : Node) :
      n ∈ g.nodesAt index k ↔ n ∈ g.sortedNodes ∧ (first? nodes n.id).map key = some k := by
    simp only [hlisted, List.mem_filterMap, List.mem_filter, mem_firstNodes_iff, beq_iff_eq, h.mem_sortedNodes_iff]
    constructor
    · rintro ⟨m, ⟨hfirst, hkey⟩, hnode⟩
      obtain hid := h.id_of_node hnode
      rw [hid, hfirst, ← hkey]
      exact ⟨hnode, rfl⟩
    · rintro ⟨hnode, hkey⟩
      obtain ⟨m, hfirst, hm⟩ := Option.map_eq_some_iff.mp hkey
      have hid := id_of_first? hfirst
      exact ⟨m, ⟨hid ▸ hfirst, hm⟩, hid ▸ hnode⟩
  refine ⟨hlisted, fun k => ?_, hmem, ⟨fun hexact n hn => ?_, fun hsame k n => ?_⟩⟩
  · rw [hg.map_id_nodesAt h (hindex k), hindex]
    exact (nodup_firstNodes nodes).sublist (List.filter_sublist.map _)
  · exact ((hmem (key n) n).mp ((hexact (key n) n).mpr ⟨hn, rfl⟩)).2
  · rw [hmem]
    refine and_congr_right fun hn => ?_
    rw [hsame n hn, Option.some.injEq]

/-- Whether an index has just the keys that something is filed under. -/
def Index.Tidy {α : Type} (index : Index α) : Prop := ∀ k, k ∈ index ↔ index.at k ≠ []

theorem Index.Tidy.file {α : Type} {index : Index α} (h : index.Tidy) (k : String) (entry : α) :
    (index.file k entry).Tidy := by
  intro k'
  rw [Index.mem_file, Index.at_file, h k']
  by_cases hk : k = k'
  · simp [hk]
  · simp [hk, Ne.symm hk]

theorem Index.Tidy.insertNode (h : g.fileIndex.Tidy) (n : Node) : (g.insertNode n).fileIndex.Tidy := by
  unfold Graph.insertNode
  split
  · exact h
  · exact h.file n.file n.id

end Stored

section Built

theorem built_append_singleton (attempts : List Insertion) (i : Insertion) :
    built (attempts ++ [i]) = (i.perform (built attempts)).2 := built_append attempts [i]

/-- The tables of a graph hold the nodes that were not refused. -/
theorem filed_built (attempts : List Insertion) :
    Filed (attempts.filterMap Insertion.validNode?) (built attempts) ∧ (built attempts).fileIndex.Tidy := by
  induction attempts using List.reverseRecOn with
  | nil => exact ⟨.empty, by simp [Index.Tidy, built, empty, Index.at]⟩
  | append_singleton before i ih =>
    obtain ⟨hfiled, htidy⟩ := ih
    rw [built_append_singleton, List.filterMap_append]
    cases i with
    | node n =>
      cases hr : n.refusal? with
      | some r => simpa [Insertion.perform, addNode, Insertion.validNode?, hr] using ⟨hfiled, htidy⟩
      | none =>
        have hvalid : [Insertion.node n].filterMap Insertion.validNode? = [n] := by simp [Insertion.validNode?, hr]
        have hperform : (Insertion.node n).perform (built before) = (.ok true, (built before).insertNode n) := by
          simp [Insertion.perform, addNode, hr]
        rw [hvalid, hperform]
        exact ⟨hfiled.insertNode n, htidy.insertNode n⟩
    | edge e =>
      have hvalid : [Insertion.edge e].filterMap Insertion.validNode? = [] := rfl
      rw [hvalid, List.append_nil]
      obtain ⟨-, hsame⟩ | ⟨n, hn, -⟩ | ⟨x, -, -, -, hperform⟩ := perform_cases (built before) (.edge e)
      · rw [hsame]
        exact ⟨hfiled, htidy⟩
      · cases hn
      · rw [hperform]
        exact ⟨hfiled.insertEdge x, htidy⟩

/-- In every graph that insertions lead to, the last node of each identifier is stored, what is listed under a file or a
name are the stored nodes whose identifier first came with that file or name, each once, and the files are those under
which something is listed. So all of this tells the stored nodes' files and names exactly when none of them has replaced
a node of another file or name. -/
theorem lists_built (attempts : List Insertion) :
    let g := built attempts
    let nodes := attempts.filterMap Insertion.validNode?
    (∀ id, g.node? id = latest? nodes id) ∧
      Lists nodes g Node.file g.nodesInFile ∧ Lists nodes g Node.name g.nodesNamed ∧
      (∀ file, file ∈ g.files ↔ ∃ n ∈ g.sortedNodes, (first? nodes n.id).map Node.file = some file) ∧
      g.files.Nodup ∧ g.stats.files = g.files.length ∧
      ((∀ n ∈ g.sortedNodes, (first? nodes n.id).map Node.file = some n.file) →
        ∀ file, file ∈ g.files ↔ ∃ n ∈ g.sortedNodes, n.file = file) := by
  intro g nodes
  have h : g.Consistent := consistent_built attempts
  obtain ⟨hfiled, htidy⟩ := filed_built attempts
  have hinFile : Lists nodes g Node.file g.nodesInFile := hfiled.lists h hfiled.inFile
  have hfiles (file : String) :
      file ∈ g.files ↔ ∃ n ∈ g.sortedNodes, (first? nodes n.id).map Node.file = some file := by
    have hids := hfiled.map_id_nodesAt h (hfiled.inFile file)
    have hlisted : g.fileIndex.at file ≠ [] ↔ ∃ n, n ∈ g.nodesInFile file := by
      rw [← hids, ne_eq, List.map_eq_nil_iff, List.eq_nil_iff_forall_not_mem, not_forall_not]
      exact Iff.rfl
    rw [files, Std.TreeMap.mem_keys, htidy file, hlisted]
    exact exists_congr fun n => hinFile.mem_iff file n
  refine ⟨hfiled.node?, hinFile, hfiled.lists h hfiled.named, hfiles, Std.TreeMap.nodup_keys,
    Std.TreeMap.length_keys.symm, fun hsame file => ?_⟩
  rw [hfiles]
  refine exists_congr fun n => and_congr_right fun hn => ?_
  rw [hsame n hn, Option.some.injEq]

/-- A function that is added twice, the second time with more lines, and a refused node. -/
def addedTwice : List Insertion :=
  let node (id : String) (last : Nat) : Insertion :=
    .node ⟨id, "a", .function, "m.py", 1, last, "", none, none, ⟨0.9, .deterministic, ""⟩⟩
  [node "m.py::a" 2, node "" 3, node "m.py::a" 5]

theorem lists_built_addedTwice :
    (∀ n ∈ (built addedTwice).sortedNodes,
      (first? (addedTwice.filterMap Insertion.validNode?) n.id).map Node.file = some n.file) ∧
    (∀ file, file ∈ (built addedTwice).files ↔ ∃ n ∈ (built addedTwice).sortedNodes, n.file = file) ∧
    ((built addedTwice).nodesInFile "m.py").map Node.endLine = [5] := by
  have hsame : ∀ n ∈ (built addedTwice).sortedNodes,
      (first? (addedTwice.filterMap Insertion.validNode?) n.id).map Node.file = some n.file := by
    decide +kernel
  obtain ⟨-, -, -, -, -, -, hfiles⟩ := lists_built addedTwice
  exact ⟨hsame, hfiles hsame, by decide +kernel⟩

/-- Two nodes of different files and names whose identifiers are the same text. -/
def renamed : List Insertion :=
  let node (name file : String) : Insertion :=
    .node ⟨entityId file name, name, .function, file, 1, 2, "", none, none, ⟨0.9, .deterministic, ""⟩⟩
  [node "c" "a::b", node "b::c" "a"]

/-- The second node is stored, and is listed under the file and the name of the first one. -/
theorem not_lists_renamed :
    ¬ (∀ file n, n ∈ (built renamed).nodesInFile file ↔ n ∈ (built renamed).sortedNodes ∧ n.file = file) ∧
    ¬ (∀ name n, n ∈ (built renamed).nodesNamed name ↔ n ∈ (built renamed).sortedNodes ∧ n.name = name) ∧
    (built renamed).sortedNodes.map Node.file = ["a"] ∧ (built renamed).files = ["a::b"] := by
  have hfile : (built renamed).sortedNodes.map Node.file = ["a"] := by decide +kernel
  have hname : (built renamed).sortedNodes.map Node.name = ["b::c"] := by decide +kernel
  refine ⟨fun h => ?_, fun h => ?_, hfile, by decide +kernel⟩
  · obtain ⟨n, hn, hfile⟩ := List.mem_map.mp (hfile ▸ List.mem_singleton_self "a")
    have hnone : (built renamed).nodesInFile "a" = [] := List.isEmpty_iff.mp (by decide +kernel)
    exact List.not_mem_nil (hnone ▸ (h "a" n).mpr ⟨hn, hfile⟩)
  · obtain ⟨n, hn, hname⟩ := List.mem_map.mp (hname ▸ List.mem_singleton_self "b::c")
    have hnone : (built renamed).nodesNamed "b::c" = [] := List.isEmpty_iff.mp (by decide +kernel)
    exact List.not_mem_nil (hnone ▸ (h "b::c" n).mpr ⟨hn, hname⟩)

end Built

end Graph
end CodeAtlas
