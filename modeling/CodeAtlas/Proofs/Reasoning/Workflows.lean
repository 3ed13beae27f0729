import CodeAtlas.Proofs.Graph.Listing
import CodeAtlas.Proofs.Graph.Passes
import CodeAtlas.Proofs.Graph.Walks
import CodeAtlas.Proofs.Reasoning.Order

/-! Which workflows are inferred. A walk of a single call finds the other nodes that a node calls, each once, however many
calls there are; so a function or a method has a workflow exactly when it calls two others, and the steps of the workflow
are these. Workflows are filed under the identifiers of nodes, hence none of them takes the place of another. -/
namespace CodeAtlas

namespace Graph

/-- Whether a node calls another one. -/
def CallsOther (g : Graph) (a b : String) : Prop := b ≠ a ∧ g.contains b = true ∧ g.Calls .callees a b

variable {g : Graph} {a b : String}

theorem Consistent.mem_callees_one (h : g.Consistent) : b ∈ (g.callees a 1).map Node.id ↔ g.CallsOther a b := by
  rw [callees, h.mem_walk]
  constructor
  · rintro ⟨hb, hne, k, hk, hpath⟩
    cases hpath with
    | refl => exact absurd rfl hne
    | step hstart hcall _ =>
      obtain rfl := Nat.le_zero.mp (Nat.le_of_succ_le_succ hk)
      cases hstart
      exact ⟨hne, hb, hcall⟩
  · rintro ⟨hne, hb, hcall⟩
    exact ⟨hb, hne, 1, Nat.le_refl 1, .step .refl hcall hb⟩

theorem Consistent.two_le_length_callees (h : g.Consistent) :
    2 ≤ (g.callees a 1).length ↔ ∃ b c, g.CallsOther a b ∧ g.CallsOther a c ∧ b ≠ c := by
  have hnodup : ((g.callees a 1).map Node.id).Nodup := h.nodup_walk .callees a 1
  have hlength : (g.callees a 1).length = ((g.callees a 1).map Node.id).toFinset.card := by
    rw [List.toFinset_card_of_nodup hnodup, List.length_map]
  rw [hlength]
  simp only [← h.mem_callees_one, ← List.mem_toFinset]
  exact Finset.one_lt_card_iff

end Graph

namespace Reasoning

/-- Whether a workflow is that of a node: the node itself and then the others that it calls, each once, in numbered
steps. -/
structure Workflow.Traces (w : Workflow) (g : Graph) (id : String) : Prop where
  nodes : ∃ targets : List String, w.steps.map (·.node) = id :: targets ∧ targets.Nodup ∧
    ∀ t, t ∈ targets ↔ g.CallsOther id t
  orders : w.steps.map (·.order) = List.range w.steps.length
  stored : ∀ s ∈ w.steps, g.contains s.node = true

/-- Whether a node is a function or a method that calls two others. -/
structure Branches (g : Graph) (n : Graph.Node) : Prop where
  callable : n.kind = .function ∨ n.kind = .method
  two : ∃ a b, g.CallsOther n.id a ∧ g.CallsOther n.id b ∧ a ≠ b

/-- Whether the workflows that are known are those of a graph. -/
structure HasWorkflowsOf (r : Reasoning) (g : Graph) : Prop where
  held_iff : ∀ id, (∃ w ∈ r.workflows, w.id = "workflow:" ++ id) ↔ ∃ n, g.node? id = some n ∧ Branches g n
  traces : ∀ w ∈ r.workflows, ∀ id, w.id = "workflow:" ++ id → w.Traces g id
  named : ∀ w ∈ r.workflows, ∃ id, w.id = "workflow:" ++ id
  once : (r.workflows.map (·.id)).Nodup

section Inferred

variable {g : Graph} {findings : Findings} {n : Graph.Node} {w : Workflow} {id id' : String}

theorem workflowId_inj : "workflow:" ++ id = "workflow:" ++ id' ↔ id = id' := by
  simp only [String.ext_iff, String.toList_append, List.append_cancel_left_eq]

theorem of_workflowOf? (h : workflowOf? g n = some w) : w.id = "workflow:" ++ n.id ∧
    w.steps.map (·.node) = n.id :: (g.callees n.id 1).map Graph.Node.id ∧
    w.steps.map (·.order) = List.range w.steps.length := by
  unfold workflowOf? at h
  dsimp only at h
  split at h
  · cases h
  · cases h
    have hnodes : ((g.callees n.id 1).zipIdx.map Prod.fst).map Graph.Node.id = (g.callees n.id 1).map Graph.Node.id := by
      rw [List.zipIdx_map_fst]
    have horders : (g.callees n.id 1).zipIdx.map Prod.snd = List.range (g.callees n.id 1).length := by
      rw [List.zipIdx_map_snd, List.range_eq_range']
    refine ⟨rfl, ?_, ?_⟩
    · rw [← hnodes, List.map_cons, List.map_map, List.map_map]
      rfl
    · rw [List.length_cons, List.length_map, List.length_zipIdx, List.range_succ_eq_map, ← horders, List.map_map,
        List.map_cons, List.map_map]
      rfl

theorem exists_workflowOf?_iff (h : g.Consistent) : (∃ w, workflowOf? g n = some w) ↔ Branches g n := by
  have hcallable : n.kind.isCallable = true ↔ n.kind = .function ∨ n.kind = .method := by
    simp [EntityKind.isCallable]
  have hcond : (!n.kind.isCallable || decide ((g.callees n.id 1).length < 2)) = false ↔ Branches g n := by
    rw [Bool.or_eq_false_iff, Bool.not_eq_false', hcallable, decide_eq_false_iff_not, Nat.not_lt,
      h.two_le_length_callees]
    exact ⟨fun ⟨hkind, htwo⟩ => ⟨hkind, htwo⟩, fun hn => ⟨hn.callable, hn.two⟩⟩
  rw [← hcond, workflowOf?]
  cases !n.kind.isCallable || decide ((g.callees n.id 1).length < 2) <;> simp

theorem nodup_inferred (h : g.Consistent) : ((g.sortedNodes.filterMap (workflowOf? g)).map (·.id)).Nodup := by
  have hids : g.sortedNodes.Pairwise (·.id ≠ ·.id) := by
    rw [← List.pairwise_map (f := Graph.Node.id), h.map_id_sortedNodes]
    exact Std.TreeMap.nodup_keys
  rw [List.Nodup, List.pairwise_map]
  refine hids.filterMap _ fun n m hne w hw v hv heq => hne ?_
  rwa [(of_workflowOf? hw).1, (of_workflowOf? hv).1, workflowId_inj] at heq

theorem mem_workflows_known_iff (h : g.Consistent) :
    w ∈ (known findings g).workflows ↔ ∃ n, g.node? n.id = some n ∧ workflowOf? g n = some w := by
  rw [known, build_eq, workflows, mem_values_foldl_insert_of_nodup (nodup_inferred h), List.mem_filterMap]
  simp only [h.mem_sortedNodes_iff]

/-- The identifier of a workflow tells whose it is. -/
theorem exists_node_of_mem_workflows (h : g.Consistent) (hw : w ∈ (known findings g).workflows)
    (hid : w.id = "workflow:" ++ id) : ∃ n, g.node? id = some n ∧ workflowOf? g n = some w := by
  obtain ⟨n, hn, hof⟩ := (mem_workflows_known_iff h).mp hw
  obtain rfl := workflowId_inj.mp ((of_workflowOf? hof).1.symm.trans hid)
  exact ⟨n, hn, hof⟩

theorem traces_of_workflowOf? (h : g.Consistent) (hn : g.node? id = some n) (hw : workflowOf? g n = some w) :
    w.Traces g id := by
  obtain rfl := h.id_of_node hn
  obtain ⟨-, hnodes, horders⟩ := of_workflowOf? hw
  refine ⟨⟨_, hnodes, h.nodup_walk .callees n.id 1, fun _ => h.mem_callees_one⟩, horders, fun s hs => ?_⟩
  have hmem := List.mem_map_of_mem (f := (·.node)) hs
  rw [hnodes, List.mem_cons, h.mem_callees_one] at hmem
  rcases hmem with hself | hother
  · rw [hself, Graph.contains_eq_isSome, hn, Option.isSome_some]
  · exact hother.2.1

theorem hasWorkflowsOf_known (h : g.Consistent) (findings : Findings) : (known findings g).HasWorkflowsOf g where
  held_iff id := by
    constructor
    · rintro ⟨w, hw, hid⟩
      obtain ⟨n, hn, hof⟩ := exists_node_of_mem_workflows h hw hid
      exact ⟨n, hn, (exists_workflowOf?_iff h).mp ⟨w, hof⟩⟩
    · rintro ⟨n, hn, hbranches⟩
      obtain rfl := h.id_of_node hn
      obtain ⟨w, hw⟩ := (exists_workflowOf?_iff h).mpr hbranches
      exact ⟨w, (mem_workflows_known_iff h).mpr ⟨n, hn, hw⟩, (of_workflowOf? hw).1⟩
  traces w hw id hid := by
    obtain ⟨n, hn, hof⟩ := exists_node_of_mem_workflows h hw hid
    exact traces_of_workflowOf? h hn hof
  named w hw := by
    obtain ⟨n, -, hof⟩ := (mem_workflows_known_iff h).mp hw
    exact ⟨n.id, (of_workflowOf? hof).1⟩
  once := by
    rw [known, build_eq]
    exact nodup_map_key_foldl_insert Workflow.id _

end Inferred

end Reasoning

/-- After a build there is a workflow for just the functions and methods that call two others. Its steps are the callable
and the others that it calls. -/
theorem Atlas.workflows_inferred {project : String} {report : Report} {facts : Facts} {findings : Findings}
    {atlas : Atlas} (h : Atlas.build project report facts findings = .ok atlas) :
    atlas.reasoning.HasWorkflowsOf atlas.graph := by
  have hgraph := Atlas.consistent_graph h
  obtain ⟨g, -, hatlas⟩ := Graph.exists_of_bind_ok h
  cases hatlas
  exact Reasoning.hasWorkflowsOf_known hgraph findings

/-- A function that calls two others, one of them twice, and itself; and a function that calls only one. -/
def Facts.checkout : Facts where
  definitions := [⟨"checkout", .function, "shop.py", 1, 20, "python", none, none⟩,
    ⟨"charge", .function, "shop.py", 22, 30, "python", none, none⟩,
    ⟨"ship", .function, "shop.py", 32, 40, "python", none, none⟩]
  calls := [⟨"shop.py", 5, "ship", none, .high⟩, ⟨"shop.py", 6, "charge", none, .high⟩,
    ⟨"shop.py", 7, "ship", none, .high⟩, ⟨"shop.py", 8, "checkout", none, .high⟩, ⟨"shop.py", 25, "ship", none, .high⟩]

theorem Atlas.workflows_inferred_checkout : ∃ atlas,
    Atlas.build "shop" (.reconcile .checkout .empty) .checkout .empty = .ok atlas ∧
      atlas.reasoning.HasWorkflowsOf atlas.graph ∧
      (atlas.reasoning.workflows.map fun w => (w.id, w.steps.map (·.node))) =
        [("workflow:shop.py::checkout", ["shop.py::checkout", "shop.py::ship", "shop.py::charge"])] := by
  obtain ⟨atlas, hbuild, hsteps⟩ := Graph.exists_of_map_eq_some
    (f := fun a : Atlas => a.reasoning.workflows.map fun w => (w.id, w.steps.map (·.node)))
    (x := Atlas.build "shop" (.reconcile .checkout .empty) .checkout .empty)
    (b := [("workflow:shop.py::checkout", ["shop.py::checkout", "shop.py::ship", "shop.py::charge"])])
    (by decide +kernel)
  exact ⟨atlas, hbuild, Atlas.workflows_inferred hbuild, hsteps⟩

end CodeAtlas
