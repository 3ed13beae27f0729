import CodeAtlas.Graph.Build
import CodeAtlas.Graph.Snapshot
import CodeAtlas.Proofs.Graph.Answers

/-! A build as insertions. Each pass of a build that comes to its end only inserts: the entities, then the edges of
the calls that can be resolved, then nodes and edges of other kinds. So a node that is found is the last one that came
with its identifier, the calls are the stored edges of the second pass, and what is kept of the graph has each node once,
in the order of their identifiers, and each edge once. -/
namespace CodeAtlas
namespace Graph

/-- The graph that some attempts leave of a graph. -/
def after (g : Graph) (attempts : List Insertion) : Graph := attempts.foldl (fun g i => (i.perform g).2) g

/-- The node of an attempt that would not be refused. -/
def Insertion.validNode? : Insertion → Option Node
  | node n => if n.refusal? = none then some n else none
  | edge _ => none

/-- The last of some nodes with an identifier. -/
def latest? (nodes : List Node) (id : String) : Option Node := (nodes.filter (·.id == id)).getLast?

/-- Whether a graph comes of another one by attempts that add some nodes, in order, and no calls. -/
def Adds (nodes : List Node) (g g' : Graph) : Prop :=
  ∃ attempts, g' = g.after attempts ∧ attempts.filterMap Insertion.validNode? = nodes ∧
    ∀ e ∈ attempts.filterMap Insertion.validEdge?, e.kind ≠ .calls

/-- What stands before the first occurrence of a sign is fixed, and so is what stands behind it. -/
theorem eq_and_eq_of_append_cons_eq {α : Type} {x : α} {a a' b b' : List α} (ha : x ∉ a) (ha' : x ∉ a')
    (h : a ++ x :: b = a' ++ x :: b') : a = a' ∧ b = b' := by
  obtain ⟨c, rfl, hc⟩ | ⟨c, rfl, hc⟩ := List.append_eq_append_iff.mp h
  · cases c with
    | nil => simpa using hc
    | cons y c =>
      obtain ⟨rfl, -⟩ := List.cons.inj hc
      simp at ha'
  · cases c with
    | nil => simpa using hc.symm
    | cons y c =>
      obtain ⟨rfl, -⟩ := List.cons.inj hc
      simp at ha

theorem exists_of_bind_ok {α β ε : Type} {x : Except ε α} {f : α → Except ε β} {b : β} (h : x >>= f = .ok b) :
    ∃ a, x = .ok a ∧ f a = .ok b := by
  cases x with
  | error e => cases h
  | ok a => exact ⟨a, rfl, h⟩

theorem exists_of_map_eq_some {α β ε : Type} {x : Except ε α} {f : α → β} {b : β} (h : x.toOption.map f = some b) :
    ∃ a, x = .ok a ∧ f a = b := by
  cases x with
  | error e => cases h
  | ok a => exact ⟨a, rfl, Option.some.inj h⟩

/-- What holds before the first step and is kept by each step that succeeds holds after all of them. -/
theorem foldlM_ok_induction {α β ε : Type} {f : β → α → Except ε β} {motive : List α → β → Prop} {start : β}
    (nil : motive [] start)
    (step : ∀ done x b b', motive done b → f b x = .ok b' → motive (done ++ [x]) b') {xs : List α} {last : β}
    (h : xs.foldlM f start = .ok last) : motive xs last := by
  induction xs using List.reverseRecOn generalizing last with
  | nil =>
    cases h
    exact nil
  | append_singleton xs x ih =>
    rw [List.foldlM_append] at h
    obtain ⟨b, hxs, hlast⟩ := exists_of_bind_ok h
    obtain ⟨b', hx, hend⟩ := exists_of_bind_ok hlast
    cases hend
    exact step xs x b last (ih hxs) hx

section Attempts

variable {g g' : Graph} {n : Node} {e : Edge}

theorem after_append (g : Graph) (a b : List Insertion) : g.after (a ++ b) = (g.after a).after b := List.foldl_append

theorem built_append (a b : List Insertion) : built (a ++ b) = (built a).after b := after_append empty a b

theorem latest?_append_singleton (nodes : List Node) (n : Node) (id : String) :
    latest? (nodes ++ [n]) id = if n.id = id then some n else latest? nodes id := by
  unfold latest?
  rw [List.filter_append]
  by_cases h : n.id = id
  · simp [h]
  · simp [h]

theorem mem_of_latest? {nodes : List Node} {id : String} (h : latest? nodes id = some n) : n ∈ nodes ∧ n.id = id := by
  simpa using List.mem_filter.mp (List.mem_of_getLast? h)

/-- A node that is found is the last valid one with its identifier. -/
theorem node?_built (attempts : List Insertion) (id : String) :
    (built attempts).node? id = latest? (attempts.filterMap Insertion.validNode?) id := by
  induction attempts using List.reverseRecOn with
  | nil => simp [built, empty, node?, latest?]
  | append_singleton before i ih =>
    have hb : built (before ++ [i]) = (i.perform (built before)).2 := built_append before [i]
    rw [hb, List.filterMap_append]
    cases i with
    | node n =>
      cases hr : n.refusal? with
      | some r => simpa [Insertion.perform, addNode, Insertion.validNode?, hr] using ih
      | none =>
        have hv : [Insertion.node n].filterMap Insertion.validNode? = [n] := by simp [Insertion.validNode?, hr]
        have hp : (Insertion.node n).perform (built before) = (.ok true, (built before).insertNode n) := by
          simp [Insertion.perform, addNode, hr]
        rw [hv, hp, latest?_append_singleton, node?_insertNode, ih]
    | edge e =>
      have hp : ((Insertion.edge e).perform (built before)).2.node? id = (built before).node? id := by
        obtain ⟨-, hg⟩ | ⟨n, hn, -⟩ | ⟨x, -, -, -, hp⟩ := perform_cases (built before) (.edge e)
        · rw [hg]
        · cases hn
        · rw [hp]
          rfl
      have hv : [Insertion.edge e].filterMap Insertion.validNode? = [] := rfl
      rw [hp, ih, hv, List.append_nil]

theorem addNode_ok (h : g.addNode n = .ok g') : n.refusal? = none ∧ g' = g.after [.node n] := by
  unfold addNode at h
  split at h
  · cases h
  · next hr =>
    cases h
    refine ⟨hr, ?_⟩
    simp [after, Insertion.perform, addNode, hr]

theorem link_ok (h : g.link e = .ok g') : e.refusal? = none ∧ g' = g.after [.edge e] := by
  unfold link at h
  cases hadd : g.addEdge e with
  | error r =>
    rw [hadd] at h
    cases h
  | ok added =>
    rw [hadd] at h
    cases h
    refine ⟨?_, ?_⟩
    · unfold addEdge at hadd
      split at hadd
      · cases hadd
      · assumption
    · simp [after, Insertion.perform, hadd]

end Attempts

section Adds

variable {a b : List Node} {g g' g'' : Graph}

theorem Adds.refl (g : Graph) : Adds [] g g := ⟨[], rfl, rfl, by simp⟩

theorem Adds.trans (h : Adds a g g') (h' : Adds b g' g'') : Adds (a ++ b) g g'' := by
  obtain ⟨l, rfl, rfl, hl⟩ := h
  obtain ⟨l', rfl, rfl, hl'⟩ := h'
  refine ⟨l ++ l', (after_append g l l').symm, List.filterMap_append, fun e he => ?_⟩
  rw [List.filterMap_append, List.mem_append] at he
  exact he.elim (hl e) (hl' e)

/-- What each step of a loop adds, the loop adds. -/
theorem Adds.foldlM {α : Type} {f : Graph → α → Except Refusal Graph} (nodes : α → List Node)
    (hstep : ∀ g x g', f g x = .ok g' → Adds (nodes x) g g') {xs : List α} (h : xs.foldlM f g = .ok g') :
    Adds (xs.flatMap nodes) g g' := by
  refine foldlM_ok_induction (motive := fun done b => Adds (done.flatMap nodes) g b) (Adds.refl g) ?_ h
  intro done x b b' hdone hx
  rw [List.flatMap_append, List.flatMap_singleton]
  exact hdone.trans (hstep b x b' hx)

theorem Adds.foldlM_edges {α : Type} {f : Graph → α → Except Refusal Graph}
    (hstep : ∀ g x g', f g x = .ok g' → Adds [] g g') {xs : List α} (h : xs.foldlM f g = .ok g') : Adds [] g g' := by
  have hnone : xs.flatMap (fun _ => ([] : List Node)) = [] := List.flatMap_eq_nil_iff.mpr fun _ _ => rfl
  have hall := Adds.foldlM (fun _ => []) hstep h
  rwa [hnone] at hall

theorem adds_addNode {n : Node} (h : g.addNode n = .ok g') : Adds [n] g g' := by
  obtain ⟨hr, hg⟩ := addNode_ok h
  exact ⟨[.node n], hg, by simp [Insertion.validNode?, hr], by simp [Insertion.validEdge?]⟩

theorem adds_link {e : Edge} (hkind : e.kind ≠ .calls) (h : g.link e = .ok g') : Adds [] g g' := by
  obtain ⟨hr, hg⟩ := link_ok h
  exact ⟨[.edge e], hg, rfl, by simp [Insertion.validEdge?, hr, hkind]⟩

theorem adds_addImport {i : Facts.Import} (h : g.addImport i = .ok g') : Adds [] g g' :=
  adds_link (by simp) h

theorem adds_addEndpoint {e : Facts.Endpoint} (h : g.addEndpoint e = .ok g') : Adds [endpointNode e] g g' := by
  obtain ⟨added, hadd, hlink⟩ := exists_of_bind_ok h
  split at hlink
  · cases hlink
    exact adds_addNode hadd
  · exact (adds_addNode hadd).trans (adds_link (by simp) hlink)

theorem adds_addSchema {schemas : List Facts.Schema} {s : Facts.Schema} (h : addSchema schemas g s = .ok g') :
    Adds [schemaNode s] g g' := by
  obtain ⟨added, hadd, hrefs⟩ := exists_of_bind_ok h
  have hstep : ∀ (g : Graph) (r : Facts.Relation) (g' : Graph), addReference schemas s g r = .ok g' →
      Adds [] g g' := fun g r g' hr => adds_link (by simp) hr
  exact (adds_addNode hadd).trans (Adds.foldlM_edges hstep hrefs)

end Adds

/-- The graph of the entities of a report. -/
def ofEntities (report : Report) : Except Refusal Graph := report.entities.foldlM (fun g e => g.addNode e.toNode) empty

/-- Whether a call connects two nodes, given by their identifiers. -/
def Resolves (g : Graph) (c : Facts.Call) (ends : String × String) : Prop :=
  g.resolveCaller c = some ends.1 ∧ g.resolveCallee c = some ends.2

/-- The text that identifies the edge of a call. -/
def callId (ends : String × String) : String := "call:" ++ ends.1 ++ ":" ++ ends.2

/-- The edge of a call. -/
def callEdge (c : Facts.Call) (ends : String × String) : Edge where
  id := callId ends
  source := ends.1
  target := ends.2
  kind := .calls
  weight := callWeight c.level

/-- The edge of a call when both its ends are known. -/
def callEdge? (g : Graph) (c : Facts.Call) : Option Edge :=
  match g.resolveCaller c, g.resolveCallee c with
  | some source, some target => some (callEdge c (source, target))
  | _, _ => none

theorem callEdge?_eq_some_iff {g : Graph} {c : Facts.Call} {e : Edge} :
    g.callEdge? c = some e ↔ ∃ ends, g.Resolves c ends ∧ callEdge c ends = e := by
  unfold callEdge? Resolves
  cases hs : g.resolveCaller c with
  | none => simp
  | some source =>
    cases ht : g.resolveCallee c with
    | none => simp
    | some target =>
      simp only [Option.some.injEq, Prod.exists]
      exact ⟨fun h => ⟨source, target, ⟨rfl, rfl⟩, h⟩, fun ⟨_, _, ⟨hs, ht⟩, h⟩ => hs ▸ ht ▸ h⟩

/-- Whether two graphs have the same nodes, filed in the same way. -/
structure SameNodes (g g' : Graph) : Prop where
  nodes : g'.nodes = g.nodes
  fileIndex : g'.fileIndex = g.fileIndex
  nameIndex : g'.nameIndex = g.nameIndex

section Calls

variable {g g' : Graph} {c : Facts.Call}

/-- What a call connects depends on the nodes alone. -/
theorem SameNodes.callEdge? (h : SameNodes g g') (c : Facts.Call) : g'.callEdge? c = g.callEdge? c := by
  have hat : ∀ index key, g'.nodesAt index key = g.nodesAt index key := by
    intro index key
    have hnode : g'.node? = g.node? := funext fun id => congrArg (·[id]?) h.nodes
    rw [nodesAt, nodesAt, hnode]
  simp only [Graph.callEdge?, resolveCaller, resolveCallee, nodesInFile, nodesNamed, hat, h.fileIndex, h.nameIndex]

theorem addCall_eq (g : Graph) (c : Facts.Call) :
    g.addCall c = match g.callEdge? c with
      | some e => g.link e
      | none => .ok g := by
  unfold addCall callEdge?
  cases g.resolveCaller c with
  | none => rfl
  | some source => cases g.resolveCallee c <;> rfl

theorem sameNodes_link {e : Edge} (h : g.link e = .ok g') : SameNodes g g' := by
  obtain ⟨hr, rfl⟩ := link_ok h
  obtain ⟨-, hg⟩ | ⟨n, hn, -⟩ | ⟨x, -, -, -, hp⟩ := perform_cases g (.edge e)
  · have hsame : g.after [.edge e] = g := hg
    rw [hsame]
    exact ⟨rfl, rfl, rfl⟩
  · cases hn
  · have hinsert : g.after [.edge e] = g.insertEdge x := congrArg Prod.snd hp
    rw [hinsert]
    exact ⟨rfl, rfl, rfl⟩

/-- The pass over the calls adds the edges of those that are resolved on the graph before it, in order. -/
theorem calls_pass {calls : List Facts.Call} (h : calls.foldlM addCall g = .ok g') :
    g' = g.after ((calls.filterMap g.callEdge?).map .edge) ∧ ∀ e ∈ calls.filterMap g.callEdge?, e.refusal? = none := by
  -- the nodes stay the same, so each call is resolved as it was at the start
  have hall := foldlM_ok_induction (motive := fun done b => SameNodes g b ∧
    b = g.after ((done.filterMap g.callEdge?).map .edge) ∧
    ∀ e ∈ done.filterMap g.callEdge?, e.refusal? = none) ⟨⟨rfl, rfl, rfl⟩, rfl, by simp⟩ ?_ h
  · exact hall.2
  · rintro done c b b' ⟨hsame, hb, hvalid⟩ hadd
    rw [addCall_eq, hsame.callEdge?] at hadd
    rw [List.filterMap_append]
    cases he : g.callEdge? c with
    | none =>
      rw [he] at hadd
      cases hadd
      have hnone : [c].filterMap g.callEdge? = [] := by simp [he]
      rw [hnone, List.append_nil]
      exact ⟨hsame, hb, hvalid⟩
    | some e =>
      rw [he] at hadd
      obtain ⟨hr, hb'⟩ := link_ok hadd
      have hlink := sameNodes_link hadd
      have hsome : [c].filterMap g.callEdge? = [e] := by simp [he]
      rw [hsome]
      refine ⟨⟨hlink.nodes.trans hsame.nodes, hlink.fileIndex.trans hsame.fileIndex,
        hlink.nameIndex.trans hsame.nameIndex⟩, ?_, List.forall_mem_append.mpr ⟨hvalid, by simpa using hr⟩⟩
      rw [hb', hb, List.map_append, after_append]
      rfl

end Calls

/-- The graph of a report's entities is what inserting them one after the other leaves. -/
theorem ofEntities_ok {report : Report} {g₀ : Graph} (h : ofEntities report = .ok g₀) :
    g₀ = built (report.entities.map fun e => .node e.toNode) ∧ ∀ e ∈ report.entities, e.toNode.refusal? = none := by
  refine foldlM_ok_induction (motive := fun done b =>
    b = built (done.map fun e => .node e.toNode) ∧ ∀ e ∈ done, e.toNode.refusal? = none) ⟨rfl, by simp⟩ ?_ h
  rintro done e b b' ⟨hb, hvalid⟩ hadd
  obtain ⟨hr, hb'⟩ := addNode_ok hadd
  refine ⟨?_, List.forall_mem_append.mpr ⟨hvalid, by simpa using hr⟩⟩
  rw [hb', hb, List.map_append, built_append]
  rfl

theorem filterMap_validNode?_of_accepted {report : Report} (h : ∀ e ∈ report.entities, e.toNode.refusal? = none) :
    (report.entities.map fun e => Insertion.node e.toNode).filterMap Insertion.validNode? =
      report.entities.map Report.Entity.toNode := by
  rw [List.filterMap_map, ← List.filterMap_eq_map]
  exact List.filterMap_congr fun e he => by simp [Insertion.validNode?, h e he]

/-- A build that succeeds is made of insertions: of the nodes of entities, endpoints and tables, in this order, and of
edges, first those of the calls that are resolved on the graph of the entities and then others that are no calls. -/
theorem build_ok {report : Report} {facts : Facts} {g : Graph} (h : build report facts = .ok g) :
    ∃ g₀ attempts others, ofEntities report = .ok g₀ ∧ g = built attempts ∧
      attempts.filterMap Insertion.validNode? = report.entities.map Report.Entity.toNode ++
        (facts.endpoints.map endpointNode ++ facts.schemas.map schemaNode) ∧
      attempts.filterMap Insertion.validEdge? = facts.calls.filterMap g₀.callEdge? ++ others ∧
      ∀ e ∈ others, e.kind ≠ .calls := by
  obtain ⟨g₀, hentities, h⟩ := exists_of_bind_ok h
  obtain ⟨g₁, hcalls, h⟩ := exists_of_bind_ok h
  obtain ⟨g₂, himports, h⟩ := exists_of_bind_ok h
  obtain ⟨g₃, hendpoints, hschemas⟩ := exists_of_bind_ok h
  obtain ⟨hg₀, haccepted⟩ := ofEntities_ok hentities
  obtain ⟨hg₁, hvalid⟩ := calls_pass hcalls
  have hrest : Adds (facts.endpoints.map endpointNode ++ facts.schemas.map schemaNode) g₁ g := by
    have h₁ := Adds.foldlM_edges (fun _ _ _ => adds_addImport) himports
    have h₂ := Adds.foldlM (fun e => [endpointNode e]) (fun _ _ _ => adds_addEndpoint) hendpoints
    have h₃ := Adds.foldlM (fun s => [schemaNode s]) (fun _ _ _ => adds_addSchema) hschemas
    rw [← List.map_eq_flatMap] at h₂ h₃
    exact h₁.trans (h₂.trans h₃)
  obtain ⟨rest, hg, hnodes, hedges⟩ := hrest
  have hnone : ((facts.calls.filterMap g₀.callEdge?).map Insertion.edge).filterMap Insertion.validNode? = [] := by
    simp [List.filterMap_map, Function.comp_def, Insertion.validNode?]
  have hnoEdge : (report.entities.map fun e => Insertion.node e.toNode).filterMap Insertion.validEdge? = [] := by
    simp [List.filterMap_map, Function.comp_def, Insertion.validEdge?]
  have hcallEdges : ((facts.calls.filterMap g₀.callEdge?).map Insertion.edge).filterMap Insertion.validEdge? =
      facts.calls.filterMap g₀.callEdge? := by
    rw [List.filterMap_map]
    refine (List.filterMap_congr fun e he => ?_).trans (List.filterMap_some)
    simp [Insertion.validEdge?, hvalid e he]
  refine ⟨g₀, report.entities.map (fun e => .node e.toNode) ++
    (facts.calls.filterMap g₀.callEdge?).map .edge ++ rest, rest.filterMap Insertion.validEdge?, hentities, ?_, ?_, ?_,
    hedges⟩
  · rw [hg, hg₁, built_append, built_append, ← hg₀]
  · rw [List.filterMap_append, List.filterMap_append, filterMap_validNode?_of_accepted haccepted, hnodes, hnone,
      List.append_nil]
  · rw [List.filterMap_append, List.filterMap_append, hnoEdge, hcallEdges, List.nil_append]

section Kept

variable {g : Graph}

/-- The identifiers of the nodes are the keys under which they are found. -/
theorem Consistent.map_id_sortedNodes (h : g.Consistent) : g.sortedNodes.map (·.id) = g.nodes.keys := by
  rw [sortedNodes, values_eq_map_toList, List.map_map, ← Std.TreeMap.map_fst_toList_eq_keys]
  refine List.map_congr_left fun entry hentry => ?_
  exact h.id_of_node (Std.TreeMap.mem_toList_iff_getElem?_eq_some.mp hentry)

/-- A snapshot lists the nodes by identifier, no two with the same one. -/
theorem Consistent.pairwise_nodes (h : g.Consistent) : (g.snapshot.nodes.map (·.id)).Pairwise (· < ·) := by
  have hkeys := Std.TreeMap.ordered_keys (t := g.nodes)
  show (g.sortedNodes.map (·.id)).Pairwise (· < ·)
  rw [h.map_id_sortedNodes]
  exact hkeys.imp fun hlt => compareOfLessAndEq_eq_lt.mp hlt

theorem Consistent.nodup_edges (h : g.Consistent) : (g.snapshot.edges.map (·.id)).Nodup := h.edgeIds_nodup

theorem consistent_build {report : Report} {facts : Facts} (h : build report facts = .ok g) : g.Consistent := by
  obtain ⟨_, attempts, _, _, rfl, _⟩ := build_ok h
  exact consistent_built attempts

end Kept

end Graph

/-- An atlas that can be built has such a graph. -/
theorem Atlas.consistent_graph {project : String} {report : Report} {facts : Facts} {findings : Findings} {atlas : Atlas}
    (h : Atlas.build project report facts findings = .ok atlas) : atlas.graph.Consistent := by
  obtain ⟨g, hg, hatlas⟩ := Graph.exists_of_bind_ok h
  cases hatlas
  exact Graph.consistent_build hg

end CodeAtlas
