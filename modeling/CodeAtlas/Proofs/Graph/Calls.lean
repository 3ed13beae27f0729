import CodeAtlas.Proofs.Graph.Passes

/-! The calls of a built graph and the calls of the facts. Nothing is invented, and a pair of nodes is connected once;
of two pairs whose edges have the same identifier only the first is connected. -/
namespace CodeAtlas
namespace Graph

section Unseen

variable {seen : Std.TreeSet String} {edges : List Edge} {e : Edge}

theorem unseen_append (seen : Std.TreeSet String) (a b : List Edge) :
    ∃ seen', unseen seen (a ++ b) = unseen seen a ++ unseen seen' b := by
  induction a generalizing seen with
  | nil => exact ⟨seen, rfl⟩
  | cons x a ih =>
    simp only [List.cons_append, unseen]
    cases seen.contains x.id with
    | true => exact ih seen
    | false =>
      obtain ⟨seen', h⟩ := ih (seen.insert x.id)
      exact ⟨seen', by simp only [Bool.false_eq_true, if_false, h, List.cons_append]⟩

/-- An edge that is kept is the first one with its identifier. -/
theorem first_of_mem_unseen (h : e ∈ unseen seen edges) : seen.contains e.id = false ∧
    ∃ before later, edges = before ++ e :: later ∧ ∀ b ∈ before, b.id ≠ e.id := by
  induction edges generalizing seen with
  | nil => cases h
  | cons x rest ih =>
    unfold unseen at h
    cases hx : seen.contains x.id with
    | true =>
      rw [hx, if_pos rfl] at h
      obtain ⟨hseen, before, later, rfl, hbefore⟩ := ih h
      refine ⟨hseen, x :: before, later, rfl, List.forall_mem_cons.mpr ⟨fun hid => ?_, hbefore⟩⟩
      rw [← hid, hx] at hseen
      cases hseen
    | false =>
      rw [hx, if_neg (by simp)] at h
      rcases List.mem_cons.mp h with rfl | h
      · exact ⟨hx, [], rest, rfl, by simp⟩
      · obtain ⟨hseen, before, later, rfl, hbefore⟩ := ih h
        obtain ⟨hne, hold⟩ := contains_insert_eq_false_iff.mp hseen
        exact ⟨hold, x :: before, later, rfl, List.forall_mem_cons.mpr ⟨fun hid => hne hid.symm, hbefore⟩⟩

theorem mem_of_mem_unseen (h : e ∈ unseen seen edges) : e ∈ edges := by
  obtain ⟨-, before, later, rfl, -⟩ := first_of_mem_unseen h
  simp

/-- An edge with each identifier is kept. -/
theorem exists_mem_unseen (hseen : seen.contains e.id = false) (h : e ∈ edges) :
    ∃ x ∈ unseen seen edges, x.id = e.id := by
  induction edges generalizing seen with
  | nil => cases h
  | cons x rest ih =>
    unfold unseen
    by_cases hid : x.id = e.id
    · refine ⟨x, ?_, hid⟩
      rw [hid, hseen, if_neg (by simp)]
      exact List.mem_cons_self
    · have hrest : e ∈ rest := (List.mem_cons.mp h).resolve_left fun he => hid (congrArg Edge.id he.symm)
      cases hx : seen.contains x.id with
      | true =>
        rw [if_pos rfl]
        exact ih hseen hrest
      | false =>
        rw [if_neg (by simp)]
        obtain ⟨y, hy, hye⟩ := ih (contains_insert_eq_false_iff.mpr ⟨Ne.symm hid, hseen⟩) hrest
        exact ⟨y, List.mem_cons_of_mem x hy, hye⟩

end Unseen

/-- The two nodes that an edge connects. -/
def Edge.ends (e : Edge) : String × String := (e.source, e.target)

/-- When edges have texts of their ends as identifiers, and all texts of some pairs are there, then all of the pairs are
connected exactly when no two of them have the same text. -/
theorem all_connected_iff {edges : List Edge} {text : String × String → String} {pairs : Set (String × String)}
    (hnodup : (edges.map Edge.id).Nodup) (hid : ∀ e ∈ edges, e.id = text e.ends) (hsub : ∀ e ∈ edges, e.ends ∈ pairs)
    (hkept : ∀ ends ∈ pairs, ∃ e ∈ edges, text e.ends = text ends) :
    (∀ ends ∈ pairs, ∃ e ∈ edges, e.ends = ends) ↔ pairs.InjOn text := by
  constructor
  · -- two pairs of one text are connected by the same edge
    intro hall ends hends ends' hends' hsame
    obtain ⟨e, he, rfl⟩ := hall ends hends
    obtain ⟨e', he', rfl⟩ := hall ends' hends'
    have hsameId : e.id = e'.id := by rw [hid e he, hid e' he', hsame]
    exact congrArg Edge.ends (List.inj_on_of_nodup_map hnodup he he' hsameId)
  · intro hinj ends hends
    obtain ⟨e, he, hsame⟩ := hkept ends hends
    exact ⟨e, he, hinj (hsub e he) hends hsame⟩

/-- The calls of a graph. -/
def calls (g : Graph) : List Edge := g.edges.toList.filter (·.kind = .calls)

/-- The pairs of nodes that a graph's calls connect. -/
def calledPairs (g : Graph) : Set (String × String) := {ends | ∃ e ∈ g.calls, e.ends = ends}

/-- The pairs of nodes that some calls connect when they are resolved on a graph. -/
def resolvedPairs (g : Graph) (calls : List Facts.Call) : Set (String × String) :=
  {ends | ∃ c ∈ calls, g.Resolves c ends}

theorem mem_calledPairs {g : Graph} {ends : String × String} : ends ∈ g.calledPairs ↔ ends ∈ g.calls.map Edge.ends :=
  List.mem_map.symm

/-- What is true of the calls of a graph when they stem from the calls of some facts, resolved on the nodes of another
graph. -/
structure Connects (nodes : Graph) (calls : List Facts.Call) (g : Graph) : Prop where
  /-- A call of the graph is there for the first call that resolves to its ends, and has this one's weight. -/
  stems : ∀ e ∈ g.calls, ∃ before c later, calls = before ++ c :: later ∧ nodes.Resolves c e.ends ∧
    (∀ b ∈ before, ∀ ends, nodes.Resolves b ends → callId ends ≠ callId e.ends) ∧
    e.weight = if c.level = .high then 1.0 else 0.6
  /-- Two nodes are connected by one call at most. -/
  once : (g.calls.map Edge.ends).Nodup
  /-- A call that is resolved is there, or there is one with the same text. -/
  kept : ∀ c ∈ calls, ∀ ends, nodes.Resolves c ends → ∃ e ∈ g.calls, callId e.ends = callId ends
  /-- All are there exactly when no two pairs have the same text. -/
  complete_iff : g.calledPairs = nodes.resolvedPairs calls ↔ (nodes.resolvedPairs calls).InjOn callId

section Built

variable {report : Report} {facts : Facts} {g nodes : Graph}

theorem callEdge?_of_mem {calls : List Facts.Call} {e : Edge} (h : e ∈ calls.filterMap nodes.callEdge?) :
    e.kind = .calls ∧ e.id = callId e.ends := by
  obtain ⟨c, -, hc⟩ := List.mem_filterMap.mp h
  obtain ⟨ends, -, rfl⟩ := callEdge?_eq_some_iff.mp hc
  exact ⟨rfl, rfl⟩

/-- The calls of a built graph are the edges of the resolved calls, the first of each identifier, in order. -/
theorem calls_build (h : build report facts = .ok g) : ∃ nodes, ofEntities report = .ok nodes ∧
    (g.calls.map Edge.id).Nodup ∧ g.calls = unseen {} (facts.calls.filterMap nodes.callEdge?) := by
  obtain ⟨nodes, attempts, others, hentities, rfl, -, hedges, hothers⟩ := build_ok h
  refine ⟨nodes, hentities, (consistent_built attempts).edgeIds_nodup.sublist (List.filter_sublist.map _), ?_⟩
  obtain ⟨seen, happend⟩ := unseen_append {} (facts.calls.filterMap nodes.callEdge?) others
  have hcalls : ∀ e ∈ unseen {} (facts.calls.filterMap nodes.callEdge?), e.kind = .calls :=
    fun e he => (callEdge?_of_mem (mem_of_mem_unseen he)).1
  have hnone : (unseen seen others).filter (·.kind = .calls) = [] :=
    List.filter_eq_nil_iff.mpr fun e he => by simpa using hothers e (mem_of_mem_unseen he)
  rw [calls, edges_built, hedges, happend, List.filter_append, hnone, List.append_nil]
  exact List.filter_eq_self.mpr fun e he => by simpa using hcalls e he

/-- A kept edge is that of the first call that resolves to a pair of its text. -/
theorem stems_of_mem_unseen {calls : List Facts.Call} {e : Edge}
    (h : e ∈ unseen {} (calls.filterMap nodes.callEdge?)) :
    ∃ before c later, calls = before ++ c :: later ∧ nodes.Resolves c e.ends ∧
      (∀ b ∈ before, ∀ ends, nodes.Resolves b ends → callId ends ≠ callId e.ends) ∧
      e.weight = if c.level = .high then 1.0 else 0.6 := by
  obtain ⟨-, before, later, heq, hbefore⟩ := first_of_mem_unseen h
  obtain ⟨past, rest, hsplit, hpast, hrest⟩ := List.filterMap_eq_append_iff.mp heq
  obtain ⟨skipped, c, rest, rfl, hskipped, hc, -⟩ := List.filterMap_eq_cons_iff.mp hrest
  obtain ⟨ends, hends, rfl⟩ := callEdge?_eq_some_iff.mp hc
  refine ⟨past ++ skipped, c, rest, by rw [hsplit, List.append_assoc], hends, ?_, by simp [callEdge, callWeight]⟩
  intro b hb other hother
  have hb' : nodes.callEdge? b = some (callEdge b other) := callEdge?_eq_some_iff.mpr ⟨other, hother, rfl⟩
  rcases List.mem_append.mp hb with hb | hb
  · exact hbefore (callEdge b other) (hpast ▸ List.mem_filterMap.mpr ⟨b, hb, hb'⟩)
  · rw [hskipped b hb] at hb'
    cases hb'

/-- For a resolved call an edge with its text is kept. -/
theorem exists_mem_unseen_of_resolves {calls : List Facts.Call} {c : Facts.Call} {ends : String × String}
    (hc : c ∈ calls) (hends : nodes.Resolves c ends) :
    ∃ e ∈ unseen {} (calls.filterMap nodes.callEdge?), callId e.ends = callId ends := by
  have hmem : callEdge c ends ∈ calls.filterMap nodes.callEdge? :=
    List.mem_filterMap.mpr ⟨c, hc, callEdge?_eq_some_iff.mpr ⟨ends, hends, rfl⟩⟩
  have hnew : ({} : Std.TreeSet String).contains (callEdge c ends).id = false := by simp
  obtain ⟨e, he, hsame⟩ := exists_mem_unseen hnew hmem
  exact ⟨e, he, (callEdge?_of_mem (mem_of_mem_unseen he)).2.symm.trans hsame⟩

theorem connects_build (h : build report facts = .ok g) :
    ∃ nodes, ofEntities report = .ok nodes ∧ Connects nodes facts.calls g := by
  obtain ⟨nodes, hentities, hnodup, hcalls⟩ := calls_build h
  have hid : ∀ e ∈ g.calls, e.id = callId e.ends := by
    intro e he
    rw [hcalls] at he
    exact (callEdge?_of_mem (mem_of_mem_unseen he)).2
  have hids : (g.calls.map Edge.ends).map callId = g.calls.map Edge.id := by
    rw [List.map_map]
    exact List.map_congr_left fun e he => (hid e he).symm
  have hsub : ∀ e ∈ g.calls, e.ends ∈ nodes.resolvedPairs facts.calls := by
    intro e he
    obtain ⟨before, c, later, heq, hc, -⟩ := stems_of_mem_unseen (hcalls ▸ he)
    exact ⟨c, by rw [heq]; simp, hc⟩
  have hkept : ∀ c ∈ facts.calls, ∀ ends, nodes.Resolves c ends → ∃ e ∈ g.calls, callId e.ends = callId ends :=
    fun c hc ends hends => hcalls ▸ exists_mem_unseen_of_resolves hc hends
  have hsubset : g.calledPairs ⊆ nodes.resolvedPairs facts.calls := by
    rintro _ ⟨e, he, rfl⟩
    exact hsub e he
  refine ⟨nodes, hentities, fun e he => stems_of_mem_unseen (hcalls ▸ he), .of_map callId (hids ▸ hnodup), hkept, ?_⟩
  rw [Set.Subset.antisymm_iff, and_iff_right hsubset]
  apply all_connected_iff hnodup hid hsub
  rintro ends ⟨c, hc, hends⟩
  exact hkept c hc ends hends

end Built

section Plain

variable {report : Report} {facts : Facts} {nodes : Graph}

theorem mem_of_innermost? {candidates : List Node} {n : Node} (h : innermost? candidates = some n) :
    n ∈ candidates := by
  induction candidates with
  | nil => cases h
  | cons m rest ih =>
    unfold innermost? at h
    cases hrest : innermost? rest with
    | none =>
      rw [hrest] at h
      cases h
      exact List.mem_cons_self
    | some k =>
      rw [hrest] at h
      dsimp only at h
      split at h
      · cases h
        exact List.mem_cons_self
      · exact List.mem_cons_of_mem m (ih (hrest.trans h))

/-- The caller of a resolved call is an entity of code. -/
theorem exists_entity_of_resolves (hnodes : ofEntities report = .ok nodes) {c : Facts.Call} {ends : String × String}
    (h : nodes.Resolves c ends) : ∃ e ∈ report.entities, e.kind.isCode ∧ e.id = ends.1 := by
  obtain ⟨hbuilt, haccepted⟩ := ofEntities_ok hnodes
  obtain ⟨n, hn, hid⟩ := Option.map_eq_some_iff.mp h.1
  have hmem : n ∈ (nodes.nodesInFile c.file).filter (·.isCode) := by
    rcases Option.or_eq_some_iff.mp hn with hn | ⟨-, hn⟩
    · exact (List.mem_filter.mp (mem_of_innermost? hn)).1
    · exact List.mem_of_head? hn
  obtain ⟨hfile, hcode⟩ := List.mem_filter.mp hmem
  obtain ⟨id, -, hnode⟩ := List.mem_filterMap.mp hfile
  rw [hbuilt, node?_built, filterMap_validNode?_of_accepted haccepted] at hnode
  obtain ⟨e, he, rfl⟩ := List.mem_map.mp (mem_of_latest? hnode).1
  exact ⟨e, he, hcode, hid⟩

/-- A file and a name without colons can be read off a text that they begin, and so can the rest. -/
theorem eq_of_joined_eq {f f' n n' t t' : String} (sep : List Char) (hf : ':' ∉ f.toList) (hf' : ':' ∉ f'.toList)
    (hn : ':' ∉ n.toList) (hn' : ':' ∉ n'.toList)
    (h : f.toList ++ ':' :: (sep ++ (n.toList ++ ':' :: t.toList)) =
      f'.toList ++ ':' :: (sep ++ (n'.toList ++ ':' :: t'.toList))) : f = f' ∧ n = n' ∧ t = t' := by
  obtain ⟨hfile, hrest⟩ := eq_and_eq_of_append_cons_eq hf hf' h
  obtain ⟨hname, htarget⟩ := eq_and_eq_of_append_cons_eq hn hn' (List.append_cancel_left hrest)
  exact ⟨String.toList_inj.mp hfile, String.toList_inj.mp hname, String.toList_inj.mp htarget⟩

theorem callId_inj {f f' n n' t t' : String} (hf : ':' ∉ f.toList) (hf' : ':' ∉ f'.toList)
    (hn : ':' ∉ n.toList) (hn' : ':' ∉ n'.toList)
    (h : callId (entityId f n, t) = callId (entityId f' n', t')) : (entityId f n, t) = (entityId f' n', t') := by
  obtain ⟨rfl, rfl, rfl⟩ := eq_of_joined_eq [':'] hf hf' hn hn'
    (by simpa [callId, entityId] using congrArg String.toList h)
  rfl

/-- Pairs of nodes of code without colons have different texts. -/
theorem injOn_callId_of_plain (hnodes : ofEntities report = .ok nodes)
    (hplain : ∀ e ∈ report.entities, e.kind.isCode → ':' ∉ e.file.toList ∧ ':' ∉ e.name.toList) :
    (nodes.resolvedPairs facts.calls).InjOn callId := by
  rintro ⟨s, t⟩ ⟨c, -, hc⟩ ⟨s', t'⟩ ⟨c', -, hc'⟩ hsame
  obtain ⟨e, he, hcode, rfl⟩ := exists_entity_of_resolves hnodes hc
  obtain ⟨e', he', hcode', rfl⟩ := exists_entity_of_resolves hnodes hc'
  obtain ⟨hfile, hname⟩ := hplain e he hcode
  obtain ⟨hfile', hname'⟩ := hplain e' he' hcode'
  exact callId_inj hfile hfile' hname hname' hsame

end Plain

end Graph

/-- The calls of a graph that is built are those of the facts that can be resolved on the graph of the entities, each
pair of nodes once and with the weight of its first call. They are all there exactly when no two of the pairs have the
same text, and so always when no name and no file of the code has a colon. -/
theorem Atlas.calls_resolved {project : String} {report : Report} {facts : Facts} {findings : Findings} {atlas : Atlas}
    (h : Atlas.build project report facts findings = .ok atlas) :
    ∃ nodes, Graph.ofEntities report = .ok nodes ∧ nodes.Connects facts.calls atlas.graph ∧
      ((∀ e ∈ report.entities, e.kind.isCode → ':' ∉ e.file.toList ∧ ':' ∉ e.name.toList) →
        atlas.graph.calledPairs = nodes.resolvedPairs facts.calls) := by
  obtain ⟨g, hbuild, hatlas⟩ := Graph.exists_of_bind_ok h
  cases hatlas
  obtain ⟨nodes, hnodes, hconnects⟩ := Graph.connects_build hbuild
  exact ⟨nodes, hnodes, hconnects, fun hplain =>
    hconnects.complete_iff.mpr (Graph.injOn_callId_of_plain hnodes hplain)⟩

/-- A caller, and a callee that it calls twice, the second time less surely. -/
def Facts.twoCalls : Facts where
  definitions := [⟨"checkout", .function, "cart.py", 1, 20, "python", none, none⟩,
    ⟨"total", .function, "cart.py", 22, 30, "python", none, none⟩]
  calls := [⟨"cart.py", 5, "total", none, .high⟩, ⟨"cart.py", 9, "total", none, .medium⟩]

theorem Atlas.calls_resolved_sample : ∃ atlas nodes,
    Atlas.build "shop" (.reconcile .twoCalls .empty) .twoCalls .empty = .ok atlas ∧
      Graph.ofEntities (.reconcile .twoCalls .empty) = .ok nodes ∧
      nodes.Connects Facts.twoCalls.calls atlas.graph ∧
      atlas.graph.calledPairs = nodes.resolvedPairs Facts.twoCalls.calls ∧
      atlas.graph.calls.map Graph.Edge.ends = [("cart.py::checkout", "cart.py::total")] := by
  obtain ⟨atlas, hbuild, hends⟩ := Graph.exists_of_map_eq_some (f := fun a : Atlas => a.graph.calls.map Graph.Edge.ends)
    (x := Atlas.build "shop" (.reconcile .twoCalls .empty) .twoCalls .empty)
    (b := [("cart.py::checkout", "cart.py::total")]) (by decide +kernel)
  obtain ⟨nodes, hnodes, hconnects, hplain⟩ := Atlas.calls_resolved hbuild
  exact ⟨atlas, nodes, hbuild, hnodes, hconnects, hplain (by decide +kernel), hends⟩

/-- Two calls between different nodes. The text of both is `call:app.py::run:jobs:core::queue::push`. -/
def Facts.ambiguous : Facts where
  definitions := [⟨"run", .function, "app.py", 1, 5, "python", none, none⟩,
    ⟨"run:jobs", .function, "app.py", 6, 10, "python", none, none⟩,
    ⟨"queue::push", .function, "jobs:core", 1, 2, "python", none, none⟩,
    ⟨"push", .function, "core::queue", 1, 2, "python", none, none⟩]
  calls := [⟨"app.py", 2, "queue::push", none, .high⟩, ⟨"app.py", 7, "push", none, .high⟩]

/-- The second call is resolved on the graph of the entities, and the graph does not connect its ends. -/
theorem Atlas.call_lost : ∃ atlas nodes,
    Atlas.build "shop" (.reconcile .ambiguous .empty) .ambiguous .empty = .ok atlas ∧
      Graph.ofEntities (.reconcile .ambiguous .empty) = .ok nodes ∧
      ("app.py::run:jobs", "core::queue::push") ∈ nodes.resolvedPairs Facts.ambiguous.calls ∧
      ("app.py::run:jobs", "core::queue::push") ∉ atlas.graph.calledPairs := by
  obtain ⟨atlas, hbuild, hends⟩ := Graph.exists_of_map_eq_some (f := fun a : Atlas => a.graph.calls.map Graph.Edge.ends)
    (x := Atlas.build "shop" (.reconcile .ambiguous .empty) .ambiguous .empty)
    (b := [("app.py::run", "jobs:core::queue::push")]) (by decide +kernel)
  obtain ⟨nodes, hnodes, hresolves⟩ := Graph.exists_of_map_eq_some
    (f := fun g : Graph => Facts.ambiguous.calls.map fun c => (g.resolveCaller c, g.resolveCallee c))
    (x := Graph.ofEntities (.reconcile .ambiguous .empty))
    (b := [(some "app.py::run", some "jobs:core::queue::push"), (some "app.py::run:jobs", some "core::queue::push")])
    (by decide +kernel)
  refine ⟨atlas, nodes, hbuild, hnodes, ?_, ?_⟩
  · simp only [Facts.ambiguous, List.map_cons, List.cons.injEq, Prod.mk.injEq] at hresolves
    exact ⟨_, .tail _ (.head _), hresolves.2.1⟩
  · rw [Graph.mem_calledPairs, hends]
    simp

end CodeAtlas
