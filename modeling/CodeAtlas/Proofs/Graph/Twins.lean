import CodeAtlas.Proofs.Graph.Filed
import CodeAtlas.Proofs.Graph.Survival

/-! Builds from the same facts and from entities in different orders. The scanner's entities come first and in the same
order; those of rules follow, in any. Nothing that a build looks up tells the orders apart, but for the first node of
a file without definitions, which an import starts from; so both builds take the same steps. -/
namespace CodeAtlas
namespace Graph

/-- Whether two computations are refused for the same reason, or both come to an end, with related results. -/
inductive SameOutcome {ε α β : Type} (R : α → β → Prop) : Except ε α → Except ε β → Prop where
  | error (e : ε) : SameOutcome R (.error e) (.error e)
  | ok {a : α} {b : β} (h : R a b) : SameOutcome R (.ok a) (.ok b)

namespace SameOutcome

variable {ε α α' β β' γ : Type} {R : α → β → Prop} {R' : α' → β' → Prop}

theorem bind {x : Except ε α} {y : Except ε β} {f : α → Except ε α'} {f' : β → Except ε β'} (h : SameOutcome R x y)
    (hf : ∀ a b, R a b → SameOutcome R' (f a) (f' b)) : SameOutcome R' (x >>= f) (y >>= f') := by
  cases h with
  | error e => exact .error e
  | ok h => exact hf _ _ h

/-- What each step of two loops keeps, the loops keep. -/
theorem foldlM {R : List γ → α → β → Prop} {xs : List γ} {f : α → γ → Except ε α} {f' : β → γ → Except ε β} {a : α}
    {b : β} (nil : R [] a b)
    (step : ∀ done x a b, (∀ y ∈ done, y ∈ xs) → x ∈ xs → R done a b → SameOutcome (R (done ++ [x])) (f a x) (f' b x)) :
    SameOutcome (R xs) (xs.foldlM f a) (xs.foldlM f' b) := by
  induction xs using List.reverseRecOn with
  | nil => exact .ok nil
  | append_singleton before x ih =>
    rw [List.foldlM_append, List.foldlM_append]
    have hbefore := ih fun done y a b hdone hy =>
      step done y a b (fun z hz => List.mem_append_left _ (hdone z hz)) (List.mem_append_left _ hy)
    refine hbefore.bind fun a b h => ?_
    have hlast := step before x a b (fun y hy => List.mem_append_left _ hy) (by simp) h
    simpa using hlast

end SameOutcome

/-- Whether nodes with one identifier are of one file. -/
def OneFileEach (nodes : List Node) : Prop := ∀ n ∈ nodes, ∀ m ∈ nodes, n.id = m.id → n.file = m.file

theorem OneFileEach.subset {nodes some : List Node} (h : OneFileEach nodes) (hsub : some ⊆ nodes) : OneFileEach some :=
  fun n hn m hm => h n (hsub hn) m (hsub hm)

/-- When no path has a colon, an identifier tells the file. -/
theorem oneFileEach_of_plainFiles {facts : Facts} {findings : Findings} (h : Report.PlainFiles facts findings) :
    OneFileEach (nodesOf (.reconcile facts findings) facts) := by
  have hplain : ∀ n ∈ nodesOf (.reconcile facts findings) facts,
      ':' ∉ n.file.toList ∧ ∃ name, n.id = entityId n.file name := by
    intro n hn
    rcases List.mem_append.mp hn with hn | hn
    · obtain ⟨v, hv, rfl⟩ := List.mem_map.mp hn
      exact ⟨Report.plain_of_mem h hv, v.name, rfl⟩
    · rcases List.mem_append.mp hn with hn | hn
      · obtain ⟨e, he, rfl⟩ := List.mem_map.mp hn
        exact ⟨h.endpoints e he, _, rfl⟩
      · obtain ⟨s, hs, rfl⟩ := List.mem_map.mp hn
        exact ⟨h.schemas s hs, _, rfl⟩
  intro n hn m hm hid
  obtain ⟨hfile, name, hname⟩ := hplain n hn
  obtain ⟨hfile', name', hname'⟩ := hplain m hm
  rw [hname, hname'] at hid
  exact (entityId_inj hfile hfile' hid).1

section Lookups

variable {nodes : List Node} {g : Graph} (hg : Filed nodes g)

include hg

/-- What is found under the identifiers of nodes are nodes of these identifiers and files. -/
theorem Filed.map_filterMap_node? (hfiles : OneFileEach nodes) {some : List Node} (hsub : some ⊆ nodes) :
    ((some.map Node.id).filterMap g.node?).map (fun n => (n.id, n.file)) = some.map fun n => (n.id, n.file) := by
  induction some with
  | nil => rfl
  | cons n rest ih =>
    obtain ⟨m, hm, hid, hlatest⟩ := exists_latest? (hsub (.head _))
    have hfile := hfiles m hm n (hsub (.head _)) hid
    rw [List.map_cons, List.filterMap_cons_some (hg.node? n.id ▸ hlatest), List.map_cons,
      ih fun x hx => hsub (.tail _ hx), List.map_cons, hid, hfile]

/-- The first node of a file. -/
theorem Filed.head?_nodesInFile (hfiles : OneFileEach nodes) (file : String) :
    (g.nodesInFile file).head?.map Node.id = (nodes.find? (·.file == file)).map Node.id := by
  have hsub : (firstNodes nodes).filter (·.file == file) ⊆ nodes :=
    List.Subset.trans (List.filter_subset_self _) (firstNodes_subset nodes)
  have hids := congrArg (List.map Prod.fst) (hg.map_filterMap_node? hfiles hsub)
  simp only [List.map_map, Function.comp_def] at hids
  rw [nodesInFile, nodesAt, hg.inFile, ← List.head?_map, hids, List.head?_map, List.head?_filter,
    find?_firstNodes fun n hn m hm hid => by rw [hfiles n hn m hm hid]]

/-- The first node of a name in a file. -/
theorem Filed.find?_nodesNamed (hfiles : OneFileEach nodes) (name file : String) :
    ((g.nodesNamed name).find? (·.file == file)).map Node.id =
      ((firstNodes nodes).find? fun n => n.name == name && n.file == file).map Node.id := by
  have hsub : (firstNodes nodes).filter (·.name == name) ⊆ nodes :=
    List.Subset.trans (List.filter_subset_self _) (firstNodes_subset nodes)
  have hpairs := congrArg (fun pairs => (pairs.find? fun p : String × String => p.2 == file).map Prod.fst)
    (hg.map_filterMap_node? hfiles hsub)
  simp only [List.find?_map, Option.map_map, Function.comp_def] at hpairs
  rw [nodesNamed, nodesAt, hg.named, hpairs, List.find?_filter]
  simp only [Bool.decide_and, Bool.decide_eq_true]

end Lookups

/-- Entities of the scanner with entities of rules behind them: an identifier is made of a file and a name, none is of
both kinds, and those of rules are no code. -/
structure Behind (found ruled : List Node) : Prop where
  id_eq : ∀ n ∈ found ++ ruled, n.id = entityId n.file n.name
  apart : ∀ n ∈ found, ∀ m ∈ ruled, m.id ≠ n.id
  isRule : ∀ n ∈ ruled, n.kind = .businessRule

section Behind

variable {found ruled ruled' others : List Node} {g g' : Graph}

/-- The code that is filed under a key is the scanner's. -/
theorem Behind.filter_isCode (h : Behind found ruled) (hg : Filed (found ++ ruled) g) (test : Node → Bool) :
    ((((firstNodes (found ++ ruled)).filter test).map Node.id).filterMap g.node?).filter (·.isCode) =
      ((((firstNodes found).filter test).map Node.id).filterMap (latest? found)).filter (·.isCode) := by
  have hfound : ∀ ms : List Node, ms ⊆ found →
      (ms.map Node.id).filterMap g.node? = (ms.map Node.id).filterMap (latest? found) := by
    intro ms hms
    refine List.filterMap_congr fun id hid => ?_
    obtain ⟨n, hn, rfl⟩ := List.mem_map.mp hid
    have hnone : latest? ruled n.id = none := latest?_eq_none_iff.mpr fun m hm => h.apart n (hms hn) m hm
    rw [hg.node?, latest?_append, hnone, Option.none_or]
  have hruled : ∀ ms : List Node, ms ⊆ ruled → ((ms.map Node.id).filterMap g.node?).filter (·.isCode) = [] := by
    intro ms hms
    refine List.filter_eq_nil_iff.mpr fun m hm => ?_
    obtain ⟨id, hid, hnode⟩ := List.mem_filterMap.mp hm
    obtain ⟨n, hn, rfl⟩ := List.mem_map.mp hid
    rw [hg.node?] at hnode
    obtain ⟨hmem, hsame⟩ := mem_of_latest? hnode
    have hrule : m ∈ ruled := (List.mem_append.mp hmem).resolve_left fun hm => h.apart m hm n (hms hn) hsame.symm
    rw [Node.isCode, h.isRule m hrule]
    decide
  rw [firstNodes_append, List.filter_append, List.map_append, List.filterMap_append, List.filter_append,
    hruled _ (fun n hn => firstNodes_subset ruled (List.mem_filter.mp (List.mem_filter.mp hn).1).1), List.append_nil,
    hfound _ fun n hn => firstNodes_subset found (List.mem_filter.mp hn).1]

/-- Calls are resolved without the rules. -/
theorem Behind.callEdge?_eq (h : Behind found ruled) (h' : Behind found ruled') (hg : Filed (found ++ ruled) g)
    (hg' : Filed (found ++ ruled') g') (c : Facts.Call) : g'.callEdge? c = g.callEdge? c := by
  have hfile (file : String) : (g'.nodesInFile file).filter (·.isCode) = (g.nodesInFile file).filter (·.isCode) := by
    rw [nodesInFile, nodesAt, hg'.inFile, h'.filter_isCode hg', nodesInFile, nodesAt, hg.inFile, h.filter_isCode hg]
  have hname (name : String) : (g'.nodesNamed name).filter (·.isCode) = (g.nodesNamed name).filter (·.isCode) := by
    rw [nodesNamed, nodesAt, hg'.named, h'.filter_isCode hg', nodesNamed, nodesAt, hg.named, h.filter_isCode hg]
  have hcaller : g'.resolveCaller c = g.resolveCaller c := by rw [resolveCaller, hfile, resolveCaller]
  have hcallee : g'.resolveCallee c = g.resolveCallee c := by
    simp only [resolveCallee, ← List.head?_filter (p := Node.isCode), hname]
  rw [callEdge?, callEdge?, hcaller, hcallee]

/-- What is found first of things that a test leaves indistinguishable does not depend on their order. -/
theorem map_find?_of_perm {β γ : Type} {xs ys : List β} {test : β → Bool} {f : β → γ} (hperm : ys.Perm xs)
    (h : ∀ x ∈ xs, ∀ y ∈ xs, test x = true → test y = true → f x = f y) :
    (ys.find? test).map f = (xs.find? test).map f := by
  cases hx : xs.find? test with
  | none =>
    have hnone : ys.find? test = none :=
      List.find?_eq_none.mpr fun y hy => List.find?_eq_none.mp hx y (hperm.subset hy)
    rw [hnone]
  | some x =>
    have hmem := List.mem_of_find?_eq_some hx
    cases hy : ys.find? test with
    | none => exact absurd (List.find?_some hx) (List.find?_eq_none.mp hy x (hperm.symm.subset hmem))
    | some y =>
      have hymem := hperm.subset (List.mem_of_find?_eq_some hy)
      exact congrArg some (h y hymem x hmem (List.find?_some hy) (List.find?_some hx))

theorem Behind.name_eq (h : Behind found ruled) {n m : Node} (hn : n ∈ found ++ ruled) (hm : m ∈ found ++ ruled)
    (hid : n.id = m.id) (hfile : n.file = m.file) : n.name = m.name := by
  rw [h.id_eq n hn, h.id_eq m hm, hfile, entityId, entityId] at hid
  exact (String.append_right_inj _).mp hid

/-- A handler is found whatever the order of the rules. -/
theorem Behind.find?_firstNodes_eq (h : Behind found ruled) (h' : Behind found ruled') (hperm : ruled'.Perm ruled)
    (hfiles : OneFileEach (found ++ ruled)) (name file : String) :
    ((firstNodes (found ++ ruled' ++ others)).find? fun n => n.name == name && n.file == file).map Node.id =
      ((firstNodes (found ++ ruled ++ others)).find? fun n => n.name == name && n.file == file).map Node.id := by
  have hall : (found ++ ruled').Perm (found ++ ruled) := hperm.append_left found
  have htest {ruled : List Node} (h : Behind found ruled) (hfiles : OneFileEach (found ++ ruled)) :
      ∀ n ∈ found ++ ruled, ∀ m ∈ found ++ ruled, n.id = m.id →
        (n.name == name && n.file == file) = (m.name == name && m.file == file) := by
    intro n hn m hm hid
    have hfile := hfiles n hn m hm hid
    rw [h.name_eq hn hm hid hfile, hfile]
  -- of rules, all of one name and file have one identifier
  have hruled : (ruled'.find? fun n => n.name == name && n.file == file).map Node.id =
      (ruled.find? fun n => n.name == name && n.file == file).map Node.id := by
    refine map_find?_of_perm hperm fun n hn m hm htn htm => ?_
    simp only [Bool.and_eq_true, beq_iff_eq] at htn htm
    rw [h.id_eq n (List.mem_append_right _ hn), h.id_eq m (List.mem_append_right _ hm), htn.1, htn.2, htm.1, htm.2]
  have hany (id : String) : (found ++ ruled').any (·.id == id) = (found ++ ruled).any (·.id == id) := hall.any_eq
  rw [firstNodes_append, firstNodes_append (found ++ ruled), List.find?_append, List.find?_append,
    find?_firstNodes (htest h' (hfiles.subset hall.subset)), find?_firstNodes (htest h hfiles), List.find?_append,
    List.find?_append]
  simp only [hany, Option.map_or, hruled]

end Behind

/-- Graphs with the same edges, filed in the same way, over nodes that may have come in different orders. -/
structure Twins (nodes nodes' : List Node) (g g' : Graph) : Prop where
  filed : Filed nodes g
  filed' : Filed nodes' g'
  edges : g'.edges = g.edges
  edgeIds : g'.edgeIds = g.edgeIds
  outgoing : g'.outgoingIndex = g.outgoingIndex

namespace Twins

variable {nodes nodes' : List Node} {g g' : Graph}

theorem link (h : Twins nodes nodes' g g') (e : Edge) : SameOutcome (Twins nodes nodes') (g.link e) (g'.link e) := by
  unfold Graph.link addEdge
  rw [h.edgeIds]
  cases e.refusal? with
  | some refusal => exact .error refusal
  | none =>
    dsimp only
    split
    · exact .ok h
    · refine .ok ⟨h.filed.insertEdge e, h.filed'.insertEdge e, ?_, ?_, ?_⟩
      · exact congrArg (Array.push · e) h.edges
      · exact congrArg (Std.TreeSet.insert · e.id) h.edgeIds
      · exact congrArg₂ (fun index edges => Index.file index e.source (Array.size edges)) h.outgoing h.edges

theorem addNode (h : Twins nodes nodes' g g') (n : Node) :
    SameOutcome (Twins (nodes ++ [n]) (nodes' ++ [n])) (g.addNode n) (g'.addNode n) := by
  unfold Graph.addNode
  cases n.refusal? with
  | some refusal => exact .error refusal
  | none =>
    obtain ⟨hedges, hids, hout, -⟩ := insertNode_edges g n
    obtain ⟨hedges', hids', hout', -⟩ := insertNode_edges g' n
    exact .ok ⟨h.filed.insertNode n, h.filed'.insertNode n, hedges'.trans (h.edges.trans hedges.symm),
      hids'.trans (h.edgeIds.trans hids.symm), hout'.trans (h.outgoing.trans hout.symm)⟩

theorem imports (h : Twins nodes nodes' g g') (hfiles : OneFileEach nodes) (hfiles' : OneFileEach nodes')
    {imports : List Facts.Import} (hfirst : ∀ i ∈ imports,
      (nodes'.find? (·.file == i.file)).map Node.id = (nodes.find? (·.file == i.file)).map Node.id) :
    SameOutcome (Twins nodes nodes') (imports.foldlM addImport g) (imports.foldlM addImport g') := by
  refine SameOutcome.foldlM (R := fun _ => Twins nodes nodes') h fun done i g g' _ hi h => ?_
  have hsource : (g'.nodesInFile i.file).head?.map Node.id = (g.nodesInFile i.file).head?.map Node.id := by
    rw [h.filed'.head?_nodesInFile hfiles', h.filed.head?_nodesInFile hfiles, hfirst i hi]
  unfold addImport
  rw [hsource]
  exact h.link _

theorem schemas (h : Twins nodes nodes' g g') (all schemas : List Facts.Schema) :
    SameOutcome (Twins (nodes ++ schemas.map schemaNode) (nodes' ++ schemas.map schemaNode))
      (schemas.foldlM (addSchema all) g) (schemas.foldlM (addSchema all) g') := by
  refine SameOutcome.foldlM
    (R := fun done => Twins (nodes ++ done.map schemaNode) (nodes' ++ done.map schemaNode)) (by simpa using h) ?_
  intro done s g g' _ _ h
  rw [List.map_append, List.map_singleton, ← List.append_assoc, ← List.append_assoc]
  exact (h.addNode _).bind fun g g' h => SameOutcome.foldlM (R := fun _ => Twins _ _) h fun _ r g g' _ _ h => h.link _

section Rules

variable {found ruled ruled' : List Node} (hbehind : Behind found ruled) (hbehind' : Behind found ruled')
  (h : Twins (found ++ ruled) (found ++ ruled') g g')

include hbehind hbehind' h

theorem calls (calls : List Facts.Call) :
    SameOutcome (Twins (found ++ ruled) (found ++ ruled')) (calls.foldlM addCall g) (calls.foldlM addCall g') := by
  refine SameOutcome.foldlM (R := fun _ => Twins (found ++ ruled) (found ++ ruled')) h fun done c g g' _ _ h => ?_
  rw [addCall_eq, addCall_eq, hbehind.callEdge?_eq hbehind' h.filed h.filed']
  cases g.callEdge? c with
  | none => exact .ok h
  | some e => exact h.link e

theorem endpoints (hperm : ruled'.Perm ruled) {endpoints : List Facts.Endpoint}
    (hfiles : OneFileEach (found ++ ruled ++ endpoints.map endpointNode)) :
    SameOutcome (Twins (found ++ ruled ++ endpoints.map endpointNode) (found ++ ruled' ++ endpoints.map endpointNode))
      (endpoints.foldlM addEndpoint g) (endpoints.foldlM addEndpoint g') := by
  refine SameOutcome.foldlM (R := fun done =>
    Twins (found ++ ruled ++ done.map endpointNode) (found ++ ruled' ++ done.map endpointNode)) (by simpa using h) ?_
  intro done e g g' hdone _ h
  have hsub : found ++ ruled ++ done.map endpointNode ⊆ found ++ ruled ++ endpoints.map endpointNode :=
    List.append_subset.mpr ⟨List.subset_append_left _ _, List.subset_append_of_subset_right _ (List.map_subset _ hdone)⟩
  have hsub' : found ++ ruled' ++ done.map endpointNode ⊆ found ++ ruled ++ done.map endpointNode :=
    ((hperm.append_left found).append_right _).subset
  have hlookup (name : String) : ((g'.nodesNamed name).find? (·.file == e.file)).map Node.id =
      ((g.nodesNamed name).find? (·.file == e.file)).map Node.id := by
    rw [h.filed'.find?_nodesNamed (hfiles.subset (List.Subset.trans hsub' hsub)), h.filed.find?_nodesNamed (hfiles.subset hsub),
      hbehind.find?_firstNodes_eq hbehind' hperm (hfiles.subset (List.subset_append_left _ _))]
  have hhandler : (e.handler.bind fun name => (g'.nodesNamed name).find? (·.file == e.file)).map Node.id =
      (e.handler.bind fun name => (g.nodesNamed name).find? (·.file == e.file)).map Node.id := by
    cases e.handler with
    | none => rfl
    | some name => exact hlookup name
  rw [List.map_append, List.map_singleton, ← List.append_assoc, ← List.append_assoc]
  unfold addEndpoint
  refine (h.addNode _).bind fun g₁ g₁' h => ?_
  generalize (e.handler.bind fun name => (g.nodesNamed name).find? (·.file == e.file)) = handler at hhandler ⊢
  generalize (e.handler.bind fun name => (g'.nodesNamed name).find? (·.file == e.file)) = handler' at hhandler ⊢
  cases handler with
  | none =>
    obtain rfl := Option.map_eq_none_iff.mp hhandler
    exact .ok h
  | some n =>
    obtain ⟨n', rfl, hid⟩ := Option.map_eq_some_iff.mp hhandler
    dsimp only
    rw [hid]
    exact h.link _

end Rules

end Twins

section Entities

variable {nodes ns : List Node} {g : Graph}

theorem foldlM_addNode (h : ∀ n ∈ ns, n.refusal? = none) (g : Graph) :
    ns.foldlM Graph.addNode g = .ok (ns.foldl insertNode g) := by
  induction ns generalizing g with
  | nil => rfl
  | cons n rest ih =>
    have hn : g.addNode n = .ok (g.insertNode n) := by rw [Graph.addNode, h n (.head _)]
    rw [List.foldlM_cons, hn]
    exact ih (fun m hm => h m (.tail _ hm)) _

theorem filed_foldl_insertNode (h : Filed nodes g) (ns : List Node) : Filed (nodes ++ ns) (ns.foldl insertNode g) := by
  induction ns generalizing nodes g with
  | nil => simpa using h
  | cons n rest ih => simpa using ih (h.insertNode n)

theorem foldl_insertNode_edges (ns : List Node) (g : Graph) : (ns.foldl insertNode g).edges = g.edges ∧
    (ns.foldl insertNode g).edgeIds = g.edgeIds ∧ (ns.foldl insertNode g).outgoingIndex = g.outgoingIndex := by
  induction ns generalizing g with
  | nil => exact ⟨rfl, rfl, rfl⟩
  | cons n rest ih =>
    obtain ⟨hedges, hids, hout⟩ := ih (g.insertNode n)
    obtain ⟨hedges', hids', hout', -⟩ := insertNode_edges g n
    exact ⟨hedges.trans hedges', hids.trans hids', hout.trans hout'⟩

/-- Builds on reports whose entities of rules come in different orders. -/
theorem build_twins {report report' : Report} {facts : Facts} {found ruled ruled' : List Node}
    (hreport : report.entities.map Report.Entity.toNode = found ++ ruled)
    (hreport' : report'.entities.map Report.Entity.toNode = found ++ ruled')
    (hbehind : Behind found ruled) (hbehind' : Behind found ruled') (hperm : ruled'.Perm ruled)
    (hvalid : ∀ n ∈ ruled, n.refusal? = none) (hfiles : OneFileEach (found ++ ruled ++ otherNodes facts))
    (hfirst : ∀ i ∈ facts.imports, ((found ++ ruled').find? (·.file == i.file)).map Node.id =
      ((found ++ ruled).find? (·.file == i.file)).map Node.id) :
    SameOutcome (Twins (found ++ ruled ++ otherNodes facts) (found ++ ruled' ++ otherNodes facts))
      (build report facts) (build report' facts) := by
  have hentities : SameOutcome (Twins (found ++ ruled) (found ++ ruled'))
      (report.entities.foldlM (fun g e => g.addNode e.toNode) empty)
      (report'.entities.foldlM (fun g e => g.addNode e.toNode) empty) := by
    have hmap (entities : List Report.Entity) : entities.foldlM (fun g e => g.addNode e.toNode) empty =
        (entities.map Report.Entity.toNode).foldlM Graph.addNode empty := (List.foldlM_map ..).symm
    rw [hmap, hmap, hreport, hreport', List.foldlM_append, List.foldlM_append]
    have hfound : SameOutcome (Twins found found) (found.foldlM Graph.addNode empty)
        (found.foldlM Graph.addNode empty) :=
      SameOutcome.foldlM (R := fun done => Twins done done) ⟨.empty, .empty, rfl, rfl, rfl⟩
        fun done n g g' _ _ h => h.addNode n
    refine hfound.bind fun g g' h => ?_
    rw [foldlM_addNode hvalid, foldlM_addNode fun n hn => hvalid n (hperm.subset hn)]
    obtain ⟨hedges, hids, hout⟩ := foldl_insertNode_edges ruled g
    obtain ⟨hedges', hids', hout'⟩ := foldl_insertNode_edges ruled' g'
    exact .ok ⟨filed_foldl_insertNode h.filed ruled, filed_foldl_insertNode h.filed' ruled',
      hedges'.trans (h.edges.trans hedges.symm), hids'.trans (h.edgeIds.trans hids.symm),
      hout'.trans (h.outgoing.trans hout.symm)⟩
  have hsub : found ++ ruled ++ facts.endpoints.map endpointNode ⊆ found ++ ruled ++ otherNodes facts :=
    List.append_subset.mpr ⟨List.subset_append_left _ _,
      List.subset_append_of_subset_right _ (List.subset_append_left _ _)⟩
  have hentitiesFiles : OneFileEach (found ++ ruled) := hfiles.subset (List.subset_append_left _ _)
  unfold build
  refine hentities.bind fun g g' h => (h.calls hbehind hbehind' facts.calls).bind fun g g' h => ?_
  refine (h.imports hentitiesFiles (hentitiesFiles.subset (hperm.append_left found).subset) hfirst).bind
    fun g g' h => (h.endpoints hbehind hbehind' hperm (hfiles.subset hsub)).bind fun g g' h => ?_
  have hschemas := h.schemas facts.schemas facts.schemas
  rwa [List.append_assoc, List.append_assoc (found ++ ruled')] at hschemas

end Entities

section Answers

variable {g g' : Graph} (hnode : ∀ id, g'.node? id = g.node? id) (hedges : g'.edges = g.edges)
  (hout : g'.outgoingIndex = g.outgoingIndex)

include hnode

theorem sortedNodes_eq : g'.sortedNodes = g.sortedNodes :=
  (Std.TreeMap.Equiv.of_forall_constGet?_eq hnode).values_eq

include hedges hout

/-- A walk along the calls sees the nodes and the edges alone. -/
theorem callees_eq (id : String) (depth : Nat) : g'.callees id depth = g.callees id depth := by
  have hnext (id : String) : g'.callNeighbours .callees id = g.callNeighbours .callees id := by
    simp only [callNeighbours, outgoing, edgesAt, hedges, hout]
  have hmeet : Walk.meet g' = Walk.meet g := by
    funext start maxDepth depth w id
    simp only [Walk.meet, hnode]
  have hrun (w : Walk) : w.run g' .callees id depth = w.run g .callees id depth := by
    induction w using Walk.run.induct g .callees id depth with
    | case1 w h ih =>
      rw [Walk.run, Walk.run, dif_pos h, dif_pos h, ← ih]
      simp only [Walk.follow, hnext, hmeet]
    | case2 w h => rw [Walk.run, Walk.run, dif_neg h, dif_neg h]
  rw [callees, callees, walk, walk, hrun]

theorem workflowOf?_eq (n : Node) : Reasoning.workflowOf? g' n = Reasoning.workflowOf? g n := by
  rw [Reasoning.workflowOf?, Reasoning.workflowOf?, callees_eq hnode hedges hout]

end Answers

end Graph
end CodeAtlas
