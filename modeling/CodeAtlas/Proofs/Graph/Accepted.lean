import CodeAtlas.Proofs.Graph.Resolution
import CodeAtlas.Proofs.Graph.Calls
import CodeAtlas.Proofs.Graph.Survival

/-! When a build comes to its end. Every node and edge that a pass inserts has an identifier that cannot be empty, a
confidence or a weight within its bounds, and ends that are stored or named; what is left to be refused are the names that
come from outside. So each pass comes to its end exactly when it accepts every one of its elements
(`exists_foldlM_ok_iff`), and the passes over calls and endpoints accept all. -/
namespace CodeAtlas
namespace Graph

section Steps

theorem exists_bind_ok_iff {α β ε : Type} {x : Except ε α} {f : α → Except ε β} :
    (∃ b, x >>= f = .ok b) ↔ ∃ a, x = .ok a ∧ ∃ b, f a = .ok b := by
  constructor
  · rintro ⟨b, hb⟩
    obtain ⟨a, ha, hf⟩ := exists_of_bind_ok hb
    exact ⟨a, ha, b, hf⟩
  · rintro ⟨a, rfl, b, hb⟩
    exact ⟨b, hb⟩

theorem exists_bind_ok_iff_of_ok {α β ε : Type} {x : Except ε α} {f : α → Except ε β} {a : α} (h : x = .ok a) :
    (∃ b, x >>= f = .ok b) ↔ ∃ b, f a = .ok b := by
  rw [h]
  rfl

/-- A loop whose steps keep a property, and come to an end on what is accepted, comes to its end exactly when all is
accepted. -/
theorem exists_foldlM_ok_iff {α β ε : Type} {f : β → α → Except ε β} (keeps : β → Prop) (accepts : α → Prop)
    (hstep : ∀ b x, keeps b → ((∃ b', f b x = .ok b') ↔ accepts x))
    (hkeeps : ∀ b x b', keeps b → f b x = .ok b' → keeps b') (xs : List α) {b : β} (hb : keeps b) :
    ((∃ b', xs.foldlM f b = .ok b') ↔ ∀ x ∈ xs, accepts x) ∧ ∀ b', xs.foldlM f b = .ok b' → keeps b' := by
  induction xs generalizing b with
  | nil => exact ⟨iff_of_true ⟨b, rfl⟩ (by simp), fun b' h => by cases h; exact hb⟩
  | cons x xs ih =>
    rw [List.foldlM_cons, exists_bind_ok_iff, List.forall_mem_cons, ← hstep b x hb]
    refine ⟨⟨?_, ?_⟩, ?_⟩
    · rintro ⟨a, ha, hrest⟩
      exact ⟨⟨a, ha⟩, (ih (hkeeps b x a hb ha)).1.mp hrest⟩
    · rintro ⟨⟨a, ha⟩, hrest⟩
      exact ⟨a, ha, (ih (hkeeps b x a hb ha)).1.mpr hrest⟩
    · intro b' h
      obtain ⟨a, ha, hrest⟩ := exists_of_bind_ok h
      exact (ih (hkeeps b x a hb ha)).2 b' hrest

end Steps

section Inserted

variable {g g' : Graph} {n : Node} {e : Edge}

theorem Consistent.after (h : g.Consistent) (attempts : List Insertion) : (g.after attempts).Consistent := by
  induction attempts generalizing g with
  | nil => exact h
  | cons i rest ih => exact ih (h.perform i)

theorem Consistent.of_adds {nodes : List Node} (h : g.Consistent) (hadds : Adds nodes g g') : g'.Consistent := by
  obtain ⟨attempts, rfl, -, -⟩ := hadds
  exact h.after attempts

theorem Consistent.of_link (h : g.Consistent) (hlink : g.link e = .ok g') : g'.Consistent := by
  obtain ⟨-, rfl⟩ := link_ok hlink
  exact h.after _

theorem exists_addNode_ok_iff : (∃ g', g.addNode n = .ok g') ↔ n.refusal? = none := by
  constructor
  · rintro ⟨g', h⟩
    exact (addNode_ok h).1
  · intro h
    exact ⟨g.insertNode n, by simp [addNode, h]⟩

theorem exists_link_ok_iff : (∃ g', g.link e = .ok g') ↔ e.refusal? = none := by
  constructor
  · rintro ⟨g', h⟩
    exact (link_ok h).1
  · intro h
    by_cases hold : g.edgeIds.contains e.id = true
    · exact ⟨g, by simp [link, addEdge, h, hold, Except.map]⟩
    · exact ⟨g.insertEdge e, by simp [link, addEdge, h, hold, Except.map]⟩

theorem entityId_ne_empty (file name : String) : entityId file name ≠ "" := by simp [entityId]

/-- The scores that nodes are given. -/
def scores : List Float :=
  [Confidence.crossValidated, Confidence.scannerOnly, Confidence.modelOnly, Confidence.declared]

theorem Node.accepted_iff (hscore : n.confidence.value ∈ scores) :
    n.refusal? = none ↔ n.id ≠ "" ∧ n.name ≠ "" := by
  have hbounds : ∀ score ∈ scores, 0.0 ≤ score ∧ score ≤ 1.0 := by decide +kernel
  rw [Node.refusal?_eq_none_iff]
  simp [hbounds n.confidence.value hscore]

theorem Edge.accepted_iff (hweight : e.weight = 1.0 ∨ e.weight = 0.6) :
    e.refusal? = none ↔ e.id ≠ "" ∧ e.source ≠ "" ∧ e.target ≠ "" := by
  have hbounds : e.weight.isFinite = true ∧ 0.0 ≤ e.weight := by
    rcases hweight with h | h
    · rw [h]
      decide +kernel
    · rw [h]
      decide +kernel
  rw [Edge.refusal?_eq_none_iff]
  simp [hbounds]

/-- Whatever is listed has an identifier. -/
theorem Consistent.id_ne_empty (h : g.Consistent) {index : Index String} {key : String} (hn : n ∈ g.nodesAt index key) :
    n.id ≠ "" := by
  obtain ⟨id, -, hnode⟩ := List.mem_filterMap.mp hn
  exact (n.refusal?_eq_none_iff.mp (h.node_accepted hnode)).1

theorem SameNodes.nodesInFile (h : SameNodes g g') (file : String) : g'.nodesInFile file = g.nodesInFile file := by
  have hnode : g'.node? = g.node? := funext fun id => congrArg (·[id]?) h.nodes
  rw [Graph.nodesInFile, Graph.nodesInFile, nodesAt, nodesAt, hnode, h.fileIndex]

end Inserted

section Passes

variable {g g' : Graph}

/-- The ends of a resolved call are stored nodes. -/
theorem Consistent.ends_ne_empty (h : g.Consistent) {c : Facts.Call} {ends : String × String} (hends : g.Resolves c ends) :
    ends.1 ≠ "" ∧ ends.2 ≠ "" := by
  constructor
  · obtain ⟨n, hn, hid⟩ := Option.map_eq_some_iff.mp hends.1
    have hlisted : n ∈ g.nodesInFile c.file := by
      rcases Option.or_eq_some_iff.mp hn with hn | ⟨-, hn⟩
      · exact List.mem_of_mem_filter (List.mem_of_mem_filter (mem_of_innermost? hn))
      · exact List.mem_of_mem_filter (List.mem_of_head? hn)
    rw [← hid]
    exact h.id_ne_empty hlisted
  · obtain ⟨n, hn, -⟩ := exists_code_of_resolveCallee hends.2 h
    rw [← h.id_of_node hn]
    exact (n.refusal?_eq_none_iff.mp (h.node_accepted hn)).1

theorem Consistent.exists_addCall_ok (h : g.Consistent) (c : Facts.Call) : ∃ g', g.addCall c = .ok g' := by
  rw [addCall_eq]
  cases hedge : g.callEdge? c with
  | none => exact ⟨g, rfl⟩
  | some e =>
    obtain ⟨ends, hends, rfl⟩ := callEdge?_eq_some_iff.mp hedge
    apply exists_link_ok_iff.mpr
    apply (Edge.accepted_iff _).mpr
    · exact ⟨by simp [callEdge, callId], h.ends_ne_empty hends⟩
    · cases hlevel : c.level <;> simp [callEdge, callWeight, hlevel]

theorem Consistent.of_addCall (h : g.Consistent) {c : Facts.Call} (hadd : g.addCall c = .ok g') :
    g'.Consistent ∧ SameNodes g g' := by
  rw [addCall_eq] at hadd
  cases hedge : g.callEdge? c with
  | none =>
    rw [hedge] at hadd
    cases hadd
    exact ⟨h, rfl, rfl, rfl⟩
  | some e =>
    rw [hedge] at hadd
    exact ⟨h.of_link hadd, sameNodes_link hadd⟩

theorem SameNodes.trans {g'' : Graph} (h : SameNodes g g') (h' : SameNodes g' g'') : SameNodes g g'' :=
  ⟨h'.nodes.trans h.nodes, h'.fileIndex.trans h.fileIndex, h'.nameIndex.trans h.nameIndex⟩

/-- An import is accepted when it has a target and something to start from. -/
theorem exists_addImport_ok_iff (h : g.Consistent) (i : Facts.Import) :
    (∃ g', g.addImport i = .ok g') ↔ i.target ≠ "" ∧ (i.file ≠ "" ∨ g.nodesInFile "" ≠ []) := by
  have hsource : ((g.nodesInFile i.file).head?.map (·.id)).getD i.file ≠ "" ↔ i.file ≠ "" ∨ g.nodesInFile "" ≠ [] := by
    cases hnodes : g.nodesInFile i.file with
    | nil =>
      by_cases hfile : i.file = ""
      · rw [hfile] at hnodes
        simp [hfile, hnodes]
      · simp [hfile]
    | cons n rest =>
      have hlisted : n ∈ g.nodesInFile i.file := hnodes ▸ List.mem_cons_self
      have hid : n.id ≠ "" := h.id_ne_empty hlisted
      by_cases hfile : i.file = ""
      · rw [hfile] at hnodes
        simp [hfile, hid, hnodes]
      · simp [hfile, hid]
  unfold addImport
  rw [exists_link_ok_iff, Edge.accepted_iff (.inl rfl), hsource]
  simp [and_comm]

theorem Consistent.exists_addEndpoint_ok (h : g.Consistent) (e : Facts.Endpoint) : ∃ g', g.addEndpoint e = .ok g' := by
  unfold addEndpoint
  have hnode : (endpointNode e).refusal? = none := by
    apply (Node.accepted_iff (by simp [endpointNode, scores])).mpr
    exact ⟨entityId_ne_empty _ _, by simp [endpointNode]⟩
  obtain ⟨added, hadd⟩ := (exists_addNode_ok_iff (g := g)).mpr hnode
  refine exists_bind_ok_iff.mpr ⟨added, hadd, ?_⟩
  cases hhandler : e.handler.bind fun name => (g.nodesNamed name).find? (·.file == e.file) with
  | none => exact ⟨added, rfl⟩
  | some n =>
    obtain ⟨name, -, hfound⟩ := Option.bind_eq_some_iff.mp hhandler
    apply exists_link_ok_iff.mpr
    apply (Edge.accepted_iff (.inl rfl)).mpr
    exact ⟨by simp, entityId_ne_empty _ _, h.id_ne_empty (List.mem_of_find?_eq_some hfound)⟩

theorem exists_addReference_ok (schemas : List Facts.Schema) (s : Facts.Schema) (g : Graph) (r : Facts.Relation) :
    ∃ g', addReference schemas s g r = .ok g' := by
  apply exists_link_ok_iff.mpr
  apply (Edge.accepted_iff (.inl rfl)).mpr
  refine ⟨by simp, entityId_ne_empty _ _, ?_⟩
  unfold referencedTable
  split
  · exact entityId_ne_empty _ _
  · exact entityId_ne_empty _ _

/-- A table is accepted when it has a name; what it refers to does not matter. -/
theorem exists_addSchema_ok_iff (schemas : List Facts.Schema) (s : Facts.Schema) :
    (∃ g', addSchema schemas g s = .ok g') ↔ s.name ≠ "" := by
  have hnode : (schemaNode s).refusal? = none ↔ s.name ≠ "" := by
    rw [Node.accepted_iff (by simp [schemaNode, scores])]
    exact and_iff_right (entityId_ne_empty _ _)
  have hrefs (added : Graph) : ∃ g', s.relations.foldlM (addReference schemas s) added = .ok g' := by
    apply (exists_foldlM_ok_iff (fun _ => True) (fun _ => True) ?_ ?_ s.relations trivial).1.mpr
    · exact fun _ _ => trivial
    · exact fun b r _ => iff_of_true (exists_addReference_ok schemas s b r) trivial
    · exact fun _ _ _ _ _ => trivial
  unfold addSchema
  rw [exists_bind_ok_iff, ← hnode, ← exists_addNode_ok_iff (g := g)]
  exact exists_congr fun added => and_iff_left (hrefs added)

theorem exists_ofEntities_ok_iff {report : Report} :
    (∃ g, ofEntities report = .ok g) ↔ ∀ v ∈ report.entities, v.toNode.refusal? = none :=
  (exists_foldlM_ok_iff (fun _ => True) (fun v : Report.Entity => v.toNode.refusal? = none)
    (fun _ _ _ => exists_addNode_ok_iff) (fun _ _ _ _ _ => trivial) report.entities trivial).1

theorem calls_accepted (h : g.Consistent) (calls : List Facts.Call) : (∃ g', calls.foldlM addCall g = .ok g') ∧
    ∀ g', calls.foldlM addCall g = .ok g' → g'.Consistent ∧ SameNodes g g' := by
  obtain ⟨hok, hkeeps⟩ := exists_foldlM_ok_iff
    (fun b => b.Consistent ∧ SameNodes g b) (fun _ : Facts.Call => True)
    (fun b c hb => iff_of_true (hb.1.exists_addCall_ok c) trivial)
    (fun b c b' hb hadd => (hb.1.of_addCall hadd).imp_right hb.2.trans) calls ⟨h, rfl, rfl, rfl⟩
  exact ⟨hok.mpr fun _ _ => trivial, hkeeps⟩

theorem imports_accepted (h : g.Consistent) (imports : List Facts.Import) :
    ((∃ g', imports.foldlM addImport g = .ok g') ↔
      ∀ i ∈ imports, i.target ≠ "" ∧ (i.file ≠ "" ∨ g.nodesInFile "" ≠ [])) ∧
    ∀ g', imports.foldlM addImport g = .ok g' → g'.Consistent := by
  obtain ⟨hok, hkeeps⟩ := exists_foldlM_ok_iff
    (fun b => b.Consistent ∧ SameNodes g b)
    (fun i : Facts.Import => i.target ≠ "" ∧ (i.file ≠ "" ∨ g.nodesInFile "" ≠ []))
    (fun b i hb => hb.2.nodesInFile "" ▸ exists_addImport_ok_iff hb.1 i)
    (fun b i b' hb hadd => ⟨hb.1.of_adds (adds_addImport hadd), hb.2.trans (sameNodes_link hadd)⟩)
    imports ⟨h, rfl, rfl, rfl⟩
  exact ⟨hok, fun g' hg' => (hkeeps g' hg').1⟩

theorem endpoints_accepted (h : g.Consistent) (endpoints : List Facts.Endpoint) :
    ∃ g', endpoints.foldlM addEndpoint g = .ok g' := by
  obtain ⟨hok, -⟩ := exists_foldlM_ok_iff Consistent (fun _ : Facts.Endpoint => True)
    (fun b e hb => iff_of_true (hb.exists_addEndpoint_ok e) trivial)
    (fun b e b' hb hadd => hb.of_adds (adds_addEndpoint hadd)) endpoints h
  exact hok.mpr fun _ _ => trivial

theorem schemas_accepted (all schemas : List Facts.Schema) (g : Graph) :
    (∃ g', schemas.foldlM (addSchema all) g = .ok g') ↔ ∀ s ∈ schemas, s.name ≠ "" :=
  (exists_foldlM_ok_iff (fun _ => True) (fun s : Facts.Schema => s.name ≠ "")
    (fun _ s _ => exists_addSchema_ok_iff all s) (fun _ _ _ _ _ => trivial) schemas trivial).1

/-- A build comes to its end exactly when the passes over entities, imports and tables accept all of theirs. What imports
may start from is settled by the entities, since calls leave the nodes as they are. -/
theorem exists_build_ok_iff {report : Report} {facts : Facts} : (∃ g, build report facts = .ok g) ↔
    ∃ g, ofEntities report = .ok g ∧
      (∀ i ∈ facts.imports, i.target ≠ "" ∧ (i.file ≠ "" ∨ g.nodesInFile "" ≠ [])) ∧
      ∀ s ∈ facts.schemas, s.name ≠ "" := by
  refine exists_bind_ok_iff.trans (exists_congr fun g => and_congr_right fun hentities => ?_)
  have hg : g.Consistent := by
    rw [(ofEntities_ok hentities).1]
    exact consistent_built _
  obtain ⟨hcalls, hafterCalls⟩ := calls_accepted hg facts.calls
  obtain ⟨g₁, hg₁⟩ := hcalls
  obtain ⟨hconsistent, hsame⟩ := hafterCalls g₁ hg₁
  obtain ⟨himports, hafterImports⟩ := imports_accepted hconsistent facts.imports
  rw [hsame.nodesInFile] at himports
  rw [exists_bind_ok_iff_of_ok hg₁, exists_bind_ok_iff, ← himports, ← exists_and_right]
  refine exists_congr fun g₂ => and_congr_right fun hg₂ => ?_
  obtain ⟨g₃, hg₃⟩ := endpoints_accepted (hafterImports g₂ hg₂) facts.endpoints
  rw [exists_bind_ok_iff_of_ok hg₃, schemas_accepted]

end Passes

section Listed

variable {report : Report} {g : Graph} {file : String}

/-- Something is listed under a file when the first entity of some identifier is of that file. -/
theorem nodesInFile_ne_nil_iff (h : ofEntities report = .ok g) :
    g.nodesInFile file ≠ [] ↔ ∃ n ∈ firstNodes (report.entities.map Report.Entity.toNode), n.file = file := by
  obtain ⟨rfl, haccepted⟩ := ofEntities_ok h
  obtain ⟨hfiled, -⟩ := filed_built (report.entities.map fun e => .node e.toNode)
  rw [filterMap_validNode?_of_accepted haccepted] at hfiled
  have hids := hfiled.map_id_nodesAt (consistent_built _) (hfiled.inFile file)
  rw [hfiled.inFile] at hids
  have hnil : (built (report.entities.map fun e => .node e.toNode)).nodesInFile file = [] ↔
      (firstNodes (report.entities.map Report.Entity.toNode)).filter (·.file == file) = [] := by
    rw [← List.map_eq_nil_iff (f := Node.id), ← List.map_eq_nil_iff (f := Node.id) (l := List.filter _ _), ← hids]
    rfl
  rw [ne_eq, hnil, List.filter_eq_nil_iff]
  simp

/-- Which nodes come first depends on their identifiers alone. -/
theorem exists_firstNodes_map {α : Type} (f f' : α → Node) (hid : ∀ x, (f' x).id = (f x).id)
    (hfile : ∀ x, (f' x).file = (f x).file) {xs : List α} (h : ∃ n ∈ firstNodes (xs.map f), n.file = file) :
    ∃ n ∈ firstNodes (xs.map f'), n.file = file := by
  obtain ⟨n, hn, hnfile⟩ := h
  rw [mem_firstNodes_iff, first?, List.find?_map, Option.map_eq_some_iff] at hn
  obtain ⟨x, hx, rfl⟩ := hn
  refine ⟨f' x, ?_, (hfile x).trans hnfile⟩
  rw [mem_firstNodes_iff, first?, List.find?_map, Option.map_eq_some_iff]
  refine ⟨x, ?_, rfl⟩
  rw [← hx]
  congr 1
  funext y
  simp [hid]

end Listed

end Graph

section Reconciled

variable {facts : Facts} {findings : Findings}

theorem Report.score_of_mem {v : Report.Entity} (hv : v ∈ (Report.reconcile facts findings).entities) :
    v.confidence.value ∈ Graph.scores := by
  obtain ⟨d, -, rfl⟩ | ⟨r, -, -, rfl⟩ := Report.mem_entities_iff.mp hv
  · unfold Report.ofDefinition Report.definitionConfidence
    split <;> simp [Graph.scores]
  · simp [Report.ofRule, Graph.scores]

/-- What names a rule that enters is not blank, so only definitions can be without a name. -/
theorem Report.accepted_iff (facts : Facts) (findings : Findings) :
    (∀ v ∈ (Report.reconcile facts findings).entities, v.toNode.refusal? = none) ↔ ∀ d ∈ facts.definitions, d.name ≠ "" := by
  have hnode : ∀ v ∈ (Report.reconcile facts findings).entities, v.toNode.refusal? = none ↔ v.name ≠ "" := by
    intro v hv
    rw [Graph.Node.accepted_iff (n := v.toNode) (Report.score_of_mem hv)]
    exact and_iff_right (Graph.entityId_ne_empty _ _)
  constructor
  · intro h d hd
    obtain ⟨e, he, hname, -⟩ := Report.exists_mem_firsts.mpr ⟨d, hd, rfl, rfl⟩
    have hv := Report.mem_entities_iff.mpr (.inl ⟨e, he, rfl⟩ : _ ∨ ∃ r ∈ findings.rules, _)
    rw [← hname]
    exact (hnode _ hv).mp (h _ hv)
  · intro h v hv
    rw [hnode v hv]
    obtain ⟨d, hd, rfl⟩ | ⟨r, -, henters, rfl⟩ := Report.mem_entities_iff.mp hv
    · exact h d (Report.mem_of_mem_firsts hd)
    · intro hempty
      have hblank := henters.1
      have hname : String.ofList (r.text.toList.take 80) = "" := hempty
      rw [hname] at hblank
      exact absurd hblank (by decide)

end Reconciled

/-- The definitions, imports and tables of some facts alone, without calls, endpoints and what the tables refer to. -/
def Facts.bare (facts : Facts) : Facts where
  definitions := facts.definitions
  imports := facts.imports
  schemas := facts.schemas.map fun s => { s with relations := [] }

theorem Atlas.exists_build_iff {project : String} {report : Report} {facts : Facts} {findings : Findings} :
    (∃ atlas, Atlas.build project report facts findings = .ok atlas) ↔ ∃ g, Graph.build report facts = .ok g := by
  refine Graph.exists_bind_ok_iff.trans (exists_congr fun g => and_iff_left ⟨_, rfl⟩)

/-- The findings of a model add to what is listed under a file. -/
theorem Report.exists_listed_of_bare {facts : Facts} {findings : Findings} {file : String} {g : Graph}
    (hnamed : ∀ d ∈ facts.definitions, d.name ≠ "") (h : Graph.ofEntities (.reconcile facts.bare .empty) = .ok g)
    (hlisted : g.nodesInFile file ≠ []) :
    ∃ g', Graph.ofEntities (.reconcile facts findings) = .ok g' ∧ g'.nodesInFile file ≠ [] := by
  obtain ⟨g', hg'⟩ := Graph.exists_ofEntities_ok_iff.mpr ((Report.accepted_iff facts findings).mpr hnamed)
  refine ⟨g', hg', (Graph.nodesInFile_ne_nil_iff hg').mpr ?_⟩
  have hbare := (Graph.nodesInFile_ne_nil_iff h).mp hlisted
  rw [Report.reconcile_eq] at hbare ⊢
  simp only [foundIn, ruledIn, Findings.empty, List.filter_nil, List.map_nil, List.append_nil, List.map_append,
    List.map_map] at hbare ⊢
  obtain ⟨n, hn, hfile⟩ := Graph.exists_firstNodes_map (Entity.toNode ∘ ofDefinition (mentions (speaking [])))
    (Entity.toNode ∘ ofDefinition (mentions (speaking findings.narratives))) (fun _ => rfl) (fun _ => rfl) hbare
  exact ⟨n, Graph.firstNodes_append _ _ ▸ List.mem_append_left _ hn, hfile⟩

/-- What a build needs of the facts. -/
structure Facts.Buildable (facts : Facts) (findings : Findings) : Prop where
  definitions : ∀ d ∈ facts.definitions, d.name ≠ ""
  /-- An import starts from its file, or else from what is listed under the empty path when the entities are in. -/
  imports : ∀ i ∈ facts.imports, i.target ≠ "" ∧ (i.file ≠ "" ∨
    ∃ g, Graph.ofEntities (.reconcile facts findings) = .ok g ∧ g.nodesInFile "" ≠ [])
  schemas : ∀ s ∈ facts.schemas, s.name ≠ ""

theorem Facts.buildable_iff {facts : Facts} {findings : Findings} :
    facts.Buildable findings ↔ ∃ g, Graph.build (.reconcile facts findings) facts = .ok g := by
  rw [Graph.exists_build_ok_iff]
  constructor
  · rintro ⟨hdefinitions, himports, hschemas⟩
    obtain ⟨g, hg⟩ := Graph.exists_ofEntities_ok_iff.mpr ((Report.accepted_iff facts findings).mpr hdefinitions)
    refine ⟨g, hg, fun i hi => ⟨(himports i hi).1, (himports i hi).2.imp_right ?_⟩, hschemas⟩
    rintro ⟨g', hg', hlisted⟩
    rwa [Except.ok.inj (hg.symm.trans hg')]
  · rintro ⟨g, hg, himports, hschemas⟩
    refine ⟨(Report.accepted_iff facts findings).mp (Graph.exists_ofEntities_ok_iff.mp ⟨g, hg⟩), fun i hi => ?_, hschemas⟩
    exact ⟨(himports i hi).1, (himports i hi).2.imp_right fun hlisted => ⟨g, hg, hlisted⟩⟩

/-- A build comes to its end exactly when each definition has a name, each import has a target, and a file or something
else to start from, and each table has a name. Calls, endpoints, what tables refer to and what a model found never end
it. -/
theorem Atlas.build_ok_iff (project : String) (facts : Facts) (findings : Findings) :
    ((∃ atlas, Atlas.build project (.reconcile facts findings) facts findings = .ok atlas) ↔
      facts.Buildable findings) ∧
    ((∃ atlas, Atlas.build project (.reconcile facts.bare .empty) facts.bare .empty = .ok atlas) →
      ∃ atlas, Atlas.build project (.reconcile facts findings) facts findings = .ok atlas) := by
  rw [Atlas.exists_build_iff, Atlas.exists_build_iff, ← Facts.buildable_iff, ← Facts.buildable_iff]
  refine ⟨Iff.rfl, ?_⟩
  rintro ⟨hdefinitions, himports, hschemas⟩
  refine ⟨hdefinitions, fun i hi => ⟨(himports i hi).1, (himports i hi).2.imp_right ?_⟩, fun s hs => ?_⟩
  · rintro ⟨g, hg, hlisted⟩
    exact Report.exists_listed_of_bare hdefinitions hg hlisted
  · exact hschemas { s with relations := [] } (List.mem_map_of_mem hs)

/-- An import in the empty path, where a function is, beside a call, an endpoint and a table that refers to no table. -/
def Facts.nameless (definition : String) : Facts where
  definitions := [⟨definition, .function, "", 1, 9, "python", none, none⟩]
  calls := [⟨"", 2, "print", none, .high⟩]
  imports := [⟨"", "requests", 1⟩]
  schemas := [⟨"orders", "cart.py", 60, "sql", [], [⟨"users", "foreign_key"⟩]⟩]
  endpoints := [⟨"GET", "", "", 50, none⟩]

theorem Atlas.build_ok_iff_nameless :
    (∃ atlas, Atlas.build "shop" (.reconcile (.nameless "total") .statedOnce) (.nameless "total") .statedOnce = .ok atlas) ∧
      ¬ ∃ atlas, Atlas.build "shop" (.reconcile (.nameless "") .statedOnce) (.nameless "") .statedOnce = .ok atlas := by
  constructor
  · apply (Atlas.build_ok_iff "shop" (.nameless "total") .statedOnce).2
    obtain ⟨atlas, hbuild, -⟩ := Graph.exists_of_map_eq_some (f := fun _ : Atlas => ()) (b := ())
      (x := Atlas.build "shop" (.reconcile (Facts.nameless "total").bare .empty) (Facts.nameless "total").bare .empty)
      (by decide +kernel)
    exact ⟨atlas, hbuild⟩
  · rw [(Atlas.build_ok_iff "shop" (.nameless "") .statedOnce).1]
    intro h
    exact absurd (h.definitions _ List.mem_cons_self) (by simp)

end CodeAtlas
