import CodeAtlas.Proofs.Graph.Calls
import CodeAtlas.Proofs.Graph.Survival

/-! What tables refer to. A name means the table that was declared last under it, in whatever file, so a reference stays
in its file only when no later table of another file has the name. Each reference has an edge with its text; as the text
joins two identifiers by the sign that they are made of, two references of different tables may have the same one, and
then only the first has an edge of its own. -/
namespace CodeAtlas

/-- What the tables refer to, with the tables that do. -/
def Facts.references (facts : Facts) : List (Facts.Schema × Facts.Relation) :=
  facts.schemas.flatMap fun s => s.relations.map fun r => (s, r)

namespace Graph

/-- The two tables that a reference connects. -/
def referenceEnds (schemas : List Facts.Schema) (ref : Facts.Schema × Facts.Relation) : String × String :=
  (tableId ref.1.file ref.1.name, referencedTable schemas ref.1.file ref.2.target)

/-- The text that identifies the edge of a reference. -/
def referenceId (ends : String × String) : String := "schema_ref:" ++ ends.1 ++ ":" ++ ends.2

/-- The edge of a reference. -/
def referenceEdge (schemas : List Facts.Schema) (ref : Facts.Schema × Facts.Relation) : Edge where
  id := referenceId (referenceEnds schemas ref)
  source := (referenceEnds schemas ref).1
  target := (referenceEnds schemas ref).2
  kind := .references
  context := some ref.2.kind

/-- The references of a graph. -/
def references (g : Graph) : List Edge := g.edges.toList.filter (·.kind = .references)

/-- The table that was declared last under a name. -/
def DeclaredLast (schemas : List Facts.Schema) (name : String) (t : Facts.Schema) : Prop :=
  ∃ before later, schemas = before ++ t :: later ∧ t.name = name ∧ ∀ u ∈ later, u.name ≠ name

/-- Whether an identifier is that of a table of a graph. -/
def HasTable (g : Graph) (id : String) : Prop := ∃ n, g.node? id = some n ∧ n.kind = .table

/-- What is true of the references of a graph when they stem from the tables of some facts. -/
structure Refers (facts : Facts) (g : Graph) : Prop where
  /-- A reference of the graph is there for the first reference of the facts with its text. -/
  stems : ∀ e ∈ g.references, ∃ before ref later, facts.references = before ++ ref :: later ∧
    e = referenceEdge facts.schemas ref ∧
    ∀ b ∈ before, referenceId (referenceEnds facts.schemas b) ≠ referenceId (referenceEnds facts.schemas ref)
  /-- Each reference of the facts is there, or there is one with the same text. -/
  kept : ∀ ref ∈ facts.references, ∃ e ∈ g.references, referenceId e.ends = referenceId (referenceEnds facts.schemas ref)
  /-- All are there exactly when no two pairs of tables have the same text. -/
  complete_iff : (∀ ref ∈ facts.references, ∃ e ∈ g.references, e.ends = referenceEnds facts.schemas ref) ↔
    {ends | ∃ ref ∈ facts.references, referenceEnds facts.schemas ref = ends}.InjOn referenceId
  /-- What refers is a table of the graph. -/
  source : ∀ ref ∈ facts.references, g.HasTable (referenceEnds facts.schemas ref).1
  /-- A name that tables have means the one that was declared last, and this is a table of the graph. -/
  declared : ∀ ref ∈ facts.references, ref.2.target ∈ facts.schemas.map (·.name) →
    ∃ t, DeclaredLast facts.schemas ref.2.target t ∧ (referenceEnds facts.schemas ref).2 = tableId t.file t.name ∧
      g.HasTable (referenceEnds facts.schemas ref).2
  /-- A name that no table has means a table of the same file, whether or not it is there. -/
  undeclared : ∀ ref ∈ facts.references, ref.2.target ∉ facts.schemas.map (·.name) →
    (referenceEnds facts.schemas ref).2 = tableId ref.1.file ref.2.target
  /-- A reference stays in its file exactly when the table that was declared last under the name is in this file. -/
  stays_iff : ∀ ref ∈ facts.references, ∀ t, DeclaredLast facts.schemas ref.2.target t →
    ((referenceEnds facts.schemas ref).2 = tableId ref.1.file ref.2.target ↔ t.file = ref.1.file)

section Unseen

variable {seen seen' : Std.TreeSet String} {a b : List Edge}

theorem unseen_congr (h : ∀ e ∈ b, seen.contains e.id = seen'.contains e.id) : unseen seen b = unseen seen' b := by
  induction b generalizing seen seen' with
  | nil => rfl
  | cons x rest ih =>
    obtain ⟨hx, hrest⟩ := List.forall_mem_cons.mp h
    have hinsert : ∀ e ∈ rest, (seen.insert x.id).contains e.id = (seen'.insert x.id).contains e.id := by
      intro e he
      rw [Std.TreeSet.contains_insert, Std.TreeSet.contains_insert, hrest e he]
    unfold unseen
    rw [hx, ih hrest, ih hinsert]

/-- Edges that share no identifier with those before them are kept as if they stood alone. -/
theorem unseen_append_of_apart (h : ∀ x ∈ a, ∀ e ∈ b, x.id ≠ e.id) :
    unseen seen (a ++ b) = unseen seen a ++ unseen seen b := by
  induction a generalizing seen with
  | nil => rfl
  | cons x a ih =>
    obtain ⟨hx, ha⟩ := List.forall_mem_cons.mp h
    simp only [List.cons_append, unseen]
    by_cases hold : seen.contains x.id = true
    · rw [if_pos hold, if_pos hold, ih ha]
    · have hsame : unseen (seen.insert x.id) b = unseen seen b := by
        apply unseen_congr
        intro e he
        simp [Std.TreeSet.contains_insert, hx e he]
      rw [if_neg hold, if_neg hold, ih ha, hsame, List.cons_append]

end Unseen

section Passes

variable {g g' g'' : Graph} {e : Edge}

/-- Whether an edge is no reference, and has no text of one. -/
def Edge.Elsewhere (e : Edge) : Prop := e.kind ≠ .references ∧ ∀ ends, e.id ≠ referenceId ends

/-- Whether a graph comes of another one by attempts that add no references. -/
def AddsElsewhere (g g' : Graph) : Prop :=
  ∃ attempts, g' = g.after attempts ∧ ∀ e ∈ attempts.filterMap Insertion.validEdge?, e.Elsewhere

theorem AddsElsewhere.refl (g : Graph) : AddsElsewhere g g := ⟨[], rfl, by simp⟩

theorem AddsElsewhere.trans (h : AddsElsewhere g g') (h' : AddsElsewhere g' g'') : AddsElsewhere g g'' := by
  obtain ⟨a, rfl, ha⟩ := h
  obtain ⟨b, rfl, hb⟩ := h'
  refine ⟨a ++ b, (after_append g a b).symm, ?_⟩
  rw [List.filterMap_append]
  exact List.forall_mem_append.mpr ⟨ha, hb⟩

theorem AddsElsewhere.foldlM {α : Type} {f : Graph → α → Except Refusal Graph}
    (hstep : ∀ g x g', f g x = .ok g' → AddsElsewhere g g') {xs : List α} (h : xs.foldlM f g = .ok g') :
    AddsElsewhere g g' := by
  apply foldlM_ok_induction (motive := fun _ b => AddsElsewhere g b) (AddsElsewhere.refl g) ?_ h
  intro _ x b b' hb hx
  exact hb.trans (hstep b x b' hx)

theorem addsElsewhere_addNode {n : Node} (h : g.addNode n = .ok g') : AddsElsewhere g g' :=
  ⟨[.node n], (addNode_ok h).2, by simp [Insertion.validEdge?]⟩

theorem addsElsewhere_link (he : e.Elsewhere) (h : g.link e = .ok g') : AddsElsewhere g g' := by
  obtain ⟨hr, hg⟩ := link_ok h
  exact ⟨[.edge e], hg, by simpa [Insertion.validEdge?, hr] using he⟩

theorem addsElsewhere_addCall {c : Facts.Call} (h : g.addCall c = .ok g') : AddsElsewhere g g' := by
  rw [addCall_eq] at h
  cases hedge : g.callEdge? c with
  | none =>
    rw [hedge] at h
    cases h
    exact .refl g
  | some e =>
    rw [hedge] at h
    obtain ⟨ends, -, rfl⟩ := callEdge?_eq_some_iff.mp hedge
    apply addsElsewhere_link ⟨by simp [callEdge], fun ends' hid => ?_⟩ h
    have hlist := congrArg String.toList hid
    simp [callEdge, callId, referenceId] at hlist

theorem addsElsewhere_addImport {i : Facts.Import} (h : g.addImport i = .ok g') : AddsElsewhere g g' := by
  apply addsElsewhere_link ⟨by simp, fun ends hid => ?_⟩ h
  have hlist := congrArg String.toList hid
  simp [referenceId] at hlist

theorem addsElsewhere_addEndpoint {x : Facts.Endpoint} (h : g.addEndpoint x = .ok g') : AddsElsewhere g g' := by
  obtain ⟨added, hadd, hlink⟩ := exists_of_bind_ok h
  split at hlink
  · cases hlink
    exact addsElsewhere_addNode hadd
  · apply (addsElsewhere_addNode hadd).trans (addsElsewhere_link ⟨by simp, fun ends hid => ?_⟩ hlink)
    have hlist := congrArg String.toList hid
    simp [referenceId] at hlist

/-- What the pass over the tables inserts for a table: its node, and then its references. -/
def schemaInsertions (schemas : List Facts.Schema) (s : Facts.Schema) : List Insertion :=
  .node (schemaNode s) :: s.relations.map fun r => .edge (referenceEdge schemas (s, r))

theorem addReferences_ok {schemas : List Facts.Schema} {s : Facts.Schema} {relations : List Facts.Relation}
    (h : relations.foldlM (addReference schemas s) g = .ok g') :
    g' = g.after (relations.map fun r => .edge (referenceEdge schemas (s, r))) ∧
      ∀ r ∈ relations, (referenceEdge schemas (s, r)).refusal? = none := by
  refine foldlM_ok_induction (motive := fun done b =>
    b = g.after (done.map fun r => .edge (referenceEdge schemas (s, r))) ∧
      ∀ r ∈ done, (referenceEdge schemas (s, r)).refusal? = none) ⟨rfl, by simp⟩ ?_ h
  rintro done r b b' ⟨rfl, hvalid⟩ hadd
  obtain ⟨hr, rfl⟩ := link_ok (e := referenceEdge schemas (s, r)) hadd
  refine ⟨?_, List.forall_mem_append.mpr ⟨hvalid, by simpa using hr⟩⟩
  rw [List.map_append, after_append]
  rfl

theorem addSchema_ok {schemas : List Facts.Schema} {s : Facts.Schema} (h : addSchema schemas g s = .ok g') :
    g' = g.after (schemaInsertions schemas s) ∧ (schemaInsertions schemas s).filterMap Insertion.validEdge? =
      s.relations.map fun r => referenceEdge schemas (s, r) := by
  obtain ⟨added, hadd, hrefs⟩ := exists_of_bind_ok h
  obtain ⟨-, rfl⟩ := addNode_ok hadd
  obtain ⟨rfl, hvalid⟩ := addReferences_ok hrefs
  refine ⟨(after_append g [.node (schemaNode s)] _).symm, ?_⟩
  have hnode : Insertion.validEdge? (.node (schemaNode s)) = none := rfl
  rw [schemaInsertions, List.filterMap_cons_none hnode, List.filterMap_map, ← List.filterMap_eq_map]
  refine List.filterMap_congr fun r hr => ?_
  simp [Insertion.validEdge?, hvalid r hr]

theorem schemas_pass {all schemas : List Facts.Schema} (h : schemas.foldlM (addSchema all) g = .ok g') :
    g' = g.after (schemas.flatMap (schemaInsertions all)) ∧
      (schemas.flatMap (schemaInsertions all)).filterMap Insertion.validEdge? =
        schemas.flatMap fun s => s.relations.map fun r => referenceEdge all (s, r) := by
  refine foldlM_ok_induction (motive := fun done b => b = g.after (done.flatMap (schemaInsertions all)) ∧
    (done.flatMap (schemaInsertions all)).filterMap Insertion.validEdge? =
      done.flatMap fun s => s.relations.map fun r => referenceEdge all (s, r)) ⟨rfl, rfl⟩ ?_ h
  rintro done s b b' ⟨rfl, hedges⟩ hadd
  obtain ⟨rfl, hs⟩ := addSchema_ok hadd
  rw [List.flatMap_append, List.flatMap_append, List.flatMap_singleton, List.flatMap_singleton, List.filterMap_append,
    hedges, hs, after_append]
  exact ⟨rfl, rfl⟩

/-- The references of a built graph are the edges of the references of the facts, the first of each text, in order. -/
theorem references_build {report : Report} {facts : Facts} (h : build report facts = .ok g) :
    g.references = unseen {} (facts.references.map (referenceEdge facts.schemas)) := by
  obtain ⟨g₀, hentities, h⟩ := exists_of_bind_ok h
  obtain ⟨g₁, hcalls, h⟩ := exists_of_bind_ok h
  obtain ⟨g₂, himports, h⟩ := exists_of_bind_ok h
  obtain ⟨g₃, hendpoints, hschemas⟩ := exists_of_bind_ok h
  have h₀ : AddsElsewhere empty g₀ := AddsElsewhere.foldlM (fun _ _ _ => addsElsewhere_addNode) hentities
  have h₁ : AddsElsewhere g₀ g₁ := AddsElsewhere.foldlM (fun _ _ _ => addsElsewhere_addCall) hcalls
  have h₂ : AddsElsewhere g₁ g₂ := AddsElsewhere.foldlM (fun _ _ _ => addsElsewhere_addImport) himports
  have h₃ : AddsElsewhere g₂ g₃ := AddsElsewhere.foldlM (fun _ _ _ => addsElsewhere_addEndpoint) hendpoints
  obtain ⟨attempts, rfl, helsewhere⟩ := h₀.trans (h₁.trans (h₂.trans h₃))
  obtain ⟨rfl, hrefs⟩ := schemas_pass hschemas
  have hall : facts.schemas.flatMap (fun s => s.relations.map fun r => referenceEdge facts.schemas (s, r)) =
      facts.references.map (referenceEdge facts.schemas) := by
    simp [Facts.references, List.map_flatMap, Function.comp_def]
  have hedges := edges_built (attempts ++ facts.schemas.flatMap (schemaInsertions facts.schemas))
  rw [built_append, List.filterMap_append, hrefs, hall, unseen_append_of_apart ?apart] at hedges
  case apart =>
    rintro x hx e he
    obtain ⟨ref, -, rfl⟩ := List.mem_map.mp he
    exact (helsewhere x hx).2 _
  have hnone : (unseen {} (attempts.filterMap Insertion.validEdge?)).filter (·.kind = .references) = [] :=
    List.filter_eq_nil_iff.mpr fun e he => by simpa using (helsewhere e (mem_of_mem_unseen he)).1
  have hsome : ∀ e ∈ unseen {} (facts.references.map (referenceEdge facts.schemas)), e.kind = .references := by
    intro e he
    obtain ⟨ref, -, rfl⟩ := List.mem_map.mp (mem_of_mem_unseen he)
    rfl
  have hgraph : (empty.after attempts).after (facts.schemas.flatMap (schemaInsertions facts.schemas)) =
      (built attempts).after (facts.schemas.flatMap (schemaInsertions facts.schemas)) := rfl
  rw [references, hgraph, hedges, List.filter_append, hnone, List.nil_append]
  exact List.filter_eq_self.mpr fun e he => by simpa using hsome e he

end Passes

section Targets

variable {schemas : List Facts.Schema} {file name : String} {t : Facts.Schema}

theorem find?_reverse_eq_some_iff :
    schemas.reverse.find? (·.name == name) = some t ↔ DeclaredLast schemas name t := by
  rw [List.find?_eq_some_iff_append]
  constructor
  · rintro ⟨hname, later, before, heq, hlater⟩
    refine ⟨before.reverse, later.reverse, ?_, beq_iff_eq.mp hname, fun u hu => ?_⟩
    · rw [← List.reverse_reverse schemas, heq]
      simp
    · simpa using hlater u (List.mem_reverse.mp hu)
  · rintro ⟨before, later, rfl, hname, hlater⟩
    refine ⟨beq_iff_eq.mpr hname, later.reverse, before.reverse, by simp, fun u hu => ?_⟩
    simpa using hlater u (List.mem_reverse.mp hu)

theorem DeclaredLast.mem (h : DeclaredLast schemas name t) : t ∈ schemas := by
  obtain ⟨before, later, rfl, -⟩ := h
  simp

theorem DeclaredLast.name_eq (h : DeclaredLast schemas name t) : t.name = name := by
  obtain ⟨-, -, -, hname, -⟩ := h
  exact hname

theorem exists_declaredLast (h : name ∈ schemas.map (·.name)) : ∃ t, DeclaredLast schemas name t := by
  obtain ⟨s, hs, hname⟩ := List.mem_map.mp h
  have hfound : (schemas.reverse.find? (·.name == name)).isSome :=
    List.find?_isSome.mpr ⟨s, List.mem_reverse.mpr hs, beq_iff_eq.mpr hname⟩
  obtain ⟨t, ht⟩ := Option.isSome_iff_exists.mp hfound
  exact ⟨t, find?_reverse_eq_some_iff.mp ht⟩

theorem referencedTable_of_declaredLast (h : DeclaredLast schemas name t) :
    referencedTable schemas file name = tableId t.file t.name := by
  unfold referencedTable
  rw [find?_reverse_eq_some_iff.mpr h]

theorem referencedTable_of_notMem (h : name ∉ schemas.map (·.name)) :
    referencedTable schemas file name = tableId file name := by
  have hnone : schemas.reverse.find? (·.name == name) = none := by
    apply List.find?_eq_none.mpr
    intro s hs hname
    exact h (List.mem_map.mpr ⟨s, List.mem_reverse.mp hs, beq_iff_eq.mp hname⟩)
  unfold referencedTable
  rw [hnone]

/-- Tables of one name in two files are told apart by their identifiers, whatever the files are called. -/
theorem tableId_left_inj {f f' : String} : tableId f name = tableId f' name ↔ f = f' := by
  simp [tableId, entityId]

/-- A reference leaves its file exactly when a table of another file was declared last under the name. -/
theorem referencedTable_eq_iff (h : DeclaredLast schemas name t) :
    referencedTable schemas file name = tableId file name ↔ t.file = file := by
  rw [referencedTable_of_declaredLast h, h.name_eq, tableId_left_inj]

end Targets

section Built

variable {report : Report} {facts : Facts} {g : Graph}

/-- Tables come last, so what is found under the identifier of one is a table. -/
theorem hasTable_of_mem (h : build report facts = .ok g) {s : Facts.Schema} (hs : s ∈ facts.schemas) :
    g.HasTable (tableId s.file s.name) := by
  obtain ⟨-, attempts, -, -, rfl, hnodes, -, -⟩ := build_ok h
  have hsome : latest? (facts.schemas.map schemaNode) (tableId s.file s.name) ≠ none := by
    intro hnone
    exact latest?_eq_none_iff.mp hnone (schemaNode s) (List.mem_map_of_mem hs) rfl
  obtain ⟨n, hn⟩ := Option.ne_none_iff_exists'.mp hsome
  obtain ⟨s', -, rfl⟩ := List.mem_map.mp (mem_of_latest? hn).1
  refine ⟨schemaNode s', ?_, rfl⟩
  rw [node?_built, hnodes, latest?_append, latest?_append, hn]
  rfl

theorem mem_references {ref : Facts.Schema × Facts.Relation} (h : ref ∈ facts.references) : ref.1 ∈ facts.schemas := by
  obtain ⟨s, hs, hr⟩ := List.mem_flatMap.mp h
  obtain ⟨r, -, rfl⟩ := List.mem_map.mp hr
  exact hs

/-- A reference of a built graph is there for the first one of the facts with its text. -/
theorem stems_of_mem_references (h : build report facts = .ok g) {e : Edge} (he : e ∈ g.references) :
    ∃ before ref later, facts.references = before ++ ref :: later ∧ e = referenceEdge facts.schemas ref ∧
      ∀ b ∈ before, referenceId (referenceEnds facts.schemas b) ≠ referenceId (referenceEnds facts.schemas ref) := by
  rw [references_build h] at he
  obtain ⟨-, before, later, heq, hbefore⟩ := first_of_mem_unseen he
  obtain ⟨past, rest, hsplit, rfl, hrest⟩ := List.map_eq_append_iff.mp heq
  obtain ⟨ref, later, rfl, rfl, -⟩ := List.map_eq_cons_iff.mp hrest
  exact ⟨past, ref, later, hsplit, rfl, fun b hb => hbefore _ (List.mem_map_of_mem hb)⟩

theorem id_of_mem_references (h : build report facts = .ok g) {e : Edge} (he : e ∈ g.references) :
    e.id = referenceId e.ends := by
  obtain ⟨-, ref, -, -, rfl, -⟩ := stems_of_mem_references h he
  rfl

theorem exists_mem_references (h : build report facts = .ok g) {ref : Facts.Schema × Facts.Relation}
    (href : ref ∈ facts.references) :
    ∃ e ∈ g.references, referenceId e.ends = referenceId (referenceEnds facts.schemas ref) := by
  have hnew : ({} : Std.TreeSet String).contains (referenceEdge facts.schemas ref).id = false := by simp
  obtain ⟨e, he, hsame⟩ := exists_mem_unseen hnew (List.mem_map_of_mem href)
  rw [← references_build h] at he
  exact ⟨e, he, (id_of_mem_references h he).symm.trans hsame⟩

theorem refers_build (h : build report facts = .ok g) : Refers facts g := by
  have hnodup : (g.references.map Edge.id).Nodup :=
    (consistent_build h).edgeIds_nodup.sublist (List.filter_sublist.map _)
  have hsub : ∀ e ∈ g.references, ∃ ref ∈ facts.references, referenceEnds facts.schemas ref = e.ends := by
    intro e he
    obtain ⟨before, ref, later, heq, rfl, -⟩ := stems_of_mem_references h he
    exact ⟨ref, by rw [heq]; simp, rfl⟩
  refine ⟨fun e he => stems_of_mem_references h he, fun ref href => exists_mem_references h href, ?_,
    fun ref href => hasTable_of_mem h (mem_references href), ?_,
    fun ref _ hname => referencedTable_of_notMem hname, fun ref _ t ht => referencedTable_eq_iff ht⟩
  · refine Iff.trans ?_ (all_connected_iff hnodup (fun e he => id_of_mem_references h he) hsub ?_)
    · constructor
      · rintro hall _ ⟨ref, href, rfl⟩
        exact hall ref href
      · exact fun hall ref href => hall _ ⟨ref, href, rfl⟩
    · rintro _ ⟨ref, href, rfl⟩
      exact exists_mem_references h href
  · intro ref _ hname
    obtain ⟨t, ht⟩ := exists_declaredLast hname
    have htarget : (referenceEnds facts.schemas ref).2 = tableId t.file t.name := referencedTable_of_declaredLast ht
    exact ⟨t, ht, htarget, htarget ▸ hasTable_of_mem h ht.mem⟩

theorem referenceId_inj {f f' n n' t t' : String} (hf : ':' ∉ f.toList) (hf' : ':' ∉ f'.toList)
    (hn : ':' ∉ n.toList) (hn' : ':' ∉ n'.toList)
    (h : referenceId (tableId f n, t) = referenceId (tableId f' n', t')) : (tableId f n, t) = (tableId f' n', t') := by
  obtain ⟨rfl, rfl, rfl⟩ := eq_of_joined_eq ":table:".toList hf hf' hn hn'
    (by simpa [referenceId, tableId, entityId] using congrArg String.toList h)
  rfl

/-- The references of tables without colons have different texts, unless they connect the same two tables. -/
theorem injOn_referenceId_of_plain (hplain : ∀ s ∈ facts.schemas, ':' ∉ s.file.toList ∧ ':' ∉ s.name.toList) :
    {ends | ∃ ref ∈ facts.references, referenceEnds facts.schemas ref = ends}.InjOn referenceId := by
  rintro _ ⟨ref, href, rfl⟩ _ ⟨ref', href', rfl⟩ hsame
  obtain ⟨hfile, hname⟩ := hplain ref.1 (mem_references href)
  obtain ⟨hfile', hname'⟩ := hplain ref'.1 (mem_references href')
  exact referenceId_inj hfile hfile' hname hname' hsame

end Built

end Graph

/-- What becomes of the references between tables when a graph is built: they come of the references of the facts, and
none is missing when no file and no name of a table has a colon. -/
theorem Atlas.references_resolved {project : String} {report : Report} {facts : Facts} {findings : Findings}
    {atlas : Atlas} (h : Atlas.build project report facts findings = .ok atlas) :
    Graph.Refers facts atlas.graph ∧
      ((∀ s ∈ facts.schemas, ':' ∉ s.file.toList ∧ ':' ∉ s.name.toList) → ∀ ref ∈ facts.references,
        ∃ e ∈ atlas.graph.references, e.ends = Graph.referenceEnds facts.schemas ref) := by
  obtain ⟨g, hbuild, hatlas⟩ := Graph.exists_of_bind_ok h
  cases hatlas
  have hrefers := Graph.refers_build hbuild
  exact ⟨hrefers, fun hplain => hrefers.complete_iff.mpr (Graph.injOn_referenceId_of_plain hplain)⟩

/-- Tables that refer to a later one of their file, to one of another file and to one that is nowhere. -/
def Facts.shop : Facts where
  schemas := [⟨"orders", "shop.sql", 1, "sql", [], [⟨"users", "foreign_key"⟩, ⟨"items", "foreign_key"⟩]⟩,
    ⟨"users", "shop.sql", 9, "sql", [], [⟨"tenants", "foreign_key"⟩]⟩, ⟨"items", "stock.sql", 1, "sql", [], []⟩]

theorem Atlas.references_resolved_shop : ∃ atlas,
    Atlas.build "shop" (.reconcile .shop .empty) .shop .empty = .ok atlas ∧ Graph.Refers .shop atlas.graph ∧
      (∀ ref ∈ Facts.shop.references,
        ∃ e ∈ atlas.graph.references, e.ends = Graph.referenceEnds Facts.shop.schemas ref) ∧
      atlas.graph.references.map Graph.Edge.ends = [("shop.sql::table:orders", "shop.sql::table:users"),
        ("shop.sql::table:orders", "stock.sql::table:items"), ("shop.sql::table:users", "shop.sql::table:tenants")] := by
  obtain ⟨atlas, hbuild, hends⟩ := Graph.exists_of_map_eq_some
    (f := fun a : Atlas => a.graph.references.map Graph.Edge.ends)
    (x := Atlas.build "shop" (.reconcile .shop .empty) .shop .empty)
    (b := [("shop.sql::table:orders", "shop.sql::table:users"), ("shop.sql::table:orders", "stock.sql::table:items"),
      ("shop.sql::table:users", "shop.sql::table:tenants")]) (by decide +kernel)
  obtain ⟨hrefers, hplain⟩ := Atlas.references_resolved hbuild
  exact ⟨atlas, hbuild, hrefers, hplain (by decide +kernel), hends⟩

/-- A table that refers to another one of its file, and in another file a later table of the name that it refers to. -/
def Facts.shopAndBlog : Facts where
  schemas := [⟨"orders", "shop.sql", 1, "sql", [], [⟨"users", "foreign_key"⟩]⟩,
    ⟨"users", "shop.sql", 9, "sql", [], []⟩, ⟨"users", "blog.sql", 1, "sql", [], []⟩]

/-- The reference goes to the other file, although its own file has a table of the name. -/
theorem Atlas.reference_leaves_file : ∃ atlas,
    Atlas.build "shop" (.reconcile .shopAndBlog .empty) .shopAndBlog .empty = .ok atlas ∧
      ∃ ref ∈ Facts.shopAndBlog.references, ∃ t ∈ Facts.shopAndBlog.schemas, t.name = ref.2.target ∧
        t.file = ref.1.file ∧ Graph.tableId t.file t.name ∉ atlas.graph.references.map Graph.Edge.target := by
  obtain ⟨atlas, hbuild, htargets⟩ := Graph.exists_of_map_eq_some
    (f := fun a : Atlas => a.graph.references.map Graph.Edge.target)
    (x := Atlas.build "shop" (.reconcile .shopAndBlog .empty) .shopAndBlog .empty)
    (b := ["blog.sql::table:users"]) (by decide +kernel)
  refine ⟨atlas, hbuild, _, .head _, _, .tail _ (.head _), rfl, rfl, ?_⟩
  rw [htargets]
  decide +kernel

/-- Tables whose names have the sign that identifiers are made of. The first two refer to tables of two other files. -/
def Facts.runTogether : Facts where
  schemas := [⟨"x", "a", 1, "sql", [], [⟨"y:c::table:z", "foreign_key"⟩]⟩,
    ⟨"x:b::table:y", "a", 9, "sql", [], [⟨"z", "foreign_key"⟩]⟩,
    ⟨"y:c::table:z", "b", 1, "sql", [], []⟩, ⟨"z", "c", 1, "sql", [], []⟩]

/-- The text of both references is `schema_ref:a::table:x:b::table:y:c::table:z`, and the second is not there. -/
theorem Atlas.reference_lost : ∃ atlas,
    Atlas.build "shop" (.reconcile .runTogether .empty) .runTogether .empty = .ok atlas ∧
      ∃ ref ∈ Facts.runTogether.references,
        Graph.referenceEnds Facts.runTogether.schemas ref ∉ atlas.graph.references.map Graph.Edge.ends := by
  obtain ⟨atlas, hbuild, hends⟩ := Graph.exists_of_map_eq_some
    (f := fun a : Atlas => a.graph.references.map Graph.Edge.ends)
    (x := Atlas.build "shop" (.reconcile .runTogether .empty) .runTogether .empty)
    (b := [("a::table:x", "b::table:y:c::table:z")]) (by decide +kernel)
  refine ⟨atlas, hbuild, _, .tail _ (.head _), ?_⟩
  rw [hends]
  decide +kernel

end CodeAtlas
