import CodeAtlas.Proofs.Graph.Passes
import CodeAtlas.Proofs.Report.Exact

/-! Which entities of a report are found in the graph that is built of it. Entities, endpoints and tables share the
identifiers, and the last one that comes with an identifier stays. -/
namespace CodeAtlas
namespace Report

/-- Whether the name and the file of two entities are the same. -/
def Entity.Namesake (v w : Entity) : Prop := w.name = v.name ∧ w.file = v.file

instance (v w : Entity) : Decidable (v.Namesake w) := inferInstanceAs (Decidable (_ ∧ _))

/-- The last of some entities that has an entity's name and file. -/
def Entity.last? (v : Entity) (entities : List Entity) : Option Entity := (entities.filter (v.Namesake ·)).getLast?

/-- Whether the identifier of an entity is also that of an endpoint or a table of the same file. -/
def Entity.Taken (facts : Facts) (v : Entity) : Prop :=
  (∃ e ∈ facts.endpoints, e.file = v.file ∧ e.method ++ "_" ++ e.path = v.name) ∨
    ∃ s ∈ facts.schemas, s.file = v.file ∧ "table:" ++ s.name = v.name

instance (facts : Facts) (v : Entity) : Decidable (v.Taken facts) := inferInstanceAs (Decidable (_ ∨ _))

/-- Whether no path of a file has a colon. -/
structure PlainFiles (facts : Facts) (findings : Findings) : Prop where
  definitions : ∀ d ∈ facts.definitions, ':' ∉ d.file.toList
  rules : ∀ r ∈ findings.rules, ':' ∉ r.file.toList
  endpoints : ∀ e ∈ facts.endpoints, ':' ∉ e.file.toList
  schemas : ∀ s ∈ facts.schemas, ':' ∉ s.file.toList

theorem Entity.mem_of_last? {v w : Entity} {entities : List Entity} (h : v.last? entities = some w) :
    w ∈ entities ∧ v.Namesake w := by
  simpa using List.mem_filter.mp (List.mem_of_getLast? h)

theorem Entity.exists_last? {v : Entity} {entities : List Entity} (h : v ∈ entities) :
    ∃ w, v.last? entities = some w := by
  have hmem : v ∈ entities.filter (v.Namesake ·) := List.mem_filter.mpr ⟨h, by simp [Namesake]⟩
  exact ⟨_, List.getLast?_eq_some_getLast (List.ne_nil_of_mem hmem)⟩

section Entities

variable {facts : Facts} {findings : Findings} {v w : Entity}

theorem nodup_keys_firsts (ds : List Facts.Definition) : ((firsts ds).map fun d => (d.name, d.file)).Nodup := by
  induction ds using List.reverseRecOn with
  | nil => exact List.nodup_nil
  | append_singleton ds d ih =>
    rw [firsts_append_singleton]
    by_cases h : ∃ e ∈ ds, Same d e
    · simpa [if_pos h] using ih
    · rw [if_neg h, List.map_append, List.nodup_append]
      refine ⟨ih, List.nodup_singleton _, fun key hkey other hother heq => h ?_⟩
      obtain ⟨e, he, rfl⟩ := List.mem_map.mp hkey
      obtain rfl := List.mem_singleton.mp hother
      obtain ⟨hname, hfile⟩ := Prod.mk.inj heq
      obtain ⟨x, hx, hxname, hxfile⟩ := exists_mem_firsts.mp ⟨e, he, hname, hfile⟩
      exact ⟨x, hx, hxname.symm, hxfile.symm⟩

/-- An entity of a report stands for a definition that is kept or for a rule that enters. -/
theorem mem_entities_iff : v ∈ (reconcile facts findings).entities ↔
    (∃ d ∈ firsts facts.definitions, ofDefinition (mentions (speaking findings.narratives)) d = v) ∨
      ∃ r ∈ findings.rules, Enters facts.definitions r ∧ ofRule r = v := by
  simp [reconcile_eq, foundIn, ruledIn, and_assoc]

theorem plain_of_mem (hplain : PlainFiles facts findings) (hv : v ∈ (reconcile facts findings).entities) :
    ':' ∉ v.file.toList := by
  obtain ⟨d, hd, rfl⟩ | ⟨r, hr, -, rfl⟩ := mem_entities_iff.mp hv
  · obtain ⟨x, hx, -, hfile⟩ := exists_mem_firsts.mp ⟨d, hd, rfl, rfl⟩
    have hdfile := hplain.definitions x hx
    rwa [hfile] at hdfile
  · exact hplain.rules r hr

theorem provenance_ofDefinition (texts : List Mention) (d : Facts.Definition) :
    (ofDefinition texts d).confidence.provenance ≠ .probabilistic := by
  unfold ofDefinition definitionConfidence
  split <;> simp

/-- An entity that the scanner found is the only one of its name in its file. -/
theorem eq_of_namesake (hv : v ∈ (reconcile facts findings).entities)
    (hw : w ∈ (reconcile facts findings).entities) (hfound : v.confidence.provenance ≠ .probabilistic)
    (hsame : v.Namesake w) : w = v := by
  obtain ⟨d, hd, rfl⟩ | ⟨r, -, -, rfl⟩ := mem_entities_iff.mp hv
  · obtain ⟨d', hd', rfl⟩ | ⟨r, -, henters, rfl⟩ := mem_entities_iff.mp hw
    · have hkey : (d'.name, d'.file) = (d.name, d.file) := Prod.ext hsame.1 hsame.2
      rw [List.inj_on_of_nodup_map (nodup_keys_firsts facts.definitions) hd' hd hkey]
    · obtain ⟨x, hx, hname, hfile⟩ := exists_mem_firsts.mp ⟨d, hd, rfl, rfl⟩
      exact absurd ⟨hname.trans hsame.1.symm, hfile.trans hsame.2.symm⟩ (henters.2 x hx)
  · exact absurd rfl hfound

/-- Entities of the same name and file differ in nothing but their lines and their description. -/
theorem alike_of_namesake (hv : v ∈ (reconcile facts findings).entities)
    (hw : w ∈ (reconcile facts findings).entities) (hsame : v.Namesake w) :
    w.kind = v.kind ∧ w.confidence = v.confidence := by
  by_cases hfound : v.confidence.provenance = .probabilistic
  · obtain ⟨d, -, rfl⟩ | ⟨r, -, -, rfl⟩ := mem_entities_iff.mp hv
    · exact absurd hfound (provenance_ofDefinition _ d)
    · obtain ⟨d', -, rfl⟩ | ⟨r', -, -, rfl⟩ := mem_entities_iff.mp hw
      · have heq := eq_of_namesake hw hv (provenance_ofDefinition _ d') ⟨hsame.1.symm, hsame.2.symm⟩
        exact absurd (heq ▸ hfound) (provenance_ofDefinition _ d')
      · exact ⟨rfl, rfl⟩
  · rw [eq_of_namesake hv hw hfound hsame]
    exact ⟨rfl, rfl⟩

end Entities

end Report

namespace Graph

/-- The nodes of endpoints and tables. -/
def otherNodes (facts : Facts) : List Node := facts.endpoints.map endpointNode ++ facts.schemas.map schemaNode

/-- The nodes that a build adds, in order. -/
def nodesOf (report : Report) (facts : Facts) : List Node :=
  report.entities.map Report.Entity.toNode ++ otherNodes facts

/-- Whether a node tells of an entity what it is, where it is and how sure this is. -/
structure Node.Shows (v : Report.Entity) (n : Node) : Prop where
  name : n.name = v.name
  kind : n.kind = v.kind
  file : n.file = v.file
  startLine : n.startLine = v.startLine
  endLine : n.endLine = v.endLine
  confidence : n.confidence = v.confidence

/-- Whether an entity is found in a graph under its identifier. -/
def Survives (g : Graph) (v : Report.Entity) : Prop := ∃ n, g.node? v.id = some n ∧ n.Shows v

/-- Which entities of the report on some facts and findings are found in a graph. -/
structure Survival (facts : Facts) (findings : Findings) (g : Graph) : Prop where
  /-- What is found is the last node that came with the identifier. -/
  latest : ∀ id, g.node? id = latest? (nodesOf (.reconcile facts findings) facts) id
  /-- An entity survives exactly when no endpoint or table has its identifier and the last entity of its name and file
  has its lines. -/
  survives_iff : Report.PlainFiles facts findings → ∀ v ∈ (Report.reconcile facts findings).entities,
    (g.Survives v ↔ ¬ v.Taken facts ∧
      ∀ w ∈ v.last? (Report.reconcile facts findings).entities, w.startLine = v.startLine ∧ w.endLine = v.endLine)
  /-- An entity that the scanner found is the last of its name and file, since it is the only one. -/
  only : ∀ v ∈ (Report.reconcile facts findings).entities, v.confidence.provenance ≠ .probabilistic →
    v.last? (Report.reconcile facts findings).entities = some v

section Rivals

variable {nodes : List Node} {id : String} {n : Node}

theorem latest?_append (a b : List Node) (id : String) : latest? (a ++ b) id = (latest? b id).or (latest? a id) := by
  rw [latest?, List.filter_append, List.getLast?_append]
  rfl

theorem latest?_eq_none_iff : latest? nodes id = none ↔ ∀ n ∈ nodes, n.id ≠ id := by
  simp [latest?]

end Rivals

section Names

variable {facts : Facts} {findings : Findings} {v : Report.Entity}

/-- When no path has a colon, the identifiers of two things in files are the same only if files and names are. -/
theorem entityId_inj {f f' n n' : String} (hf : ':' ∉ f.toList) (hf' : ':' ∉ f'.toList)
    (h : entityId f n = entityId f' n') : f = f' ∧ n = n' := by
  have hlist : f.toList ++ ':' :: ':' :: n.toList = f'.toList ++ ':' :: ':' :: n'.toList := by
    simpa [entityId] using congrArg String.toList h
  obtain ⟨hfile, hrest⟩ := eq_and_eq_of_append_cons_eq hf hf' hlist
  exact ⟨String.toList_inj.mp hfile, String.toList_inj.mp (List.cons.inj hrest).2⟩

theorem latest?_entities (hplain : Report.PlainFiles facts findings)
    (hv : v ∈ (Report.reconcile facts findings).entities) :
    latest? ((Report.reconcile facts findings).entities.map Report.Entity.toNode) v.id =
      (v.last? (Report.reconcile facts findings).entities).map Report.Entity.toNode := by
  have hid : ∀ w ∈ (Report.reconcile facts findings).entities, (w.toNode.id == v.id) = decide (v.Namesake w) := by
    intro w hw
    refine Bool.eq_iff_iff.mpr (beq_iff_eq.trans (Iff.trans ?_ decide_eq_true_iff.symm))
    constructor
    · intro h
      exact (entityId_inj (Report.plain_of_mem hplain hw) (Report.plain_of_mem hplain hv) h).symm
    · rintro ⟨hname, hfile⟩
      exact congrArg₂ entityId hfile hname
  rw [latest?, List.filter_map, List.getLast?_map]
  exact congrArg (fun same : List Report.Entity => same.getLast?.map Report.Entity.toNode) (List.filter_congr hid)

theorem exists_other_iff (hplain : Report.PlainFiles facts findings)
    (hv : v ∈ (Report.reconcile facts findings).entities) :
    (∃ n ∈ otherNodes facts, n.id = v.id) ↔ v.Taken facts := by
  have hvfile := Report.plain_of_mem hplain hv
  constructor
  · rintro ⟨n, hn, hid⟩
    rcases List.mem_append.mp hn with hn | hn
    · obtain ⟨e, he, rfl⟩ := List.mem_map.mp hn
      exact .inl ⟨e, he, entityId_inj (hplain.endpoints e he) hvfile hid⟩
    · obtain ⟨s, hs, rfl⟩ := List.mem_map.mp hn
      exact .inr ⟨s, hs, entityId_inj (hplain.schemas s hs) hvfile hid⟩
  · rintro (⟨e, he, hfile, hname⟩ | ⟨s, hs, hfile, hname⟩)
    · exact ⟨endpointNode e, List.mem_append_left _ (List.mem_map_of_mem he), congrArg₂ entityId hfile hname⟩
    · exact ⟨schemaNode s, List.mem_append_right _ (List.mem_map_of_mem hs), congrArg₂ entityId hfile hname⟩

/-- What names an endpoint or a table is never what its identifier says. -/
theorem not_shows_of_other {n : Node} (hn : n ∈ otherNodes facts) (hid : n.id = v.id) : ¬ n.Shows v := by
  intro hshows
  have hname : ∀ name : String, n.id = entityId n.file name → name = n.name := by
    intro name h
    rw [hid, Report.Entity.id, entityId, entityId, hshows.file] at h
    exact ((String.append_right_inj _).mp h).symm.trans hshows.name.symm
  rcases List.mem_append.mp hn with hn | hn
  · obtain ⟨e, -, rfl⟩ := List.mem_map.mp hn
    have hlist := congrArg String.toList (hname (e.method ++ "_" ++ e.path) rfl)
    simp [endpointNode] at hlist
  · obtain ⟨s, -, rfl⟩ := List.mem_map.mp hn
    have hlength := congrArg String.length (hname ("table:" ++ s.name) rfl)
    simp [schemaNode] at hlength

/-- The node of an entity of the same name and file shows an entity exactly when the lines are the same. -/
theorem shows_iff_of_namesake {w : Report.Entity} (hv : v ∈ (Report.reconcile facts findings).entities)
    (hw : w ∈ (Report.reconcile facts findings).entities) (hsame : v.Namesake w) :
    w.toNode.Shows v ↔ w.startLine = v.startLine ∧ w.endLine = v.endLine := by
  obtain ⟨hkind, hconfidence⟩ := Report.alike_of_namesake hv hw hsame
  exact ⟨fun h => ⟨h.startLine, h.endLine⟩, fun h => ⟨hsame.1, hkind, hsame.2, h.1, h.2, hconfidence⟩⟩

theorem survives_iff_of_latest {g : Graph} (hplain : Report.PlainFiles facts findings)
    (hlatest : ∀ id, g.node? id = latest? (nodesOf (.reconcile facts findings) facts) id)
    (hv : v ∈ (Report.reconcile facts findings).entities) :
    g.Survives v ↔ ¬ v.Taken facts ∧
      ∀ w ∈ v.last? (Report.reconcile facts findings).entities,
        w.startLine = v.startLine ∧ w.endLine = v.endLine := by
  have hnode : g.node? v.id = (latest? (otherNodes facts) v.id).or
      ((v.last? (Report.reconcile facts findings).entities).map Report.Entity.toNode) := by
    rw [hlatest, nodesOf, latest?_append, latest?_entities hplain hv]
  rw [← exists_other_iff hplain hv, Survives, hnode]
  cases hother : latest? (otherNodes facts) v.id with
  | some n =>
    obtain ⟨hn, hid⟩ := mem_of_latest? hother
    refine iff_of_false ?_ fun h => h.1 ⟨n, hn, hid⟩
    rintro ⟨m, hm, hshows⟩
    cases hm
    exact not_shows_of_other hn hid hshows
  | none =>
    have hfree : ¬ ∃ n ∈ otherNodes facts, n.id = v.id := by simpa using latest?_eq_none_iff.mp hother
    obtain ⟨w, hlast⟩ := Report.Entity.exists_last? hv
    obtain ⟨hw, hsame⟩ := Report.Entity.mem_of_last? hlast
    simp [hlast, hfree, shows_iff_of_namesake hv hw hsame]

end Names

end Graph

/-- What becomes of the entities of a report when a graph is built of it. -/
theorem Atlas.survival {project : String} {facts : Facts} {findings : Findings} {atlas : Atlas}
    (h : Atlas.build project (.reconcile facts findings) facts findings = .ok atlas) :
    Graph.Survival facts findings atlas.graph := by
  obtain ⟨g, hbuild, hatlas⟩ := Graph.exists_of_bind_ok h
  cases hatlas
  obtain ⟨-, attempts, -, -, rfl, hnodes, -, -⟩ := Graph.build_ok hbuild
  have hlatest : ∀ id, (Graph.built attempts).node? id =
      Graph.latest? (Graph.nodesOf (.reconcile facts findings) facts) id := by
    intro id
    rw [Graph.node?_built, hnodes]
    rfl
  refine ⟨hlatest, fun hplain v hv => Graph.survives_iff_of_latest hplain hlatest hv, fun v hv hfound => ?_⟩
  obtain ⟨w, hlast⟩ := Report.Entity.exists_last? hv
  obtain ⟨hw, hsame⟩ := Report.Entity.mem_of_last? hlast
  rw [hlast, Report.eq_of_namesake hv hw hfound hsame]

/-- A function, an endpoint and a table of one file. -/
def Facts.cart : Facts where
  definitions := [⟨"total", .function, "cart.py", 22, 30, "python", none, none⟩]
  endpoints := [⟨"GET", "/cart", "cart.py", 50, none⟩]
  schemas := [⟨"orders", "cart.py", 60, "sql", [], []⟩]

/-- A rule that is stated in that file. -/
def Findings.positiveTotals (lineStart lineEnd : Nat) : Findings.Rule :=
  ⟨"Totals are positive", "", "", "", "cart.py", lineStart, lineEnd, .medium⟩

/-- The rule at one place. -/
def Findings.statedOnce : Findings where
  rules := [positiveTotals 1 2]

theorem Atlas.survival_sample : ∃ atlas,
    Atlas.build "shop" (.reconcile .cart .statedOnce) .cart .statedOnce = .ok atlas ∧
      (Report.reconcile .cart .statedOnce).entities.length = 2 ∧
      ∀ v ∈ (Report.reconcile .cart .statedOnce).entities, atlas.graph.Survives v := by
  obtain ⟨atlas, hbuild, -⟩ := Graph.exists_of_map_eq_some (f := fun _ : Atlas => ())
    (x := Atlas.build "shop" (.reconcile .cart .statedOnce) .cart .statedOnce) (b := ()) (by decide +kernel)
  have hplain : Report.PlainFiles .cart .statedOnce :=
    ⟨by decide +kernel, by decide +kernel, by decide +kernel, by decide +kernel⟩
  have hall : ∀ v ∈ (Report.reconcile .cart .statedOnce).entities, ¬ v.Taken .cart ∧
      ∀ w ∈ v.last? (Report.reconcile .cart .statedOnce).entities,
        w.startLine = v.startLine ∧ w.endLine = v.endLine := by decide +kernel
  exact ⟨atlas, hbuild, by decide +kernel, fun v hv =>
    ((Atlas.survival hbuild).survives_iff hplain v hv).mpr (hall v hv)⟩

/-- The rule at two places. -/
def Findings.statedTwice : Findings where
  rules := [positiveTotals 1 2, positiveTotals 40 41]

/-- Both places are entities of the report, and the graph has the second one alone. -/
theorem Atlas.rule_lost : ∃ atlas,
    Atlas.build "shop" (.reconcile .empty .statedTwice) .empty .statedTwice = .ok atlas ∧
      ∃ v ∈ (Report.reconcile .empty .statedTwice).entities, v.startLine = 1 ∧ v.endLine = 2 ∧
        ¬ atlas.graph.Survives v := by
  obtain ⟨atlas, hbuild, hlines⟩ := Graph.exists_of_map_eq_some
    (f := fun a : Atlas => (a.graph.node? "cart.py::Totals are positive").map Graph.Node.startLine)
    (x := Atlas.build "shop" (.reconcile .empty .statedTwice) .empty .statedTwice) (b := some 40) (by decide +kernel)
  refine ⟨atlas, hbuild, Report.ofRule (Findings.positiveTotals 1 2), ?_, rfl, rfl, ?_⟩
  · exact Report.mem_entities_iff.mpr (.inr ⟨_, .head _, by decide +kernel, rfl⟩)
  · -- what is found under the identifier starts where the second place does
    rintro ⟨n, hn, hshows⟩
    have hid : (Report.ofRule (Findings.positiveTotals 1 2)).id = "cart.py::Totals are positive" := by decide +kernel
    rw [hid] at hn
    rw [hn] at hlines
    have hstart : n.startLine = 40 := Option.some.inj hlines
    have hclaimed : n.startLine = 1 := hshows.startLine
    omega

end CodeAtlas
