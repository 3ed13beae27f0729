import CodeAtlas.Graph.Snapshot
import CodeAtlas.Proofs.Graph.Twins
import CodeAtlas.Proofs.Reasoning.Order

/-! Chunks are done in no particular order, and their findings are put together as they come. The order shows where
two chunks rival each other for one place, and nowhere else: where no two of them do, the atlas is the same. -/
namespace CodeAtlas

/-- What an atlas shows: nodes and edges, and everything that is known of intent. -/
structure Atlas.View where
  project : String
  graph : Graph.Snapshot
  purposes : List Reasoning.Purpose
  rules : List Reasoning.Rule
  risks : List Reasoning.Risk
  workflows : List Reasoning.Workflow

namespace Atlas

/-- What is shown of an atlas. -/
def view (a : Atlas) : View :=
  ⟨a.project, a.graph.snapshot, a.reasoning.purposes, a.reasoning.rules, a.reasoning.risks, a.reasoning.workflows⟩

/-- The atlas of a project whose chunks were done in some order. -/
def ofChunks (project : String) (facts : Facts) (cs : List ChunkFindings) : Except Graph.Refusal Atlas :=
  build project (.reconcile facts (.ofChunks cs)) facts (.ofChunks cs)

end Atlas

namespace Findings

/-- The nodes of the rules of a chunk that enter a report. -/
def ruleNodes (facts : Facts) (c : ChunkFindings) : List Graph.Node :=
  ((c.rules.filter fun rule => Report.Enters facts.definitions rule).map Report.ofRule).map Report.Entity.toNode

/-- Whether no two chunks rival each other for one place. -/
structure Unrivalled (facts : Facts) (cs : List ChunkFindings) : Prop where
  /-- No purpose, no rule and no risk is contested. -/
  intent : Reasoning.Uncontested cs
  /-- All chunks that have a rule for a node end with the same one, unless an endpoint or a table has the node. -/
  nodes : ∀ id, (∀ n ∈ Graph.otherNodes facts, n.id ≠ id) →
    Unopposed (lastUnder Graph.Node.id id) (ruleNodes facts) cs

/-- Whether it is certain from where things are looked up. -/
structure Anchored (facts : Facts) (cs : List ChunkFindings) : Prop where
  /-- No two files share an identifier. -/
  files : Graph.OneFileEach (Graph.nodesOf (.reconcile facts (.ofChunks cs)) facts)
  /-- In a file that imports but defines nothing, all chunks that have rules begin with the same one. -/
  importers : ∀ i ∈ facts.imports, (∀ d ∈ facts.definitions, d.file ≠ i.file) →
    Unopposed (fun nodes : List Graph.Node => (nodes.find? (·.file == i.file)).map Graph.Node.id) (ruleNodes facts) cs

/-- Whether an atlas shows the same in whatever order the chunks are done. -/
def OrderFree (facts : Facts) (cs : List ChunkFindings) : Prop :=
  ∀ (project : String) (cs' : List ChunkFindings), cs'.Perm cs →
    (Atlas.ofChunks project facts cs').map Atlas.view = (Atlas.ofChunks project facts cs).map Atlas.view

section Nodes

variable {facts : Facts} {cs cs' : List ChunkFindings}

/-- The nodes of the definitions that are kept. -/
def foundNodes (facts : Facts) (cs : List ChunkFindings) : List Graph.Node :=
  (Report.foundIn facts (.ofChunks cs)).map Report.Entity.toNode

theorem entities_ofChunks (facts : Facts) (cs : List ChunkFindings) :
    (Report.reconcile facts (.ofChunks cs)).entities.map Report.Entity.toNode =
      foundNodes facts cs ++ cs.flatMap (ruleNodes facts) := by
  rw [Report.reconcile_eq, List.map_append, Report.ruledIn, foundNodes, ofChunks_eq, List.filter_flatMap,
    List.map_flatMap, List.map_flatMap]
  rfl

/-- What confirms a definition is found in any order. -/
theorem foundNodes_perm (facts : Facts) (hperm : cs'.Perm cs) : foundNodes facts cs' = foundNodes facts cs := by
  have hmentions : (Report.mentions (Report.speaking (ofChunks cs').narratives)).Perm
      (Report.mentions (Report.speaking (ofChunks cs).narratives)) := by
    rw [ofChunks_eq, ofChunks_eq]
    exact ((hperm.map _).filter _).flatMap_right _
  have hconfirmed (file name : String) :
      Report.confirmed (Report.mentions (Report.speaking (ofChunks cs').narratives)) file name =
        Report.confirmed (Report.mentions (Report.speaking (ofChunks cs).narratives)) file name := by
    rw [Report.confirmed, Report.confirmed, hmentions.any_eq]
  have hentity : Report.ofDefinition (Report.mentions (Report.speaking (ofChunks cs').narratives)) =
      Report.ofDefinition (Report.mentions (Report.speaking (ofChunks cs).narratives)) :=
    funext fun d => by simp only [Report.ofDefinition, hconfirmed]
  rw [foundNodes, Report.foundIn, hentity, foundNodes, Report.foundIn]

theorem mem_ruleNodes {c : ChunkFindings} {n : Graph.Node} : n ∈ ruleNodes facts c ↔
    ∃ r ∈ c.rules, Report.Enters facts.definitions r ∧ (Report.ofRule r).toNode = n := by
  simp [ruleNodes, and_assoc]

theorem mem_foundNodes {n : Graph.Node} (h : n ∈ foundNodes facts cs) :
    ∃ d ∈ facts.definitions, n.id = entityId d.file d.name ∧ n.file = d.file ∧ n.name = d.name := by
  obtain ⟨e, he, rfl⟩ := List.mem_map.mp h
  obtain ⟨d, hd, rfl⟩ := List.mem_map.mp he
  exact ⟨d, Report.mem_of_mem_firsts hd, rfl, rfl, rfl⟩

theorem behind_ofChunks (hfiles : Graph.OneFileEach (foundNodes facts cs ++ cs.flatMap (ruleNodes facts))) :
    Graph.Behind (foundNodes facts cs) (cs.flatMap (ruleNodes facts)) where
  id_eq n hn := by
    rcases List.mem_append.mp hn with hn | hn
    · obtain ⟨d, -, hid, hfile, hname⟩ := mem_foundNodes hn
      rw [hid, hfile, hname]
    · obtain ⟨c, -, hn⟩ := List.mem_flatMap.mp hn
      obtain ⟨r, -, -, rfl⟩ := mem_ruleNodes.mp hn
      rfl
  apart n hn m hm hid := by
    -- of one file, and so of one name, but then the rule would not have entered
    have hfile := hfiles m (List.mem_append_right _ hm) n (List.mem_append_left _ hn) hid
    obtain ⟨d, hd, hdid, hdfile, -⟩ := mem_foundNodes hn
    obtain ⟨c, -, hm⟩ := List.mem_flatMap.mp hm
    obtain ⟨r, -, henters, rfl⟩ := mem_ruleNodes.mp hm
    have hrfile : r.file = d.file := hfile.trans hdfile
    have hname : d.name = Report.ruleName r := by
      have heq : entityId r.file (Report.ruleName r) = entityId d.file d.name := hid.trans hdid
      rw [hrfile] at heq
      exact ((String.append_right_inj _).mp heq).symm
    exact henters.2 d hd ⟨hname, hrfile.symm⟩
  isRule n hn := by
    obtain ⟨c, -, hn⟩ := List.mem_flatMap.mp hn
    obtain ⟨r, -, -, rfl⟩ := mem_ruleNodes.mp hn
    rfl

/-- No rule that enters is refused as a node. -/
theorem refusal?_ruleNodes {n : Graph.Node} (h : n ∈ cs.flatMap (ruleNodes facts)) : n.refusal? = none := by
  obtain ⟨c, -, hn⟩ := List.mem_flatMap.mp h
  obtain ⟨r, -, henters, rfl⟩ := mem_ruleNodes.mp hn
  refine (Graph.Node.refusal?_eq_none_iff _).mpr ⟨fun hid => ?_, fun hname => ?_,
    (by decide : 0.0 ≤ Confidence.modelOnly), (by decide : Confidence.modelOnly ≤ 1.0)⟩
  · have hlength := congrArg String.length hid
    simp [Report.Entity.toNode, Report.Entity.id, entityId] at hlength
  · have hblank := henters.1
    have hempty : String.ofList (r.text.toList.take 80) = "" := hname
    rw [hempty] at hblank
    exact absurd hblank (by decide)

/-- The last node of an identifier is the same in any order. -/
theorem Unrivalled.latest?_eq (h : Unrivalled facts cs) (hperm : cs'.Perm cs) (id : String) :
    Graph.latest? (foundNodes facts cs ++ cs'.flatMap (ruleNodes facts) ++ Graph.otherNodes facts) id =
      Graph.latest? (foundNodes facts cs ++ cs.flatMap (ruleNodes facts) ++ Graph.otherNodes facts) id := by
  rw [Graph.latest?_append, Graph.latest?_append (foundNodes facts cs ++ cs.flatMap (ruleNodes facts))]
  cases hother : Graph.latest? (Graph.otherNodes facts) id with
  | some n => rfl
  | none =>
    have hruled : lastUnder Graph.Node.id id (cs'.flatMap (ruleNodes facts)) =
        lastUnder Graph.Node.id id (cs.flatMap (ruleNodes facts)) :=
      (picks_lastUnder Graph.Node.id id).flatMap_eq_of_perm
        (h.nodes id (Graph.latest?_eq_none_iff.mp hother)) hperm
    have hlatest : Graph.latest? (cs'.flatMap (ruleNodes facts)) id =
        Graph.latest? (cs.flatMap (ruleNodes facts)) id := hruled
    rw [Option.none_or, Option.none_or, Graph.latest?_append, Graph.latest?_append, hlatest]

/-- An import starts from the same node in any order. -/
theorem Anchored.find?_eq (h : Anchored facts cs) (hperm : cs'.Perm cs) {i : Facts.Import} (hi : i ∈ facts.imports) :
    ((foundNodes facts cs ++ cs'.flatMap (ruleNodes facts)).find? (·.file == i.file)).map Graph.Node.id =
      ((foundNodes facts cs ++ cs.flatMap (ruleNodes facts)).find? (·.file == i.file)).map Graph.Node.id := by
  rw [List.find?_append, List.find?_append, Option.map_or, Option.map_or]
  cases hfound : (foundNodes facts cs).find? (·.file == i.file) with
  | some n => rfl
  | none =>
    have hnone : ∀ d ∈ facts.definitions, d.file ≠ i.file := by
      intro d hd hfile
      obtain ⟨x, hx, -, hxfile⟩ := Report.exists_mem_firsts.mpr ⟨d, hd, rfl, rfl⟩
      have hmem : (Report.ofDefinition (Report.mentions (Report.speaking (ofChunks cs).narratives)) x).toNode ∈
          foundNodes facts cs := List.mem_map_of_mem (List.mem_map_of_mem hx)
      exact List.find?_eq_none.mp hfound _ hmem (beq_iff_eq.mpr (hxfile.trans hfile))
    have hpicks : Picks fun nodes : List Graph.Node => (nodes.find? (·.file == i.file)).map Graph.Node.id := by
      refine ⟨rfl, .inl fun xs ys => ?_⟩
      dsimp only
      rw [List.find?_append, Option.map_or]
    exact congrArg (Option.or none) (hpicks.flatMap_eq_of_perm (h.importers i hi hnone) hperm)

end Nodes

section Views

variable {facts : Facts} {cs cs' : List ChunkFindings}

/-- Builds are refused for the same reason or succeed with the same edges, whatever the order. -/
theorem Anchored.build_twins (h : Anchored facts cs) (hperm : cs'.Perm cs) :
    Graph.SameOutcome (Graph.Twins (foundNodes facts cs ++ cs.flatMap (ruleNodes facts) ++ Graph.otherNodes facts)
        (foundNodes facts cs ++ cs'.flatMap (ruleNodes facts) ++ Graph.otherNodes facts))
      (Graph.build (.reconcile facts (ofChunks cs)) facts) (Graph.build (.reconcile facts (ofChunks cs')) facts) := by
  have hnodes := entities_ofChunks facts cs
  have hnodes' := entities_ofChunks facts cs'
  rw [foundNodes_perm facts hperm] at hnodes'
  have hfiles := h.files
  rw [Graph.nodesOf, hnodes] at hfiles
  have hentityFiles := hfiles.subset (List.subset_append_left _ _)
  have hruled : (cs'.flatMap (ruleNodes facts)).Perm (cs.flatMap (ruleNodes facts)) := hperm.flatMap_right _
  have hbehind' : Graph.Behind (foundNodes facts cs) (cs'.flatMap (ruleNodes facts)) := by
    rw [← foundNodes_perm facts hperm]
    refine behind_ofChunks ?_
    rw [foundNodes_perm facts hperm]
    exact hentityFiles.subset (hruled.append_left _).subset
  exact Graph.build_twins hnodes hnodes' (behind_ofChunks hentityFiles) hbehind' hruled (fun n => refusal?_ruleNodes)
    hfiles fun i hi => h.find?_eq hperm hi

/-- What two builds in different orders show, when no two chunks rival each other. -/
theorem Unrivalled.view_eq (h : Unrivalled facts cs) (hperm : cs'.Perm cs) {g g' : Graph}
    (htwins : Graph.Twins (foundNodes facts cs ++ cs.flatMap (ruleNodes facts) ++ Graph.otherNodes facts)
      (foundNodes facts cs ++ cs'.flatMap (ruleNodes facts) ++ Graph.otherNodes facts) g g') (project : String) :
    Atlas.view ⟨project, g', Reasoning.ofChunks cs' g'⟩ = Atlas.view ⟨project, g, Reasoning.ofChunks cs g⟩ := by
  have hnode (id : String) : g'.node? id = g.node? id := by
    rw [htwins.filed'.node?, htwins.filed.node?, h.latest?_eq hperm]
  have hsorted := Graph.sortedNodes_eq hnode
  have hflow : Reasoning.workflowOf? g' = Reasoning.workflowOf? g :=
    funext fun n => Graph.workflowOf?_eq hnode htwins.edges htwins.outgoing n
  obtain ⟨hpurposes, hrules, hrisks⟩ :=
    (Reasoning.sameIntent_iff g g').mpr (Reasoning.uncontested_iff.mp h.intent cs' hperm)
  have hworkflows : (Reasoning.ofChunks cs' g').workflows = (Reasoning.ofChunks cs g).workflows := by
    rw [Reasoning.ofChunks, Reasoning.ofChunks, Reasoning.build_eq, Reasoning.build_eq]
    simp only [Reasoning.workflows, hsorted, hflow]
  have hgraph : g'.snapshot = g.snapshot := by rw [Graph.snapshot, Graph.snapshot, hsorted, htwins.edges]
  simp only [Atlas.view, hgraph, hpurposes, hrules, hrisks, hworkflows]

/-- What two atlases show tells whether their nodes and what they know of intent are the same. -/
theorem same_of_view_eq {project : String} {atlas atlas' : Atlas} (hatlas : Atlas.ofChunks project facts cs = .ok atlas)
    (hatlas' : Atlas.ofChunks project facts cs' = .ok atlas') (hview : atlas'.view = atlas.view) :
    Reasoning.SameIntent cs' cs ∧ ∀ id, atlas'.graph.node? id = atlas.graph.node? id := by
  obtain ⟨g, hbuild, hg⟩ := Graph.exists_of_bind_ok hatlas
  obtain ⟨g', hbuild', hg'⟩ := Graph.exists_of_bind_ok hatlas'
  cases hg
  cases hg'
  refine ⟨(Reasoning.sameIntent_iff g g').mp
    ⟨congrArg Atlas.View.purposes hview, congrArg Atlas.View.rules hview, congrArg Atlas.View.risks hview⟩, ?_⟩
  have hid {report : Report} {g : Graph} (hbuild : Graph.build report facts = .ok g) (id : String) (n : Graph.Node)
      (hn : g.nodes[id]? = some n) : n.id = id := by
    obtain ⟨-, attempts, -, -, rfl, -⟩ := Graph.build_ok hbuild
    exact (Graph.consistent_built attempts).id_of_node hn
  have hnodes : g'.nodes.values = g.nodes.values :=
    congrArg (fun shown : Atlas.View => shown.graph.nodes) hview
  exact (values_eq_iff (hid hbuild') (hid hbuild)).mp hnodes

/-- Where an order does not show, no two chunks rival each other. -/
theorem OrderFree.unrivalled (h : OrderFree facts cs) {project : String} {atlas : Atlas}
    (hatlas : Atlas.ofChunks project facts cs = .ok atlas) : Unrivalled facts cs := by
  have hsame : ∀ cs' : List ChunkFindings, cs'.Perm cs → Reasoning.SameIntent cs' cs ∧ ∀ id,
      Graph.latest? (Graph.nodesOf (.reconcile facts (ofChunks cs')) facts) id =
        Graph.latest? (Graph.nodesOf (.reconcile facts (ofChunks cs)) facts) id := by
    intro cs' hperm
    have hview := h project cs' hperm
    rw [hatlas] at hview
    cases hatlas' : Atlas.ofChunks project facts cs' with
    | error e =>
      rw [hatlas'] at hview
      cases hview
    | ok atlas' =>
      rw [hatlas'] at hview
      obtain ⟨hintent, hnodes⟩ := same_of_view_eq hatlas hatlas' (Except.ok.inj hview)
      refine ⟨hintent, fun id => ?_⟩
      rw [← (Atlas.survival hatlas).latest, ← (Atlas.survival hatlas').latest, hnodes]
  refine ⟨Reasoning.uncontested_iff.mpr fun cs' hperm => (hsame cs' hperm).1, fun id hfree => ?_⟩
  refine (picks_lastUnder Graph.Node.id id).unopposed_iff.mpr fun cs' hperm => ?_
  have hlatest := (hsame cs' hperm).2 id
  have hnone : Graph.latest? (Graph.otherNodes facts) id = none := Graph.latest?_eq_none_iff.mpr hfree
  rw [Graph.nodesOf, Graph.nodesOf, entities_ofChunks, entities_ofChunks, foundNodes_perm facts hperm,
    Graph.latest?_append, Graph.latest?_append (foundNodes facts cs ++ cs.flatMap (ruleNodes facts)), hnone,
    Option.none_or, Option.none_or, Graph.latest?_append, Graph.latest?_append] at hlatest
  have hruled : (cs'.flatMap (ruleNodes facts)).Perm (cs.flatMap (ruleNodes facts)) := hperm.flatMap_right _
  change Graph.latest? (cs'.flatMap (ruleNodes facts)) id = Graph.latest? (cs.flatMap (ruleNodes facts)) id
  cases hold : Graph.latest? (cs.flatMap (ruleNodes facts)) id with
  | none =>
    refine Graph.latest?_eq_none_iff.mpr fun n hn => ?_
    exact Graph.latest?_eq_none_iff.mp hold n (hruled.subset hn)
  | some n =>
    obtain ⟨hn, hid⟩ := Graph.mem_of_latest? hold
    cases hnew : Graph.latest? (cs'.flatMap (ruleNodes facts)) id with
    | none => exact absurd hid (Graph.latest?_eq_none_iff.mp hnew n (hruled.symm.subset hn))
    | some m => rwa [hold, hnew, Option.some_or, Option.some_or] at hlatest

/-- The order in which chunks are done does not show exactly when the build is refused or no two chunks rival each
other. -/
theorem orderFree_iff (h : Anchored facts cs) : OrderFree facts cs ↔
    ∀ project atlas, Atlas.ofChunks project facts cs = .ok atlas → Unrivalled facts cs := by
  refine ⟨fun hfree project atlas => hfree.unrivalled, fun hall project cs' hperm => ?_⟩
  have hbuild := h.build_twins hperm
  have hrivals := hall project
  unfold Atlas.ofChunks Atlas.build at hrivals ⊢
  generalize Graph.build (.reconcile facts (ofChunks cs)) facts = outcome at hbuild hrivals ⊢
  generalize Graph.build (.reconcile facts (ofChunks cs')) facts = outcome' at hbuild ⊢
  cases hbuild with
  | error e => rfl
  | ok htwins => exact congrArg Except.ok ((hrivals _ rfl).view_eq hperm htwins project)

end Views

section Carts

/-- A chunk of which there is nothing to say but what it is for. -/
def narrated (file purpose : String) : ChunkFindings := ⟨{ file := file, purpose := purpose }, [], []⟩

/-- Two chunks of one file that state different purposes: the first one that is done is listened to. -/
theorem not_orderFree_of_two_purposes :
    ¬ OrderFree .empty [narrated "cart.py" "Adds items", narrated "cart.py" "Sums totals"] := by
  intro h
  have hview := congrArg (fun outcome => outcome.toOption.map fun shown : Atlas.View =>
    shown.purposes.map (·.statement)) (h "shop" _ (.swap ..))
  revert hview
  decide +kernel

/-- The cart and what it imports. -/
def importingCart : Facts := { Facts.cart with imports := [⟨"cart.py", "decimal", 1⟩] }

/-- One chunk that states a rule, and one of another file. -/
def cartAndPay : List ChunkFindings :=
  [{ narrated "cart.py" "Adds items" with rules := [positiveTotals 1 2] }, narrated "pay.py" "Takes money"]

theorem orderFree_cartAndPay : Anchored importingCart cartAndPay ∧ OrderFree importingCart cartAndPay := by
  have hanchored : Anchored importingCart cartAndPay := by
    have hplain : Report.PlainFiles importingCart (ofChunks cartAndPay) :=
      ⟨by decide +kernel, by decide +kernel, by decide +kernel, by decide +kernel⟩
    refine ⟨Graph.oneFileEach_of_plainFiles hplain, fun i hi hnone => ?_⟩
    obtain rfl := List.mem_singleton.mp hi
    exact absurd rfl (hnone _ (.head _))
  refine ⟨hanchored, (orderFree_iff hanchored).mpr fun project atlas _ => ⟨⟨fun n m hn hm => ?_, ?_, ?_⟩, ?_⟩⟩
  · have hspeakers : Reasoning.speaking (cartAndPay.map (·.narrative)) =
        [⟨"cart.py", "Adds items", [], [], .medium⟩, ⟨"pay.py", "Takes money", [], [], .medium⟩] := by decide +kernel
    have hall : ∀ n ∈ Reasoning.speaking (cartAndPay.map (·.narrative)),
        ∀ m ∈ Reasoning.speaking (cartAndPay.map (·.narrative)), n.file = m.file → n.purpose = m.purpose := by
      rw [hspeakers]
      decide
    exact hall n hn.1 m hm.1
  · exact fun id => unopposed_cons_of_none (by simp [Reasoning.rulesOf, narrated, lastUnder])
  · exact fun id => unopposed_cons_of_none (by simp [Reasoning.risksOf, narrated, lastUnder])
  · exact fun id _ => unopposed_cons_of_none (by simp [ruleNodes, narrated, lastUnder])

end Carts

end Findings
end CodeAtlas
