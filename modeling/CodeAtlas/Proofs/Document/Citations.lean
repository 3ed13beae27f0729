import CodeAtlas.Citation.Check
import CodeAtlas.Document.Topics
import CodeAtlas.Proofs.Graph.Answers
import CodeAtlas.Proofs.Graph.Survival
import CodeAtlas.Proofs.Reasoning.Order
import CodeAtlas.Proofs.Scan.Places
import CodeAtlas.Repository.Ingest

/-! The lengths of files. A repository that is known by its chunks has each of their files once, as long as the last
line that one of its chunks has, so that a citation within the lines of a chunk has no flaw. -/
namespace CodeAtlas

namespace Repository

/-- Whether files are listed under their own paths, each with the lines of its chunks. -/
structure Lists (chunks : List Chunk) (files : Std.TreeMap String File) : Prop where
  path : ∀ (path : String) (f : File), files[path]? = some f → f.path = path
  listed : ∀ c ∈ chunks, ∃ f : File, files[c.file]? = some f ∧ c.endLine ≤ f.lineCount

theorem Lists.noteChunk {chunks : List Chunk} {files : Std.TreeMap String File} (h : Lists chunks files) (c : Chunk) :
    Lists (chunks ++ [c]) (noteChunk files c) := by
  have hget (path : String) : (Repository.noteChunk files c)[path]? = if c.file = path then
      let file := files[c.file]?.getD ⟨c.file, c.language, 0⟩
      some { file with lineCount := max file.lineCount c.endLine }
      else files[path]? := by
    rw [Repository.noteChunk, Std.TreeMap.getElem?_alter]
    simp only [Std.LawfulEqCmp.compare_eq_iff_eq]
  have hpath : (files[c.file]?.getD ⟨c.file, c.language, 0⟩).path = c.file := by
    cases hfile : files[c.file]? with
    | none => rfl
    | some f => exact h.path _ _ hfile
  refine ⟨fun path f hf => ?_, fun d hd => ?_⟩
  · rw [hget] at hf
    split at hf
    · next heq =>
      cases hf
      exact hpath.trans heq
    · exact h.path _ _ hf
  · rw [hget]
    by_cases heq : c.file = d.file
    · refine ⟨_, if_pos heq, ?_⟩
      rcases List.mem_append.mp hd with hd | hd
      · obtain ⟨f, hf, hend⟩ := h.listed d hd
        rw [heq, hf]
        exact Nat.le_trans hend (Nat.le_max_left ..)
      · obtain rfl := List.mem_singleton.mp hd
        exact Nat.le_max_right ..
    · rcases List.mem_append.mp hd with hd | hd
      · obtain ⟨f, hf, hend⟩ := h.listed d hd
        exact ⟨f, by rw [if_neg heq, hf], hend⟩
      · exact absurd (congrArg Chunk.file (List.mem_singleton.mp hd)).symm heq

theorem lists_foldl (chunks : List Chunk) : Lists chunks (chunks.foldl noteChunk {}) := by
  induction chunks using List.reverseRecOn with
  | nil => exact ⟨fun path f hf => by simp at hf, fun c hc => by simp at hc⟩
  | append_singleton before c ih =>
    rw [List.foldl_append]
    exact ih.noteChunk c

theorem mem_lineCounts_iff {commit : String} {chunks : List Chunk} {path : String} {lines : Nat} :
    (path, lines) ∈ (ofChunks commit chunks).lineCounts ↔
      ∃ f, (chunks.foldl noteChunk {})[path]? = some f ∧ f.lineCount = lines := by
  have hpath := (lists_foldl chunks).path
  simp only [lineCounts, ofChunks, Graph.values_eq_map_toList, List.map_map, List.mem_map, Prod.exists,
    Std.TreeMap.mem_toList_iff_getElem?_eq_some, Function.comp_apply, Prod.mk.injEq]
  constructor
  · rintro ⟨key, f, hf, rfl, rfl⟩
    exact ⟨f, (hpath key f hf).symm ▸ hf, rfl⟩
  · rintro ⟨f, hf, rfl⟩
    exact ⟨path, f, hf, hpath path f hf, rfl⟩

/-- The length of a file is at least the last line of each of its chunks. -/
theorem lookup_lineCounts (commit : String) {chunks : List Chunk} {c : Chunk} (hc : c ∈ chunks) :
    ∃ lines, (ofChunks commit chunks).lineCounts.reverse.lookup c.file = some lines ∧ c.endLine ≤ lines := by
  obtain ⟨f, hf, hend⟩ := (lists_foldl chunks).listed c hc
  have hmem : (c.file, f.lineCount) ∈ (ofChunks commit chunks).lineCounts.reverse :=
    List.mem_reverse.mpr (mem_lineCounts_iff.mpr ⟨f, hf, rfl⟩)
  cases hlookup : (ofChunks commit chunks).lineCounts.reverse.lookup c.file with
  | none => exact absurd (List.lookup_eq_none_iff.mp hlookup _ hmem) (by simp)
  | some lines =>
    obtain ⟨before, after, hsplit, -⟩ := List.lookup_eq_some_iff.mp hlookup
    have hfound : (c.file, lines) ∈ (ofChunks commit chunks).lineCounts.reverse := by simp [hsplit]
    obtain ⟨g, hg, rfl⟩ := mem_lineCounts_iff.mp (List.mem_reverse.mp hfound)
    obtain rfl := Option.some.inj (hf.symm.trans hg)
    exact ⟨_, rfl, hend⟩

end Repository

namespace Citation

/-- Whether the lines of a citation are in order and counted from one. -/
def InOrder (c : Citation) : Prop := 1 ≤ c.startLine ∧ c.startLine ≤ c.endLine

/-- All that can be wrong with lines in order is that the file is not known or has fewer lines. -/
theorem InOrder.flaw?_eq_some_iff {c : Citation} (h : c.InOrder) {lengths : Repository.LineCounts} {flaw : Flaw} :
    c.flaw? lengths = some flaw ↔
      (lengths.reverse.lookup c.file = none ∧ flaw = .noFile) ∨
        ∃ lines, lengths.reverse.lookup c.file = some lines ∧ lines < c.endLine ∧ flaw = .endsAfterLastLine lines := by
  obtain ⟨hstart, hend⟩ := h
  unfold flaw?
  cases lengths.reverse.lookup c.file with
  | none => simp [eq_comm]
  | some lines =>
    simp only [if_neg (Nat.not_lt.mpr hstart), if_neg (Nat.not_lt.mpr hend)]
    by_cases hlong : lines < c.endLine
    · simp [hlong, eq_comm]
    · simp [hlong]

theorem flaw?_eq_none_iff {c : Citation} {lengths : Repository.LineCounts} : c.flaw? lengths = none ↔
    ∃ lines, lengths.reverse.lookup c.file = some lines ∧
      1 ≤ c.startLine ∧ c.startLine ≤ c.endLine ∧ c.endLine ≤ lines := by
  unfold flaw?
  cases lengths.reverse.lookup c.file with
  | none => simp
  | some lines =>
    simp only [Option.some.injEq, exists_eq_left']
    split_ifs <;> simp <;> omega

end Citation
end CodeAtlas

/-! What sections cite. A section cites nodes of the graph and rules and risks of the model, and nothing else. Where
the model states no rules and no risks, all that is cited is what the scanner found, at lines that are in the file. -/
namespace CodeAtlas

namespace Document

/-- What a section may cite. A rule or a risk that names no line is not cited. -/
inductive Cites (s : Source) : Citation → Prop where
  | node (n : Graph.Node) (h : n ∈ s.nodes) : Cites s (citationOf n)
  | rule (r : Reasoning.Rule) (h : r ∈ s.atlas.reasoning.rules) (line : 0 < r.lineStart) :
    Cites s ⟨r.file, r.lineStart, max r.lineEnd r.lineStart⟩
  | risk (r : Reasoning.Risk) (h : r ∈ s.atlas.reasoning.risks) (line : 0 < r.line) : Cites s ⟨r.file, r.line, r.line⟩

section Sections

variable {s : Source}

theorem mem_nodes_of_node? {id : String} {n : Graph.Node} (h : s.atlas.graph.node? id = some n) : n ∈ s.nodes := by
  rw [Source.nodes, Graph.sortedNodes, Graph.values_eq_map_toList]
  exact List.mem_map.mpr ⟨(id, n), Std.TreeMap.mem_toList_iff_getElem?_eq_some.mpr h, rfl⟩

theorem mem_nodes_of_kind {kind : EntityKind} {n : Graph.Node} (h : n ∈ s.atlas.graph.nodesOfKind kind) :
    n ∈ s.nodes := by
  rw [Graph.nodesOfKind, List.mem_mergeSort] at h
  exact (List.mem_filter.mp h).1

theorem mem_nodes_of_nodesWith {words : List String} {nodes : List Graph.Node} (hnodes : ∀ n ∈ nodes, n ∈ s.nodes)
    {n : Graph.Node} (h : n ∈ (nodesWith words nodes).map (·.1)) : n ∈ s.nodes := by
  obtain ⟨⟨m, word⟩, hm, rfl⟩ := List.mem_map.mp h
  obtain ⟨x, hx, hword⟩ := List.mem_filterMap.mp hm
  obtain ⟨w, -, heq⟩ := Option.map_eq_some_iff.mp hword
  obtain ⟨rfl, -⟩ := Prod.mk.inj heq
  exact hnodes x hx

theorem mem_nodes_of_callable {n : Graph.Node} (h : n ∈ s.callables) : n ∈ s.nodes := (List.mem_filter.mp h).1

theorem cites_ofNodes {blocks : List Markdown.Block} {nodes : List Graph.Node} (h : ∀ n ∈ nodes, n ∈ s.nodes) :
    ∀ c ∈ (Sketch.ofNodes blocks nodes).citations, Cites s c := by
  intro c hc
  obtain ⟨n, hn, rfl⟩ := List.mem_map.mp hc
  exact .node n (h n hn)

theorem cites_dataModels : ∀ c ∈ (dataModels s).citations, Cites s c := by
  unfold dataModels
  dsimp only
  split
  · exact cites_ofNodes fun n hn => (List.mem_filter.mp hn).1
  · exact cites_ofNodes fun n hn => (List.mem_filter.mp hn).1

theorem cites_securityConsiderations : ∀ c ∈ (securityConsiderations s).citations, Cites s c := by
  intro c hc
  rcases List.mem_append.mp hc with hc | hc
  · refine cites_ofNodes (fun n hn => ?_) c hc
    rw [List.map_append] at hn
    rcases List.mem_append.mp hn with hn | hn
    · exact mem_nodes_of_nodesWith (fun _ => mem_nodes_of_callable) hn
    · exact mem_nodes_of_nodesWith (fun _ => id) hn
  · obtain ⟨r, hr, rfl⟩ := List.mem_map.mp hc
    obtain ⟨hrisk, hline⟩ := List.mem_filter.mp hr
    exact .risk r (List.mem_mergeSort.mp hrisk) (of_decide_eq_true hline)

theorem cites_userStories : ∀ c ∈ (userStories s).citations, Cites s c := by
  intro c hc
  rcases List.mem_append.mp hc with hc | hc
  · refine cites_ofNodes (fun n hn => ?_) c hc
    obtain ⟨step, -, hstep⟩ := List.mem_filterMap.mp hn
    exact mem_nodes_of_node? hstep
  · obtain ⟨r, hr, rfl⟩ := List.mem_map.mp hc
    obtain ⟨hrule, hline⟩ := List.mem_filter.mp hr
    exact .rule r hrule (of_decide_eq_true hline)

/-- Every section on offer cites nodes, rules and risks alone. -/
theorem cites_of_mem_topics {topic : Topic} (h : topic ∈ topics) : ∀ c ∈ (topic.sketch s).citations, Cites s c := by
  simp only [topics, List.mem_cons, List.not_mem_nil, or_false] at h
  rcases h with rfl | rfl | rfl | rfl | rfl | rfl | rfl | rfl
  · exact cites_ofNodes fun _ => id
  · exact cites_ofNodes fun _ => mem_nodes_of_callable
  · exact cites_ofNodes fun _ => id
  · exact cites_dataModels
  · refine cites_ofNodes fun n hn => ?_
    rcases List.mem_append.mp hn with hn | hn
    · exact mem_nodes_of_kind hn
    · exact mem_nodes_of_callable (List.mem_filter.mp hn).1
  · exact cites_securityConsiderations
  · exact cites_userStories
  · refine cites_ofNodes fun n hn => ?_
    rcases List.mem_append.mp hn with hn | hn
    · exact mem_nodes_of_kind hn
    · exact mem_nodes_of_kind (List.mem_filter.mp hn).1

theorem Cites.inOrder {c : Citation} (h : Cites s c) : c.InOrder := by
  cases h with
  | node n _ =>
    refine ⟨Nat.le_max_right _ _, ?_⟩
    simp only [citationOf]
    omega
  | rule r _ line => exact ⟨line, Nat.le_max_right _ _⟩
  | risk r _ line => exact ⟨line, Nat.le_refl _⟩

end Sections

/-- Whatever the lines of nodes, rules and risks are, every section on offer cites lines in order and counted from one. So
all that can be found wrong with a citation is that its file is not known or has fewer lines. -/
theorem citations_in_order {topic : Topic} (h : topic ∈ topics) (s : Source) {c : Citation}
    (hc : c ∈ (topic.sketch s).citations) :
    1 ≤ c.startLine ∧ c.startLine ≤ c.endLine ∧
      ∀ (lengths : Repository.LineCounts) (flaw : Citation.Flaw), c.flaw? lengths = some flaw ↔
        (lengths.reverse.lookup c.file = none ∧ flaw = .noFile) ∨
          ∃ lines, lengths.reverse.lookup c.file = some lines ∧ lines < c.endLine ∧ flaw = .endsAfterLastLine lines := by
  have horder := (cites_of_mem_topics h c hc).inOrder
  exact ⟨horder.1, horder.2, fun lengths flaw => horder.flaw?_eq_some_iff⟩

/-- A workflow that starts at a node without lines, a rule without a line, and one that ends before it starts. -/
def crookedSource : Source where
  atlas := {
    project := "shop"
    graph := Graph.empty.insertNode {
      id := "shop.py::pay", name := "pay", kind := .function, file := "shop.py", startLine := 0, endLine := 0,
      confidence := ⟨0.9, .deterministic, ""⟩ }
    reasoning :=
      let r := [("a", 0, 4), ("b", 9, 3)].foldl (fun r (id, lineStart, lineEnd) => r.addRule {
        id := id, text := id, kind := "pricing", condition := "", consequence := "", file := "pay.py",
        lineStart := lineStart, lineEnd := lineEnd, confidence := ⟨0.5, .probabilistic, ""⟩ }) Reasoning.empty
      r.addWorkflow {
        id := "pay", name := "pay", description := "", steps := [⟨1, "shop.py::pay", ""⟩],
        confidence := ⟨0.5, .probabilistic, ""⟩ } }

theorem citations_in_order_crooked :
    ⟨"user_stories", "User Stories", userStories⟩ ∈ topics ∧ ⟨"pay.py", 9, 9⟩ ∈ (userStories crookedSource).citations ∧
    (userStories crookedSource).citations = [⟨"shop.py", 1, 1⟩, ⟨"pay.py", 9, 9⟩] ∧
    ∀ (lengths : Repository.LineCounts) (flaw : Citation.Flaw), (⟨"pay.py", 9, 9⟩ : Citation).flaw? lengths = some flaw ↔
      (lengths.reverse.lookup "pay.py" = none ∧ flaw = .noFile) ∨
        ∃ lines, lengths.reverse.lookup "pay.py" = some lines ∧ lines < 9 ∧ flaw = .endsAfterLastLine lines := by
  have htopic : ⟨"user_stories", "User Stories", userStories⟩ ∈ topics := by simp [topics]
  have hcited : (userStories crookedSource).citations = [⟨"shop.py", 1, 1⟩, ⟨"pay.py", 9, 9⟩] := by decide +kernel
  have hmem : ⟨"pay.py", 9, 9⟩ ∈ (userStories crookedSource).citations := hcited ▸ .tail _ (.head _)
  exact ⟨htopic, hmem, hcited, (citations_in_order htopic crookedSource hmem).2.2⟩

end Document

section Parsed

variable {facts : Facts} {findings : Findings} {project : String} {atlas : Atlas}

/-- Without rules of the model, a node comes of a definition, an endpoint or a table. -/
theorem Atlas.origin_of_mem_sortedNodes (hrules : findings.rules = [])
    (h : Atlas.build project (.reconcile facts findings) facts findings = .ok atlas) {n : Graph.Node}
    (hn : n ∈ atlas.graph.sortedNodes) :
    (∃ d ∈ facts.definitions, n.file = d.file ∧ n.startLine = d.startLine ∧ n.endLine = d.endLine) ∨
      (∃ e ∈ facts.endpoints, Graph.endpointNode e = n) ∨ ∃ s ∈ facts.schemas, Graph.schemaNode s = n := by
  have hfound : n ∈ Graph.nodesOf (.reconcile facts findings) facts := by
    rw [Graph.sortedNodes, Graph.values_eq_map_toList] at hn
    obtain ⟨⟨id, m⟩, hm, rfl⟩ := List.mem_map.mp hn
    have hget : atlas.graph.node? id = some m := Std.TreeMap.mem_toList_iff_getElem?_eq_some.mp hm
    rw [(Atlas.survival h).latest] at hget
    exact (Graph.mem_of_latest? hget).1
  rcases List.mem_append.mp hfound with hentity | hother
  · obtain ⟨v, hv, rfl⟩ := List.mem_map.mp hentity
    obtain ⟨d, hd, rfl⟩ | ⟨r, hr, -⟩ := Report.mem_entities_iff.mp hv
    · exact .inl ⟨d, Report.mem_of_mem_firsts hd, rfl, rfl, rfl⟩
    · simp [hrules] at hr
  · rcases List.mem_append.mp hother with hother | hother
    · exact .inr (.inl (List.mem_map.mp hother))
    · exact .inr (.inr (List.mem_map.mp hother))

theorem Atlas.no_rules_no_risks (hrules : findings.rules = []) (hrisks : findings.risks = [])
    (h : Atlas.build project (.reconcile facts findings) facts findings = .ok atlas) :
    atlas.reasoning.rules = [] ∧ atlas.reasoning.risks = [] := by
  obtain ⟨g, -, hatlas⟩ := Graph.exists_of_bind_ok h
  cases hatlas
  rw [Reasoning.build_eq, hrules, hrisks]
  exact ⟨rfl, rfl⟩

end Parsed

namespace Document

/-- Lines that a chunk holds can be cited. -/
theorem flaw?_citationOf {commit : String} {chunks : List Chunk} {c : Chunk} (hc : c ∈ chunks) (hspans : c.Spans)
    {n : Graph.Node} (h : c.Holds n.file n.startLine n.endLine) :
    (citationOf n).flaw? (Repository.ofChunks commit chunks).lineCounts = none := by
  obtain ⟨lines, hlookup, hend⟩ := Repository.lookup_lineCounts commit hc
  have hstarts := h.starts
  have hends := h.ends
  have horder := h.order
  have hfirst := hspans.startLine
  refine Citation.flaw?_eq_none_iff.mpr ⟨lines, ?_, ?_, ?_, ?_⟩
  · rw [citationOf, h.file_eq, hlookup]
  all_goals simp only [citationOf]; omega

/-- Citations of parsed code always resolve: whatever files are cut into windows of whatever size and scanned, and
whatever the model says beside rules and risks, each section on offer cites lines that the files have. -/
theorem flaw?_of_cited {files : List Repository.Source} {maxLines : Nat} {findings : Findings} {project : String}
    {atlas : Atlas} {topic : Topic} {c : Citation} (hrules : findings.rules = []) (hrisks : findings.risks = [])
    (hbuild : Atlas.build project
      (.reconcile (.concat ((files.flatMap (·.chunks maxLines)).map Scan.scan)) findings)
      (.concat ((files.flatMap (·.chunks maxLines)).map Scan.scan)) findings = .ok atlas)
    (htopic : topic ∈ topics) (languages : List (String × Nat))
    (hc : c ∈ (topic.sketch ⟨atlas, languages⟩).citations) (commit : String) :
    c.flaw? (Repository.ofChunks commit (files.flatMap (·.chunks maxLines))).lineCounts = none := by
  have hspans : ∀ chunk ∈ files.flatMap (·.chunks maxLines), chunk.Spans := by
    intro chunk hchunk
    obtain ⟨file, -, hmem⟩ := List.mem_flatMap.mp hchunk
    exact Chunk.spans_of_mem_ofText hmem
  obtain ⟨hdefinitions, hendpoints, hschemas⟩ := Scan.exists_holds_of_mem_concat hspans
  obtain ⟨hnorules, hnorisks⟩ := Atlas.no_rules_no_risks hrules hrisks hbuild
  cases cites_of_mem_topics htopic c hc with
  | node n hn =>
    suffices hplace : ∃ chunk ∈ files.flatMap (·.chunks maxLines), chunk.Holds n.file n.startLine n.endLine by
      obtain ⟨chunk, hchunk, hholds⟩ := hplace
      exact flaw?_citationOf hchunk (hspans chunk hchunk) hholds
    obtain ⟨d, hd, hfile, hstart, hend⟩ | ⟨e, he, rfl⟩ | ⟨s, hs, rfl⟩ :=
      Atlas.origin_of_mem_sortedNodes hrules hbuild hn
    · rw [hfile, hstart, hend]
      exact hdefinitions d hd
    · exact hendpoints e he
    · exact hschemas s hs
  | rule r hr => simp [hnorules] at hr
  | risk r hr => simp [hnorisks] at hr

/-- A route with its handler, and a table. -/
def shop : List Repository.Source := [
  ⟨"shop.py", "python", "@app.get(\"/cart\")\ndef cart():\n  total()\n\ndef total():\n  pass\n"⟩,
  ⟨"shop.sql", "sql", "create table orders (\n  id int\n)\n"⟩]

/-- What the scanner finds there in windows of four lines. -/
def shopFacts : Facts := .concat ((shop.flatMap (·.chunks 4)).map Scan.scan)

theorem flaw?_of_cited_shop : ∃ atlas, Atlas.build "shop" (.reconcile shopFacts .empty) shopFacts .empty = .ok atlas ∧
    ⟨"shop.py", 2, 4⟩ ∈ (features ⟨atlas, []⟩).citations ∧
      (⟨"shop.py", 2, 4⟩ : Citation).flaw? (Repository.ofChunks "head" (shop.flatMap (·.chunks 4))).lineCounts = none := by
  obtain ⟨atlas, hbuild, hcited⟩ := Graph.exists_of_map_eq_some
    (f := fun a : Atlas => (features ⟨a, []⟩).citations)
    (x := Atlas.build "shop" (.reconcile shopFacts .empty) shopFacts .empty)
    (b := [⟨"shop.py", 2, 4⟩, ⟨"shop.py", 5, 6⟩]) (by decide +kernel)
  have hmem : ⟨"shop.py", 2, 4⟩ ∈ (features ⟨atlas, []⟩).citations := hcited ▸ .head _
  have htopic : ⟨"features", "Main Application Features", features⟩ ∈ topics := .tail _ (.head _)
  exact ⟨atlas, hbuild, hmem, flaw?_of_cited rfl rfl hbuild htopic [] hmem "head"⟩

end Document
end CodeAtlas
