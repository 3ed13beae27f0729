import CodeAtlas.Document.Topics
import CodeAtlas.Proofs.Decimal.Digits
import CodeAtlas.Proofs.Document.Cells

/-! Tables of sections. Each table stands by itself, with empty lines around it, and each of its rows shows values of the
atlas: most of them escaped, the method of an endpoint as it is. So a row keeps the shape of its table unless a value
breaks it, by a bar that was escaped before or, in a method, by any bar or line break. -/
namespace CodeAtlas

namespace Markdown

section Words

variable {s t : String}

theorem openBars_of_isPlain (h : ∀ c ∈ s.toList, IsPlain c) : openBars s = 0 := bars_of_isPlain h

theorem isPlain_count {n : ℕ} {c : Char} (h : c ∈ (Document.count n).toList) : IsPlain c := by
  rw [Document.count, Decimal.toList_natText] at h
  exact isPlain_of_alphanum (by simp [Char.isAlphanum, Decimal.isDigit_of_mem h])

theorem openBars_count (n : ℕ) : openBars (Document.count n) = 0 := openBars_of_isPlain fun _ => isPlain_count

theorem isLine_count (n : ℕ) : IsLine (Document.count n) := by
  simp only [IsLine, Document.count, Decimal.toList_natText]
  constructor <;> intro h <;> exact absurd (Decimal.isDigit_of_mem h) (by decide)

/-- The line of a place neither breaks a cell nor escapes a bar. -/
theorem escapedBars_place (file : String) (line : ℕ) :
    escapedBars (file ++ ":" ++ Decimal.natText line) = escapedBars file := by
  have hcolon : IsPlain ':' := by unfold IsPlain; decide
  have hline : bars true 0 (Decimal.natText line).toList = 0 := bars_of_isPlain fun _ => isPlain_count
  simp only [escapedBars, String.toList_append]
  show bars true 0 (file.toList ++ [':'] ++ _) = _
  rw [List.append_assoc, List.singleton_append, bars_append_cons hcolon, hline, Nat.add_zero]

theorem openBars_intercalate (texts : List String) :
    openBars (", ".intercalate texts) = (texts.map openBars).sum := by
  have hcomma : IsPlain ',' := by unfold IsPlain; decide
  have hspace : IsPlain ' ' := isPlain_of_isBlank (by decide)
  induction texts with
  | nil => rfl
  | cons t texts ih =>
    cases texts with
    | nil => simp [openBars]
    | cons u texts =>
      have hjoin : openBars (t ++ ", " ++ ", ".intercalate (u :: texts)) =
          openBars t + openBars (", ".intercalate (u :: texts)) := by
        simp only [openBars, String.toList_append]
        show bars false 0 (t.toList ++ [',', ' '] ++ _) = _
        rw [List.append_assoc, List.cons_append, bars_append_cons hcomma, List.singleton_append,
          bars_cons_of_isPlain hspace]
      simp [String.intercalate_cons_cons, hjoin, ih]

theorem isLine_intercalate {texts : List String} (h : ∀ t ∈ texts, IsLine t) : IsLine (", ".intercalate texts) := by
  induction texts with
  | nil => decide
  | cons t texts ih =>
    obtain ⟨ht, hrest⟩ := List.forall_mem_cons.mp h
    cases texts with
    | nil => simpa using ht
    | cons u texts =>
      rw [String.intercalate_cons_cons]
      exact isLine_append.mpr ⟨isLine_append.mpr ⟨ht, by decide⟩, ih hrest⟩

end Words

/-- Whether a line is a row of so many cells. -/
def IsRow (columns : ℕ) (line : String) : Prop := IsLine line ∧ (cells line).length = columns

/-- Whether some texts are values that are escaped, texts that are written as they are, and words of our own. -/
inductive Shows : (texts escaped plain : List String) → Prop where
  | nil : Shows [] [] []
  | cell (value : String) {texts escaped plain : List String} (h : Shows texts escaped plain) :
    Shows (Markdown.cell value :: texts) (value :: escaped) plain
  | code (value : String) {texts escaped plain : List String} (h : Shows texts escaped plain) :
    Shows (Markdown.code value :: texts) (value :: escaped) plain
  | place (file : String) (line : ℕ) {texts escaped plain : List String} (h : Shows texts escaped plain) :
    Shows (Markdown.code (file ++ ":" ++ Document.count line) :: texts) (file :: escaped) plain
  | names (values more : List String) (hbars : ∀ t ∈ more, openBars t = 0) (hline : ∀ t ∈ more, IsLine t)
    {texts escaped plain : List String} (h : Shows texts escaped plain) :
    Shows (", ".intercalate (values.map Markdown.cell ++ more) :: texts) (values ++ escaped) plain
  | own {word : String} (hbars : openBars word = 0) (hline : IsLine word) {texts escaped plain : List String}
    (h : Shows texts escaped plain) : Shows (word :: texts) escaped plain
  | plain (text : String) {texts escaped plain : List String} (h : Shows texts escaped plain) :
    Shows (text :: texts) escaped (text :: plain)

section Shows

variable {texts escaped plain : List String}

/-- What cuts a row is what was escaped before, or was not escaped. -/
theorem Shows.sum_openBars (h : Shows texts escaped plain) :
    (texts.map openBars).sum = (escaped.map escapedBars).sum + (plain.map openBars).sum := by
  induction h with
  | nil => rfl
  | cell value _ ih => simp [ih, openBars_cell, Nat.add_assoc]
  | code value _ ih => simp [ih, openBars_code, Nat.add_assoc]
  | place file line _ ih => simp [ih, openBars_code, Document.count, escapedBars_place, Nat.add_assoc]
  | names values more hbars _ _ ih =>
    have hmore : (more.map openBars).sum = 0 := List.sum_eq_zero (by simpa using hbars)
    have hvalues : ((values.map Markdown.cell).map openBars).sum = (values.map escapedBars).sum := by
      simp [Function.comp_def, openBars_cell]
    simp [ih, openBars_intercalate, hmore, ← hvalues, Nat.add_assoc]
  | own hbars _ _ ih => simp [ih, hbars]
  | plain text _ ih => simp [ih, Nat.add_left_comm]

theorem Shows.forall_isLine_iff (h : Shows texts escaped plain) :
    (∀ t ∈ texts, IsLine t) ↔ ∀ t ∈ plain, IsLine t := by
  induction h with
  | nil => rfl
  | cell value _ ih => simp [ih, isLine_cell]
  | code value _ ih => simp [ih, isLine_code]
  | place file line _ ih => simp [ih, isLine_code]
  | names values more _ hline _ ih =>
    have hnames : IsLine (", ".intercalate (values.map Markdown.cell ++ more)) := by
      refine isLine_intercalate fun t ht => ?_
      rcases List.mem_append.mp ht with ht | ht
      · obtain ⟨value, -, rfl⟩ := List.mem_map.mp ht
        exact isLine_cell value
      · exact hline t ht
    simp [ih, hnames]
  | own _ hline _ ih => simp [ih, hline]
  | plain text _ ih => simp [ih]

/-- A row keeps its shape as long as no value that it shows breaks it. -/
theorem Shows.isRow_iff (h : Shows texts escaped plain) (hne : texts ≠ []) :
    IsRow texts.length (row texts) ↔
      (∀ value ∈ escaped, escapedBars value = 0) ∧ ∀ text ∈ plain, openBars text = 0 ∧ IsLine text := by
  rw [IsRow, isLine_row, h.forall_isLine_iff, length_cells_row hne, h.sum_openBars]
  have hcount : texts.length + ((escaped.map escapedBars).sum + (plain.map openBars).sum) = texts.length ↔
      (∀ value ∈ escaped, escapedBars value = 0) ∧ ∀ text ∈ plain, openBars text = 0 := by
    rw [Nat.add_eq_left, Nat.add_eq_zero_iff, List.sum_eq_zero_iff, List.sum_eq_zero_iff]
    simp
  rw [hcount, and_left_comm, forall₂_and, and_comm (a := ∀ t ∈ plain, IsLine t)]

end Shows

/-- The headers and the rows of a table. -/
def Block.table? : Block → Option (List String × List (List String))
  | .table headers rows => some (headers, rows)
  | _ => none

end Markdown

namespace Document

open Markdown

/-- The rows of tables: under some headers some texts, which show values that are escaped and texts as they are. -/
inductive TableRow (s : Source) : (headers texts escaped plain : List String) → Prop where
  | file (file : String) (nodes : List Graph.Node) (h : (file, nodes) ∈ (s.callables.foldl FileGroups.note {}).toList) :
    TableRow s ["File", "Purpose", "Entities"] (featureRow s.atlas.reasoning file nodes)
      (file :: ((s.atlas.reasoning.purpose? file).map (·.statement)).toList ++ (nodes.take maxNames).map (·.name)) []
  | callable (n : Graph.Node) (h : n ∈ s.callables) :
    TableRow s ["Name", "File", "Signature"] [code n.name, code n.file, signature n]
      [n.name, n.file, n.signature.getD ""] []
  | model (n : Graph.Node) (h : n ∈ s.nodes) :
    TableRow s ["Name", "Kind", "Location", "Description"] (modelRow n) [n.name, n.file, n.description.getD "-"] []
  | endpoint (n : Graph.Node) (h : n ∈ s.atlas.graph.nodesOfKind .endpoint) :
    TableRow s ["Method", "Path", "Handler", "Location"] (endpointRow n)
      [(methodAndPath n.name).2, n.signature.getD "", n.file] [(methodAndPath n.name).1]
  | handler (n : Graph.Node) (h : n ∈ s.callables) :
    TableRow s ["Name", "Location", "Signature"] [code n.name, placeOf n, signature n]
      [n.name, n.file, n.signature.getD ""] []
  | danger (n : Graph.Node) (h : n ∈ s.callables) (word : String) (hword : wordIn? dangerWords n = some word) :
    TableRow s ["Name", "Location", "Pattern"] [code n.name, placeOf n, code word] [n.name, n.file, word] []
  | secret (n : Graph.Node) (h : n ∈ s.nodes) (word : String) (hword : wordIn? secretWords n = some word) :
    TableRow s ["Name", "Kind", "Location", "Pattern"] [code n.name, n.kind.text, placeOf n, code word]
      [n.name, n.file, word] []
  | risk (r : Reasoning.Risk) (h : r ∈ s.atlas.reasoning.risks) :
    TableRow s ["Severity", "Title", "Location", "Recommendation"] (riskRow r)
      [r.title, r.file, r.recommendations.head?.getD "-"] []
  | interface (n : Graph.Node) (h : n ∈ s.atlas.graph.nodesOfKind .interface) :
    TableRow s ["Name", "Location", "Description"] (interfaceRow n)
      [n.name, n.file, clip (n.description.getD "-") 120] []
  | service (n : Graph.Node) (h : n ∈ s.atlas.graph.nodesOfKind .type) :
    TableRow s ["Name", "Location", "Direct callers"] (serviceRow s.atlas.graph n) [n.name, n.file] []

section TableRow

variable {s : Source} {headers texts escaped plain : List String}

theorem shows_kind (k : EntityKind) (h : Shows texts escaped plain) : Shows (k.text :: texts) escaped plain := by
  have hkind : openBars k.text = 0 ∧ IsLine k.text := by cases k <;> decide
  exact h.own hkind.1 hkind.2

theorem shows_severity (x : Findings.Severity) (h : Shows texts escaped plain) :
    Shows (x.text :: texts) escaped plain := by
  have hseverity : openBars x.text = 0 ∧ IsLine x.text := by cases x <;> decide
  exact h.own hseverity.1 hseverity.2

theorem shows_count (n : ℕ) (h : Shows texts escaped plain) : Shows (count n :: texts) escaped plain :=
  h.own (openBars_count n) (isLine_count n)

theorem shows_nameList (nodes : List Graph.Node) (h : Shows texts escaped plain) :
    Shows (nameList nodes :: texts) ((nodes.take maxNames).map (·.name) ++ escaped) plain := by
  have hplain (n : ℕ) : ∀ c ∈ ("+" ++ count n ++ " more").toList, IsPlain c := by
    have hleft : ∀ c ∈ "+".toList, IsPlain c := by simp [IsPlain]
    have hright : ∀ c ∈ " more".toList, IsPlain c := by simp [IsPlain]
    intro c hc
    simp only [String.toList_append, List.mem_append] at hc
    rcases hc with (hc | hc) | hc
    · exact hleft c hc
    · exact isPlain_count hc
    · exact hright c hc
  have hline (n : ℕ) : IsLine ("+" ++ count n ++ " more") :=
    isLine_append.mpr ⟨isLine_append.mpr ⟨by decide, isLine_count n⟩, by decide⟩
  have hnames := Shows.names ((nodes.take maxNames).map (·.name))
    (if maxNames < nodes.length then ["+" ++ count (nodes.length - maxNames) ++ " more"] else [])
    (by split <;> simp [openBars_of_isPlain (hplain _)]) (by split <;> simp [hline]) h
  simpa [nameList, Function.comp_def] using hnames

theorem shows_purpose (purpose : Option Reasoning.Purpose) (h : Shows texts escaped plain) :
    Shows ((purpose.map fun p => cell p.statement).getD "-" :: texts)
      ((purpose.map (·.statement)).toList ++ escaped) plain := by
  cases purpose with
  | none => exact h.own (by decide) (by decide)
  | some p => exact h.cell p.statement

theorem TableRow.shows (h : TableRow s headers texts escaped plain) : Shows texts escaped plain := by
  cases h with
  | file file nodes =>
    have hnames := shows_nameList nodes .nil
    rw [List.append_nil] at hnames
    exact (shows_purpose _ hnames).code file
  | callable n => exact ((Shows.nil.code _).code _).code _
  | model n => exact (shows_kind n.kind ((Shows.nil.cell _).place _ _)).code _
  | endpoint n => exact (((Shows.nil.place _ _).code _).code _).plain _
  | handler n => exact ((Shows.nil.code _).place _ _).code _
  | danger n _ word => exact ((Shows.nil.code word).place _ _).code _
  | secret n _ word => exact (shows_kind n.kind ((Shows.nil.code word).place _ _)).code _
  | risk r => exact shows_severity r.severity (((Shows.nil.cell _).place _ _).cell _)
  | interface n => exact ((Shows.nil.cell _).place _ _).code _
  | service n => exact ((shows_count _ .nil).place _ _).code _

/-- The line of the headers is a row, and so is the line below it. -/
theorem TableRow.isRow_headers (h : TableRow s headers texts escaped plain) :
    IsRow headers.length (row headers) ∧ IsRow headers.length (rule headers.length) := by
  unfold IsRow
  cases h <;> decide +kernel

theorem TableRow.length_eq (h : TableRow s headers texts escaped plain) : texts.length = headers.length := by
  cases h <;> simp [featureRow, modelRow, endpointRow, riskRow, interfaceRow, serviceRow]

end TableRow

/-- Blocks laid out as a section: every table has rows of the atlas only, with an empty line before it and after it. -/
inductive Layout (s : Source) : List Block → Prop where
  | nil : Layout s []
  | text (t : String) {blocks : List Block} (h : Layout s blocks) : Layout s (.text t :: blocks)
  | bullets (items : List String) {blocks : List Block} (h : Layout s blocks) : Layout s (.bullets items :: blocks)
  | table {t : String} {headers : List String} {rows : List (List String)} {blocks : List Block}
    (hblank : "\n\n".toList <:+ t.toList)
    (hrows : ∀ texts ∈ rows, ∃ escaped plain, TableRow s headers texts escaped plain) (h : Layout s blocks)
    (hbreak : blocks = [] ∨ ∃ t' rest, blocks = .text t' :: rest ∧ "\n".toList <+: t'.toList) :
    Layout s (.text t :: .table headers rows :: blocks)

/-- Where a text stands between empty lines, or at the end. -/
def StandsApart (part whole : String) : Prop := ∃ before after, whole = before ++ part ++ after ∧
  "\n\n".toList <:+ before.toList ∧ (after = "" ∨ "\n".toList <+: after.toList)

section Layout

variable {s : Source} {blocks : List Block} {headers : List String} {rows : List (List String)}

theorem StandsApart.append {part whole : String} (h : StandsApart part whole) (t : String) :
    StandsApart part (t ++ whole) := by
  obtain ⟨before, after, rfl, hbefore, hafter⟩ := h
  refine ⟨t ++ before, after, by simp [String.append_assoc], ?_, hafter⟩
  rw [String.toList_append]
  exact List.suffix_append_of_suffix hbefore

theorem render_cons (b : Block) (blocks : List Block) : render (b :: blocks) = b.render ++ render blocks := by
  simp [render]

theorem Layout.standsApart (h : Layout s blocks) (htable : .table headers rows ∈ blocks) :
    StandsApart (linesText (tableLines headers rows)) (render blocks) := by
  induction h with
  | nil => cases htable
  | text t _ ih =>
    rw [render_cons]
    exact (ih (by simpa using htable)).append _
  | bullets items _ ih =>
    rw [render_cons]
    exact (ih (by simpa using htable)).append _
  | @table t headers' rows' blocks hblank _ _ hbreak ih =>
    rw [render_cons, render_cons, ← String.append_assoc]
    by_cases hmem : .table headers rows ∈ blocks
    · exact (ih hmem).append _
    · obtain ⟨rfl, rfl⟩ : headers = headers' ∧ rows = rows' := by simpa [hmem] using htable
      refine ⟨t, render blocks, rfl, hblank, ?_⟩
      rcases hbreak with rfl | ⟨t', rest, rfl, hbegins⟩
      · exact .inl rfl
      · rw [render_cons, String.toList_append]
        exact .inr (hbegins.trans (List.prefix_append _ _))

theorem Layout.exists_tableRow (h : Layout s blocks) (htable : .table headers rows ∈ blocks) :
    ∀ texts ∈ rows, ∃ escaped plain, TableRow s headers texts escaped plain := by
  induction h with
  | nil => cases htable
  | text t _ ih => exact ih (by simpa using htable)
  | bullets items _ ih => exact ih (by simpa using htable)
  | @table t headers' rows' blocks _ hrows _ _ ih =>
    by_cases hmem : .table headers rows ∈ blocks
    · exact ih hmem
    · obtain ⟨rfl, rfl⟩ : headers = headers' ∧ rows = rows' := by simpa [hmem] using htable
      exact hrows

theorem Layout.tableOr {remark t : String} (hblank : "\n\n".toList <:+ t.toList)
    (hrows : ∀ texts ∈ rows, ∃ escaped plain, TableRow s headers texts escaped plain) (h : Layout s blocks)
    (hbreak : blocks = [] ∨ ∃ t' rest, blocks = .text t' :: rest ∧ "\n".toList <+: t'.toList) :
    Layout s (.text t :: Document.tableOr remark headers rows :: blocks) := by
  unfold Document.tableOr
  split
  · exact .text t (.text _ h)
  · exact .table hblank hrows h hbreak

theorem exists_tableRow_map {α : Type} {items : List α} {f : α → List String}
    (h : ∀ a ∈ items, ∃ escaped plain, TableRow s headers (f a) escaped plain) :
    ∀ texts ∈ items.map f, ∃ escaped plain, TableRow s headers texts escaped plain := by
  intro texts ht
  obtain ⟨a, ha, rfl⟩ := List.mem_map.mp ht
  exact h a ha

/-- A text that breaks off a table. -/
theorem breaks (t : String) (h : "\n".toList <+: t.toList) (rest : List Block) :
    Block.text t :: rest = [] ∨ ∃ t' rest', Block.text t :: rest = .text t' :: rest' ∧ "\n".toList <+: t'.toList :=
  .inr ⟨t, rest, rfl, h⟩

theorem layout_features (s : Source) : Layout s (features s).blocks := by
  have hfiles : ∀ texts ∈ (s.callables.foldl FileGroups.note {}).toList.map fun p =>
      featureRow s.atlas.reasoning p.1 p.2, ∃ escaped plain, TableRow s ["File", "Purpose", "Entities"] texts escaped plain :=
    exists_tableRow_map fun p hp => ⟨_, _, .file p.1 p.2 hp⟩
  have hopening (front : String) : "\n\n".toList <:+ (front ++ " files.\n\n## Feature Areas\n\n").toList := by
    rw [String.toList_append]
    exact List.suffix_append_of_suffix (by decide)
  unfold features
  dsimp only [Sketch.ofNodes]
  split
  · exact .tableOr (hopening _) hfiles (.text _ .nil) (breaks _ (by decide) _)
  · refine .tableOr (hopening _) hfiles (.text _ (.table (by decide) ?_ .nil (.inl rfl))) (breaks _ (by decide) _)
    exact exists_tableRow_map fun n hn => ⟨_, _, .callable n (List.mem_mergeSort.mp hn)⟩

theorem layout_dataModels (s : Source) : Layout s (dataModels s).blocks := by
  unfold dataModels
  dsimp only [Sketch.ofNodes]
  split
  · exact .text _ (.text _ .nil)
  · have hmodels : ∀ texts ∈ (s.nodes.filter fun n => n.kind == .type || n.kind == .table).map modelRow,
        ∃ escaped plain, TableRow s ["Name", "Kind", "Location", "Description"] texts escaped plain :=
      exists_tableRow_map fun n hn => ⟨_, _, .model n (List.mem_filter.mp hn).1⟩
    split
    · exact .text _ (.table (by decide) hmodels .nil (.inl rfl))
    · exact .text _ (.table (by decide) hmodels (.text _ (.bullets _ .nil)) (breaks _ (by decide) _))

theorem layout_apiSpecs (s : Source) : Layout s (apiSpecs s).blocks := by
  refine .tableOr (by decide) (exists_tableRow_map fun n hn => ⟨_, _, .endpoint n hn⟩) ?_ (breaks _ (by decide) _)
  exact .tableOr (by decide) (exists_tableRow_map fun n hn => ⟨_, _, .handler n (List.mem_filter.mp hn).1⟩) .nil (.inl rfl)

theorem exists_of_mem_nodesWith {words : List String} {nodes : List Graph.Node} {p : Graph.Node × String}
    (h : p ∈ nodesWith words nodes) : p.1 ∈ nodes ∧ wordIn? words p.1 = some p.2 := by
  obtain ⟨n, hn, hword⟩ := List.mem_filterMap.mp h
  obtain ⟨word, hfound, rfl⟩ := Option.map_eq_some_iff.mp hword
  exact ⟨hn, hfound⟩

theorem layout_securityConsiderations (s : Source) : Layout s (securityConsiderations s).blocks := by
  have hdangers : ∀ texts ∈ (nodesWith dangerWords s.callables).map fun p => [code p.1.name, placeOf p.1, code p.2],
      ∃ escaped plain, TableRow s ["Name", "Location", "Pattern"] texts escaped plain :=
    exists_tableRow_map fun p hp => ⟨_, _, .danger p.1 (exists_of_mem_nodesWith hp).1 p.2 (exists_of_mem_nodesWith hp).2⟩
  have hsecrets : ∀ texts ∈ (nodesWith secretWords s.nodes).map fun p =>
      [code p.1.name, p.1.kind.text, placeOf p.1, code p.2],
      ∃ escaped plain, TableRow s ["Name", "Kind", "Location", "Pattern"] texts escaped plain :=
    exists_tableRow_map fun p hp => ⟨_, _, .secret p.1 (exists_of_mem_nodesWith hp).1 p.2 (exists_of_mem_nodesWith hp).2⟩
  have hrisks : ∀ texts ∈ (s.atlas.reasoning.risks.mergeSort riskBefore).map riskRow,
      ∃ escaped plain, TableRow s ["Severity", "Title", "Location", "Recommendation"] texts escaped plain :=
    exists_tableRow_map fun r hr => ⟨_, _, .risk r (List.mem_mergeSort.mp hr)⟩
  unfold securityConsiderations
  dsimp only [Sketch.ofNodes]
  refine .tableOr (by decide) hdangers (.tableOr (by decide) hsecrets ?_ ?_) (breaks _ (by decide) _)
  · split
    · exact .text _ (.bullets _ .nil)
    · exact .table (by decide) hrisks (.text _ (.bullets _ .nil)) (breaks _ (by decide) _)
  · split
    · exact breaks _ (by decide) _
    · exact breaks _ (by decide) _

theorem layout_interfaces (s : Source) : Layout s (interfaces s).blocks := by
  refine .tableOr (by decide) (exists_tableRow_map fun n hn => ⟨_, _, .interface n hn⟩) ?_ (breaks _ (by decide) _)
  exact .tableOr (by decide) (exists_tableRow_map fun n hn => ⟨_, _, .service n (List.mem_filter.mp hn).1⟩) .nil (.inl rfl)

theorem layout_executiveOverview (s : Source) : Layout s (executiveOverview s).blocks := by
  unfold executiveOverview
  dsimp only [Sketch.ofNodes]
  split
  · exact .text _ (.bullets _ .nil)
  · exact .text _ (.bullets _ (.text _ (.bullets _ .nil)))

theorem layout_userStories (s : Source) : Layout s (userStories s).blocks := by
  refine .text _ (.text _ ?_)
  split
  · exact .nil
  · exact .text _ (.text _ .nil)

theorem layout_of_mem_topics {topic : Topic} (h : topic ∈ topics) (s : Source) : Layout s (topic.sketch s).blocks := by
  simp only [topics, List.mem_cons, List.not_mem_nil, or_false] at h
  rcases h with rfl | rfl | rfl | rfl | rfl | rfl | rfl | rfl
  · exact layout_executiveOverview s
  · exact layout_features s
  · exact .text _ (.text _ (.text _ (.text _ (.text _ .nil))))
  · exact layout_dataModels s
  · exact layout_apiSpecs s
  · exact layout_securityConsiderations s
  · exact layout_userStories s
  · exact layout_interfaces s

end Layout

/-- The tables of a section, each with its headers and its rows. -/
def Sketch.tables (x : Sketch) : List (List String × List (List String)) := x.blocks.filterMap Block.table?

theorem mem_tables_iff {x : Sketch} {headers : List String} {rows : List (List String)} :
    (headers, rows) ∈ x.tables ↔ .table headers rows ∈ x.blocks := by
  have htable (b : Block) : b.table? = some (headers, rows) ↔ b = .table headers rows := by
    cases b <;> simp [Block.table?]
  simp [Sketch.tables, List.mem_filterMap, htable]

/-- Every table of a section stands by itself in the section, and the line of its headers is a row of its columns. Each of
its other lines shows values of the atlas, and is a row of as many cells on one line exactly if none of the values that
are escaped has a bar that was escaped before, and those that are not escaped have no open bar and no line break. -/
theorem table_rows_in_shape {topic : Topic} (h : topic ∈ topics) (s : Source) {headers : List String}
    {rows : List (List String)} (htable : (headers, rows) ∈ (topic.sketch s).tables) :
    StandsApart (linesText (row headers :: rule headers.length :: rows.map row)) (topic.sketch s).markdown ∧
      ∀ texts ∈ rows, IsRow headers.length (row headers) ∧ IsRow headers.length (rule headers.length) ∧
        ∃ escaped plain, TableRow s headers texts escaped plain ∧ (IsRow headers.length (row texts) ↔
          (∀ value ∈ escaped, escapedBars value = 0) ∧ ∀ text ∈ plain, openBars text = 0 ∧ IsLine text) := by
  have hlayout := layout_of_mem_topics h s
  have hblock := mem_tables_iff.mp htable
  refine ⟨hlayout.standsApart hblock, fun texts htexts => ?_⟩
  obtain ⟨escaped, plain, hrow⟩ := hlayout.exists_tableRow hblock texts htexts
  obtain ⟨hheaders, hrule⟩ := hrow.isRow_headers
  have hne : texts ≠ [] := by
    rintro rfl
    cases hrow
  refine ⟨hheaders, hrule, escaped, plain, hrow, ?_⟩
  rw [← hrow.length_eq]
  exact hrow.shows.isRow_iff hne

/-- A function and an endpoint of a shop. -/
def counter (signature endpoint : String) : Source where
  atlas := {
    project := "shop"
    graph := (Graph.empty.insertNode {
      id := "shop.py::total", name := "total", kind := .function, file := "shop.py", startLine := 1, endLine := 2,
      signature := some signature, confidence := ⟨0.9, .deterministic, ""⟩ }).insertNode {
      id := "endpoint", name := endpoint, kind := .endpoint, file := "shop.py", startLine := 4, endLine := 4,
      signature := some "cart", confidence := ⟨0.9, .deterministic, ""⟩ }
    reasoning := .empty }

theorem table_rows_in_shape_union :
    let source := counter "def total(sum: int | None)" "GET /cart"
    let headers := ["Name", "File", "Signature"]
    let total := ["`total`", "`shop.py`", "`def total(sum: int \\| None)`"]
    ⟨"features", "Main Application Features", features⟩ ∈ topics ∧ (headers, [total]) ∈ (features source).tables ∧
      StandsApart (linesText [row headers, rule 3, row total]) (features source).markdown ∧
      IsRow 3 (row headers) ∧ IsRow 3 (rule 3) ∧ IsRow 3 (row total) ∧
      ∃ escaped plain, TableRow source headers total escaped plain ∧ (IsRow 3 (row total) ↔
        (∀ value ∈ escaped, escapedBars value = 0) ∧ ∀ text ∈ plain, openBars text = 0 ∧ IsLine text) := by
  intro source headers total
  have htopic : ⟨"features", "Main Application Features", features⟩ ∈ topics := .tail _ (.head _)
  have htables : (features source).tables = [
      (["File", "Purpose", "Entities"], [["`shop.py`", "-", "total"]]), (headers, [total])] := by decide +kernel
  have htable : (headers, [total]) ∈ (features source).tables := htables ▸ .tail _ (.head _)
  have hrow : IsRow 3 (row total) := by unfold IsRow; decide +kernel
  obtain ⟨hapart, hrows⟩ := table_rows_in_shape htopic source htable
  obtain ⟨hheaders, hrule, hshape⟩ := hrows total (.head _)
  exact ⟨htopic, htable, hapart, hheaders, hrule, hrow, hshape⟩

/-- A bar that is escaped in a signature is open in its table, and so is the bar of an endpoint for two methods. -/
theorem table_row_cut_apart :
    let total := ["`total`", "`shop.py`", "`def total(sep: a\\\\|b)`"]
    let cart := ["GET|HEAD", "`/cart`", "`cart`", "`shop.py:4`"]
    (["Name", "File", "Signature"], [total]) ∈ (features (counter "def total(sep: a\\|b)" "GET /cart")).tables ∧
      (cells (row total)).length = 4 ∧
      (["Method", "Path", "Handler", "Location"], [cart]) ∈ (apiSpecs (counter "" "GET|HEAD /cart")).tables ∧
      (cells (row cart)).length = 5 := by
  decide +kernel

end Document
end CodeAtlas
