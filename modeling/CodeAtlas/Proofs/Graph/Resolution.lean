import CodeAtlas.Proofs.Graph.Listing
import CodeAtlas.Graph.Build

/-! Who makes a call. Of the code around the line it is the first with the smallest extent; but extent is zero for code
whose end is not known, while such code is taken to cover a thousand lines. So the choice is the innermost one, by the
lines that are covered, unless the end of the chosen code is not known and something shorter is around the line too. -/
namespace CodeAtlas
namespace Graph

section Caller

/-- How far the range of a node reaches behind its start. -/
def Node.span (n : Node) : Nat := n.lastLine - n.startLine

theorem Node.span_of_closed {n : Node} (h : 0 < n.endLine) : n.span = n.extent := by
  rw [span, lastLine, if_pos h, extent]

theorem Node.span_of_open {n : Node} (h : n.endLine = 0) : n.span = openRangeLines := by
  rw [span, lastLine, if_neg (by omega), Nat.add_sub_cancel_left]

theorem Node.extent_of_open {n : Node} (h : n.endLine = 0) : n.extent = 0 := by
  rw [extent, h, Nat.zero_sub]

/-- Whether a node is the first of some nodes with the smallest extent. -/
def LeastOf (nodes : List Node) (n : Node) : Prop :=
  ∃ before after, nodes = before ++ n :: after ∧ (∀ m ∈ before, n.extent < m.extent) ∧ ∀ m ∈ after, n.extent ≤ m.extent

namespace LeastOf

variable {nodes : List Node} {n m : Node}

theorem extent_le (h : LeastOf nodes n) (hm : m ∈ nodes) : n.extent ≤ m.extent := by
  obtain ⟨before, after, rfl, hbefore, hafter⟩ := h
  rcases List.mem_append.mp hm with hm | hm
  · exact (hbefore m hm).le
  · rcases List.mem_cons.mp hm with rfl | hm
    · exact Nat.le_refl _
    · exact hafter m hm

/-- One more node in front takes the place if it is not larger. -/
theorem cons (h : LeastOf nodes n) (x : Node) : LeastOf (x :: nodes) (if x.extent ≤ n.extent then x else n) := by
  split
  · next hle => exact ⟨[], nodes, rfl, by simp, fun m hm => hle.trans (h.extent_le hm)⟩
  · next hlt =>
    obtain ⟨before, after, rfl, hbefore, hafter⟩ := h
    exact ⟨x :: before, after, rfl, List.forall_mem_cons.mpr ⟨Nat.lt_of_not_le hlt, hbefore⟩, hafter⟩

/-- By the lines that are covered nothing is smaller, unless the end of the node is not known and that of a shorter one
is. -/
theorem span_le_iff (h : LeastOf nodes n) : (∀ m ∈ nodes, n.span ≤ m.span) ↔
    0 < n.endLine ∨ ∀ m ∈ nodes, 0 < m.endLine → openRangeLines ≤ m.extent := by
  rcases Nat.eq_zero_or_pos n.endLine with hopen | hclosed
  · rw [Node.span_of_open hopen, hopen, or_iff_right (Nat.lt_irrefl 0)]
    refine forall₂_congr fun m _ => ?_
    rcases Nat.eq_zero_or_pos m.endLine with hm | hm
    · simp [Node.span_of_open hm, hm]
    · simp [Node.span_of_closed hm, hm]
  · refine iff_of_true (fun m hm => ?_) (.inl hclosed)
    have hle := h.extent_le hm
    rw [Node.span_of_closed hclosed]
    rcases Nat.eq_zero_or_pos m.endLine with hopen | hm'
    · rw [Node.extent_of_open hopen] at hle
      exact hle.trans (Nat.zero_le _)
    · rwa [Node.span_of_closed hm']

end LeastOf

theorem innermost?_eq_none_iff {nodes : List Node} : innermost? nodes = none ↔ nodes = [] := by
  cases nodes with
  | nil => exact iff_of_true rfl rfl
  | cons n rest =>
    refine iff_of_false (fun h => ?_) (List.cons_ne_nil n rest)
    unfold innermost? at h
    split at h
    · cases h
    · split at h <;> cases h

theorem leastOf_of_innermost? {nodes : List Node} {n : Node} (h : innermost? nodes = some n) : LeastOf nodes n := by
  induction nodes generalizing n with
  | nil => cases h
  | cons x rest ih =>
    unfold innermost? at h
    cases hrest : innermost? rest with
    | none =>
      rw [hrest, Option.some.injEq] at h
      obtain rfl := innermost?_eq_none_iff.mp hrest
      exact ⟨[], [], by rw [h]; rfl, by simp, by simp⟩
    | some m =>
      have hleast := (ih hrest).cons x
      rw [hrest] at h
      dsimp only at h
      split at h <;> next hle =>
        cases h
        simpa [hle] using hleast

/-- The caller of a call is the first with the smallest extent of the file's code around the line, and the file's first
piece of code when none is around the line. It is the innermost one, by the lines that are covered, exactly when its end
is known or no code of known end around the line is shorter than a range without an end is taken to be. -/
theorem resolveCaller_least (g : Graph) (c : Facts.Call) :
    let code := (g.nodesInFile c.file).filter (·.isCode)
    let around := code.filter (·.covers c.line)
    (around = [] ∧ g.resolveCaller c = code.head?.map (·.id)) ∨
      ∃ n, LeastOf around n ∧ g.resolveCaller c = some n.id ∧
        ((∀ m ∈ around, n.span ≤ m.span) ↔
          0 < n.endLine ∨ ∀ m ∈ around, 0 < m.endLine → openRangeLines ≤ m.extent) := by
  intro code around
  have hcaller : g.resolveCaller c = ((innermost? around).or code.head?).map (·.id) := rfl
  cases hinner : innermost? around with
  | none =>
    rw [hinner, Option.none_or] at hcaller
    exact .inl ⟨innermost?_eq_none_iff.mp hinner, hcaller⟩
  | some n =>
    have hleast := leastOf_of_innermost? hinner
    rw [hinner] at hcaller
    exact .inr ⟨n, hleast, hcaller, hleast.span_le_iff⟩

/-- A function whose end is not known, and a function of five lines inside it. -/
def nested : Graph :=
  let function (name : String) (first last : Nat) : Insertion :=
    .node ⟨entityId "a.py" name, name, .function, "a.py", first, last, "python", none, none, ⟨0.9, .deterministic, ""⟩⟩
  built [function "outer" 1 0, function "inner" 5 9]

/-- The function without an end makes the call, though the other one is around the line and covers fewer lines. -/
theorem caller_not_innermost :
    (((nested.nodesInFile "a.py").filter (·.isCode)).filter (·.covers 6)).map (fun n => (n.id, n.span)) =
        [("a.py::outer", 1000), ("a.py::inner", 4)] ∧
      nested.resolveCaller ⟨"a.py", 6, "util", none, .high⟩ = some "a.py::outer" := by
  decide +kernel

end Caller

/-! Whom a call means. Three lookups by name follow one another, and each passes over what is no code, so that an endpoint
or a table of the same name hides nobody. What is listed under a name stands in the order in which the identifiers first
came, so the first node that passes a test is the earliest of all stored nodes that pass it (`find?_nodesNamed`). -/

section Callee

/-- Where the identifier of a node first came among some nodes. -/
def place (nodes : List Node) (n : Node) : Nat := (nodes.map Node.id).idxOf n.id

/-- Whether a node is stored and has a property that no stored node has whose identifier came earlier. -/
structure Earliest (nodes : List Node) (g : Graph) (P : Node → Prop) (n : Node) : Prop where
  stored : n ∈ g.sortedNodes
  holds : P n
  first : ∀ m ∈ g.sortedNodes, P m → place nodes n ≤ place nodes m

/-- Whether a node is code of a name. -/
def Node.IsCodeOf (name : String) (n : Node) : Prop := n.isCode = true ∧ n.name = name

/-- Whether there is code of a call's qualified name. -/
def HasQualified (g : Graph) (c : Facts.Call) : Prop :=
  ∃ receiver, c.receiver = some receiver ∧ ∃ n ∈ g.sortedNodes, n.IsCodeOf (receiver ++ "." ++ c.callee)

/-- The node that a call means: the earliest code of the qualified name; when there is none, the earliest code of the name
in the file of the call; when there is none of it either, the earliest code of the name. -/
inductive Means (nodes : List Node) (g : Graph) (c : Facts.Call) : Node → Prop
  | qualified {receiver : String} {n : Node} : c.receiver = some receiver →
      Earliest nodes g (Node.IsCodeOf (receiver ++ "." ++ c.callee)) n → Means nodes g c n
  | sameFile {n : Node} : ¬ g.HasQualified c →
      Earliest nodes g (fun m => m.IsCodeOf c.callee ∧ m.file = c.file) n → Means nodes g c n
  | anyFile {n : Node} : ¬ g.HasQualified c → (¬ ∃ m ∈ g.sortedNodes, m.IsCodeOf c.callee ∧ m.file = c.file) →
      Earliest nodes g (Node.IsCodeOf c.callee) n → Means nodes g c n

section Places

variable {nodes : List Node} {g : Graph} {n : Node}

/-- Identifiers are kept in the order in which they came. -/
theorem pairwise_place_firstNodes (nodes : List Node) :
    (firstNodes nodes).Pairwise fun n m => place nodes n < place nodes m := by
  induction nodes using List.reverseRecOn with
  | nil => simp [firstNodes]
  | append_singleton nodes x ih =>
    have hold : ∀ n ∈ firstNodes nodes, place (nodes ++ [x]) n = place nodes n := by
      intro n hn
      unfold place
      rw [List.map_append, List.idxOf_append_of_mem (List.mem_map_of_mem (firstNodes_subset nodes hn))]
    have hkept : (firstNodes nodes).Pairwise fun n m => place (nodes ++ [x]) n < place (nodes ++ [x]) m := by
      refine ih.imp_of_mem fun hn hm hlt => ?_
      rwa [hold _ hn, hold _ hm]
    rw [firstNodes_append_singleton, any_firstNodes]
    by_cases hany : nodes.any (·.id == x.id) = true
    · rwa [if_pos hany]
    · rw [if_neg hany, List.pairwise_append]
      refine ⟨hkept, List.pairwise_singleton _ _, fun n hn m hm => ?_⟩
      have hnew : x.id ∉ nodes.map Node.id := by
        simpa [List.any_eq_true] using hany
      have hlt : place nodes n < (nodes.map Node.id).length :=
        List.idxOf_lt_length_of_mem (List.mem_map_of_mem (firstNodes_subset nodes hn))
      rw [List.mem_singleton.mp hm, hold n hn]
      unfold place at hlt ⊢
      rw [List.map_append, List.idxOf_append_of_notMem hnew]
      omega

/-- In a list in strict order, the first one that passes a test is the least one that does. -/
theorem find?_eq_some_iff_least {α : Type} {rank : α → Nat} {xs : List α}
    (h : xs.Pairwise fun x y => rank x < rank y) {test : α → Bool} {x : α} :
    xs.find? test = some x ↔ x ∈ xs ∧ test x = true ∧ ∀ y ∈ xs, test y = true → rank x ≤ rank y := by
  induction xs with
  | nil => simp
  | cons a rest ih =>
    obtain ⟨hhead, hrest⟩ := List.pairwise_cons.mp h
    by_cases ha : test a = true
    · rw [List.find?_cons_of_pos ha, Option.some.injEq]
      constructor
      · rintro rfl
        refine ⟨List.mem_cons_self, ha, fun y hy _ => ?_⟩
        rcases List.mem_cons.mp hy with rfl | hy
        · exact Nat.le_refl _
        · exact (hhead y hy).le
      · rintro ⟨hx, -, hleast⟩
        rcases List.mem_cons.mp hx with rfl | hx
        · rfl
        · exact absurd (hleast a List.mem_cons_self ha) (Nat.not_le_of_lt (hhead x hx))
    · rw [List.find?_cons_of_neg ha, ih hrest]
      constructor
      · rintro ⟨hx, htest, hleast⟩
        refine ⟨List.mem_cons_of_mem a hx, htest, fun y hy hy' => ?_⟩
        rcases List.mem_cons.mp hy with rfl | hy
        · exact absurd hy' ha
        · exact hleast y hy hy'
      · rintro ⟨hx, htest, hleast⟩
        rcases List.mem_cons.mp hx with rfl | hx
        · exact absurd htest ha
        · exact ⟨hx, htest, fun y hy => hleast y (List.mem_cons_of_mem a hy)⟩

end Places

section Named

variable {nodes : List Node} {g : Graph} {n : Node} {name : String} {test : Node → Bool}

/-- Whether each stored node is listed under its own name: none of them has replaced a node of another name. -/
def KeepsNames (nodes : List Node) (g : Graph) : Prop :=
  ∀ n ∈ g.sortedNodes, (first? nodes n.id).map Node.name = some n.name

theorem pairwise_nodesNamed (h : g.Consistent) (hlists : Lists nodes g Node.name g.nodesNamed) (name : String) :
    (g.nodesNamed name).Pairwise fun n m => place nodes n < place nodes m := by
  rw [hlists.inOrder]
  refine ((pairwise_place_firstNodes nodes).filter _).filterMap _ fun n m hlt n' hn' m' hm' => ?_
  have hid : n'.id = n.id := h.id_of_node hn'
  have hid' : m'.id = m.id := h.id_of_node hm'
  unfold place at hlt ⊢
  rwa [hid, hid']

theorem find?_nodesNamed (h : g.Consistent) (hlists : Lists nodes g Node.name g.nodesNamed)
    (hnames : KeepsNames nodes g) :
    (g.nodesNamed name).find? test = some n ↔ Earliest nodes g (fun m => test m = true ∧ m.name = name) n := by
  have hmem := hlists.exact_iff.mpr hnames name
  rw [find?_eq_some_iff_least (pairwise_nodesNamed h hlists name)]
  simp only [hmem]
  constructor
  · rintro ⟨⟨hstored, hname⟩, htest, hleast⟩
    exact ⟨hstored, ⟨htest, hname⟩, fun m hm hpass => hleast m ⟨hm, hpass.2⟩ hpass.1⟩
  · rintro ⟨hstored, ⟨htest, hname⟩, hfirst⟩
    exact ⟨⟨hstored, hname⟩, htest, fun m hm hpass => hfirst m hm.1 ⟨hpass, hm.2⟩⟩

theorem find?_nodesNamed_eq_none (hlists : Lists nodes g Node.name g.nodesNamed) (hnames : KeepsNames nodes g) :
    (g.nodesNamed name).find? test = none ↔ ¬ ∃ m ∈ g.sortedNodes, test m = true ∧ m.name = name := by
  have hmem := hlists.exact_iff.mpr hnames name
  rw [List.find?_eq_none]
  simp only [hmem]
  constructor
  · rintro hnone ⟨m, hm, htest, hname⟩
    exact hnone m ⟨hm, hname⟩ htest
  · rintro hnone m ⟨hm, hname⟩ htest
    exact hnone ⟨m, hm, htest, hname⟩

end Named

section Meant

variable {nodes : List Node} {g : Graph} {c : Facts.Call} {n : Node}

/-- The code of a call's qualified name that comes first. -/
def qualified? (g : Graph) (c : Facts.Call) : Option Node :=
  c.receiver.bind fun receiver => (g.nodesNamed (receiver ++ "." ++ c.callee)).find? (·.isCode)

/-- The code of a call's name that comes first in the file of the call. -/
def inSameFile? (g : Graph) (c : Facts.Call) : Option Node :=
  (g.nodesNamed c.callee).find? fun n => n.isCode && n.file == c.file

/-- The code of a call's name that comes first. -/
def inAnyFile? (g : Graph) (c : Facts.Call) : Option Node := (g.nodesNamed c.callee).find? (·.isCode)

theorem resolveCallee_eq (g : Graph) (c : Facts.Call) :
    g.resolveCallee c = (((g.qualified? c).or (g.inSameFile? c)).or (g.inAnyFile? c)).map (·.id) := by
  simp only [resolveCallee, qualified?, inSameFile?, inAnyFile?, List.find?_filter, List.head?_filter,
    Bool.decide_and, Bool.decide_eq_true]

/-- Whatever a call is resolved to is stored, and is code. -/
theorem exists_code_of_resolveCallee {id : String} (h : g.resolveCallee c = some id) (hg : g.Consistent) :
    ∃ n, g.node? id = some n ∧ n.isCode = true := by
  have hlisted : ∀ {name : String} {test : Node → Bool} {n : Node}, (g.nodesNamed name).find? test = some n →
      g.node? n.id = some n ∧ test n = true := by
    intro name test n hn
    obtain ⟨id, -, hnode⟩ := List.mem_filterMap.mp (List.mem_of_find?_eq_some hn)
    exact ⟨hg.id_of_node hnode ▸ hnode, List.find?_some hn⟩
  rw [resolveCallee_eq] at h
  obtain ⟨n, hn, rfl⟩ := Option.map_eq_some_iff.mp h
  refine ⟨n, ?_⟩
  rcases Option.or_eq_some_iff.mp hn with hn | ⟨-, hn⟩
  · rcases Option.or_eq_some_iff.mp hn with hn | ⟨-, hn⟩
    · obtain ⟨receiver, -, hn⟩ := Option.bind_eq_some_iff.mp hn
      exact hlisted hn
    · obtain ⟨hnode, htest⟩ := hlisted hn
      exact ⟨hnode, (Bool.and_eq_true_iff.mp htest).1⟩
  · exact hlisted hn

theorem Earliest.congr {P Q : Node → Prop} (hiff : ∀ m, P m ↔ Q m) : Earliest nodes g P n ↔ Earliest nodes g Q n := by
  have hsame : P = Q := funext fun m => propext (hiff m)
  rw [hsame]

theorem isCode_and_file_iff {m : Node} :
    ((m.isCode && m.file == c.file) = true ∧ m.name = c.callee) ↔ m.IsCodeOf c.callee ∧ m.file = c.file := by
  simp only [Node.IsCodeOf, Bool.and_eq_true, beq_iff_eq]
  tauto

theorem qualified?_eq_some_iff (hg : g.Consistent) (hlists : Lists nodes g Node.name g.nodesNamed)
    (hnames : KeepsNames nodes g) : g.qualified? c = some n ↔
      ∃ receiver, c.receiver = some receiver ∧
        Earliest nodes g (Node.IsCodeOf (receiver ++ "." ++ c.callee)) n := by
  rw [qualified?, Option.bind_eq_some_iff]
  exact exists_congr fun receiver => and_congr_right fun _ => find?_nodesNamed hg hlists hnames

theorem qualified?_eq_none_iff (hlists : Lists nodes g Node.name g.nodesNamed) (hnames : KeepsNames nodes g) :
    g.qualified? c = none ↔ ¬ g.HasQualified c := by
  rw [qualified?, Option.bind_eq_none_iff, HasQualified, not_exists]
  refine forall_congr' fun receiver => ?_
  rw [not_and]
  exact imp_congr_right fun _ => find?_nodesNamed_eq_none hlists hnames

theorem inSameFile?_eq_some_iff (hg : g.Consistent) (hlists : Lists nodes g Node.name g.nodesNamed)
    (hnames : KeepsNames nodes g) : g.inSameFile? c = some n ↔
      Earliest nodes g (fun m => m.IsCodeOf c.callee ∧ m.file = c.file) n :=
  (find?_nodesNamed hg hlists hnames).trans (Earliest.congr fun _ => isCode_and_file_iff)

theorem inSameFile?_eq_none_iff (hlists : Lists nodes g Node.name g.nodesNamed) (hnames : KeepsNames nodes g) :
    g.inSameFile? c = none ↔ ¬ ∃ m ∈ g.sortedNodes, m.IsCodeOf c.callee ∧ m.file = c.file := by
  rw [inSameFile?, find?_nodesNamed_eq_none hlists hnames]
  simp only [isCode_and_file_iff]

theorem inAnyFile?_eq_none_iff (hlists : Lists nodes g Node.name g.nodesNamed) (hnames : KeepsNames nodes g) :
    g.inAnyFile? c = none ↔ ¬ ∃ m ∈ g.sortedNodes, m.IsCodeOf c.callee := find?_nodesNamed_eq_none hlists hnames

theorem meant_iff (hg : g.Consistent) (hlists : Lists nodes g Node.name g.nodesNamed) (hnames : KeepsNames nodes g) :
    ((g.qualified? c).or (g.inSameFile? c)).or (g.inAnyFile? c) = some n ↔ Means nodes g c n := by
  rw [Option.or_eq_some_iff, Option.or_eq_some_iff, Option.or_eq_none_iff, qualified?_eq_some_iff hg hlists hnames,
    qualified?_eq_none_iff hlists hnames, inSameFile?_eq_some_iff hg hlists hnames,
    inSameFile?_eq_none_iff hlists hnames]
  constructor
  · rintro ((⟨receiver, hreceiver, hn⟩ | ⟨hqualified, hn⟩) | ⟨⟨hqualified, hfile⟩, hn⟩)
    · exact .qualified hreceiver hn
    · exact .sameFile hqualified hn
    · exact .anyFile hqualified hfile ((find?_nodesNamed hg hlists hnames).mp hn)
  · intro hmeans
    cases hmeans with
    | qualified hreceiver hn => exact .inl (.inl ⟨_, hreceiver, hn⟩)
    | sameFile hqualified hn => exact .inl (.inr ⟨hqualified, hn⟩)
    | anyFile hqualified hfile hn => exact .inr ⟨⟨hqualified, hfile⟩, (find?_nodesNamed hg hlists hnames).mpr hn⟩

/-- When no node has replaced one of another name, each node has the name with which its identifier came first. -/
theorem keepsNames_of_sameNames (hg : g.Consistent) (hlatest : ∀ id, g.node? id = latest? nodes id)
    (hsame : ∀ n ∈ nodes, ∀ m ∈ nodes, n.id = m.id → n.name = m.name) : KeepsNames nodes g := by
  intro n hn
  have hlast : latest? nodes n.id = some n := (hlatest n.id).symm.trans (hg.node?_of_mem hn)
  have hmem : n ∈ nodes := (mem_of_latest? hlast).1
  have hfirst : (first? nodes n.id).isSome := List.find?_isSome.mpr ⟨n, hmem, by simp⟩
  obtain ⟨m, hm⟩ := Option.isSome_iff_exists.mp hfirst
  rw [hm, Option.map_some, hsame m (List.mem_of_find?_eq_some hm) n hmem (id_of_first? hm)]

end Meant

/-- In every graph that insertions lead to, a call is never resolved to a rule, a table or an endpoint. When no node has
replaced one of another name under its identifier, a call is resolved to the node that it means, and to none exactly when
there is code of neither name. -/
theorem resolveCallee_prefers (attempts : List Insertion) (c : Facts.Call) :
    let g := built attempts
    let nodes := attempts.filterMap Insertion.validNode?
    (∀ id, g.resolveCallee c = some id → ∃ n, g.node? id = some n ∧
      n.kind ≠ .businessRule ∧ n.kind ≠ .table ∧ n.kind ≠ .endpoint) ∧
    ((∀ n ∈ nodes, ∀ m ∈ nodes, n.id = m.id → n.name = m.name) →
      (∀ id, g.resolveCallee c = some id ↔ ∃ n, n.id = id ∧ Means nodes g c n) ∧
      (g.resolveCallee c = none ↔ ¬ g.HasQualified c ∧ ¬ ∃ m ∈ g.sortedNodes, m.IsCodeOf c.callee)) := by
  intro g nodes
  have hg : g.Consistent := consistent_built attempts
  obtain ⟨hfiled, -⟩ := filed_built attempts
  have hlists : Lists nodes g Node.name g.nodesNamed := hfiled.lists hg hfiled.named
  refine ⟨fun id hid => ?_, fun hsame => ?_⟩
  · obtain ⟨n, hn, hcode⟩ := exists_code_of_resolveCallee hid hg
    exact ⟨n, hn, by simpa [Node.isCode, EntityKind.isCode, and_assoc] using hcode⟩
  · have hnames : KeepsNames nodes g := keepsNames_of_sameNames hg hfiled.node? hsame
    refine ⟨fun id => ?_, ?_⟩
    · rw [resolveCallee_eq, Option.map_eq_some_iff]
      simp only [meant_iff hg hlists hnames, and_comm]
    · rw [resolveCallee_eq, Option.map_eq_none_iff, Option.or_eq_none_iff, Option.or_eq_none_iff,
        qualified?_eq_none_iff hlists hnames, inSameFile?_eq_none_iff hlists hnames,
        inAnyFile?_eq_none_iff hlists hnames]
      constructor
      · rintro ⟨⟨hqualified, -⟩, hany⟩
        exact ⟨hqualified, hany⟩
      · rintro ⟨hqualified, hany⟩
        exact ⟨⟨hqualified, fun ⟨m, hm, hcode, _⟩ => hany ⟨m, hm, hcode⟩⟩, hany⟩

/-- Code of one name in two files, beside a table of the qualified name and an endpoint of the name in the caller's file. -/
def namesakes : List Insertion :=
  let node (file name : String) (kind : EntityKind) : Insertion :=
    .node ⟨entityId file name, name, kind, file, 1, 2, "", none, none, ⟨0.9, .deterministic, ""⟩⟩
  [node "schema.sql" "Cart.save" .table, node "cart.py" "save" .endpoint, node "lib.py" "save" .function,
    node "app.py" "save" .method]

theorem resolveCallee_prefers_namesakes :
    let nodes := namesakes.filterMap Insertion.validNode?
    (∀ n ∈ nodes, ∀ m ∈ nodes, n.id = m.id → n.name = m.name) ∧
      (∃ n, n.id = "app.py::save" ∧ Means nodes (built namesakes) ⟨"app.py", 4, "save", some "Cart", .high⟩ n) ∧
      (∃ n, n.id = "lib.py::save" ∧ Means nodes (built namesakes) ⟨"cart.py", 4, "save", some "Cart", .high⟩ n) := by
  intro nodes
  have hsame : ∀ n ∈ nodes, ∀ m ∈ nodes, n.id = m.id → n.name = m.name := by decide +kernel
  refine ⟨hsame, ?_, ?_⟩
  · exact (((resolveCallee_prefers namesakes ⟨"app.py", 4, "save", some "Cart", .high⟩).2 hsame).1 _).mp (by decide +kernel)
  · exact (((resolveCallee_prefers namesakes ⟨"cart.py", 4, "save", some "Cart", .high⟩).2 hsame).1 _).mp (by decide +kernel)

end Callee

end Graph
end CodeAtlas
