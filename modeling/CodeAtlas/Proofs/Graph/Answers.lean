import CodeAtlas.Proofs.Graph.Insertion
import Mathlib.Data.List.Dedup

/-! What a graph answers about its edges. Each answer is read off the list of edges, whatever insertions led
to the graph; the indices are not mentioned any more. -/
namespace CodeAtlas
namespace Graph

theorem Node.refusal?_eq_none_iff (n : Node) :
    n.refusal? = none ↔ n.id ≠ "" ∧ n.name ≠ "" ∧ 0.0 ≤ n.confidence.value ∧ n.confidence.value ≤ 1.0 := by
  unfold Node.refusal? Confidence.isValid
  by_cases hi : n.id = ""
  · simp [hi]
  · by_cases hn : n.name = ""
    · simp [hi, hn]
    · simp [hi, hn]

theorem Edge.refusal?_eq_none_iff (e : Edge) :
    e.refusal? = none ↔
      e.id ≠ "" ∧ e.source ≠ "" ∧ e.target ≠ "" ∧ e.weight.isFinite = true ∧ 0.0 ≤ e.weight := by
  unfold Edge.refusal?
  by_cases hi : e.id = ""
  · simp [hi]
  · by_cases hs : e.source = ""
    · simp [hi, hs]
    · by_cases ht : e.target = ""
      · simp [hi, hs, ht]
      · simp [hi, hs, ht]

variable {g : Graph}

theorem Consistent.outgoing_eq (h : g.Consistent) (id : String) :
    g.outgoing id = g.edges.toList.filter (·.source == id) := h.outgoing_files.edges_at id

theorem Consistent.incoming_eq (h : g.Consistent) (id : String) :
    g.incoming id = g.edges.toList.filter (·.target == id) := h.incoming_files.edges_at id

/-- Where equal identifiers mean equal edges, `unseen` keeps one copy of each edge not seen before. -/
theorem unseen_spec (edges : List Edge) (hinj : ∀ a ∈ edges, ∀ b ∈ edges, a.id = b.id → a = b)
    (seen : Std.TreeSet String) :
    ((unseen seen edges).map Edge.id).Nodup ∧
      ∀ e, e ∈ unseen seen edges ↔ e ∈ edges ∧ seen.contains e.id = false := by
  induction edges generalizing seen with
  | nil => simp [unseen]
  | cons x rest ih =>
    have hrest (s : Std.TreeSet String) := ih (fun a ha b hb => hinj a (.tail _ ha) b (.tail _ hb)) s
    unfold unseen
    cases hx : seen.contains x.id with
    | true =>
      refine ⟨(hrest seen).1, fun e => ?_⟩
      rw [if_pos rfl, (hrest seen).2 e, List.mem_cons]
      constructor
      · rintro ⟨he, hs⟩
        exact ⟨.inr he, hs⟩
      · rintro ⟨rfl | he, hs⟩
        · rw [hx] at hs
          exact absurd hs (by simp)
        · exact ⟨he, hs⟩
    | false =>
      obtain ⟨hnodup, hmem⟩ := hrest (seen.insert x.id)
      have hfresh (e : Edge) : e ∈ unseen (seen.insert x.id) rest ↔
          e ∈ rest ∧ e.id ≠ x.id ∧ seen.contains e.id = false := by
        rw [hmem e, contains_insert_eq_false_iff]
      refine ⟨?_, fun e => ?_⟩
      · simp only [Bool.false_eq_true, if_false, List.map_cons, List.nodup_cons, List.mem_map, not_exists,
          not_and]
        exact ⟨fun e he => ((hfresh e).mp he).2.1, hnodup⟩
      · simp only [Bool.false_eq_true, if_false, List.mem_cons, hfresh e]
        constructor
        · rintro (rfl | ⟨he, -, hs⟩)
          · exact ⟨.inl rfl, hx⟩
          · exact ⟨.inr he, hs⟩
        · rintro ⟨rfl | he, hs⟩
          · exact .inl rfl
          · by_cases hid : e.id = x.id
            · exact .inl (hinj e (.tail _ he) x (.head _) hid)
            · exact .inr ⟨he, hid, hs⟩

theorem Consistent.edge_eq_of_id_eq (h : g.Consistent) {a b : Edge} (ha : a ∈ g.edges.toList)
    (hb : b ∈ g.edges.toList) (hid : a.id = b.id) : a = b :=
  List.inj_on_of_nodup_map h.edgeIds_nodup ha hb hid

theorem Consistent.edgesOf_perm (h : g.Consistent) (id : String) :
    (g.edgesOf id).Perm (g.edges.toList.filter fun e => e.source == id || e.target == id) := by
  have hall (e : Edge) : e ∈ g.outgoing id ++ g.incoming id ↔
      e ∈ g.edges.toList ∧ (e.source = id ∨ e.target = id) := by
    rw [h.outgoing_eq, h.incoming_eq, List.mem_append, List.mem_filter, List.mem_filter, ← and_or_left]
    simp
  obtain ⟨hnodup, hmem⟩ := unseen_spec (g.outgoing id ++ g.incoming id)
    (fun a ha b hb => h.edge_eq_of_id_eq ((hall a).mp ha).1 ((hall b).mp hb).1) {}
  apply (List.perm_ext_iff_of_nodup (List.Nodup.of_map _ hnodup)
    ((List.Nodup.of_map _ h.edgeIds_nodup).filter _)).mpr
  intro e
  have he := hmem e
  rw [hall e] at he
  rw [List.mem_filter]
  simpa [edgesOf] using he

theorem Consistent.danglingTargets_eq (h : g.Consistent) :
    g.stats.danglingTargets = ((g.edges.toList.map Edge.target).dedup.filter (!g.contains ·)).length := by
  have hperm : g.incomingIndex.keys.Perm (g.edges.toList.map Edge.target).dedup := by
    apply (List.perm_ext_iff_of_nodup Std.TreeMap.nodup_keys (List.nodup_dedup _)).mpr
    intro id
    rw [Std.TreeMap.mem_keys, List.mem_dedup]
    exact h.incoming_files.mem_keys id
  exact (hperm.filter _).length_eq

theorem values_eq_map_toList {β : Type} (t : Std.TreeMap String β) : t.values = t.toList.map Prod.snd := by
  have h : t.values = t.foldr (fun _ v l => v :: l) [] := rfl
  rw [h, Std.TreeMap.foldr_eq_foldr_toList]
  induction t.toList with
  | nil => rfl
  | cons p rest ih => rw [List.foldr_cons, List.map_cons, ih]

theorem Consistent.node?_of_mem (h : g.Consistent) {n : Node} (hn : n ∈ g.sortedNodes) :
    g.node? n.id = some n := by
  rw [sortedNodes, values_eq_map_toList] at hn
  obtain ⟨⟨id, m⟩, hm, rfl⟩ := List.mem_map.mp hn
  have hget : g.node? id = some m := Std.TreeMap.mem_toList_iff_getElem?_eq_some.mp hm
  rwa [h.id_of_node hget]

/-- The edge of an attempt that would not be refused. -/
def Insertion.validEdge? : Insertion → Option Edge
  | node _ => none
  | edge e => if e.refusal? = none then some e else none

/-- Whether an identifier was seen before or among some edges. -/
def SeenIn (seen : Std.TreeSet String) (edges : List Edge) (id : String) : Prop :=
  seen.contains id = true ∨ id ∈ (unseen seen edges).map Edge.id

theorem seenIn_insert_iff {seen : Std.TreeSet String} {x : Edge} {rest : List Edge} {id : String}
    (hx : seen.contains x.id = false) :
    SeenIn (seen.insert x.id) rest id ↔ SeenIn seen (x :: rest) id := by
  unfold SeenIn
  rw [contains_insert_iff]
  simp only [unseen, hx, Bool.false_eq_true, if_false, List.map_cons, List.mem_cons]
  tauto

theorem unseen_append_old {edges : List Edge} {seen : Std.TreeSet String} {e : Edge}
    (h : SeenIn seen edges e.id) : unseen seen (edges ++ [e]) = unseen seen edges := by
  induction edges generalizing seen with
  | nil => simpa [SeenIn, unseen] using h
  | cons x rest ih =>
    simp only [List.cons_append, unseen]
    cases hx : seen.contains x.id with
    | true => exact ih (by simpa [SeenIn, unseen, hx] using h)
    | false =>
      have hi := ih ((seenIn_insert_iff hx).mpr h)
      simp only [Bool.false_eq_true, if_false, hi]

theorem unseen_append_new {edges : List Edge} {seen : Std.TreeSet String} {e : Edge}
    (h : ¬ SeenIn seen edges e.id) : unseen seen (edges ++ [e]) = unseen seen edges ++ [e] := by
  induction edges generalizing seen with
  | nil => simpa [SeenIn, unseen] using h
  | cons x rest ih =>
    simp only [List.cons_append, unseen]
    cases hx : seen.contains x.id with
    | true => exact ih (by simpa [SeenIn, unseen, hx] using h)
    | false =>
      have hi := ih (mt (seenIn_insert_iff hx).mp h)
      simp only [Bool.false_eq_true, if_false, hi, List.cons_append]

/-- The stored edges are the valid ones in the order of the attempts, the first of each identifier. -/
theorem edges_built (attempts : List Insertion) :
    (built attempts).edges.toList = unseen {} (attempts.filterMap Insertion.validEdge?) := by
  induction attempts using List.reverseRecOn with
  | nil => rfl
  | append_singleton before i ih =>
    have h := consistent_built before
    have hb : built (before ++ [i]) = (i.perform (built before)).2 := by
      rw [built, List.foldl_append]
      rfl
    rw [hb, List.filterMap_append]
    cases i with
    | node n =>
      simp only [List.filterMap_cons, Insertion.validEdge?, List.filterMap_nil, List.append_nil, ← ih]
      obtain ⟨-, hg⟩ | ⟨m, hm, -, hp⟩ | ⟨e, he, -⟩ := perform_cases (built before) (.node n)
      · rw [hg]
      · rw [hp, (insertNode_edges _ m).1]
      · cases he
    | edge e =>
      by_cases hr : e.refusal? = none
      · have hv : [Insertion.edge e].filterMap Insertion.validEdge? = [e] := by
          simp [Insertion.validEdge?, hr]
        have hseen : SeenIn {} (before.filterMap Insertion.validEdge?) e.id ↔
            (built before).edgeIds.contains e.id = true := by
          simp [SeenIn, ← ih, h.edgeIds_iff]
        rw [hv]
        by_cases hc : (built before).edgeIds.contains e.id = true
        · rw [unseen_append_old (hseen.mpr hc), ← ih]
          simp [Insertion.perform, addEdge, hr, hc]
        · rw [unseen_append_new (mt hseen.mp hc), ← ih]
          simp [Insertion.perform, addEdge, hr, hc, insertEdge]
      · have hv : [Insertion.edge e].filterMap Insertion.validEdge? = [] := by
          simp [Insertion.validEdge?, hr]
        obtain ⟨r, hr⟩ := Option.ne_none_iff_exists'.mp hr
        rw [hv, List.append_nil, ← ih]
        simp [Insertion.perform, addEdge, hr]

/-- After any attempts, accepted, refused or repeated, every answer about edges is the one that the list of
stored edges gives, and an attempt that adds nothing changes nothing. -/
theorem built_answers (attempts : List Insertion) :
    let g := built attempts
    g.edges.toList = unseen {} (attempts.filterMap Insertion.validEdge?) ∧
    (g.edges.toList.map Edge.id).Nodup ∧
    (∀ id, g.outgoing id = g.edges.toList.filter (·.source == id) ∧
      g.incoming id = g.edges.toList.filter (·.target == id) ∧
      (∀ i ∈ g.outgoingIndex.at id, i < g.edges.size) ∧
      (∀ i ∈ g.incomingIndex.at id, i < g.edges.size) ∧
      (g.edgesOf id).Perm (g.edges.toList.filter fun e => e.source == id || e.target == id)) ∧
    (∀ n ∈ g.sortedNodes,
      n.id ≠ "" ∧ n.name ≠ "" ∧ 0.0 ≤ n.confidence.value ∧ n.confidence.value ≤ 1.0) ∧
    (∀ e ∈ g.edges.toList,
      e.id ≠ "" ∧ e.source ≠ "" ∧ e.target ≠ "" ∧ e.weight.isFinite = true ∧ 0.0 ≤ e.weight) ∧
    g.stats.danglingTargets = ((g.edges.toList.map Edge.target).dedup.filter (!g.contains ·)).length ∧
    ∀ i : Insertion, (i.perform g).1 ≠ .ok true → (i.perform g).2 = g := by
  intro g
  have h : g.Consistent := consistent_built attempts
  refine ⟨edges_built attempts, h.edgeIds_nodup, fun id => ?_, fun n hn => ?_, fun e he => ?_,
    h.danglingTargets_eq, fun i hi => ?_⟩
  · exact ⟨h.outgoing_eq id, h.incoming_eq id, h.outgoing_files.inRange id, h.incoming_files.inRange id,
      h.edgesOf_perm id⟩
  · exact n.refusal?_eq_none_iff.mp (h.node_accepted (h.node?_of_mem hn))
  · exact e.refusal?_eq_none_iff.mp (h.edge_accepted e he)
  · obtain ⟨-, hg⟩ | ⟨n, -, -, hp⟩ | ⟨e, -, -, -, hp⟩ := perform_cases g i
    · exact hg
    · exact absurd (by rw [hp]) hi
    · exact absurd (by rw [hp]) hi

end Graph
end CodeAtlas
