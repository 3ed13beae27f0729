import CodeAtlas.Proofs.Graph.Reach
import Mathlib.Order.Lattice.Nat

/-! Callers and callees mirror each other. A path of calls between two nodes is a path against the calls when it is
gone backwards: both ends are nodes, so every identifier on it may be found from either side. The walks in both
directions look into different indices, but these describe the same edges. -/
namespace CodeAtlas
namespace Graph

section Mirrored

/-- The other way to go along calls. -/
def Direction.flip : Direction → Direction
  | .callees => .callers
  | .callers => .callees

variable {g : Graph} {dir : Direction} {a b c : String} {k depth : Nat}

theorem calls_flip : g.Calls dir.flip b a ↔ g.Calls dir a b := by
  cases dir <;> exact Iff.rfl

namespace CallPath

/-- A path that begins with one more call. -/
theorem cons (hcall : g.Calls dir a b) (hb : g.contains b = true) (h : CallPath g dir b k c) :
    CallPath g dir a (k + 1) c := by
  induction h with
  | refl => exact .step .refl hcall hb
  | step _ hlast hc ih => exact .step ih hlast hc

theorem contains (ha : g.contains a = true) (h : CallPath g dir a k b) : g.contains b = true := by
  cases h with
  | refl => exact ha
  | step _ _ hb => exact hb

/-- A path that begins at a node, gone backwards. -/
theorem flip (ha : g.contains a = true) (h : CallPath g dir a k b) : CallPath g dir.flip b k a := by
  induction h with
  | refl => exact .refl
  | step hpath hcall _ ih => exact cons (calls_flip.mpr hcall) (hpath.contains ha) ih

theorem flip_iff (ha : g.contains a = true) (hb : g.contains b = true) :
    CallPath g dir.flip b k a ↔ CallPath g dir a k b := by
  refine ⟨fun h => ?_, flip ha⟩
  have hback := h.flip hb
  cases dir <;> exact hback

end CallPath

/-- A walk finds the nodes that a path within its depth leads to, apart from where it starts. -/
theorem Consistent.mem_walk (h : g.Consistent) :
    b ∈ (g.walk dir a depth).map Node.id ↔ g.contains b = true ∧ b ≠ a ∧ ∃ k ≤ depth, CallPath g dir a k b := by
  obtain ⟨hw, hend⟩ := Walk.run_induct g dir a depth (fun _ hw hlt => Walk.Progress.follow h hw hlt) _
    (Walk.Progress.start g dir a depth)
  have hline : ((Walk.start a depth).run g dir a depth).waiting = [] := List.drop_eq_nil_of_le (by simpa using hend)
  rw [List.mem_map]
  constructor
  · rintro ⟨n, hn, rfl⟩
    obtain ⟨hnode, hmet⟩ := (hw.found_iff n).mp hn
    have hcontains : g.contains n.id = true := by rw [contains_eq_isSome, hnode]; rfl
    obtain ⟨k, -, hk, hpath⟩ := hw.met_path _ hmet hcontains
    exact ⟨hcontains, hw.met_ne _ hmet, k, hk, hpath⟩
  · rintro ⟨hcontains, hne, k, hk, hpath⟩
    obtain ⟨n, hnode⟩ := Option.isSome_iff_exists.mp (contains_eq_isSome g b ▸ hcontains)
    obtain rfl := h.id_of_node hnode
    have hmet := hw.met_of_path (Nat.le_refl depth) (fun p hp => absurd (hline ▸ hp) List.not_mem_nil) hk hpath
    exact ⟨n, (hw.found_iff n).mpr ⟨hnode, hmet.resolve_left hne⟩, rfl⟩

/-- In every graph that insertions lead to, of two nodes one is found among the callees of the other one exactly when
the other one is found among its callers, up to the same depth; that is, when they are not the same and a path of at most
so many calls leads from the other one to it. -/
theorem mem_callees_iff_mem_callers (attempts : List Insertion) {a b : String} (depth : Nat)
    (ha : (built attempts).contains a = true) (hb : (built attempts).contains b = true) :
    (b ∈ ((built attempts).callees a depth).map Node.id ↔ a ∈ ((built attempts).callers b depth).map Node.id) ∧
      (b ∈ ((built attempts).callees a depth).map Node.id ↔
        b ≠ a ∧ ∃ k ≤ depth, CallPath (built attempts) .callees a k b) := by
  have h := consistent_built attempts
  have hpaths : (∃ k ≤ depth, CallPath (built attempts) .callees a k b) ↔
      ∃ k ≤ depth, CallPath (built attempts) .callers b k a :=
    exists_congr fun k => and_congr_right fun _ => (CallPath.flip_iff ha hb).symm
  unfold callees callers
  rw [h.mem_walk, h.mem_walk, ha, hb, hpaths]
  exact ⟨by rw [ne_comm], by simp⟩

/-- A ring of three functions, the last of which is also called by something that is no node. -/
def ring : List Insertion :=
  let function (id : String) : Insertion :=
    .node ⟨id, id, .function, "ring.py", 1, 2, "", none, none, ⟨0.9, .deterministic, ""⟩⟩
  let call (source target : String) : Insertion :=
    .edge { id := source ++ ">" ++ target, source := source, target := target, kind := .calls }
  [function "a", function "b", function "c", call "a" "b", call "b" "c", call "c" "a", call "a" "x", call "x" "c"]

theorem mem_callees_iff_mem_callers_ring :
    (built ring).contains "a" = true ∧ (built ring).contains "c" = true ∧
      ("c" ∈ ((built ring).callees "a" 2).map Node.id ↔ "a" ∈ ((built ring).callers "c" 2).map Node.id) ∧
      "c" ∈ ((built ring).callees "a" 2).map Node.id := by
  have ha : (built ring).contains "a" = true := by decide +kernel
  have hc : (built ring).contains "c" = true := by decide +kernel
  exact ⟨ha, hc, (mem_callees_iff_mem_callers ring 2 ha hc).1, by decide +kernel⟩

end Mirrored

/-! Walks of different depths. A walk that may go deeper takes the same identifiers in the same order, as long as the other
one has anyone to take; whoever waits in its line alone is too far away for the other one (`Shadows`). So what the shorter
walk finds is the beginning of what the longer one finds. It follows that nodes are found in the order of their distances,
and that a walk which is as deep as the graph has nodes finds all that any walk finds. -/

section Deepened

variable {g : Graph} {dir : Direction} {origin : String} {limit limit' : Nat}

namespace Walk

variable {w w' : Walk}

/-- Whether a walk is where another one of a smaller limit is: both have met and found the same, and of those in line
the other one has just those within its limit. -/
structure Shadows (limit : Nat) (w w' : Walk) : Prop where
  met : w'.met = w.met
  found : w'.found = w.found
  waiting : w.waiting = w'.waiting.filter (·.2 < limit)

/-- What is met and found does not depend on the limit. -/
theorem meet_of_same (g : Graph) (origin : String) (limit limit' : Nat) (hmet : w'.met = w.met)
    (hfound : w'.found = w.found) (depth : Nat) (id : String) :
    (meet g origin limit' depth w' id).met = (meet g origin limit depth w id).met ∧
      (meet g origin limit' depth w' id).found = (meet g origin limit depth w id).found := by
  by_cases hskip : id = origin ∨ w.met.contains id = true
  · rw [meet_of_skip hskip, meet_of_skip (hmet ▸ hskip)]
    exact ⟨hmet, hfound⟩
  · obtain ⟨hs, hm⟩ := not_or.mp hskip
    rw [Bool.not_eq_true] at hm
    cases hn : g.node? id with
    | none =>
      rw [meet_of_unknown hs hm hn, meet_of_unknown hs (hmet ▸ hm) hn]
      exact ⟨by simp [hmet], hfound⟩
    | some n =>
      rw [meet_of_known hs hm hn, meet_of_known hs (hmet ▸ hm) hn]
      exact ⟨by simp [hmet], by simp [hfound]⟩

theorem follow_of_same (g : Graph) (dir : Direction) (origin : String) (limit limit' : Nat) (hmet : w'.met = w.met)
    (hfound : w'.found = w.found) (id : String) (depth : Nat) :
    (w'.follow g dir origin limit' id depth).met = (w.follow g dir origin limit id depth).met ∧
      (w'.follow g dir origin limit' id depth).found = (w.follow g dir origin limit id depth).found := by
  unfold follow
  generalize hv : { w with taken := w.taken + 1 } = v
  generalize hv' : { w' with taken := w'.taken + 1 } = v'
  have hmet : v'.met = v.met := by simp [← hv, ← hv', hmet]
  have hfound : v'.found = v.found := by simp [← hv, ← hv', hfound]
  clear hv hv'
  induction g.callNeighbours dir id generalizing v v' with
  | nil => exact ⟨hmet, hfound⟩
  | cons x rest ih =>
    obtain ⟨hm, hf⟩ := meet_of_same g origin limit limit' hmet hfound (depth + 1) x
    exact ih _ _ hm hf

theorem waiting_eq_nil_iff : w.waiting = [] ↔ ¬ w.taken < w.line.size := by
  simp [waiting]

theorem waiting_of_lt (hlt : w.taken < w.line.size) :
    w.waiting = w.line[w.taken] :: w.line.toList.drop (w.taken + 1) := by
  unfold waiting
  rw [List.drop_eq_getElem_cons (by simpa using hlt)]
  simp

/-- If anyone is within the limit, the first in line is, since nobody waits in front of those who are nearer. -/
theorem Shadows.head_lt (h : Shadows limit w w') (hw' : w'.Progress g dir origin limit') (hlt : w.taken < w.line.size) :
    ∃ hlt' : w'.taken < w'.line.size, w'.line[w'.taken] = w.line[w.taken] ∧ w.line[w.taken].2 < limit := by
  have hne : w.waiting ≠ [] := fun hnil => waiting_eq_nil_iff.mp hnil hlt
  have hlt' : w'.taken < w'.line.size := by
    by_contra hend
    apply hne
    rw [h.waiting, waiting_eq_nil_iff.mpr hend]
    rfl
  have hhead := h.waiting
  rw [waiting_of_lt hlt, waiting_of_lt hlt'] at hhead
  have hnear : w'.line[w'.taken].2 < limit := by
    -- whoever is first of those within the limit stands behind the first of all, who is no farther
    have hmem : w.line[w.taken] ∈ (w'.line[w'.taken] :: w'.line.toList.drop (w'.taken + 1)).filter (·.2 < limit) :=
      hhead ▸ List.mem_cons_self
    obtain ⟨hin, hlimit⟩ := List.mem_filter.mp hmem
    have hlimit : w.line[w.taken].2 < limit := by simpa using hlimit
    have hsorted := hw'.waiting_sorted
    rw [waiting_of_lt hlt', List.pairwise_cons] at hsorted
    rcases List.mem_cons.mp hin with heq | hin
    · rwa [← heq]
    · exact Nat.lt_of_le_of_lt (hsorted.1 _ hin).1 hlimit
  rw [List.filter_cons_of_pos (by simpa using hnear)] at hhead
  have heq : w.line[w.taken] = w'.line[w'.taken] := (List.cons.inj hhead).1
  exact ⟨hlt', heq.symm, heq ▸ hnear⟩

/-- Both take the same one, and find the same. -/
theorem Shadows.follow (h : Shadows limit w w') (hg : g.Consistent) (hle : limit ≤ limit')
    (hw' : w'.Progress g dir origin limit') (hlt : w.taken < w.line.size) (hlt' : w'.taken < w'.line.size) :
    Shadows limit (w.follow g dir origin limit w.line[w.taken].1 w.line[w.taken].2)
      (w'.follow g dir origin limit' w'.line[w'.taken].1 w'.line[w'.taken].2) := by
  obtain ⟨_, hsame, hnear⟩ := h.head_lt hw' hlt
  obtain ⟨hmet, hfound⟩ := follow_of_same g dir origin limit limit' h.met h.found
    w.line[w.taken].1 w.line[w.taken].2
  obtain ⟨a, i, rest, news, hf⟩ := exists_follows hg dir origin limit hlt
  obtain ⟨a', i', rest', news', hf'⟩ := exists_follows hg dir origin limit' hlt'
  obtain ⟨hhead, hrest⟩ := List.cons.inj ((waiting_of_lt hlt).symm.trans hf.before)
  obtain ⟨hhead', hrest'⟩ := List.cons.inj ((waiting_of_lt hlt').symm.trans hf'.before)
  rw [hsame] at hhead' hf' ⊢
  obtain ⟨rfl, rfl⟩ := Prod.mk.inj (hhead.symm.trans hhead')
  refine ⟨hmet, hfound, ?_⟩
  have hnews : news' = news := by
    have hall := congrArg Array.toList hfound
    rw [hf.adds.found_eq, hf'.adds.found_eq] at hall
    simpa [h.found] using hall
  have hline : rest = rest'.filter (·.2 < limit) := by
    have hwaiting := h.waiting
    rw [hf.before, hf'.before, List.filter_cons_of_pos (by simpa [hhead] using hnear)] at hwaiting
    exact (List.cons.inj hwaiting).2
  rw [hf.after, hf'.after, List.filter_append, ← hline, hnews]
  by_cases hdeep : i + 1 < limit
  · have hall : (news.map fun n => (n.id, i + 1)).filter (fun p => decide (p.2 < limit)) =
        news.map fun n => (n.id, i + 1) := List.filter_eq_self.mpr (by simp [hdeep])
    rw [if_pos hdeep, if_pos (Nat.lt_of_lt_of_le hdeep hle), hall]
  · have hnone : (if i + 1 < limit' then news.map fun n => (n.id, i + 1) else []).filter
        (fun p => decide (p.2 < limit)) = [] := by
      apply List.filter_eq_nil_iff.mpr
      split <;> simp [Nat.le_of_not_lt hdeep]
    rw [if_neg hdeep, hnone]

/-- What a walk has found it keeps. -/
theorem found_prefix_run (hg : g.Consistent) (dir : Direction) (origin : String) (limit : Nat) (w : Walk) :
    w.found.toList <+: (w.run g dir origin limit).found.toList := by
  refine (run_induct g dir origin limit (P := fun v => w.found.toList <+: v.found.toList) ?_ w
    (List.prefix_refl _)).1
  intro v hv hlt
  obtain ⟨a, i, rest, news, hf⟩ := exists_follows hg dir origin limit hlt
  rw [hf.adds.found_eq]
  exact hv.trans (List.prefix_append _ _)

/-- A walk that shadows another one goes on from where the other one ends. -/
theorem Shadows.run (hg : g.Consistent) (hle : limit ≤ limit') (h : Shadows limit w w')
    (hw' : w'.Progress g dir origin limit') :
    (w.run g dir origin limit).found.toList <+: (w'.run g dir origin limit').found.toList := by
  fun_induction Walk.run g dir origin limit w generalizing w' with
  | case1 w hlt ih =>
    obtain ⟨hlt', -, -⟩ := h.head_lt hw' hlt
    have hstep : w'.run g dir origin limit' =
        (w'.follow g dir origin limit' w'.line[w'.taken].1 w'.line[w'.taken].2).run g dir origin limit' := by
      rw [Walk.run, dif_pos hlt']
    rw [hstep]
    exact ih (h.follow hg hle hw' hlt hlt') (hw'.follow hg hlt')
  | case2 w hend =>
    rw [← h.found]
    exact found_prefix_run hg dir origin limit' w'

theorem shadows_start (origin : String) (hle : limit ≤ limit') :
    Shadows limit (Walk.start origin limit) (Walk.start origin limit') where
  met := rfl
  found := rfl
  waiting := by
    by_cases hzero : limit = 0
    · simp [waiting, start, hzero]
    · have hpos : limit' ≠ 0 := by omega
      simp [waiting, start, hzero, hpos, Nat.pos_of_ne_zero hzero]

end Walk

namespace Consistent

variable {depth depth' : Nat} {n m : Node}

theorem walk_prefix (h : g.Consistent) (dir : Direction) (origin : String) (hle : depth ≤ depth') :
    g.walk dir origin depth <+: g.walk dir origin depth' :=
  (Walk.shadows_start origin hle).run h hle (Walk.Progress.start g dir origin depth')

theorem nodup_walk (h : g.Consistent) (dir : Direction) (origin : String) (depth : Nat) :
    ((g.walk dir origin depth).map Node.id).Nodup :=
  (Walk.run_induct g dir origin depth (fun _ hw hlt => Walk.Progress.follow h hw hlt) _
    (Walk.Progress.start g dir origin depth)).1.found_nodup

/-- Whoever a walk finds is found by the walk as deep as any path to it is long. -/
theorem mem_walk_of_path (h : g.Consistent) {k : Nat} (hn : n ∈ g.walk dir origin depth)
    (hpath : CallPath g dir origin k n.id) (hk : k ≤ depth') : n ∈ g.walk dir origin depth' := by
  obtain ⟨hcontains, hne, -⟩ := h.mem_walk.mp (List.mem_map_of_mem hn)
  obtain ⟨m, hm, hid⟩ := List.mem_map.mp (h.mem_walk.mpr ⟨hcontains, hne, k, hk, hpath⟩)
  -- both walks are beginnings of a third one, which finds no node twice
  have hn' := (h.walk_prefix dir origin (Nat.le_max_left depth depth')).subset hn
  have hm' := (h.walk_prefix dir origin (Nat.le_max_right depth depth')).subset hm
  rwa [List.inj_on_of_nodup_map (h.nodup_walk dir origin _) hn' hm' hid.symm]

end Consistent

/-- The number of calls on a shortest path from a start to an identifier. -/
noncomputable def distance (g : Graph) (dir : Direction) (start id : String) : Nat :=
  sInf {k | CallPath g dir start k id}

namespace Consistent

variable {depth depth' : Nat} {n m : Node}

theorem isLeast_distance (h : g.Consistent) (hn : n ∈ g.walk dir origin depth) :
    IsLeast {k | CallPath g dir origin k n.id} (g.distance dir origin n.id) := by
  obtain ⟨-, -, k, -, hpath⟩ := h.mem_walk.mp (List.mem_map_of_mem hn)
  exact ⟨Nat.sInf_mem ⟨k, hpath⟩, fun j hj => Nat.sInf_le hj⟩

theorem mem_walk_iff_distance_le (h : g.Consistent) (hn : n ∈ g.walk dir origin depth') :
    n ∈ g.walk dir origin depth ↔ g.distance dir origin n.id ≤ depth := by
  obtain ⟨hpath, hleast⟩ := h.isLeast_distance hn
  constructor
  · intro hmem
    obtain ⟨-, -, k, hk, hk'⟩ := h.mem_walk.mp (List.mem_map_of_mem hmem)
    exact Nat.le_trans (hleast hk') hk
  · exact fun hle => h.mem_walk_of_path hn hpath hle

/-- Whoever stands before a node is in each beginning that has the node. -/
theorem pairwise_distance (h : g.Consistent) (dir : Direction) (origin : String) (depth : Nat) :
    (g.walk dir origin depth).Pairwise fun n m => g.distance dir origin n.id ≤ g.distance dir origin m.id := by
  rw [List.pairwise_iff_getElem]
  intro i j hi hj hij
  have hm := List.getElem_mem hj
  have hle := (h.mem_walk_iff_distance_le hm).mp hm
  have hprefix := h.walk_prefix dir origin hle
  obtain ⟨k, hk, hsame⟩ := List.getElem_of_mem ((h.mem_walk_iff_distance_le hm).mpr (Nat.le_refl _))
  have hplace : k = j := by
    apply (List.Nodup.of_map _ (h.nodup_walk dir origin depth)).getElem_inj_iff.mp
    rw [← hprefix.getElem hk, hsame]
  apply (h.mem_walk_iff_distance_le (List.getElem_mem hi)).mp
  rw [← hprefix.getElem (by omega : i < _)]
  exact List.getElem_mem _

/-- A walk finds no more than there are nodes. -/
theorem length_walk_le (h : g.Consistent) (dir : Direction) (origin : String) (depth : Nat) :
    (g.walk dir origin depth).length ≤ g.nodeCount := by
  have hkeys : (g.walk dir origin depth).map Node.id ⊆ g.nodes.keys := by
    intro id hid
    rw [Std.TreeMap.mem_keys]
    exact (h.mem_walk.mp hid).1
  have hle := ((h.nodup_walk dir origin depth).subperm hkeys).length_le
  rwa [List.length_map, Std.TreeMap.length_keys] at hle

/-- When one more call leads to nobody new, no number of calls does. -/
theorem walk_of_settled (h : g.Consistent)
    (hsame : (g.walk dir origin (depth + 1)).length = (g.walk dir origin depth).length) (hle : depth ≤ depth') :
    g.walk dir origin depth' = g.walk dir origin depth := by
  have heq : g.walk dir origin depth = g.walk dir origin (depth + 1) :=
    (h.walk_prefix dir origin (Nat.le_succ depth)).eq_of_length hsame.symm
  have hreach : ∀ {k : Nat} {x : String}, CallPath g dir origin k x →
      x = origin ∨ x ∈ (g.walk dir origin depth).map Node.id := by
    intro k x hpath
    induction hpath with
    | refl => exact .inl rfl
    | @step k a b _ hcall hb ih =>
      by_cases hbo : b = origin
      · exact .inl hbo
      · have hnear : ∃ j ≤ depth, CallPath g dir origin j a := by
          rcases ih with rfl | ha
          · exact ⟨0, Nat.zero_le _, .refl⟩
          · exact (h.mem_walk.mp ha).2.2
        obtain ⟨j, hj, hpath⟩ := hnear
        rw [heq]
        exact .inr (h.mem_walk.mpr ⟨hb, hbo, j + 1, Nat.succ_le_succ hj, .step hpath hcall hb⟩)
  have hsub : (g.walk dir origin depth').map Node.id ⊆ (g.walk dir origin depth).map Node.id := by
    intro x hx
    obtain ⟨-, hne, k, -, hpath⟩ := h.mem_walk.mp hx
    exact (hreach hpath).resolve_left hne
  have hlength := ((h.nodup_walk dir origin depth').subperm hsub).length_le
  rw [List.length_map, List.length_map] at hlength
  exact ((h.walk_prefix dir origin hle).eq_of_length_le hlength).symm

/-- Each call deeper finds someone new, until no deeper walk does. -/
theorem le_length_walk_or_settled (h : g.Consistent) (dir : Direction) (origin : String) (depth : Nat) :
    depth ≤ (g.walk dir origin depth).length ∨
      ∀ depth', depth ≤ depth' → g.walk dir origin depth' = g.walk dir origin depth := by
  induction depth with
  | zero => exact .inl (Nat.zero_le _)
  | succ depth ih =>
    rcases ih with hlong | hsettled
    · by_cases hsame : (g.walk dir origin (depth + 1)).length = (g.walk dir origin depth).length
      · refine .inr fun depth' hle => ?_
        rw [h.walk_of_settled hsame (Nat.le_of_succ_le hle), h.walk_of_settled hsame (Nat.le_succ depth)]
      · have hle : (g.walk dir origin depth).length ≤ (g.walk dir origin (depth + 1)).length :=
          (h.walk_prefix dir origin (Nat.le_succ depth)).length_le
        exact .inl (by omega)
    · refine .inr fun depth' hle => ?_
      rw [hsettled depth' (Nat.le_of_succ_le hle), hsettled (depth + 1) (Nat.le_succ depth)]

theorem walk_of_nodeCount_le (h : g.Consistent) (hcount : g.nodeCount ≤ depth) (hle : depth ≤ depth') :
    g.walk dir origin depth' = g.walk dir origin depth := by
  rcases h.le_length_walk_or_settled dir origin depth with hlong | hsettled
  · have hall := (h.length_walk_le dir origin depth').trans (hcount.trans hlong)
    exact ((h.walk_prefix dir origin hle).eq_of_length_le hall).symm
  · exact hsettled depth' hle

end Consistent

/-- In every graph that insertions lead to, a walk from any identifier in either direction finds first, in the same order,
what a walk of a smaller depth finds, which is all that is no farther away than that depth. So the nodes are found in
the order of their distances, and no walk finds more than one that is as deep as the graph has nodes. -/
theorem walk_deeper (attempts : List Insertion) (dir : Direction) (id : String) {depth depth' : Nat}
    (hle : depth ≤ depth') :
    let g := built attempts
    g.walk dir id depth <+: g.walk dir id depth' ∧
      (∀ n ∈ g.walk dir id depth', IsLeast {k | CallPath g dir id k n.id} (g.distance dir id n.id) ∧
        (n ∈ g.walk dir id depth ↔ g.distance dir id n.id ≤ depth)) ∧
      (g.walk dir id depth').Pairwise (fun n m => g.distance dir id n.id ≤ g.distance dir id m.id) ∧
      (g.nodeCount ≤ depth → g.walk dir id depth' = g.walk dir id depth) := by
  intro g
  have h : g.Consistent := consistent_built attempts
  refine ⟨h.walk_prefix dir id hle, fun n hn => ?_, h.pairwise_distance dir id depth', fun hcount => ?_⟩
  · exact ⟨h.isLeast_distance hn, h.mem_walk_iff_distance_le hn⟩
  · exact h.walk_of_nodeCount_le hcount hle

/-- The walks along the ring: one call leads to the second function, two calls lead to the third one too, and no number of
calls leads to more. -/
theorem walk_deeper_ring :
    (1 ≤ 2 ∧ (built ring).callees "a" 1 <+: (built ring).callees "a" 2 ∧
      ((built ring).callees "a" 1).map Node.id = ["b"] ∧ ((built ring).callees "a" 2).map Node.id = ["b", "c"]) ∧
    (3 ≤ 7 ∧ (built ring).nodeCount ≤ 3 ∧ (built ring).callees "a" 7 = (built ring).callees "a" 3) := by
  have hcount : (built ring).nodeCount ≤ 3 := by decide +kernel
  refine ⟨⟨by decide, ?_, by decide +kernel, by decide +kernel⟩, by decide, hcount, ?_⟩
  · exact (walk_deeper ring .callees "a" (by decide : 1 ≤ 2)).1
  · exact (walk_deeper ring .callees "a" (by decide : 3 ≤ 7)).2.2.2 hcount

end Deepened

end Graph
end CodeAtlas
