import CodeAtlas.Graph.Walk
import CodeAtlas.Proofs.Graph.Answers

/-! Walks find exactly what calls can reach. Whoever joins the line joins it behind all that are fewer calls
away, so a node is first met over a shortest path (`Progress.met_of_path`), and cutting the walk at a depth
loses nothing within that depth. -/
namespace CodeAtlas
namespace Graph

/-- One call, along or against its direction. -/
def Calls (g : Graph) (dir : Direction) (a b : String) : Prop :=
  ∃ e ∈ g.edges.toList, e.kind = .calls ∧
    match dir with
    | .callees => e.source = a ∧ e.target = b
    | .callers => e.source = b ∧ e.target = a

/-- Paths of `k` calls from a start, every identifier after the start being a node. -/
inductive CallPath (g : Graph) (dir : Direction) (start : String) : Nat → String → Prop
  | refl : CallPath g dir start 0 start
  | step {k : Nat} {a b : String} : CallPath g dir start k a → g.Calls dir a b → g.contains b = true →
      CallPath g dir start (k + 1) b

variable {g : Graph} {dir : Direction} {origin : String} {maxDepth : Nat}

theorem Consistent.mem_callNeighbours (h : g.Consistent) (a b : String) :
    b ∈ g.callNeighbours dir a ↔ g.Calls dir a b := by
  cases dir with
  | callees =>
    simp only [callNeighbours, h.outgoing_eq, Calls, List.mem_map, List.mem_filter, beq_iff_eq]
    constructor
    · rintro ⟨e, ⟨⟨he, ha⟩, hk⟩, hb⟩
      exact ⟨e, he, hk, ha, hb⟩
    · rintro ⟨e, he, hk, ha, hb⟩
      exact ⟨e, ⟨⟨he, ha⟩, hk⟩, hb⟩
  | callers =>
    simp only [callNeighbours, h.incoming_eq, Calls, List.mem_map, List.mem_filter, beq_iff_eq]
    constructor
    · rintro ⟨e, ⟨⟨he, ha⟩, hk⟩, hb⟩
      exact ⟨e, he, hk, hb, ha⟩
    · rintro ⟨e, he, hk, hb, ha⟩
      exact ⟨e, ⟨⟨he, ha⟩, hk⟩, hb⟩

theorem contains_eq_isSome (g : Graph) (id : String) : g.contains id = (g.node? id).isSome := by
  unfold contains node?
  exact Std.TreeMap.contains_eq_isSome_getElem?

namespace Walk

/-- What meeting some identifiers adds to a walk: the nodes among them that are new, each once, and, if the
depth allows, those in line behind all others. -/
structure Adds (g : Graph) (origin : String) (maxDepth depth : Nat) (ids : List String) (w w' : Walk)
    (news : List Node) : Prop where
  taken_eq : w'.taken = w.taken
  found_eq : w'.found.toList = w.found.toList ++ news
  line_eq : w'.line.toList = w.line.toList ++ if depth < maxDepth then news.map (·.id, depth) else []
  met_iff : ∀ x, w'.met.contains x = true ↔ w.met.contains x = true ∨ x ∈ ids ∧ x ≠ origin
  mem_news : ∀ n, n ∈ news ↔
    g.node? n.id = some n ∧ n.id ∈ ids ∧ n.id ≠ origin ∧ w.met.contains n.id = false
  news_nodup : (news.map Node.id).Nodup

section Meet

variable {depth : Nat} {id : String} {ids : List String} {w w' : Walk} {news : List Node} {n : Node}

theorem meet_of_skip (hskip : id = origin ∨ w.met.contains id = true) :
    meet g origin maxDepth depth w id = w := by
  unfold meet
  rw [if_pos (by simpa using hskip)]

theorem meet_of_unknown (hs : id ≠ origin) (hm : w.met.contains id = false) (hn : g.node? id = none) :
    meet g origin maxDepth depth w id = { w with met := w.met.insert id } := by
  unfold meet
  rw [if_neg (by simp [hs, hm]), hn]

theorem meet_of_known (hs : id ≠ origin) (hm : w.met.contains id = false) (hn : g.node? id = some n) :
    meet g origin maxDepth depth w id =
      { w with
        met := w.met.insert id
        found := w.found.push n
        line := if depth < maxDepth then w.line.push (id, depth) else w.line } := by
  unfold meet
  rw [if_neg (by simp [hs, hm]), hn]

/-- An identifier that is the start or was met before adds nothing. -/
theorem Adds.skip (hskip : id = origin ∨ w.met.contains id = true) (h : Adds g origin maxDepth depth ids w w' news) :
    Adds g origin maxDepth depth (id :: ids) w w' news := by
  refine ⟨h.taken_eq, h.found_eq, h.line_eq, fun x => ?_, fun n => ?_, h.news_nodup⟩
  · rw [h.met_iff, List.mem_cons]
    constructor
    · rintro (hx | ⟨hx, hs⟩)
      · exact .inl hx
      · exact .inr ⟨.inr hx, hs⟩
    · rintro (hx | ⟨rfl | hx, hs⟩)
      · exact .inl hx
      · exact .inl (hskip.resolve_left hs)
      · exact .inr ⟨hx, hs⟩
  · rw [h.mem_news, List.mem_cons]
    constructor
    · rintro ⟨hn, hi, hs, hm⟩
      exact ⟨hn, .inr hi, hs, hm⟩
    · rintro ⟨hn, rfl | hi, hs, hm⟩
      · exact absurd (hskip.resolve_left hs) (by simp [hm])
      · exact ⟨hn, hi, hs, hm⟩

/-- An identifier that is no node is met and no more. -/
theorem Adds.unknown (hs : id ≠ origin) (hn : g.node? id = none)
    (h : Adds g origin maxDepth depth ids { w with met := w.met.insert id } w' news) :
    Adds g origin maxDepth depth (id :: ids) w w' news := by
  refine ⟨h.taken_eq, h.found_eq, h.line_eq, fun x => ?_, fun n => ?_, h.news_nodup⟩
  · rw [h.met_iff, contains_insert_iff, List.mem_cons]
    grind
  · rw [h.mem_news, contains_insert_eq_false_iff, List.mem_cons]
    grind

/-- A node that is new is found, and joins the line if the depth allows. -/
theorem Adds.known (hs : id ≠ origin) (hm : w.met.contains id = false) (hn : g.node? id = some n) (hid : n.id = id)
    (h : Adds g origin maxDepth depth ids
      { w with
        met := w.met.insert id
        found := w.found.push n
        line := if depth < maxDepth then w.line.push (id, depth) else w.line } w' news) :
    Adds g origin maxDepth depth (id :: ids) w w' (n :: news) := by
  refine ⟨h.taken_eq, ?_, ?_, fun x => ?_, fun m => ?_, ?_⟩
  · rw [h.found_eq]
    simp
  · rw [h.line_eq]
    split <;> simp [hid]
  · rw [h.met_iff, contains_insert_iff, List.mem_cons]
    grind
  · rw [List.mem_cons, h.mem_news, contains_insert_eq_false_iff, List.mem_cons]
    grind
  · rw [List.map_cons, List.nodup_cons, List.mem_map]
    refine ⟨?_, h.news_nodup⟩
    rintro ⟨m, hmem, hmid⟩
    have hne := contains_insert_eq_false_iff.mp ((h.mem_news m).mp hmem).2.2.2
    exact hne.1 (hmid.trans hid)

end Meet

/-- One spec for the loop over the neighbours: the walk as it was determines what is new. -/
theorem adds_foldl_meet (h : g.Consistent) (origin : String) (maxDepth depth : Nat) (ids : List String)
    (w : Walk) :
    ∃ news, Adds g origin maxDepth depth ids w (ids.foldl (meet g origin maxDepth depth) w) news := by
  induction ids generalizing w with
  | nil => exact ⟨[], rfl, by simp, by simp, by simp, by simp, by simp⟩
  | cons id ids ih =>
    obtain ⟨news, hnews⟩ := ih (meet g origin maxDepth depth w id)
    rw [List.foldl_cons]
    by_cases hskip : id = origin ∨ w.met.contains id = true
    · rw [meet_of_skip hskip] at hnews ⊢
      exact ⟨news, hnews.skip hskip⟩
    · obtain ⟨hs, hm⟩ := not_or.mp hskip
      rw [Bool.not_eq_true] at hm
      cases hn : g.node? id with
      | none =>
        rw [meet_of_unknown hs hm hn] at hnews ⊢
        exact ⟨news, hnews.unknown hs hn⟩
      | some n =>
        rw [meet_of_known hs hm hn] at hnews ⊢
        exact ⟨n :: news, hnews.known hs hm hn (h.id_of_node hn)⟩

/-- Those in line that were not taken. -/
def waiting (w : Walk) : List (String × Nat) := w.line.toList.drop w.taken

/-- What holds of a walk from its start on, whoever is taken next. -/
structure Progress (g : Graph) (dir : Direction) (origin : String) (maxDepth : Nat) (w : Walk) : Prop where
  taken_le : w.taken ≤ w.line.size
  found_iff : ∀ n, n ∈ w.found.toList ↔ g.node? n.id = some n ∧ w.met.contains n.id = true
  found_nodup : (w.found.toList.map Node.id).Nodup
  met_ne : ∀ x, w.met.contains x = true → x ≠ origin
  met_path : ∀ x, w.met.contains x = true → g.contains x = true →
    ∃ k, 1 ≤ k ∧ k ≤ maxDepth ∧ CallPath g dir origin k x
  waiting_path : ∀ p ∈ w.waiting, p.2 < maxDepth ∧ CallPath g dir origin p.2 p.1
  /-- The line is in order of depth, and spans two depths at most. -/
  waiting_sorted : w.waiting.Pairwise fun p q => p.2 ≤ q.2 ∧ q.2 ≤ p.2 + 1
  /-- Whoever was met over fewer calls than the limit waits, with no more calls than it takes, or was followed. -/
  followed : ∀ k a, k < maxDepth → CallPath g dir origin k a → (a = origin ∨ w.met.contains a = true) →
    (∃ j ≤ k, (a, j) ∈ w.waiting) ∨ ∀ b, g.Calls dir a b → b = origin ∨ w.met.contains b = true

/-- All that is no farther from the start than anyone in line has been met. -/
theorem Progress.met_of_path {w : Walk} (hw : w.Progress g dir origin maxDepth) {i k : Nat} {x : String}
    (hi : i ≤ maxDepth) (hline : ∀ p ∈ w.waiting, i ≤ p.2) (hk : k ≤ i)
    (hx : CallPath g dir origin k x) : x = origin ∨ w.met.contains x = true := by
  induction hx with
  | refl => exact .inl rfl
  | @step k a b ha hab _ ih =>
    obtain ⟨j, hj, hmem⟩ | hall := hw.followed k a (by omega) ha (ih (by omega))
    · have := hline _ hmem
      simp only at this
      omega
    · exact hall b hab

theorem Progress.start (g : Graph) (dir : Direction) (origin : String) (maxDepth : Nat) :
    (Walk.start origin maxDepth).Progress g dir origin maxDepth where
  taken_le := by simp [Walk.start]
  found_iff n := by simp [Walk.start]
  found_nodup := by simp [Walk.start]
  met_ne x hx := by simp [Walk.start] at hx
  met_path x hx := by simp [Walk.start] at hx
  waiting_path p hp := by
    by_cases hd : maxDepth = 0
    · simp [Walk.start, waiting, hd] at hp
    · simp only [Walk.start, waiting, hd, if_false, List.drop_zero, List.mem_singleton] at hp
      subst hp
      exact ⟨Nat.pos_of_ne_zero hd, .refl⟩
  waiting_sorted := by
    by_cases hd : maxDepth = 0
    · simp [Walk.start, waiting, hd]
    · simp [Walk.start, waiting, hd]
  followed k a hk ha hm := by
    have hd : maxDepth ≠ 0 := by omega
    have hs : a = origin := hm.resolve_right (by simp [Walk.start])
    exact .inl ⟨0, Nat.zero_le k, by simp [Walk.start, waiting, hd, hs]⟩

/-- What taking the first in line comes to: `a`, who was reached by `i` calls, leaves the line, and what is one call
further is met. -/
structure Follows (g : Graph) (dir : Direction) (origin : String) (maxDepth : Nat) (w w' : Walk) (a : String) (i : Nat)
    (rest : List (String × Nat)) (news : List Node) : Prop where
  size : w.taken < w.line.size
  before : w.waiting = (a, i) :: rest
  adds : Adds g origin maxDepth (i + 1) (g.callNeighbours dir a) { w with taken := w.taken + 1 } w' news
  after : w'.waiting = rest ++ if i + 1 < maxDepth then news.map (·.id, i + 1) else []

theorem exists_follows (h : g.Consistent) (dir : Direction) (origin : String) (maxDepth : Nat) {w : Walk}
    (hlt : w.taken < w.line.size) :
    ∃ a i rest news, Follows g dir origin maxDepth w
      (w.follow g dir origin maxDepth w.line[w.taken].1 w.line[w.taken].2) a i rest news := by
  obtain ⟨news, hnews⟩ := adds_foldl_meet h origin maxDepth (w.line[w.taken].2 + 1)
    (g.callNeighbours dir w.line[w.taken].1) { w with taken := w.taken + 1 }
  refine ⟨_, _, w.line.toList.drop (w.taken + 1), news, hlt, ?_, hnews, ?_⟩
  · unfold waiting
    rw [List.drop_eq_getElem_cons (by simpa using hlt)]
    simp
  · unfold waiting follow
    rw [hnews.line_eq, hnews.taken_eq, List.drop_append_of_le_length (by rw [Array.length_toList]; exact hlt)]

namespace Follows

variable {w w' : Walk} {a : String} {i : Nat} {rest : List (String × Nat)} {news : List Node}

theorem mem_waiting (hf : Follows g dir origin maxDepth w w' a i rest news) (x : String) (k : Nat) :
    (x, k) ∈ w'.waiting ↔ (x, k) ∈ rest ∨ i + 1 < maxDepth ∧ k = i + 1 ∧ ∃ n ∈ news, n.id = x := by
  rw [hf.after, List.mem_append]
  apply or_congr Iff.rfl
  split
  · next hd =>
    rw [List.mem_map]
    constructor
    · rintro ⟨n, hn, he⟩
      cases he
      exact ⟨hd, rfl, n, hn, rfl⟩
    · rintro ⟨-, rfl, n, hn, rfl⟩
      exact ⟨n, hn, rfl⟩
  · next hd => simp [hd]

/-- Nobody in line is nearer than the one that is followed. -/
theorem head_le (hf : Follows g dir origin maxDepth w w' a i rest news) (hw : w.Progress g dir origin maxDepth) :
    ∀ p ∈ w.waiting, i ≤ p.2 := by
  have hsorted := hf.before ▸ hw.waiting_sorted
  rw [hf.before]
  intro p hp
  rcases List.mem_cons.mp hp with rfl | hp
  · exact le_refl _
  · exact ((List.pairwise_cons.mp hsorted).1 p hp).1

theorem path (hf : Follows g dir origin maxDepth w w' a i rest news) (hw : w.Progress g dir origin maxDepth) :
    i < maxDepth ∧ CallPath g dir origin i a :=
  hw.waiting_path (a, i) (hf.before ▸ List.mem_cons_self)

/-- A node that was not met is farther away than the one that is followed. -/
theorem far (hf : Follows g dir origin maxDepth w w' a i rest news) (hw : w.Progress g dir origin maxDepth)
    {n : Node} (hn : n ∈ news) {k : Nat} (hk : CallPath g dir origin k n.id) : i + 1 ≤ k := by
  obtain ⟨-, -, hs, hm⟩ := (hf.adds.mem_news n).mp hn
  by_contra hlt
  obtain he | hme := hw.met_of_path (hf.path hw).1.le (hf.head_le hw) (by omega) hk
  · exact hs he
  · rw [hm] at hme
    cases hme

theorem found_iff (hf : Follows g dir origin maxDepth w w' a i rest news) (hw : w.Progress g dir origin maxDepth)
    (n : Node) : n ∈ w'.found.toList ↔ g.node? n.id = some n ∧ w'.met.contains n.id = true := by
  rw [hf.adds.found_eq, List.mem_append, hw.found_iff, hf.adds.met_iff, hf.adds.mem_news]
  constructor
  · rintro (⟨hn, hm⟩ | ⟨hn, hc, hs, -⟩)
    · exact ⟨hn, .inl hm⟩
    · exact ⟨hn, .inr ⟨hc, hs⟩⟩
  · rintro ⟨hn, hm | ⟨hc, hs⟩⟩
    · exact .inl ⟨hn, hm⟩
    · by_cases hm : w.met.contains n.id = true
      · exact .inl ⟨hn, hm⟩
      · exact .inr ⟨hn, hc, hs, eq_false_of_ne_true hm⟩

theorem found_nodup (hf : Follows g dir origin maxDepth w w' a i rest news)
    (hw : w.Progress g dir origin maxDepth) : (w'.found.toList.map Node.id).Nodup := by
  rw [hf.adds.found_eq, List.map_append]
  refine List.nodup_append.mpr ⟨hw.found_nodup, hf.adds.news_nodup, ?_⟩
  intro x hx y hy hxy
  obtain ⟨n, hn, rfl⟩ := List.mem_map.mp hx
  obtain ⟨m, hm, rfl⟩ := List.mem_map.mp hy
  have hmet := ((hw.found_iff n).mp hn).2
  rw [hxy, ((hf.adds.mem_news m).mp hm).2.2.2] at hmet
  cases hmet

/-- Whoever was met by following is one call further. -/
theorem met_path (hf : Follows g dir origin maxDepth w w' a i rest news) (h : g.Consistent)
    (hw : w.Progress g dir origin maxDepth) (x : String) (hx : w'.met.contains x = true)
    (hc : g.contains x = true) : ∃ k, 1 ≤ k ∧ k ≤ maxDepth ∧ CallPath g dir origin k x := by
  obtain ⟨hi, hpath⟩ := hf.path hw
  obtain hm | ⟨hn, -⟩ := (hf.adds.met_iff x).mp hx
  · exact hw.met_path x hm hc
  · exact ⟨i + 1, by omega, hi, .step hpath ((h.mem_callNeighbours a x).mp hn) hc⟩

theorem waiting_path (hf : Follows g dir origin maxDepth w w' a i rest news) (h : g.Consistent)
    (hw : w.Progress g dir origin maxDepth) :
    ∀ p ∈ w'.waiting, p.2 < maxDepth ∧ CallPath g dir origin p.2 p.1 := by
  rintro ⟨x, k⟩ hx
  obtain hr | ⟨hd, rfl, n, hn, rfl⟩ := (hf.mem_waiting x k).mp hx
  · exact hw.waiting_path (x, k) (hf.before ▸ List.mem_cons_of_mem _ hr)
  · obtain ⟨hid, hc, -⟩ := (hf.adds.mem_news n).mp hn
    have hcontains : g.contains n.id = true := by rw [contains_eq_isSome, hid]; rfl
    exact ⟨hd, .step (hf.path hw).2 ((h.mem_callNeighbours a n.id).mp hc) hcontains⟩

/-- Whoever joins the line is no nearer than those in it, and one call farther than the first of them at most. -/
theorem waiting_sorted (hf : Follows g dir origin maxDepth w w' a i rest news)
    (hw : w.Progress g dir origin maxDepth) : w'.waiting.Pairwise fun p q => p.2 ≤ q.2 ∧ q.2 ≤ p.2 + 1 := by
  obtain ⟨hfirst, hpair⟩ := List.pairwise_cons.mp (hf.before ▸ hw.waiting_sorted)
  rw [hf.after, List.pairwise_append]
  refine ⟨hpair, ?_, ?_⟩
  · split
    · rw [List.pairwise_map]
      exact List.pairwise_of_forall fun _ _ => ⟨le_refl _, Nat.le_succ _⟩
    · exact List.Pairwise.nil
  · intro p hp q hq
    have hq2 : q.2 = i + 1 := by
      split at hq
      · obtain ⟨n, -, rfl⟩ := List.mem_map.mp hq
        rfl
      · cases hq
    have := hfirst p hp
    simp only at this
    omega

theorem followed (hf : Follows g dir origin maxDepth w w' a i rest news) (h : g.Consistent)
    (hw : w.Progress g dir origin maxDepth) (k : Nat) (b : String) (hk : k < maxDepth)
    (hb : CallPath g dir origin k b) (hm : b = origin ∨ w'.met.contains b = true) :
    (∃ j ≤ k, (b, j) ∈ w'.waiting) ∨ ∀ c, g.Calls dir b c → c = origin ∨ w'.met.contains c = true := by
  by_cases hold : b = origin ∨ w.met.contains b = true
  · obtain ⟨j, hj, hjm⟩ | hall := hw.followed k b hk hb hold
    · rw [hf.before, List.mem_cons] at hjm
      rcases hjm with hab | hr
      · -- the one just followed: all its neighbours have been met
        obtain ⟨rfl, rfl⟩ := Prod.mk.injEq .. ▸ hab
        refine .inr fun c hc => ?_
        by_cases hs : c = origin
        · exact .inl hs
        · exact .inr ((hf.adds.met_iff c).mpr (.inr ⟨(h.mem_callNeighbours b c).mpr hc, hs⟩))
      · exact .inl ⟨j, hj, (hf.mem_waiting b j).mpr (.inl hr)⟩
    · exact .inr fun c hc => (hall c hc).imp_right fun hcm => (hf.adds.met_iff c).mpr (.inl hcm)
  · obtain ⟨hbs, hbm⟩ := not_or.mp hold
    have hc : b ∈ g.callNeighbours dir a :=
      (((hf.adds.met_iff b).mp (hm.resolve_left hbs)).resolve_left hbm).1
    have hcontains : g.contains b = true := by
      cases hb with
      | refl => exact absurd rfl hbs
      | step _ _ hcb => exact hcb
    obtain ⟨n, hn⟩ := Option.isSome_iff_exists.mp (contains_eq_isSome g b ▸ hcontains)
    obtain rfl := h.id_of_node hn
    -- a new one joins the line with one call more than the one just followed, and no path to it is shorter
    have hnew : n ∈ news := (hf.adds.mem_news n).mpr ⟨hn, hc, hbs, eq_false_of_ne_true hbm⟩
    have hik := hf.far hw hnew hb
    exact .inl ⟨i + 1, hik, (hf.mem_waiting n.id (i + 1)).mpr (.inr ⟨by omega, rfl, n, hnew, rfl⟩)⟩

end Follows

/-- Taking the first in line and meeting all that is one call further. -/
theorem Progress.follow (h : g.Consistent) {w : Walk} (hw : w.Progress g dir origin maxDepth)
    (hlt : w.taken < w.line.size) :
    (w.follow g dir origin maxDepth w.line[w.taken].1 w.line[w.taken].2).Progress g dir origin maxDepth := by
  obtain ⟨a, i, rest, news, hf⟩ := exists_follows h dir origin maxDepth hlt
  generalize w.follow g dir origin maxDepth w.line[w.taken].1 w.line[w.taken].2 = w' at hf ⊢
  constructor
  case taken_le =>
    have hsize := congrArg List.length hf.adds.line_eq
    simp only [List.length_append, Array.length_toList] at hsize
    rw [hf.adds.taken_eq]
    simp only
    omega
  case found_iff => exact hf.found_iff hw
  case found_nodup => exact hf.found_nodup hw
  case met_ne =>
    intro x hx
    obtain hm | ⟨-, hs⟩ := (hf.adds.met_iff x).mp hx
    · exact hw.met_ne x hm
    · exact hs
  case met_path => exact hf.met_path h hw
  case waiting_path => exact hf.waiting_path h hw
  case waiting_sorted => exact hf.waiting_sorted hw
  case followed => exact hf.followed h hw

/-- What holds at the start and is kept by every step holds in the end, when all in line were taken. -/
theorem run_induct (g : Graph) (dir : Direction) (origin : String) (maxDepth : Nat) {P : Walk → Prop}
    (hstep : ∀ w, P w → ∀ h : w.taken < w.line.size,
      P (w.follow g dir origin maxDepth w.line[w.taken].1 w.line[w.taken].2)) (w : Walk) (hw : P w) :
    P (w.run g dir origin maxDepth) ∧
      ¬ (w.run g dir origin maxDepth).taken < (w.run g dir origin maxDepth).line.size := by
  fun_induction run g dir origin maxDepth w with
  | case1 w h ih => exact ih (hstep w hw h)
  | case2 w h => exact ⟨hw, h⟩

/-- The number of identifiers taken never exceeds what could be taken at the start. -/
theorem taken_run_le (g : Graph) (dir : Direction) (origin : String) (maxDepth : Nat) (w : Walk) :
    (w.run g dir origin maxDepth).taken ≤ w.taken + w.potential g := by
  let P (v : Walk) : Prop := v.taken + v.potential g ≤ w.taken + w.potential g
  have hstep (v : Walk) (hv : P v) (hlt : v.taken < v.line.size) :
      P (v.follow g dir origin maxDepth v.line[v.taken].1 v.line[v.taken].2) := by
    have hp := potential_follow_lt g dir origin maxDepth v.line[v.taken].1 v.line[v.taken].2 hlt
    simp only [P, taken_follow] at hv ⊢
    omega
  have h := (run_induct g dir origin maxDepth hstep w (le_refl _)).1
  simp only [P] at h
  omega

theorem potential_start_le (g : Graph) (origin : String) (maxDepth : Nat) :
    (Walk.start origin maxDepth).potential g ≤ 1 + g.nodeCount := by
  have hu : unmet g {} ≤ g.nodeCount := by
    unfold unmet nodeCount
    rw [← Std.TreeMap.length_keys]
    exact List.countP_le_length
  have hl : (Walk.start origin maxDepth).line.size ≤ 1 := by
    unfold Walk.start
    simp only
    split <;> simp
  unfold potential
  have hmet : (Walk.start origin maxDepth).met = {} := rfl
  rw [hmet]
  omega

end Walk

/-- In every graph that insertions lead to, a walk of any depth from any identifier finds each node once, never
the start, and just those that a path of calls through nodes reaches within the depth; it ends after taking no
more identifiers than the start and each node. -/
theorem callees_callers_exact (attempts : List Insertion) (id : String) (depth : Nat) (dir : Direction) :
    let g := built attempts
    let found := match dir with
      | .callees => g.callees id depth
      | .callers => g.callers id depth
    let ended := (Walk.start id depth).run g dir id depth
    (found.map Node.id).Nodup ∧
    (∀ n, n ∈ found ↔ g.node? n.id = some n ∧ n.id ≠ id ∧
      ∃ k, 1 ≤ k ∧ k ≤ depth ∧ CallPath g dir id k n.id) ∧
    found = ended.found.toList ∧ ended.taken = ended.line.size ∧ ended.taken ≤ 1 + g.nodeCount := by
  intro g found ended
  have h : g.Consistent := consistent_built attempts
  have hfound : found = ended.found.toList := by cases dir <;> rfl
  obtain ⟨hw, hend⟩ := Walk.run_induct g dir id depth (fun w hw hlt => Walk.Progress.follow h hw hlt) _
    (Walk.Progress.start g dir id depth)
  have hline : ended.waiting = [] := List.drop_eq_nil_of_le (by simpa using hend)
  have htaken := Nat.le_trans (Walk.taken_run_le g dir id depth (Walk.start id depth))
    (Nat.add_le_add_left (Walk.potential_start_le g id depth) _)
  refine ⟨hfound ▸ hw.found_nodup, fun n => ?_, hfound, ?_, ?_⟩
  · rw [hfound, hw.found_iff]
    constructor
    · rintro ⟨hn, hm⟩
      exact ⟨hn, hw.met_ne _ hm, hw.met_path _ hm (by rw [contains_eq_isSome, hn]; rfl)⟩
    · rintro ⟨hn, hs, k, -, hk, hpath⟩
      have hmet := hw.met_of_path (le_refl _) (fun p hp => absurd (hline ▸ hp) List.not_mem_nil) hk hpath
      exact ⟨hn, hmet.resolve_left hs⟩
  · exact Nat.le_antisymm hw.taken_le (Nat.le_of_not_lt hend)
  · exact htaken.trans (Nat.zero_add _).le

end Graph
end CodeAtlas
