import CodeAtlas.Graph.Basic

/-!
Who calls whom, over several steps. A walk keeps a line of identifiers whose calls are to be followed, each
with the number of calls that led to it; the first in line is taken, and what it leads to is met. A node that
is met for the first time is found, and joins the line if the depth allows one more call. The start is never
found, and identifiers that are no nodes are neither found nor followed. The walk ends when all in line were
taken: every identifier taken after the start was a node met for the first time (`Walk.potential`).
-/
namespace CodeAtlas.Graph

/-- Along or against the calls. -/
inductive Direction where
  | callees
  | callers
deriving DecidableEq, Repr

/-- The identifiers one call away. -/
def callNeighbours (g : Graph) : Direction → String → List String
  | .callees, id => ((g.outgoing id).filter (·.kind == .calls)).map (·.target)
  | .callers, id => ((g.incoming id).filter (·.kind == .calls)).map (·.source)

/-- A walk that is under way. -/
structure Walk where
  /-- Whoever joined the line, with the number of calls that led there. -/
  line : Array (String × Nat)
  /-- How many of the line were taken. -/
  taken : Nat := 0
  met : Std.TreeSet String := {}
  found : Array Node := #[]

namespace Walk

/-- A walk that has not begun; one that may follow no call has nobody in line. -/
def start (id : String) (maxDepth : Nat) : Walk where
  line := if maxDepth = 0 then #[] else #[(id, 0)]

/-- Meet an identifier after `depth` calls, unless it is the start or was met before. -/
def meet (g : Graph) (start : String) (maxDepth depth : Nat) (w : Walk) (id : String) : Walk :=
  if id == start || w.met.contains id then w
  else
    match g.node? id with
    | none => { w with met := w.met.insert id }
    | some n =>
      { w with
        met := w.met.insert id
        found := w.found.push n
        line := if depth < maxDepth then w.line.push (id, depth) else w.line }

/-- Take an identifier that was reached by `depth` calls, and meet all that is one call further. -/
def follow (g : Graph) (dir : Direction) (start : String) (maxDepth : Nat) (w : Walk) (id : String)
    (depth : Nat) : Walk :=
  (g.callNeighbours dir id).foldl (meet g start maxDepth (depth + 1)) { w with taken := w.taken + 1 }

/-- The number of nodes that are not among those met. -/
def unmet (g : Graph) (met : Std.TreeSet String) : Nat := g.nodes.keys.countP fun id => !met.contains id

/-- The number of identifiers that may still be taken: those in line and the nodes that were not met. -/
def potential (g : Graph) (w : Walk) : Nat := unmet g w.met + (w.line.size - w.taken)

theorem unmet_insert_le (g : Graph) (met : Std.TreeSet String) (id : String) :
    unmet g (met.insert id) ≤ unmet g met := by
  apply List.countP_mono_left
  intro x _ hx
  simp only [Bool.not_eq_true'] at hx ⊢
  exact (contains_insert_eq_false_iff.mp hx).2

theorem unmet_insert_lt {g : Graph} {met : Std.TreeSet String} {id : String} (hm : met.contains id = false)
    (hn : id ∈ g.nodes.keys) : unmet g (met.insert id) < unmet g met := by
  obtain ⟨before, after, hk⟩ := List.append_of_mem hn
  have hle (xs : List String) : xs.countP (fun x => !(met.insert id).contains x) ≤
      xs.countP (fun x => !met.contains x) := by
    apply List.countP_mono_left
    intro x _ hx
    simp only [Bool.not_eq_true'] at hx ⊢
    exact (contains_insert_eq_false_iff.mp hx).2
  have hb := hle before
  have ha := hle after
  have hid : (met.insert id).contains id = true := Std.TreeSet.contains_insert_self
  simp only [unmet, hk, List.countP_append, List.countP_cons, hm, hid, Bool.not_true, Bool.not_false,
    Bool.false_eq_true, if_true, if_false]
  omega

/-- Whoever joins the line was not met before. -/
theorem unmet_meet (g : Graph) (start : String) (maxDepth depth : Nat) (w : Walk) (id : String) :
    unmet g (meet g start maxDepth depth w id).met + (meet g start maxDepth depth w id).line.size ≤
      unmet g w.met + w.line.size := by
  unfold meet
  split
  · exact Nat.le_refl _
  · rename_i hm
    simp only [Bool.or_eq_true, not_or, Bool.not_eq_true] at hm
    cases hn : g.node? id with
    | none => exact Nat.add_le_add_right (unmet_insert_le g w.met id) _
    | some n =>
      have hk : id ∈ g.nodes.keys := by
        rw [Std.TreeMap.mem_keys, ← Std.TreeMap.isSome_getElem?_iff_mem]
        exact Option.isSome_of_eq_some hn
      have hlt := unmet_insert_lt hm.2 hk
      have hsize : (if depth < maxDepth then w.line.push (id, depth) else w.line).size ≤ w.line.size + 1 := by
        split <;> simp
      simp only
      omega

@[simp] theorem taken_meet (g : Graph) (start : String) (maxDepth depth : Nat) (w : Walk) (id : String) :
    (meet g start maxDepth depth w id).taken = w.taken := by
  unfold meet
  split
  · rfl
  · split <;> rfl

theorem line_size_le_meet (g : Graph) (start : String) (maxDepth depth : Nat) (w : Walk) (id : String) :
    w.line.size ≤ (meet g start maxDepth depth w id).line.size := by
  unfold meet
  split
  · exact Nat.le_refl _
  · split
    · exact Nat.le_refl _
    · simp only
      split <;> simp

theorem foldl_meet_sizes (g : Graph) (start : String) (maxDepth depth : Nat) (ids : List String) (w : Walk) :
    (ids.foldl (meet g start maxDepth depth) w).taken = w.taken ∧
      w.line.size ≤ (ids.foldl (meet g start maxDepth depth) w).line.size ∧
      unmet g (ids.foldl (meet g start maxDepth depth) w).met +
        (ids.foldl (meet g start maxDepth depth) w).line.size ≤ unmet g w.met + w.line.size := by
  induction ids generalizing w with
  | nil => exact ⟨rfl, Nat.le_refl _, Nat.le_refl _⟩
  | cons id ids ih =>
    obtain ⟨ht, hl, hu⟩ := ih (meet g start maxDepth depth w id)
    exact ⟨ht.trans (taken_meet ..), Nat.le_trans (line_size_le_meet ..) hl,
      Nat.le_trans hu (unmet_meet ..)⟩

theorem taken_follow (g : Graph) (dir : Direction) (start : String) (maxDepth : Nat) (w : Walk) (id : String)
    (depth : Nat) : (w.follow g dir start maxDepth id depth).taken = w.taken + 1 :=
  (foldl_meet_sizes g start maxDepth (depth + 1) _ _).1

/-- Whoever is taken leaves the line, and only nodes met for the first time join it. -/
theorem potential_follow_lt (g : Graph) (dir : Direction) (start : String) (maxDepth : Nat) {w : Walk}
    (id : String) (depth : Nat) (h : w.taken < w.line.size) :
    (w.follow g dir start maxDepth id depth).potential g < w.potential g := by
  obtain ⟨-, hl, hu⟩ := foldl_meet_sizes g start maxDepth (depth + 1) (g.callNeighbours dir id)
    { w with taken := w.taken + 1 }
  unfold potential
  rw [taken_follow]
  unfold follow
  simp only at hl hu
  omega

/-- Take whoever is first in line until all were taken. -/
def run (g : Graph) (dir : Direction) (start : String) (maxDepth : Nat) (w : Walk) : Walk :=
  if h : w.taken < w.line.size then
    run g dir start maxDepth
      (w.follow g dir start maxDepth w.line[w.taken].1 w.line[w.taken].2)
  else w
termination_by w.potential g
decreasing_by exact potential_follow_lt g dir start maxDepth _ _ h

end Walk

/-- The nodes within `depth` calls of an identifier, nearest first. -/
def walk (g : Graph) (dir : Direction) (start : String) (depth : Nat) : List Node :=
  ((Walk.start start depth).run g dir start depth).found.toList

/-- The nodes that call an identifier, up to `depth` calls away. -/
def callers (g : Graph) (id : String) (depth : Nat) : List Node := g.walk .callers id depth

/-- The nodes that an identifier calls, up to `depth` calls away. -/
def callees (g : Graph) (id : String) (depth : Nat) : List Node := g.walk .callees id depth

end CodeAtlas.Graph
