import CodeAtlas.Graph.Build
import CodeAtlas.Proofs.Graph.Answers

/-! What a reasoning keeps of findings and of a graph: each of its four maps grows by itself, by what is filed
in it. -/
namespace CodeAtlas
namespace Reasoning

/-- The findings that are taken over. -/
def speaking (ns : List Findings.Narrative) : List Findings.Narrative :=
  ns.filter fun n => n.level ≠ .low ∧ !Text.blank n.purpose

/-- File a purpose unless one is there that is as confident. -/
def keepPurpose (purposes : Std.TreeMap String Purpose) (p : Purpose) : Std.TreeMap String Purpose :=
  match purposes[p.subject]? with
  | some old => if p.confidence.value ≤ old.confidence.value then purposes else purposes.insert p.subject p
  | none => purposes.insert p.subject p

theorem addPurpose_eq (r : Reasoning) (p : Purpose) :
    r.addPurpose p = { r with purposeMap := keepPurpose r.purposeMap p } := by
  unfold addPurpose keepPurpose
  cases r.purposeMap[p.subject]? with
  | none => rfl
  | some old =>
    dsimp only
    split <;> rfl

/-- Four loops, each over one map. -/
theorem build_eq (findings : Findings) (g : Graph) : (empty.addFindings findings).addWorkflows g =
    { purposeMap := ((speaking findings.narratives).map ofNarrative).foldl keepPurpose {}
      ruleMap := ((findings.rules.filter (·.level ≠ .low)).map ofRule).foldl (fun rules x => rules.insert x.id x) {}
      riskMap := ((findings.risks.filter (·.level ≠ .low)).map ofRisk).foldl (fun risks x => risks.insert x.id x) {}
      workflowMap := (g.sortedNodes.filterMap (workflowOf? g)).foldl (fun ws w => ws.insert w.id w) {} } := by
  have hpurposes (ns : List Findings.Narrative) (r : Reasoning) :
      ns.foldl (fun r n => r.addPurpose (ofNarrative n)) r =
        { r with purposeMap := (ns.map ofNarrative).foldl keepPurpose r.purposeMap } := by
    induction ns generalizing r with
    | nil => rfl
    | cons n rest ih => rw [List.foldl_cons, ih, addPurpose_eq, List.map_cons, List.foldl_cons]
  have hrules (xs : List Findings.Rule) (r : Reasoning) : xs.foldl (fun r x => r.addRule (ofRule x)) r =
      { r with ruleMap := (xs.map ofRule).foldl (fun rules x => rules.insert x.id x) r.ruleMap } := by
    induction xs generalizing r with
    | nil => rfl
    | cons x rest ih => rw [List.foldl_cons, ih, List.map_cons, List.foldl_cons]; rfl
  have hrisks (xs : List Findings.Risk) (r : Reasoning) : xs.foldl (fun r x => r.addRisk (ofRisk x)) r =
      { r with riskMap := (xs.map ofRisk).foldl (fun risks x => risks.insert x.id x) r.riskMap } := by
    induction xs generalizing r with
    | nil => rfl
    | cons x rest ih => rw [List.foldl_cons, ih, List.map_cons, List.foldl_cons]; rfl
  have hworkflows (ws : List Workflow) (r : Reasoning) : ws.foldl addWorkflow r =
      { r with workflowMap := ws.foldl (fun ws w => ws.insert w.id w) r.workflowMap } := by
    induction ws generalizing r with
    | nil => rfl
    | cons w rest ih => rw [List.foldl_cons, ih, List.foldl_cons]; rfl
  rw [addWorkflows, addFindings]
  simp only [hpurposes, hrules, hrisks, hworkflows]
  rfl

/-- What is known of intent after a build. -/
def known (findings : Findings) (g : Graph) : Reasoning := (empty.addFindings findings).addWorkflows g

end Reasoning

/-! Whether order matters. Findings come in parts, one for each chunk, in the order in which the chunks were done.
Under each key a reasoning keeps one thing, picked from the parts that have any; so the order of the parts is of no
consequence exactly when all parts that have something to pick would have the same picked. -/

/-- Whether something is picked from the first part that has it, or from the last. -/
def Picks {β γ : Type} (pick : List β → Option γ) : Prop :=
  pick [] = none ∧ ((∀ xs ys, pick (xs ++ ys) = (pick xs).or (pick ys)) ∨
    ∀ xs ys, pick (xs ++ ys) = (pick ys).or (pick xs))

/-- Whether the same is picked from all parts that have something to pick. -/
def Unopposed {α β γ : Type} (pick : List β → Option γ) (part : α → List β) (cs : List α) : Prop :=
  ∀ a ∈ cs, ∀ b ∈ cs, ∀ x ∈ pick (part a), ∀ y ∈ pick (part b), x = y

section Picks

variable {α β γ : Type} {pick : List β → Option γ} {part : α → List β} {cs cs' : List α}

theorem Picks.flatMap_eq_none (h : Picks pick) : pick (cs.flatMap part) = none ↔ ∀ a ∈ cs, pick (part a) = none := by
  induction cs with
  | nil => simp [h.1]
  | cons a rest ih =>
    rw [List.flatMap_cons, List.forall_mem_cons, ← ih]
    rcases h.2 with happend | happend
    · rw [happend, Option.or_eq_none_iff]
    · rw [happend, Option.or_eq_none_iff, and_comm]

theorem Picks.of_flatMap (h : Picks pick) {x : γ} (hx : pick (cs.flatMap part) = some x) :
    ∃ a ∈ cs, pick (part a) = some x := by
  induction cs with
  | nil => simp [h.1] at hx
  | cons a rest ih =>
    have hor : pick (part a) = some x ∨ pick (rest.flatMap part) = some x := by
      rw [List.flatMap_cons] at hx
      rcases h.2 with happend | happend
      · rw [happend, Option.or_eq_some_iff] at hx
        exact hx.imp_right And.right
      · rw [happend, Option.or_eq_some_iff] at hx
        exact hx.symm.imp_left And.right
    rcases hor with hx | hx
    · exact ⟨a, .head _, hx⟩
    · obtain ⟨b, hb, hy⟩ := ih hx
      exact ⟨b, .tail _ hb, hy⟩

/-- Where a single part has something to pick, none opposes it. -/
theorem unopposed_cons_of_none {a : α} {rest : List α} (h : ∀ b ∈ rest, pick (part b) = none) :
    Unopposed pick part (a :: rest) := by
  intro b hb c hc x hx y hy
  have hown : ∀ d ∈ a :: rest, ∀ z ∈ pick (part d), d = a := by
    intro d hd z hz
    refine (List.mem_cons.mp hd).resolve_right fun hrest => ?_
    rw [h d hrest] at hz
    cases hz
  rw [hown b hb x hx] at hx
  rw [hown c hc y hy] at hy
  exact Option.mem_unique hx hy

/-- What is picked does not depend on the order of parts from which the same is picked. -/
theorem Picks.flatMap_eq_of_perm (h : Picks pick) (hsame : Unopposed pick part cs) (hperm : cs'.Perm cs) :
    pick (cs'.flatMap part) = pick (cs.flatMap part) := by
  cases hpick : pick (cs.flatMap part) with
  | none => exact h.flatMap_eq_none.mpr fun a ha => h.flatMap_eq_none.mp hpick a (hperm.subset ha)
  | some x =>
    obtain ⟨a, ha, hx⟩ := h.of_flatMap hpick
    cases hpick' : pick (cs'.flatMap part) with
    | none => exact absurd (hx.symm.trans (h.flatMap_eq_none.mp hpick' a (hperm.symm.subset ha))) (by simp)
    | some y =>
      obtain ⟨b, hb, hy⟩ := h.of_flatMap hpick'
      exact congrArg some (hsame b (hperm.subset hb) a ha y hy x hx)

/-- In some order of the parts it is any given one that is picked from. -/
theorem Picks.exists_perm (h : Picks pick) {a : α} (ha : a ∈ cs) {x : γ} (hx : pick (part a) = some x) :
    ∃ cs' : List α, cs'.Perm cs ∧ pick (cs'.flatMap part) = some x := by
  obtain ⟨before, after, rfl⟩ := List.append_of_mem ha
  rcases h.2 with happend | happend
  · refine ⟨a :: (before ++ after), List.perm_middle.symm, ?_⟩
    rw [List.flatMap_cons, happend, hx, Option.some_or]
  · refine ⟨before ++ after ++ [a], ?_, ?_⟩
    · exact (List.perm_append_singleton _ _).trans List.perm_middle.symm
    · rw [List.flatMap_append, List.flatMap_singleton, happend, hx, Option.some_or]

theorem Picks.unopposed_iff (h : Picks pick) : Unopposed pick part cs ↔
    ∀ cs' : List α, cs'.Perm cs → pick (cs'.flatMap part) = pick (cs.flatMap part) := by
  refine ⟨fun hsame cs' => h.flatMap_eq_of_perm hsame, fun hall a ha b hb x hx y hy => ?_⟩
  obtain ⟨first, hfirst, hpick⟩ := h.exists_perm ha hx
  obtain ⟨second, hsecond, hpick'⟩ := h.exists_perm hb hy
  exact Option.some.inj (hpick.symm.trans ((hall first hfirst).trans ((hall second hsecond).symm.trans hpick')))

end Picks

/-- The last of some things with a key. -/
def lastUnder {β : Type} (key : β → String) (k : String) (xs : List β) : Option β := (xs.filter (key · == k)).getLast?

theorem picks_lastUnder {β : Type} (key : β → String) (k : String) : Picks (lastUnder key k) := by
  refine ⟨rfl, .inr fun xs ys => ?_⟩
  rw [lastUnder, List.filter_append, List.getLast?_append]
  rfl

theorem getElem?_foldl_insert {β : Type} (key : β → String) (xs : List β) (k : String) :
    (xs.foldl (fun (m : Std.TreeMap String β) x => m.insert (key x) x) {})[k]? = lastUnder key k xs := by
  induction xs using List.reverseRecOn with
  | nil => rfl
  | append_singleton xs x ih =>
    rw [List.foldl_append, List.foldl_cons, List.foldl_nil, Std.TreeMap.getElem?_insert, ih, lastUnder, lastUnder,
      List.filter_append]
    by_cases h : key x = k
    · simp [h]
    · simp [h]

section Keys

variable {β : Type} {key : β → String} {m m' : Std.TreeMap String β} {k : String} {x : β}

/-- In a map whose entries have their own keys, what is found under a key is what is listed with it. -/
theorem getElem?_eq_some_iff_mem_values (hm : ∀ (k : String) (x : β), m[k]? = some x → key x = k) :
    m[k]? = some x ↔ x ∈ m.values ∧ key x = k := by
  rw [Graph.values_eq_map_toList, List.mem_map, Prod.exists]
  constructor
  · exact fun hx => ⟨⟨k, x, Std.TreeMap.mem_toList_iff_getElem?_eq_some.mpr hx, rfl⟩, hm k x hx⟩
  · rintro ⟨⟨j, y, hy, rfl⟩, rfl⟩
    have hget := Std.TreeMap.mem_toList_iff_getElem?_eq_some.mp hy
    rwa [hm j y hget]

/-- Maps that give the same for each key list the same. -/
theorem values_eq_iff (hm : ∀ (k : String) (x : β), m[k]? = some x → key x = k)
    (hm' : ∀ (k : String) (x : β), m'[k]? = some x → key x = k) : m.values = m'.values ↔ ∀ k : String, m[k]? = m'[k]? := by
  refine ⟨fun h k => ?_, fun h => (Std.TreeMap.Equiv.of_forall_constGet?_eq h).values_eq⟩
  exact Option.ext fun x => by
    rw [getElem?_eq_some_iff_mem_values hm, getElem?_eq_some_iff_mem_values hm', h]

theorem map_key_values (hm : ∀ (k : String) (x : β), m[k]? = some x → key x = k) : m.values.map key = m.keys := by
  rw [Graph.values_eq_map_toList, List.map_map, ← Std.TreeMap.map_fst_toList_eq_keys]
  exact List.map_congr_left fun entry hentry => hm _ _ (Std.TreeMap.mem_toList_iff_getElem?_eq_some.mp hentry)

theorem key_of_lastUnder {xs : List β} (h : lastUnder key k xs = some x) : key x = k := by
  simpa using (List.mem_filter.mp (List.mem_of_getLast? h)).2

theorem key_of_foldl_insert {xs : List β}
    (h : (xs.foldl (fun (m : Std.TreeMap String β) x => m.insert (key x) x) {})[k]? = some x) : key x = k :=
  key_of_lastUnder ((getElem?_foldl_insert key xs k).symm.trans h)

/-- A map that is filled one by one lists the last of each key. -/
theorem mem_values_foldl_insert {xs : List β} :
    x ∈ (xs.foldl (fun (m : Std.TreeMap String β) x => m.insert (key x) x) {}).values ↔
      lastUnder key (key x) xs = some x := by
  rw [← getElem?_foldl_insert, getElem?_eq_some_iff_mem_values fun _ _ => key_of_foldl_insert]
  exact (and_iff_left rfl).symm

/-- Where no two things have one key, all of them are listed. -/
theorem mem_values_foldl_insert_of_nodup {xs : List β} (h : (xs.map key).Nodup) :
    x ∈ (xs.foldl (fun (m : Std.TreeMap String β) x => m.insert (key x) x) {}).values ↔ x ∈ xs := by
  rw [mem_values_foldl_insert]
  refine ⟨fun hx => (List.mem_filter.mp (List.mem_of_getLast? hx)).1, fun hx => ?_⟩
  cases hlast : lastUnder key (key x) xs with
  | none =>
    rw [lastUnder, List.getLast?_eq_none_iff, List.filter_eq_nil_iff] at hlast
    exact absurd (beq_self_eq_true (key x)) (hlast x hx)
  | some y =>
    have hy : y ∈ xs := (List.mem_filter.mp (List.mem_of_getLast? hlast)).1
    rw [List.inj_on_of_nodup_map h hy hx (key_of_lastUnder hlast)]

theorem nodup_map_key_foldl_insert (key : β → String) (xs : List β) :
    ((xs.foldl (fun (m : Std.TreeMap String β) x => m.insert (key x) x) {}).values.map key).Nodup := by
  rw [map_key_values fun _ _ => key_of_foldl_insert]
  exact Std.TreeMap.nodup_keys

end Keys

namespace Findings

/-- The findings of chunks, in the order in which the chunks were done. -/
def ofChunks (cs : List ChunkFindings) : Findings := cs.foldl push .empty

theorem ofChunks_eq (cs : List ChunkFindings) : ofChunks cs =
    { narratives := cs.map (·.narrative)
      rules := cs.flatMap (·.rules)
      risks := cs.flatMap (·.risks)
      degradedChunks := cs.countP (·.isDegraded) } := by
  induction cs using List.reverseRecOn with
  | nil => rfl
  | append_singleton cs c ih =>
    rw [ofChunks, List.foldl_append, ← ofChunks, ih]
    simp [push, List.countP_append, List.countP_cons]

end Findings

namespace Reasoning

open Findings (Narrative)

section Purposes

variable {ns : List Narrative} {file : String} {n m : Narrative}

/-- Whether a narrative counts, and none about the same file counts more. -/
def Leads (ns : List Narrative) (n : Narrative) : Prop :=
  n ∈ speaking ns ∧ ∀ m ∈ speaking ns, m.file = n.file → m.level = .high → n.level = .high

theorem level_of_speaking (h : n ∈ speaking ns) : n.level = .high ∨ n.level = .medium := by
  have hlow : n.level ≠ .low := (of_decide_eq_true (List.mem_filter.mp h).2).1
  cases hlevel : n.level with
  | high => exact .inl rfl
  | medium => exact .inr rfl
  | low => exact absurd hlevel hlow

theorem score_le_iff (hn : n ∈ speaking ns) (hm : m ∈ speaking ns) :
    n.level.score ≤ m.level.score ↔ (n.level = .high → m.level = .high) := by
  rcases level_of_speaking hn with hn | hn <;> rcases level_of_speaking hm with hm | hm <;> rw [hn, hm] <;> decide

/-- The narrative whose purpose is kept for a file. -/
def leader? (ns : List Narrative) (file : String) : Option Narrative :=
  (ns.find? fun n => n.file == file && n.level == .high).or (ns.find? (·.file == file))

theorem mem_of_leader? (h : leader? ns file = some n) : n ∈ ns ∧ n.file = file := by
  rcases Option.or_eq_some_iff.mp h with h | ⟨-, h⟩
  · have htest := List.find?_some h
    simp only [Bool.and_eq_true, beq_iff_eq] at htest
    exact ⟨List.mem_of_find?_eq_some h, htest.1⟩
  · exact ⟨List.mem_of_find?_eq_some h, by simpa using List.find?_some h⟩

theorem leader?_eq_none_iff : leader? ns file = none ↔ ∀ n ∈ ns, n.file ≠ file := by
  simp only [leader?, Option.or_eq_none_iff, List.find?_eq_none, Bool.and_eq_true, beq_iff_eq]
  exact ⟨And.right, fun h => ⟨fun n hn hboth => h n hn hboth.1, h⟩⟩

/-- A high narrative leads where there is one. -/
theorem high_of_leader? (h : leader? ns file = some n) (hm : m ∈ ns) (hfile : m.file = file) (hlevel : m.level = .high) :
    n.level = .high := by
  rcases Option.or_eq_some_iff.mp h with h | ⟨hnone, -⟩
  · have htest := List.find?_some h
    simp only [Bool.and_eq_true, beq_iff_eq] at htest
    exact htest.2
  · have hno := List.find?_eq_none.mp hnone m hm
    simp [hfile, hlevel] at hno

theorem leader?_append_singleton (ns : List Narrative) (n : Narrative) (file : String) :
    leader? (ns ++ [n]) file = if n.file = file then
        match leader? ns file with
        | some old => if n.level = .high → old.level = .high then some old else some n
        | none => some n
      else leader? ns file := by
  by_cases hfile : n.file = file
  · rw [if_pos hfile]
    unfold leader?
    rw [List.find?_append, List.find?_append]
    cases hhigh : ns.find? fun n => n.file == file && n.level == .high with
    | some x =>
      have hx := List.find?_some hhigh
      simp only [Bool.and_eq_true, beq_iff_eq] at hx
      simp [hx.2]
    | none =>
      cases hany : ns.find? (·.file == file) with
      | none => by_cases hn : n.level = .high <;> simp [hfile, hn]
      | some old =>
        have hold := List.find?_eq_none.mp hhigh old (List.mem_of_find?_eq_some hany)
        have holdfile := List.find?_some hany
        simp only [holdfile, Bool.true_and, beq_iff_eq] at hold
        by_cases hn : n.level = .high <;> simp [hfile, hn, hold]
  · rw [if_neg hfile]
    simp [leader?, List.find?_append, hfile]

theorem getElem?_keepPurpose (purposes : Std.TreeMap String Purpose) (p : Purpose) (k : String) :
    (keepPurpose purposes p)[k]? = if p.subject = k then
        match purposes[k]? with
        | some old => if p.confidence.value ≤ old.confidence.value then some old else some p
        | none => some p
      else purposes[k]? := by
  unfold keepPurpose
  by_cases hk : p.subject = k
  · subst hk
    rw [if_pos rfl]
    cases hold : purposes[p.subject]? with
    | none => simp
    | some old =>
      dsimp only
      split
      · exact hold
      · simp
  · rw [if_neg hk]
    cases purposes[p.subject]? with
    | none => simp [Std.TreeMap.getElem?_insert, hk]
    | some old =>
      dsimp only
      split
      · rfl
      · simp [Std.TreeMap.getElem?_insert, hk]

/-- What is kept for a file is the purpose of the narrative that leads there. -/
theorem getElem?_purposes (ns : List Narrative) (file : String) :
    (((speaking ns).map ofNarrative).foldl keepPurpose {})[file]? = (leader? (speaking ns) file).map ofNarrative := by
  suffices h : ∀ speakers, (∀ n ∈ speakers, n ∈ speaking ns) →
      ((speakers.map ofNarrative).foldl keepPurpose {})[file]? = (leader? speakers file).map ofNarrative from
    h _ fun _ => id
  intro speakers hspeakers
  induction speakers using List.reverseRecOn with
  | nil => rfl
  | append_singleton before n ih =>
    have hold := ih fun m hm => hspeakers m (List.mem_append_left _ hm)
    have hn := hspeakers n (by simp)
    rw [List.map_append, List.foldl_append, List.map_singleton, List.foldl_cons, List.foldl_nil, getElem?_keepPurpose,
      hold, leader?_append_singleton]
    by_cases hfile : n.file = file
    · rw [if_pos hfile, if_pos (show (ofNarrative n).subject = file from hfile)]
      cases hleader : leader? before file with
      | none => rfl
      | some old =>
        have hscore := score_le_iff hn (hspeakers old (List.mem_append_left _ (mem_of_leader? hleader).1))
        by_cases hhigh : n.level = .high → old.level = .high
        · simp only [Option.map_some, if_pos hhigh]
          exact if_pos (hscore.mpr hhigh)
        · simp only [Option.map_some, if_neg hhigh]
          exact if_neg fun h => hhigh (hscore.mp h)
    · rw [if_neg hfile, if_neg (show (ofNarrative n).subject ≠ file from hfile)]

theorem leads_of_leader? (h : leader? (speaking ns) file = some n) : Leads ns n ∧ n.file = file := by
  obtain ⟨hn, hfile⟩ := mem_of_leader? h
  exact ⟨⟨hn, fun m hm hsame hlevel => high_of_leader? h hm (hsame.trans hfile) hlevel⟩, hfile⟩

theorem Leads.perm {ns' : List Narrative} (h : Leads ns n) (hperm : ns'.Perm ns) : Leads ns' n :=
  have hspeaking : (speaking ns').Perm (speaking ns) := hperm.filter _
  ⟨hspeaking.symm.subset h.1, fun m hm => h.2 m (hspeaking.subset hm)⟩

/-- Two that lead in one file and state the same purpose have the same one kept. -/
theorem ofNarrative_eq_iff (hn : Leads ns n) (hm : Leads ns m) (hfile : n.file = m.file) :
    ofNarrative n = ofNarrative m ↔ n.purpose = m.purpose := by
  refine ⟨congrArg Purpose.statement, fun hpurpose => ?_⟩
  have hlevel : n.level = m.level := by
    have hhigh : n.level = .high ↔ m.level = .high := ⟨hm.2 n hn.1 hfile, hn.2 m hm.1 hfile.symm⟩
    rcases level_of_speaking hn.1 with hn | hn <;> rcases level_of_speaking hm.1 with hm | hm <;> simp_all
  simp only [ofNarrative, hfile, hpurpose, hlevel]

/-- One that leads is the leader when it comes first. -/
theorem leader?_of_leads_cons {rest : List Narrative} (h : Leads (n :: rest) n) :
    leader? (speaking (n :: rest)) n.file = some n := by
  have hfirst : speaking (n :: rest) = n :: speaking rest :=
    List.filter_cons_of_pos (List.mem_filter.mp h.1).2
  unfold leader?
  cases hhigh : (speaking (n :: rest)).find? fun m => m.file == n.file && m.level == .high with
  | none => simp [hfirst]
  | some m =>
    have hm := List.find?_some hhigh
    simp only [Bool.and_eq_true, beq_iff_eq] at hm
    have hlevel := h.2 m (List.mem_of_find?_eq_some hhigh) hm.1 hm.2
    rw [hfirst, List.find?_cons_of_pos (by simp [hlevel])] at hhigh
    simpa using hhigh.symm

end Purposes

/-- The rules of a chunk that are taken over. -/
def rulesOf (c : ChunkFindings) : List Rule := (c.rules.filter (·.level ≠ .low)).map ofRule

/-- The risks of a chunk that are taken over. -/
def risksOf (c : ChunkFindings) : List Risk := (c.risks.filter (·.level ≠ .low)).map ofRisk

/-- Whether no two chunks state different purposes of one file, or different rules or risks under one identifier, so
that only one of both is kept. -/
structure Uncontested (cs : List ChunkFindings) : Prop where
  purposes : ∀ n m, Leads (cs.map (·.narrative)) n → Leads (cs.map (·.narrative)) m → n.file = m.file →
    n.purpose = m.purpose
  rules : ∀ id, Unopposed (lastUnder Rule.id id) rulesOf cs
  risks : ∀ id, Unopposed (lastUnder Risk.id id) risksOf cs

section Chunks

variable {cs cs' : List ChunkFindings}

/-- What is known of intent when chunks were done in some order. -/
def ofChunks (cs : List ChunkFindings) (g : Graph) : Reasoning :=
  (empty.addFindings (.ofChunks cs)).addWorkflows g

theorem getElem?_ofChunks (cs : List ChunkFindings) (g : Graph) (k : String) :
    (ofChunks cs g).purposeMap[k]? = (leader? (speaking (cs.map (·.narrative))) k).map ofNarrative ∧
      (ofChunks cs g).ruleMap[k]? = lastUnder Rule.id k (cs.flatMap rulesOf) ∧
      (ofChunks cs g).riskMap[k]? = lastUnder Risk.id k (cs.flatMap risksOf) := by
  have hrules : ((cs.flatMap (·.rules)).filter (·.level ≠ .low)).map ofRule = cs.flatMap rulesOf := by
    rw [List.filter_flatMap, List.map_flatMap]
    rfl
  have hrisks : ((cs.flatMap (·.risks)).filter (·.level ≠ .low)).map ofRisk = cs.flatMap risksOf := by
    rw [List.filter_flatMap, List.map_flatMap]
    rfl
  rw [ofChunks, build_eq, Findings.ofChunks_eq]
  refine ⟨getElem?_purposes _ k, ?_, ?_⟩
  · rw [← hrules]
    exact getElem?_foldl_insert Rule.id _ k
  · rw [← hrisks]
    exact getElem?_foldl_insert Risk.id _ k

/-- Whether chunks done in two orders leave the same purposes, rules and risks under each key. -/
def SameIntent (cs' cs : List ChunkFindings) : Prop := ∀ k,
  (leader? (speaking (cs'.map (·.narrative))) k).map ofNarrative =
      (leader? (speaking (cs.map (·.narrative))) k).map ofNarrative ∧
    lastUnder Rule.id k (cs'.flatMap rulesOf) = lastUnder Rule.id k (cs.flatMap rulesOf) ∧
    lastUnder Risk.id k (cs'.flatMap risksOf) = lastUnder Risk.id k (cs.flatMap risksOf)

theorem sameIntent_iff (g g' : Graph) :
    ((ofChunks cs' g').purposes = (ofChunks cs g).purposes ∧ (ofChunks cs' g').rules = (ofChunks cs g).rules ∧
        (ofChunks cs' g').risks = (ofChunks cs g).risks) ↔ SameIntent cs' cs := by
  have hpurpose (cs : List ChunkFindings) (g : Graph) (k : String) (p : Purpose)
      (h : (ofChunks cs g).purposeMap[k]? = some p) : p.subject = k := by
    rw [(getElem?_ofChunks cs g k).1] at h
    obtain ⟨n, hn, rfl⟩ := Option.map_eq_some_iff.mp h
    exact (mem_of_leader? hn).2
  have hrule (cs : List ChunkFindings) (g : Graph) (k : String) (x : Rule) (h : (ofChunks cs g).ruleMap[k]? = some x) :
      x.id = k := key_of_lastUnder ((getElem?_ofChunks cs g k).2.1 ▸ h)
  have hrisk (cs : List ChunkFindings) (g : Graph) (k : String) (x : Risk) (h : (ofChunks cs g).riskMap[k]? = some x) :
      x.id = k := key_of_lastUnder ((getElem?_ofChunks cs g k).2.2 ▸ h)
  unfold purposes rules risks
  rw [values_eq_iff (hpurpose cs' g') (hpurpose cs g), values_eq_iff (hrule cs' g') (hrule cs g),
    values_eq_iff (hrisk cs' g') (hrisk cs g)]
  simp only [SameIntent, forall_and, getElem?_ofChunks]

/-- Purposes, rules and risks are the same in every order exactly when none is contested. -/
theorem uncontested_iff :
    Uncontested cs ↔ ∀ cs' : List ChunkFindings, cs'.Perm cs → SameIntent cs' cs := by
  constructor
  · intro h cs' hperm k
    refine ⟨?_, (picks_lastUnder _ k).flatMap_eq_of_perm (h.rules k) hperm,
      (picks_lastUnder _ k).flatMap_eq_of_perm (h.risks k) hperm⟩
    have hnarratives : (cs'.map (·.narrative)).Perm (cs.map (·.narrative)) := hperm.map _
    cases hleader : leader? (speaking (cs.map (·.narrative))) k with
    | none =>
      have hnone : leader? (speaking (cs'.map (·.narrative))) k = none :=
        leader?_eq_none_iff.mpr fun n hn => leader?_eq_none_iff.mp hleader n ((hnarratives.filter _).subset hn)
      rw [hnone]
    | some n =>
      obtain ⟨hn, hfile⟩ := leads_of_leader? hleader
      cases hleader' : leader? (speaking (cs'.map (·.narrative))) k with
      | none => exact absurd hfile (leader?_eq_none_iff.mp hleader' n ((hnarratives.filter _).symm.subset hn.1))
      | some m =>
        obtain ⟨hm, hfile'⟩ := leads_of_leader? hleader'
        have hm := hm.perm hnarratives.symm
        have hsame := hfile'.trans hfile.symm
        exact congrArg some ((ofNarrative_eq_iff hm hn hsame).mpr (h.purposes m n hm hn hsame))
  · intro h
    refine ⟨fun n m hn hm hfile => ?_, fun id => (picks_lastUnder Rule.id id).unopposed_iff.mpr fun cs' hperm =>
      (h cs' hperm id).2.1, fun id => (picks_lastUnder Risk.id id).unopposed_iff.mpr fun cs' hperm =>
      (h cs' hperm id).2.2⟩
    -- each of the two leads when its chunk is done first
    have hkept : ∀ x, Leads (cs.map (·.narrative)) x →
        (leader? (speaking (cs.map (·.narrative))) x.file).map ofNarrative = some (ofNarrative x) := by
      intro x hx
      obtain ⟨c, hc, rfl⟩ := List.mem_map.mp (List.mem_filter.mp hx.1).1
      obtain ⟨before, after, rfl⟩ := List.append_of_mem hc
      have hperm : (c :: (before ++ after)).Perm (before ++ c :: after) := List.perm_middle.symm
      have hfirst : Leads (c.narrative :: (before ++ after).map (·.narrative)) c.narrative := hx.perm (hperm.map _)
      rw [← (h _ hperm c.narrative.file).1]
      exact congrArg (Option.map ofNarrative) (leader?_of_leads_cons hfirst)
    have hkeptm := hkept m hm
    rw [← hfile, hkept n hn] at hkeptm
    exact (ofNarrative_eq_iff hn hm hfile).mp (Option.some.inj hkeptm)

end Chunks

end Reasoning
end CodeAtlas
