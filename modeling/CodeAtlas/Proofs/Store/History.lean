import CodeAtlas.Proofs.Store.About
import Mathlib.Data.Finset.Card
import Mathlib.Data.List.Induction

/-! What a keeper in memory knows after any requests, read off the requests alone: what was put for a project since
it was last dropped decides every answer about the project, and nothing else does. -/
namespace CodeAtlas
namespace Store

open Checkpoints (Record)

namespace Keeper

/-- What a keeper can be asked for. -/
inductive Request where
  | put (r : Record)
  | get (project fingerprint : String)
  | count (project : String)
  | invalidate (project : String)

/-- The project that a request is about. -/
def Request.project : Request → String
  | put r => r.project
  | get project _ => project
  | count project => project
  | invalidate project => project

/-- What a keeper says to a request that it can meet. -/
inductive Answer where
  | kept
  | found (result : Option Json)
  | number (n : Nat)

/-- What a keeper says to a request, and the keeper that this leaves behind: one that fails stays as it was. -/
def perform (k : Keeper) : Request → Except Failure Answer × Keeper
  | .put r =>
    match k.put r with
    | .ok k' => (.ok .kept, k')
    | .error e => (.error e, k)
  | .get project fingerprint => ((k.get? project fingerprint).map .found, k)
  | .count project => ((k.count project).map .number, k)
  | .invalidate project =>
    match k.invalidate project with
    | .ok (n, k') => (.ok (.number n), k')
    | .error e => (.error e, k)

/-- The keeper that some requests leave behind. -/
def after (k : Keeper) (requests : List Request) : Keeper := requests.foldl (fun k q => (k.perform q).2) k

/-- What a keeper says to some requests, one after the other. -/
def answers (k : Keeper) : List Request → List (Except Failure Answer)
  | [] => []
  | q :: rest => (k.perform q).1 :: (k.perform q).2.answers rest

/-- What was put for a project, without what was put before the project was dropped. -/
def since (project : String) (requests : List Request) : List Record :=
  requests.foldl (fun puts q => match q with
    | .put r => if r.project = project then puts ++ [r] else puts
    | .invalidate dropped => if dropped = project then [] else puts
    | _ => puts) []

end Keeper

namespace Checkpoints

/-- Whether a record is the first one of its commit, and no commit came up for the first time behind it. -/
def IsNewest (puts : List Record) (r : Record) : Prop :=
  ∃ before later, puts = before ++ r :: later ∧ (∀ b ∈ before, b.commit ≠ r.commit) ∧
    ∀ b ∈ later, ∃ a ∈ before ++ [r], a.commit = b.commit

/-- The checkpoints that some records leave, put one after the other. -/
def ofPuts (puts : List Record) : Checkpoints := puts.foldl put []

variable {c : Checkpoints} {r : Record} {puts : List Record}

theorem sameKey_iff {a b : Record} :
    a.sameKey b = true ↔ b.project = a.project ∧ b.fingerprint = a.fingerprint ∧ b.commit = a.commit := by
  simp [Record.sameKey, Record.isAbout, and_assoc]

theorem put_of_any (h : c.any r.sameKey = true) : c.put r = c := if_pos h

theorem put_of_not_any (h : ¬ c.any r.sameKey = true) : c.put r = c ++ [r] := if_neg h

theorem ofPuts_append_singleton (puts : List Record) (r : Record) : ofPuts (puts ++ [r]) = (ofPuts puts).put r :=
  List.foldl_append

/-- A part of the checkpoints that has all records of a key or none sees a record put or does not. -/
theorem filter_put {p : Record → Bool} (hp : ∀ a b : Record, a.sameKey b = true → p b = p a) :
    (c.put r).filter p = if p r = true then put (c.filter p) r else c.filter p := by
  have hany (hr : p r = true) : (c.filter p).any r.sameKey = c.any r.sameKey := by
    rw [List.any_filter]
    refine congrArg (List.any c) (funext fun b => ?_)
    cases hb : r.sameKey b with
    | true => rw [hp r b hb, hr, Bool.true_and]
    | false => rw [Bool.and_false]
  unfold put
  by_cases hr : p r = true
  · rw [if_pos hr, hany hr]
    split
    · rfl
    · simp [hr]
  · rw [if_neg hr]
    split
    · rfl
    · simp [hr]

theorem filter_ofPuts {p : Record → Bool} (hp : ∀ a b : Record, a.sameKey b = true → p b = p a)
    (puts : List Record) : (ofPuts puts).filter p = ofPuts (puts.filter p) := by
  induction puts using List.reverseRecOn with
  | nil => rfl
  | append_singleton puts r ih =>
    rw [ofPuts_append_singleton, filter_put hp, ih, List.filter_append]
    by_cases hr : p r = true
    · simp [hr, ofPuts_append_singleton]
    · simp [hr]

/-- Records are kept for exactly the keys that were put. -/
theorem any_sameKey_ofPuts (puts : List Record) (r : Record) :
    (ofPuts puts).any r.sameKey = true ↔ ∃ b ∈ puts, r.sameKey b = true := by
  induction puts using List.reverseRecOn with
  | nil => simp [ofPuts]
  | append_singleton puts x ih =>
    rw [ofPuts_append_singleton]
    simp only [List.mem_append, List.mem_singleton, or_and_right, exists_or, exists_eq_left, ← ih]
    by_cases hx : (ofPuts puts).any x.sameKey = true
    · rw [put_of_any hx]
      refine ⟨.inl, fun h => h.elim id fun hsame => ?_⟩
      obtain ⟨b, hb, hbx⟩ := List.any_eq_true.mp hx
      rw [sameKey_iff] at hsame hbx
      exact List.any_eq_true.mpr ⟨b, hb, sameKey_iff.mpr (by simp [hbx, hsame])⟩
    · rw [put_of_not_any hx, List.any_append]
      simp

theorem ofPuts_eq_nil_iff : ofPuts puts = [] ↔ puts = [] := by
  refine ⟨fun h => List.eq_nil_iff_forall_not_mem.mpr fun r hr => ?_, fun h => by rw [h]; rfl⟩
  have hany := (any_sameKey_ofPuts puts r).mpr ⟨r, hr, sameKey_iff.mpr ⟨rfl, rfl, rfl⟩⟩
  rw [h] at hany
  cases hany

theorem isNewest_append_singleton {x : Record} : IsNewest (puts ++ [x]) r ↔
    ((∃ b ∈ puts, b.commit = x.commit) ∧ IsNewest puts r) ∨ ((¬ ∃ b ∈ puts, b.commit = x.commit) ∧ r = x) := by
  constructor
  · rintro ⟨before, later, heq, hfirst, hlater⟩
    rcases List.eq_nil_or_concat later with rfl | ⟨later, last, rfl⟩
    · obtain ⟨rfl, hrx⟩ := List.append_inj' heq rfl
      obtain rfl : x = r := List.head_eq_of_cons_eq hrx
      exact .inr ⟨fun ⟨b, hb, hbx⟩ => hfirst b hb hbx, rfl⟩
    · rw [List.concat_eq_append, ← List.cons_append, ← List.append_assoc] at heq
      obtain ⟨rfl, hlast⟩ := List.append_inj' heq rfl
      obtain rfl : x = last := List.head_eq_of_cons_eq hlast
      obtain ⟨a, ha, hax⟩ := hlater x (by simp)
      refine .inl ⟨⟨a, ?_, hax⟩, before, later, rfl, hfirst, fun b hb => hlater b (by simp [hb])⟩
      rcases List.mem_append.mp ha with ha | ha
      · exact List.mem_append_left _ ha
      · simp [List.mem_singleton.mp ha]
  · rintro (⟨⟨b, hb, hbx⟩, before, later, rfl, hfirst, hlater⟩ | ⟨hnew, rfl⟩)
    · refine ⟨before, later ++ [x], by simp, hfirst, fun d hd => ?_⟩
      rcases List.mem_append.mp hd with hd | hd
      · exact hlater d hd
      · obtain rfl := List.mem_singleton.mp hd
        rcases List.mem_append.mp hb with hb | hb
        · exact ⟨b, List.mem_append_left _ hb, hbx⟩
        · rcases List.mem_cons.mp hb with rfl | hb
          · exact ⟨b, by simp, hbx⟩
          · obtain ⟨a, ha, hab⟩ := hlater b hb
            exact ⟨a, ha, hab.trans hbx⟩
    · exact ⟨puts, [], rfl, fun b hb hbr => hnew ⟨b, hb, hbr⟩, fun b hb => absurd hb List.not_mem_nil⟩

section Chunk

variable {project fingerprint : String} (h : ∀ b ∈ puts, b.project = project ∧ b.fingerprint = fingerprint)

include h

/-- Of the records about one chunk the one that is found is the newest. -/
theorem getLast?_ofPuts_iff : (ofPuts puts).getLast? = some r ↔ IsNewest puts r := by
  induction puts using List.reverseRecOn generalizing r with
  | nil =>
    refine ⟨fun hnone => by simp [ofPuts] at hnone, ?_⟩
    rintro ⟨before, later, heq, -⟩
    simp at heq
  | append_singleton puts x ih =>
    have hputs : ∀ b ∈ puts, b.project = project ∧ b.fingerprint = fingerprint := fun b hb => h b (by simp [hb])
    have hkey : (ofPuts puts).any x.sameKey = true ↔ ∃ b ∈ puts, b.commit = x.commit := by
      rw [any_sameKey_ofPuts]
      refine exists_congr fun b => and_congr_right fun hb => ?_
      simp [sameKey_iff, hputs b hb, h x (by simp)]
    rw [ofPuts_append_singleton, isNewest_append_singleton, ← hkey]
    by_cases hx : (ofPuts puts).any x.sameKey = true
    · simp only [put_of_any hx, hx, ih hputs, true_and, not_true_eq_false, false_and, or_false]
    · rw [put_of_not_any hx, List.getLast?_concat, Option.some.injEq, eq_comm]
      simp [hx]

end Chunk

/-- Of the records of one project there are as many as there are commits and fingerprints put together. -/
theorem length_ofPuts {project : String} (h : ∀ b ∈ puts, b.project = project) :
    (ofPuts puts).length = (puts.map fun r => (r.commit, r.fingerprint)).toFinset.card := by
  induction puts using List.reverseRecOn with
  | nil => rfl
  | append_singleton puts x ih =>
    have hputs : ∀ b ∈ puts, b.project = project := fun b hb => h b (by simp [hb])
    have hkey : (ofPuts puts).any x.sameKey = true ↔
        (x.commit, x.fingerprint) ∈ (puts.map fun r => (r.commit, r.fingerprint)).toFinset := by
      simp only [any_sameKey_ofPuts, List.mem_toFinset, List.mem_map, Prod.mk.injEq]
      refine exists_congr fun b => and_congr_right fun hb => ?_
      rw [sameKey_iff, hputs b hb, h x (by simp)]
      tauto
    have hset : ((puts ++ [x]).map fun r => (r.commit, r.fingerprint)).toFinset =
        insert (x.commit, x.fingerprint) (puts.map fun r => (r.commit, r.fingerprint)).toFinset := by
      ext pair
      simp
    rw [ofPuts_append_singleton, hset]
    by_cases hx : (ofPuts puts).any x.sameKey = true
    · rw [put_of_any hx, Finset.insert_eq_of_mem (hkey.mp hx), ih hputs]
    · rw [put_of_not_any hx, Finset.card_insert_of_notMem (mt hkey.mpr hx), List.length_append, ih hputs,
        List.length_singleton]

/-- What is said about a project does not hang on the checkpoints of another one. -/
theorem invalidate_put {project : String} (h : r.project ≠ project) :
    (c.put r).invalidate project = (c.invalidate project).put r := by
  have hkey : ∀ a b : Record, a.sameKey b = true → (b.project != project) = (a.project != project) :=
    fun a b hab => by rw [(sameKey_iff.mp hab).1]
  exact (filter_put hkey).trans (if_pos (by simpa using h))

theorem invalidate_get? {project other : String} (h : other ≠ project) (fingerprint : String) :
    (c.invalidate project).get? other fingerprint = c.get? other fingerprint := by
  unfold invalidate get?
  rw [List.filter_filter]
  congr 2
  refine List.filter_congr fun b _ => ?_
  by_cases hb : b.isAbout other fingerprint = true
  · have hproject : b.project = other := by
      simp only [Record.isAbout, Bool.and_eq_true, beq_iff_eq] at hb
      exact hb.1
    simp [hb, hproject, h]
  · simp [hb]

theorem invalidate_count {project other : String} (h : other ≠ project) :
    (c.invalidate project).count other = c.count other := by
  unfold invalidate count
  rw [List.countP_filter]
  refine List.countP_congr fun b _ => ?_
  by_cases hb : b.project = other
  · simp [hb, h]
  · simp [hb]

end Checkpoints

namespace Keeper

open Checkpoints (ofPuts IsNewest)

theorem after_append_singleton (k : Keeper) (requests : List Request) (q : Request) :
    k.after (requests ++ [q]) = ((k.after requests).perform q).2 :=
  List.foldl_append

theorem since_append_singleton (project : String) (requests : List Request) (q : Request) :
    since project (requests ++ [q]) = match q with
      | .put r => if r.project = project then since project requests ++ [r] else since project requests
      | .invalidate dropped => if dropped = project then [] else since project requests
      | _ => since project requests := by
  unfold since
  rw [List.foldl_append]
  cases q <;> rfl

theorem project_of_mem_since {project : String} {requests : List Request} :
    ∀ r ∈ since project requests, r.project = project := by
  induction requests using List.reverseRecOn with
  | nil => simp [since]
  | append_singleton requests q ih =>
    rw [since_append_singleton]
    cases q with
    | put r =>
      by_cases hr : r.project = project
      · simp only [hr, if_true, List.mem_append, List.mem_singleton]
        rintro b (hb | rfl)
        · exact ih b hb
        · exact hr
      · simpa [hr] using ih
    | get | count => exact ih
    | invalidate dropped =>
      by_cases hd : dropped = project
      · simp [hd]
      · simpa [hd] using ih

/-- The checkpoints of each project are those that its records leave which were put since it was last dropped. -/
theorem exists_after_memory (requests : List Request) :
    ∃ c, (memory []).after requests = memory c ∧
      ∀ project, c.filter (·.project == project) = ofPuts (since project requests) := by
  induction requests using List.reverseRecOn with
  | nil => exact ⟨[], rfl, fun project => rfl⟩
  | append_singleton requests q ih =>
    obtain ⟨c, hc, hprojects⟩ := ih
    rw [after_append_singleton, hc]
    cases q with
    | put r =>
      refine ⟨c.put r, rfl, fun project => ?_⟩
      have hkey : ∀ a b : Record, a.sameKey b = true → (b.project == project) = (a.project == project) :=
        fun a b hab => by rw [(Checkpoints.sameKey_iff.mp hab).1]
      rw [Checkpoints.filter_put hkey, hprojects, since_append_singleton]
      by_cases hr : r.project = project
      · simp [hr, Checkpoints.ofPuts_append_singleton]
      · simp [hr]
    | get | count => exact ⟨c, rfl, fun project => by rw [hprojects, since_append_singleton]⟩
    | invalidate dropped =>
      refine ⟨c.invalidate dropped, rfl, fun project => ?_⟩
      rw [since_append_singleton, Checkpoints.invalidate, List.filter_filter]
      by_cases hd : dropped = project
      · simp [hd, ofPuts]
      · simp only [hd, if_false, ← hprojects]
        refine List.filter_congr fun b _ => ?_
        by_cases hb : b.project = project
        · simp [hb, Ne.symm hd]
        · simp [hb]

section Since

variable {c : Checkpoints} {requests : List Request}
  (h : ∀ project, c.filter (·.project == project) = ofPuts (since project requests))

include h

/-- What is known about a chunk is what the records about it leave. -/
theorem about_eq_ofPuts (project fingerprint : String) :
    c.about project fingerprint = ofPuts ((since project requests).filter (·.fingerprint == fingerprint)) := by
  have hkey : ∀ a b : Record, a.sameKey b = true → (b.fingerprint == fingerprint) = (a.fingerprint == fingerprint) :=
    fun a b hab => by rw [(Checkpoints.sameKey_iff.mp hab).2.1]
  rw [← Checkpoints.filter_ofPuts hkey, ← h, List.filter_filter]
  exact List.filter_congr fun b _ => Bool.and_comm _ _

/-- The result of the newest record about a chunk is found, and none when there is no record. -/
theorem get?_of_since (project fingerprint : String) :
    let puts := (since project requests).filter (·.fingerprint == fingerprint)
    (c.get? project fingerprint = none ↔ puts = []) ∧
      ∀ value, c.get? project fingerprint = some value ↔ ∃ r, IsNewest puts r ∧ r.result = value := by
  intro puts
  have hget : c.get? project fingerprint = (ofPuts puts).getLast?.map (·.result) := by
    rw [← about_eq_ofPuts h]
    rfl
  have hchunk : ∀ b ∈ puts, b.project = project ∧ b.fingerprint = fingerprint := by
    intro b hb
    rw [List.mem_filter, beq_iff_eq] at hb
    exact ⟨project_of_mem_since b hb.1, hb.2⟩
  rw [hget]
  constructor
  · rw [Option.map_eq_none_iff, List.getLast?_eq_none_iff, Checkpoints.ofPuts_eq_nil_iff]
  · intro value
    simp only [Option.map_eq_some_iff, Checkpoints.getLast?_ofPuts_iff hchunk]

/-- A record whose commit and fingerprint were put already is not put again. -/
theorem put_of_since {r : Record}
    (hr : ∃ b ∈ since r.project requests, b.commit = r.commit ∧ b.fingerprint = r.fingerprint) : c.put r = c := by
  obtain ⟨b, hb, hcommit, hfingerprint⟩ := hr
  have hany : (c.filter (·.project == r.project)).any r.sameKey = true := by
    rw [h, Checkpoints.any_sameKey_ofPuts]
    exact ⟨b, hb, Checkpoints.sameKey_iff.mpr ⟨project_of_mem_since b hb, hfingerprint, hcommit⟩⟩
  obtain ⟨d, hd, hkey⟩ := List.any_eq_true.mp hany
  exact Checkpoints.put_of_any (List.any_eq_true.mpr ⟨d, (List.mem_filter.mp hd).1, hkey⟩)

theorem count_of_since (project : String) : c.count project =
    ((since project requests).map fun r => (r.commit, r.fingerprint)).toFinset.card := by
  rw [← Checkpoints.length_ofPuts project_of_mem_since, ← h, Checkpoints.count, List.countP_eq_length_filter]

end Since

/-- What is said to requests about other projects is the same without a project. -/
theorem answers_memory_invalidate {project : String} {later : List Request} (c : Checkpoints)
    (h : ∀ q ∈ later, q.project ≠ project) :
    (memory (c.invalidate project)).answers later = (memory c).answers later := by
  induction later generalizing c with
  | nil => rfl
  | cons q later ih =>
    obtain ⟨hq, hrest⟩ := List.forall_mem_cons.mp h
    cases q with
    | put r =>
      have hput := ih (c.put r) hrest
      rw [Checkpoints.invalidate_put hq] at hput
      exact congrArg (Except.ok Answer.kept :: ·) hput
    | get other fingerprint =>
      have hget := Checkpoints.invalidate_get? (c := c) hq fingerprint
      exact congrArg₂ (fun value rest => Except.ok (Answer.found value) :: rest) hget (ih c hrest)
    | count other =>
      have hcount := Checkpoints.invalidate_count (c := c) hq
      exact congrArg₂ (fun n rest => Except.ok (Answer.number n) :: rest) hcount (ih c hrest)
    | invalidate other =>
      have hcount := Checkpoints.invalidate_count (c := c) hq
      have hswap : (c.invalidate project).invalidate other = (c.invalidate other).invalidate project := by
        simp only [Checkpoints.invalidate, List.filter_filter, Bool.and_comm]
      have hdropped := ih (c.invalidate other) hrest
      rw [← hswap] at hdropped
      exact congrArg₂ (fun n rest => Except.ok (Answer.number n) :: rest) hcount hdropped

/-- After any requests a keeper in memory knows of a project what was put for it since it was last dropped. Of a
chunk it gives the first result of the commit that came up last, and it counts each commit and fingerprint once. A
record whose key was put already leaves everything as it is, and dropping a project changes nothing of what is said
about other projects from then on. -/
theorem memory_follows_puts (requests : List Request) :
    let k := (memory []).after requests
    (∀ project fingerprint : String,
      let puts := (since project requests).filter (·.fingerprint == fingerprint)
      (k.get? project fingerprint = .ok none ↔ puts = []) ∧
      ∀ value, k.get? project fingerprint = .ok (some value) ↔ ∃ r, IsNewest puts r ∧ r.result = value) ∧
    (∀ r : Record, (∃ b ∈ since r.project requests, b.commit = r.commit ∧ b.fingerprint = r.fingerprint) →
      k.put r = .ok k) ∧
    ∀ project : String,
      let pairs := ((since project requests).map fun r => (r.commit, r.fingerprint)).toFinset
      k.count project = .ok pairs.card ∧
      ∃ k', k.invalidate project = .ok (pairs.card, k') ∧
        ∀ later : List Request, (∀ q ∈ later, q.project ≠ project) → k'.answers later = k.answers later := by
  obtain ⟨c, hc, hprojects⟩ := exists_after_memory requests
  simp only [hc]
  refine ⟨fun project fingerprint => ?_, fun r hr => ?_,
    fun project => ⟨?_, memory (c.invalidate project), ?_, fun later hlater => ?_⟩⟩
  · simpa only [get?, Except.ok.injEq] using get?_of_since hprojects project fingerprint
  · exact congrArg (fun c => Except.ok (memory c)) (put_of_since hprojects hr)
  · exact congrArg Except.ok (count_of_since hprojects project)
  · exact congrArg (fun n => Except.ok (n, memory (c.invalidate project))) (count_of_since hprojects project)
  · exact answers_memory_invalidate c hlater

end Keeper
end Store
end CodeAtlas
