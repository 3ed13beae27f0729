import CodeAtlas.Proofs.Activity.Pool
import CodeAtlas.Proofs.Activity.TurnsOut

/-! How a pool turns out, in terms of what lasts of its members. The clock of a pool never passes the moment that a
member waits for, so every member goes on as if it were alone. Who has not ended when the pool is over waits for a
moment after the limit, or could not start because others did. -/
namespace CodeAtlas
namespace Activity

variable {σ α β : Type}

/-- An activity that waits stalls when it waits for ever, or turns out as it does after the wait. -/
theorem Leads.late [Nonempty σ] {stalls : Prop} {post : Except String α → Moment → Prop} {begins : Moment → Prop}
    {a n : Activity σ α} {u : Option Moment} {t : Moment} (h : Leads begins a (.wait u n) t)
    (hturns : ∀ t', begins t' → a.TurnsOut stalls post t') :
    stalls ∨ ∃ v result stop, u = some v ∧ v ≤ stop ∧ post result stop := by
  have hwait : (Activity.wait u n).TurnsOut stalls post t := (Lasting.turnsOut stalls post).of_leads h hturns
  cases u with
  | none => exact .inl hwait
  | some v =>
    have hrest : n.TurnsOut stalls post (max t v) := hwait
    refine hrest.exists_outcome.imp_right ?_
    rintro ⟨result, stop, hle, hpost⟩
    exact ⟨v, result, stop, rfl, Nat.le_trans (Nat.le_max_right t v) hle, hpost⟩

/-- What is known of a member at a moment. One that has not started starts now or at one of the moments `late`, and the
moment that a member waits for has not passed, unless it had passed already when the wait began. -/
def Slot.Stands (R : Activity σ α → Moment → Prop) (late : Moment → Prop) (t : Moment) : Slot σ α → Prop
  | .queued a => ∀ t', t ≤ t' → (t' = t ∨ late t') → R a t'
  | .running a => R a t
  | .waiting _ u a => ∃ t₀, t₀ ≤ t ∧ R (.wait u a) t₀ ∧ ∀ v, u = some v → t ≤ max t₀ v
  | .finished => True

/-- Time passes for a member that does not run, up to the moment that it waits for. -/
theorem Slot.Stands.pass {R : Activity σ α → Moment → Prop} {late : Moment → Prop} {t t' : Moment} {slot : Slot σ α}
    (h : slot.Stands R late t) (hle : t ≤ t') (hrunning : slot.isRunning = false)
    (hqueued : slot.isQueued = true → late t') (halarm : ∀ v, slot.alarm? = some v → t' ≤ max t v) :
    slot.Stands R late t' := by
  cases slot with
  | queued a =>
    intro t'' ht'' hstart
    refine h t'' (Nat.le_trans hle ht'') (.inr ?_)
    rcases hstart with rfl | hlate
    · exact hqueued rfl
    · exact hlate
  | running a => cases hrunning
  | waiting k u a =>
    obtain ⟨t₀, ht₀, hR, hv⟩ := h
    refine ⟨t₀, Nat.le_trans ht₀ hle, hR, fun v hu => ?_⟩
    exact Nat.le_trans (halarm v hu) (Nat.max_le.mpr ⟨hv v hu, Nat.le_max_right t₀ v⟩)
  | finished => trivial

/-- In an idle pool a member that has not started is kept from it by others; any other one waits or has ended. -/
theorem Idle.slot_cases {capacity : Nat} {slots : Slots σ α} (h : Idle capacity slots) {slot : Slot σ α}
    (hslot : slot ∈ slots) :
    (∃ a, slot = .queued a ∧ capacity ≤ slots.countP Slot.isActive) ∨ (∃ k u a, slot = .waiting k u a) ∨
      slot = .finished := by
  cases slot with
  | queued a =>
    refine .inl ⟨a, rfl, h.full.resolve_right fun hnone => ?_⟩
    cases hnone _ hslot
  | running a => cases h.running _ hslot
  | waiting k u a => exact .inr (.inl ⟨k, u, a, rfl⟩)
  | finished => exact .inr (.inr rfl)

/-- When a pool is idle and a member has not started, there is not room for all. -/
theorem Idle.crowded {capacity : Nat} {slots : Slots σ α} (h : Idle capacity slots) {slot : Slot σ α}
    (hslot : slot ∈ slots) (hqueued : slot.isQueued = true) : capacity < slots.length := by
  rcases h.slot_cases hslot with ⟨a, rfl, hfull⟩ | ⟨k, u, a, rfl⟩ | rfl
  · refine Nat.lt_of_le_of_lt hfull (Nat.lt_of_le_of_ne List.countP_le_length fun hall => ?_)
    cases List.countP_eq_length.mp hall _ hslot
  · cases hqueued
  · cases hqueued

/-- A member goes on as if it had begun to wait just now. -/
theorem Slot.Stands.exists_wait {R : Activity σ α → Moment → Prop} {k : Nat} {t u : Moment} {late : Moment → Prop}
    {a : Activity σ α} (h : (Slot.waiting k (some u) a).Stands R late t) :
    ∃ t₀, R (.wait (some u) a) t₀ ∧ max t₀ u = max t u := by
  obtain ⟨t₀, ht₀, hwait, hv⟩ := h
  have hle : max t u ≤ max t₀ u := Nat.max_le.mpr ⟨hv u rfl, Nat.le_max_right t₀ u⟩
  have hge : max t₀ u ≤ max t u := max_le_max_right u ht₀
  exact ⟨t₀, hwait, Nat.le_antisymm hge hle⟩

/-- A member goes on at the moment that it waits for, or at once when that has passed. -/
theorem Slot.Stands.wake {R : Activity σ α → Moment → Prop} (hR : Lasting R) {k : Nat} {t u : Moment}
    {late : Moment → Prop} {a : Activity σ α} (h : (Slot.waiting k (some u) a).Stands R late t) : R a (max t u) := by
  obtain ⟨t₀, hwait, hmax⟩ := h.exists_wait
  rw [← hmax]
  exact hR.wait hwait

/-- A pool on its way at a moment, with what lasts of the members that have not ended. -/
structure Standing (R : Nat → Activity σ α → Moment → Prop) (late : Moment → Prop) (slots : Slots σ α)
    (ended : List (Nat × α)) (ticket : Nat) (t : Moment) : Prop extends Booked slots ended ticket where
  stands : ∀ (i : Nat) (slot : Slot σ α), slots[i]? = some slot → slot.Stands (R i) late t

namespace Standing

variable {R : Nat → Activity σ α → Moment → Prop} {late : Moment → Prop} {slots : Slots σ α}
  {ended : List (Nat × α)} {ticket i : Nat} {t t' : Moment}

theorem move {old new : Slot σ α} {ticket' : Nat} (h : Standing R late slots ended ticket t)
    (hi : slots[i]? = some old) (hbooked : Booked (slots.set i new) ended ticket') (hnew : new.Stands (R i) late t) :
    Standing R late (slots.set i new) ended ticket' t := by
  refine ⟨hbooked, fun j slot hj => ?_⟩
  rw [getElem?_set_of_some new hi] at hj
  split at hj
  · next hji =>
    cases hj
    rw [hji]
    exact hnew
  · exact h.stands j slot hj

/-- A member that starts, takes a step or goes on after a wait leaves the pool on its way. -/
theorem goOn {old : Slot σ α} {a : Activity σ α} (h : Standing R late slots ended ticket t) (hi : slots[i]? = some old)
    (hold : old ≠ .finished) (ha : R i a t) : Standing R late (slots.set i (.running a)) ended ticket t :=
  h.move hi (h.toBooked.goOn a hi hold) ha

/-- A member takes a step after which something else lasts of it, but not of the others. -/
theorem step {R' : Nat → Activity σ α → Moment → Prop} {old : Slot σ α} {a : Activity σ α}
    (h : Standing R late slots ended ticket t) (hi : slots[i]? = some old) (hold : old ≠ .finished)
    (hothers : ∀ j, j ≠ i → R' j = R j) (ha : R' i a t) :
    Standing R' late (slots.set i (.running a)) ended ticket t := by
  refine ⟨h.toBooked.goOn a hi hold, fun j slot hj => ?_⟩
  rw [getElem?_set_of_some _ hi] at hj
  split at hj
  · next hji =>
    cases hj
    rw [hji]
    exact ha
  · next hji =>
    rw [hothers j hji]
    exact h.stands j slot hj

theorem rest {u : Option Moment} {n : Activity σ α} (h : Standing R late slots ended ticket t)
    (hi : slots[i]? = some (.running (.wait u n))) :
    Standing R late (slots.set i (.waiting ticket u n)) ended (ticket + 1) t := by
  have hstands : (Slot.waiting ticket u n).Stands (R i) late t :=
    ⟨t, Nat.le_refl t, h.stands i _ hi, fun v _ => Nat.le_max_left t v⟩
  exact h.move hi (h.toBooked.rest hi) hstands

/-- A member ends, after which something else may last of it, but not of the others. -/
theorem finish {R' : Nat → Activity σ α → Moment → Prop} {x : α} (h : Standing R late slots ended ticket t)
    (hi : slots[i]? = some (.running (done x))) (hothers : ∀ j, j ≠ i → R' j = R j) :
    Standing R' late (slots.set i .finished) (ended ++ [(i, x)]) ticket t := by
  refine ⟨h.toBooked.finish hi nofun x, fun j slot hj => ?_⟩
  rw [getElem?_set_of_some .finished hi] at hj
  split at hj
  · cases hj
    trivial
  · next hji =>
    rw [hothers j hji]
    exact h.stands j slot hj

/-- Time passes while nobody runs, up to the first alarm. -/
theorem pass {capacity : Nat} (h : Standing R late slots ended ticket t) (hidle : Idle capacity slots)
    (hlate : capacity < slots.length → late t') (hle : t ≤ t')
    (halarm : ∀ slot ∈ slots, ∀ v, slot.alarm? = some v → t' ≤ max t v) : Standing R late slots ended ticket t' := by
  refine ⟨h.toBooked, fun j slot hj => ?_⟩
  have hmem := List.mem_of_getElem? hj
  exact (h.stands j slot hj).pass hle (hidle.running slot hmem)
    (fun hqueued => hlate (hidle.crowded hmem hqueued)) (halarm slot hmem)

end Standing

/-- A pool on its way at a moment, with what lasts of its members and what they have ended with. -/
structure Afoot (R : Nat → Activity σ α → Moment → Prop) (late : Moment → Prop) (slots : Slots σ α)
    (ended : List (Nat × α)) (ticket : Nat) (t : Moment) : Prop extends Standing R late slots ended ticket t where
  holds : ∀ x ∈ ended, ∃ t₀, t₀ ≤ t ∧ R x.1 (.done x.2) t₀

namespace Afoot

variable {R : Nat → Activity σ α → Moment → Prop} {late : Moment → Prop} {slots : Slots σ α}
  {ended : List (Nat × α)} {ticket i : Nat} {t t' : Moment}

/-- A member that starts, takes a step or goes on after a wait leaves the pool on its way. -/
theorem goOn {old : Slot σ α} {a : Activity σ α} (h : Afoot R late slots ended ticket t) (hi : slots[i]? = some old)
    (hold : old ≠ .finished) (ha : R i a t) : Afoot R late (slots.set i (.running a)) ended ticket t :=
  ⟨h.toStanding.goOn hi hold ha, h.holds⟩

theorem rest {u : Option Moment} {n : Activity σ α} (h : Afoot R late slots ended ticket t)
    (hi : slots[i]? = some (.running (.wait u n))) :
    Afoot R late (slots.set i (.waiting ticket u n)) ended (ticket + 1) t :=
  ⟨h.toStanding.rest hi, h.holds⟩

theorem finish {x : α} (h : Afoot R late slots ended ticket t) (hi : slots[i]? = some (.running (done x))) :
    Afoot R late (slots.set i .finished) (ended ++ [(i, x)]) ticket t := by
  refine ⟨h.toStanding.finish hi fun _ _ => rfl, fun y hy => ?_⟩
  rcases List.mem_append.mp hy with hy | hy
  · exact h.holds y hy
  · rw [List.mem_singleton] at hy
    subst hy
    exact ⟨t, Nat.le_refl t, h.stands i _ hi⟩

/-- Time passes while nobody runs, up to the first alarm. -/
theorem pass {capacity : Nat} (h : Afoot R late slots ended ticket t) (hidle : Idle capacity slots)
    (hlate : capacity < slots.length → late t') (hle : t ≤ t')
    (halarm : ∀ slot ∈ slots, ∀ v, slot.alarm? = some v → t' ≤ max t v) : Afoot R late slots ended ticket t' := by
  refine ⟨h.toStanding.pass hidle hlate hle halarm, fun x hx => ?_⟩
  obtain ⟨t₀, ht₀, hR⟩ := h.holds x hx
  exact ⟨t₀, Nat.le_trans ht₀ hle, hR⟩

end Afoot

/-- How a pool is over at a moment: whoever has neither ended nor been kept from starting waits, and there is a limit,
and the wait does not end by then. -/
structure Over (R : Nat → Activity σ α → Moment → Prop) (capacity : Nat) (limit : Option Moment) (slots : Slots σ α)
    (ended : List (Nat × α)) (t : Moment) : Prop where
  idle : Idle capacity slots
  ended_iff : ∀ i : Nat, i ∈ ended.map Prod.fst ↔ slots[i]? = some Slot.finished
  nodup : (ended.map Prod.fst).Nodup
  holds : ∀ x ∈ ended, ∃ t₀, t₀ ≤ t ∧ R x.1 (.done x.2) t₀
  waits : ∀ (i k : Nat) (u : Option Moment) (a : Activity σ α), slots[i]? = some (.waiting k u a) →
    ∃ l, limit = some l ∧ (∀ v, u = some v → l < v) ∧ ∃ t₀, t₀ ≤ t ∧ R i (.wait u a) t₀

/-- A pool is over when nobody can go on before its limit. -/
theorem Afoot.over {R : Nat → Activity σ α → Moment → Prop} {late : Moment → Prop} {slots : Slots σ α}
    {ended : List (Nat × α)} {ticket capacity : Nat} {limit : Option Moment} {t : Moment}
    (h : Afoot R late slots ended ticket t) (hidle : Idle capacity slots)
    (hwaits : ∀ slot ∈ slots, slot.isActive = true → ∃ l, limit = some l ∧ ∀ v, slot.alarm? = some v → l < v) :
    Over R capacity limit slots ended t := by
  refine ⟨hidle, h.ended_iff, h.nodup, h.holds, fun i k u a hi => ?_⟩
  obtain ⟨l, hl, hlate⟩ := hwaits _ (List.mem_of_getElem? hi) rfl
  obtain ⟨t₀, ht₀, hwait, -⟩ := h.stands i _ hi
  exact ⟨l, hl, hlate, t₀, ht₀, hwait⟩

/-- Whether a moment is no later than a limit, if there is one, for a pool that has begun at a moment. -/
def InTime (limit : Option Moment) (begun t : Moment) : Prop := ∀ l, limit = some l → t ≤ max begun l

theorem inTime_begun (limit : Option Moment) (t : Moment) : InTime limit t t := fun l _ => Nat.le_max_left t l

section Run

variable {R : Nat → Activity σ α → Moment → Prop} {capacity : Nat} {limit : Option Moment}
  {collector : Collector σ α β}

/-- What may come of a pool: it is over in time, with everything added up that members have ended with, or a member
crashed. -/
def Stops (R : Nat → Activity σ α → Moment → Prop) (capacity : Nat) (limit : Option Moment) (add : β → Nat × α → β)
    (count : Nat) (start : β) (begun : Moment) (r : Except String β) (t : Moment) : Prop :=
  InTime limit begun t ∧
    match r with
    | .ok result => ∃ (slots : Slots σ α) (ended : List (Nat × α)), slots.length = count ∧
        Over R capacity limit slots ended t ∧ result = ended.foldl add start
    | .error m => ∃ i, R i (.crash m) t

theorem turnsOut_poolFrom {add : β → Nat × α → β} (capacity horizon : Nat) (hR : ∀ i, Lasting (R i))
    (hadds : ∀ i x t s acc, (collector.collect i x t s acc).1 = add acc (i, x)) {slots : Slots σ α}
    {count : Nat} {now begun t : Moment} {ticket : Nat} {start acc : β} {ended : List (Nat × α)}
    {late : Moment → Prop} (hafoot : Afoot R late slots ended ticket t) (hcount : slots.length = count)
    (hlate : capacity < count → ∀ t', InTime limit begun t' → late t') (hacc : acc = ended.foldl add start)
    (hnow : now ≤ t) (hintime : InTime limit begun t) :
    (poolFrom capacity limit collector slots now ticket horizon acc).TurnsOut
      (limit = none ∧ ∃ i a t', R i (.wait none a) t') (Stops R capacity limit add count start begun) t := by
  have hnext := next_poolFrom capacity limit collector now horizon acc hafoot.tickets
  have hset : ∀ i slot, (slots.set i slot).length = count := fun i slot => List.length_set.trans hcount
  -- along the recursion of the pool; only its own waits let time pass
  generalize poolFrom capacity limit collector slots now ticket horizon acc = p at hnext ⊢
  cases hnext with
  | @act i c n hslot =>
    intro s
    have hstep := (hR i).act (hafoot.stands i _ hslot) s
    exact turnsOut_poolFrom capacity horizon hR hadds (hafoot.goOn hslot nofun hstep) (hset _ _) hlate hacc hnow
      hintime
  | rest hslot =>
    exact turnsOut_poolFrom capacity horizon hR hadds (hafoot.rest hslot) (hset _ _) hlate hacc hnow hintime
  | @finish i x hslot =>
    intro s
    have hsum : (collector.collect i x t s acc).1 = (ended ++ [(i, x)]).foldl add start := by
      simp [hadds, hacc]
    exact turnsOut_poolFrom capacity horizon hR hadds (hafoot.finish hslot) (hset _ _) hlate hsum hnow hintime
  | @fail i m hslot => exact ⟨hintime, i, hafoot.stands i _ hslot⟩
  | @wake i k u a hslot hdue =>
    have hwoken := (hafoot.stands i _ hslot).wake (hR i)
    rw [Nat.max_eq_left (Nat.le_trans hdue hnow)] at hwoken
    exact turnsOut_poolFrom capacity horizon hR hadds (hafoot.goOn hslot nofun hwoken) (hset _ _) hlate hacc hnow
      hintime
  | @start i a hslot =>
    have hbegun := hafoot.stands i _ hslot t (Nat.le_refl t) (.inl rfl)
    exact turnsOut_poolFrom capacity horizon hR hadds (hafoot.goOn hslot nofun hbegun) (hset _ _) hlate hacc hnow
      hintime
  | @alarm i k u a hidle hlimit hfirst hslot =>
    have hwoken := (hafoot.stands i _ hslot).wake (hR i)
    have hintime' : InTime limit begun (max t u) := fun l hl =>
      Nat.max_le.mpr ⟨hintime l hl, Nat.le_trans (hlimit l hl) (Nat.le_max_right begun l)⟩
    have hpassed : Afoot R late slots ended ticket (max t u) :=
      hafoot.pass hidle (fun hfull => hlate (hcount ▸ hfull) _ hintime') (Nat.le_max_left t u) fun slot hmem v hv =>
        max_le_max_left t (hfirst slot hmem v hv)
    exact turnsOut_poolFrom capacity ticket hR hadds (hpassed.goOn hslot nofun hwoken) (hset _ _) hlate hacc
      (Nat.le_max_right t u) hintime'
  | @cut l hidle hlimit hafter =>
    have hintime' : InTime limit begun (max t l) := by
      intro l' hl'
      have hle := hintime l' hl'
      rw [hlimit, Option.some.injEq] at hl'
      subst hl'
      exact Nat.max_le.mpr ⟨hle, Nat.le_max_right begun l⟩
    have hpassed : Afoot R late slots ended ticket (max t l) :=
      hafoot.pass hidle (fun hfull => hlate (hcount ▸ hfull) _ hintime') (Nat.le_max_left t l) fun slot hmem v hv =>
        max_le_max_left t (Nat.le_of_lt (hafter slot hmem v hv))
    exact ⟨hintime', slots, ended, hcount, hpassed.over hidle fun slot hmem _ => ⟨l, hlimit, hafter slot hmem⟩, hacc⟩
  | @stuck i k a hidle hlimit hslot =>
    obtain ⟨t₀, -, hwait, -⟩ := hafoot.stands i _ hslot
    exact ⟨hlimit, i, a, t₀, hwait⟩
  | ends hidle hactive =>
    refine ⟨hintime, slots, ended, hcount, hafoot.over hidle fun slot hmem hslot => ?_, hacc⟩
    rw [hactive slot hmem] at hslot
    cases hslot
termination_by slots
decreasing_by
  · exact Shrinks.set (.act _ _ _ _) ‹_›
  · exact Shrinks.set (.rest _ _ _) ‹_›
  · exact Shrinks.set (.finish _) ‹_›
  · exact Shrinks.set (.wake _ _ _) ‹_›
  · exact Shrinks.set (.start _) ‹_›
  · exact Shrinks.set (.wake _ _ _) ‹_›

/-- How a pool turns out. Members start at once, or in time when there is no room for all. The pool waits for ever only
without a limit, when a member does. -/
theorem turnsOut_pool (capacity : Nat) (limit : Option Moment) (collector : Collector σ α β) (add : β → Nat × α → β)
    (hR : ∀ i, Lasting (R i)) (hadds : ∀ i x t s acc, (collector.collect i x t s acc).1 = add acc (i, x))
    {members : List (Activity σ α)} (start : β) {t : Moment}
    (h : ∀ (i : Nat) a, members[i]? = some a →
      ∀ t', t ≤ t' → (t' = t ∨ capacity < members.length ∧ InTime limit t t') → R i a t') :
    (pool capacity limit collector members start).TurnsOut (limit = none ∧ ∃ i a t', R i (.wait none a) t')
      (Stops R capacity limit add members.length start t) t := by
  have hafoot : Afoot R (fun t' => capacity < members.length ∧ InTime limit t t') (members.map .queued) [] 0 t := by
    refine ⟨⟨.start members, fun i slot hi => ?_⟩, by simp⟩
    rw [List.getElem?_map] at hi
    obtain ⟨a, ha, rfl⟩ := Option.map_eq_some_iff.mp hi
    exact h i a ha
  have hsum : start = ([] : List (Nat × α)).foldl add start := rfl
  exact turnsOut_poolFrom capacity 0 hR hadds hafoot (List.length_map _)
    (fun hcrowded _ hintime => ⟨hcrowded, hintime⟩) hsum (Nat.zero_le t) (inTime_begun limit t)

end Run

section Together

variable {R : Nat → Activity σ α → Moment → Prop} {capacity : Nat} {limit : Option Moment}

/-- What has become of a member when all is over at a moment: it has ended, it waits past the limit, or it has not
started. -/
inductive Fate (R : Activity σ α → Moment → Prop) (crowded : Prop) (limit : Option Moment) (t : Moment) :
    Option α → Prop
  | ended {x : α} {t₀ : Moment} : t₀ ≤ t → R (.done x) t₀ → Fate R crowded limit t (some x)
  | cut {l t₀ : Moment} {u : Option Moment} {a : Activity σ α} : limit = some l → (∀ v, u = some v → l < v) →
      t₀ ≤ t → R (.wait u a) t₀ → Fate R crowded limit t none
  | kept {l : Moment} : limit = some l → crowded → Fate R crowded limit t none

theorem Fate.imp_crowded {R : Activity σ α → Moment → Prop} {crowded crowded' : Prop} {t : Moment} {y : Option α}
    (h : Fate R crowded limit t y) (hcrowded : crowded → crowded') : Fate R crowded' limit t y := by
  cases h with
  | ended ht₀ hR => exact .ended ht₀ hR
  | cut hl hlate ht₀ hR => exact .cut hl hlate ht₀ hR
  | kept hl hc => exact .kept hl (hcrowded hc)

/-- Where a value that is put in its place comes from. -/
theorem of_getElem?_foldl_set {ended : List (Nat × α)} {values : List (Option α)} {i : Nat} {y : Option α}
    (h : (ended.foldl (fun acc x => acc.set x.1 (some x.2)) values)[i]? = some y) :
    (∃ x, y = some x ∧ (i, x) ∈ ended) ∨ values[i]? = some y ∧ i ∉ ended.map Prod.fst := by
  induction ended using List.reverseRecOn with
  | nil => exact .inr ⟨h, by simp⟩
  | append_singleton rest last ih =>
    rw [List.foldl_append, List.foldl_cons, List.foldl_nil, List.getElem?_set] at h
    split at h
    · next hi =>
      split at h
      · cases h
        exact .inl ⟨last.2, rfl, by simp [← hi]⟩
      · cases h
    · next hi =>
      rcases ih h with ⟨x, rfl, hx⟩ | ⟨hy, hnot⟩
      · exact .inl ⟨x, rfl, List.mem_append_left _ hx⟩
      · exact .inr ⟨hy, by simpa [Ne.symm hi] using hnot⟩

theorem length_foldl_set (ended : List (Nat × α)) (values : List (Option α)) :
    (ended.foldl (fun acc x => acc.set x.1 (some x.2)) values).length = values.length := by
  induction ended generalizing values with
  | nil => rfl
  | cons x rest ih => rw [List.foldl_cons, ih, List.length_set]

/-- In an idle pool the member at a place has handed over a value, or it has not started, or it waits. -/
theorem Idle.place_cases {slots : Slots σ α} {ended : List (Nat × α)} (h : Idle capacity slots)
    (hended : ∀ i : Nat, i ∈ ended.map Prod.fst ↔ slots[i]? = some Slot.finished) {values : List (Option α)}
    (hvalues : ∀ y ∈ values, y = none) {i : Nat} {y : Option α} (hlt : i < slots.length)
    (hy : (ended.foldl (fun acc x => acc.set x.1 (some x.2)) values)[i]? = some y) :
    (∃ x, y = some x ∧ (i, x) ∈ ended) ∨
      y = none ∧ ((∃ a, slots[i]? = some (.queued a) ∧ capacity ≤ slots.countP Slot.isActive) ∨
        ∃ k u a, slots[i]? = some (.waiting k u a)) := by
  rcases of_getElem?_foldl_set hy with hx | ⟨hy, hnot⟩
  · exact .inl hx
  · refine .inr ⟨hvalues y (List.mem_of_getElem? hy), ?_⟩
    have hi : slots[i]? = some slots[i] := List.getElem?_eq_getElem hlt
    rcases h.slot_cases (List.getElem_mem hlt) with ⟨a, ha, hfull⟩ | ⟨k, u, a, ha⟩ | hfinished
    · exact .inl ⟨a, by rw [hi, ha], hfull⟩
    · exact .inr ⟨k, u, a, by rw [hi, ha]⟩
    · exact absurd ((hended i).mpr (by rw [hi, hfinished])) hnot

/-- What becomes of the member at a place. -/
theorem Over.fate {slots : Slots σ α} {ended : List (Nat × α)} {t : Moment} (hcapacity : 0 < capacity)
    (h : Over R capacity limit slots ended t) {values : List (Option α)} (hvalues : ∀ y ∈ values, y = none) {i : Nat}
    {y : Option α} (hlt : i < slots.length)
    (hy : (ended.foldl (fun acc x => acc.set x.1 (some x.2)) values)[i]? = some y) :
    Fate (R i) (capacity < slots.length) limit t y := by
  rcases h.idle.place_cases h.ended_iff hvalues hlt hy with
    ⟨x, rfl, hx⟩ | ⟨rfl, ⟨a, ha, hfull⟩ | ⟨k, u, a, ha⟩⟩
  · obtain ⟨t₀, ht₀, hR⟩ := h.holds _ hx
    exact .ended ht₀ hR
  · -- there is somebody who keeps it from starting, and who waits past the limit
    obtain ⟨other, hother, hactive⟩ := List.countP_pos_iff.mp (Nat.lt_of_lt_of_le hcapacity hfull)
    obtain ⟨j, hj⟩ := List.mem_iff_getElem?.mp hother
    rcases h.idle.slot_cases hother with ⟨b, rfl, _⟩ | ⟨k, u, b, rfl⟩ | rfl
    · cases hactive
    · obtain ⟨l, hl, -⟩ := h.waits j k u b hj
      exact .kept hl (h.idle.crowded (List.mem_of_getElem? ha) rfl)
    · cases hactive
  · obtain ⟨l, hl, hlate, t₀, ht₀, hR⟩ := h.waits i k u a ha
    exact .cut hl hlate ht₀ hR

/-- How activities turn out that happen at once. -/
theorem turnsOut_together (hcapacity : 0 < capacity) (hR : ∀ i, Lasting (R i)) {members : List (Activity σ α)}
    {t : Moment} (h : ∀ (i : Nat) a, members[i]? = some a →
      ∀ t', t ≤ t' → (t' = t ∨ capacity < members.length ∧ InTime limit t t') → R i a t') :
    (together capacity limit members).TurnsOut (limit = none ∧ ∃ i a t', R i (.wait none a) t')
      (fun r t' => InTime limit t t' ∧
        match r with
        | .ok results => results.length = members.length ∧ ∀ (i : Nat) y, results[i]? = some y →
            Fate (R i) (capacity < members.length) limit t' y
        | .error m => ∃ i, R i (.crash m) t') t := by
  have hpool := turnsOut_pool capacity limit .inOrder (fun acc x => acc.set x.1 (some x.2)) hR
    (fun _ _ _ _ _ => rfl) (members.map fun _ => none) h
  refine hpool.mono id ?_
  rintro r t' - ⟨hintime, hr⟩
  refine ⟨hintime, ?_⟩
  cases r with
  | error m => exact hr
  | ok results =>
    obtain ⟨slots, ended, hlength, hover, rfl⟩ := hr
    have hresults : (ended.foldl (fun acc x => acc.set x.1 (some x.2)) (members.map fun _ => none)).length =
        members.length := by
      rw [length_foldl_set, List.length_map]
    refine ⟨hresults, fun i y hy => ?_⟩
    have hlt : i < slots.length := by
      rw [hlength, ← hresults]
      exact (List.getElem?_eq_some_iff.mp hy).1
    have hnone : ∀ y ∈ (members.map fun _ => (none : Option α)), y = none := by simp
    rw [← hlength]
    exact hover.fate hcapacity hnone hlt hy

end Together

end Activity
end CodeAtlas
