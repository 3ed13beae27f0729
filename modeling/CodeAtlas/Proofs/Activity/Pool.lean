import Mathlib
import CodeAtlas.Activity.Pool
import CodeAtlas.Proofs.Activity.Proceeds

/-! Pools whose members stay out of each other's way. A pool that has no limit and ends has run every member to
its end, in some order, and what each member ended in still holds when the pool ends. -/
namespace CodeAtlas
namespace Activity

variable {σ α β : Type}

section Choice

theorem foldl_least_eq_none {l : List (Option Nat)} {first : Option Nat} :
    l.foldl least first = none ↔ first = none ∧ ∀ x ∈ l, x = none := by
  induction l generalizing first with
  | nil => simp
  | cons x l ih =>
    rw [List.foldl_cons, ih, List.forall_mem_cons]
    cases first <;> cases x <;> simp [least]

theorem mem_of_foldl_least {l : List (Option Nat)} {first : Option Nat} {k : Nat}
    (h : l.foldl least first = some k) : first = some k ∨ some k ∈ l := by
  induction l generalizing first with
  | nil => exact .inl h
  | cons x l ih =>
    rcases ih h with hk | hk
    · cases first with
      | none => exact .inr (by simp [← hk, least])
      | some a =>
        cases x with
        | none => exact .inl (by simpa [least] using hk)
        | some b =>
          simp only [least, Option.some.injEq] at hk
          rcases Nat.le_total a b with hab | hab
          · exact .inl (by rw [← hk, Nat.min_eq_left hab])
          · exact .inr (by rw [← hk, Nat.min_eq_right hab]; simp)
    · exact .inr (List.mem_cons_of_mem x hk)

theorem le_of_foldl_least {l : List (Option Nat)} {first : Option Nat} {k : Nat} (h : l.foldl least first = some k) :
    (∀ a, first = some a → k ≤ a) ∧ ∀ a, some a ∈ l → k ≤ a := by
  induction l generalizing first with
  | nil =>
    refine ⟨fun a ha => ?_, by simp⟩
    rw [List.foldl_nil, ha, Option.some.injEq] at h
    exact Nat.le_of_eq h.symm
  | cons x l ih =>
    obtain ⟨hfirst, hrest⟩ := ih h
    have hboth : ∀ a, first = some a ∨ x = some a → k ≤ a := by
      rintro a (rfl | rfl)
      · cases x with
        | none => exact hfirst a rfl
        | some b => exact Nat.le_trans (hfirst (min a b) rfl) (Nat.min_le_left a b)
      · cases first with
        | none => exact hfirst a rfl
        | some b => exact Nat.le_trans (hfirst (min b a) rfl) (Nat.min_le_right b a)
    refine ⟨fun a ha => hboth a (.inl ha), fun a ha => ?_⟩
    rcases List.mem_cons.mp ha with rfl | ha
    · exact hboth a (.inr rfl)
    · exact hrest a ha

variable {capacity horizon i : Nat} {now : Moment} {slots : Slots σ α}

theorem getElem?_of_findIdx? {p : Slot σ α → Bool} (h : slots.findIdx? p = some i) :
    ∃ slot, slots[i]? = some slot ∧ p slot = true := by
  obtain ⟨hi, hp, _⟩ := List.findIdx?_eq_some_iff_getElem.mp h
  exact ⟨slots[i], List.getElem?_eq_getElem hi, hp⟩

/-- The member to move next runs, or none does and it is due, or none is due, and it has not started and there is
capacity for it. -/
theorem movable_of_nextSlot? (h : nextSlot? capacity now horizon slots = some i) :
    ∃ slot, slots[i]? = some slot ∧ (slot.isRunning = true ∨
      (∀ other ∈ slots, other.isRunning = false) ∧ (slot.dueTicket? now horizon ≠ none ∨
        (∀ other ∈ slots, other.dueTicket? now horizon = none) ∧ slot.isQueued = true ∧
          slots.countP Slot.isActive < capacity)) := by
  unfold nextSlot? at h
  split at h
  · next j hj =>
    cases h
    obtain ⟨slot, hslot, hp⟩ := getElem?_of_findIdx? hj
    exact ⟨slot, hslot, .inl hp⟩
  · next hrunning =>
    have hidle := List.findIdx?_eq_none_iff.mp hrunning
    split at h
    · obtain ⟨slot, hslot, hp⟩ := getElem?_of_findIdx? h
      exact ⟨slot, hslot, .inr ⟨hidle, .inl (by simp [eq_of_beq hp])⟩⟩
    · next hdue =>
      split at h
      · next hroom =>
        obtain ⟨slot, hslot, hp⟩ := getElem?_of_findIdx? h
        have hnone := (foldl_least_eq_none.mp hdue).2
        exact ⟨slot, hslot,
          .inr ⟨hidle, .inr ⟨fun other hother => hnone _ (List.mem_map_of_mem hother), hp, hroom⟩⟩⟩
      · cases h

theorem waiting_of_dueTicket? {slot : Slot σ α} (h : slot.dueTicket? now horizon ≠ none) :
    ∃ k u a, slot = .waiting k (some u) a ∧ u ≤ now := by
  cases slot with
  | waiting k u a =>
    cases u with
    | none => exact absurd rfl h
    | some u =>
      refine ⟨k, u, a, rfl, ?_⟩
      by_contra hlate
      exact h (if_neg fun hdue => hlate hdue.1)
  | queued a => exact absurd rfl h
  | running a => exact absurd rfl h
  | finished => exact absurd rfl h

/-- Nobody in a pool runs, and there is no capacity for one that has not started. -/
structure Idle (capacity : Nat) (slots : Slots σ α) : Prop where
  running : ∀ slot ∈ slots, slot.isRunning = false
  full : capacity ≤ slots.countP Slot.isActive ∨ ∀ slot ∈ slots, slot.isQueued = false

/-- When no member can move, the pool is idle and none is due. -/
theorem nextSlot?_eq_none (h : nextSlot? capacity now horizon slots = none) :
    Idle capacity slots ∧ ∀ slot ∈ slots, slot.dueTicket? now horizon = none := by
  unfold nextSlot? at h
  split at h
  · cases h
  · next hrunning =>
    have hidle := List.findIdx?_eq_none_iff.mp hrunning
    split at h
    · next k hk =>
      rcases mem_of_foldl_least hk with hk | hk
      · cases hk
      · obtain ⟨slot, hslot, hdue⟩ := List.mem_map.mp hk
        have hno := List.findIdx?_eq_none_iff.mp h slot hslot
        simp [hdue] at hno
    · next hdue =>
      have hnone := (foldl_least_eq_none.mp hdue).2
      refine ⟨⟨hidle, ?_⟩, fun slot hslot => hnone _ (List.mem_map_of_mem hslot)⟩
      split at h
      · exact .inr (List.findIdx?_eq_none_iff.mp h)
      · next hfull => exact .inl (Nat.le_of_not_lt hfull)

/-- When an idle pool has no active member, all are finished. -/
theorem Idle.all_finished (h : Idle capacity slots) (hcapacity : 0 < capacity)
    (hactive : ∀ slot ∈ slots, slot.isActive = false) : ∀ slot ∈ slots, slot = .finished := by
  have hcount : slots.countP Slot.isActive = 0 := by
    rw [List.countP_eq_zero]
    intro slot hslot
    simp [hactive slot hslot]
  have hstarted : ∀ slot ∈ slots, slot.isQueued = false := h.full.resolve_left (by omega)
  intro slot hslot
  have hi := hactive slot hslot
  have hs := hstarted slot hslot
  cases slot with
  | finished => rfl
  | queued a => cases hs
  | running a => cases hi
  | waiting k u a => cases hi

end Choice

section Next

variable (capacity : Nat) (limit : Option Moment) (collector : Collector σ α β) (slots : Slots σ α) (now : Moment)
  (ticket horizon : Nat) (acc : β)

/-- What a pool does next. A member that runs takes a step, or one that is due or has not started goes on. When
nobody can, the pool waits for the first alarm, for its limit or for ever, or it is over. -/
inductive Next : Activity σ β → Prop
  | act {i : Nat} {c : Moment → σ → σ} {n : Moment → σ → Activity σ α} : slots[i]? = some (.running (.act c n)) →
      Next (.act c fun t s =>
        poolFrom capacity limit collector (slots.set i (.running (n t s))) now ticket horizon acc)
  | rest {i : Nat} {u : Option Moment} {n : Activity σ α} : slots[i]? = some (.running (.wait u n)) →
      Next (poolFrom capacity limit collector (slots.set i (.waiting ticket u n)) now (ticket + 1) horizon acc)
  | finish {i : Nat} {x : α} : slots[i]? = some (.running (.done x)) →
      Next (.act (fun t s => (collector.collect i x t s acc).2) fun t s =>
        poolFrom capacity limit collector (slots.set i .finished) now ticket horizon
          (collector.collect i x t s acc).1)
  | fail {i : Nat} {m : String} : slots[i]? = some (.running (.crash m)) → Next (.crash m)
  | wake {i k : Nat} {u : Moment} {a : Activity σ α} : slots[i]? = some (.waiting k (some u) a) → u ≤ now →
      Next (poolFrom capacity limit collector (slots.set i (.running a)) now ticket horizon acc)
  | start {i : Nat} {a : Activity σ α} : slots[i]? = some (.queued a) → slots.countP Slot.isActive < capacity →
      Next (poolFrom capacity limit collector (slots.set i (.running a)) now ticket horizon acc)
  | alarm {i k : Nat} {u : Moment} {a : Activity σ α} : Idle capacity slots → (∀ l, limit = some l → u ≤ l) →
      (∀ slot ∈ slots, ∀ v, slot.alarm? = some v → u ≤ v) → slots[i]? = some (.waiting k (some u) a) →
      Next (.wait (some u) (poolFrom capacity limit collector (slots.set i (.running a)) u ticket ticket acc))
  | cut {l : Moment} : Idle capacity slots → limit = some l →
      (∀ slot ∈ slots, ∀ v, slot.alarm? = some v → l < v) → Next (.wait (some l) (.done acc))
  | stuck {i k : Nat} {a : Activity σ α} : Idle capacity slots → limit = none →
      slots[i]? = some (.waiting k none a) → (∀ slot ∈ slots, slot.alarm? = none) → Next (.wait none (.done acc))
  | ends : Idle capacity slots → (∀ slot ∈ slots, slot.isActive = false) → Next (.done acc)

variable {slots ticket}

/-- The member that waits for the first alarm is due when it goes off. -/
theorem exists_due {u : Moment}
    (htickets : ∀ (i k : Nat) (v : Option Moment) (a : Activity σ α), slots[i]? = some (.waiting k v a) → k < ticket)
    (h : (slots.map Slot.alarm?).foldl least none = some u) : ∃ slot ∈ slots, slot.dueTicket? u ticket ≠ none := by
  rcases mem_of_foldl_least h with hu | hu
  · cases hu
  · obtain ⟨slot, hslot, halarm⟩ := List.mem_map.mp hu
    refine ⟨slot, hslot, ?_⟩
    cases slot with
    | waiting k v a =>
      obtain ⟨i, hi⟩ := List.mem_iff_getElem?.mp hslot
      cases halarm
      simp [Slot.dueTicket?, htickets i k _ a hi]
    | queued a => cases halarm
    | running a => cases halarm
    | finished => cases halarm

/-- The member to go on when the first alarm goes off is one that waits for it. -/
theorem exists_waiting_of_alarm {i : Nat} {u : Moment} (hidle : Idle capacity slots)
    (htickets : ∀ (i k : Nat) (v : Option Moment) (a : Activity σ α), slots[i]? = some (.waiting k v a) → k < ticket)
    (hu : (slots.map Slot.alarm?).foldl least none = some u) (hi : nextSlot? capacity u ticket slots = some i) :
    ∃ k a, slots[i]? = some (.waiting k (some u) a) := by
  have hfirst := (le_of_foldl_least hu).2
  obtain ⟨slot, hslot, hrunning | ⟨-, hdue | ⟨hnone, -⟩⟩⟩ := movable_of_nextSlot? hi
  · rw [hidle.running slot (List.mem_of_getElem? hslot)] at hrunning
    cases hrunning
  · obtain ⟨k, v, a, rfl, hle⟩ := waiting_of_dueTicket? hdue
    have hge := hfirst v (List.mem_map.mpr ⟨_, List.mem_of_getElem? hslot, rfl⟩)
    rw [Nat.le_antisymm hge hle]
    exact ⟨k, a, hslot⟩
  · obtain ⟨other, hother, hdue⟩ := exists_due htickets hu
    exact absurd (hnone other hother) hdue

/-- What a pool does next when nobody can move. -/
theorem next_of_idle (hnone : nextSlot? capacity now horizon slots = none)
    (htickets : ∀ (i k : Nat) (v : Option Moment) (a : Activity σ α), slots[i]? = some (.waiting k v a) → k < ticket) :
    Next capacity limit collector slots now ticket horizon acc
      (poolFrom capacity limit collector slots now ticket horizon acc) := by
  obtain ⟨hidle, -⟩ := nextSlot?_eq_none hnone
  rw [poolFrom, hnone]
  dsimp only
  split
  · next u hu =>
    have hfirst : ∀ slot ∈ slots, ∀ v, slot.alarm? = some v → u ≤ v := fun slot hslot v hv =>
      (le_of_foldl_least hu).2 v (hv ▸ List.mem_map_of_mem hslot)
    split
    · next hlate =>
      cases limit with
      | none => cases hlate
      | some l =>
        have hl : l < u := by simpa using hlate
        exact .cut hidle rfl fun slot hslot v hv => Nat.lt_of_lt_of_le hl (hfirst slot hslot v hv)
    · next hlate =>
      have hintime : ∀ l, limit = some l → u ≤ l := by
        rintro l rfl
        simpa using hlate
      split
      · next hno =>
        obtain ⟨other, hother, hdue⟩ := exists_due htickets hu
        exact absurd ((nextSlot?_eq_none hno).2 other hother) hdue
      · next i hi =>
        obtain ⟨k, a, hslot⟩ := exists_waiting_of_alarm capacity hidle htickets hu hi
        split
        · next hslot' =>
          rw [hslot] at hslot'
          cases hslot'
          exact .alarm hidle hintime hfirst hslot
        · next hother => exact absurd hslot (hother k (some u) a)
  · next hu =>
    have hsilent := (foldl_least_eq_none.mp hu).2
    have halarm : ∀ slot ∈ slots, slot.alarm? = none := fun slot hslot => hsilent _ (List.mem_map_of_mem hslot)
    split
    · next hactive =>
      cases limit with
      | some l =>
        refine .cut hidle rfl fun slot hslot v hv => ?_
        rw [halarm slot hslot] at hv
        cases hv
      | none =>
        obtain ⟨slot, hslot, hs⟩ := List.any_eq_true.mp hactive
        obtain ⟨i, hi⟩ := List.mem_iff_getElem?.mp hslot
        have hr := hidle.running slot hslot
        have ha := halarm slot hslot
        cases slot with
        | waiting k u a =>
          cases ha
          exact .stuck hidle rfl hi halarm
        | queued a => cases hs
        | running a => cases hr
        | finished => cases hs
    · next hactive => exact .ends hidle (by simpa using hactive)

theorem next_poolFrom
    (htickets : ∀ (i k : Nat) (v : Option Moment) (a : Activity σ α), slots[i]? = some (.waiting k v a) → k < ticket) :
    Next capacity limit collector slots now ticket horizon acc
      (poolFrom capacity limit collector slots now ticket horizon acc) := by
  cases hnext : nextSlot? capacity now horizon slots with
  | none => exact next_of_idle capacity limit collector now horizon acc hnext htickets
  | some i =>
    obtain ⟨slot, hslot, hmovable⟩ := movable_of_nextSlot? hnext
    rw [poolFrom, hnext]
    dsimp only
    split
    · next hi => exact .act hi
    · next hi => exact .rest hi
    · next hi => exact .finish hi
    · next hi => exact .fail hi
    · next k u a hi =>
      rw [hi, Option.some.injEq] at hslot
      subst hslot
      obtain hno | ⟨-, hdue | ⟨-, hno⟩⟩ := hmovable
      · cases hno
      · obtain ⟨k', v, a', heq, hle⟩ := waiting_of_dueTicket? hdue
        cases heq
        exact .wake hi hle
      · cases hno.1
    · next hi =>
      rw [hi, Option.some.injEq] at hslot
      subst hslot
      obtain hno | ⟨-, hno | ⟨-, -, hroom⟩⟩ := hmovable
      · cases hno
      · exact absurd rfl hno
      · exact .start hi hroom
    · next hi =>
      rw [hi, Option.some.injEq] at hslot
      subst hslot
      obtain hno | ⟨-, hno | ⟨-, hno⟩⟩ := hmovable
      · cases hno
      · exact absurd rfl hno
      · cases hno.1
    · next hi =>
      rw [hi] at hslot
      cases hslot

end Next

/-- What a member still has to do proceeds. -/
def Slot.Proceeds (rely guar : σ → σ → Prop) (post : α → σ → Prop) (s : σ) : Slot σ α → Prop
  | .queued a => a.Proceeds rely guar post s
  | .running a => a.Proceeds rely guar post s
  | .waiting _ _ a => a.Proceeds rely guar post s
  | .finished => True

theorem Slot.Proceeds.stable {rely guar : σ → σ → Prop} {post : α → σ → Prop} {s s' : σ} {slot : Slot σ α}
    (hrely : Steady rely) (h : slot.Proceeds rely guar post s) (hs : rely s s') : slot.Proceeds rely guar post s' := by
  cases slot with
  | finished => trivial
  | queued a => exact Activity.Proceeds.stable hrely h hs
  | running a => exact Activity.Proceeds.stable hrely h hs
  | waiting k u a => exact Activity.Proceeds.stable hrely h hs

/-- Whether a step of a member is one that every other member relies on. -/
def Spares (rely : Nat → σ → σ → Prop) (i : Nat) (s s' : σ) : Prop := ∀ j, j ≠ i → rely j s s'

/-- The books of a pool: who has ended is finished, and those who wait have tickets. -/
structure Booked (slots : Slots σ α) (ended : List (Nat × α)) (ticket : Nat) : Prop where
  ended_iff : ∀ i : Nat, i ∈ ended.map Prod.fst ↔ slots[i]? = some Slot.finished
  nodup : (ended.map Prod.fst).Nodup
  tickets : ∀ (i k : Nat) (u : Option Moment) (a : Activity σ α),
    slots[i]? = some (Slot.waiting k u a) → k < ticket

theorem getElem?_set_of_some {slots : Slots σ α} {i : Nat} {old : Slot σ α} (new : Slot σ α)
    (hi : slots[i]? = some old) (j : Nat) : (slots.set i new)[j]? = if j = i then some new else slots[j]? := by
  have hlt : i < slots.length := (List.getElem?_eq_some_iff.mp hi).1
  rw [List.getElem?_set]
  by_cases hj : i = j
  · subst hj
    simp [hlt]
  · rw [if_neg hj, if_neg (Ne.symm hj)]

namespace Booked

variable {slots : Slots σ α} {ended : List (Nat × α)} {ticket i : Nat} {old : Slot σ α}

/-- Nobody who is not finished has ended. -/
theorem not_ended (h : Booked slots ended ticket) (hi : slots[i]? = some old) (hold : old ≠ .finished) :
    ∀ x ∈ ended, x.1 ≠ i := by
  rintro x hx rfl
  have hfinished := (h.ended_iff x.1).mp (List.mem_map_of_mem hx)
  rw [hi, Option.some.injEq] at hfinished
  exact hold hfinished

theorem move (new : Slot σ α) {ticket' : Nat} (h : Booked slots ended ticket) (hi : slots[i]? = some old)
    (hold : old ≠ .finished) (hfin : new ≠ .finished) (hticket : ticket ≤ ticket')
    (hwait : ∀ k u a, new = .waiting k u a → k < ticket') : Booked (slots.set i new) ended ticket' := by
  have hset := getElem?_set_of_some new hi
  refine ⟨fun j => ?_, h.nodup, fun j k u a hj => ?_⟩
  · rw [hset, h.ended_iff j]
    split
    · next hji =>
      rw [hji, hi, Option.some.injEq, Option.some.injEq]
      exact ⟨fun he => absurd he hold, fun he => absurd he hfin⟩
    · rfl
  · rw [hset] at hj
    split at hj
    · exact hwait k u a (Option.some.inj hj)
    · exact Nat.lt_of_lt_of_le (h.tickets j k u a hj) hticket

/-- A member that starts, takes a step or goes on after a wait leaves the books as they are. -/
theorem goOn (a : Activity σ α) (h : Booked slots ended ticket) (hi : slots[i]? = some old) (hold : old ≠ .finished) :
    Booked (slots.set i (.running a)) ended ticket :=
  h.move (.running a) hi hold nofun (Nat.le_refl ticket) nofun

/-- A member that begins to wait takes a ticket. -/
theorem rest {u : Option Moment} {n : Activity σ α} (h : Booked slots ended ticket)
    (hi : slots[i]? = some (.running (.wait u n))) : Booked (slots.set i (.waiting ticket u n)) ended (ticket + 1) := by
  refine h.move (.waiting ticket u n) hi nofun nofun (Nat.le_succ ticket) ?_
  rintro k v a hkva
  cases hkva
  exact Nat.lt_succ_self ticket

theorem finish (h : Booked slots ended ticket) (hi : slots[i]? = some old) (hold : old ≠ .finished) (x : α) :
    Booked (slots.set i .finished) (ended ++ [(i, x)]) ticket := by
  have hset := getElem?_set_of_some .finished hi
  refine ⟨fun j => ?_, ?_, fun j k u a hj => ?_⟩
  · rw [hset, List.map_append, List.mem_append, h.ended_iff j]
    by_cases hji : j = i
    · simp [hji]
    · simp [hji]
  · rw [List.map_append, List.nodup_append]
    refine ⟨h.nodup, by simp, ?_⟩
    rintro a ha b hb rfl
    simp only [List.map_cons, List.map_nil, List.mem_singleton] at hb
    obtain ⟨y, hy, rfl⟩ := List.mem_map.mp ha
    exact h.not_ended hi hold y hy hb
  · rw [hset] at hj
    split at hj
    · cases hj
    · exact h.tickets j k u a hj

theorem start (members : List (Activity σ α)) : Booked (members.map .queued) [] 0 := by
  refine ⟨fun i => ?_, by simp, fun i k u a hi => ?_⟩
  · rw [List.getElem?_map]
    simp
  · rw [List.getElem?_map] at hi
    obtain ⟨b, _, hb⟩ := Option.map_eq_some_iff.mp hi
    cases hb

end Booked

/-- A pool on its way: what is left to do proceeds, and what members have ended in holds. -/
structure Underway (rely : Nat → σ → σ → Prop) (post : Nat → α → σ → Prop) (slots : Slots σ α)
    (ended : List (Nat × α)) (ticket : Nat) (s : σ) : Prop extends Booked slots ended ticket where
  left : ∀ (i : Nat) (slot : Slot σ α), slots[i]? = some slot →
    slot.Proceeds (rely i) (Spares rely i) (post i) s
  holds : ∀ x ∈ ended, (done x.2).Proceeds (rely x.1) (Spares rely x.1) (post x.1) s

namespace Underway

variable {rely : Nat → σ → σ → Prop} {post : Nat → α → σ → Prop} {slots : Slots σ α}
  {ended : List (Nat × α)} {ticket i : Nat} {s s' : σ}

/-- A member that goes on, or begins to wait, leaves the pool on its way. -/
theorem move {old new : Slot σ α} {ticket' : Nat} (hsteady : ∀ j, Steady (rely j))
    (h : Underway rely post slots ended ticket s) (hi : slots[i]? = some old) (hold : old ≠ .finished)
    (hbooked : Booked (slots.set i new) ended ticket') (hnew : new.Proceeds (rely i) (Spares rely i) (post i) s')
    (hothers : Spares rely i s s') : Underway rely post (slots.set i new) ended ticket' s' := by
  refine ⟨hbooked, fun j slot hj => ?_, fun x hx => ?_⟩
  · rw [getElem?_set_of_some new hi] at hj
    split at hj
    · next hji =>
      cases hj
      rw [hji]
      exact hnew
    · -- the others rely on no more than the step spares them
      next hji => exact (h.left j slot hj).stable (hsteady j) (hothers j hji)
  · exact (h.holds x hx).stable (hsteady x.1) (hothers x.1 (h.not_ended hi hold x hx))

/-- A member that starts or goes on after a wait leaves the pool on its way. -/
theorem goOn {old : Slot σ α} {a : Activity σ α} (hsteady : ∀ j, Steady (rely j))
    (h : Underway rely post slots ended ticket s) (hi : slots[i]? = some old) (hold : old ≠ .finished)
    (ha : a.Proceeds (rely i) (Spares rely i) (post i) s) :
    Underway rely post (slots.set i (.running a)) ended ticket s :=
  h.move hsteady hi hold (h.toBooked.goOn a hi hold) ha fun j _ => (hsteady j).refl s

/-- A member that takes a step leaves the pool on its way. -/
theorem act {c : Moment → σ → σ} {n : Moment → σ → Activity σ α} (hsteady : ∀ j, Steady (rely j))
    (h : Underway rely post slots ended ticket s) (hi : slots[i]? = some (.running (.act c n))) (t : Moment) :
    Underway rely post (slots.set i (.running (n t s))) ended ticket (c t s) := by
  obtain ⟨hguar, hnext⟩ := h.left i _ hi t s ((hsteady i).refl s)
  exact h.move hsteady hi nofun (h.toBooked.goOn (n t s) hi nofun) hnext hguar

/-- A member that begins to wait takes a ticket. -/
theorem rest {u : Option Moment} {n : Activity σ α} (hsteady : ∀ j, Steady (rely j))
    (h : Underway rely post slots ended ticket s) (hi : slots[i]? = some (.running (.wait u n))) :
    Underway rely post (slots.set i (.waiting ticket u n)) ended (ticket + 1) s := by
  have hnext := h.left i (.running (.wait u n)) hi
  exact h.move hsteady hi nofun (h.toBooked.rest hi) hnext fun j _ => (hsteady j).refl s

/-- A member that ends adds to what holds. -/
theorem finish {x : α} (hsteady : ∀ j, Steady (rely j)) (h : Underway rely post slots ended ticket s)
    (hi : slots[i]? = some (.running (done x))) (hall : ∀ j, rely j s s') :
    Underway rely post (slots.set i .finished) (ended ++ [(i, x)]) ticket s' := by
  refine ⟨h.toBooked.finish hi nofun x, fun j slot hj => ?_, fun y hy => ?_⟩
  · rw [getElem?_set_of_some .finished hi] at hj
    split at hj
    · cases hj
      trivial
    · exact (h.left j slot hj).stable (hsteady j) (hall j)
  · rcases List.mem_append.mp hy with hy | hy
    · exact (h.holds y hy).stable (hsteady y.1) (hall y.1)
    · rw [List.mem_singleton] at hy
      subst hy
      exact Activity.Proceeds.stable (hsteady i) (h.left i _ hi) (hall i)

end Underway

section Run

variable {rely : Nat → σ → σ → Prop} {post : Nat → α → σ → Prop} {collector : Collector σ α β} {add : β → α → β}

/-- A collector that every member can stand, and that adds up what members end in. -/
structure Gathers (rely : Nat → σ → σ → Prop) (collector : Collector σ α β) (add : β → α → β) : Prop where
  spares : ∀ i x t s acc j, rely j s (collector.collect i x t s acc).2
  adds : ∀ i x t s acc, (collector.collect i x t s acc).1 = add acc x

/-- How a pool ends: all members are finished. -/
def Ends (rely : Nat → σ → σ → Prop) (post : Nat → α → σ → Prop) (add : β → α → β) (count : Nat) (start : β)
    (result : β) (s : σ) : Prop :=
  ∃ (slots : Slots σ α) (ended : List (Nat × α)) (ticket : Nat), slots.length = count ∧
    (∀ slot ∈ slots, slot = .finished) ∧ Underway rely post slots ended ticket s ∧
    result = (ended.map Prod.snd).foldl add start

/-- A pool that ends has finished all its members. -/
theorem ends_of_run (hsteady : ∀ j, Steady (rely j)) (hgathers : Gathers rely collector add) {capacity : Nat}
    (hcapacity : 0 < capacity) {slots : Slots σ α} {now : Moment} {ticket horizon : Nat} {start acc result : β}
    {ended : List (Nat × α)} {t t' : Moment} {s s' : σ} (hunder : Underway rely post slots ended ticket s)
    (hacc : acc = (ended.map Prod.snd).foldl add start)
    (hrun : (poolFrom capacity none collector slots now ticket horizon acc).run t s = .finished result t' s') :
    Ends rely post add slots.length start result s' := by
  -- along the recursion of the pool, whose slots shrink; every way of going on keeps the pool on its way
  have hnext := next_poolFrom capacity none collector now horizon acc hunder.tickets
  generalize poolFrom capacity none collector slots now ticket horizon acc = p at hnext hrun
  cases hnext with
  | act hslot =>
    have hends := ends_of_run hsteady hgathers hcapacity (hunder.act hsteady hslot t) hacc hrun
    rwa [List.length_set] at hends
  | rest hslot =>
    have hends := ends_of_run hsteady hgathers hcapacity (hunder.rest hsteady hslot) hacc hrun
    rwa [List.length_set] at hends
  | @finish i x hslot =>
    have hfinish := hunder.finish hsteady hslot fun j => hgathers.spares i x t s acc j
    have hsum : (collector.collect i x t s acc).1 = ((ended ++ [(i, x)]).map Prod.snd).foldl add start := by
      simp [hgathers.adds, hacc]
    have hends := ends_of_run hsteady hgathers hcapacity hfinish hsum hrun
    rwa [List.length_set] at hends
  | fail => cases hrun
  | wake hslot =>
    have hmove := hunder.goOn hsteady hslot nofun (hunder.left _ _ hslot)
    have hends := ends_of_run hsteady hgathers hcapacity hmove hacc hrun
    rwa [List.length_set] at hends
  | start hslot =>
    have hmove := hunder.goOn hsteady hslot nofun (hunder.left _ _ hslot)
    have hends := ends_of_run hsteady hgathers hcapacity hmove hacc hrun
    rwa [List.length_set] at hends
  | alarm _ _ _ hslot =>
    have hmove := hunder.goOn hsteady hslot nofun (hunder.left _ _ hslot)
    have hends := ends_of_run hsteady hgathers hcapacity hmove hacc hrun
    rwa [List.length_set] at hends
  | cut _ hlimit => cases hlimit
  | stuck => cases hrun
  | ends hidle hactive =>
    cases hrun
    exact ⟨slots, ended, ticket, rfl, hidle.all_finished hcapacity hactive, hunder, hacc⟩
termination_by slots
decreasing_by
  · exact Shrinks.set (.act _ _ _ _) ‹_›
  · exact Shrinks.set (.rest _ _ _) ‹_›
  · exact Shrinks.set (.finish _) ‹_›
  · exact Shrinks.set (.wake _ _ _) ‹_›
  · exact Shrinks.set (.start _) ‹_›
  · exact Shrinks.set (.wake _ _ _) ‹_›

theorem underway_start (rely : Nat → σ → σ → Prop) (post : Nat → α → σ → Prop) {members : List (Activity σ α)}
    {s : σ} (h : ∀ (i : Nat) a, members[i]? = some a → a.Proceeds (rely i) (Spares rely i) (post i) s) :
    Underway rely post (members.map .queued) [] 0 s := by
  refine ⟨.start members, fun i slot hi => ?_, by simp⟩
  rw [List.getElem?_map] at hi
  obtain ⟨a, ha, rfl⟩ := Option.map_eq_some_iff.mp hi
  exact h i a ha

/-- A pool without a limit that ends has run all its members to their ends, in some order. What each of them has
ended in holds when the pool ends, and the pool's result is what they ended in, added up in that order. -/
theorem exists_order_of_pool (hsteady : ∀ j, Steady (rely j)) (hgathers : Gathers rely collector add)
    {capacity : Nat} (hcapacity : 0 < capacity) {members : List (Activity σ α)} {start result : β}
    {t t' : Moment} {s s' : σ}
    (h : ∀ (i : Nat) a, members[i]? = some a → a.Proceeds (rely i) (Spares rely i) (post i) s)
    (hrun : (pool capacity none collector members start).run t s = .finished result t' s') :
    ∃ order : List (Nat × α), (order.map Prod.fst).Perm (List.range members.length) ∧
      (∀ x ∈ order, post x.1 x.2 s') ∧ result = (order.map Prod.snd).foldl add start := by
  obtain ⟨slots, ended, ticket, hlen, hall, hunder, hresult⟩ :=
    ends_of_run hsteady hgathers hcapacity (underway_start rely post h) rfl hrun
  rw [List.length_map] at hlen
  refine ⟨ended, ?_, fun x hx => hunder.holds x hx s' ((hsteady x.1).refl s'), hresult⟩
  rw [List.perm_ext_iff_of_nodup hunder.nodup List.nodup_range]
  intro i
  rw [hunder.ended_iff, List.mem_range, ← hlen]
  constructor
  · exact fun hi => (List.getElem?_eq_some_iff.mp hi).1
  · intro hi
    rw [List.getElem?_eq_getElem hi, hall _ (List.getElem_mem hi)]

end Run

end Activity
end CodeAtlas
