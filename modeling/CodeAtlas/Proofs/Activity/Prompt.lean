import CodeAtlas.Proofs.Activity.Pool

/-! Pools whose members end at once. Such a pool runs its members one after the other in the order of the list,
whatever its capacity, and no limit cuts it short. -/
namespace CodeAtlas
namespace Activity

variable {σ α β : Type}

/-- An activity that ends without waiting, with its value and the state it leaves. -/
inductive Prompt (t : Moment) : Activity σ α → σ → α → σ → Prop
  | done (x : α) (s : σ) : Prompt t (done x) s x s
  | act {c : Moment → σ → σ} {n : Moment → σ → Activity σ α} {s s' : σ} {x : α} :
      Prompt t (n t s) (c t s) x s' → Prompt t (act c n) s x s'

theorem Prompt.run_eq {t : Moment} {a : Activity σ α} {s s' : σ} {x : α} (h : Prompt t a s x s') :
    a.run t s = .finished x t s' := by
  induction h with
  | done x s => rfl
  | act _ ih => exact ih

theorem Prompt.andThen {t : Moment} {a : Activity σ α} {f : α → Activity σ β} {s s' s'' : σ} {x : α} {y : β}
    (h : Prompt t a s x s') (hf : Prompt t (f x) s' y s'') : Prompt t (a.andThen f) s y s'' := by
  induction h with
  | done x s => exact hf
  | act _ ih => exact .act (ih hf)

/-- Hand values to a collector, from a place on. -/
def Collector.gather (collector : Collector σ α β) (t : Moment) : Nat → List α → β → σ → β × σ
  | _, [], acc, s => (acc, s)
  | i, x :: xs, acc, s =>
    gather collector t (i + 1) xs (collector.collect i x t s acc).1 (collector.collect i x t s acc).2

/-- Activities that end at once, one after the other, each value being handed to a collector before the next one
starts. -/
inductive Prompts (t : Moment) (collector : Collector σ α β) :
    Nat → List (Activity σ α) → β → σ → β → σ → Prop
  | nil (i : Nat) (acc : β) (s : σ) : Prompts t collector i [] acc s acc s
  | cons {i : Nat} {a : Activity σ α} {rest : List (Activity σ α)} {acc acc' : β} {s s' s'' : σ} {x : α} :
    Prompt t a s x s' →
      Prompts t collector (i + 1) rest (collector.collect i x t s' acc).1 (collector.collect i x t s' acc).2 acc' s'' →
      Prompts t collector i (a :: rest) acc s acc' s''

/-- Activities that change nothing, as long as `inv` holds, hand over their values in order. -/
theorem prompts_gather {collector : Collector σ α β} {inv : σ → Prop}
    (hinv : ∀ i x t s acc, inv s → inv (collector.collect i x t s acc).2) {t : Moment}
    {members : List (Activity σ α)} {values : List α}
    (h : List.Forall₂ (fun a x => ∀ s, inv s → Prompt t a s x s) members values) (i : Nat) (acc : β) {s : σ}
    (hs : inv s) : Prompts t collector i members acc s (collector.gather t i values acc s).1
      (collector.gather t i values acc s).2 := by
  induction h generalizing i acc s with
  | nil => exact .nil i acc s
  | cons ha _ ih => exact .cons (ha s hs) (ih (i + 1) _ (hinv _ _ _ _ _ hs))

section Pool

variable {capacity : Nat} {limit : Option Moment} {collector : Collector σ α β} {front rest : Slots σ α}

theorem findIdx?_front {p : Slot σ α → Bool} {slot : Slot σ α} (hfront : ∀ slot ∈ front, slot = .finished)
    (hfin : p .finished = false) (hslot : p slot = true) :
    (front ++ slot :: rest).findIdx? p = some front.length := by
  have hnone : front.findIdx? p = none := by
    rw [List.findIdx?_eq_none_iff]
    intro slot hmem
    rw [hfront slot hmem, hfin]
  simp [List.findIdx?_append, hnone, List.findIdx?_cons, hslot]

theorem nextSlot?_running (hfront : ∀ slot ∈ front, slot = .finished) (a : Activity σ α) (now : Moment)
    (horizon : Nat) : nextSlot? capacity now horizon (front ++ .running a :: rest) = some front.length := by
  unfold nextSlot?
  rw [findIdx?_front hfront rfl rfl]

/-- When members only are finished or have not started, the first of the latter starts. -/
theorem nextSlot?_queued (hcapacity : 0 < capacity) (hfront : ∀ slot ∈ front, slot = .finished)
    (hrest : ∀ slot ∈ rest, slot.isQueued = true) (a : Activity σ α) (now : Moment) (horizon : Nat) :
    nextSlot? capacity now horizon (front ++ .queued a :: rest) = some front.length := by
  have hidle : ∀ slot ∈ front ++ .queued a :: rest, slot = .finished ∨ ∃ b, slot = .queued b := by
    intro slot hslot
    rcases List.mem_append.mp hslot with hslot | hslot
    · exact .inl (hfront slot hslot)
    · rcases List.mem_cons.mp hslot with rfl | hslot
      · exact .inr ⟨a, rfl⟩
      · have hqueued := hrest slot hslot
        cases slot with
        | queued b => exact .inr ⟨b, rfl⟩
        | running b => cases hqueued
        | waiting k u b => cases hqueued
        | finished => cases hqueued
  have hrunning : (front ++ .queued a :: rest).findIdx? Slot.isRunning = none := by
    rw [List.findIdx?_eq_none_iff]
    intro slot hslot
    rcases hidle slot hslot with rfl | ⟨b, rfl⟩ <;> rfl
  have hdue : ((front ++ .queued a :: rest).map (Slot.dueTicket? now horizon)).foldl least none = none := by
    rw [foldl_least_eq_none]
    refine ⟨rfl, fun x hx => ?_⟩
    obtain ⟨slot, hslot, rfl⟩ := List.mem_map.mp hx
    rcases hidle slot hslot with rfl | ⟨b, rfl⟩ <;> rfl
  have hactive : (front ++ .queued a :: rest).countP Slot.isActive = 0 := by
    rw [List.countP_eq_zero]
    intro slot hslot
    rcases hidle slot hslot with rfl | ⟨b, rfl⟩ <;> simp [Slot.isActive]
  unfold nextSlot?
  rw [hrunning, hdue, hactive]
  simp only [if_pos hcapacity]
  exact findIdx?_front hfront rfl rfl

theorem getElem?_front (front rest : Slots σ α) (slot : Slot σ α) :
    (front ++ slot :: rest)[front.length]? = some slot := by
  simp

theorem set_front (front rest : Slots σ α) (old new : Slot σ α) :
    (front ++ old :: rest).set front.length new = front ++ new :: rest := by
  simp

section Equations

variable {slots : Slots σ α} {now : Moment} {ticket horizon i : Nat} {acc : β}

/-- What a pool does when a member is to move. -/
theorem poolFrom_of_nextSlot? (hnext : nextSlot? capacity now horizon slots = some i) :
    poolFrom capacity limit collector slots now ticket horizon acc =
      match slots[i]? with
      | some (.running (.act c n)) => .act c fun t s =>
          poolFrom capacity limit collector (slots.set i (.running (n t s))) now ticket horizon acc
      | some (.running (.wait u n)) =>
        poolFrom capacity limit collector (slots.set i (.waiting ticket u n)) now (ticket + 1) horizon acc
      | some (.running (.done x)) => .act (fun t s => (collector.collect i x t s acc).2) fun t s =>
          poolFrom capacity limit collector (slots.set i .finished) now ticket horizon
            (collector.collect i x t s acc).1
      | some (.running (.crash m)) => .crash m
      | some (.waiting _ _ a) =>
        poolFrom capacity limit collector (slots.set i (.running a)) now ticket horizon acc
      | some (.queued a) => poolFrom capacity limit collector (slots.set i (.running a)) now ticket horizon acc
      | some .finished => .done acc
      | none => .done acc := by
  rw [poolFrom, hnext]
  dsimp only
  split <;> next heq => rw [heq]

/-- What a pool does when nobody is to move. -/
theorem poolFrom_of_nextSlot?_eq_none (hnext : nextSlot? capacity now horizon slots = none) :
    poolFrom capacity limit collector slots now ticket horizon acc =
      match (slots.map Slot.alarm?).foldl least none with
      | some u =>
        if limit.any (· < u) then .wait limit (.done acc)
        else match nextSlot? capacity u ticket slots with
          | none => .done acc
          | some i =>
            match slots[i]? with
            | some (.waiting _ _ a) =>
              .wait (some u) (poolFrom capacity limit collector (slots.set i (.running a)) u ticket ticket acc)
            | _ => .done acc
      | none => if slots.any Slot.isActive then .wait limit (.done acc) else .done acc := by
  rw [poolFrom, hnext]
  dsimp only
  cases (slots.map Slot.alarm?).foldl least none with
  | none => rfl
  | some u =>
    dsimp only
    by_cases hlate : limit.any (· < u) = true
    · rw [if_pos hlate, if_pos hlate]
    · rw [if_neg hlate, if_neg hlate]
      cases nextSlot? capacity u ticket slots with
      | none => rfl
      | some i =>
        dsimp only
        split
        · next hi => rw [hi]
        · next hother =>
          split
          · next hi => exact absurd hi (hother _ _ _)
          · rfl

theorem poolFrom_act {c : Moment → σ → σ} {n : Moment → σ → Activity σ α}
    (hnext : nextSlot? capacity now horizon slots = some i) (hi : slots[i]? = some (.running (.act c n))) :
    poolFrom capacity limit collector slots now ticket horizon acc =
      .act c fun t s =>
        poolFrom capacity limit collector (slots.set i (.running (n t s))) now ticket horizon acc := by
  rw [poolFrom_of_nextSlot? hnext, hi]

theorem poolFrom_done {x : α} (hnext : nextSlot? capacity now horizon slots = some i)
    (hi : slots[i]? = some (.running (.done x))) :
    poolFrom capacity limit collector slots now ticket horizon acc =
      .act (fun t s => (collector.collect i x t s acc).2) fun t s =>
        poolFrom capacity limit collector (slots.set i .finished) now ticket horizon
          (collector.collect i x t s acc).1 := by
  rw [poolFrom_of_nextSlot? hnext, hi]

theorem poolFrom_queued {a : Activity σ α} (hnext : nextSlot? capacity now horizon slots = some i)
    (hi : slots[i]? = some (.queued a)) :
    poolFrom capacity limit collector slots now ticket horizon acc =
      poolFrom capacity limit collector (slots.set i (.running a)) now ticket horizon acc := by
  rw [poolFrom_of_nextSlot? hnext, hi]

theorem poolFrom_finished (hall : ∀ slot ∈ slots, slot = .finished) :
    poolFrom capacity limit collector slots now ticket horizon acc = .done acc := by
  have hnot {p : Slot σ α → Bool} (hp : p .finished = false) : slots.findIdx? p = none := by
    rw [List.findIdx?_eq_none_iff]
    intro slot hslot
    rw [hall slot hslot, hp]
  have hleast {f : Slot σ α → Option Nat} (hf : f .finished = none) : (slots.map f).foldl least none = none := by
    rw [foldl_least_eq_none]
    refine ⟨rfl, fun x hx => ?_⟩
    obtain ⟨slot, hslot, rfl⟩ := List.mem_map.mp hx
    rw [hall slot hslot, hf]
  have hidle : slots.any Slot.isActive = false := by
    rw [List.any_eq_false]
    intro slot hslot
    rw [hall slot hslot]
    simp [Slot.isActive]
  have hnext : nextSlot? capacity now horizon slots = none := by
    unfold nextSlot?
    rw [hnot rfl, hleast rfl, hnot rfl]
    simp
  rw [poolFrom, hnext, hleast rfl, hidle]
  rfl

end Equations

/-- A member that runs and ends at once hands over its value. -/
theorem run_poolFrom_running (hfront : ∀ slot ∈ front, slot = .finished) {a : Activity σ α} {t now : Moment}
    {ticket horizon : Nat} {acc : β} {s s' : σ} {x : α} (h : Prompt t a s x s') :
    (poolFrom capacity limit collector (front ++ .running a :: rest) now ticket horizon acc).run t s =
      (poolFrom capacity limit collector (front ++ .finished :: rest) now ticket horizon
        (collector.collect front.length x t s' acc).1).run t (collector.collect front.length x t s' acc).2 := by
  induction h with
  | done x s =>
    rw [poolFrom_done (nextSlot?_running hfront _ _ _) (getElem?_front _ _ _), set_front]
    rfl
  | act _ ih =>
    rw [poolFrom_act (nextSlot?_running hfront _ _ _) (getElem?_front _ _ _)]
    simp only [set_front]
    exact ih

theorem run_poolFrom_prompts (hcapacity : 0 < capacity) {t now : Moment} {ticket horizon i : Nat}
    {members : List (Activity σ α)} {acc acc' : β} {s s' : σ} (h : Prompts t collector i members acc s acc' s')
    (hi : i = front.length) (hfront : ∀ slot ∈ front, slot = .finished) :
    (poolFrom capacity limit collector (front ++ members.map .queued) now ticket horizon acc).run t s =
      .finished acc' t s' := by
  induction h generalizing front with
  | nil i acc s =>
    rw [List.map_nil, List.append_nil, poolFrom_finished hfront]
    rfl
  | @cons i a rest acc acc' s s' s'' x ha _ ih =>
    subst hi
    have hrest : ∀ slot ∈ rest.map Slot.queued, slot.isQueued = true := by
      intro slot hslot
      obtain ⟨b, _, rfl⟩ := List.mem_map.mp hslot
      rfl
    have hfront' : ∀ slot ∈ front ++ [Slot.finished], slot = .finished := by
      intro slot hslot
      rcases List.mem_append.mp hslot with hslot | hslot
      · exact hfront slot hslot
      · exact List.mem_singleton.mp hslot
    have hnext := ih (by simp) hfront'
    rw [List.map_cons, poolFrom_queued (nextSlot?_queued hcapacity hfront hrest _ _ _) (getElem?_front _ _ _),
      set_front, run_poolFrom_running hfront ha]
    simpa using hnext

/-- A pool of activities that end at once runs them in the order of the list. -/
theorem run_pool_prompts (hcapacity : 0 < capacity) {t : Moment} {members : List (Activity σ α)} {start result : β}
    {s s' : σ} (h : Prompts t collector 0 members start s result s') :
    (pool capacity limit collector members start).run t s = .finished result t s' := by
  have hnone : ∀ slot ∈ ([] : Slots σ α), slot = .finished := by simp
  exact run_poolFrom_prompts hcapacity h rfl hnone

end Pool

end Activity
end CodeAtlas
