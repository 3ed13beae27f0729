import CodeAtlas.Proofs.Activity.Prompt

/-! Activities that take the same way. What an activity does at a moment it does to its state; another one mirrors it
that does the same at the same moments, as far as a view of the state shows. Pools of members that mirror each other
mirror each other, and come out alike. -/
namespace CodeAtlas
namespace Activity

variable {σ τ α β γ δ : Type}

/-- Whether an activity does what another one does, as far as `view` shows its state, and both end with values that
`same` relates. It may also take silent steps, which change nothing that `view` shows. -/
inductive Mirrors (view : σ → τ) (same : α → β → Prop) : Activity σ α → Activity τ β → Prop
  | done {x : α} {y : β} : same x y → Mirrors view same (.done x) (.done y)
  | crash (m : String) : Mirrors view same (.crash m) (.crash m)
  | act {c : Moment → σ → σ} {c' : Moment → τ → τ} {n : Moment → σ → Activity σ α} {n' : Moment → τ → Activity τ β} :
      (∀ t s, view (c t s) = c' t (view s)) → (∀ t s, Mirrors view same (n t s) (n' t (view s))) →
      Mirrors view same (.act c n) (.act c' n')
  | wait {u : Option Moment} {n : Activity σ α} {n' : Activity τ β} : Mirrors view same n n' →
      Mirrors view same (.wait u n) (.wait u n')
  | silent {c : Moment → σ → σ} {n : Moment → σ → Activity σ α} {b : Activity τ β} :
      (∀ t s, view (c t s) = view s) → (∀ t s, Mirrors view same (n t s) b) → Mirrors view same (.act c n) b

/-- How an outcome mirrors another one. -/
inductive Outcome.Mirrors (view : σ → τ) (same : α → β → Prop) : Outcome σ α → Outcome τ β → Prop
  | finished {x : α} {y : β} (t : Moment) (s : σ) : same x y →
      Outcome.Mirrors view same (.finished x t s) (.finished y t (view s))
  | crashed (m : String) (t : Moment) (s : σ) : Outcome.Mirrors view same (.crashed m t s) (.crashed m t (view s))
  | stuck (t : Moment) (s : σ) : Outcome.Mirrors view same (.stuck t s) (.stuck t (view s))

/-- Show of the states that an outcome leaves behind only a part. -/
def Outcome.mapState (view : σ → τ) : Outcome σ α → Outcome τ α
  | .finished x t s => .finished x t (view s)
  | .crashed m t s => .crashed m t (view s)
  | .stuck t s => .stuck t (view s)

theorem Outcome.Mirrors.eq_mapState {view : σ → τ} {same : α → α → Prop} {o : Outcome σ α} {o' : Outcome τ α}
    (h : o.Mirrors view same o') (hsame : ∀ x y, same x y → x = y) : o' = o.mapState view := by
  cases h with
  | finished t s hxy =>
    rw [hsame _ _ hxy]
    rfl
  | crashed m t s => rfl
  | stuck t s => rfl

namespace Mirrors

variable {view : σ → τ}

theorem refl (a : Activity σ α) : Mirrors id Eq a a := by
  induction a with
  | done x => exact .done rfl
  | crash m => exact .crash m
  | act c n ih => exact .act (fun _ _ => rfl) ih
  | wait u n ih => exact .wait ih

theorem mono {same same' : α → β → Prop} {a : Activity σ α} {b : Activity τ β} (h : Mirrors view same a b)
    (hsame : ∀ x y, same x y → same' x y) : Mirrors view same' a b := by
  induction h with
  | done hxy => exact .done (hsame _ _ hxy)
  | crash m => exact .crash m
  | act hc _ ih => exact .act hc ih
  | wait _ ih => exact .wait ih
  | silent hc _ ih => exact .silent hc ih

/-- One activity after the other. -/
theorem andThen {mid : γ → δ → Prop} {same : α → β → Prop} {a : Activity σ γ} {b : Activity τ δ}
    {f : γ → Activity σ α} {g : δ → Activity τ β} (h : Mirrors view mid a b)
    (hf : ∀ x y, mid x y → Mirrors view same (f x) (g y)) : Mirrors view same (a.andThen f) (b.andThen g) := by
  induction h with
  | done hxy => exact hf _ _ hxy
  | crash m => exact .crash m
  | act hc _ ih => exact .act hc ih
  | wait _ ih => exact .wait ih
  | silent hc _ ih => exact .silent hc ih

theorem now : Mirrors view Eq (now : Activity σ Moment) now := .act (fun _ _ => rfl) fun _ _ => .done rfl

theorem giveWay : Mirrors view Eq (giveWay : Activity σ Unit) giveWay :=
  .act (fun _ _ => rfl) fun _ _ => .wait (.done rfl)

/-- An activity that mirrors another one comes out like it. -/
theorem run {same : α → β → Prop} {a : Activity σ α} {b : Activity τ β} (h : Mirrors view same a b) (t : Moment)
    (s : σ) : (a.run t s).Mirrors view same (b.run t (view s)) := by
  induction h generalizing t s with
  | done hxy => exact .finished t s hxy
  | crash m => exact .crashed m t s
  | @act c c' n n' hc _ ih =>
    have hrest := ih t s t (c t s)
    rwa [hc] at hrest
  | @wait u n n' _ ih =>
    cases u with
    | none => exact .stuck t s
    | some u => exact ih (max t u) s
  | @silent c n b hc _ ih =>
    have hrest := ih t s t (c t s)
    rwa [hc] at hrest

end Mirrors

/-- The place of a member without what it still has to do. -/
def Slot.shape : Slot σ α → Slot Unit Unit
  | .queued _ => .queued (.done ())
  | .running _ => .running (.done ())
  | .waiting k u _ => .waiting k u (.done ())
  | .finished => .finished

section Shape

@[simp] theorem Slot.isRunning_shape (slot : Slot σ α) : slot.shape.isRunning = slot.isRunning := by cases slot <;> rfl

@[simp] theorem Slot.isQueued_shape (slot : Slot σ α) : slot.shape.isQueued = slot.isQueued := by cases slot <;> rfl

@[simp] theorem Slot.isActive_shape (slot : Slot σ α) : slot.shape.isActive = slot.isActive := by cases slot <;> rfl

@[simp] theorem Slot.alarm?_shape (slot : Slot σ α) : slot.shape.alarm? = slot.alarm? := by cases slot <;> rfl

@[simp] theorem Slot.dueTicket?_shape (now : Moment) (horizon : Nat) (slot : Slot σ α) :
    slot.shape.dueTicket? now horizon = slot.dueTicket? now horizon := by
  cases slot with
  | waiting k u a => cases u <;> rfl
  | queued a => rfl
  | running a => rfl
  | finished => rfl

/-- Who moves next does not depend on what the members still have to do. -/
theorem nextSlot?_shape (capacity : Nat) (now : Moment) (horizon : Nat) (slots : Slots σ α) :
    nextSlot? capacity now horizon (slots.map Slot.shape) = nextSlot? capacity now horizon slots := by
  simp [nextSlot?, List.findIdx?_map, List.countP_map, Function.comp_def]

theorem alarms_shape (slots : Slots σ α) : (slots.map Slot.shape).map Slot.alarm? = slots.map Slot.alarm? := by
  simp [Function.comp_def]

theorem any_isActive_shape (slots : Slots σ α) :
    (slots.map Slot.shape).any Slot.isActive = slots.any Slot.isActive := by
  simp [Function.comp_def]

end Shape

/-- How the place of a member mirrors that of another one. -/
inductive Slot.Mirrors (view : σ → τ) (same : α → β → Prop) : Slot σ α → Slot τ β → Prop
  | queued {a : Activity σ α} {b : Activity τ β} : a.Mirrors view same b →
      Slot.Mirrors view same (.queued a) (.queued b)
  | running {a : Activity σ α} {b : Activity τ β} : a.Mirrors view same b →
      Slot.Mirrors view same (.running a) (.running b)
  | waiting {a : Activity σ α} {b : Activity τ β} (k : Nat) (u : Option Moment) : a.Mirrors view same b →
      Slot.Mirrors view same (.waiting k u a) (.waiting k u b)
  | finished : Slot.Mirrors view same .finished .finished

theorem Slot.Mirrors.shape_eq {view : σ → τ} {same : α → β → Prop} {slot : Slot σ α} {slot' : Slot τ β}
    (h : slot.Mirrors view same slot') : slot.shape = slot'.shape := by
  cases h <;> rfl

/-- Lists of one length whose elements are related place by place. -/
structure Pairs (R : Nat → γ → δ → Prop) (l : List γ) (m : List δ) : Prop where
  length_eq : l.length = m.length
  rel : ∀ i x y, l[i]? = some x → m[i]? = some y → R i x y

namespace Pairs

variable {R : Nat → γ → δ → Prop} {l : List γ} {m : List δ}

theorem exists_right (h : Pairs R l m) {i : Nat} {x : γ} (hx : l[i]? = some x) : ∃ y, m[i]? = some y ∧ R i x y := by
  have hlt : i < m.length := by
    rw [← h.length_eq]
    exact (List.getElem?_eq_some_iff.mp hx).1
  have hy := List.getElem?_eq_getElem hlt
  exact ⟨m[i], hy, h.rel i x m[i] hx hy⟩

theorem map {R' : Nat → α → β → Prop} {f : γ → α} {g : δ → β} (h : Pairs R l m)
    (hfg : ∀ i x y, R i x y → R' i (f x) (g y)) : Pairs R' (l.map f) (m.map g) := by
  refine ⟨by simp [h.length_eq], fun i x' y' hx' hy' => ?_⟩
  rw [List.getElem?_map] at hx' hy'
  obtain ⟨x, hx, rfl⟩ := Option.map_eq_some_iff.mp hx'
  obtain ⟨y, hy, rfl⟩ := Option.map_eq_some_iff.mp hy'
  exact hfg i x y (h.rel i x y hx hy)

theorem set (h : Pairs R l m) {i : Nat} {x : γ} {y : δ} (hxy : R i x y) : Pairs R (l.set i x) (m.set i y) := by
  refine ⟨by simp [h.length_eq], fun j x' y' hx' hy' => ?_⟩
  rw [List.getElem?_set] at hx' hy'
  split at hx'
  · next hij =>
    subst hij
    rw [if_pos rfl] at hy'
    split at hx'
    · split at hy'
      · cases hx'
        cases hy'
        exact hxy
      · cases hy'
    · cases hx'
  · next hij =>
    rw [if_neg hij] at hy'
    exact h.rel j x' y' hx' hy'

/-- Only the left list changes. -/
theorem set_left (h : Pairs R l m) {i : Nat} {x : γ} {y : δ} (hy : m[i]? = some y) (hxy : R i x y) :
    Pairs R (l.set i x) m := by
  obtain ⟨hlt, rfl⟩ := List.getElem?_eq_some_iff.mp hy
  have hboth := h.set hxy
  rwa [List.set_getElem_self] at hboth

theorem zip {R' : Nat → α → β → Prop} {l' : List α} {m' : List β} (h : Pairs R l m) (h' : Pairs R' l' m') :
    Pairs (fun i p q => R i p.1 q.1 ∧ R' i p.2 q.2) (l.zip l') (m.zip m') := by
  refine ⟨by simp [h.length_eq, h'.length_eq], fun i p q hp hq => ?_⟩
  rw [List.getElem?_zip_eq_some] at hp hq
  exact ⟨h.rel i _ _ hp.1 hq.1, h'.rel i _ _ hp.2 hq.2⟩

theorem map_eq {f : γ → α} {g : δ → α} (h : Pairs R l m) (hfg : ∀ i x y, R i x y → f x = g y) :
    l.map f = m.map g := by
  refine List.ext_getElem (by simp [h.length_eq]) fun i hl hm => ?_
  rw [List.getElem_map, List.getElem_map]
  exact hfg i _ _ (h.rel i _ _ (List.getElem?_eq_getElem _) (List.getElem?_eq_getElem _))

end Pairs

section Pool

variable {view : σ → τ} {same : Nat → α → β → Prop} {sameAcc : γ → δ → Prop} {capacity : Nat} {limit : Option Moment}
  {collector : Collector σ α γ} {collector' : Collector τ β δ}

/-- Collectors that do alike with what mirrored members end with. -/
def Collector.Mirrors (view : σ → τ) (same : Nat → α → β → Prop) (sameAcc : γ → δ → Prop)
    (collector : Collector σ α γ) (collector' : Collector τ β δ) : Prop :=
  ∀ i x y t s acc acc', same i x y → sameAcc acc acc' →
    sameAcc (collector.collect i x t s acc).1 (collector'.collect i y t (view s) acc').1 ∧
      view (collector.collect i x t s acc).2 = (collector'.collect i y t (view s) acc').2

theorem mirrors_poolFrom (hcollect : collector.Mirrors view same sameAcc collector') {slots : Slots σ α}
    {slots' : Slots τ β} (hslots : Pairs (fun i => Slot.Mirrors view (same i)) slots slots') {now : Moment}
    {ticket horizon : Nat} {acc : γ} {acc' : δ} (hacc : sameAcc acc acc') :
    Mirrors view sameAcc (poolFrom capacity limit collector slots now ticket horizon acc)
      (poolFrom capacity limit collector' slots' now ticket horizon acc') := by
  have hshape : slots.map Slot.shape = slots'.map Slot.shape := hslots.map_eq fun _ _ _ h => h.shape_eq
  have hsame (now : Moment) (horizon : Nat) :
      nextSlot? capacity now horizon slots' = nextSlot? capacity now horizon slots := by
    rw [← nextSlot?_shape, ← hshape, nextSlot?_shape]
  -- along the recursion of the pool; a silent step shrinks only the slots on the left
  cases hnext : nextSlot? capacity now horizon slots with
  | none =>
    have halarms : slots'.map Slot.alarm? = slots.map Slot.alarm? := by
      rw [← alarms_shape, ← hshape, alarms_shape]
    have hany : slots'.any Slot.isActive = slots.any Slot.isActive := by
      rw [← any_isActive_shape, ← hshape, any_isActive_shape]
    rw [poolFrom_of_nextSlot?_eq_none hnext, poolFrom_of_nextSlot?_eq_none ((hsame now horizon).trans hnext), halarms,
      hany]
    split
    · next u _ =>
      split
      · exact .wait (.done hacc)
      · rw [hsame u ticket]
        split
        · exact .done hacc
        · next i hdue =>
          obtain ⟨slot, hi, -⟩ := movable_of_nextSlot? hdue
          obtain ⟨slot', hi', hslot⟩ := hslots.exists_right hi
          rw [hi, hi']
          cases hslot with
          | waiting k v hab => exact .wait (mirrors_poolFrom hcollect (hslots.set (.running hab)) hacc)
          | queued hab => exact .done hacc
          | running hab => exact .done hacc
          | finished => exact .done hacc
    · split
      · exact .wait (.done hacc)
      · exact .done hacc
  | some i =>
    have hnext' := (hsame now horizon).trans hnext
    obtain ⟨slot, hi, -⟩ := movable_of_nextSlot? hnext
    obtain ⟨slot', hi', hslot⟩ := hslots.exists_right hi
    have hmirror : poolFrom capacity limit collector' slots' now ticket horizon acc' = _ :=
      poolFrom_of_nextSlot? hnext'
    rw [hi'] at hmirror
    rw [poolFrom_of_nextSlot? hnext, hi]
    cases hslot with
    | queued hab =>
      rw [hmirror]
      exact mirrors_poolFrom hcollect (hslots.set (.running hab)) hacc
    | waiting k u hab =>
      rw [hmirror]
      exact mirrors_poolFrom hcollect (hslots.set (.running hab)) hacc
    | finished =>
      rw [hmirror]
      exact .done hacc
    | running hab =>
      cases hab with
      | @done x y hxy =>
        rw [hmirror]
        refine .act (fun t s => (hcollect i x y t s acc acc' hxy hacc).2) fun t s => ?_
        exact mirrors_poolFrom hcollect (hslots.set .finished) (hcollect i x y t s acc acc' hxy hacc).1
      | crash m =>
        rw [hmirror]
        exact .crash m
      | act hc hn =>
        rw [hmirror]
        exact .act hc fun t s => mirrors_poolFrom hcollect (hslots.set (.running (hn t s))) hacc
      | wait hn =>
        rw [hmirror]
        exact mirrors_poolFrom hcollect (hslots.set (.waiting ticket _ hn)) hacc
      | silent hc hn =>
        -- only the left pool moves; the right one stays as it is
        exact .silent hc fun t s => mirrors_poolFrom hcollect (hslots.set_left hi' (.running (hn t s))) hacc
termination_by slots
decreasing_by
  · exact Shrinks.set (.wake _ _ _) ‹_›
  · exact Shrinks.set (.start _) ‹_›
  · exact Shrinks.set (.finish _) ‹_›
  · exact Shrinks.set (.act _ _ _ _) ‹_›
  · exact Shrinks.set (.rest _ _ _) ‹_›
  · exact Shrinks.set (.act _ _ _ _) ‹_›
  · exact Shrinks.set (.wake _ _ _) ‹_›

/-- Activities that happen at once mirror others that do, with values that are related place by place. -/
theorem mirrors_together {members : List (Activity σ α)} {members' : List (Activity τ β)}
    (h : Pairs (fun i => Mirrors view (same i)) members members') :
    Mirrors view (Pairs fun i => Option.Rel (same i)) (together capacity limit members)
      (together capacity limit members') := by
  have hcollect : Collector.Mirrors view same (Pairs fun i => Option.Rel (same i)) Collector.inOrder
      Collector.inOrder := fun i x y t s acc acc' hxy hacc => ⟨hacc.set (.some hxy), rfl⟩
  exact mirrors_poolFrom hcollect (h.map fun _ _ _ => .queued) (h.map fun _ _ _ _ => .none)

end Pool

end Activity
end CodeAtlas
