import CodeAtlas.Proofs.Activity.Pool
import CodeAtlas.Proofs.Activity.TurnsOut

/-! An activity that happens alone, however it comes out: with a value, with a crash or not at all. One that keeps a view
leaves it as it was, and a pool keeps a view that all its members and its collector keep. From every state in which
something holds an activity may come to an end in such a state again, unless it crashes, and what follows it begins
there. -/
namespace CodeAtlas
namespace Activity

variable {σ α β ρ : Type} {view : σ → ρ}

namespace Keeps

theorem modify {f : σ → σ} (h : ∀ s, view (f s) = view s) : (modify f).Keeps view := fun _ s => ⟨h s, trivial⟩

theorem giveWay : (giveWay : Activity σ Unit).Keeps view := fun _ _ => ⟨rfl, trivial⟩

theorem now_andThen {f : Moment → Activity σ α} (h : ∀ t, (f t).Keeps view) : (now.andThen f).Keeps view :=
  fun t _ => ⟨rfl, h t⟩

theorem catchCrash {a : Activity σ α} (h : a.Keeps view) : (catchCrash a).Keeps view := by
  induction a with
  | done x => trivial
  | crash m => trivial
  | act c n ih => exact fun t s => ⟨(h t s).1, ih t s (h t s).2⟩
  | wait u n ih => exact ih h

/-- However it comes out, an activity has kept the view. -/
theorem state_eq {a : Activity σ α} (h : a.Keeps view) (t : Moment) (s : σ) : view (a.run t s).state = view s := by
  induction a generalizing t s with
  | done x => rfl
  | crash m => rfl
  | act c n ih => exact (ih t s (h t s).2 t (c t s)).trans (h t s).1
  | wait u n ih =>
    cases u with
    | none => rfl
    | some u => exact ih h (max t u) s

end Keeps

/-- Whether a member of a pool keeps a view in all that it still has to do. -/
def Slot.Keeps (view : σ → ρ) : Slot σ α → Prop
  | .queued a => a.Keeps view
  | .running a => a.Keeps view
  | .waiting _ _ a => a.Keeps view
  | .finished => True

/-- A pool on its way whose members all keep a view. -/
structure Keeping (view : σ → ρ) (slots : Slots σ α) (ended : List (Nat × α)) (ticket : Nat) : Prop
    extends Booked slots ended ticket where
  keeps : ∀ (i : Nat) (slot : Slot σ α), slots[i]? = some slot → slot.Keeps view

namespace Keeping

variable {slots : Slots σ α} {ended ended' : List (Nat × α)} {ticket ticket' i : Nat}

theorem move {old new : Slot σ α} (h : Keeping view slots ended ticket) (hi : slots[i]? = some old)
    (hbooked : Booked (slots.set i new) ended' ticket') (hnew : new.Keeps view) :
    Keeping view (slots.set i new) ended' ticket' := by
  refine ⟨hbooked, fun j slot hj => ?_⟩
  rw [getElem?_set_of_some new hi] at hj
  split at hj
  · cases hj
    exact hnew
  · exact h.keeps j slot hj

/-- A member that starts, takes a step or goes on after a wait leaves the pool on its way. -/
theorem goOn {old : Slot σ α} {a : Activity σ α} (h : Keeping view slots ended ticket) (hi : slots[i]? = some old)
    (hold : old ≠ .finished) (ha : a.Keeps view) : Keeping view (slots.set i (.running a)) ended ticket :=
  h.move hi (h.toBooked.goOn a hi hold) ha

theorem rest {u : Option Moment} {n : Activity σ α} (h : Keeping view slots ended ticket)
    (hi : slots[i]? = some (.running (.wait u n))) :
    Keeping view (slots.set i (.waiting ticket u n)) ended (ticket + 1) :=
  h.move hi (h.toBooked.rest hi) (h.keeps i (.running (.wait u n)) hi)

theorem finish {x : α} (h : Keeping view slots ended ticket) (hi : slots[i]? = some (.running (.done x))) :
    Keeping view (slots.set i .finished) (ended ++ [(i, x)]) ticket :=
  h.move hi (h.toBooked.finish hi nofun x) trivial

theorem start {members : List (Activity σ α)} (h : ∀ a ∈ members, a.Keeps view) :
    Keeping view (members.map .queued) [] 0 := by
  refine ⟨.start members, fun i slot hi => ?_⟩
  obtain ⟨a, ha, rfl⟩ := List.mem_map.mp (List.mem_of_getElem? hi)
  exact h a ha

end Keeping

namespace Keeps

variable {collector : Collector σ α β}

/-- A pool changes nothing that its members and its collector leave alone. -/
theorem poolFrom (capacity : Nat) (limit : Option Moment)
    (hcollector : ∀ i x t s acc, view (collector.collect i x t s acc).2 = view s) {slots : Slots σ α}
    {ended : List (Nat × α)} {ticket : Nat} (h : Keeping view slots ended ticket) (now : Moment) (horizon : Nat)
    (acc : β) : (poolFrom capacity limit collector slots now ticket horizon acc).Keeps view := by
  have hnext := next_poolFrom capacity limit collector now horizon acc h.tickets
  -- along the recursion of the pool, whose slots shrink, one case for each of its moves
  generalize Activity.poolFrom capacity limit collector slots now ticket horizon acc = p at hnext ⊢
  cases hnext with
  | act hslot =>
    intro t s
    obtain ⟨hsame, hnext⟩ := h.keeps _ _ hslot t s
    exact ⟨hsame, Keeps.poolFrom capacity limit hcollector (h.goOn hslot nofun hnext) _ _ _⟩
  | rest hslot => exact Keeps.poolFrom capacity limit hcollector (h.rest hslot) _ _ _
  | finish hslot =>
    exact fun t s => ⟨hcollector _ _ t s acc, Keeps.poolFrom capacity limit hcollector (h.finish hslot) _ _ _⟩
  | fail => trivial
  | wake hslot =>
    exact Keeps.poolFrom capacity limit hcollector (h.goOn hslot nofun (h.keeps _ _ hslot)) _ _ _
  | start hslot =>
    exact Keeps.poolFrom capacity limit hcollector (h.goOn hslot nofun (h.keeps _ _ hslot)) _ _ _
  | alarm _ _ _ hslot =>
    exact Keeps.poolFrom capacity limit hcollector (h.goOn hslot nofun (h.keeps _ _ hslot)) _ _ _
  | cut => trivial
  | stuck => trivial
  | ends => trivial
termination_by slots
decreasing_by
  · exact Shrinks.set (.act _ _ _ _) ‹_›
  · exact Shrinks.set (.rest _ _ _) ‹_›
  · exact Shrinks.set (.finish _) ‹_›
  · exact Shrinks.set (.wake _ _ _) ‹_›
  · exact Shrinks.set (.start _) ‹_›
  · exact Shrinks.set (.wake _ _ _) ‹_›

theorem pool (capacity : Nat) (limit : Option Moment)
    (hcollector : ∀ i x t s acc, view (collector.collect i x t s acc).2 = view s) {members : List (Activity σ α)}
    (h : ∀ a ∈ members, a.Keeps view) (start : β) : (pool capacity limit collector members start).Keeps view :=
  Keeps.poolFrom capacity limit hcollector (Keeping.start h) 0 0 start

theorem together (capacity : Nat) (limit : Option Moment) {members : List (Activity σ α)}
    (h : ∀ a ∈ members, a.Keeps view) : (together capacity limit members).Keeps view :=
  Keeps.pool capacity limit (fun _ _ _ _ _ => rfl) h _

end Keeps

/-- The value that an outcome has, if any. -/
def Outcome.value? : Outcome σ α → Option α
  | .finished x _ _ => some x
  | .crashed .. => none
  | .stuck .. => none

/-- Whether an activity that happens alone where a view shows `before` leaves it as `post` says, given the value that the
activity ends with, if any. -/
def Leaves (view : σ → ρ) (before : ρ) (post : Option α → ρ → Prop) (a : Activity σ α) : Prop :=
  ∀ t s, view s = before → post (a.run t s).value? (view (a.run t s).state)

namespace Leaves

variable {before : ρ} {post : Option α → ρ → Prop}

theorem done {x : α} (h : post (some x) before) : (done x : Activity σ α).Leaves view before post := by
  rintro t s rfl
  exact h

theorem crash {m : String} (h : post none before) : (crash m : Activity σ α).Leaves view before post := by
  rintro t s rfl
  exact h

theorem act {c : Moment → σ → σ} {n : Moment → σ → Activity σ α}
    (h : ∀ t s, view s = before → (n t s).Leaves view (view (c t s)) post) : (act c n).Leaves view before post :=
  fun t s hs => h t s hs t (c t s) rfl

theorem wait {u : Option Moment} {n : Activity σ α} (h : n.Leaves view before post) (hnone : post none before) :
    (wait u n).Leaves view before post := by
  rintro t s rfl
  cases u with
  | none => exact hnone
  | some u => exact h (max t u) s rfl

/-- One activity after the other. -/
theorem andThen {middle : Option β → ρ → Prop} {a : Activity σ β} {f : β → Activity σ α}
    (h : a.Leaves view before middle) (hnone : ∀ now, middle none now → post none now)
    (hf : ∀ x now, middle (some x) now → (f x).Leaves view now post) : (a.andThen f).Leaves view before post := by
  intro t s hs
  have hleft := h t s hs
  cases hrun : a.run t s with
  | finished x t' s' =>
    rw [hrun] at hleft
    rw [run_andThen_of_run hrun]
    exact hf x _ hleft t' s' rfl
  | crashed m t' s' =>
    rw [hrun] at hleft
    rw [run_andThen_of_crash hrun]
    exact hnone _ hleft
  | stuck t' s' =>
    rw [hrun] at hleft
    rw [run_andThen_of_stuck hrun]
    exact hnone _ hleft

/-- An activity that keeps the view, with what it comes to. -/
theorem of_keeps {p : α → Prop} {a : Activity σ α} (h : a.Keeps view)
    (hturns : ∀ t, a.TurnsOut True (fun r _ => ∀ x, r = .ok x → p x) t) :
    a.Leaves view before fun value now => now = before ∧ ∀ x, value = some x → p x := by
  rintro t s rfl
  refine ⟨h.state_eq t s, fun x hx => ?_⟩
  rcases (hturns t).run s with ⟨y, t', s', hrun, hy⟩ | ⟨m, t', s', hrun, -⟩ | ⟨t', s', hrun, -⟩
  · rw [hrun] at hx
    cases hx
    exact hy x rfl
  · rw [hrun] at hx
    cases hx
  · rw [hrun] at hx
    cases hx

/-- What follows an activity that keeps the view. -/
theorem andThen_of_keeps {p : β → Prop} {a : Activity σ β} {f : β → Activity σ α} (h : a.Keeps view)
    (hturns : ∀ t, a.TurnsOut True (fun r _ => ∀ x, r = .ok x → p x) t) (hnone : post none before)
    (hf : ∀ x, p x → (f x).Leaves view before post) : (a.andThen f).Leaves view before post := by
  refine andThen (of_keeps h hturns) ?_ ?_
  · rintro _ ⟨rfl, -⟩
    exact hnone
  · rintro x _ ⟨rfl, hp⟩
    exact hf x (hp x rfl)

/-- An activity that keeps the view and ends at once. -/
theorem of_immediate {p : α → Prop} {a : Activity σ α} (h : a.Keeps view) (himmediate : a.Immediate p)
    (hpost : ∀ x, p x → post (some x) before) : a.Leaves view before post := by
  rintro t s rfl
  obtain ⟨x, t', s', hrun, hp⟩ := ((himmediate t).mono id fun _ _ _ h => h.2).exists_run (p := fun x _ => p x) s
  have hstate := h.state_eq t s
  rw [hrun] at hstate ⊢
  rw [hstate]
  exact hpost x hp

end Leaves

section Pool

variable {limit : Option Moment} {collector : Collector σ α β} {inv : ρ → β → Prop}

/-- What a pool leaves of a view that its members keep: what its collector keeps in step with what is added up is in step
with the result. -/
theorem leaves_poolFrom (capacity : Nat)
    (hcollector : ∀ i x t s acc, inv (view s) acc →
      inv (view (collector.collect i x t s acc).2) (collector.collect i x t s acc).1)
    {slots : Slots σ α} {ended : List (Nat × α)} {ticket : Nat} (h : Keeping view slots ended ticket) (now : Moment)
    (horizon : Nat) {before : ρ} {acc : β} (hinv : inv before acc) :
    (poolFrom capacity limit collector slots now ticket horizon acc).Leaves view before
      fun value after => ∃ acc', inv after acc' ∧ ∀ result, value = some result → result = acc' := by
  have hnone : ∃ acc', inv before acc' ∧ ∀ result, (none : Option β) = some result → result = acc' :=
    ⟨acc, hinv, nofun⟩
  have hdone : ∃ acc', inv before acc' ∧ ∀ result, some acc = some result → result = acc' :=
    ⟨acc, hinv, fun _ heq => (Option.some.inj heq).symm⟩
  have hnext := next_poolFrom capacity limit collector now horizon acc h.tickets
  -- along the recursion of the pool, whose slots shrink, one case for each of its moves
  generalize poolFrom capacity limit collector slots now ticket horizon acc = p at hnext ⊢
  cases hnext with
  | act hslot =>
    refine .act fun t s hs => ?_
    obtain ⟨hsame, hnext⟩ := h.keeps _ _ hslot t s
    rw [hsame, hs]
    exact leaves_poolFrom capacity hcollector (h.goOn hslot nofun hnext) _ _ hinv
  | rest hslot => exact leaves_poolFrom capacity hcollector (h.rest hslot) _ _ hinv
  | finish hslot =>
    refine .act fun t s hs => ?_
    exact leaves_poolFrom capacity hcollector (h.finish hslot) _ _ (hcollector _ _ t s acc (hs ▸ hinv))
  | fail => exact .crash hnone
  | wake hslot => exact leaves_poolFrom capacity hcollector (h.goOn hslot nofun (h.keeps _ _ hslot)) _ _ hinv
  | start hslot => exact leaves_poolFrom capacity hcollector (h.goOn hslot nofun (h.keeps _ _ hslot)) _ _ hinv
  | alarm _ _ _ hslot =>
    exact .wait (leaves_poolFrom capacity hcollector (h.goOn hslot nofun (h.keeps _ _ hslot)) _ _ hinv) hnone
  | cut => exact .wait (.done hdone) hnone
  | stuck => exact .wait (.done hdone) hnone
  | ends => exact .done hdone
termination_by slots
decreasing_by
  · exact Shrinks.set (.act _ _ _ _) ‹_›
  · exact Shrinks.set (.rest _ _ _) ‹_›
  · exact Shrinks.set (.finish _) ‹_›
  · exact Shrinks.set (.wake _ _ _) ‹_›
  · exact Shrinks.set (.start _) ‹_›
  · exact Shrinks.set (.wake _ _ _) ‹_›

theorem leaves_pool (capacity : Nat) (limit : Option Moment)
    (hcollector : ∀ i x t s acc, inv (view s) acc →
      inv (view (collector.collect i x t s acc).2) (collector.collect i x t s acc).1)
    {members : List (Activity σ α)} (h : ∀ a ∈ members, a.Keeps view) {before : ρ} {start : β}
    (hinv : inv before start) :
    (pool capacity limit collector members start).Leaves view before
      fun value after => ∃ acc, inv after acc ∧ ∀ result, value = some result → result = acc :=
  leaves_poolFrom capacity hcollector (Keeping.start h) 0 0 hinv

end Pool

theorem Yields.mono {p q : α → Prop} {a : Activity σ α} (h : a.Yields p) (hpq : ∀ x, p x → q x) : a.Yields q := by
  induction a with
  | done x => exact hpq x h
  | crash m => trivial
  | act c n ih => exact fun t s => ih t s (h t s)
  | wait u n ih => exact ih h

/-- What an activity yields is what it turns out to yield. -/
theorem Yields.turnsOut {p : α → Prop} {a : Activity σ α} (h : a.Yields p) (t : Moment) :
    a.TurnsOut True (fun r _ => ∀ x, r = .ok x → p x) t := by
  induction a generalizing t with
  | done x =>
    rintro _ ⟨⟩
    exact h
  | crash m => nofun
  | act c n ih => exact fun s => ih t s (h t s) t
  | wait u n ih =>
    cases u with
    | none => trivial
    | some u => exact ih h (max t u)

/-- Whether an outcome is an end, in a state that satisfies `inv` unless it is a crash, and as `post` says. -/
def Outcome.IsEnd (inv : σ → Prop) (post : Except String α → Moment → Prop) : Outcome σ α → Prop
  | .finished x t s => inv s ∧ post (.ok x) t
  | .crashed m t _ => post (.error m) t
  | .stuck _ _ => False

/-- Whether an activity that begins at a moment and happens alone comes to an end from all states that satisfy `inv`. -/
def ComesOut (inv : σ → Prop) (post : Except String α → Moment → Prop) (a : Activity σ α) (t : Moment) : Prop :=
  ∀ s, inv s → (a.run t s).IsEnd inv post

namespace ComesOut

variable {inv : σ → Prop} {post post' : Except String α → Moment → Prop} {a : Activity σ α} {t : Moment}

theorem mono (h : a.ComesOut inv post t) (hpost : ∀ r t', post r t' → post' r t') : a.ComesOut inv post' t := by
  intro s hs
  have hend := h s hs
  cases hrun : a.run t s with
  | finished x t' s' =>
    rw [hrun] at hend
    exact ⟨hend.1, hpost _ _ hend.2⟩
  | crashed m t' s' =>
    rw [hrun] at hend
    exact hpost _ _ hend
  | stuck t' s' =>
    rw [hrun] at hend
    exact hend

theorem done {x : α} (h : post (.ok x) t) : (done x : Activity σ α).ComesOut inv post t := fun _ hs => ⟨hs, h⟩

/-- One activity after the other. -/
theorem andThen {middle : Except String β → Moment → Prop} {b : Activity σ β} {f : β → Activity σ α}
    (h : b.ComesOut inv middle t) (hok : ∀ x t', middle (.ok x) t' → (f x).ComesOut inv post t')
    (herror : ∀ m t', middle (.error m) t' → post (.error m) t') : (b.andThen f).ComesOut inv post t := by
  intro s hs
  have hend := h s hs
  cases hrun : b.run t s with
  | finished x t' s' =>
    rw [hrun] at hend
    rw [run_andThen_of_run hrun]
    exact hok x t' hend.2 s' hend.1
  | crashed m t' s' =>
    rw [hrun] at hend
    rw [run_andThen_of_crash hrun]
    exact herror m t' hend
  | stuck t' s' =>
    rw [hrun] at hend
    exact hend.elim

/-- What follows an activity that never crashes. -/
theorem andThen_of_ok {b : Activity σ β} {f : β → Activity σ α} (h : b.ComesOut inv (fun r _ => ∃ x, r = .ok x) t)
    (hf : ∀ x t', (f x).ComesOut inv post t') : (b.andThen f).ComesOut inv post t := by
  refine h.andThen (fun x t' _ => hf x t') ?_
  rintro m t' ⟨_, ⟨⟩⟩

/-- What follows an activity that ends with a known value. -/
theorem andThen_of_eq {x : β} {b : Activity σ β} {f : β → Activity σ α}
    (h : b.ComesOut inv (fun r _ => r = .ok x) t) (hf : ∀ t', (f x).ComesOut inv post t') :
    (b.andThen f).ComesOut inv post t := by
  refine h.andThen ?_ nofun
  rintro y t' ⟨⟩
  exact hf t'

/-- One step that changes a part of the state. -/
theorem updatePart {part : Part σ β} {f : Moment → β → α × β}
    (h : ∀ s, inv s → inv (part.set (f t (part.get s)).2 s) ∧ post (.ok (f t (part.get s)).1) t) :
    (Activity.updatePart part f).ComesOut inv post t := h

/-- How an activity ends whose value is known. -/
theorem exists_run {x : α} (h : a.ComesOut inv (fun r _ => r = .ok x) t) {s : σ} (hs : inv s) :
    ∃ t' s', a.run t s = .finished x t' s' ∧ inv s' := by
  have hend := h s hs
  cases hrun : a.run t s with
  | finished y t' s' =>
    rw [hrun] at hend
    obtain ⟨hinv, ⟨⟩⟩ := hend
    exact ⟨t', s', rfl, hinv⟩
  | crashed m t' s' =>
    rw [hrun] at hend
    cases hend
  | stuck t' s' =>
    rw [hrun] at hend
    exact hend.elim

end ComesOut
end Activity
end CodeAtlas
