import CodeAtlas.Activity.Basic

/-!
Several activities at once. A pool starts its members in order, as many at a time as its capacity allows.
A member runs until it waits; members whose moment has come go on in the order in which they began to wait,
before new ones start. When nobody can go on the pool itself waits, so that others around it go first; a
member that gives way goes on after that. What each member ends with is handed to a collector at once. A pool
is itself an activity, so pools nest; it ends because every move leaves less to do (`Shrinks`).
-/
namespace CodeAtlas.Activity

/-- The place of a member in a pool. -/
inductive Slot (σ α : Type) where
  | queued (a : Activity σ α)
  | running (a : Activity σ α)
  | waiting (ticket : Nat) (until? : Option Moment) (a : Activity σ α)
  | finished

namespace Slot

variable {σ α : Type}

/-- The moves that a member can make, from the second place to the first. -/
inductive Moves : Slot σ α → Slot σ α → Prop where
  | act (c n t s) : Moves (running (n t s)) (running (.act c n))
  | rest (k u n) : Moves (waiting k u n) (running (.wait u n))
  | finish (a) : Moves finished (running (.done a))
  | fail (m) : Moves finished (running (.crash m))
  | wake (k u a) : Moves (running a) (waiting k u a)
  | start (a) : Moves (running a) (queued a)

theorem acc_finished : Acc (Moves (σ := σ) (α := α)) finished := ⟨_, fun _ h => nomatch h⟩

theorem acc_waiting {a : Activity σ α} (h : Acc Moves (running a)) (k : Nat) (u : Option Moment) :
    Acc Moves (waiting k u a) := ⟨_, fun _ m => match m with | .wake .. => h⟩

theorem acc_queued {a : Activity σ α} (h : Acc Moves (running a)) : Acc Moves (queued a) :=
  ⟨_, fun _ m => match m with | .start .. => h⟩

theorem acc_running (a : Activity σ α) : Acc Moves (running a) := by
  induction a with
  | done a => exact ⟨_, fun _ m => match m with | .finish _ => acc_finished⟩
  | crash m => exact ⟨_, fun _ m => match m with | .fail _ => acc_finished⟩
  | act c n ih => exact ⟨_, fun _ m => match m with | .act _ _ t s => ih t s⟩
  | wait u n ih => exact ⟨_, fun _ m => match m with | .rest k _ _ => acc_waiting ih k u⟩

/-- No member moves for ever. -/
theorem acc_moves : (p : Slot σ α) → Acc Moves p
  | .queued a => acc_queued (acc_running a)
  | .running a => acc_running a
  | .waiting k u a => acc_waiting (acc_running a) k u
  | .finished => acc_finished

end Slot

/-- One element of a list has become smaller. -/
inductive Shrinks {γ : Type} (r : γ → γ → Prop) : List γ → List γ → Prop where
  | head {a b : γ} (l : List γ) : r a b → Shrinks r (a :: l) (b :: l)
  | tail (a : γ) {l m : List γ} : Shrinks r l m → Shrinks r (a :: l) (a :: m)

namespace Shrinks

variable {γ : Type} {r : γ → γ → Prop}

theorem acc_cons {a : γ} (ha : Acc r a) : ∀ {l : List γ}, Acc (Shrinks r) l → Acc (Shrinks r) (a :: l) := by
  induction ha with
  | intro a _ iha =>
    intro l hl
    induction hl with
    | intro l hl ihl =>
      refine ⟨_, fun m h => ?_⟩
      cases h with
      | head _ hr => exact iha _ hr ⟨l, hl⟩
      | tail _ hs => exact ihl _ hs

theorem acc (h : ∀ a, Acc r a) : (l : List γ) → Acc (Shrinks r) l
  | [] => ⟨_, fun _ h => nomatch h⟩
  | a :: l => acc_cons (h a) (acc h l)

theorem set {a b : γ} (h : r a b) : ∀ {l : List γ} {i : Nat}, l[i]? = some b → Shrinks r (l.set i a) l
  | [], i, hi => by simp at hi
  | c :: l, 0, hi => by
    simp only [List.getElem?_cons_zero, Option.some.injEq] at hi
    subst hi
    exact .head l h
  | c :: l, i + 1, hi => by
    simp only [List.getElem?_cons_succ] at hi
    exact .tail c (set h hi)

end Shrinks

/-- The members of a pool. -/
abbrev Slots (σ α : Type) := List (Slot σ α)

instance Slots.rel {σ α : Type} : WellFoundedRelation (Slots σ α) :=
  ⟨Shrinks Slot.Moves, ⟨Shrinks.acc Slot.acc_moves⟩⟩

namespace Slot

variable {σ α : Type}

/-- Whether a member takes up capacity. -/
def isActive : Slot σ α → Bool
  | running _ => true
  | waiting .. => true
  | _ => false

/-- Whether a member runs. -/
def isRunning : Slot σ α → Bool
  | running _ => true
  | _ => false

/-- Whether a member has not started. -/
def isQueued : Slot σ α → Bool
  | queued _ => true
  | _ => false

/-- The ticket of a member whose moment has come and whose ticket is not too new. -/
def dueTicket? (now : Moment) (horizon : Nat) : Slot σ α → Option Nat
  | waiting k (some u) _ => if u ≤ now ∧ k < horizon then some k else none
  | _ => none

/-- The moment that a member waits for. -/
def alarm? : Slot σ α → Option Moment
  | waiting _ u _ => u
  | _ => none

end Slot

/-- The smaller of two optional numbers, an absent one being larger than any other. -/
def least : Option Nat → Option Nat → Option Nat
  | some a, some b => some (min a b)
  | some a, none => some a
  | none, b => b

/-- The member to move next: the running one, else the due one with the lowest ticket, else the first one
that has not started if there is capacity. Tickets from the horizon on have to wait. -/
def nextSlot? {σ α : Type} (capacity : Nat) (now : Moment) (horizon : Nat) (slots : Slots σ α) : Option Nat :=
  match slots.findIdx? Slot.isRunning with
  | some i => some i
  | none =>
    match (slots.map (Slot.dueTicket? now horizon)).foldl least none with
    | some k => slots.findIdx? fun s => s.dueTicket? now horizon == some k
    | none =>
      if slots.countP Slot.isActive < capacity then slots.findIdx? Slot.isQueued else none

/-- What a pool does with what a member ends with. -/
structure Collector (σ α β : Type) where
  collect : Nat → α → Moment → σ → β → β × σ

/-- Run the members from the places they are in. `now` is the moment up to which waits are over, `limit`
the moment after which the pool waits no longer, `ticket` counts the waits begun, and `horizon` those begun
before the pool itself waited last. A crash of a member breaks off the pool. -/
def poolFrom {σ α β : Type} (capacity : Nat) (limit : Option Moment) (collector : Collector σ α β)
    (slots : Slots σ α) (now : Moment) (ticket horizon : Nat) (acc : β) : Activity σ β :=
  match nextSlot? capacity now horizon slots with
  | none =>
    match (slots.map Slot.alarm?).foldl least none with
    | some u =>
      if limit.any (· < u) then .wait limit (.done acc)
      else match nextSlot? capacity u ticket slots with
        | none => .done acc
        | some i =>
          match _h : slots[i]? with
          | some (.waiting _ _ a) =>
            .wait (some u) (poolFrom capacity limit collector (slots.set i (.running a)) u ticket ticket acc)
          | _ => .done acc
    | none =>
      if slots.any Slot.isActive then .wait limit (.done acc) else .done acc
  | some i =>
    match h : slots[i]? with
    | some (.running (.act c n)) =>
      .act c fun t s =>
        poolFrom capacity limit collector (slots.set i (.running (n t s))) now ticket horizon acc
    | some (.running (.wait u n)) =>
      poolFrom capacity limit collector (slots.set i (.waiting ticket u n)) now (ticket + 1) horizon acc
    | some (.running (.done a)) =>
      .act (fun t s => (collector.collect i a t s acc).2) fun t s =>
        poolFrom capacity limit collector (slots.set i .finished) now ticket horizon
          (collector.collect i a t s acc).1
    | some (.running (.crash m)) => .crash m
    | some (.waiting _ _ a) =>
      poolFrom capacity limit collector (slots.set i (.running a)) now ticket horizon acc
    | some (.queued a) =>
      poolFrom capacity limit collector (slots.set i (.running a)) now ticket horizon acc
    | some .finished => .done acc
    | none => .done acc
termination_by slots
decreasing_by
  · exact Shrinks.set (.wake _ _ _) _h
  · exact Shrinks.set (.act _ _ _ _) h
  · exact Shrinks.set (.rest _ _ _) h
  · exact Shrinks.set (.finish _) h
  · exact Shrinks.set (.wake _ _ _) h
  · exact Shrinks.set (.start _) h

/-- Run activities at once, `capacity` at a time, no longer than up to a moment if there is one. -/
def pool {σ α β : Type} (capacity : Nat) (limit : Option Moment) (collector : Collector σ α β)
    (members : List (Activity σ α)) (start : β) : Activity σ β :=
  poolFrom capacity limit collector (members.map .queued) 0 0 0 start

/-- The collector that keeps each member's value at the member's place. -/
def Collector.inOrder {σ α : Type} : Collector σ α (List (Option α)) where
  collect i a _ s acc := (acc.set i (some a), s)

/-- Run activities at once and give their values in the order of the list, those that ended in time. -/
def together {σ α : Type} (capacity : Nat) (limit : Option Moment) (members : List (Activity σ α)) :
    Activity σ (List (Option α)) :=
  pool capacity limit .inOrder members (members.map fun _ => none)

end CodeAtlas.Activity
