import CodeAtlas.Activity.Basic
import Mathlib.Logic.Nonempty

/-! How an activity turns out that begins at a moment, whatever others do to the state between its steps. Time is
exact: an activity that waits for a moment goes on at that moment, or at once when it has passed. -/
namespace CodeAtlas
namespace Activity

variable {σ α β : Type}

/-- Whether an activity that begins at a moment can only turn out as `post` says, by its value or the message of its
crash and by the moment at which it comes to that. `stalls` is what has to hold when it waits for ever. -/
def TurnsOut (stalls : Prop) (post : Except String α → Moment → Prop) : Activity σ α → Moment → Prop
  | done a, t => post (.ok a) t
  | crash m, t => post (.error m) t
  | act _ n, t => ∀ s, TurnsOut stalls post (n t s) t
  | wait (some u) n, t => TurnsOut stalls post n (max t u)
  | wait none _, _ => stalls

/-- An activity that always comes to an end, be it a crash. -/
def Ceases (a : Activity σ α) : Prop := ∀ t, a.TurnsOut False (fun _ _ => True) t

/-- An activity that ends at once with a value that satisfies `p`. -/
def Immediate (p : α → Prop) (a : Activity σ α) : Prop :=
  ∀ t, a.TurnsOut False (fun r t' => t' = t ∧ ∃ x, r = .ok x ∧ p x) t

/-- An activity that comes to an end without a crash when it begins at a moment. -/
structure Concludes (a : Activity σ α) (t : Moment) : Prop where
  turnsOut : a.TurnsOut False (fun r _ => ∃ x, r = .ok x) t

/-- An activity that never crashes, though it may wait for ever. -/
def Safe (a : Activity σ α) : Prop := ∀ t, a.TurnsOut True (fun r _ => ∃ x, r = .ok x) t

namespace TurnsOut

variable {stalls stalls' : Prop} {post post' : Except String α → Moment → Prop} {t : Moment}

theorem mono {a : Activity σ α} (h : a.TurnsOut stalls post t) (hstalls : stalls → stalls')
    (hpost : ∀ r t', t ≤ t' → post r t' → post' r t') : a.TurnsOut stalls' post' t := by
  induction a generalizing t with
  | done x => exact hpost _ _ (Nat.le_refl t) h
  | crash m => exact hpost _ _ (Nat.le_refl t) h
  | act c n ih => exact fun s => ih t s (h s) hpost
  | wait u n ih =>
    cases u with
    | none => exact hstalls h
    | some u => exact ih h fun r t' ht' => hpost r t' (Nat.le_trans (Nat.le_max_left t u) ht')

theorem and {a : Activity σ α} (h : a.TurnsOut stalls post t) (h' : a.TurnsOut stalls' post' t) :
    a.TurnsOut (stalls ∧ stalls') (fun r t' => post r t' ∧ post' r t') t := by
  induction a generalizing t with
  | done x => exact ⟨h, h'⟩
  | crash m => exact ⟨h, h'⟩
  | act c n ih => exact fun s => ih t s (h s) (h' s)
  | wait u n ih =>
    cases u with
    | none => exact ⟨h, h'⟩
    | some u => exact ih h h'

/-- One activity after the other. -/
theorem andThen {middle : Except String β → Moment → Prop} {a : Activity σ β} {f : β → Activity σ α}
    (h : a.TurnsOut stalls middle t) (hok : ∀ x t', t ≤ t' → middle (.ok x) t' → (f x).TurnsOut stalls post t')
    (herror : ∀ m t', t ≤ t' → middle (.error m) t' → post (.error m) t') :
    (a.andThen f).TurnsOut stalls post t := by
  induction a generalizing t with
  | done x => exact hok x t (Nat.le_refl t) h
  | crash m => exact herror m t (Nat.le_refl t) h
  | act c n ih => exact fun s => ih t s (h s) hok herror
  | wait u n ih =>
    cases u with
    | none => exact h
    | some u =>
      have hle := Nat.le_max_left t u
      exact ih h (fun x t' ht' => hok x t' (Nat.le_trans hle ht')) fun m t' ht' => herror m t' (Nat.le_trans hle ht')

/-- What follows an activity that ends at once. -/
theorem andThen_of_immediate {p : β → Prop} {a : Activity σ β} {f : β → Activity σ α} (h : a.Immediate p)
    (hf : ∀ x, p x → (f x).TurnsOut stalls post t) : (a.andThen f).TurnsOut stalls post t := by
  refine andThen ((h t).mono False.elim fun _ _ _ h => h) ?_ ?_
  · rintro x t' - ⟨rfl, y, hy, hp⟩
    cases hy
    exact hf x hp
  · rintro m t' - ⟨-, y, hy, -⟩
    cases hy

/-- Nothing follows an activity that crashes. -/
theorem andThen_of_crash {a : Activity σ β} {f : β → Activity σ α}
    (h : a.TurnsOut stalls (fun r t' => ∃ m, r = .error m ∧ post (.error m) t') t) :
    (a.andThen f).TurnsOut stalls post t := by
  refine h.andThen ?_ ?_
  · rintro x t' - ⟨m, ⟨⟩, _⟩
  · rintro m t' - ⟨_, ⟨⟩, hpost⟩
    exact hpost

/-- A crash that is caught is a value. -/
theorem catchCrash {post : Except String (Except String α) → Moment → Prop} {a : Activity σ α}
    (h : a.TurnsOut stalls (fun r t' => post (.ok r) t') t) : (catchCrash a).TurnsOut stalls post t := by
  induction a generalizing t with
  | done x => exact h
  | crash m => exact h
  | act c n ih => exact fun s => ih t s (h s)
  | wait u n ih =>
    cases u with
    | none => exact h
    | some u => exact ih h

theorem now_andThen {f : Moment → Activity σ α} (h : (f t).TurnsOut stalls post t) :
    (now.andThen f).TurnsOut stalls post t := fun _ => h

/-- Others go first, but no time passes. -/
theorem giveWay_andThen {f : Unit → Activity σ α} (h : (f ()).TurnsOut stalls post t) :
    (giveWay.andThen f).TurnsOut stalls post t := by
  intro s
  show (f ()).TurnsOut stalls post (max t t)
  rwa [Nat.max_self]

/-- Nothing is asked of an activity that may do anything. -/
theorem trivial (a : Activity σ α) (t : Moment) : a.TurnsOut True (fun _ _ => True) t := by
  induction a generalizing t with
  | done x => exact True.intro
  | crash m => exact True.intro
  | act c n ih => exact fun s => ih t s t
  | wait u n ih =>
    cases u with
    | none => exact True.intro
    | some u => exact ih (max t u)

/-- An activity that happens turns out as it has to. -/
theorem run {a : Activity σ α} (h : a.TurnsOut stalls post t) (s : σ) :
    (∃ x t' s', a.run t s = .finished x t' s' ∧ post (.ok x) t') ∨
      (∃ m t' s', a.run t s = .crashed m t' s' ∧ post (.error m) t') ∨
      (∃ t' s', a.run t s = .stuck t' s' ∧ stalls) := by
  induction a generalizing t s with
  | done x => exact .inl ⟨x, t, s, rfl, h⟩
  | crash m => exact .inr (.inl ⟨m, t, s, rfl, h⟩)
  | act c n ih => exact ih t s (h s) (c t s)
  | wait u n ih =>
    cases u with
    | none => exact .inr (.inr ⟨t, s, rfl, h⟩)
    | some u => exact ih h s

/-- An activity that neither crashes nor waits for ever ends. -/
theorem exists_run {p : α → Moment → Prop} {a : Activity σ α}
    (h : a.TurnsOut False (fun r t' => ∃ x, r = .ok x ∧ p x t') t) (s : σ) :
    ∃ x t' s', a.run t s = .finished x t' s' ∧ p x t' := by
  rcases h.run s with ⟨x, t', s', hrun, y, hy, hp⟩ | ⟨m, t', s', _, y, hy, _⟩ | ⟨_, _, _, hfalse⟩
  · cases hy
    exact ⟨x, t', s', hrun, hp⟩
  · cases hy
  · exact hfalse.elim

/-- An activity that does not wait for ever comes out somehow. -/
theorem exists_outcome [Nonempty σ] {a : Activity σ α} (h : a.TurnsOut stalls post t) :
    stalls ∨ ∃ r t', t ≤ t' ∧ post r t' := by
  have hlater : a.TurnsOut stalls (fun r t' => t ≤ t' ∧ post r t') t := h.mono id fun r t' ht' hpost => ⟨ht', hpost⟩
  rcases hlater.run (Classical.arbitrary σ) with ⟨x, t', _, _, hx⟩ | ⟨m, t', _, _, hm⟩ | ⟨_, _, _, hstalls⟩
  · exact .inr ⟨.ok x, t', hx⟩
  · exact .inr ⟨.error m, t', hm⟩
  · exact .inl hstalls

end TurnsOut

namespace Immediate

variable {p : α → Prop}

theorem done {x : α} (h : p x) : (done x : Activity σ α).Immediate p := fun _ => ⟨rfl, x, rfl, h⟩

theorem now : (now : Activity σ Moment).Immediate fun _ => True := fun t _ => ⟨rfl, t, rfl, trivial⟩

theorem get : (get : Activity σ σ).Immediate fun _ => True := fun _ s => ⟨rfl, s, rfl, trivial⟩

theorem modify (f : σ → σ) : (modify f).Immediate fun _ => True := fun _ _ => ⟨rfl, (), rfl, trivial⟩

theorem andThen {q : β → Prop} {a : Activity σ β} {f : β → Activity σ α} (h : a.Immediate q)
    (hf : ∀ x, q x → (f x).Immediate p) : (a.andThen f).Immediate p :=
  fun t => TurnsOut.andThen_of_immediate h fun x hx => hf x hx t

end Immediate

namespace Safe

theorem done (x : α) : (done x : Activity σ α).Safe := fun _ => ⟨x, rfl⟩

theorem andThen {a : Activity σ β} {f : β → Activity σ α} (h : a.Safe) (hf : ∀ x, (f x).Safe) : (a.andThen f).Safe :=
  fun t => (h t).andThen (fun x t' _ _ => hf x t') fun _ _ _ ⟨_, hm⟩ => nomatch hm

end Safe

/-- Whether an activity that begins at one of some moments can go on as another one at a moment, in some states. -/
inductive Leads (begins : Moment → Prop) (a : Activity σ α) : Activity σ α → Moment → Prop
  | start {t : Moment} : begins t → Leads begins a a t
  | act {c : Moment → σ → σ} {n : Moment → σ → Activity σ α} {t : Moment} (s : σ) :
      Leads begins a (.act c n) t → Leads begins a (n t s) t
  | wait {u t : Moment} {n : Activity σ α} : Leads begins a (.wait (some u) n) t → Leads begins a n (max t u)

/-- Properties of an activity at a moment that it keeps while it goes on, whatever others do to the state. -/
structure Lasting (R : Activity σ α → Moment → Prop) : Prop where
  act : ∀ {c : Moment → σ → σ} {n : Moment → σ → Activity σ α} {t : Moment}, R (.act c n) t → ∀ s, R (n t s) t
  wait : ∀ {u t : Moment} {n : Activity σ α}, R (.wait (some u) n) t → R n (max t u)

namespace Lasting

theorem turnsOut (stalls : Prop) (post : Except String α → Moment → Prop) :
    Lasting (TurnsOut (σ := σ) stalls post) where
  act h := h
  wait h := h

theorem leads (begins : Moment → Prop) (a : Activity σ α) : Lasting (Leads begins a) where
  act h s := .act s h
  wait h := .wait h

theorem of_leads {R : Activity σ α → Moment → Prop} (hR : Lasting R) {begins : Moment → Prop} {a b : Activity σ α}
    {t : Moment} (h : Leads begins a b t) (ha : ∀ t', begins t' → R a t') : R b t := by
  induction h with
  | start ht => exact ha _ ht
  | act s _ ih => exact hR.act ih s
  | wait _ ih => exact hR.wait ih

end Lasting

/-- Whether an activity can end with a value or crash with a message, at some moment and in some states. -/
def MayEnd (a : Activity σ α) : Except String α → Prop
  | .ok x => ∃ t, Leads (fun _ => True) a (.done x) t
  | .error m => ∃ t, Leads (fun _ => True) a (.crash m) t

/-- What an activity comes to is something that it can come to. -/
theorem TurnsOut.mayEnd {stalls : Prop} {post : Except String α → Moment → Prop} {a : Activity σ α} {t : Moment}
    (h : a.TurnsOut stalls post t) : a.TurnsOut stalls (fun r t' => post r t' ∧ a.MayEnd r) t := by
  have hall : ∀ (b : Activity σ α) t, Leads (fun _ => True) a b t → b.TurnsOut stalls post t →
      b.TurnsOut stalls (fun r t' => post r t' ∧ a.MayEnd r) t := by
    intro b
    induction b with
    | done x => exact fun t hleads hb => ⟨hb, t, hleads⟩
    | crash m => exact fun t hleads hb => ⟨hb, t, hleads⟩
    | act c n ih => exact fun t hleads hb s => ih t s t (hleads.act s) (hb s)
    | wait u n ih =>
      intro t hleads hb
      cases u with
      | none => exact hb
      | some u => exact ih (max t u) hleads.wait hb
  exact hall a t (.start True.intro) h

end Activity
end CodeAtlas
