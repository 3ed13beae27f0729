import CodeAtlas.Activity.Basic

/-! What an activity does among others. `rely` is what the others may do to the state between any two of its
steps, `guar` what each of its own steps does, and `post` what holds when it has ended, for as long as the
others do no more than they may. -/
namespace CodeAtlas
namespace Activity

variable {σ α β ρ : Type}

/-- Whether an activity, from a state on, keeps to `guar` and ends only in `post`. -/
def Proceeds (rely guar : σ → σ → Prop) (post : α → σ → Prop) : Activity σ α → σ → Prop
  | done a, s => ∀ s', rely s s' → post a s'
  | crash _, _ => True
  | act c n, s => ∀ t s', rely s s' → guar s' (c t s') ∧ Proceeds rely guar post (n t s') (c t s')
  | wait _ n, s => Proceeds rely guar post n s

/-- Relations between states that any number of steps make up. -/
structure Steady (r : σ → σ → Prop) : Prop where
  refl : ∀ s, r s s
  trans : ∀ s₁ s₂ s₃, r s₁ s₂ → r s₂ s₃ → r s₁ s₃

namespace Proceeds

variable {rely guar : σ → σ → Prop} {post : α → σ → Prop} {s s' : σ}

/-- What the others do does not matter. -/
theorem stable (hrely : Steady rely) {a : Activity σ α} (h : a.Proceeds rely guar post s) (hs : rely s s') :
    a.Proceeds rely guar post s' := by
  induction a with
  | done a => exact fun s'' hs' => h s'' (hrely.trans s s' s'' hs hs')
  | crash m => trivial
  | act c n ih => exact fun t s'' hs' => h t s'' (hrely.trans s s' s'' hs hs')
  | wait u n ih => exact ih h

/-- One activity after the other. -/
theorem andThen (hrely : Steady rely) {middle : β → σ → Prop} {a : Activity σ β} {f : β → Activity σ α}
    (h : a.Proceeds rely guar middle s) (hf : ∀ b s', middle b s' → (f b).Proceeds rely guar post s') :
    (a.andThen f).Proceeds rely guar post s := by
  induction a generalizing s with
  | done b => exact hf b s (h s (hrely.refl s))
  | crash m => trivial
  | act c n ih =>
    intro t s' hs'
    obtain ⟨hguar, hnext⟩ := h t s' hs'
    exact ⟨hguar, ih t s' hnext⟩
  | wait u n ih => exact ih h

theorem mono {post' : α → σ → Prop} {a : Activity σ α} (h : a.Proceeds rely guar post s)
    (hpost : ∀ x s', post x s' → post' x s') : a.Proceeds rely guar post' s := by
  induction a generalizing s with
  | done a => exact fun s' hs' => hpost a s' (h s' hs')
  | crash m => trivial
  | act c n ih =>
    intro t s' hs'
    obtain ⟨hguar, hnext⟩ := h t s' hs'
    exact ⟨hguar, ih t s' hnext⟩
  | wait u n ih => exact ih h

/-- One step, with what it yields. -/
theorem update {f : Moment → σ → α × σ}
    (hstable : ∀ x s₁ s₂, post x s₁ → rely s₁ s₂ → post x s₂)
    (h : ∀ t s', rely s s' → guar s' (f t s').2 ∧ post (f t s').1 (f t s').2) :
    (Activity.update f).Proceeds rely guar post s := by
  intro t s' hs'
  obtain ⟨hguar, hpost⟩ := h t s' hs'
  exact ⟨hguar, fun s'' hs'' => hstable _ _ _ hpost hs''⟩

/-- When nobody else does anything, an activity that ends does so in `post`. -/
theorem of_run (hrely : Steady rely) (hguar : Steady guar) {a : Activity σ α} {t t' : Moment} {x : α}
    (h : a.Proceeds rely guar post s) (hrun : a.run t s = .finished x t' s') : post x s' ∧ guar s s' := by
  induction a generalizing t s with
  | done a =>
    cases hrun
    exact ⟨h s' (hrely.refl s'), hguar.refl s'⟩
  | crash m => cases hrun
  | act c n ih =>
    obtain ⟨hstep, hnext⟩ := h t s (hrely.refl s)
    obtain ⟨hpost, hrest⟩ := ih t s hnext hrun
    exact ⟨hpost, hguar.trans _ _ _ hstep hrest⟩
  | wait u n ih =>
    cases u with
    | none => cases hrun
    | some u => exact ih h hrun

end Proceeds

/-- One activity after the other ends when both do. -/
theorem exists_run_of_andThen {a : Activity σ β} {f : β → Activity σ α} {t t' : Moment} {s s' : σ} {x : α}
    (h : (a.andThen f).run t s = .finished x t' s') :
    ∃ y t₁ s₁, a.run t s = .finished y t₁ s₁ ∧ (f y).run t₁ s₁ = .finished x t' s' := by
  induction a generalizing t s with
  | done y => exact ⟨y, t, s, rfl, h⟩
  | crash m => cases h
  | act c n ih => exact ih t s h
  | wait u n ih =>
    cases u with
    | none => cases h
    | some u => exact ih h

theorem run_andThen_of_run {a : Activity σ β} {t t' : Moment} {s s' : σ} {y : β}
    (h : a.run t s = .finished y t' s') (f : β → Activity σ α) : (a.andThen f).run t s = (f y).run t' s' := by
  induction a generalizing t s with
  | done x =>
    cases h
    rfl
  | crash m => cases h
  | act c n ih => exact ih t s h
  | wait u n ih =>
    cases u with
    | none => cases h
    | some u => exact ih h

theorem run_andThen_of_crash {a : Activity σ β} {t t' : Moment} {s s' : σ} {message : String}
    (h : a.run t s = .crashed message t' s') (f : β → Activity σ α) :
    (a.andThen f).run t s = .crashed message t' s' := by
  induction a generalizing t s with
  | done x => cases h
  | crash m =>
    cases h
    rfl
  | act c n ih => exact ih t s h
  | wait u n ih =>
    cases u with
    | none => cases h
    | some u => exact ih h

theorem run_andThen_of_stuck {a : Activity σ β} {t t' : Moment} {s s' : σ} (h : a.run t s = .stuck t' s')
    (f : β → Activity σ α) : (a.andThen f).run t s = .stuck t' s' := by
  induction a generalizing t s with
  | done x => cases h
  | crash m => cases h
  | act c n ih => exact ih t s h
  | wait u n ih =>
    cases u with
    | none =>
      cases h
      rfl
    | some u => exact ih h

/-- Whether an activity never changes what `view` shows of the state, whatever the others do. -/
def Keeps (view : σ → ρ) : Activity σ α → Prop
  | done _ => True
  | crash _ => True
  | act c n => ∀ t s, view (c t s) = view s ∧ Keeps view (n t s)
  | wait _ n => Keeps view n

/-- Whether an activity ends only with values that satisfy `p`. -/
def Yields (p : α → Prop) : Activity σ α → Prop
  | done a => p a
  | crash _ => True
  | act _ n => ∀ t s, Yields p (n t s)
  | wait _ n => Yields p n

theorem yields_true : (a : Activity σ α) → a.Yields fun _ => True
  | done _ => trivial
  | crash _ => trivial
  | act _ n => fun t s => yields_true (n t s)
  | wait _ n => yields_true n

namespace Keeps

variable {view : σ → ρ}

theorem andThen {a : Activity σ α} {f : α → Activity σ β} (h : a.Keeps view) (hf : ∀ x, (f x).Keeps view) :
    (a.andThen f).Keeps view := by
  induction a with
  | done x => exact hf x
  | crash m => trivial
  | act c n ih => exact fun t s => ⟨(h t s).1, ih t s (h t s).2⟩
  | wait u n ih => exact ih h

theorem updatePart {part : Part σ β} (hpart : ∀ b s, view (part.set b s) = view s)
    (f : Moment → β → α × β) : (updatePart part f).Keeps view :=
  fun _ s => ⟨hpart _ s, trivial⟩

theorem cutAt {a : Activity σ α} (h : a.Keeps view) (limit : Moment) : (cutAt limit a).Keeps view := by
  induction a with
  | done x => trivial
  | crash m => trivial
  | act c n ih => exact fun t s => ⟨(h t s).1, ih t s (h t s).2⟩
  | wait u n ih =>
    cases u with
    | none => trivial
    | some u =>
      unfold Activity.cutAt
      split
      · exact ih h
      · trivial

theorem within {a : Activity σ α} (h : a.Keeps view) (d : Duration) : (within d a).Keeps view :=
  fun _ _ => ⟨rfl, h.cutAt _⟩

theorem sleep (d : Duration) : (sleep d : Activity σ Unit).Keeps view := by
  unfold Activity.sleep
  split
  · trivial
  · exact fun _ _ => ⟨rfl, trivial⟩

/-- An activity that keeps a view proceeds with whatever others do to the state, as long as what it keeps is all
that it owes them. -/
theorem proceeds {rely guar : σ → σ → Prop} {inv : σ → Prop} {p : α → Prop} {a : Activity σ α} {s : σ}
    (h : a.Keeps view) (hyields : a.Yields p) (hguar : ∀ s s', view s' = view s → guar s s')
    (hview : ∀ s s', view s' = view s → inv s → inv s') (hrely : ∀ s s', rely s s' → inv s → inv s')
    (hs : inv s) : a.Proceeds rely guar (fun x s' => p x ∧ inv s') s := by
  induction a generalizing s with
  | done x => exact fun s' hs' => ⟨hyields, hrely s s' hs' hs⟩
  | crash m => trivial
  | act c n ih =>
    intro t s' hs'
    obtain ⟨hsame, hnext⟩ := h t s'
    exact ⟨hguar s' _ hsame, ih t s' hnext (hyields t s') (hview _ _ hsame (hrely s s' hs' hs))⟩
  | wait u n ih => exact ih h hyields hs

/-- An activity that ends has kept the view. -/
theorem of_run {a : Activity σ α} (h : a.Keeps view) {t t' : Moment} {s s' : σ} {x : α}
    (hrun : a.run t s = .finished x t' s') : view s' = view s := by
  induction a generalizing t s with
  | done a =>
    cases hrun
    rfl
  | crash m => cases hrun
  | act c n ih => exact (ih t s (h t s).2 hrun).trans (h t s).1
  | wait u n ih =>
    cases u with
    | none => cases hrun
    | some u => exact ih h hrun

end Keeps

/-- Whether what is put into a part is found there, and putting back what was found changes nothing. -/
structure Part.Lawful (part : Part σ β) : Prop where
  get_set : ∀ b s, part.get (part.set b s) = b
  set_get : ∀ s, part.set (part.get s) s = s

end Activity
end CodeAtlas

/-! Activities that take the same way, except where both come to a value of one kind in the end. What they do there does
not matter to whoever finds a value of another kind. -/
namespace CodeAtlas
namespace Activity

variable {σ α β : Type} {p : α → Prop}

/-- Whether two activities are the same up to places from which both only end with values that satisfy `p`. -/
inductive Agrees (p : α → Prop) : Activity σ α → Activity σ α → Prop
  | same (a : Activity σ α) : Agrees p a a
  | either {a b : Activity σ α} : a.Yields p → b.Yields p → Agrees p a b
  | act {c : Moment → σ → σ} {n m : Moment → σ → Activity σ α} : (∀ t s, Agrees p (n t s) (m t s)) →
      Agrees p (.act c n) (.act c m)
  | wait {u : Option Moment} {n m : Activity σ α} : Agrees p n m → Agrees p (.wait u n) (.wait u m)

theorem Yields.andThen {q : β → Prop} {a : Activity σ β} {f : β → Activity σ α} (h : a.Yields q)
    (hf : ∀ x, q x → (f x).Yields p) : (a.andThen f).Yields p := by
  induction a with
  | done x => exact hf x h
  | crash m => trivial
  | act c n ih => exact fun t s => ih t s (h t s)
  | wait u n ih => exact ih h

theorem Yields.of_run {a : Activity σ α} (h : a.Yields p) {t t' : Moment} {s s' : σ} {x : α}
    (hrun : a.run t s = .finished x t' s') : p x := by
  induction a generalizing t s with
  | done x =>
    cases hrun
    exact h
  | crash m => cases hrun
  | act c n ih => exact ih t s (h t s) hrun
  | wait u n ih =>
    cases u with
    | none => cases hrun
    | some u => exact ih h hrun

/-- What follows one and the same activity. -/
theorem Agrees.andThen (a : Activity σ β) {f g : β → Activity σ α} (h : ∀ x, Agrees p (f x) (g x)) :
    Agrees p (a.andThen f) (a.andThen g) := by
  induction a with
  | done x => exact h x
  | crash m => exact .same _
  | act c n ih => exact .act fun t s => ih t s
  | wait u n ih => exact .wait ih

/-- What follows activities that agree. -/
theorem Agrees.before {q : β → Prop} {a b : Activity σ β} {f : β → Activity σ α} (h : Agrees q a b)
    (hf : ∀ x, q x → (f x).Yields p) : Agrees p (a.andThen f) (b.andThen f) := by
  induction h with
  | same a => exact .same _
  | either ha hb => exact .either (ha.andThen hf) (hb.andThen hf)
  | act _ ih => exact .act ih
  | wait _ ih => exact .wait ih

/-- A value of another kind is what both activities end with. -/
theorem Agrees.run_eq {a b : Activity σ α} (h : Agrees p a b) {t t' : Moment} {s s' : σ} {x : α}
    (hrun : a.run t s = .finished x t' s') (hx : ¬ p x) : b.run t s = .finished x t' s' := by
  induction h generalizing t s with
  | same a => exact hrun
  | either ha _ => exact absurd (ha.of_run hrun) hx
  | act _ ih => exact ih t s hrun
  | @wait u n m _ ih =>
    cases u with
    | none => cases hrun
    | some u => exact ih hrun

end Activity
end CodeAtlas
