import CodeAtlas.Proofs.Activity.Mirrors
import CodeAtlas.Proofs.Activity.Stops

/-! Members of a pool that keep a diary. Nobody writes under another one's name, so what a member has noted tells how
far it has come, and the notes tell how many are busy at a time: never more than the pool has capacity for, and
whenever time passes that many, unless there is nobody left to begin. -/
namespace CodeAtlas
namespace Activity

variable {σ ν α β : Type}

/-- A note: the place of the member that has taken it, the moment, and what it says. -/
structure Diary.Note (ν : Type) where
  place : Nat
  moment : Moment
  text : ν

/-- A state with notes beside it. -/
structure Diary (σ ν : Type) where
  state : σ
  notes : List (Diary.Note ν)

namespace Diary

/-- What the member at a place has noted. -/
def own (i : Nat) (notes : List (Note ν)) : List (Note ν) := notes.filter (·.place == i)

theorem own_concat_self (i : Nat) (notes : List (Note ν)) (t : Moment) (x : ν) :
    own i (notes ++ [⟨i, t, x⟩]) = own i notes ++ [⟨i, t, x⟩] := by
  simp [own]

theorem own_concat_of_ne {i j : Nat} (h : j ≠ i) (notes : List (Note ν)) (t : Moment) (x : ν) :
    own j (notes ++ [⟨i, t, x⟩]) = own j notes := by
  simp [own, Ne.symm h]

theorem mem_own {i : Nat} {notes : List (Note ν)} {t : Moment} {x : ν} :
    (⟨i, t, x⟩ : Note ν) ∈ own i notes ↔ ⟨i, t, x⟩ ∈ notes := by
  simp [own]

/-- An activity beside which notes are taken. -/
def lift : Activity σ α → Activity (Diary σ ν) α
  | .done x => .done x
  | .crash m => .crash m
  | .act c n => .act (fun t d => { d with state := c t d.state }) fun t d => lift (n t d.state)
  | .wait u n => .wait u (lift n)

/-- Take a note. -/
def note (i : Nat) (text : ν) : Activity (Diary σ ν) Unit :=
  .act (fun t d => { d with notes := d.notes ++ [⟨i, t, text⟩] }) fun _ _ => .done ()

/-- Taking notes beside it changes nothing of what an activity does. -/
theorem mirrors_lift (a : Activity σ α) : Mirrors Diary.state Eq (lift a : Activity (Diary σ ν) α) a := by
  induction a with
  | done x => exact .done rfl
  | crash m => exact .crash m
  | act c n ih => exact .act (fun _ _ => rfl) fun t d => ih t d.state
  | wait u n ih => exact .wait ih

/-- An activity takes no notes itself. -/
theorem keeps_lift {ρ : Type} (view : List (Note ν) → ρ) (a : Activity σ α) :
    (lift a).Keeps fun d => view d.notes := by
  induction a with
  | done x => trivial
  | crash m => trivial
  | act c n ih => exact fun t d => ⟨rfl, ih t d.state⟩
  | wait u n ih => exact ih

/-- An activity turns out as it does when notes are taken beside it. -/
theorem turnsOut_lift {stalls : Prop} {post : Except String α → Moment → Prop} {a : Activity σ α} {t : Moment}
    (h : a.TurnsOut stalls post t) : (lift a : Activity (Diary σ ν) α).TurnsOut stalls post t := by
  induction a generalizing t with
  | done x => exact h
  | crash m => exact h
  | act c n ih => exact fun d => ih t d.state (h d.state)
  | wait u n ih =>
    cases u with
    | none => exact h
    | some u => exact ih h

/-- Whether a step at a moment takes at most one note, and that for the member at a place. -/
def Writes (i : Nat) (t : Moment) (notes notes' : List (Note ν)) : Prop :=
  notes' = notes ∨ ∃ x, notes' = notes ++ [⟨i, t, x⟩]

theorem Writes.own_eq {i j : Nat} {t : Moment} {notes notes' : List (Note ν)} (h : Writes i t notes notes')
    (hj : j ≠ i) : own j notes' = own j notes := by
  rcases h with rfl | ⟨x, rfl⟩
  · rfl
  · exact own_concat_of_ne hj notes t x

/-- Whether no more than `capacity` members are busy, going by what each has noted. -/
def AtMost (busy : List (Note ν) → Prop) (capacity : Nat) (notes : List (Note ν)) : Prop :=
  ∀ l : Finset Nat, (∀ i ∈ l, busy (own i notes)) → l.card ≤ capacity

/-- Whether no more members can be busy: that many are, or all `count` have begun. -/
def Full (busy begun : List (Note ν) → Prop) (capacity count : Nat) (notes : List (Note ν)) : Prop :=
  (∀ i, i < count → begun (own i notes)) ∨
    ∃ l : Finset Nat, capacity ≤ l.card ∧ ∀ i ∈ l, i < count ∧ busy (own i notes)

/-- The moment at which a diary has been begun, and those of the notes. -/
def moments (since : Moment) (notes : List (Note ν)) : List Moment := since :: notes.map Note.moment

/-- Notes that are taken one after the other. At no time are too many members busy, and whenever time passes no more can
be. -/
structure Orderly (busy begun : List (Note ν) → Prop) (capacity count : Nat) (since : Moment)
    (notes : List (Note ν)) : Prop where
  inOrder : (moments since notes).Pairwise (· ≤ ·)
  most : ∀ earlier, earlier <+: notes → AtMost busy capacity earlier
  least : ∀ earlier x, earlier ++ [x] <+: notes → (∀ v ∈ moments since earlier, v < x.moment) →
    Full busy begun capacity count earlier

/-- Notes that have been taken up to a moment. -/
structure UpTo (busy begun : List (Note ν) → Prop) (capacity count : Nat) (since t : Moment)
    (notes : List (Note ν)) : Prop extends Orderly busy begun capacity count since notes where
  upTo : ∀ v ∈ moments since notes, v ≤ t
  /-- Time has passed since the last note. -/
  full : (∀ v ∈ moments since notes, v < t) → Full busy begun capacity count notes

namespace UpTo

variable {busy begun : List (Note ν) → Prop} {capacity count i : Nat} {since t t' : Moment}
  {notes notes' : List (Note ν)}

theorem begin (hbusy : ¬ busy []) (capacity count : Nat) (since : Moment) :
    UpTo busy begun capacity count since since [] := by
  refine ⟨⟨by simp [moments], fun earlier hprefix l hl => ?_, fun earlier x hprefix => ?_⟩, by simp [moments],
    fun hlt => ?_⟩
  · rw [List.prefix_nil] at hprefix
    subst hprefix
    rcases l.eq_empty_or_nonempty with rfl | ⟨i, hi⟩
    · exact Nat.zero_le capacity
    · exact absurd (hl i hi) hbusy
  · simp at hprefix
  · exact absurd (hlt since (by simp [moments])) (Nat.lt_irrefl since)

theorem writes (h : UpTo busy begun capacity count since t notes) (hwrites : Writes i t notes notes')
    (hnow : AtMost busy capacity notes') : UpTo busy begun capacity count since t notes' := by
  rcases hwrites with rfl | ⟨x, rfl⟩
  · exact h
  · have hmoments : moments since (notes ++ [⟨i, t, x⟩]) = moments since notes ++ [t] := by simp [moments]
    refine ⟨⟨?_, fun earlier hprefix => ?_, fun earlier y hprefix hall => ?_⟩, fun v hv => ?_, fun hall => ?_⟩
    · rw [hmoments, List.pairwise_append]
      exact ⟨h.inOrder, by simp, fun v hv _ ht => List.mem_singleton.mp ht ▸ h.upTo v hv⟩
    · rcases List.prefix_concat_iff.mp hprefix with rfl | hearlier
      · exact hnow
      · exact h.most earlier hearlier
    · rcases List.prefix_concat_iff.mp hprefix with heq | hearlier
      · -- the new note itself is the one before which time has passed
        obtain ⟨rfl, hy⟩ := List.append_inj' heq rfl
        cases hy
        exact h.full hall
      · exact h.least earlier y hearlier hall
    · rw [hmoments, List.mem_append, List.mem_singleton] at hv
      rcases hv with hv | rfl
      · exact h.upTo v hv
      · exact Nat.le_refl v
    · exact absurd (hall t (by simp [hmoments])) (Nat.lt_irrefl t)

/-- Time passes only when no more members can be busy. -/
theorem pass (h : UpTo busy begun capacity count since t notes) (hle : t ≤ t')
    (hfull : t < t' → Full busy begun capacity count notes) : UpTo busy begun capacity count since t' notes := by
  refine ⟨h.toOrderly, fun v hv => Nat.le_trans (h.upTo v hv) hle, fun hall => ?_⟩
  rcases Nat.lt_or_eq_of_le hle with hpass | rfl
  · exact hfull hpass
  · exact h.full hall

end UpTo

end Diary

open Diary (Note own Writes AtMost Full Orderly UpTo)

/-- Whether an activity that goes on at a moment takes notes only for the member at a place, and what it has noted
meets `rests` whenever it waits and `ends` when it has ended. -/
def Abides (i : Nat) (rests : Moment → Option Moment → List (Note ν) → Prop)
    (ends : Except String α → Moment → List (Note ν) → Prop) :
    Activity (Diary σ ν) α → Moment → List (Note ν) → Prop
  | done x, t, o => ends (.ok x) t o
  | crash m, t, o => ends (.error m) t o
  | act c n, t, o => ∀ d, own i d.notes = o →
      Writes i t d.notes (c t d).notes ∧ Abides i rests ends (n t d) t (own i (c t d).notes)
  | wait u n, t, o => rests t u o ∧ ∀ v, u = some v → Abides i rests ends n (max t v) o

namespace Abides

variable {i : Nat} {rests rests' : Moment → Option Moment → List (Note ν) → Prop}
  {ends ends' : Except String α → Moment → List (Note ν) → Prop} {t : Moment} {o : List (Note ν)}

theorem mono {a : Activity (Diary σ ν) α} (h : a.Abides i rests ends t o) (hrests : ∀ t u o, rests t u o → rests' t u o)
    (hends : ∀ r t o, ends r t o → ends' r t o) : a.Abides i rests' ends' t o := by
  induction a generalizing t o with
  | done x => exact hends _ _ _ h
  | crash m => exact hends _ _ _ h
  | act c n ih => exact fun d hd => ⟨(h d hd).1, ih t d (h d hd).2⟩
  | wait u n ih => exact ⟨hrests _ _ _ h.1, fun v hv => ih (h.2 v hv)⟩

theorem andThen {mid : Except String β → Moment → List (Note ν) → Prop} {a : Activity (Diary σ ν) β}
    {f : β → Activity (Diary σ ν) α} (h : a.Abides i rests mid t o)
    (hok : ∀ x t' o', mid (.ok x) t' o' → (f x).Abides i rests ends t' o')
    (herror : ∀ m t' o', mid (.error m) t' o' → ends (.error m) t' o') : (a.andThen f).Abides i rests ends t o := by
  induction a generalizing t o with
  | done x => exact hok x t o h
  | crash m => exact herror m t o h
  | act c n ih => exact fun d hd => ⟨(h d hd).1, ih t d (h d hd).2⟩
  | wait u n ih => exact ⟨h.1, fun v hv => ih (h.2 v hv)⟩

theorem catchCrash {ends : Except String (Except String α) → Moment → List (Note ν) → Prop}
    {a : Activity (Diary σ ν) α} (h : a.Abides i rests (fun r t' o' => ends (.ok r) t' o') t o) :
    (catchCrash a).Abides i rests ends t o := by
  induction a generalizing t o with
  | done x => exact h
  | crash m => exact h
  | act c n ih => exact fun d hd => ⟨(h d hd).1, ih t d (h d hd).2⟩
  | wait u n ih => exact ⟨h.1, fun v hv => ih (h.2 v hv)⟩

theorem now_andThen {f : Moment → Activity (Diary σ ν) α} (h : (f t).Abides i rests ends t o) :
    (now.andThen f).Abides i rests ends t o := by
  rintro d rfl
  exact ⟨.inl rfl, h⟩

theorem giveWay_andThen {f : Unit → Activity (Diary σ ν) α} (hrests : rests t (some t) o)
    (h : (f ()).Abides i rests ends t o) : (giveWay.andThen f).Abides i rests ends t o := by
  rintro d rfl
  refine ⟨.inl rfl, hrests, ?_⟩
  rintro v ⟨⟩
  show (f ()).Abides i rests ends (max t t) _
  rwa [Nat.max_self]

theorem note_andThen {text : ν} {f : Unit → Activity (Diary σ ν) α}
    (h : (f ()).Abides i rests ends t (o ++ [⟨i, t, text⟩])) :
    ((Diary.note i text).andThen f).Abides i rests ends t o := by
  rintro d rfl
  refine ⟨.inr ⟨text, rfl⟩, ?_⟩
  rwa [Diary.own_concat_self]

/-- Work beside which notes are taken takes none itself, and goes on as it does alone. -/
theorem lift {R : Activity σ α → Moment → Prop} (hR : Lasting R) {a : Activity σ α} (h : R a t)
    (hrests : ∀ t' u n, R (.wait u n) t' → rests t' u o) (hok : ∀ t' x, R (.done x) t' → ends (.ok x) t' o)
    (herror : ∀ t' m, R (.crash m) t' → ends (.error m) t' o) : (Diary.lift a).Abides i rests ends t o := by
  induction a generalizing t with
  | done x => exact hok t x h
  | crash m => exact herror t m h
  | act c n ih =>
    rintro d rfl
    exact ⟨.inl rfl, ih t d.state (hR.act h d.state)⟩
  | wait u n ih =>
    refine ⟨hrests t u n h, ?_⟩
    rintro v rfl
    exact ih (hR.wait h)

end Abides

/-- Whether what members note tells who is busy and who has begun: who is not busy waits no longer than for its turn, or
what it has ended with is taken in. -/
structure Telling (busy begun : List (Note ν) → Prop) (rests : Nat → Moment → Option Moment → List (Note ν) → Prop)
    (taken : Nat → Except String α → Moment → List (Note ν) → Prop) : Prop where
  busy_nil : ¬ busy []
  begun_of_busy : ∀ o, busy o → begun o
  waits : ∀ i t u o, rests i t u o → ¬ busy o → u = some t
  ended : ∀ i r t o, taken i r t o → ¬ busy o ∧ begun o

section Run

variable {busy begun : List (Note ν) → Prop} {rests : Nat → Moment → Option Moment → List (Note ν) → Prop}
  {ends taken : Nat → Except String α → Moment → List (Note ν) → Prop} {capacity count : Nat} {limit : Option Moment}

/-- What lasts of the members while nobody takes a note. -/
abbrev Abiding (rests : Nat → Moment → Option Moment → List (Note ν) → Prop)
    (ends : Nat → Except String α → Moment → List (Note ν) → Prop) (notes : List (Note ν)) (i : Nat)
    (a : Activity (Diary σ ν) α) (t : Moment) : Prop :=
  a.Abides i (rests i) (ends i) t (own i notes)

/-- A pool on its way whose members abide. What is noted meets `taken` once the pool has taken in what a member has ended
with. Who has not started has noted nothing, and no more than `capacity` have neither ended nor yet to start. -/
structure Staffed (rests : Nat → Moment → Option Moment → List (Note ν) → Prop)
    (ends taken : Nat → Except String α → Moment → List (Note ν) → Prop) (capacity : Nat)
    (slots : Slots (Diary σ ν) α) (ended : List (Nat × α)) (ticket : Nat) (t : Moment) (notes : List (Note ν)) :
    Prop where
  standing : Standing (Abiding rests ends notes) (fun _ => True) slots ended ticket t
  handed : ∀ x ∈ ended, ∃ t₀, taken x.1 (.ok x.2) t₀ (own x.1 notes)
  fresh : ∀ i, (∀ slot, slots[i]? = some slot → slot.isQueued = true) → own i notes = []
  room : slots.countP Slot.isActive ≤ capacity

theorem card_filter_getElem? {γ : Type} (p : γ → Bool) (l : List γ) :
    ((Finset.range l.length).filter fun i => l[i]?.any p).card = l.countP p := by
  induction l with
  | nil => rfl
  | cons x l ih =>
    rw [Finset.card_filter] at ih ⊢
    rw [List.length_cons, Finset.sum_range_succ', List.countP_cons]
    simp only [List.getElem?_cons_succ, List.getElem?_cons_zero, Option.any_some, ih]

/-- What changes at one place adds no more than one. -/
theorem countP_set_le {γ : Type} (p : γ → Bool) {l : List γ} {i : Nat} {old : γ} (new : γ) (hi : l[i]? = some old) :
    (l.set i new).countP p ≤ if p new && !p old then l.countP p + 1 else l.countP p := by
  obtain ⟨hlt, rfl⟩ := List.getElem?_eq_some_iff.mp hi
  have hpos : p l[i] = true → 0 < l.countP p := fun h => List.countP_pos_iff.mpr ⟨l[i], List.getElem_mem hlt, h⟩
  rw [List.countP_set hlt]
  cases hold : p l[i] <;> cases hnew : p new <;> simp [hold] at hpos ⊢
  omega

/-- The places of the members that have neither ended nor yet to start. -/
def activePlaces (slots : Slots σ α) : Finset Nat :=
  (Finset.range slots.length).filter fun i => slots[i]?.any Slot.isActive

theorem mem_activePlaces {slots : Slots σ α} {i : Nat} :
    i ∈ activePlaces slots ↔ ∃ slot, slots[i]? = some slot ∧ slot.isActive = true := by
  simp only [activePlaces, Finset.mem_filter, Finset.mem_range, Option.any_eq_true]
  exact ⟨fun h => h.2, fun ⟨slot, hslot, hactive⟩ =>
    ⟨(List.getElem?_eq_some_iff.mp hslot).1, slot, hslot, hactive⟩⟩

theorem card_activePlaces (slots : Slots σ α) : (activePlaces slots).card = slots.countP Slot.isActive :=
  card_filter_getElem? Slot.isActive slots

namespace Staffed

variable {slots : Slots (Diary σ ν) α} {ended : List (Nat × α)} {ticket i : Nat} {t t' : Moment}
  {notes notes' : List (Note ν)}

/-- What a member has ended with is taken in. -/
theorem taken_of_finished (h : Staffed rests ends taken capacity slots ended ticket t notes)
    (hi : slots[i]? = some .finished) : ∃ x t₀, taken i (.ok x) t₀ (own i notes) := by
  obtain ⟨x, hx, rfl⟩ := List.mem_map.mp ((h.standing.ended_iff i).mpr hi)
  obtain ⟨t₀, htaken⟩ := h.handed x hx
  exact ⟨x.2, t₀, htaken⟩

/-- Who is busy has started and not ended. -/
theorem isActive_of_busy (h : Staffed rests ends taken capacity slots ended ticket t notes)
    (htell : Telling busy begun rests taken) (hi : busy (own i notes)) :
    ∃ slot, slots[i]? = some slot ∧ slot.isActive = true := by
  have hnew : ¬ ∀ slot, slots[i]? = some slot → slot.isQueued = true := by
    intro hqueued
    rw [h.fresh i hqueued] at hi
    exact htell.busy_nil hi
  push Not at hnew
  obtain ⟨slot, hslot, hstarted⟩ := hnew
  refine ⟨slot, hslot, ?_⟩
  cases slot with
  | queued a => exact absurd rfl hstarted
  | running a => rfl
  | waiting k u a => rfl
  | finished =>
    obtain ⟨x, t₀, htaken⟩ := h.taken_of_finished hslot
    exact absurd hi (htell.ended _ _ _ _ htaken).1

/-- No more members are busy than there is capacity. -/
theorem atMost (h : Staffed rests ends taken capacity slots ended ticket t notes) (htell : Telling busy begun rests taken) :
    AtMost busy capacity notes := by
  intro l hl
  have hsub : l ⊆ activePlaces slots := fun i hi => mem_activePlaces.mpr (h.isActive_of_busy htell (hl i hi))
  calc l.card ≤ (activePlaces slots).card := Finset.card_le_card hsub
    _ = slots.countP Slot.isActive := card_activePlaces slots
    _ ≤ capacity := h.room

/-- Who waits, and not just for its turn, is busy. -/
theorem busy_of_waiting (h : Staffed rests ends taken capacity slots ended ticket t notes)
    (htell : Telling busy begun rests taken) {k : Nat} {u : Option Moment} {a : Activity (Diary σ ν) α}
    (hi : slots[i]? = some (.waiting k u a)) (hlate : ∀ v, u = some v → t < v) : busy (own i notes) := by
  obtain ⟨t₀, ht₀, ⟨hrests, -⟩, -⟩ := h.standing.stands i _ hi
  by_contra hidle
  have hlt := hlate t₀ (htell.waits _ _ _ _ hrests hidle)
  exact absurd ht₀ (Nat.not_le.mpr hlt)

/-- When nobody can go on for a while, no more members can be busy. -/
theorem full (h : Staffed rests ends taken capacity slots ended ticket t notes) (htell : Telling busy begun rests taken)
    (hidle : Idle capacity slots) (hlate : ∀ slot ∈ slots, ∀ v, slot.alarm? = some v → t < v) :
    Full busy begun capacity slots.length notes := by
  have hbusy : ∀ {i k u a}, slots[i]? = some (.waiting k u a) → busy (own i notes) := fun hi =>
    h.busy_of_waiting htell hi fun v hv => hlate _ (List.mem_of_getElem? hi) v hv
  rcases hidle.full with hfull | hnone
  · refine .inr ⟨activePlaces slots, by rwa [card_activePlaces], fun i hi => ?_⟩
    obtain ⟨slot, hslot, hactive⟩ := mem_activePlaces.mp hi
    rcases hidle.slot_cases (List.mem_of_getElem? hslot) with ⟨a, rfl, -⟩ | ⟨k, u, a, rfl⟩ | rfl
    · cases hactive
    · exact ⟨(List.getElem?_eq_some_iff.mp hslot).1, hbusy hslot⟩
    · cases hactive
  · refine .inl fun i hlt => ?_
    have hi : slots[i]? = some slots[i] := List.getElem?_eq_getElem hlt
    have hmem : slots[i] ∈ slots := List.getElem_mem hlt
    rcases hidle.slot_cases hmem with ⟨a, ha, -⟩ | ⟨k, u, a, ha⟩ | hfinished
    · have hqueued := hnone _ hmem
      rw [ha] at hqueued
      cases hqueued
    · rw [ha] at hi
      exact htell.begun_of_busy _ (hbusy hi)
    · rw [hfinished] at hi
      obtain ⟨x, t₀, htaken⟩ := h.taken_of_finished hi
      exact (htell.ended _ _ _ _ htaken).2

/-- One member moves, and nobody else notes anything. -/
theorem replace {old new : Slot (Diary σ ν) α} {ended' : List (Nat × α)} {ticket' : Nat}
    (h : Staffed rests ends taken capacity slots ended ticket t notes) (hi : slots[i]? = some old)
    (hnew : new.isQueued = false) (hothers : ∀ j, j ≠ i → own j notes' = own j notes)
    (hstanding : Standing (Abiding rests ends notes') (fun _ => True) (slots.set i new) ended' ticket' t)
    (hhanded : ∀ x ∈ ended', ∃ t₀, taken x.1 (.ok x.2) t₀ (own x.1 notes'))
    (hroom : (slots.set i new).countP Slot.isActive ≤ capacity) :
    Staffed rests ends taken capacity (slots.set i new) ended' ticket' t notes' := by
  refine ⟨hstanding, hhanded, fun j hj => ?_, hroom⟩
  have hset := getElem?_set_of_some new hi j
  split at hset
  · next hji =>
    rw [hj new hset] at hnew
    cases hnew
  · next hji =>
    rw [hothers j hji]
    exact h.fresh j fun slot hslot => hj slot (hset.trans hslot)

theorem room_set {old new : Slot (Diary σ ν) α} (h : Staffed rests ends taken capacity slots ended ticket t notes)
    (hi : slots[i]? = some old) (hactive : old.isActive = true) :
    (slots.set i new).countP Slot.isActive ≤ capacity := by
  have hle := countP_set_le Slot.isActive new hi
  rw [hactive, Bool.not_true, Bool.and_false] at hle
  exact Nat.le_trans hle h.room

/-- What is taken in stays so while a member that has not ended takes notes. -/
theorem handed_of_own_eq {old : Slot (Diary σ ν) α} (h : Staffed rests ends taken capacity slots ended ticket t notes)
    (hi : slots[i]? = some old) (hold : old ≠ .finished) (hothers : ∀ j, j ≠ i → own j notes' = own j notes) :
    ∀ x ∈ ended, ∃ t₀, taken x.1 (.ok x.2) t₀ (own x.1 notes') := by
  intro x hx
  have hxi : x.1 ≠ i := by
    intro hxi
    have hfinished := (h.standing.ended_iff x.1).mp (List.mem_map_of_mem hx)
    rw [hxi, hi] at hfinished
    exact hold (Option.some.inj hfinished)
  rw [hothers x.1 hxi]
  exact h.handed x hx

/-- What lasts of the others does not depend on what a member notes. -/
theorem abiding_eq (hothers : ∀ j, j ≠ i → own j notes' = own j notes) :
    ∀ j, j ≠ i → Abiding (σ := σ) rests ends notes' j = Abiding (σ := σ) rests ends notes j := by
  intro j hj
  funext a t'
  rw [Abiding, Abiding, hothers j hj]

/-- A member that takes a step notes something of its own at most. -/
theorem act {d : Diary σ ν} {c : Moment → Diary σ ν → Diary σ ν} {n : Moment → Diary σ ν → Activity (Diary σ ν) α}
    (h : Staffed rests ends taken capacity slots ended ticket t d.notes)
    (hi : slots[i]? = some (.running (.act c n))) :
    Writes i t d.notes (c t d).notes ∧
      Staffed rests ends taken capacity (slots.set i (.running (n t d))) ended ticket t (c t d).notes := by
  obtain ⟨hwrites, hnext⟩ := h.standing.stands i _ hi d rfl
  have hothers : ∀ j, j ≠ i → own j (c t d).notes = own j d.notes := fun j hj => hwrites.own_eq hj
  exact ⟨hwrites, h.replace hi rfl hothers (h.standing.step hi nofun (abiding_eq hothers) hnext)
    (h.handed_of_own_eq hi nofun hothers) (h.room_set hi rfl)⟩

theorem rest {u : Option Moment} {n : Activity (Diary σ ν) α}
    (h : Staffed rests ends taken capacity slots ended ticket t notes)
    (hi : slots[i]? = some (.running (.wait u n))) :
    Staffed rests ends taken capacity (slots.set i (.waiting ticket u n)) ended (ticket + 1) t notes :=
  h.replace hi rfl (fun _ _ => rfl) (h.standing.rest hi) h.handed (h.room_set hi rfl)

/-- What a member has ended with is taken in, and this may be noted under its name. -/
theorem finish {x : α} (h : Staffed rests ends taken capacity slots ended ticket t notes)
    (hi : slots[i]? = some (.running (.done x))) (hwrites : Writes i t notes notes')
    (htaken : ends i (.ok x) t (own i notes) → taken i (.ok x) t (own i notes')) :
    Staffed rests ends taken capacity (slots.set i .finished) (ended ++ [(i, x)]) ticket t notes' := by
  have hothers : ∀ j, j ≠ i → own j notes' = own j notes := fun j hj => hwrites.own_eq hj
  refine h.replace hi rfl hothers (h.standing.finish hi (abiding_eq hothers)) (fun y hy => ?_) (h.room_set hi rfl)
  rcases List.mem_append.mp hy with hy | hy
  · exact h.handed_of_own_eq hi nofun hothers y hy
  · rw [List.mem_singleton] at hy
    subst hy
    exact ⟨t, htaken (h.standing.stands i _ hi)⟩

/-- A member goes on after a wait that is over. -/
theorem wake {k : Nat} {u : Moment} {a : Activity (Diary σ ν) α}
    (h : Staffed rests ends taken capacity slots ended ticket t notes) (hi : slots[i]? = some (.waiting k (some u) a))
    (hdue : u ≤ t) : Staffed rests ends taken capacity (slots.set i (.running a)) ended ticket t notes := by
  obtain ⟨t₀, ⟨-, hnext⟩, hmax⟩ := (h.standing.stands i _ hi).exists_wait
  have ha := hnext u rfl
  rw [hmax, Nat.max_eq_left hdue] at ha
  exact h.replace hi rfl (fun _ _ => rfl) (h.standing.goOn hi nofun ha) h.handed (h.room_set hi rfl)

/-- A member starts when there is capacity for it. -/
theorem start {a : Activity (Diary σ ν) α} (h : Staffed rests ends taken capacity slots ended ticket t notes)
    (hi : slots[i]? = some (.queued a)) (hroom : slots.countP Slot.isActive < capacity) :
    Staffed rests ends taken capacity (slots.set i (.running a)) ended ticket t notes := by
  have ha := h.standing.stands i _ hi t (Nat.le_refl t) (.inl rfl)
  refine h.replace hi rfl (fun _ _ => rfl) (h.standing.goOn hi nofun ha) h.handed ?_
  exact Nat.le_trans (countP_set_le Slot.isActive (.running a) hi) hroom

theorem pass (h : Staffed rests ends taken capacity slots ended ticket t notes) (hidle : Idle capacity slots)
    (hle : t ≤ t') (halarm : ∀ slot ∈ slots, ∀ v, slot.alarm? = some v → t' ≤ max t v) :
    Staffed rests ends taken capacity slots ended ticket t' notes :=
  ⟨h.standing.pass hidle (fun _ => trivial) hle halarm, h.handed, h.fresh, h.room⟩

end Staffed

/-- A pool that has begun at `since` and stopped. Nobody can go on, or not before the limit has passed. -/
structure Halted (rests : Nat → Moment → Option Moment → List (Note ν) → Prop)
    (ends taken : Nat → Except String α → Moment → List (Note ν) → Prop) (capacity : Nat) (limit : Option Moment)
    (since : Moment) (slots : Slots (Diary σ ν) α) (ended : List (Nat × α)) (ticket : Nat) (t : Moment)
    (notes : List (Note ν)) : Prop extends Staffed rests ends taken capacity slots ended ticket t notes where
  idle : Idle capacity slots
  inTime : InTime limit since t
  late : ∀ slot ∈ slots, ∀ v, slot.alarm? = some v → ∃ l, limit = some l ∧ l < v

/-- What has become of a member of a pool that has stopped, given what it has noted: it has ended, it waits past the
limit or for ever, or it has not started. -/
inductive Found (rests : Moment → Option Moment → List (Note ν) → Prop)
    (ends : Except String α → Moment → List (Note ν) → Prop) (limit : Option Moment) :
    List (Note ν) → Option α → Prop
  | ended {x : α} {t : Moment} {o : List (Note ν)} : ends (.ok x) t o → Found rests ends limit o (some x)
  | waits {t : Moment} {u : Option Moment} {o : List (Note ν)} :
      (∀ v, u = some v → ∃ l, limit = some l ∧ l < v) → rests t u o → Found rests ends limit o none
  | kept : Found rests ends limit [] none

namespace Halted

variable {slots : Slots (Diary σ ν) α} {ended : List (Nat × α)} {ticket i : Nat} {since t : Moment}
  {notes : List (Note ν)}

/-- When a pool stops that has not begun too late, no more members can be busy. -/
theorem full (h : Halted rests ends taken capacity limit since slots ended ticket t notes)
    (htell : Telling busy begun rests taken) (hsince : ∀ l, limit = some l → since ≤ l) :
    Full busy begun capacity slots.length notes :=
  h.toStaffed.full htell h.idle fun slot hmem v hv => by
    obtain ⟨l, hl, hlt⟩ := h.late slot hmem v hv
    have hle : t ≤ l := Nat.le_trans (h.inTime l hl) (Nat.max_le.mpr ⟨hsince l hl, Nat.le_refl l⟩)
    exact Nat.lt_of_le_of_lt hle hlt

/-- Who is active waits past the limit or for ever. -/
theorem exists_rests (h : Halted rests ends taken capacity limit since slots ended ticket t notes)
    {slot : Slot (Diary σ ν) α} (hi : slots[i]? = some slot) (hactive : slot.isActive = true) :
    ∃ t₀ u, (∀ v, u = some v → ∃ l, limit = some l ∧ l < v) ∧ rests i t₀ u (own i notes) := by
  have hmem := List.mem_of_getElem? hi
  rcases h.idle.slot_cases hmem with ⟨a, rfl, -⟩ | ⟨k, u, a, rfl⟩ | rfl
  · cases hactive
  · obtain ⟨t₀, -, ⟨hrests, -⟩, -⟩ := h.standing.stands i _ hi
    exact ⟨t₀, u, h.late _ hmem, hrests⟩
  · cases hactive

theorem found (h : Halted rests ends taken capacity limit since slots ended ticket t notes) {values : List (Option α)}
    (hvalues : ∀ y ∈ values, y = none) {y : Option α} (hlt : i < slots.length)
    (hy : (ended.foldl (fun acc x => acc.set x.1 (some x.2)) values)[i]? = some y) :
    Found (rests i) (taken i) limit (own i notes) y ∧ (y = none → slots[i]? ≠ some .finished) := by
  rcases h.idle.place_cases h.standing.ended_iff hvalues hlt hy with
    ⟨x, rfl, hx⟩ | ⟨rfl, ⟨a, ha, -⟩ | ⟨k, u, a, ha⟩⟩
  · obtain ⟨t₀, htaken⟩ := h.handed _ hx
    exact ⟨.ended htaken, nofun⟩
  · have hnothing : own i notes = [] := by
      refine h.fresh i fun slot hslot => ?_
      rw [ha, Option.some.injEq] at hslot
      rw [← hslot]
      rfl
    rw [hnothing, ha]
    exact ⟨.kept, nofun⟩
  · obtain ⟨t₀, u, hlate, hrests⟩ := h.exists_rests ha rfl
    rw [ha]
    exact ⟨.waits hlate hrests, nofun⟩

/-- What has become of the member at a place. -/
theorem exists_found (h : Halted rests ends taken capacity limit since slots ended ticket t notes)
    (hlt : i < slots.length) :
    ∃ y, Found (rests i) (taken i) limit (own i notes) y ∧ (y = none → slots[i]? ≠ some .finished) := by
  have hnone : ∀ y ∈ (slots.map fun _ => (none : Option α)), y = none := by simp
  have hvalue : i < (ended.foldl (fun acc x => acc.set x.1 (some x.2)) (slots.map fun _ => none)).length := by
    rwa [length_foldl_set, List.length_map]
  exact ⟨_, h.found hnone hlt (List.getElem?_eq_getElem hvalue)⟩

end Halted

/-- How a pool comes out whose members abide: it stops, or one of them has crashed. It gives a result when all are
finished or there is a limit. -/
def Settles (rests : Nat → Moment → Option Moment → List (Note ν) → Prop)
    (ends taken : Nat → Except String α → Moment → List (Note ν) → Prop) (capacity : Nat) (limit : Option Moment)
    (add : β → Nat × α → β) (count : Nat) (start : β) (since : Moment) : Outcome (Diary σ ν) β → Prop
  | .finished result _ d => ∃ (slots : Slots (Diary σ ν) α) (ended : List (Nat × α)) (ticket : Nat) (t : Moment),
      slots.length = count ∧ Halted rests ends taken capacity limit since slots ended ticket t d.notes ∧
        result = ended.foldl add start ∧ (limit = none → ∀ slot ∈ slots, slot = .finished)
  | .crashed m t d => ∃ i, ends i (.error m) t (own i d.notes)
  | .stuck _ d => ∃ (slots : Slots (Diary σ ν) α) (ended : List (Nat × α)) (ticket : Nat) (t : Moment),
      slots.length = count ∧ Halted rests ends taken capacity limit since slots ended ticket t d.notes ∧
        limit = none ∧ ∃ slot ∈ slots, slot.isActive = true

/-- Whether a collector adds up what members end with, and notes of a member no more than that this is taken in. -/
def Collector.TakesIn (ends taken : Nat → Except String α → Moment → List (Note ν) → Prop) (add : β → Nat × α → β)
    (collector : Collector (Diary σ ν) α β) : Prop :=
  ∀ i x t d acc, (collector.collect i x t d acc).1 = add acc (i, x) ∧
    Writes i t d.notes (collector.collect i x t d acc).2.notes ∧
      (ends i (.ok x) t (own i d.notes) → taken i (.ok x) t (own i (collector.collect i x t d acc).2.notes))

theorem settles_poolFrom {collector : Collector (Diary σ ν) α β} {add : β → Nat × α → β} (hcapacity : 0 < capacity)
    (htell : Telling busy begun rests taken) (hcollect : collector.TakesIn ends taken add)
    {slots : Slots (Diary σ ν) α} {since now t : Moment} {ticket horizon : Nat} {start acc : β}
    {ended : List (Nat × α)} {d : Diary σ ν} (h : Staffed rests ends taken capacity slots ended ticket t d.notes)
    (hnotes : UpTo busy begun capacity count since t d.notes) (hcount : slots.length = count)
    (hacc : acc = ended.foldl add start) (hnow : now ≤ t) (hintime : InTime limit since t) :
    Settles rests ends taken capacity limit add count start since
        ((poolFrom capacity limit collector slots now ticket horizon acc).run t d) ∧
      ∃ stop, InTime limit since stop ∧ UpTo busy begun capacity count since stop
        ((poolFrom capacity limit collector slots now ticket horizon acc).run t d).state.notes := by
  have hnext := next_poolFrom capacity limit collector now horizon acc h.standing.tickets
  have hset : ∀ i slot, (slots.set i slot).length = count := fun i slot => List.length_set.trans hcount
  -- along the recursion of the pool; notes are taken at steps of members, and time passes when nobody can move
  generalize poolFrom capacity limit collector slots now ticket horizon acc = p at hnext ⊢
  cases hnext with
  | @act i c n hslot =>
    obtain ⟨hwrites, hstep⟩ := h.act hslot
    exact settles_poolFrom hcapacity htell hcollect hstep (hnotes.writes hwrites (hstep.atMost htell)) (hset _ _) hacc
      hnow hintime
  | rest hslot =>
    exact settles_poolFrom hcapacity htell hcollect (h.rest hslot) hnotes (hset _ _) hacc hnow hintime
  | @finish i x hslot =>
    obtain ⟨hadd, hwrites, htaken⟩ := hcollect i x t d acc
    have hsum : (collector.collect i x t d acc).1 = (ended ++ [(i, x)]).foldl add start := by
      rw [List.foldl_append, hadd, hacc]
      rfl
    have hstep := h.finish hslot hwrites htaken
    exact settles_poolFrom hcapacity htell hcollect hstep (hnotes.writes hwrites (hstep.atMost htell)) (hset _ _) hsum
      hnow hintime
  | @fail i m hslot => exact ⟨⟨i, h.standing.stands i _ hslot⟩, t, hintime, hnotes⟩
  | wake hslot hdue =>
    exact settles_poolFrom hcapacity htell hcollect (h.wake hslot (Nat.le_trans hdue hnow)) hnotes (hset _ _) hacc hnow
      hintime
  | start hslot hroom =>
    exact settles_poolFrom hcapacity htell hcollect (h.start hslot hroom) hnotes (hset _ _) hacc hnow hintime
  | @alarm i k u a hidle hlimit hfirst hslot =>
    have hle := Nat.le_max_left t u
    have hdue := Nat.le_max_right t u
    have hpassed := h.pass hidle hle fun slot hmem v hv => max_le_max_left t (hfirst slot hmem v hv)
    have hnotes' : UpTo busy begun capacity count since (max t u) d.notes := by
      refine hnotes.pass hle fun hpass => hcount ▸ h.full htell hidle fun slot hmem v hv => ?_
      have hlater : t < u := by simpa using hpass
      exact Nat.lt_of_lt_of_le hlater (hfirst slot hmem v hv)
    exact settles_poolFrom hcapacity htell hcollect (hpassed.wake hslot hdue) hnotes' (hset _ _) hacc hdue fun l hl =>
      Nat.max_le.mpr ⟨hintime l hl, Nat.le_trans (hlimit l hl) (Nat.le_max_right since l)⟩
  | @cut l hidle hlimit hafter =>
    have hhalted : Halted rests ends taken capacity limit since slots ended ticket t d.notes :=
      ⟨h, hidle, hintime, fun slot hmem v hv => ⟨l, hlimit, hafter slot hmem v hv⟩⟩
    exact ⟨⟨slots, ended, ticket, t, hcount, hhalted, hacc, fun hnone => nomatch hlimit.symm.trans hnone⟩, t, hintime,
      hnotes⟩
  | @stuck i k a hidle hlimit hslot hsilent =>
    have hhalted : Halted rests ends taken capacity limit since slots ended ticket t d.notes :=
      ⟨h, hidle, hintime, fun slot hmem v hv => nomatch (hsilent slot hmem).symm.trans hv⟩
    exact ⟨⟨slots, ended, ticket, t, hcount, hhalted, hlimit, _, List.mem_of_getElem? hslot, rfl⟩, t, hintime, hnotes⟩
  | ends hidle hactive =>
    have hall := hidle.all_finished hcapacity hactive
    have hhalted : Halted rests ends taken capacity limit since slots ended ticket t d.notes := by
      refine ⟨h, hidle, hintime, fun slot hmem v hv => ?_⟩
      rw [hall slot hmem] at hv
      cases hv
    exact ⟨⟨slots, ended, ticket, t, hcount, hhalted, hacc, fun _ => hall⟩, t, hintime, hnotes⟩
termination_by slots
decreasing_by
  · exact Shrinks.set (.act _ _ _ _) ‹_›
  · exact Shrinks.set (.rest _ _ _) ‹_›
  · exact Shrinks.set (.finish _) ‹_›
  · exact Shrinks.set (.wake _ _ _) ‹_›
  · exact Shrinks.set (.start _) ‹_›
  · exact Shrinks.set (.wake _ _ _) ‹_›

/-- How a pool comes out whose members abide and have noted nothing yet. -/
theorem settles_pool (limit : Option Moment) {collector : Collector (Diary σ ν) α β} {add : β → Nat × α → β}
    (hcapacity : 0 < capacity) (htell : Telling busy begun rests taken) (hcollect : collector.TakesIn ends taken add)
    {members : List (Activity (Diary σ ν) α)} (start : β) (t : Moment) (s : σ)
    (h : ∀ (i : Nat) a, members[i]? = some a → ∀ t', t ≤ t' → a.Abides i (rests i) (ends i) t' []) :
    Settles rests ends taken capacity limit add members.length start t
        ((pool capacity limit collector members start).run t ⟨s, []⟩) ∧
      ∃ stop, InTime limit t stop ∧ UpTo busy begun capacity members.length t stop
        ((pool capacity limit collector members start).run t ⟨s, []⟩).state.notes := by
  have hstands : ∀ (i : Nat) slot, (members.map Slot.queued)[i]? = some slot →
      slot.Stands (Abiding (σ := σ) rests ends [] i) (fun _ => True) t := by
    intro i slot hi
    rw [List.getElem?_map] at hi
    obtain ⟨a, ha, rfl⟩ := Option.map_eq_some_iff.mp hi
    exact fun t' ht' _ => h i a ha t' ht'
  have hroom : (members.map Slot.queued).countP Slot.isActive ≤ capacity := by
    simp [List.countP_map, Function.comp_def, Slot.isActive]
  have hstaffed : Staffed rests ends taken capacity (members.map Slot.queued) [] 0 t [] :=
    ⟨⟨.start members, hstands⟩, by simp, fun _ _ => rfl, hroom⟩
  exact settles_poolFrom hcapacity htell hcollect hstaffed (.begin htell.busy_nil capacity _ t) (List.length_map _) rfl
    (Nat.zero_le t) (inTime_begun limit t)

/-- How activities come out that happen at once and abide. -/
def Comes (busy begun : List (Note ν) → Prop) (rests : Nat → Moment → Option Moment → List (Note ν) → Prop)
    (ends : Nat → Except String α → Moment → List (Note ν) → Prop) (capacity : Nat) (limit : Option Moment)
    (count : Nat) : Outcome (Diary σ ν) (List (Option α)) → Prop
  | .finished results _ d => Full busy begun capacity count d.notes ∧ results.length = count ∧
      ∀ (i : Nat) y, results[i]? = some y →
        Found (rests i) (ends i) limit (own i d.notes) y ∧ (y = none → limit ≠ none)
  | .crashed m t d => ∃ i, ends i (.error m) t (own i d.notes)
  | .stuck _ d => Full busy begun capacity count d.notes ∧ limit = none ∧
      (∀ i, i < count → ∃ y, Found (rests i) (ends i) limit (own i d.notes) y) ∧
        ∃ i t, i < count ∧ rests i t none (own i d.notes)

theorem comes_together (limit : Option Moment) (hcapacity : 0 < capacity) (htell : Telling busy begun rests ends)
    {members : List (Activity (Diary σ ν) α)} (t : Moment) (s : σ) (hintime : ∀ l, limit = some l → t ≤ l)
    (h : ∀ (i : Nat) a, members[i]? = some a → ∀ t', t ≤ t' → a.Abides i (rests i) (ends i) t' []) :
    Comes busy begun rests ends capacity limit members.length
        ((together capacity limit members).run t ⟨s, []⟩) ∧
      Orderly busy begun capacity members.length t
        ((together capacity limit members).run t ⟨s, []⟩).state.notes := by
  have hcollect : Collector.TakesIn (σ := σ) ends ends (fun acc x => acc.set x.1 (some x.2)) Collector.inOrder :=
    fun _ _ _ _ _ => ⟨rfl, .inl rfl, id⟩
  -- the pool as it is run, with the places that `together` fills
  obtain ⟨hsettles, _, -, hupTo⟩ := settles_pool limit hcapacity htell hcollect (members.map fun _ => none) t s h
  refine ⟨?_, hupTo.toOrderly⟩
  have hnone : ∀ y ∈ (members.map fun _ => (none : Option α)), y = none := by simp
  have hlength : ∀ ended : List (Nat × α),
      (ended.foldl (fun acc x => acc.set x.1 (some x.2)) (members.map fun _ => none)).length = members.length :=
    fun ended => by rw [length_foldl_set, List.length_map]
  rw [together]
  generalize (pool capacity limit .inOrder members (members.map fun _ => none)).run t (⟨s, []⟩ : Diary σ ν) =
    outcome at hsettles ⊢
  cases outcome with
  | crashed m t' d => exact hsettles
  | stuck t' d =>
    obtain ⟨slots, ended, ticket, t₀, hcount, hhalted, rfl, slot, hslot, hactive⟩ := hsettles
    refine ⟨hcount ▸ hhalted.full htell hintime, rfl, fun i hi => ?_, ?_⟩
    · obtain ⟨y, hy, -⟩ := hhalted.exists_found (hcount ▸ hi)
      exact ⟨y, hy⟩
    · obtain ⟨i, hi⟩ := List.mem_iff_getElem?.mp hslot
      obtain ⟨t₁, u, hlate, hrests⟩ := hhalted.exists_rests hi hactive
      have hnever : u = none := Option.eq_none_iff_forall_ne_some.mpr fun v hv => by
        obtain ⟨l, ⟨⟩, -⟩ := hlate v hv
      exact ⟨i, t₁, hcount ▸ (List.getElem?_eq_some_iff.mp hi).1, hnever ▸ hrests⟩
  | finished results t' d =>
    obtain ⟨slots, ended, ticket, t₀, hcount, hhalted, rfl, hover⟩ := hsettles
    refine ⟨hcount ▸ hhalted.full htell hintime, hlength ended, fun i y hy => ?_⟩
    have hlt : i < slots.length := by
      rw [hcount, ← hlength ended]
      exact (List.getElem?_eq_some_iff.mp hy).1
    obtain ⟨hfound, hleft⟩ := hhalted.found hnone hlt hy
    refine ⟨hfound, fun hy hlimit => hleft hy ?_⟩
    rw [List.getElem?_eq_getElem hlt, hover hlimit _ (List.getElem_mem hlt)]

end Run

end Activity
end CodeAtlas
