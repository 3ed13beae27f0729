import CodeAtlas.Duration

/-!
Activities: what a program does over time. An activity changes a shared state, waits for a moment, and ends
with a value or crashes. Whoever answers it (a model, a store, a clock) is part of the activity, so
statements about all activities are statements about all their behaviours. Running one is structural
recursion: every activity ends, crashes, or waits for ever.
-/
namespace CodeAtlas

/-- What takes time. -/
inductive Activity (σ α : Type) where
  /-- Ends with a value. -/
  | done (value : α)
  /-- Breaks off with a message. -/
  | crash (message : String)
  /-- Changes the state and goes on; `next` sees the moment and the state before the change. -/
  | act (change : Moment → σ → σ) (next : Moment → σ → Activity σ α)
  /-- Waits for a moment, or for ever. -/
  | wait (until? : Option Moment) (next : Activity σ α)

namespace Activity

variable {σ α β : Type}

/-- Go on with the value that an activity ends with. -/
def andThen : Activity σ α → (α → Activity σ β) → Activity σ β
  | done a, f => f a
  | crash m, _ => crash m
  | act c n, f => act c fun t s => andThen (n t s) f
  | wait u n, f => wait u (andThen n f)

instance : Monad (Activity σ) where
  pure := done
  bind := andThen

/-- The present moment. -/
def now : Activity σ Moment := act (fun _ s => s) fun t _ => done t

/-- The present state. -/
def get : Activity σ σ := act (fun _ s => s) fun _ s => done s

/-- Change the state. -/
def modify (f : σ → σ) : Activity σ Unit := act (fun _ s => f s) fun _ _ => done ()

/-- Change the state and keep what the change yields. -/
def update (f : Moment → σ → α × σ) : Activity σ α :=
  act (fun t s => (f t s).2) fun t s => done (f t s).1

/-- Let all others go first that are due. -/
def giveWay : Activity σ Unit := act (fun _ s => s) fun t _ => wait (some t) (done ())

/-- Wait until a timer goes off for a moment. -/
def sleepUntil (t : Moment) : Activity σ Unit := wait (some (Duration.roundUp t)) (done ())

/-- Wait for a length of time; no time at all is no wait. -/
def sleep (d : Duration) : Activity σ Unit :=
  if d = 0 then done ()
  else act (fun _ s => s) fun t _ => sleepUntil (t + d)

/-- Wait for ever. -/
def stall (a : Activity σ α) : Activity σ α := wait none a

/-- Stop an activity that still waits when the moment `limit` has passed. -/
def cutAt (limit : Moment) : Activity σ α → Activity σ (Option α)
  | done a => done (some a)
  | crash m => crash m
  | act c n => act c fun t s => cutAt limit (n t s)
  | wait (some u) n => if u ≤ limit then wait (some u) (cutAt limit n) else wait (some limit) (done none)
  | wait none _ => wait (some limit) (done none)

/-- Stop an activity that takes longer than a length of time. -/
def within (d : Duration) (a : Activity σ α) : Activity σ (Option α) :=
  act (fun _ s => s) fun t _ => cutAt (Duration.roundUp (t + d)) a

/-- Stop an activity that takes longer than a length of time, if there is one. -/
def within? (d : Option Duration) (a : Activity σ α) : Activity σ (Option α) :=
  match d with
  | some d => within d a
  | none => a.andThen fun x => done (some x)

/-- End with the message of a crash instead of crashing. -/
def catchCrash : Activity σ α → Activity σ (Except String α)
  | done a => done (.ok a)
  | crash m => done (.error m)
  | act c n => act c fun t s => catchCrash (n t s)
  | wait u n => wait u (catchCrash n)

/-- One activity after the other for the items of a list. -/
def forEach (f : α → Activity σ β) : List α → Activity σ (List β)
  | [] => done []
  | a :: rest => (f a).andThen fun b => (forEach f rest).andThen fun bs => done (b :: bs)

/-- How an activity comes out: with a value, a crash, or not at all. -/
inductive Outcome (σ α : Type) where
  | finished (value : α) (moment : Moment) (state : σ)
  | crashed (message : String) (moment : Moment) (state : σ)
  | stuck (moment : Moment) (state : σ)

/-- Let an activity happen from a moment and a state on. -/
def run : Activity σ α → Moment → σ → Outcome σ α
  | done a, t, s => .finished a t s
  | crash m, t, s => .crashed m t s
  | act c n, t, s => run (n t s) t (c t s)
  | wait (some u) n, t, s => run n (max t u) s
  | wait none _, t, s => .stuck t s

/-- The state that an outcome leaves behind. -/
def Outcome.state : Outcome σ α → σ
  | .finished _ _ s => s
  | .crashed _ _ s => s
  | .stuck _ s => s

/-- The moment at which an outcome was reached. -/
def Outcome.moment : Outcome σ α → Moment
  | .finished _ t _ => t
  | .crashed _ t _ => t
  | .stuck t _ => t

/-- A part of a state. -/
structure Part (σ ρ : Type) where
  get : σ → ρ
  set : ρ → σ → σ

/-- A part of a part. -/
def Part.inside (outer : Part σ α) (inner : Part α β) : Part σ β where
  get s := inner.get (outer.get s)
  set b s := outer.set (inner.set b (outer.get s)) s

/-- Change a part of the state and keep what the change yields. -/
def updatePart (part : Part σ β) (f : Moment → β → α × β) : Activity σ α :=
  update fun t s =>
    let (a, b) := f t (part.get s)
    (a, part.set b s)

/-- Change a part of the state unless that fails. -/
def tryPart {ε : Type} (part : Part σ β) (f : Moment → β → Except ε (α × β)) : Activity σ (Except ε α) :=
  updatePart part fun t b =>
    match f t b with
    | .ok (a, b) => (.ok a, b)
    | .error e => (.error e, b)

end Activity
end CodeAtlas
