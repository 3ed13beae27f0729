import CodeAtlas.Activity.Basic
import CodeAtlas.Guard.Breaker
import Std.Data.TreeMap

/-!
Breakers by target, made on first use, and calls that go through them. `call` asks for admission, runs the
operation only when it is admitted, and books what it ends with.
-/
namespace CodeAtlas

/-- Breakers for one kind of call. -/
structure Registry where
  kind : String
  limits : Breaker.Limits
  breakers : Std.TreeMap String Breaker := {}

namespace Registry

/-- The breaker of a target, a new one if there is none. -/
def breakerOf (r : Registry) (target : String) : Breaker := r.breakers.getD target (.new r.limits)

/-- Put the breaker of a target. -/
def put (r : Registry) (target : String) (b : Breaker) : Registry :=
  { r with breakers := r.breakers.insert target b }

/-- The number of targets that are known. -/
def size (r : Registry) : Nat := r.breakers.size

/-- Forget all breakers. -/
def clear (r : Registry) : Registry := { r with breakers := {} }

/-- Close the breaker of a target, if there is one. -/
def resetTarget (r : Registry) (target : String) : Registry :=
  { r with breakers := r.breakers.modify target Breaker.reset }

/-- Look at all breakers. -/
def lookAll (r : Registry) (now : Moment) : Registry :=
  { r with breakers := r.breakers.map fun _ b => b.look now }

/-- The targets whose breaker is open, in order. -/
def openTargets (r : Registry) (now : Moment) : List String :=
  ((r.lookAll now).breakers.toList.filter (·.2.isOpen)).map (·.1)

/-- Ask to call a target. -/
def enter (target : String) (now : Moment) (r : Registry) : Breaker.Admission × Registry :=
  let (admission, b) := (r.breakerOf target).enter now
  (admission, r.put target b)

/-- Book the outcome of a call; none when the breaker would open for longer than the clock can show. -/
def book (target : String) (booking : Breaker.Booking) (now : Moment) (r : Registry) :
    Option Unit × Registry :=
  let (booked, b) := (r.breakerOf target).settle now booking
  (booked, r.put target b)

/-- What a call through a breaker ends in. -/
inductive Answer (ε α : Type) where
  | ok (value : α)
  | failed (error : ε)
  | rejected (target : String) (retryAfter : Duration)

/-- What a crash says when a breaker would open for longer than the clock can show. -/
def overrunMessage : String := "overflow when adding duration to instant"

/-- Call a target through its breaker. `count` says how a failure counts. -/
def call {σ ε α : Type} (part : Activity.Part σ Registry) (target : String)
    (operation : Activity σ (Except ε α)) (count : ε → Breaker.Booking) : Activity σ (Answer ε α) := do
  match ← Activity.updatePart part (enter target) with
  | .rejected retryAfter => return .rejected target retryAfter
  | .admitted =>
    let result ← operation
    let booking := match result with
      | .ok _ => .success
      | .error e => count e
    match ← Activity.updatePart part (book target booking) with
    | none => .crash overrunMessage
    | some _ =>
      match result with
      | .ok a => return .ok a
      | .error e => return .failed e

end Registry

/-- The breakers of all kinds of calls. -/
structure Breakers where
  completion : Registry
  embedding : Registry
  vector : Registry

/-- The breakers of completions. -/
def Breakers.completionPart : Activity.Part Breakers Registry := ⟨completion, fun r b => { b with completion := r }⟩

/-- The breakers of embeddings. -/
def Breakers.embeddingPart : Activity.Part Breakers Registry := ⟨embedding, fun r b => { b with embedding := r }⟩

/-- The breakers of vector searches. -/
def Breakers.vectorPart : Activity.Part Breakers Registry := ⟨vector, fun r b => { b with vector := r }⟩

/-- The breakers that settings ask for. -/
def Breakers.ofSettings (s : Settings.Resilience) : Breakers where
  completion := { kind := "completion", limits := .ofSettings s.models }
  embedding := { kind := "embedding", limits := .ofSettings s.embedding }
  vector := { kind := "vector", limits := .ofSettings s.vector }

/-- Forget all breakers of all kinds. -/
def Breakers.clear (b : Breakers) : Breakers :=
  ⟨b.completion.clear, b.embedding.clear, b.vector.clear⟩

end CodeAtlas
