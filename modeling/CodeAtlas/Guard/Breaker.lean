import CodeAtlas.Duration
import CodeAtlas.Json.Basic
import CodeAtlas.Settings.Basic

/-!
A circuit breaker as a state machine. It counts failures while it is closed and opens when they reach the
threshold; once the open window is over, a look finds it half-open, where a failure opens it again and
enough successes close it. A call is split into its admission and the later booking of its outcome, so
calls may overlap. Bookings while the breaker is open change nothing.
-/
namespace CodeAtlas

namespace Breaker

/-- When a breaker opens, when it closes again, and for how long it stays open. -/
structure Limits where
  failureThreshold : Nat := 5
  successThreshold : Nat := 1
  openFor : Duration := .ofSeconds 30

/-- The limits that settings ask for; a threshold of zero counts as one. -/
def Limits.ofSettings (s : Settings.BreakerLimits) : Limits where
  failureThreshold := max s.failureThreshold 1
  openFor := .ofSeconds s.recoverySeconds

/-- The three states. -/
inductive State where
  | closed
  | openUntil (t : Moment)
  | halfOpen
deriving DecidableEq, Repr

/-- How a finished call counts. -/
inductive Booking where
  | success
  | failure
  | ignored
deriving DecidableEq, Repr

end Breaker

/-- A breaker for one target. -/
structure Breaker where
  limits : Breaker.Limits
  state : Breaker.State := .closed
  failures : Nat := 0
  successes : Nat := 0
  rejected : Nat := 0

namespace Breaker

/-- A closed breaker that has seen no call. -/
def new (limits : Limits) : Breaker := { limits := limits }

/-- Look at a breaker: one whose open window is over becomes half-open. -/
def look (b : Breaker) (now : Moment) : Breaker :=
  match b.state with
  | .openUntil t => if t ≤ now then { b with state := .halfOpen, successes := 0 } else b
  | _ => b

/-- Whether a breaker that was just looked at is open. -/
def isOpen (b : Breaker) : Bool :=
  match b.state with
  | .openUntil _ => true
  | _ => false

/-- What becomes of a call that asks to go ahead. -/
inductive Admission where
  | admitted
  | rejected (retryAfter : Duration)
deriving DecidableEq, Repr

/-- Ask to make a call; an open breaker counts the rejection and says how long it stays open. -/
def enter (b : Breaker) (now : Moment) : Admission × Breaker :=
  let b := b.look now
  match b.state with
  | .openUntil t => (.rejected (t - now), { b with rejected := b.rejected + 1 })
  | _ => (.admitted, b)

/-- Book a success. -/
def bookSuccess (b : Breaker) : Breaker :=
  match b.state with
  | .closed => { b with failures := 0 }
  | .halfOpen =>
    let b := { b with successes := b.successes + 1 }
    if b.limits.successThreshold ≤ b.successes then { b with state := .closed, failures := 0 } else b
  | .openUntil _ => b

/-- Book a failure. -/
def bookFailure (b : Breaker) (now : Moment) : Breaker :=
  match b.state with
  | .closed =>
    let b := { b with failures := b.failures + 1 }
    if b.limits.failureThreshold ≤ b.failures then
      { b with state := .openUntil (now + b.limits.openFor) }
    else b
  | .halfOpen => { b with state := .openUntil (now + b.limits.openFor) }
  | .openUntil _ => b

/-- Book the outcome of a call. -/
def book (b : Breaker) (now : Moment) : Booking → Breaker
  | .success => b.bookSuccess
  | .failure => b.bookFailure now
  | .ignored => b

/-- Close a breaker and forget its counts, rejections apart. -/
def reset (b : Breaker) : Breaker := { b with state := .closed, failures := 0, successes := 0 }

/-- Whether a booking opens the breaker for longer than the clock can show. -/
def overruns (b : Breaker) (now : Moment) (booking : Booking) : Bool :=
  match (b.book now booking).state with
  | .openUntil t => !b.isOpen && (Moment.after? now (t - now)).isNone
  | _ => false

/-- What is left of a breaker that would open for longer than the clock can show: a closed one has counted the
failure, and none opens. -/
def overrun (b : Breaker) : Breaker :=
  match b.state with
  | .closed => { b with failures := b.failures + 1 }
  | _ => b

/-- Book the outcome of a call; none when the breaker would open for longer than the clock can show. -/
def settle (b : Breaker) (now : Moment) (booking : Booking) : Option Unit × Breaker :=
  if b.overruns now booking then (none, b.overrun) else (some (), b.book now booking)

/-- A breaker as a monitor shows it at a moment. -/
def encode (b : Breaker) (now : Moment) : Json :=
  let state := match b.state with
    | .closed => .str "closed"
    | .halfOpen => .str "half_open"
    | .openUntil t => .obj [("open_ms", .nat (Duration.toMillis (t - now)))]
  .obj [("state", state), ("failures", .nat b.failures), ("rejected", .nat b.rejected),
    ("is_open", .bool b.isOpen)]

end Breaker
end CodeAtlas
