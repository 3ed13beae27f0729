import CodeAtlas.Activity.Basic
import CodeAtlas.Settings.Basic
import CodeAtlas.Width

/-!
Trying again with growing waits. Attempts are counted from zero; the wait after an attempt is the first wait
times the multiplier to the power of the attempt, longer or shorter by chance, and at most the longest wait.
Nothing is waited after the last attempt.
-/
namespace CodeAtlas

/-- How often and after which waits something is tried again. -/
structure RetryPlan where
  maxAttempts : Nat
  firstWait : Duration
  longestWait : Duration
  multiplier : Float
  /-- By which share of itself chance makes a wait longer or shorter at most. -/
  jitter : Float := 0.0
  /-- The numbers between zero and one that chance yields, one for the wait after each attempt. -/
  chance : Nat → Float := fun _ => 0.5

namespace RetryPlan

/-- The plan that settings ask for: each wait is twice the one before. -/
def ofSettings (s : Settings.Retry) : RetryPlan where
  maxAttempts := s.maxAttempts
  firstWait := .ofMillis s.initialWaitMillis
  longestWait := .ofMillis s.maxWaitMillis
  multiplier := 2.0
  jitter := s.jitter

/-- A plan that never waits. -/
def immediate (maxAttempts : Nat) : RetryPlan where
  maxAttempts := maxAttempts
  firstWait := 0
  longestWait := 0
  multiplier := 1.0

/-- A power by repeated squaring, in floating point. -/
def powNat (base : Float) (n : Nat) : Float :=
  if n = 0 then 1.0 else go n base 1.0
where
  /-- Multiply `result` by the powers that the bits of `n` pick. -/
  go (n : Nat) (base result : Float) : Float :=
    let result := if n % 2 = 1 then result * base else result
    if _h : n / 2 = 0 then result else go (n / 2) (base * base) result
  termination_by n
  decreasing_by omega

/-- The exponent that an attempt stands for: its number as a signed word of 32 bits. -/
def exponent (attempt : Nat) : Int := Int.bmod attempt (Width.size 32)

/-- A power with a signed exponent. -/
def powInt (base : Float) (n : Int) : Float :=
  if n < 0 then 1.0 / powNat base n.natAbs else powNat base n.natAbs

/-- The smaller of two numbers; the second when the first is not a number. -/
def minimum (a b : Float) : Float := if a < b then a else b

/-- The factor by which chance makes the wait after an attempt longer or shorter. -/
def sway (p : RetryPlan) (attempt : Nat) : Float := 1.0 + (p.chance attempt - 0.5) * 2.0 * p.jitter

/-- The wait after an attempt. -/
def waitAfter (p : RetryPlan) (attempt : Nat) : Duration :=
  let wanted := p.firstWait.toSeconds * powInt p.multiplier (exponent attempt) * p.sway attempt
  Duration.ofFloatSeconds (minimum wanted p.longestWait.toSeconds)

/-- The number of attempts, at least one. -/
def attempts (p : RetryPlan) : Nat := max p.maxAttempts 1

/-- Try attempt after attempt; `left` counts the further attempts that are allowed. -/
def tryFrom {σ ε α : Type} (p : RetryPlan) (operation : Nat → Activity σ (Except ε α))
    (again : ε → Bool) : Nat → Nat → Activity σ (Except ε α)
  | 0, attempt => operation attempt
  | left + 1, attempt => do
    match ← operation attempt with
    | .ok a => return .ok a
    | .error e =>
      if again e then
        Activity.sleep (p.waitAfter attempt)
        tryFrom p operation again left (attempt + 1)
      else return .error e

/-- Try an operation until it succeeds, fails in a way that is not worth another try, or attempts run out;
the last outcome is the result. -/
def run {σ ε α : Type} (p : RetryPlan) (operation : Nat → Activity σ (Except ε α)) (again : ε → Bool) :
    Activity σ (Except ε α) :=
  p.tryFrom operation again (p.attempts - 1) 0

end RetryPlan
end CodeAtlas
