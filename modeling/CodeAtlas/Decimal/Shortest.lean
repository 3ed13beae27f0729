import CodeAtlas.Width

/-!
The fewest decimal digits that identify a binary floating-point number.

A finite number is `mantissa * 2 ^ exponent`; the reals that round to it form an interval, whose ends
belong to it when the mantissa is even. `shortest` tries decimal grids from one digit upwards, tests the
two neighbours of the number on each grid in exact natural-number arithmetic, and takes the first grid
with a hit. Nothing here claims a bound on the number of digits: seventeen are tried, and after them the
exact expansion is returned.
-/
namespace CodeAtlas.Decimal

/-- A positive number `mantissa * 2 ^ exponent`; `narrowBelow` when the gap below it is half the gap above. -/
structure Binary where
  mantissa : Nat
  exponent : Int
  narrowBelow : Bool
deriving DecidableEq, Repr

/-- The decimal number `digits * 10 ^ exponent`. -/
structure Digits where
  digits : Nat
  exponent : Int
deriving DecidableEq, Repr

/-- The two factors of `base ^ exponent`, numerator and denominator. -/
def powRatio (base : Nat) : Int → Nat × Nat
  | .ofNat n => (base.pow n, 1)
  | .negSucc n => (1, base.pow (n + 1))

/-- What the bits of a double stand for, sign apart; none for zero, infinities and NaN. -/
def Binary.ofFloat? (x : Float) : Option Binary :=
  let bits := x.toBits.toNat
  let exponentField : Nat := bits / Width.size 52 % 2048
  let fraction : Nat := Width.wrap 52 bits
  if exponentField = 2047 then none
  else if exponentField = 0 then
    if fraction = 0 then none else some ⟨fraction, -1074, false⟩
  else
    some ⟨Width.size 52 + fraction, (exponentField : Int) - 1075, fraction == 0 && 1 < exponentField⟩

/-- A grid of decimals laid over a number: `value`, `low` and `high` in units of `1 / unit` grid steps. -/
structure Grid where
  value : Nat
  low : Nat
  high : Nat
  unit : Nat
  closed : Bool

/-- The number and its rounding interval measured on the grid of multiples of `10 ^ step`. -/
def Binary.grid (b : Binary) (step : Int) : Grid :=
  let (binaryUp, binaryDown) := powRatio 2 (b.exponent - 2)
  let (gridUp, gridDown) := powRatio 10 step
  let scale := binaryUp * gridDown
  { value := 4 * b.mantissa * scale
    low := (4 * b.mantissa - (if b.narrowBelow then 1 else 2)) * scale
    high := (4 * b.mantissa + 2) * scale
    unit := binaryDown * gridUp
    closed := b.mantissa % 2 == 0 }

/-- Whether the grid point `c` rounds to the number. -/
def Grid.readsBack (g : Grid) (c : Nat) : Bool :=
  if g.closed then g.low ≤ c * g.unit && c * g.unit ≤ g.high
  else g.low < c * g.unit && c * g.unit < g.high

/-- The nearer of the number's two neighbours that reads back; a tie goes to the even one. -/
def Grid.candidate? (g : Grid) : Option Nat :=
  let below := g.value / g.unit
  let above := below + 1
  match g.readsBack below && 0 < below, g.readsBack above with
  | false, false => none
  | true, false => some below
  | false, true => some above
  | true, true =>
    let twice := 2 * g.value
    let middle := (below + above) * g.unit
    if twice < middle then some below
    else if middle < twice then some above
    else if below % 2 = 0 then some below else some above

/-- Whether the number lies below `10 ^ k`. -/
def Binary.below (b : Binary) (k : Int) : Bool :=
  let g := b.grid k
  g.value < g.unit

/-- The least `k` with the number below `10 ^ k`, from an estimate by binary length. -/
def Binary.magnitude (b : Binary) : Int :=
  let estimate := Int.fdiv ((b.mantissa.log2 + b.exponent) * 30103) 100000 - 1
  ((List.range 4).map fun (i : Nat) => estimate + i).find? b.below |>.getD (estimate + 4)

/-- Move trailing zeros into the exponent; `fuel` bounds their number. -/
def Digits.strip : Nat → Digits → Digits
  | 0, d => d
  | fuel + 1, d =>
    if d.digits ≠ 0 ∧ d.digits % 10 = 0 then strip fuel ⟨d.digits / 10, d.exponent + 1⟩ else d

/-- The exact decimal value. -/
def Binary.exact (b : Binary) : Digits :=
  match b.exponent with
  | .ofNat n => ⟨b.mantissa * Nat.pow 2 n, 0⟩
  | .negSucc n => ⟨b.mantissa * Nat.pow 5 (n + 1), -((n : Int) + 1)⟩

/-- The fewest digits that read back, the nearest among those. -/
def Binary.shortest (b : Binary) : Digits :=
  let k := b.magnitude
  let found := (List.range 17).findSome? fun i =>
    let step := k - ((i : Nat) + 1 : Int)
    (b.grid step).candidate?.map (Digits.mk · step)
  (found.getD b.exact).strip 400

end CodeAtlas.Decimal
