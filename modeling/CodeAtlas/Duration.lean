import CodeAtlas.Decimal.Notation
import CodeAtlas.Width

/-!
Lengths of time and moments, in nanoseconds. A moment is counted from the start of the clock; timers go off
at whole milliseconds. `Duration.text` writes a length in its largest unit.
-/
namespace CodeAtlas

/-- A length of time in nanoseconds. -/
abbrev Duration := Nat

/-- A moment in nanoseconds since the start of the clock. -/
abbrev Moment := Nat

namespace Duration

/-- Milliseconds as a length. -/
def ofMillis (n : Nat) : Duration := n * 1000000

/-- Seconds as a length. -/
def ofSeconds (n : Nat) : Duration := n * 1000000000

/-- Whole milliseconds of a length. -/
def toMillis (d : Duration) : Nat := d / 1000000

/-- The first whole millisecond that is not before a moment. -/
def roundUp (t : Moment) : Moment := (t + 999999) / 1000000 * 1000000

/-- A count of units with a fraction of `places` digits, zeros at its end left out. -/
def unitText (whole fraction places : Nat) (unit : String) : String :=
  let digits := Decimal.natText fraction
  let padded := (Decimal.zeros (places - digits.length) ++ digits).toList
  let kept := (padded.reverse.dropWhile (· == '0')).reverse
  Decimal.natText whole ++ (if kept.isEmpty then "" else "." ++ String.ofList kept) ++ unit

/-- A length in its largest unit with a whole part: `30s`, `1.5ms`, `0ns`. -/
def text (d : Duration) : String :=
  if 1000000000 ≤ d then unitText (d / 1000000000) (d % 1000000000) 9 "s"
  else if 1000000 ≤ d then unitText (d / 1000000) (d % 1000000) 6 "ms"
  else if 1000 ≤ d then unitText (d / 1000) (d % 1000) 3 "µs"
  else unitText d 0 0 "ns"

/-- A length in seconds, as a double. -/
def toSeconds (d : Duration) : Float :=
  (d / 1000000000).toUInt64.toFloat + (d % 1000000000).toUInt64.toFloat / 1000000000.0

/-- The length of some seconds, rounded to a nanosecond, a half to the even one; what is not positive is
no time at all. -/
def ofFloatSeconds (x : Float) : Duration :=
  if 0.0 < x then
    match Decimal.Binary.ofFloat? x with
    | none => 0
    | some b =>
      let (up, down) := Decimal.powRatio 2 b.exponent
      Decimal.roundDiv (b.mantissa * up * 1000000000) down
  else 0

end Duration

/-- The last moment that the clock can show, in seconds; it has run for some time when a program starts. -/
def Moment.lastSecond : Nat := Width.size 63 - 2

/-- The moment after a length of time; none when the clock cannot show it. -/
def Moment.after? (t : Moment) (d : Duration) : Option Moment :=
  if (t + d) / 1000000000 ≤ Moment.lastSecond then some (t + d) else none

end CodeAtlas
