import CodeAtlas.Decimal.Shortest
import CodeAtlas.Width

/-!
How numbers are written: shortest digits laid out positionally (`plain`), shortest digits with an
exponent for very large and very small values (`scientific`), and a fixed count of places (`fixed`),
where the exact binary value is rounded and a half goes to the even neighbour.
-/
namespace CodeAtlas.Decimal

/-- The decimal digits of a natural number. -/
def natText (n : Nat) : String := String.ofList (Nat.toDigits 10 n)

/-- `n` zeros. -/
def zeros (n : Nat) : String := String.ofList (List.replicate n '0')

/-- Whether the sign bit is set, also for zero and NaN. -/
def negative (x : Float) : Bool := Width.size 63 ≤ x.toBits.toNat

/-- Digits written positionally, without an exponent and without a trailing point. -/
def Digits.positional (d : Digits) : String :=
  let text := natText d.digits
  match d.exponent with
  | .ofNat n => text ++ zeros n
  | .negSucc n =>
    let places := n + 1
    if places < text.length then
      let whole := text.length - places
      String.ofList (text.toList.take whole) ++ "." ++ String.ofList (text.toList.drop whole)
    else "0." ++ zeros (places - text.length) ++ text

/-- A double without an exponent: `1`, `0.1`, `-0`, `NaN`, `inf`. -/
def plain (x : Float) : String :=
  if x.isNaN then "NaN"
  else
    let sign := if negative x then "-" else ""
    if x.isInf then sign ++ "inf"
    else match Binary.ofFloat? x with
      | none => sign ++ "0"
      | some b => sign ++ b.shortest.positional

/-- Digits with `.0` kept on whole numbers and an exponent from `1e16` on; `least` says how far right the
first digit may stand before small numbers get an exponent, too. -/
def Digits.scientific (least : Int) (d : Digits) : String :=
  let text := natText d.digits
  let point : Int := text.length + d.exponent
  if 0 ≤ d.exponent ∧ point ≤ 16 then text ++ zeros d.exponent.toNat ++ ".0"
  else if least < point ∧ point ≤ 16 then d.positional
  else
    let lead := String.ofList (text.toList.take 1)
    let rest := String.ofList (text.toList.drop 1)
    let mark := if rest.isEmpty then lead else lead ++ "." ++ rest
    let power := point - 1
    mark ++ "e" ++ (if power < 0 then "-" else "") ++ natText power.natAbs

/-- A finite double as a document number: `1.0`, `1e-7`, `-0.0`; none when it is not finite. Exponents start
below `1e-5`. -/
def scientific? (x : Float) : Option String :=
  let sign := if negative x then "-" else ""
  if x.isNaN || x.isInf then none
  else match Binary.ofFloat? x with
    | none => some (sign ++ "0.0")
    | some b => some (sign ++ b.shortest.scientific (-5))

/-- A double in a message: `1.0`, `1e-5`, `-0.0`, `NaN`, `inf`. Exponents start below `1e-4`. -/
def general (x : Float) : String :=
  if x.isNaN then "NaN"
  else
    let sign := if negative x then "-" else ""
    if x.isInf then sign ++ "inf"
    else match Binary.ofFloat? x with
      | none => sign ++ "0.0"
      | some b => sign ++ b.shortest.scientific (-4)

/-- The quotient rounded to the nearest natural number, a half to the even one. -/
def roundDiv (num den : Nat) : Nat :=
  let q := num / den
  let r := num % den
  if 2 * r < den then q
  else if den < 2 * r then q + 1
  else if q % 2 = 0 then q else q + 1

/-- A natural number of units of `10 ^ -places`, with exactly that many places. -/
def placesText (places units : Nat) : String :=
  if places = 0 then natText units
  else
    let text := natText units
    let padded := zeros (places + 1 - text.length) ++ text
    let whole := padded.length - places
    String.ofList (padded.toList.take whole) ++ "." ++ String.ofList (padded.toList.drop whole)

/-- A double with a fixed number of places. -/
def fixed (places : Nat) (x : Float) : String :=
  if x.isNaN then "NaN"
  else
    let sign := if negative x then "-" else ""
    if x.isInf then sign ++ "inf"
    else match Binary.ofFloat? x with
      | none => sign ++ placesText places 0
      | some b =>
        let (up, down) := powRatio 2 b.exponent
        sign ++ placesText places (roundDiv (b.mantissa * up * Nat.pow 10 places) down)

end CodeAtlas.Decimal
