import CodeAtlas.Json.Basic
import CodeAtlas.Width

/-!
Reading the numbers of a document. A whole number that fits 64 bits stays whole. Any other number is a
significand of at most 64 bits scaled by one multiplication or division by a power of ten, so its last
bit need not be the nearest one. A magnitude beyond the largest double is refused.
-/
namespace CodeAtlas.Json

/-- A number while it is read: the significand, and the power of ten that scales it. -/
structure Scaled where
  significand : Nat
  exponent : Int

/-- The value of a decimal digit. -/
def digitValue (c : Char) : Nat := c.toNat - '0'.toNat

/-- One more digit before the point: it is appended while the significand fits 64 bits, and once one did
not fit, that digit and all later ones only raise the exponent. -/
def Scaled.pushWhole (s : Scaled) (c : Char) : Scaled :=
  let next := s.significand * 10 + digitValue c
  if s.exponent = 0 ∧ next < Width.size 64 then { s with significand := next }
  else { s with exponent := s.exponent + 1 }

/-- The digits after the point: each is appended and lowers the exponent, until one does not fit. -/
def Scaled.pushFraction (s : Scaled) : List Char → Scaled
  | [] => s
  | c :: rest =>
    let next := s.significand * 10 + digitValue c
    if next < Width.size 64 then pushFraction ⟨next, s.exponent - 1⟩ rest else s

/-- Divide by `10 ^ 308` until what is left of the exponent is within reach. -/
def scaleDown : Nat → Float → Int → Float
  | 0, f, _ => f
  | steps + 1, f, e =>
    if -308 ≤ e then f / Float.ofScientific 1 false e.natAbs
    else if f == 0 then f
    else scaleDown steps (f / 1e308) (e + 308)

/-- The double for a significand and an exponent; none when it is too large. -/
def Scaled.toFloat? (s : Scaled) : Option Float :=
  let f := s.significand.toUInt64.toFloat
  if s.exponent < 0 then some (scaleDown 4 f s.exponent)
  else if s.exponent ≤ 308 then
    let x := f * Float.ofScientific 1 false s.exponent.natAbs
    if x.isInf then none else some x
  else if f == 0 then some f
  else none

/-- The sign, whole digits, fraction digits and exponent of a number as written. -/
structure NumberText where
  negative : Bool
  whole : List Char
  fraction : List Char
  exponent : Option Int

/-- The value of a run of digits. -/
def digitsValue (cs : List Char) : Nat := cs.foldl (fun n c => n * 10 + digitValue c) 0

/-- The number a text stands for; none when it is too large. -/
def NumberText.value? (t : NumberText) : Option Json :=
  let whole := t.whole.foldl Scaled.pushWhole ⟨0, 0⟩
  let signed (x : Float) : Json := .float (if t.negative then -x else x)
  if t.fraction.isEmpty ∧ t.exponent.isNone ∧ whole.exponent = 0 then
    if !t.negative then some (.int whole.significand)
    else if whole.significand = 0 then some (.float (-0.0))
    else if whole.significand ≤ Width.size 63 then some (.int (-whole.significand))
    else some (.float (-whole.significand.toUInt64.toFloat))
  else
    let scaled := whole.pushFraction t.fraction
    let scaled := { scaled with exponent := scaled.exponent + t.exponent.getD 0 }
    scaled.toFloat?.map signed

/-- Split a text that starts with a number into the number and the rest: an optional minus, whole digits
without a leading zero, at least one digit after a point and after an exponent mark. -/
def NumberText.read? (cs : List Char) : Option (NumberText × List Char) := do
  let (negative, cs) := match cs with
    | '-' :: rest => (true, rest)
    | _ => (false, cs)
  let whole := cs.takeWhile Char.isDigit
  let rest := cs.dropWhile Char.isDigit
  if whole.isEmpty || (whole.head? == some '0' && 1 < whole.length) then none
  let (fraction, rest) ← match rest with
    | '.' :: after =>
      let fraction := after.takeWhile Char.isDigit
      if fraction.isEmpty then none else some (fraction, after.dropWhile Char.isDigit)
    | _ => some ([], rest)
  let marked := match rest with
    | 'e' :: after => some after
    | 'E' :: after => some after
    | _ => none
  match marked with
  | none => some (⟨negative, whole, fraction, none⟩, rest)
  | some after =>
    let (down, after) := match after with
      | '-' :: more => (true, more)
      | '+' :: more => (false, more)
      | _ => (false, after)
    let digits := after.takeWhile Char.isDigit
    if digits.isEmpty then none
    let power : Int := digitsValue digits
    some (⟨negative, whole, fraction, some (if down then -power else power)⟩,
      after.dropWhile Char.isDigit)

end CodeAtlas.Json
