import CodeAtlas.Width

/-!
The two precisions of floating-point numbers. A number of single precision is also one of double precision; the other way
round a number is rounded to the nearest, and to the even one of two that are equally near.
-/
namespace CodeAtlas.Precision

open Float.Model (Format UnpackedFloat)

/-- A number as it is rounded to a format. -/
def refit (format : Format) : UnpackedFloat → UnpackedFloat
  | .finite sign mantissa exponent _ => .round format sign mantissa exponent
  | x => x

/-- A number of single precision in double precision. -/
def widen (x : Float32) : Float := .ofModel (.pack (refit .binary64 x.toModel.unpack))

/-- A number of double precision in single precision. -/
def narrow (x : Float) : Float32 := .ofModel (.pack (refit .binary32 x.toModel.unpack))

end CodeAtlas.Precision

/-!
A total order on floating-point numbers, by their bits: negative numbers come before positive ones, minus
zero before zero, and what is not a number at either end.
-/
namespace CodeAtlas.Decimal

/-- The place of a single-precision number in the order. -/
def rank32 (x : Float32) : Int :=
  let bits := x.toBits.toNat
  if bits < Width.size 31 then bits else Width.size 31 - 1 - (bits : Int)

/-- Whether a number comes no later than another. -/
def atMost32 (x y : Float32) : Bool := rank32 x ≤ rank32 y

theorem atMost32_total (x y : Float32) : atMost32 x y || atMost32 y x := by
  simp only [atMost32, Bool.or_eq_true, decide_eq_true_eq]
  omega

theorem atMost32_trans {x y z : Float32} (h : atMost32 x y) (h' : atMost32 y z) : atMost32 x z := by
  simp only [atMost32, decide_eq_true_eq] at *
  omega

end CodeAtlas.Decimal
