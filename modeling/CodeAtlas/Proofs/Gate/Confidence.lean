import Mathlib
import CodeAtlas.Gate.Checks
import CodeAtlas.Settings.Basic

/-! Bounds of a confidence. Numbers between zero and one are in one order or the other, so that bounds which fit can
always hold a confidence between them. -/
namespace CodeAtlas

open Float.Model (UnpackedFloat)

namespace Gate

theorem compare_swap (a b : UnpackedFloat) : b.compare a = (a.compare b).map Ordering.swap := by
  have hfinite : ∀ (m m' : Nat) (e e' : Int),
      (compare e' e).then (compare m' m) = ((compare e e').then (compare m m')).swap := by
    intro m m' e e'
    rw [Ordering.swap_then, ← Std.OrientedCmp.eq_swap, ← Std.OrientedCmp.eq_swap]
  rcases a with (_ | _) | _ | (_ | _) | ⟨_ | _, m, e, h⟩ <;>
    rcases b with (_ | _) | _ | (_ | _) | ⟨_ | _, m', e', h'⟩ <;>
    first
    | rfl
    | exact congrArg some (hfinite m m' e e')
    | exact congrArg (some ·.swap) (hfinite m m' e e')

theorem isSome_compare {a b : UnpackedFloat} (ha : a ≠ .notANumber) (hb : b ≠ .notANumber) : (a.compare b).isSome := by
  rcases a with (_ | _) | _ | (_ | _) | ⟨_ | _, m, e, h⟩ <;>
    rcases b with (_ | _) | _ | (_ | _) | ⟨_ | _, m', e', h'⟩ <;>
    first
    | rfl
    | contradiction

section Floats

variable {x y : Float}

theorem le_iff : x ≤ y ↔ (x.toModel.unpack.compare y.toModel.unpack).any (·.isLE) := decide_eq_true_iff

theorem lt_iff : x < y ↔ x.toModel.unpack.compare y.toModel.unpack = some .lt :=
  decide_eq_true_iff.trans beq_iff_eq

/-- What is at least as great as something is a number. -/
theorem ne_notANumber_of_le (h : x ≤ y) : y.toModel.unpack ≠ .notANumber := by
  intro hy
  rw [le_iff, hy, compare_swap] at h
  cases h

/-- Of two numbers that are not out of order the first is at most the second. -/
theorem le_of_not_lt (hx : x.toModel.unpack ≠ .notANumber) (hy : y.toModel.unpack ≠ .notANumber) (h : ¬ y < x) :
    x ≤ y := by
  obtain ⟨o, ho⟩ := Option.isSome_iff_exists.mp (isSome_compare hx hy)
  rw [lt_iff, compare_swap, ho] at h
  rw [le_iff, ho]
  cases o with
  | lt => rfl
  | eq => rfl
  | gt => exact absurd rfl h

end Floats

theorem isSome_clamp?_iff {floor ceiling x : Float} : (clamp? floor ceiling x).isSome ↔ floor ≤ ceiling := by
  unfold clamp?
  split
  · next hle => exact ⟨fun _ => hle, fun _ => rfl⟩
  · next hnot => exact ⟨nofun, fun hle => absurd hle hnot⟩

/-- Between bounds that fit there is a place for every confidence. -/
theorem isSome_scaled? {q : Settings.Quality} (h : q.boundsFit) (confidence score : Float) :
    (scaled? confidence score q.confidenceFloor q.confidenceCeiling).isSome := by
  simp only [Settings.Quality.boundsFit, Settings.isFraction, Bool.and_eq_true, decide_eq_true_eq, Bool.not_eq_true',
    decide_eq_false_iff_not] at h
  obtain ⟨⟨⟨hfloor, _⟩, ⟨hceiling, _⟩⟩, horder⟩ := h
  exact isSome_clamp?_iff.mpr (le_of_not_lt (ne_notANumber_of_le hfloor) (ne_notANumber_of_le hceiling) horder)

end Gate

end CodeAtlas

/-! The confidence of a section that has been judged. A product of finite numbers may be too great or too small for
floating point, but it is a number, and every number has a place between bounds that fit. -/
namespace CodeAtlas
namespace Floating

open Float.Model (Format UnpackedFloat)
open Float.Model.UnpackedFloat

/-- Bits without a mantissa, or whose exponent is not the greatest one, are not those that stand for no number. -/
theorem packComponents_ne_packedNaN {s : Sign} {exponent : BitVec Format.binary64.exponentBits}
    {mantissa : BitVec Format.binary64.mantissaBitsWithoutImplicit} (h : mantissa = 0 ∨ exponent ≠ -1) :
    packComponents .binary64 s exponent mantissa ≠ packedNaN .binary64 := by
  intro heq
  have hexponent := congrArg unpackExponent heq
  have hmantissa := congrArg unpackMantissa heq
  simp only [packedNaN, unpackExponent_packComponents, unpackMantissa_packComponents] at hexponent hmantissa
  rcases h with h | h
  · exact absurd (h.symm.trans hmantissa) (by decide)
  · exact h hexponent

/-- A number is kept as a number. -/
theorem unpack_pack_ne_notANumber {u : UnpackedFloat} (hu : u ≠ .notANumber) :
    unpack .binary64 (pack .binary64 u) ≠ .notANumber := by
  rw [Ne, unpack_eq_notANumber_iff_of_valid valid_pack]
  cases u with
  | notANumber => exact absurd rfl hu
  | infinity s => exact packComponents_ne_packedNaN (.inl rfl)
  | zero s => exact packComponents_ne_packedNaN (.inl rfl)
  | finite s m e hm =>
    simp only [pack]
    split
    · exact packComponents_ne_packedNaN (.inl rfl)
    · next hfits =>
      have hexponents : 2 ^ Format.binary64.exponentBits = 2048 := rfl
      split
      · refine packComponents_ne_packedNaN (.inr fun heq => ?_)
        have hexponent := congrArg BitVec.toNat heq
        rw [BitVec.toNat_ofNat, Nat.mod_eq_of_lt (by omega)] at hexponent
        have hgreatest : (-1 : BitVec Format.binary64.exponentBits).toNat = 2047 := rfl
        omega
      · exact packComponents_ne_packedNaN (.inr (by decide))

theorem roundWithAccuracy_ne_notANumber (s : Sign) (m : ℕ) (e : ℤ) (a : Accuracy) :
    roundWithAccuracy .binary64 s m e a ≠ .notANumber := by
  simp only [roundWithAccuracy]
  split <;> nofun

theorem mul_ne_notANumber {a b : UnpackedFloat} (ha : a.isFinite) (hb : b.isFinite) :
    UnpackedFloat.mul .binary64 a b ≠ .notANumber := by
  cases a with
  | notANumber => cases ha
  | infinity s => cases ha
  | zero s =>
    cases b with
    | notANumber => cases hb
    | infinity s' => cases hb
    | zero s' => nofun
    | finite s' m' e' h' => nofun
  | finite s m e h =>
    cases b with
    | notANumber => cases hb
    | infinity s' => cases hb
    | zero s' => nofun
    | finite s' m' e' h' => exact roundWithAccuracy_ne_notANumber _ _ _ _

/-- A product of finite numbers is a number. -/
theorem unpack_mul_ne_notANumber {x y : Float} (hx : x.isFinite) (hy : y.isFinite) :
    (x * y).toModel.unpack ≠ .notANumber :=
  unpack_pack_ne_notANumber (mul_ne_notANumber hx hy)

end Floating

namespace Gate

variable {floor ceiling x c : Float}

/-- What is at most something is a number. -/
theorem ne_notANumber_left_of_le (h : x ≤ c) : x.toModel.unpack ≠ .notANumber := by
  intro hx
  rw [le_iff, hx] at h
  cases h

theorem le_self_of_ne_notANumber (hx : x.toModel.unpack ≠ .notANumber) : x ≤ x := by
  refine le_of_not_lt hx hx fun h => ?_
  have hswap := compare_swap x.toModel.unpack x.toModel.unpack
  rw [lt_iff.mp h] at hswap
  cases hswap

/-- A number is put between the bounds. -/
theorem clamp?_bounds (hx : x.toModel.unpack ≠ .notANumber) (h : clamp? floor ceiling x = some c) :
    floor ≤ c ∧ c ≤ ceiling := by
  unfold clamp? at h
  split at h
  · next horder =>
    have hfloor := ne_notANumber_left_of_le horder
    have hceiling := ne_notANumber_of_le horder
    cases h
    split
    · exact ⟨le_self_of_ne_notANumber hfloor, horder⟩
    · next hge =>
      split
      · exact ⟨horder, le_self_of_ne_notANumber hceiling⟩
      · next hle => exact ⟨le_of_not_lt hfloor hx hge, le_of_not_lt hx hceiling hle⟩
  · cases h

theorem isFinite_div_of_le_four {held total : ℕ} (htotal : 0 < total) (hmost : total ≤ 4) (hheld : held ≤ 4) :
    (held.toUInt64.toFloat / total.toUInt64.toFloat).isFinite := by
  have hall : ∀ total < 5, ∀ held < 5, 0 < total →
      (held.toUInt64.toFloat / total.toUInt64.toFloat).isFinite := by decide +kernel
  exact hall total (by omega) held (by omega) htotal

/-- One check is always made, and three more if the rules ask for them. -/
theorem length_outcomes (rules : Rules) (content : String) :
    0 < (outcomes rules content).length ∧ (outcomes rules content).length ≤ 4 := by
  simp only [outcomes, List.length_append, List.length_singleton]
  split <;> split <;> split <;> simp

theorem isFinite_score_judge (name : String) (rules : Rules) (content : String) :
    (judge name rules content).score.isFinite := by
  obtain ⟨hpos, hmost⟩ := length_outcomes rules content
  exact isFinite_div_of_le_four hpos hmost ((Nat.sub_le _ _).trans hmost)

/-- The confidence of a section lies between the bounds if that of its draft is finite. -/
theorem scaled?_bounds {confidence : Float} {name content : String} {rules : Rules} (hconfidence : confidence.isFinite)
    (h : scaled? confidence (judge name rules content).score floor ceiling = some c) : floor ≤ c ∧ c ≤ ceiling :=
  clamp?_bounds (Floating.unpack_mul_ne_notANumber hconfidence (isFinite_score_judge name rules content)) h

end Gate
end CodeAtlas
