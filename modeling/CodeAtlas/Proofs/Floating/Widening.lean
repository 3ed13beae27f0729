import CodeAtlas.Precision
import CodeAtlas.Proofs.Floating.Arithmetic

/-! Numbers of single precision in double precision. Widening only adds digits, which narrowing cuts off again, so that a
number is kept as it is. -/
namespace CodeAtlas
namespace Floating

open Float.Model (Format UnpackedFloat totalExponent)
open Float.Model.UnpackedFloat

section Round

variable {format : Format} {s : Sign} {m m' : ℕ} {e e' : ℤ}

/-- Digits that were added are cut off without a trace. -/
theorem shiftRight_shiftLeft (m k j : ℕ) :
    (⟨m <<< (k + j), false, false⟩ : ExtendedMantissa) >>> k = ⟨m <<< j, false, false⟩ := by
  show k.repeat ExtendedMantissa.shiftRightOne _ = _
  induction k generalizing j with
  | zero => simp [Nat.repeat]
  | succ k ih =>
    have hdouble : m <<< (j + 1) = 2 * m <<< j := by
      rw [Nat.shiftLeft_succ]
    rw [Nat.repeat, show k + 1 + j = k + (j + 1) by omega, ih, ExtendedMantissa.shiftRightOne, hdouble]
    simp

theorem shiftToTargetExponent_shiftLeft {k : ℕ}
    (htarget : format.targetExponent (totalExponent (m <<< k) (e - k)) = e) :
    shiftToTargetExponent format (m <<< k) (e - k) .exact = (⟨m, false, false⟩, e) := by
  have hshift : (e - (e - k)).toNat = k := by omega
  have hcut := shiftRight_shiftLeft m k 0
  rw [Nat.add_zero, Nat.shiftLeft_zero] at hcut
  simp only [shiftToTargetExponent, shiftToExponent, htarget, hshift, ExtendedMantissa.ofMantissaAndAccuracy, hcut]
  simp

theorem totalExponent_shiftLeft (hm : m ≠ 0) (k : ℕ) (e : ℤ) :
    totalExponent (m <<< k) (e - k) = totalExponent m e := by
  rw [totalExponent, totalExponent, log2_shiftLeft hm]
  push_cast
  omega

/-- A number is rounded to itself, with the exponent that the format asks for. -/
theorem round_eq (hm : 0 < m) (hm' : 0 < m') (hsame : m <<< (e - e').toNat = m' <<< (e' - e).toNat)
    (htarget : format.targetExponent (totalExponent m' e') = e') :
    UnpackedFloat.round format s m e = .finite s m' e' hm' := by
  have hexponent : e - (e - e').toNat = e' - (e' - e).toNat := by omega
  have htotal : totalExponent m e = totalExponent m' e' := by
    rw [← totalExponent_shiftLeft hm.ne' (e - e').toNat, hsame, hexponent, totalExponent_shiftLeft hm'.ne']
  have hfirst : shiftToTargetExponent format (m' <<< (e' - e).toNat) (e' - (e' - e).toNat) .exact =
      (⟨m', false, false⟩, e') :=
    shiftToTargetExponent_shiftLeft (by rw [totalExponent_shiftLeft hm'.ne', htarget])
  have hsecond : shiftToTargetExponent format m' e' .exact = (⟨m', false, false⟩, e') := by
    have h := shiftToTargetExponent_shiftLeft (m := m') (e := e') (k := 0) (by simpa using htarget)
    simpa using h
  have hrounded : (⟨m', false, false⟩ : ExtendedMantissa).roundedMantissa = m' := rfl
  unfold UnpackedFloat.round decreaseExponent roundWithAccuracy
  simp only [htotal, htarget, hsame, hexponent, hfirst, hrounded, hsecond]
  exact dif_neg hm'.ne'

end Round

/-- A number as it stands in single precision: a finite one has at most 24 digits, and less only with the least exponent. -/
inductive IsSingle : UnpackedFloat → Prop
  | infinity (s : Sign) : IsSingle (.infinity s)
  | notANumber : IsSingle .notANumber
  | zero (s : Sign) : IsSingle (.zero s)
  | finite (s : Sign) {m : ℕ} {e : ℤ} (h : 0 < m) (few : m < 2 ^ 24) (least : -149 ≤ e) (greatest : e ≤ 104)
    (digits : 2 ^ 23 ≤ m ∨ e = -149) : IsSingle (.finite s m e h)

section Single

open Precision (refit)

variable {u : UnpackedFloat} {b : BitVec Format.binary32.numBits}

theorem packComponents_unpack (b : BitVec Format.binary32.numBits) :
    packComponents .binary32 (Sign.ofBitVec (unpackSign b)) (unpackExponent b) (unpackMantissa b) = b := by
  have hsign : ∀ v, (Sign.ofBitVec v).toBitVec = v := by decide
  simp only [packComponents, hsign, unpackSign, unpackExponent, unpackMantissa, BitVec.extractLsb]
  ext i hi
  grind

/-- The bits of a number with all 24 digits. -/
theorem pack_single_of_normal {s : Sign} {m n : ℕ} {e : ℤ} (h : 0 < m) (hl : 2 ^ 23 ≤ m) (hu : m < 2 ^ 24)
    (hn : e + 150 = n) (hmost : n < 255) :
    pack .binary32 (.finite s m e h) = packComponents .binary32 s (BitVec.ofNat 8 n) (BitVec.ofNat 23 m) := by
  have hbiased : (e + (Format.binary32.exponentBias : ℕ) + (Format.binary32.mantissaBitsWithoutImplicit : ℕ)).toNat = n := by
    show (e + (127 : ℕ) + (23 : ℕ)).toNat = n
    omega
  simp only [pack, hbiased, log2_of_bounds hl hu]
  rw [if_neg (by omega)]
  rfl

/-- The bits of a number with fewer digits. -/
theorem pack_single_of_subnormal {s : Sign} {m : ℕ} (h : 0 < m) (hu : m < 2 ^ 23) :
    pack .binary32 (.finite s m (-149) h) = packComponents .binary32 s 0#8 (BitVec.ofNat 23 m) := by
  have hlog : m.log2 < 23 := (Nat.log2_lt h.ne').mpr hu
  have hfew : m.log2 + 1 ≠ Format.binary32.mantissaBits := by
    show m.log2 + 1 ≠ 24
    omega
  unfold pack
  dsimp only
  rw [if_neg (by decide), if_neg hfew]

/-- Whether bits hold a number of single precision, one that stands for these bits. -/
def HoldsSingle (b : BitVec Format.binary32.numBits) : Prop :=
  IsSingle (unpack .binary32 b) ∧ pack .binary32 (unpack .binary32 b) = b

/-- With the greatest exponent, bits hold an infinite number or none. -/
theorem holdsSingle_of_last (hb : Format.binary32.Valid b) (hlast : unpackExponent b = -1#8) : HoldsSingle b := by
  by_cases hzero : unpackMantissa b = 0#23
  · have hu : unpack .binary32 b = .infinity (.ofBitVec (unpackSign b)) := by
      simp only [unpack, hlast, hzero, if_true]
    have hself := packComponents_unpack b
    rw [hlast, hzero] at hself
    rw [HoldsSingle, hu]
    exact ⟨.infinity _, hself⟩
  · have hu : unpack .binary32 b = .notANumber := by simp only [unpack, hlast, hzero, if_true, if_false]
    rw [HoldsSingle, hu]
    exact ⟨.notANumber, (hb.eq_packedNaN hlast hzero).symm⟩

/-- With the least exponent, bits hold zero or a number with less than 24 digits. -/
theorem holdsSingle_of_first (hlast : unpackExponent b ≠ -1#8) (hfirst : unpackExponent b = 0#8) : HoldsSingle b := by
  have hself := packComponents_unpack b
  rw [hfirst] at hself
  by_cases hzero : unpackMantissa b = 0#23
  · have hu : unpack .binary32 b = .zero (.ofBitVec (unpackSign b)) := by
      unfold unpack
      rw [if_neg hlast, if_pos hfirst, dif_pos hzero]
    rw [hzero] at hself
    rw [HoldsSingle, hu]
    exact ⟨.zero _, hself⟩
  · have hfew : (unpackMantissa b).toNat < 2 ^ 23 := (unpackMantissa b).isLt
    have hpos : 0 < (unpackMantissa b).toNat := by simpa [BitVec.toNat_pos, BitVec.pos_iff_ne_zero] using hzero
    have hu : unpack .binary32 b = .finite (.ofBitVec (unpackSign b)) (unpackMantissa b).toNat (-149) hpos := by
      unfold unpack
      rw [if_neg hlast, if_pos hfirst, dif_neg hzero]
      simp only [hfirst]
      rfl
    rw [HoldsSingle, hu, pack_single_of_subnormal hpos hfew, BitVec.ofNat_toNat, BitVec.setWidth_eq]
    exact ⟨.finite _ hpos (by omega) le_rfl (by omega) (.inr rfl), hself⟩

/-- With any other exponent, bits hold a number with all 24 digits. -/
theorem holdsSingle_of_between (hlast : unpackExponent b ≠ -1#8) (hfirst : unpackExponent b ≠ 0#8) : HoldsSingle b := by
  have hfew : (unpackMantissa b).toNat < 2 ^ 23 := (unpackMantissa b).isLt
  have hdigits : (1#1 ++ unpackMantissa b).toNat = 2 ^ 23 + (unpackMantissa b).toNat := by
    rw [BitVec.toNat_append, ← Nat.shiftLeft_add_eq_or_of_lt hfew]
    rfl
  have hpos : 0 < (1#1 ++ unpackMantissa b).toNat := by omega
  have hu : unpack .binary32 b = .finite (.ofBitVec (unpackSign b)) (1#1 ++ unpackMantissa b).toNat
      ((unpackExponent b).toNat - 150) hpos := by
    unfold unpack
    rw [if_neg hlast, if_neg hfirst]
    rfl
  have hbits : (unpackExponent b).toNat < 2 ^ 8 := (unpackExponent b).isLt
  have hleast : (unpackExponent b).toNat ≠ 0 := fun h => hfirst (BitVec.toNat_inj.mp h)
  have hmost : (unpackExponent b).toNat ≠ 255 := fun h => hlast (BitVec.toNat_inj.mp h)
  have hmantissa : BitVec.ofNat 23 (1#1 ++ unpackMantissa b).toNat = unpackMantissa b := by
    apply BitVec.toNat_inj.mp
    rw [BitVec.toNat_ofNat, hdigits]
    show _ = (unpackMantissa b).toNat
    omega
  rw [HoldsSingle, hu, pack_single_of_normal (n := (unpackExponent b).toNat) hpos (by omega) (by omega) (by omega)
    (by omega), BitVec.ofNat_toNat, BitVec.setWidth_eq, hmantissa]
  exact ⟨.finite _ hpos (by omega) (by omega) (by omega) (.inl (by omega)), packComponents_unpack b⟩

theorem holdsSingle (hb : Format.binary32.Valid b) : HoldsSingle b := by
  by_cases hlast : unpackExponent b = -1#8
  · exact holdsSingle_of_last hb hlast
  · by_cases hfirst : unpackExponent b = 0#8
    · exact holdsSingle_of_first hlast hfirst
    · exact holdsSingle_of_between hlast hfirst

section Refit

variable {s : Sign} {m k : ℕ} {e : ℤ}

/-- In double precision a number has as many more digits as it lacks. -/
theorem refit_binary64 (h : 0 < m) (h' : 0 < m <<< k) (hk : m.log2 + k = 52) (least : -149 ≤ e) :
    refit .binary64 (.finite s m e h) = .finite s (m <<< k) (e - k) h' := by
  apply round_eq h h'
  · rw [show (e - (e - k)).toNat = k by omega, show (e - k - e).toNat = 0 by omega, Nat.shiftLeft_zero]
  · rw [totalExponent_shiftLeft h.ne', totalExponent]
    show max ((m.log2 : ℤ) + 1 + e - 53) (-1074) = e - k
    omega

/-- In single precision the digits are cut off again. -/
theorem refit_binary32 (h : 0 < m) (h' : 0 < m <<< k) (few : m < 2 ^ 24) (least : -149 ≤ e)
    (digits : 2 ^ 23 ≤ m ∨ e = -149) :
    refit .binary32 (.finite s (m <<< k) (e - k) h') = .finite s m e h := by
  apply round_eq h' h
  · rw [show (e - (e - k)).toNat = k by omega, show (e - k - e).toNat = 0 by omega, Nat.shiftLeft_zero]
  · have hlog : m.log2 < 24 := (Nat.log2_lt h.ne').mpr few
    have hall : 2 ^ 23 ≤ m → 23 ≤ m.log2 := (Nat.le_log2 h.ne').mpr
    rw [totalExponent]
    show max ((m.log2 : ℤ) + 1 + e - 24) (-149) = e
    omega

theorem unpack_pack_binary64 (h : 0 < m) (hl : 2 ^ 52 ≤ m) (hu : m < 2 ^ 53) (least : -1074 ≤ e) (greatest : e < 972) :
    unpack .binary64 (pack .binary64 (.finite s m e h)) = .finite s m e h := by
  obtain ⟨n, hn⟩ : ∃ n : ℕ, e + 1075 = n := ⟨(e + 1075).toNat, by omega⟩
  rw [pack_finite h hl hu hn, if_neg (by omega), unpack_packComponents h hl hu hn (by omega) (by omega)]

end Refit

/-- Double precision has room for a number of single precision, and its digits are cut off again in single precision. -/
theorem IsSingle.refit_refit (h : IsSingle u) :
    unpack .binary64 (pack .binary64 (refit .binary64 u)) = refit .binary64 u ∧
      refit .binary32 (refit .binary64 u) = u := by
  cases h with
  | infinity s => cases s <;> exact ⟨rfl, rfl⟩
  | notANumber => exact ⟨rfl, rfl⟩
  | zero s => cases s <;> exact ⟨rfl, rfl⟩
  | @finite s m e h few least greatest digits =>
    have hlog : m.log2 < 24 := (Nat.log2_lt h.ne').mpr few
    obtain ⟨k, hk⟩ : ∃ k, m.log2 + k = 52 := ⟨52 - m.log2, by omega⟩
    have hpos : 0 < m <<< k := by
      rw [Nat.shiftLeft_eq]
      positivity
    have hwide : (m <<< k).log2 = 52 := by rw [log2_shiftLeft h.ne', hk]
    have hl : 2 ^ 52 ≤ m <<< k := (Nat.le_log2 hpos.ne').mp hwide.ge
    have hu : m <<< k < 2 ^ 53 := (Nat.log2_lt hpos.ne').mp (by omega)
    rw [refit_binary64 h hpos hk least]
    exact ⟨unpack_pack_binary64 hpos hl hu (by omega) (by omega), refit_binary32 h hpos few least digits⟩

end Single

/-- A number of single precision is kept as it is by widening and narrowing it. -/
theorem narrow_widen (x : Float32) : Precision.narrow (Precision.widen x) = x := by
  obtain ⟨hsingle, hpack⟩ := holdsSingle x.toModel.valid
  obtain ⟨hroom, hback⟩ := hsingle.refit_refit
  have hwide : (Precision.widen x).toModel.unpack = Precision.refit .binary64 x.toModel.unpack := hroom
  have hbits : pack .binary32 (Precision.refit .binary32 (Precision.widen x).toModel.unpack) = x.toModel.toBits.toBitVec := by
    rw [hwide]
    exact (congrArg (pack .binary32) hback).trans hpack
  have hmodel : Float32.Model.pack (Precision.refit .binary32 (Precision.widen x).toModel.unpack) = x.toModel := by
    simp only [Float32.Model.pack, hbits]
  rw [Precision.narrow, hmodel]

end Floating
end CodeAtlas
