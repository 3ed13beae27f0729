import CodeAtlas.Proofs.Floating.Rounding
import CodeAtlas.Proofs.Gate.Confidence

/-! Positive numbers in floating point. One that is not infinite has all its 53 binary digits here, so that its exponent
and its digits tell which of two is less. Sums and quotients are the true ones, rounded. Rounding respects the order, so
that a sum is not less than what it is a sum of, and one part of greater numbers is less. -/
namespace CodeAtlas
namespace Floating

open Float.Model (Format UnpackedFloat totalExponent)
open Float.Model.UnpackedFloat

/-- A positive number, with all its digits unless it is infinite. -/
inductive IsPositive : UnpackedFloat → Prop
  | infinity : IsPositive (.infinity .positive)
  | finite {m : ℕ} {e : ℤ} (h : 0 < m) (digits : 2 ^ 52 ≤ m) (few : m < 2 ^ 53) (least : -1074 ≤ e) (greatest : e < 972) :
    IsPositive (.finite .positive m e h)

/-- The least number that is too great. -/
def limit : ℚ := 2 ^ 52 * 2 ^ (972 : ℤ)

/-- How great a number is; an infinite one is as great as the least number that is too great. -/
def size : UnpackedFloat → ℚ
  | .finite _ m e _ => m * 2 ^ e
  | .infinity _ => limit
  | .zero _ => 0
  | .notANumber => 0

section Size

variable {m m' : ℕ} {e e' : ℤ}

/-- Of two numbers with all their digits the one with the lower exponent is less. -/
theorem lt_of_exponent_lt (hm : m < 2 ^ 53) (hm' : 2 ^ 52 ≤ m') (he : e < e') : (m * 2 ^ e : ℚ) < m' * 2 ^ e' := by
  have hpos := two_zpow_pos e
  have hstep : (2 : ℚ) ^ (e + 1) ≤ 2 ^ e' := zpow_le_zpow_right₀ (by norm_num) he
  rw [zpow_add_one₀ (by norm_num)] at hstep
  calc (m * 2 ^ e : ℚ)
    _ < 2 ^ 53 * 2 ^ e := by gcongr; exact_mod_cast hm
    _ = 2 ^ 52 * (2 ^ e * 2) := by ring
    _ ≤ 2 ^ 52 * 2 ^ e' := by gcongr
    _ ≤ m' * 2 ^ e' := by gcongr; exact_mod_cast hm'

theorem size_lt_limit (hm : m < 2 ^ 53) (he : e < 972) : (m * 2 ^ e : ℚ) < limit := by
  have hlt := lt_of_exponent_lt hm (le_refl (2 ^ 52)) he
  rwa [Nat.cast_pow, Nat.cast_ofNat] at hlt

theorem limit_le_size (hm : 2 ^ 52 ≤ m) (he : 972 ≤ e) : limit ≤ m * 2 ^ e := by
  have hstep : (2 : ℚ) ^ (972 : ℤ) ≤ 2 ^ e := zpow_le_zpow_right₀ (by norm_num) he
  unfold limit
  gcongr
  exact_mod_cast hm

theorem IsPositive.size_pos {a : UnpackedFloat} (h : IsPositive a) : 0 < size a := by
  cases h with
  | infinity => exact mul_pos (by norm_num) (two_zpow_pos _)
  | finite h _ _ _ _ => exact mul_pos (by exact_mod_cast h) (two_zpow_pos _)

theorem IsPositive.size_le {a : UnpackedFloat} (h : IsPositive a) : size a ≤ limit := by
  cases h with
  | infinity => exact le_rfl
  | finite h _ few _ greatest => exact (size_lt_limit few greatest).le

end Size

/-- Positive numbers are in the order of their sizes. -/
theorem IsPositive.compare_eq_lt {a b : UnpackedFloat} (ha : IsPositive a) (hb : IsPositive b) :
    a.compare b = some .lt ↔ size a < size b := by
  cases ha with
  | infinity =>
    refine iff_of_false ?_ (not_lt.mpr hb.size_le)
    cases hb <;> exact fun h => nomatch h
  | @finite m e h digits few _ greatest =>
    cases hb with
    | infinity => exact iff_of_true rfl (size_lt_limit few greatest)
    | @finite m' e' h' digits' few' _ _ =>
      show some ((compare e e').then (compare m m')) = some .lt ↔ (m * 2 ^ e : ℚ) < m' * 2 ^ e'
      rw [Option.some.injEq]
      rcases lt_trichotomy e e' with hlt | rfl | hgt
      · rw [compare_lt_iff_lt.mpr hlt]
        exact iff_of_true rfl (lt_of_exponent_lt few digits' hlt)
      · rw [compare_eq_iff_eq.mpr rfl, mul_lt_mul_iff_left₀ (two_zpow_pos e), Nat.cast_lt]
        exact compare_lt_iff_lt
      · rw [compare_gt_iff_gt.mpr hgt]
        exact iff_of_false (fun h => nomatch h) (lt_of_exponent_lt few' digits hgt).not_gt

/-- How great a number in floating point is. -/
def value (x : Float) : ℚ := size x.toModel.unpack

/-- Whether a number in floating point is positive. -/
def Positive (x : Float) : Prop := IsPositive x.toModel.unpack

theorem Positive.ne_notANumber {x : Float} (hx : Positive x) : x.toModel.unpack ≠ .notANumber := by
  intro h
  unfold Positive at hx
  rw [h] at hx
  cases hx

theorem Positive.lt_iff {x y : Float} (hx : Positive x) (hy : Positive y) : x < y ↔ value x < value y :=
  Gate.lt_iff.trans (IsPositive.compare_eq_lt hx hy)

section Pack

variable {m : ℕ} {e : ℤ} {n : ℕ} {s : Sign}

/-- The bits of a number with all its digits: those of its exponent are counted from the least one. -/
theorem pack_finite (h : 0 < m) (hl : 2 ^ 52 ≤ m) (hu : m < 2 ^ 53) (hn : e + 1075 = n) :
    pack .binary64 (.finite s m e h) =
      if 2048 ≤ n + 1 then packedInfinity .binary64 s
      else packComponents .binary64 s (BitVec.ofNat 11 n) (BitVec.ofNat 52 m) := by
  have hbiased : (e + (Format.binary64.exponentBias : ℕ) + (Format.binary64.mantissaBitsWithoutImplicit : ℕ)).toNat = n := by
    show (e + (1023 : ℕ) + (52 : ℕ)).toNat = n
    omega
  simp only [pack, hbiased, log2_of_bounds hl hu]
  rfl

theorem toNat_digits (hl : 2 ^ 52 ≤ m) (hu : m < 2 ^ 53) : (1#1 ++ BitVec.ofNat 52 m).toNat = m := by
  rw [BitVec.toNat_append, BitVec.toNat_ofNat m, ← Nat.shiftLeft_add_eq_or_of_lt (Nat.mod_lt _ (by norm_num))]
  show 2 ^ 52 + m % 2 ^ 52 = m
  omega

theorem ofNat_ne_ofNat {k : ℕ} (hn : n < 2048) (hk : k < 2048) (hne : n ≠ k) : BitVec.ofNat 11 n ≠ BitVec.ofNat 11 k := by
  intro heq
  have h := congrArg BitVec.toNat heq
  rw [BitVec.toNat_ofNat, BitVec.toNat_ofNat, Nat.mod_eq_of_lt hn, Nat.mod_eq_of_lt hk] at h
  exact hne h

theorem unpack_packComponents (h : 0 < m) (hl : 2 ^ 52 ≤ m) (hu : m < 2 ^ 53) (hn : e + 1075 = n) (h0 : n ≠ 0)
    (hmost : n < 2047) :
    unpack .binary64 (packComponents .binary64 s (BitVec.ofNat 11 n) (BitVec.ofNat 52 m)) =
      .finite s m e h := by
  have hlast : BitVec.ofNat 11 n ≠ -1#11 := ofNat_ne_ofNat (k := 2047) (by omega) (by norm_num) (by omega)
  have hfirst : BitVec.ofNat 11 n ≠ 0#11 := ofNat_ne_ofNat (by omega) (by norm_num) h0
  have hexp : ((BitVec.ofNat 11 n).toNat : ℤ) - ((Format.binary64.exponentBias : ℕ) + (52 : ℕ)) = e := by
    rw [BitVec.toNat_ofNat, Nat.mod_eq_of_lt (by omega)]
    show (n : ℤ) - ((1023 : ℕ) + (52 : ℕ)) = e
    omega
  simp only [unpack, unpackMantissa_packComponents, unpackExponent_packComponents, unpackSign_packComponents]
  rw [if_neg hlast, if_neg hfirst]
  simp only [toNat_digits hl hu, hexp]
  cases s <;> rfl

/-- A number is kept as it is, or infinite if it is too great. -/
theorem isPositive_unpack_pack (h : 0 < m) (hl : 2 ^ 52 ≤ m) (hu : m < 2 ^ 53) (he : -1074 ≤ e) :
    IsPositive (unpack .binary64 (pack .binary64 (.finite .positive m e h))) ∧
      size (unpack .binary64 (pack .binary64 (.finite .positive m e h))) = min ((m : ℚ) * 2 ^ e) limit := by
  obtain ⟨n, hn⟩ : ∃ n : ℕ, e + 1075 = n := ⟨(e + 1075).toNat, by omega⟩
  rw [pack_finite h hl hu hn]
  by_cases hfits : e < 972
  · rw [if_neg (by omega), unpack_packComponents h hl hu hn (by omega) (by omega)]
    exact ⟨.finite h hl hu he hfits, (min_eq_left (size_lt_limit hu hfits).le).symm⟩
  · rw [if_pos (by omega)]
    exact ⟨.infinity, (min_eq_right (limit_le_size hl (by omega))).symm⟩

end Pack

/-- A number in floating point that a number is rounded to; too great a number is rounded to the infinite one. -/
structure IsRounded (q : ℚ) (x : Float) : Prop where
  positive : Positive x
  rounds : ∃ w, Rounds q w ∧ value x = min w limit

section Rounded

variable {q q' : ℚ} {x x' : Float} {m m' : ℕ} {e e' : ℤ} {a : Accuracy}

/-- Greater numbers are rounded to greater ones. -/
theorem IsRounded.mono (h : IsRounded q x) (h' : IsRounded q' x') (hle : q ≤ q') : value x ≤ value x' := by
  obtain ⟨w, hw, hx⟩ := h.rounds
  obtain ⟨w', hw', hx'⟩ := h'.rounds
  rw [hx, hx']
  exact min_le_min_right _ (hw.mono hw' hle)

/-- A number that a power of two bounds is not rounded beyond it. -/
theorem IsRounded.value_le (h : IsRounded q x) {t : ℤ} (hle : q ≤ 2 ^ 52 * 2 ^ t) : value x ≤ 2 ^ 52 * 2 ^ t := by
  obtain ⟨w, hw, hx⟩ := h.rounds
  have hself := rounds_self (m := 2 ^ 52) le_rfl (by norm_num) t
  push_cast at hself
  exact hx ▸ (min_le_left _ _).trans (hw.mono hself hle)

/-- A positive number that is not infinite has digits. -/
theorem Positive.exists_finite (hx : Positive x) (hlt : value x < limit) :
    ∃ (m : ℕ) (e : ℤ) (h : 0 < m), x.toModel.unpack = .finite .positive m e h ∧ 2 ^ 52 ≤ m ∧ m < 2 ^ 53 ∧ -1074 ≤ e := by
  unfold Positive at hx
  unfold value at hlt
  generalize x.toModel.unpack = u at hx hlt
  cases hx with
  | infinity => exact absurd hlt (lt_irrefl _)
  | finite h digits few least _ => exact ⟨_, _, h, rfl, digits, few, least⟩

/-- A number that can be written with 53 digits is rounded to itself. -/
theorem isRounded_value (hx : Positive x) (hlt : value x < limit) : IsRounded (value x) x := by
  obtain ⟨m, e, h, hu, digits, few, _⟩ := hx.exists_finite hlt
  refine ⟨hx, value x, ?_, (min_eq_left hlt.le).symm⟩
  rw [value, hu]
  exact rounds_self digits few e

theorem isRounded_ofModel {q : ℚ} {u : UnpackedFloat} {m' : ℕ} {e' : ℤ} {h : 0 < m'} (hu : u = .finite .positive m' e' h)
    (hdigits : 2 ^ 52 ≤ m') (hfew : m' < 2 ^ 53) (hleast : -1074 ≤ e') (hrounds : Rounds q (m' * 2 ^ e')) :
    IsRounded q (.ofModel (.pack u)) := by
  obtain ⟨hpos, hsize⟩ := isPositive_unpack_pack h hdigits hfew hleast
  rw [← hu] at hpos hsize
  exact ⟨hpos, _, hrounds, hsize⟩

/-- A number with digits enough is rounded. -/
theorem isRounded_roundWithAccuracy {z : ℚ} (hm : 2 ^ 52 ≤ m) (he : -1074 ≤ m.log2 - 52 + e)
    (hz : Tells (.ofMantissaAndAccuracy m a) z) :
    IsRounded (z * 2 ^ e) (.ofModel (.pack (roundWithAccuracy .binary64 .positive m e a))) := by
  obtain ⟨m', e', h, hround, hdigits, hfew, hleast, hrounds⟩ := exists_roundWithAccuracy .positive hm he hz
  exact isRounded_ofModel hround hdigits hfew hleast hrounds

/-- Digits are added to a number that has too few. -/
theorem log2_shiftLeft (hm : m ≠ 0) (k : ℕ) : (m <<< k).log2 = m.log2 + k := by
  rw [Nat.shiftLeft_eq]
  refine log2_of_bounds ?_ ?_
  · rw [pow_add]
    exact Nat.mul_le_mul_right _ (Nat.log2_self_le hm)
  · rw [show m.log2 + k + 1 = (m.log2 + 1) + k by omega, pow_add]
    exact Nat.mul_lt_mul_of_pos_right Nat.lt_log2_self (by positivity)

theorem shiftLeft_mul_zpow (m k : ℕ) (e : ℤ) : ((m <<< k : ℕ) : ℚ) * 2 ^ (e - k) = m * 2 ^ e := by
  rw [Nat.shiftLeft_eq, zpow_sub₀ (by norm_num), zpow_natCast]
  push_cast
  field_simp

/-- A number that is not too small is rounded. -/
theorem isRounded_normalize (hm : 0 < m) (he : -1074 ≤ m.log2 - 52 + e) :
    IsRounded (m * 2 ^ e) (.ofModel (.pack (UnpackedFloat.normalize .binary64 m e .positive))) := by
  have hround : UnpackedFloat.normalize .binary64 m e .positive = UnpackedFloat.round .binary64 .positive m e := by
    unfold UnpackedFloat.normalize
    rw [compare_gt_iff_gt.mpr (by exact_mod_cast hm)]
    rfl
  obtain ⟨k, hk⟩ : ∃ k : ℕ, 52 - m.log2 = k := ⟨_, rfl⟩
  have hshift : (e - Format.binary64.targetExponent (totalExponent m e)).toNat = k := by
    unfold Format.targetExponent totalExponent Format.minExponent Format.mantissaBits
    push_cast
    omega
  have hlog := log2_shiftLeft hm.ne' k
  have hdigits : 2 ^ 52 ≤ m <<< k := by
    have hne : m <<< k ≠ 0 := by
      rw [Nat.shiftLeft_eq]
      positivity
    exact (Nat.le_log2 hne).mp (by omega)
  have hrounded := isRounded_roundWithAccuracy (a := .exact) (z := (m <<< k : ℕ)) (e := e - k) hdigits
    (by rw [hlog]; push_cast; omega) rfl
  rw [shiftLeft_mul_zpow] at hrounded
  rw [hround]
  unfold UnpackedFloat.round decreaseExponent
  simp only [hshift]
  exact hrounded

/-- A whole number is rounded. -/
theorem isRounded_toFloat {n : UInt64} (hn : n ≠ 0) : IsRounded n.toNat n.toFloat := by
  have hpos : 0 < n.toNat := Nat.pos_of_ne_zero fun h => hn (UInt64.toNat_inj.mp h)
  have h := isRounded_normalize (e := 0) hpos (by omega)
  rwa [zpow_zero, mul_one] at h

theorem value_toFloat_zero : value (0 : UInt64).toFloat = 0 := rfl

theorem value_toFloat_le (n : UInt64) : value n.toFloat ≤ 2 ^ 52 * 2 ^ (12 : ℤ) := by
  by_cases hn : n = 0
  · rw [hn, value_toFloat_zero]
    positivity
  · refine (isRounded_toFloat hn).value_le ?_
    have hlt := n.toNat_lt
    norm_num
    exact_mod_cast hlt.le

theorem value_toFloat_lt_limit (n : UInt64) : value n.toFloat < limit :=
  (value_toFloat_le n).trans_lt
    (mul_lt_mul_of_pos_left (zpow_lt_zpow_right₀ (by norm_num) (by norm_num)) (by norm_num))

/-- Greater whole numbers have greater counterparts in floating point. -/
theorem value_toFloat_mono {m n : UInt64} (h : m.toNat ≤ n.toNat) : value m.toFloat ≤ value n.toFloat := by
  by_cases hm : m = 0
  · rw [hm, value_toFloat_zero]
    by_cases hn : n = 0
    · rw [hn, value_toFloat_zero]
    · exact (isRounded_toFloat hn).positive.size_pos.le
  · have hn : n ≠ 0 := by
      rintro rfl
      exact hm (UInt64.toNat_inj.mp (Nat.le_zero.mp h))
    exact (isRounded_toFloat hm).mono (isRounded_toFloat hn) (by exact_mod_cast h)

/-- A sum is rounded. -/
theorem isRounded_add (hx : Positive x) (hx' : Positive x') (hlt : value x < limit) (hlt' : value x' < limit) :
    IsRounded (value x + value x') (x + x') := by
  obtain ⟨m, e, h, hu, digits, few, least⟩ := hx.exists_finite hlt
  obtain ⟨m', e', h', hu', digits', few', least'⟩ := hx'.exists_finite hlt'
  -- both are written with the lower of the two exponents
  obtain ⟨k, hk⟩ : ∃ k, (e - min e e').toNat = k := ⟨_, rfl⟩
  obtain ⟨k', hk'⟩ : ∃ k', (e' - min e e').toNat = k' := ⟨_, rfl⟩
  have hsum : x + x' =
      .ofModel (.pack (UnpackedFloat.normalize .binary64 ((m <<< k + m' <<< k' : ℕ) : ℤ) (min e e') .positive)) := by
    show Float.ofModel (.pack (UnpackedFloat.add .binary64 x.toModel.unpack x'.toModel.unpack)) = _
    rw [hu, hu', Nat.cast_add, ← hk, ← hk']
    rfl
  have hdigits : 2 ^ 52 ≤ m <<< k + m' <<< k' := by
    rw [Nat.shiftLeft_eq]
    exact (digits.trans (Nat.le_mul_of_pos_right m (by positivity))).trans (Nat.le_add_right _ _)
  have hlog : 52 ≤ (m <<< k + m' <<< k').log2 := (Nat.le_log2 (by omega)).mpr hdigits
  have hrounded := isRounded_normalize (m := m <<< k + m' <<< k') (e := min e e') (by omega) (by omega)
  have hvalue : ((m <<< k + m' <<< k' : ℕ) : ℚ) * 2 ^ min e e' = m * 2 ^ e + m' * 2 ^ e' := by
    rw [Nat.cast_add, add_mul, ← shiftLeft_mul_zpow m k e, ← shiftLeft_mul_zpow m' k' e', show e - k = min e e' by omega,
      show e' - k' = min e e' by omega]
  rw [hvalue] at hrounded
  rw [hsum, value, hu, value, hu']
  exact hrounded

theorem Positive.eq_infinity (hx : Positive x) (hle : limit ≤ value x) : x.toModel.unpack = .infinity .positive := by
  unfold Positive at hx
  unfold value at hle
  generalize x.toModel.unpack = u at hx hle
  cases hx with
  | infinity => rfl
  | finite h _ few _ greatest => exact absurd hle (not_le.mpr (size_lt_limit few greatest))

theorem add_infinity {b : UnpackedFloat} (hb : IsPositive b) :
    UnpackedFloat.add .binary64 (.infinity .positive) b = .infinity .positive ∧
      UnpackedFloat.add .binary64 b (.infinity .positive) = .infinity .positive := by
  cases hb <;> exact ⟨rfl, rfl⟩

theorem unpack_pack_infinity : unpack .binary64 (pack .binary64 (.infinity .positive)) = .infinity .positive := rfl

/-- A sum is infinite if one of its parts is. -/
theorem Positive.add_infinity (hx : Positive x) (hx' : Positive x') (h : limit ≤ value x ∨ limit ≤ value x') :
    Positive (x + x') ∧ value (x + x') = limit := by
  have hsum : UnpackedFloat.add .binary64 x.toModel.unpack x'.toModel.unpack = .infinity .positive := by
    rcases h with h | h
    · rw [hx.eq_infinity h]
      exact (Floating.add_infinity hx').1
    · rw [hx'.eq_infinity h]
      exact (Floating.add_infinity hx).2
  have hunpack : (x + x').toModel.unpack = .infinity .positive := by
    show unpack .binary64 (pack .binary64 (UnpackedFloat.add .binary64 x.toModel.unpack x'.toModel.unpack)) = _
    rw [hsum, unpack_pack_infinity]
  unfold Positive value
  rw [hunpack]
  exact ⟨.infinity, rfl⟩

/-- A sum of positive numbers is positive, and not less than the first. -/
theorem Positive.add (hx : Positive x) (hx' : Positive x') : Positive (x + x') ∧ value x ≤ value (x + x') := by
  rcases lt_or_ge (value x) limit with hlt | hge
  · rcases lt_or_ge (value x') limit with hlt' | hge'
    · have hsum := isRounded_add hx hx' hlt hlt'
      exact ⟨hsum.positive, (isRounded_value hx hlt).mono hsum (le_add_of_nonneg_right hx'.size_pos.le)⟩
    · obtain ⟨hpos, heq⟩ := hx.add_infinity hx' (.inr hge')
      exact ⟨hpos, heq ▸ hlt.le⟩
  · obtain ⟨hpos, heq⟩ := hx.add_infinity hx' (.inl hge)
    exact ⟨hpos, heq ▸ hx.size_le⟩

/-- The quotient of two whole numbers, and what is known of the digits that are cut off. -/
theorem tells_div (n : ℕ) {d : ℕ} (hd : 0 < d) :
    Tells (.ofMantissaAndAccuracy (n / d) (accuracyOfFraction (n % d) d)) (n / d : ℚ) := by
  have hd' : (0 : ℚ) < d := by exact_mod_cast hd
  have hdiv : (n : ℚ) / d = (n / d : ℕ) + (n % d : ℕ) / (d : ℚ) := by
    rw [div_eq_iff hd'.ne', add_mul, div_mul_cancel₀ _ hd'.ne']
    exact_mod_cast (Nat.div_add_mod' n d).symm
  have hlt : ((n % d : ℕ) : ℚ) < d := by exact_mod_cast Nat.mod_lt n hd
  rw [hdiv]
  generalize n / d = m
  unfold accuracyOfFraction
  split
  · next hzero =>
    rw [hzero]
    simp [ExtendedMantissa.ofMantissaAndAccuracy, Tells]
  · next hne =>
    have hpos : (0 : ℚ) < (n % d : ℕ) := by exact_mod_cast Nat.pos_of_ne_zero hne
    have hfrac : (0 : ℚ) < (n % d : ℕ) / (d : ℚ) := div_pos hpos hd'
    have hfrac1 : ((n % d : ℕ) : ℚ) / (d : ℚ) < 1 := (div_lt_one hd').mpr hlt
    rcases lt_trichotomy (2 * (n % d)) d with h | h | h
    · rw [compare_lt_iff_lt.mpr h]
      have hhalf : ((n % d : ℕ) : ℚ) / d < 1 / 2 := by
        rw [div_lt_div_iff₀ hd' (by norm_num)]
        have : (2 * (n % d : ℕ) : ℚ) < d := by exact_mod_cast h
        linarith
      exact ⟨by linarith, by linarith⟩
    · rw [compare_eq_iff_eq.mpr h]
      have hhalf : ((n % d : ℕ) : ℚ) / d = 1 / 2 := by
        rw [div_eq_div_iff hd'.ne' (by norm_num)]
        have : (2 * (n % d : ℕ) : ℚ) = d := by exact_mod_cast h
        linarith
      show (m : ℚ) + _ = m + 1 / 2
      rw [hhalf]
    · rw [compare_gt_iff_gt.mpr h]
      have hhalf : 1 / 2 < ((n % d : ℕ) : ℚ) / d := by
        rw [div_lt_div_iff₀ (by norm_num) hd']
        have : (d : ℚ) < 2 * (n % d : ℕ) := by exact_mod_cast h
        linarith
      exact ⟨by linarith, by linarith⟩

/-- Enough digits of a quotient. -/
theorem divCore_eq (hl : 2 ^ 52 ≤ m) (hu : m < 2 ^ 53) (hl' : 2 ^ 52 ≤ m') (hu' : m' < 2 ^ 53) (he : e' ≤ e + 1021) :
    divCore .binary64 m e m' e' = ((m <<< 53) / m', e - e' - 53, accuracyOfFraction ((m <<< 53) % m') m') := by
  have htarget : min (e - e') (Format.binary64.targetExponent (totalExponent m e - totalExponent m' e')) = e - e' - 53 := by
    unfold Format.targetExponent totalExponent Format.minExponent Format.mantissaBits
    rw [log2_of_bounds hl hu, log2_of_bounds hl' hu']
    push_cast
    omega
  have hshift : (e - e' - (e - e' - 53)).toNat = 53 := by omega
  simp only [divCore, htarget, hshift]

/-- A quotient that is not too small is rounded. -/
theorem isRounded_div (hx : Positive x) (hlt : value x < limit) (hx' : Positive x') (hlt' : value x' < limit)
    (hleast : value x' ≤ value x * 2 ^ (252 : ℤ)) : IsRounded (value x / value x') (x / x') := by
  obtain ⟨m, e, h, hu, digits, few, -⟩ := hx.exists_finite hlt
  obtain ⟨m', e', h', hu', digits', few', -⟩ := hx'.exists_finite hlt'
  have hvalue : value x = m * 2 ^ e := by rw [value, hu]; rfl
  have hvalue' : value x' = m' * 2 ^ e' := by rw [value, hu']; rfl
  have he : e' ≤ e + 252 := by
    by_contra hgt
    have hless : (m * 2 ^ (e + 252) : ℚ) < m' * 2 ^ e' := lt_of_exponent_lt few digits' (not_le.mp hgt)
    rw [zpow_add₀ (by norm_num), ← mul_assoc, ← hvalue, ← hvalue'] at hless
    exact absurd hleast (not_le.mpr hless)
  have hquotient : x / x' =
      .ofModel (.pack (roundWithAccuracy .binary64 .positive ((m <<< 53) / m') (e - e' - 53)
        (accuracyOfFraction ((m <<< 53) % m') m'))) := by
    show Float.ofModel (.pack (UnpackedFloat.div .binary64 x.toModel.unpack x'.toModel.unpack)) = _
    rw [hu, hu']
    unfold UnpackedFloat.div
    simp only [divCore_eq digits few digits' few' (show e' ≤ e + 1021 by omega)]
    rfl
  have hscale := shiftLeft_mul_zpow m 53 e
  rw [Nat.cast_ofNat] at hscale
  have hshifted : 2 ^ 52 * m' ≤ m <<< 53 := by
    rw [Nat.shiftLeft_eq]
    gcongr
  generalize m <<< 53 = n at hquotient hscale hshifted
  have hdigits : 2 ^ 52 ≤ n / m' := (Nat.le_div_iff_mul_le h').mpr hshifted
  have hlog : 52 ≤ (n / m').log2 := (Nat.le_log2 (by omega)).mpr hdigits
  have hrounded := isRounded_roundWithAccuracy (e := e - e' - 53) hdigits (by omega) (tells_div n h')
  have hexact : (n / m' : ℚ) * 2 ^ (e - e' - 53) = value x / value x' := by
    have hm' : (m' : ℚ) ≠ 0 := by exact_mod_cast h'.ne'
    have hpow := (two_zpow_pos e').ne'
    rw [hvalue, hvalue', ← hscale, show e - e' - 53 = e - 53 - e' by ring, zpow_sub₀ (by norm_num) (e - 53) e']
    field_simp
  rw [hexact] at hrounded
  rw [hquotient]
  exact hrounded

theorem unpack_one : (1.0 : Float).toModel.unpack = .finite .positive (2 ^ 52) (-52) (by norm_num) := rfl

/-- One part of a number is rounded. -/
theorem isRounded_one_div (hx : Positive x) (hle : value x ≤ 2 ^ 52 * 2 ^ (200 : ℤ)) :
    IsRounded (1 / value x) (1.0 / x) := by
  have hpos : Positive 1.0 := by
    unfold Positive
    rw [unpack_one]
    exact .finite _ le_rfl (by norm_num) (by norm_num) (by norm_num)
  have hone : value 1.0 = 1 := by
    rw [value, unpack_one, size]
    norm_num
  have hlimit : (2 : ℚ) ^ 52 * 2 ^ (200 : ℤ) < limit := by
    exact mul_lt_mul_of_pos_left (zpow_lt_zpow_right₀ (by norm_num) (by norm_num)) (by norm_num)
  have hless : value 1.0 < limit := hone ▸ lt_trans (by norm_num) hlimit
  have hleast : value x ≤ value 1.0 * 2 ^ (252 : ℤ) := by
    rw [hone]
    norm_num at hle ⊢
    exact hle
  have hdiv := isRounded_div hpos hless hx (hle.trans_lt hlimit) hleast
  rwa [hone] at hdiv

end Rounded
end Floating
end CodeAtlas
