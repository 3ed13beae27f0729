import Mathlib

/-! Rounding to the nearest. A positive rational number is cut off after 53 binary digits, to the nearest of the numbers
that can be written so, and to the even one of two that are equally near. Digit by digit: when the last digits of a number
are cut off, one digit and a record of the others tell to which of the two neighbours it is nearest, so that a number with
digits enough is rounded to the nearest. -/
namespace CodeAtlas
namespace Floating

/-- Whether a whole number is the nearest one to a number, and even if there are two. -/
structure IsNearest (z : ℚ) (n : ℕ) : Prop where
  le : z ≤ n + 1 / 2
  ge : n ≤ z + 1 / 2
  even : z = n + 1 / 2 ∨ (n : ℚ) = z + 1 / 2 → Even n

/-- Greater numbers have greater nearest ones. -/
theorem IsNearest.mono {z z' : ℚ} {n n' : ℕ} (h : IsNearest z n) (h' : IsNearest z' n') (hle : z ≤ z') : n ≤ n' := by
  by_contra hlt
  have hsucc : (n' : ℚ) + 1 ≤ n := by exact_mod_cast Nat.lt_of_not_le hlt
  have hz := h.ge
  have hz' := h'.le
  -- both numbers lie halfway between the two, which cannot both be even
  have htie : (n : ℚ) = n' + 1 := by linarith
  have heven := h.even (.inr (by linarith))
  have heven' := h'.even (.inl (by linarith))
  have hnext : n = n' + 1 := by exact_mod_cast htie
  rw [hnext] at heven
  exact (Nat.even_add_one.mp heven) heven'

theorem isNearest_natCast (n : ℕ) : IsNearest n n where
  le := by linarith
  ge := by linarith
  even h := by rcases h with h | h <;> linarith

/-- Whether a number is what another one is rounded to. -/
def Rounds (q w : ℚ) : Prop :=
  ∃ (t : ℤ) (n : ℕ), 2 ^ 52 * 2 ^ t ≤ q ∧ q < 2 ^ 53 * 2 ^ t ∧ IsNearest (q / 2 ^ t) n ∧ w = n * 2 ^ t

section Rounds

variable {q q' w w' : ℚ}

/-- What a number between two powers is rounded to lies between them. -/
theorem IsNearest.bounds {z : ℚ} {n : ℕ} (h : IsNearest z n) {l u : ℕ} (hl : (l : ℚ) ≤ z) (hu : z ≤ u) : l ≤ n ∧ n ≤ u :=
  ⟨(isNearest_natCast l).mono h hl, h.mono (isNearest_natCast u) hu⟩

theorem two_zpow_pos (t : ℤ) : (0 : ℚ) < 2 ^ t := zpow_pos (by norm_num) t

/-- Greater numbers are rounded to greater ones. -/
theorem Rounds.mono (h : Rounds q w) (h' : Rounds q' w') (hle : q ≤ q') : w ≤ w' := by
  obtain ⟨t, n, hl, hu, hn, rfl⟩ := h
  obtain ⟨t', n', hl', hu', hn', rfl⟩ := h'
  have hpos := two_zpow_pos t
  have hpos' := two_zpow_pos t'
  have hbounds := hn.bounds (l := 2 ^ 52) (u := 2 ^ 53) (by rw [le_div_iff₀ hpos]; exact_mod_cast hl)
    (by rw [div_le_iff₀ hpos]; exact_mod_cast hu.le)
  have hbounds' := hn'.bounds (l := 2 ^ 52) (u := 2 ^ 53) (by rw [le_div_iff₀ hpos']; exact_mod_cast hl')
    (by rw [div_le_iff₀ hpos']; exact_mod_cast hu'.le)
  rcases lt_trichotomy t t' with hlt | rfl | hgt
  · -- the next power of two lies between them
    have hstep : (2 : ℚ) ^ (t + 1) ≤ 2 ^ t' := zpow_le_zpow_right₀ (by norm_num) hlt
    rw [zpow_add_one₀ (by norm_num)] at hstep
    calc (n : ℚ) * 2 ^ t
      _ ≤ 2 ^ 53 * 2 ^ t := by gcongr; exact_mod_cast hbounds.2
      _ = 2 ^ 52 * (2 ^ t * 2) := by ring
      _ ≤ 2 ^ 52 * 2 ^ t' := by gcongr
      _ ≤ n' * 2 ^ t' := by gcongr; exact_mod_cast hbounds'.1
  · have hle' : q / 2 ^ t ≤ q' / 2 ^ t := by gcongr
    gcongr
    exact hn.mono hn' hle'
  · have hstep : (2 : ℚ) ^ (t' + 1) ≤ 2 ^ t := zpow_le_zpow_right₀ (by norm_num) hgt
    rw [zpow_add_one₀ (by norm_num)] at hstep
    have hover : q' < q := by
      calc q'
        _ < 2 ^ 53 * 2 ^ t' := hu'
        _ = 2 ^ 52 * (2 ^ t' * 2) := by ring
        _ ≤ 2 ^ 52 * 2 ^ t := by gcongr
        _ ≤ q := hl
    exact absurd hle (not_le.mpr hover)

/-- A number with 53 binary digits is rounded to itself. -/
theorem rounds_self {m : ℕ} (hl : 2 ^ 52 ≤ m) (hu : m < 2 ^ 53) (e : ℤ) : Rounds (m * 2 ^ e) (m * 2 ^ e) := by
  have hpos := two_zpow_pos e
  refine ⟨e, m, ?_, ?_, ?_, rfl⟩
  · gcongr
    exact_mod_cast hl
  · gcongr
    exact_mod_cast hu
  · rw [mul_div_cancel_right₀ _ hpos.ne']
    exact isNearest_natCast m

end Rounds
open Float.Model (Format UnpackedFloat totalExponent)
open Float.Model.UnpackedFloat

/-- What the digits that are kept of a number and the record of those that are cut off tell of it. -/
def Tells : ExtendedMantissa → ℚ → Prop
  | ⟨m, false, false⟩, z => z = m
  | ⟨m, false, true⟩, z => m < z ∧ z < m + 1 / 2
  | ⟨m, true, false⟩, z => z = m + 1 / 2
  | ⟨m, true, true⟩, z => m + 1 / 2 < z ∧ z < m + 1

namespace Tells

variable {em : ExtendedMantissa} {z : ℚ}

theorem le (h : Tells em z) : em.mantissa ≤ z := by
  rcases em with ⟨m, _ | _, _ | _⟩ <;> simp only [Tells] at h ⊢ <;> linarith

theorem lt (h : Tells em z) : z < em.mantissa + 1 := by
  rcases em with ⟨m, _ | _, _ | _⟩ <;> simp only [Tells] at h ⊢ <;> linarith

/-- One more digit is cut off. -/
theorem shiftRightOne (h : Tells em z) : Tells em.shiftRightOne (z / 2) := by
  rcases em with ⟨m, round, sticky⟩
  have hcut : ((m % 2 : ℕ) : ℚ) + 2 * ((m / 2 : ℕ) : ℚ) = m := by exact_mod_cast Nat.mod_add_div m 2
  rcases Nat.mod_two_eq_zero_or_one m with hdigit | hdigit <;> rw [hdigit] at hcut <;> push_cast at hcut <;>
    cases round <;> cases sticky <;>
    simp only [Tells, ExtendedMantissa.shiftRightOne, hdigit, Bool.or_self, Bool.or_true, Bool.or_false,
      bne_self_eq_false, Nat.reduceBNe] at h ⊢ <;>
    first
    | linarith
    | constructor <;> linarith

theorem shiftRight (h : Tells em z) (n : ℕ) : Tells (em >>> n) (z / 2 ^ n) := by
  show Tells (n.repeat ExtendedMantissa.shiftRightOne em) _
  induction n with
  | zero => rwa [pow_zero, div_one]
  | succ n ih =>
    rw [pow_succ, ← div_div]
    exact ih.shiftRightOne

/-- The digits are rounded to the nearest number. -/
theorem isNearest (h : Tells em z) : IsNearest z em.roundedMantissa := by
  rcases em with ⟨m, _ | _, _ | _⟩ <;>
    simp only [Tells, ExtendedMantissa.accuracy, ExtendedMantissa.roundedMantissa, Accuracy.roundToNearestEven] at h ⊢
  · exact h ▸ isNearest_natCast m
  · constructor
    · linarith
    · linarith
    · rintro (h | h) <;> linarith
  · -- halfway between two numbers, one of which is even
    rcases Nat.mod_two_eq_zero_or_one m with hm | hm <;> rw [hm] <;> constructor <;> push_cast
    · linarith
    · linarith
    · exact fun _ => Nat.even_iff.mpr hm
    · linarith
    · linarith
    · exact fun _ => Nat.even_iff.mpr (by omega)
  · constructor <;> push_cast
    · linarith
    · linarith
    · rintro (h | h) <;> linarith

end Tells

section Rounding

variable {m : ℕ} {e : ℤ} {a : Accuracy}

theorem mantissa_ofMantissaAndAccuracy (m : ℕ) (a : Accuracy) :
    (ExtendedMantissa.ofMantissaAndAccuracy m a).mantissa = m := by
  rcases a with _ | _ | _ | _ <;> rfl

/-- Digits are cut off until 53 are left. -/
theorem shiftToTargetExponent_eq (hm : 2 ^ 52 ≤ m) (he : -1074 ≤ m.log2 - 52 + e) :
    shiftToTargetExponent .binary64 m e a =
      (ExtendedMantissa.ofMantissaAndAccuracy m a >>> (m.log2 - 52), e + (m.log2 - 52 : ℕ)) := by
  have hlog : 52 ≤ m.log2 := (Nat.le_log2 (by omega)).mpr hm
  have htarget : Format.binary64.targetExponent (totalExponent m e) = e + (m.log2 - 52 : ℕ) := by
    unfold Format.targetExponent totalExponent Format.minExponent Format.mantissaBits
    push_cast [hlog]
    omega
  have hshift : (e + (m.log2 - 52 : ℕ) - e).toNat = m.log2 - 52 := by omega
  simp only [shiftToTargetExponent, shiftToExponent, htarget, hshift]

theorem log2_of_bounds {n k : ℕ} (hl : 2 ^ k ≤ n) (hu : n < 2 ^ (k + 1)) : n.log2 = k :=
  (Nat.log2_eq_iff (Nat.ne_of_gt (lt_of_lt_of_le (by positivity) hl))).mpr ⟨hl, hu⟩

/-- Rounding leaves at most one digit more than there is room for. -/
theorem exists_settled {n : ℕ} (hl : 2 ^ 52 ≤ n) (hu : n ≤ 2 ^ 53) (he : -1074 ≤ e) :
    ∃ em' e', shiftToTargetExponent .binary64 n e .exact = (em', e') ∧ 2 ^ 52 ≤ em'.mantissa ∧ em'.mantissa < 2 ^ 53 ∧
      -1074 ≤ e' ∧ (em'.mantissa * 2 ^ e' : ℚ) = n * 2 ^ e := by
  rcases Nat.lt_or_eq_of_le hu with hlt | rfl
  · have hlog := log2_of_bounds hl hlt
    have heq := shiftToTargetExponent_eq (e := e) (a := .exact) hl (by omega)
    rw [hlog] at heq
    refine ⟨_, _, heq, hl, hlt, by simpa using he, ?_⟩
    rw [Nat.sub_self, Nat.cast_zero, add_zero]
    rfl
  · have hlog : (2 ^ 53 : ℕ).log2 = 53 := Nat.log2_two_pow
    have heq := shiftToTargetExponent_eq (m := 2 ^ 53) (e := e) (a := .exact) hl (by omega)
    rw [hlog] at heq
    refine ⟨_, _, heq, le_refl (2 ^ 52), show 2 ^ 52 < 2 ^ 53 by norm_num, by omega, ?_⟩
    show ((2 ^ 52 : ℕ) : ℚ) * 2 ^ (e + 1) = _
    rw [zpow_add_one₀ (by norm_num)]
    push_cast
    ring

/-- A number with digits enough is rounded to the nearest. -/
theorem exists_roundWithAccuracy {z : ℚ} (s : Sign) (hm : 2 ^ 52 ≤ m) (he : -1074 ≤ m.log2 - 52 + e)
    (hz : Tells (.ofMantissaAndAccuracy m a) z) :
    ∃ m' e' h, roundWithAccuracy .binary64 s m e a = .finite s m' e' h ∧ 2 ^ 52 ≤ m' ∧ m' < 2 ^ 53 ∧ -1074 ≤ e' ∧
      Rounds (z * 2 ^ e) (m' * 2 ^ e') := by
  have hm0 : m ≠ 0 := by omega
  have hlog : 52 ≤ m.log2 := (Nat.le_log2 hm0).mpr hm
  obtain ⟨k, hk⟩ : ∃ k, m.log2 = 52 + k := ⟨m.log2 - 52, by omega⟩
  have hfirst := shiftToTargetExponent_eq (a := a) hm he
  have hsub : m.log2 - 52 = k := by omega
  rw [hsub] at hfirst
  have hnearest : IsNearest (z / 2 ^ k) (ExtendedMantissa.ofMantissaAndAccuracy m a >>> k).roundedMantissa :=
    (hz.shiftRight k).isNearest
  have hle := hz.le
  have hlt := hz.lt
  rw [mantissa_ofMantissaAndAccuracy] at hle hlt
  have hpowl : (2 : ℚ) ^ 52 * 2 ^ k ≤ m := by
    rw [← pow_add, ← hk]
    exact_mod_cast Nat.log2_self_le hm0
  have hpowu : (m : ℚ) + 1 ≤ 2 ^ 53 * 2 ^ k := by
    rw [← pow_add, show 53 + k = m.log2 + 1 by omega]
    exact_mod_cast Nat.lt_log2_self (n := m)
  have hpos : (0 : ℚ) < 2 ^ k := by positivity
  have hl : (2 : ℚ) ^ 52 ≤ z / 2 ^ k := by rw [le_div_iff₀ hpos]; linarith
  have hu : z / 2 ^ k < (2 : ℚ) ^ 53 := by rw [div_lt_iff₀ hpos]; linarith
  obtain ⟨hnl, hnu⟩ := hnearest.bounds (l := 2 ^ 52) (u := 2 ^ 53) (by exact_mod_cast hl) (by exact_mod_cast hu.le)
  have hscale : z * 2 ^ e / 2 ^ (e + k : ℤ) = z / 2 ^ k := by
    rw [zpow_add₀ (by norm_num), zpow_natCast]
    have := two_zpow_pos e
    field_simp
  have hpose := two_zpow_pos (e + k : ℤ)
  have hrounds : Rounds (z * 2 ^ e)
      ((ExtendedMantissa.ofMantissaAndAccuracy m a >>> k).roundedMantissa * 2 ^ (e + k : ℤ)) := by
    refine ⟨e + k, _, ?_, ?_, hscale ▸ hnearest, rfl⟩
    · rwa [← le_div_iff₀ hpose, hscale]
    · rwa [← div_lt_iff₀ hpose, hscale]
  obtain ⟨em', e', hsecond, hl', hu', he', hvalue⟩ := exists_settled (e := e + k) hnl hnu (by omega)
  have hne : em'.mantissa ≠ 0 := by omega
  refine ⟨em'.mantissa, e', Nat.pos_of_ne_zero hne, ?_, hl', hu', he', hvalue ▸ hrounds⟩
  unfold roundWithAccuracy
  simp only [hfirst, hsecond, dif_neg hne]

end Rounding
end Floating
end CodeAtlas
