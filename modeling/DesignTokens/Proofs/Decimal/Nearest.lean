import DesignTokens.Proofs.Decimal.Packed

/-!
Rounding to the nearest float. A rational rounds to at most one mantissa and exponent, and the
shifts by which a float is made from a longer mantissa find them.
-/
namespace DesignTokens.Decimal

open Float.Model (UnpackedFloat Format totalExponent)
open Float.Model.UnpackedFloat (Sign Accuracy ExtendedMantissa shiftToExponent
  shiftToTargetExponent roundWithAccuracy)

/-- A power as a quotient of two powers, one of which is one. -/
theorem zpow_eq_div (a : ℚ) (e : Int) : a ^ e = a ^ e.toNat / a ^ (-e).toNat := by
  rcases Int.le_total 0 e with he | he
  · obtain ⟨n, rfl⟩ := Int.eq_ofNat_of_zero_le he
    simp
  · obtain ⟨n, hn⟩ := Int.exists_eq_neg_ofNat he
    subst hn
    simp

/-! ### The rationals that round to a float -/

/-- A rational is at most one half away from a whole number, and less than that from an odd one. -/
structure RoundsTo (n : Nat) (t : ℚ) : Prop where
  low : (n : ℚ) - 1 / 2 ≤ t
  high : t ≤ n + 1 / 2
  odd : n % 2 = 1 → (n : ℚ) - 1 / 2 < t ∧ t < n + 1 / 2

/-- A rational `t`, in units in the last place, rounds to a mantissa; below a power of two the
units are halved. -/
structure Nearest (m : Nat) (e : Int) (t : ℚ) : Prop extends RoundsTo m t where
  power : m = 2 ^ 52 → e ≠ -1074 → (m : ℚ) - 1 / 4 ≤ t

theorem roundsTo_self (n : Nat) : RoundsTo n n where
  low := by linarith
  high := by linarith
  odd _ := ⟨by linarith, by linarith⟩

/-- The value of a float rounds to it. -/
theorem nearest_self (m : Nat) (e : Int) : Nearest m e m where
  toRoundsTo := roundsTo_self m
  power _ _ := by linarith

theorem RoundsTo.le {m n : Nat} {t : ℚ} (hm : RoundsTo m t) (hn : RoundsTo n t) : n ≤ m := by
  by_contra hlt
  have hlt' : (m : ℚ) + 1 ≤ n := by exact_mod_cast Nat.lt_of_not_le hlt
  have hhigh := hm.high
  have hlow := hn.low
  have hsucc : n = m + 1 := by
    have hle : (n : ℚ) ≤ m + 1 := by linarith
    have hle' : n ≤ m + 1 := by exact_mod_cast hle
    omega
  -- of two neighbours one is odd, and a tie does not go to it
  rcases Nat.mod_two_eq_zero_or_one m with heven | hodd
  · have hodd := (hn.odd (by omega)).1
    linarith
  · have hodd := (hm.odd hodd).2
    linarith

section

variable {m m' : Nat} {e e' : Int} {q : ℚ}

theorem Nearest.exponent_le (h : Canonical m e) (h' : Canonical m' e')
    (hq : Nearest m e (q / 2 ^ e)) (hq' : Nearest m' e' (q / 2 ^ e')) : e' ≤ e := by
  by_contra hlt
  have hleast := h.least
  -- the greater exponent leaves a mantissa of 53 bits, whose least rational is already too great
  have hnormal : 2 ^ 52 ≤ m' := h'.normal.resolve_right (by omega)
  have hnormal' : (2 : ℚ) ^ 52 ≤ m' := by exact_mod_cast hnormal
  have hbelow : (2 : ℚ) ^ 52 - 1 / 4 ≤ q / 2 ^ e' := by
    rcases Nat.eq_or_lt_of_le hnormal with heq | hgt
    · have hpower := hq'.power heq.symm (by omega)
      linarith
    · have hgt' : (2 : ℚ) ^ 52 + 1 ≤ m' := by exact_mod_cast hgt
      have hlow := hq'.low
      linarith
  have hscale : q / 2 ^ e = q / 2 ^ e' * 2 ^ (e' - e) := by
    rw [zpow_sub₀ (by norm_num)]
    field_simp
  have htwo : (2 : ℚ) ≤ 2 ^ (e' - e) := by
    have hpow := zpow_le_zpow_right₀ (by norm_num : (1 : ℚ) ≤ 2) (by omega : 1 ≤ e' - e)
    simpa using hpow
  have habove : (2 : ℚ) ^ 53 - 1 / 2 ≤ q / 2 ^ e := by
    rw [hscale]
    nlinarith
  have hm : (m : ℚ) + 1 ≤ 2 ^ 53 := by exact_mod_cast h.lt
  have hhigh := hq.high
  have hall : m = 2 ^ 53 - 1 := by
    have hsum : (m : ℚ) + 1 = (2 : ℚ) ^ 53 := by linarith
    have hsum' : m + 1 = 2 ^ 53 := by exact_mod_cast hsum
    omega
  have hodd := (hq.odd (by omega)).2
  linarith

/-- A rational rounds to one float only. -/
theorem Nearest.unique (h : Canonical m e) (h' : Canonical m' e')
    (hq : Nearest m e (q / 2 ^ e)) (hq' : Nearest m' e' (q / 2 ^ e')) : m = m' ∧ e = e' := by
  obtain rfl : e = e' :=
    Int.le_antisymm (Nearest.exponent_le h' h hq' hq) (Nearest.exponent_le h h' hq hq')
  exact ⟨Nat.le_antisymm (hq'.le hq.toRoundsTo) (hq.le hq'.toRoundsTo), rfl⟩

/-- What rounds to a float that is not zero lies within the range of floats. -/
theorem Nearest.range (h : Canonical m e) (hm : 0 < m) (he : e ≤ 971)
    (hq : Nearest m e (q / 2 ^ e)) : 2 ^ (-1075 : Int) < q ∧ q < 2 ^ (1024 : Int) := by
  have hhalf : 1 / 2 < q / 2 ^ e := by
    rcases Nat.eq_or_lt_of_le hm with hone | hmore
    · have hodd := (hq.odd (by omega)).1
      rw [← hone] at hodd
      norm_num at hodd ⊢
      exact hodd
    · have hlow := hq.low
      have htwo : (2 : ℚ) ≤ m := by exact_mod_cast hmore
      linarith
  have hlt : (m : ℚ) + 1 ≤ 2 ^ (53 : Int) := by exact_mod_cast h.lt
  have hhigh : q / 2 ^ e < 2 ^ (53 : Int) := by linarith [hq.high]
  rw [lt_div_iff₀ (by positivity)] at hhalf
  rw [div_lt_iff₀ (by positivity), ← zpow_add₀ (by norm_num)] at hhigh
  constructor
  · calc (2 : ℚ) ^ (-1075 : Int) = 2⁻¹ * 2 ^ (-1074 : Int) := by
          rw [← zpow_neg_one, ← zpow_add₀ (by norm_num)]
          rfl
      _ ≤ 2⁻¹ * 2 ^ e :=
          mul_le_mul_of_nonneg_left (zpow_le_zpow_right₀ (by norm_num) h.least) (by norm_num)
      _ < q := by linarith
  · exact hhigh.trans_le (zpow_le_zpow_right₀ (by norm_num) (by omega))

end

/-! ### Shifts -/

/-- What a mantissa and its two further bits say about a rational. -/
def Describes : ExtendedMantissa → ℚ → Prop
  | ⟨m, false, false⟩, t => t = m
  | ⟨m, false, true⟩, t => (m : ℚ) < t ∧ t < m + 1 / 2
  | ⟨m, true, false⟩, t => t = m + 1 / 2
  | ⟨m, true, true⟩, t => (m : ℚ) + 1 / 2 < t ∧ t < m + 1

theorem Describes.floor_le {x : ExtendedMantissa} {t : ℚ} (h : Describes x t) :
    (x.mantissa : ℚ) ≤ t := by
  obtain ⟨m, r, s⟩ := x
  cases r <;> cases s <;> simp only [Describes] at h ⊢ <;> linarith

theorem Describes.shiftRightOne {x : ExtendedMantissa} {t : ℚ} (h : Describes x t) :
    Describes x.shiftRightOne (t / 2) := by
  obtain ⟨m, r, s⟩ := x
  have hhalf : (m : ℚ) = 2 * (m / 2 : Nat) + (m % 2 : Nat) := by
    exact_mod_cast (Nat.div_add_mod m 2).symm
  rcases Nat.mod_two_eq_zero_or_one m with hm | hm <;>
    cases r <;> cases s <;>
    simp [Describes, ExtendedMantissa.shiftRightOne, hm] at h hhalf ⊢ <;>
    first | (constructor <;> linarith) | linarith

theorem Describes.shiftRight {x : ExtendedMantissa} {t : ℚ} (h : Describes x t) (n : Nat) :
    Describes (x >>> n) (t / 2 ^ n) := by
  induction n with
  | zero =>
    rw [pow_zero, div_one]
    exact h
  | succ n ih =>
    rw [pow_succ, ← div_div]
    exact ih.shiftRightOne

theorem mantissa_shiftRight (x : ExtendedMantissa) (n : Nat) :
    (x >>> n).mantissa = x.mantissa / 2 ^ n := by
  induction n with
  | zero => simp [HShiftRight.hShiftRight, Nat.repeat]
  | succ n ih =>
    rw [Nat.pow_succ, ← Nat.div_div_eq_div_mul, ← ih]
    rfl

theorem Describes.roundsTo {x : ExtendedMantissa} {t : ℚ} (h : Describes x t) :
    RoundsTo x.roundedMantissa t := by
  obtain ⟨m, r, s⟩ := x
  cases r <;> cases s
  · obtain rfl : t = m := h
    exact roundsTo_self m
  · obtain ⟨hlow, hhigh⟩ : (m : ℚ) < t ∧ t < m + 1 / 2 := h
    change RoundsTo m t
    exact ⟨by linarith, by linarith, fun _ => ⟨by linarith, by linarith⟩⟩
  · obtain rfl : t = m + 1 / 2 := h
    change RoundsTo (m + m % 2) _
    rcases Nat.mod_two_eq_zero_or_one m with hm | hm
    · rw [hm]
      exact ⟨by push_cast; linarith, by push_cast; linarith, fun h => by omega⟩
    · rw [hm]
      exact ⟨by push_cast; linarith, by push_cast; linarith, fun h => by omega⟩
  · obtain ⟨hlow, hhigh⟩ : (m : ℚ) + 1 / 2 < t ∧ t < m + 1 := h
    change RoundsTo (m + 1) t
    refine ⟨?_, ?_, fun _ => ⟨?_, ?_⟩⟩ <;> push_cast <;> linarith

theorem roundedMantissa_bounds (x : ExtendedMantissa) :
    x.mantissa ≤ x.roundedMantissa ∧ x.roundedMantissa ≤ x.mantissa + 1 := by
  obtain ⟨m, r, s⟩ := x
  cases r <;> cases s <;>
    simp [ExtendedMantissa.roundedMantissa, ExtendedMantissa.accuracy, Accuracy.roundToNearestEven]
  omega

/-! ### Rounding -/

theorem targetExponent_eq (m : Nat) (e : Int) :
    Format.binary64.targetExponent (totalExponent m e) = max (m.log2 + e - 52) (-1074) := by
  have hleast : Format.binary64.minExponent = -1074 := rfl
  have hbits : Format.binary64.mantissaBits = 53 := rfl
  rw [Format.targetExponent, totalExponent, hleast, hbits]
  omega

/-- A mantissa that is no longer than 53 bits stays as it is. -/
theorem shiftToTargetExponent_of_lt {m : Nat} {e : Int} (hm : m < 2 ^ 53) (he : -1074 ≤ e) :
    shiftToTargetExponent Format.binary64 m e .exact = (⟨m, false, false⟩, e) := by
  have hlog : m.log2 ≤ 52 := by
    rcases Nat.eq_zero_or_pos m with rfl | hpos
    · decide
    · have hlt := (Nat.log2_lt (by omega)).mpr hm
      omega
  have hshift : (Format.binary64.targetExponent (totalExponent m e) - e).toNat = 0 := by
    rw [targetExponent_eq]
    omega
  simp only [shiftToTargetExponent, shiftToExponent, hshift]
  simp [ExtendedMantissa.ofMantissaAndAccuracy, HShiftRight.hShiftRight, Nat.repeat]

/-- A mantissa that has become too long by rounding is a power of two. -/
theorem shiftToTargetExponent_carry {e : Int} (he : -1074 ≤ e) :
    shiftToTargetExponent Format.binary64 (2 ^ 53) e .exact = (⟨2 ^ 52, false, false⟩, e + 1) := by
  have hshift : (Format.binary64.targetExponent (totalExponent (2 ^ 53) e) - e).toNat = 1 := by
    rw [targetExponent_eq, Nat.log2_two_pow]
    omega
  simp only [shiftToTargetExponent, shiftToExponent, hshift]
  rfl

theorem roundWithAccuracy_eq (s : Sign) {m : Nat} {e e₁ : Int} {a : Accuracy}
    {x : ExtendedMantissa} (h : shiftToTargetExponent Format.binary64 m e a = (x, e₁))
    (he : -1074 ≤ e₁) (hx : x.roundedMantissa ≤ 2 ^ 53) :
    roundWithAccuracy Format.binary64 s m e a =
      if h : x.roundedMantissa = 0 then .zero s
      else if x.roundedMantissa < 2 ^ 53 then
        .finite s x.roundedMantissa e₁ (Nat.pos_of_ne_zero h)
      else .finite s (2 ^ 52) (e₁ + 1) (by decide) := by
  rw [roundWithAccuracy, h]
  dsimp only
  rcases Nat.lt_or_eq_of_le hx with hlt | heq
  · simp only [shiftToTargetExponent_of_lt hlt he, hlt, if_true]
  · have hzero : ¬x.roundedMantissa = 0 := by omega
    have hlt : ¬x.roundedMantissa < 2 ^ 53 := by omega
    rw [dif_neg hzero, if_neg hlt]
    simp only [heq, shiftToTargetExponent_carry he]
    rfl

/-- What has the form of a float is not rounded. -/
theorem roundWithAccuracy_canonical (s : Sign) {m : Nat} {e : Int} (hm : 0 < m)
    (h : Canonical m e) :
    roundWithAccuracy Format.binary64 s m e .exact = .finite s m e hm := by
  rw [roundWithAccuracy_eq s (shiftToTargetExponent_of_lt h.lt h.least) h.least h.lt.le]
  have hexact : (⟨m, false, false⟩ : ExtendedMantissa).roundedMantissa = m := rfl
  simp only [hexact, hm.ne', h.lt, dite_false, if_true]

/-- The first shift leaves the digits that a float has room for, and what the others say. -/
theorem exists_shiftToTargetExponent {m : Nat} {e : Int} {a : Accuracy} {q : ℚ}
    (h : Describes (.ofMantissaAndAccuracy m a) (q / 2 ^ e))
    (he : e ≤ Format.binary64.targetExponent (totalExponent m e)) :
    ∃ x e₁, shiftToTargetExponent Format.binary64 m e a = (x, e₁) ∧ Canonical x.mantissa e₁ ∧
      Describes x (q / 2 ^ e₁) := by
  obtain ⟨n, hn⟩ := Int.eq_ofNat_of_zero_le (Int.sub_nonneg.mpr he)
  have htarget := targetExponent_eq m e
  have hmantissa : (ExtendedMantissa.ofMantissaAndAccuracy m a >>> n).mantissa = m / 2 ^ n := by
    rw [mantissa_shiftRight]
    cases a with
    | exact => rfl
    | inexact o => cases o <;> rfl
  refine ⟨ExtendedMantissa.ofMantissaAndAccuracy m a >>> n, e + n, ?_, ⟨?_, ?_, ?_⟩, ?_⟩
  · rw [shiftToTargetExponent, shiftToExponent, hn, Int.toNat_natCast]
  · rw [hmantissa, Nat.div_lt_iff_lt_mul (by positivity), ← Nat.pow_add]
    exact Nat.lt_log2_self.trans_le (Nat.pow_le_pow_right (by decide) (by omega))
  · omega
  · by_cases hsub : e + n = -1074
    · exact .inr hsub
    · have hm : m ≠ 0 := by
        rintro rfl
        simp at htarget
        omega
      left
      rw [hmantissa, Nat.le_div_iff_mul_le (by positivity), ← Nat.pow_add]
      exact (Nat.pow_le_pow_right (by decide) (by omega)).trans (Nat.log2_self_le hm)
  · have hpow : (2 : ℚ) ^ (e + n) = 2 ^ e * 2 ^ n := by
      rw [zpow_add₀ (by norm_num), zpow_natCast]
    rw [hpow, ← div_div]
    exact h.shiftRight n

/-- Rounding finds the mantissa and the exponent that a rational rounds to, if it is not so small
that it rounds to zero; the mantissa that it starts from must have all digits that count. -/
theorem exists_roundWithAccuracy (s : Sign) {m : Nat} {e : Int} {a : Accuracy} {q : ℚ}
    (h : Describes (.ofMantissaAndAccuracy m a) (q / 2 ^ e))
    (he : e ≤ Format.binary64.targetExponent (totalExponent m e)) (hq : 2 ^ (-1075 : Int) < q) :
    ∃ m' e' hm', roundWithAccuracy Format.binary64 s m e a = .finite s m' e' hm' ∧
      Canonical m' e' ∧ Nearest m' e' (q / 2 ^ e') := by
  obtain ⟨x, e₁, hshift, hx, hdescribes⟩ := exists_shiftToTargetExponent h he
  have hleast := hx.least
  have hshort := hx.lt
  have hrounds := hdescribes.roundsTo
  have hfloor := hdescribes.floor_le
  obtain ⟨hge, hle⟩ := roundedMantissa_bounds x
  rw [roundWithAccuracy_eq s hshift hleast (by omega)]
  by_cases hzero : x.roundedMantissa = 0
  · exfalso
    obtain rfl : e₁ = -1074 := hx.normal.resolve_left (by omega)
    have hhigh := hrounds.high
    rw [hzero, Nat.cast_zero, zero_add, div_le_iff₀ (by positivity)] at hhigh
    have hpow : (2 : ℚ) ^ (-1075 : Int) = 2 ^ (-1074 : Int) * 2⁻¹ :=
      zpow_sub_one₀ (by decide) (-1074)
    linarith
  rw [dif_neg hzero]
  by_cases hlt : x.roundedMantissa < 2 ^ 53
  · rw [if_pos hlt]
    refine ⟨_, _, _, rfl, ⟨hlt, hleast, hx.normal.imp_left hge.trans'⟩, hrounds, ?_⟩
    intro hpower hnormal
    have hlong : (2 : ℚ) ^ 52 ≤ x.mantissa := by exact_mod_cast hx.normal.resolve_right hnormal
    rw [hpower]
    push_cast
    linarith
  · rw [if_neg hlt]
    refine ⟨_, _, _, rfl, ⟨by decide, by omega, .inl le_rfl⟩, ?_⟩
    have hall : x.roundedMantissa = 2 ^ 53 := by omega
    have hpow : q / 2 ^ (e₁ + 1) = q / 2 ^ e₁ / 2 := by
      rw [zpow_add_one₀ (by norm_num), div_div]
    have hlow := hrounds.low
    have hhigh := hrounds.high
    rw [hall] at hlow hhigh
    push_cast at hlow hhigh
    rw [hpow]
    refine ⟨⟨?_, ?_, fun h => by omega⟩, fun _ _ => ?_⟩ <;> push_cast <;> linarith

end DesignTokens.Decimal
