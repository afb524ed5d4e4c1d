import DesignTokens.Proofs.Decimal.Digits
import DesignTokens.Proofs.Decimal.Nearest

/-!
Floats made from decimals. The float of `n · 10 ^ k` is the one that this rational rounds to,
whether it is found by one operation on floats that are exact or from a longer mantissa.
-/
namespace DesignTokens.Decimal

open Float.Model (UnpackedFloat Format totalExponent)
open Float.Model.UnpackedFloat (Sign Accuracy ExtendedMantissa accuracyOfFraction divCore
  decreaseExponent)

/-! ### Products and quotients -/

/-- A quotient and its remainder say where the exact quotient lies. -/
theorem describes_quotient (n : Nat) {d : Nat} (hd : 0 < d) :
    Describes (.ofMantissaAndAccuracy (n / d) (accuracyOfFraction (n % d) d)) (n / d) := by
  have hd' : (0 : ℚ) < d := by exact_mod_cast hd
  have hdiv : (n : ℚ) = d * (n / d : Nat) + (n % d : Nat) := by
    exact_mod_cast (Nat.div_add_mod n d).symm
  have hmod : ((n % d : Nat) : ℚ) < d := by exact_mod_cast Nat.mod_lt n hd
  rw [accuracyOfFraction]
  split
  · rename_i hzero
    change (n : ℚ) / d = (n / d : Nat)
    rw [hzero] at hdiv
    rw [div_eq_iff hd'.ne', hdiv]
    push_cast
    ring
  · rename_i hpos
    have hpos' : (0 : ℚ) < (n % d : Nat) := by exact_mod_cast Nat.pos_of_ne_zero hpos
    rcases hcompare : compare (2 * (n % d)) d with _ | _ | _
    · have hlt : (2 : ℚ) * (n % d : Nat) < d := by exact_mod_cast Nat.compare_eq_lt.mp hcompare
      change ((n / d : Nat) : ℚ) < n / d ∧ (n : ℚ) / d < (n / d : Nat) + 1 / 2
      rw [lt_div_iff₀ hd', div_lt_iff₀ hd']
      constructor <;> linarith
    · have heq : (2 : ℚ) * (n % d : Nat) = d := by exact_mod_cast Nat.compare_eq_eq.mp hcompare
      change (n : ℚ) / d = (n / d : Nat) + 1 / 2
      rw [div_eq_iff hd'.ne']
      linarith
    · have hgt : (d : ℚ) < 2 * (n % d : Nat) := by exact_mod_cast Nat.compare_eq_gt.mp hcompare
      change ((n / d : Nat) : ℚ) + 1 / 2 < n / d ∧ (n : ℚ) / d < (n / d : Nat) + 1
      rw [lt_div_iff₀ hd', div_lt_iff₀ hd']
      constructor <;> linarith

section

variable {m₁ m₂ : Nat} {e₁ e₂ : Int}

/-- A quotient is carried to as many digits as count. -/
theorem exists_divCore (e₁ e₂ : Int) (h₁ : 0 < m₁) (h₂ : 0 < m₂) : ∃ m e a,
    divCore Format.binary64 m₁ e₁ m₂ e₂ = (m, e, a) ∧
      e ≤ Format.binary64.targetExponent (totalExponent m e) ∧
      Describes (.ofMantissaAndAccuracy m a) (m₁ * 2 ^ e₁ / (m₂ * 2 ^ e₂) / 2 ^ e) := by
  have htarget : Format.binary64.targetExponent (totalExponent m₁ e₁ - totalExponent m₂ e₂) =
      max (m₁.log2 + e₁ - (m₂.log2 + e₂) - 53) (-1074) := by
    have hleast : Format.binary64.minExponent = -1074 := rfl
    have hbits : Format.binary64.mantissaBits = 53 := rfl
    rw [Format.targetExponent, totalExponent, totalExponent, hleast, hbits]
    omega
  generalize he : min (e₁ - e₂)
    (Format.binary64.targetExponent (totalExponent m₁ e₁ - totalExponent m₂ e₂)) = e
  obtain ⟨n, hn⟩ : ∃ n : Nat, e₁ - e₂ - e = n := Int.eq_ofNat_of_zero_le (by omega)
  refine ⟨m₁ * 2 ^ n / m₂, e, accuracyOfFraction (m₁ * 2 ^ n % m₂) m₂, ?_, ?_, ?_⟩
  · simp only [divCore, he, hn, Int.toNat_natCast, Nat.shiftLeft_eq]
  · rw [targetExponent_eq]
    by_cases hleast : e ≤ -1074
    · omega
    · have hlong : 2 ^ 52 ≤ m₁ * 2 ^ n / m₂ := by
        rw [Nat.le_div_iff_mul_le h₂]
        calc 2 ^ 52 * m₂ ≤ 2 ^ 52 * 2 ^ (m₂.log2 + 1) :=
              Nat.mul_le_mul_left _ Nat.lt_log2_self.le
          _ = 2 ^ (52 + (m₂.log2 + 1)) := (Nat.pow_add ..).symm
          _ ≤ 2 ^ (m₁.log2 + n) := Nat.pow_le_pow_right (by decide) (by omega)
          _ = 2 ^ m₁.log2 * 2 ^ n := Nat.pow_add ..
          _ ≤ m₁ * 2 ^ n := Nat.mul_le_mul_right _ (Nat.log2_self_le (by omega))
      have hlog := (Nat.le_log2 (by omega)).mpr hlong
      omega
  · have hvalue : (m₁ : ℚ) * 2 ^ e₁ / (m₂ * 2 ^ e₂) / 2 ^ e = (m₁ * 2 ^ n : Nat) / m₂ := by
      have hexponent : e₁ = e₂ + e + n := by omega
      have hm₂ : (m₂ : ℚ) ≠ 0 := by exact_mod_cast h₂.ne'
      rw [hexponent, zpow_add₀ (by norm_num), zpow_add₀ (by norm_num), zpow_natCast]
      push_cast
      field_simp
    rw [hvalue]
    exact describes_quotient _ h₂

/-- Floats are divided into the float that the exact quotient rounds to. -/
theorem exists_div (s₁ s₂ : Sign) (h₁ : 0 < m₁) (h₂ : 0 < m₂)
    (hq : 2 ^ (-1075 : Int) < (m₁ * 2 ^ e₁ / (m₂ * 2 ^ e₂) : ℚ)) : ∃ m e hm,
    UnpackedFloat.div Format.binary64 (.finite s₁ m₁ e₁ h₁) (.finite s₂ m₂ e₂ h₂) =
      .finite (s₁ / s₂) m e hm ∧ Canonical m e ∧
      Nearest m e (m₁ * 2 ^ e₁ / (m₂ * 2 ^ e₂) / 2 ^ e) := by
  obtain ⟨m, e, a, hcore, htarget, hdescribes⟩ := exists_divCore e₁ e₂ h₁ h₂
  simp only [UnpackedFloat.div, hcore]
  exact exists_roundWithAccuracy _ hdescribes htarget hq

/-- Floats are multiplied into the float that the exact product rounds to; one of them has as many
digits as count. -/
theorem exists_mul (s₁ s₂ : Sign) (h₁ : 2 ^ 52 ≤ m₁) (hm₁ : 0 < m₁) (h₂ : 0 < m₂)
    (hq : 2 ^ (-1075 : Int) < (m₁ * 2 ^ e₁ * (m₂ * 2 ^ e₂) : ℚ)) : ∃ m e hm,
    UnpackedFloat.mul Format.binary64 (.finite s₁ m₁ e₁ hm₁) (.finite s₂ m₂ e₂ h₂) =
      .finite (s₁ * s₂) m e hm ∧ Canonical m e ∧
      Nearest m e (m₁ * 2 ^ e₁ * (m₂ * 2 ^ e₂) / 2 ^ e) := by
  refine exists_roundWithAccuracy _ ?_ ?_ hq
  · have hpow : (2 : ℚ) ^ (e₁ + e₂) = 2 ^ e₁ * 2 ^ e₂ := zpow_add₀ (by norm_num) ..
    change (m₁ : ℚ) * 2 ^ e₁ * (m₂ * 2 ^ e₂) / 2 ^ (e₁ + e₂) = (m₁ * m₂ : Nat)
    rw [hpow]
    push_cast
    field_simp
  · have hlog := (Nat.le_log2 (by positivity)).mpr (h₁.trans (Nat.le_mul_of_pos_right m₁ h₂))
    rw [targetExponent_eq]
    omega

end

/-! ### Whole numbers and powers of ten -/

/-- A whole number of at most 53 bits is a float. -/
theorem exists_round {n : Nat} (hn : 0 < n) (hlt : n < 2 ^ 53) :
    ∃ m e hm, UnpackedFloat.round Format.binary64 .positive n 0 = .finite .positive m e hm ∧
      2 ^ 52 ≤ m ∧ Canonical m e ∧ e ≤ 971 ∧ (m : ℚ) * 2 ^ e = n := by
  have hlog : n.log2 < 53 := (Nat.log2_lt hn.ne').mpr hlt
  have hpos : 0 < n * 2 ^ (52 - n.log2) := by positivity
  have hlow : 2 ^ 52 ≤ n * 2 ^ (52 - n.log2) := calc
    2 ^ 52 = 2 ^ n.log2 * 2 ^ (52 - n.log2) := by rw [← Nat.pow_add]; congr 1; omega
    _ ≤ n * 2 ^ (52 - n.log2) := Nat.mul_le_mul_right _ (Nat.log2_self_le hn.ne')
  have hhigh : n * 2 ^ (52 - n.log2) < 2 ^ 53 := calc
    n * 2 ^ (52 - n.log2) < 2 ^ (n.log2 + 1) * 2 ^ (52 - n.log2) :=
        Nat.mul_lt_mul_of_pos_right Nat.lt_log2_self (by positivity)
    _ = 2 ^ 53 := by rw [← Nat.pow_add]; congr 1; omega
  have hcanonical : Canonical (n * 2 ^ (52 - n.log2)) (n.log2 - 52) :=
    ⟨hhigh, by omega, .inl hlow⟩
  refine ⟨_, _, hpos, ?_, hlow, hcanonical, by omega, ?_⟩
  · have hshift : (0 - Format.binary64.targetExponent (totalExponent n 0)).toNat =
        52 - n.log2 := by
      rw [targetExponent_eq]
      omega
    have hexponent : (0 : Int) - (52 - n.log2 : Nat) = n.log2 - 52 := by omega
    simp only [UnpackedFloat.round, decreaseExponent, hshift, hexponent, Nat.shiftLeft_eq]
    exact roundWithAccuracy_canonical _ hpos hcanonical
  · have hexponent : (n.log2 : Int) - 52 = -((52 - n.log2 : Nat) : Int) := by omega
    rw [hexponent, zpow_neg, zpow_natCast]
    push_cast
    field_simp

/-- The float of a whole number of at most 53 bits. -/
theorem exists_toFloat {n : Nat} (hn : 0 < n) (hlt : n < 2 ^ 53) : ∃ m e hm,
    n.toUInt64.toFloat.toModel.unpack = .finite .positive m e hm ∧ 2 ^ 52 ≤ m ∧
      (m : ℚ) * 2 ^ e = n := by
  obtain ⟨m, e, hm, hround, hlong, hcanonical, hgreatest, hvalue⟩ := exists_round hn hlt
  refine ⟨m, e, hm, ?_, hlong, hvalue⟩
  have hnat : n.toUInt64.toNat = n := by
    rw [UInt64.toNat_ofNat']
    omega
  have hnormalize : UnpackedFloat.ofUInt64 Format.binary64 n.toUInt64 =
      .finite .positive m e hm := by
    rw [UnpackedFloat.ofUInt64, UnpackedFloat.ofNat, UnpackedFloat.ofInt,
      UnpackedFloat.normalize, Int.compare_eq_gt.mpr (by omega), hnat, Int.toNat_natCast, hround]
  change (Float.Model.pack (UnpackedFloat.ofUInt64 Format.binary64 n.toUInt64)).unpack = _
  rw [hnormalize]
  exact unpack_pack _ hm hcanonical hgreatest

/-- Whether a float is a power of ten, by whole numbers. -/
def isPowerOfTen (k : Nat) (b : Binary) : Bool :=
  !b.negative && b.mantissa * 2 ^ b.exponent.toNat == 10 ^ k * 2 ^ (-b.exponent).toNat

theorem isPowerOfTen_powersOfTen : ∀ i : Fin Float.exactlyRepresentablePowersOfTen.size,
    (Binary.ofFloat? Float.exactlyRepresentablePowersOfTen[i]).any (isPowerOfTen i) := by
  decide +kernel

theorem exists_powerOfTen {k : Nat} (hk : k < Float.exactlyRepresentablePowersOfTen.size) :
    ∃ m e hm, Float.exactlyRepresentablePowersOfTen[k].toModel.unpack =
      .finite .positive m e hm ∧ (m : ℚ) * 2 ^ e = 10 ^ k := by
  obtain ⟨⟨negative, m, e⟩, hb, hpower⟩ :=
    (Option.any_eq_true ..).mp (isPowerOfTen_powersOfTen ⟨k, hk⟩)
  obtain ⟨hsign, hequal⟩ : negative = false ∧ m * 2 ^ e.toNat = 10 ^ k * 2 ^ (-e).toNat := by
    simpa [isPowerOfTen] using hpower
  subst hsign
  have hm : 0 < m := by
    have hpos : 0 < m * 2 ^ e.toNat := by
      rw [hequal]
      positivity
    exact Nat.pos_of_mul_pos_right hpos
  refine ⟨m, e, hm, unpack_of_ofFloat? hb hm, ?_⟩
  have hequal' : (m : ℚ) * 2 ^ e.toNat = 10 ^ k * 2 ^ (-e).toNat := by exact_mod_cast hequal
  rw [zpow_eq_div, ← mul_div_assoc, hequal']
  field_simp

/-! ### Decimals -/

/-- A decimal above the lower end of the range of floats has an exponent that is not too small for the
digits before it. -/
theorem le_exponent_of_lt {n : Nat} {k : Int} (h : 2 ^ (-1075 : Int) < (n * 10 ^ k : ℚ)) :
    -(2048 + (n.log2 : Int)) ≤ k := by
  by_contra! hk
  have hlog : (n : ℚ) ≤ 2 ^ ((n.log2 : Int) + 1) := by
    exact_mod_cast (Nat.lt_log2_self (n := n)).le
  have hten : (10 : ℚ) ^ k ≤ 2 ^ k := by
    have hpow : (2 : ℚ) ^ (-k) ≤ 10 ^ (-k) :=
      zpow_le_zpow_left₀ (by omega) (by norm_num) (by norm_num)
    rw [zpow_neg, zpow_neg] at hpow
    exact (inv_le_inv₀ (by positivity) (by positivity)).mp hpow
  have hle : (n * 10 ^ k : ℚ) ≤ 2 ^ (-1075 : Int) := calc
    (n * 10 ^ k : ℚ) ≤ 2 ^ ((n.log2 : Int) + 1) * 2 ^ k :=
      mul_le_mul hlog hten (by positivity) (by positivity)
    _ = 2 ^ ((n.log2 : Int) + 1 + k) := (zpow_add₀ (by norm_num) ..).symm
    _ ≤ 2 ^ (-1075 : Int) := zpow_le_zpow_right₀ (by norm_num) (by omega)
  linarith

section

variable {n : Nat} (hn : 0 < n)
include hn

/-- A decimal below the upper end of the range of floats has an exponent that is not too great. -/
theorem exponent_le_of_lt {k : Int} (h : (n * 10 ^ k : ℚ) < 2 ^ (1024 : Int)) : k ≤ 2048 := by
  by_contra! hk
  have hone : (1 : ℚ) ≤ n := by exact_mod_cast hn
  have htwo : (2 : ℚ) ^ (1024 : Int) ≤ 10 ^ k := calc
    (2 : ℚ) ^ (1024 : Int) ≤ 2 ^ k := zpow_le_zpow_right₀ (by norm_num) (by omega)
    _ ≤ 10 ^ k := zpow_le_zpow_left₀ (by omega) (by norm_num) (by norm_num)
  have hle : (10 : ℚ) ^ k ≤ n * 10 ^ k := le_mul_of_one_le_left (by positivity) hone
  linarith

/-- The decimal that an unpacked float is made from, if neither guard applies. -/
theorem exists_unpackedScientific {k : Int} (hlow : 2 ^ (-1075 : Int) < (n * 10 ^ k : ℚ))
    (hhigh : (n * 10 ^ k : ℚ) < 2 ^ (1024 : Int)) : ∃ m e hm,
    UnpackedFloat.ofScientific Format.binary64 n k = .finite .positive m e hm ∧
      Canonical m e ∧ Nearest m e (n * 10 ^ k / 2 ^ e) := by
  have hgreat : ¬(2 ^ Format.binary64.exponentBits : Int) < k :=
    Int.not_lt.mpr (exponent_le_of_lt hn hhigh)
  have hsmall : ¬k < -((2 ^ Format.binary64.exponentBits : Int) + n.log2) :=
    Int.not_lt.mpr (le_exponent_of_lt hlow)
  rw [UnpackedFloat.ofScientific, dif_neg hn.ne', if_neg hgreat, if_neg hsmall]
  split
  · rename_i hk
    have hvalue : ((n <<< Format.binary64.mantissaBits : Nat) : ℚ) *
        2 ^ (-(Format.binary64.mantissaBits : Int)) * ((10 ^ k.toNat : Nat) * 2 ^ (0 : Int)) =
          n * 10 ^ k := by
      obtain ⟨j, rfl⟩ := Int.eq_ofNat_of_zero_le hk
      rw [Nat.shiftLeft_eq, zpow_neg, zpow_natCast, zpow_zero, Int.toNat_natCast, zpow_natCast]
      push_cast
      field_simp
    rw [← hvalue]
    refine exists_mul _ _ ?_ _ _ ?_
    · change 2 ^ 52 ≤ n <<< 53
      rw [Nat.shiftLeft_eq]
      omega
    · rwa [hvalue]
  · rename_i hk
    have hvalue : (n : ℚ) * 2 ^ (0 : Int) / ((10 ^ (-k).toNat : Nat) * 2 ^ (0 : Int)) =
        n * 10 ^ k := by
      obtain ⟨j, rfl⟩ := Int.exists_eq_neg_ofNat (Int.not_le.mp hk).le
      rw [zpow_zero, neg_neg, Int.toNat_natCast, zpow_neg, zpow_natCast, div_eq_mul_inv]
      push_cast
      ring
    rw [← hvalue]
    refine exists_div _ _ _ _ ?_
    rwa [hvalue]

/-- The float of a decimal within the range of floats is the one that the decimal rounds to. -/
theorem exists_ofScientific (neg : Bool) (k : Nat) {q : ℚ}
    (hq : q = n * 10 ^ (if neg then -(k : Int) else k)) (hlow : 2 ^ (-1075 : Int) < q)
    (hhigh : q < 2 ^ (1024 : Int)) : ∃ m e hm,
    Float.ofScientific n neg k = .ofModel (.pack (.finite .positive m e hm)) ∧
      Canonical m e ∧ Nearest m e (q / 2 ^ e) := by
  rw [Float.ofScientific]
  split
  · rename_i hfast
    have hk : k < Float.exactlyRepresentablePowersOfTen.size := by
      simp [Float.exactlyRepresentablePowersOfTen]
      omega
    obtain ⟨m₁, e₁, hm₁, hunpack₁, hlong, hvalue₁⟩ := exists_toFloat hn hfast.1
    obtain ⟨m₂, e₂, hm₂, hunpack₂, hvalue₂⟩ := exists_powerOfTen hk
    cases neg with
    | true =>
      have hvalue : (m₁ * 2 ^ e₁ / (m₂ * 2 ^ e₂) : ℚ) = q := by
        rw [hvalue₁, hvalue₂, hq, if_pos rfl, zpow_neg, zpow_natCast, div_eq_mul_inv]
      obtain ⟨m, e, hm, hdiv, hrounds⟩ := exists_div .positive .positive hm₁ hm₂ (hvalue ▸ hlow)
      refine ⟨m, e, hm, ?_, hvalue ▸ hrounds⟩
      change Float.ofModel (.pack (UnpackedFloat.div _ n.toUInt64.toFloat.toModel.unpack
        Float.exactlyRepresentablePowersOfTen[k].toModel.unpack)) = _
      rw [hunpack₁, hunpack₂, hdiv]
      rfl
    | false =>
      have hvalue : (m₁ * 2 ^ e₁ * (m₂ * 2 ^ e₂) : ℚ) = q := by
        rw [hvalue₁, hvalue₂, hq, if_neg (by decide), zpow_natCast]
      obtain ⟨m, e, hm, hmul, hrounds⟩ := exists_mul .positive .positive hlong hm₁ hm₂
        (hvalue ▸ hlow)
      refine ⟨m, e, hm, ?_, hvalue ▸ hrounds⟩
      change Float.ofModel (.pack (UnpackedFloat.mul _ n.toUInt64.toFloat.toModel.unpack
        Float.exactlyRepresentablePowersOfTen[k].toModel.unpack)) = _
      rw [hunpack₁, hunpack₂, hmul]
      rfl
  · have hexponent : (if neg then Int.negOfNat k else Int.ofNat k) =
        if neg then -(k : Int) else k := by
      rw [Int.negOfNat_eq]
      rfl
    rw [hq] at hlow hhigh ⊢
    obtain ⟨m, e, hm, hmake, hrounds⟩ := exists_unpackedScientific hn hlow hhigh
    refine ⟨m, e, hm, ?_, hrounds⟩
    simp only [hexponent, Float.Model.ofScientific, hmake]

/-- A decimal that rounds to the value of a float is read as that float. -/
theorem ofFloat?_ofScientific (neg : Bool) (k : Nat) {q : ℚ}
    (hq : q = n * 10 ^ (if neg then -(k : Int) else k)) {m : Nat} {e : Int} (hm : 0 < m)
    (h : Canonical m e) (he : e ≤ 971) (hrounds : Nearest m e (q / 2 ^ e)) :
    Binary.ofFloat? (Float.ofScientific n neg k) = some ⟨false, m, e⟩ := by
  obtain ⟨hlow, hhigh⟩ := hrounds.range h hm he
  obtain ⟨m', e', hm', hmake, h', hrounds'⟩ := exists_ofScientific hn neg k hq hlow hhigh
  obtain ⟨rfl, rfl⟩ := Nearest.unique h h' hrounds hrounds'
  rw [hmake]
  exact ofFloat?_pack false hm h he

theorem exists_ofFloat?_ofScientific (neg : Bool) (k : Nat) {q : ℚ}
    (hq : q = n * 10 ^ (if neg then -(k : Int) else k)) (hlow : 2 ^ (-1075 : Int) < q)
    (hhigh : q < 2 ^ (1023 : Int)) : ∃ m e,
    Binary.ofFloat? (Float.ofScientific n neg k) = some ⟨false, m, e⟩ ∧ 0 < m ∧
      Nearest m e (q / 2 ^ e) := by
  obtain ⟨m, e, hm, hmake, h, hrounds⟩ := exists_ofScientific hn neg k hq hlow
    (hhigh.trans (zpow_lt_zpow_right₀ (by norm_num) (by decide)))
  have he : e ≤ 971 := by
    by_contra hgreat
    have hlong : (2 : ℚ) ^ (52 : Int) ≤ m := by
      exact_mod_cast h.normal.resolve_right (by omega)
    have hbelow : (2 : ℚ) ^ (51 : Int) ≤ q / 2 ^ e := calc
      (2 : ℚ) ^ (51 : Int) ≤ 2 ^ (52 : Int) - 1 / 2 := by norm_num
      _ ≤ q / 2 ^ e := (sub_le_sub_right hlong _).trans hrounds.low
    rw [le_div_iff₀ (by positivity), ← zpow_add₀ (by norm_num)] at hbelow
    have hpow : (2 : ℚ) ^ (1023 : Int) ≤ 2 ^ (51 + e) :=
      zpow_le_zpow_right₀ (by norm_num) (by omega)
    linarith
  refine ⟨m, e, ?_, hm, hrounds⟩
  rw [hmake]
  exact ofFloat?_pack false hm h he

/-- Reading a decimal that rounds to the value of a float gives that float. -/
theorem ofFloat?_ofDecimal {k : Int} {m : Nat} {e : Int} (hm : 0 < m) (h : Canonical m e)
    (he : e ≤ 971) (hrounds : Nearest m e (n * 10 ^ k / 2 ^ e)) :
    Binary.ofFloat? (ofDecimal n k) = some ⟨false, m, e⟩ := by
  obtain ⟨hlow, hhigh⟩ := hrounds.range h hm he
  have hlength := Nat.length_toDigits_pos (b := 10) (n := n)
  generalize hd : (Nat.toDigits 10 n).length = d at hlength
  have hleast : (10 : ℚ) ^ ((d : Int) - 1) ≤ n := by
    have hpow := pow_length_le hn
    have hexponent : (d : Int) - 1 = (d - 1 : Nat) := by omega
    rw [hd] at hpow
    rw [hexponent, zpow_natCast]
    exact_mod_cast hpow
  have hgreatest : (n : ℚ) ≤ 10 ^ (d : Int) := by
    rw [← hd, zpow_natCast]
    exact_mod_cast (lt_pow_length n).le
  have hgreat : ¬400 < k + d := by
    intro hfirst
    have hle : (2 : ℚ) ^ (1024 : Int) ≤ n * 10 ^ k := calc
      (2 : ℚ) ^ (1024 : Int) ≤ 2 ^ (3 * 400 : Int) := zpow_le_zpow_right₀ (by norm_num) (by decide)
      _ = 8 ^ (400 : Int) := by rw [zpow_mul]; norm_num
      _ ≤ 10 ^ (400 : Int) := zpow_le_zpow_left₀ (by decide) (by norm_num) (by norm_num)
      _ ≤ 10 ^ ((d : Int) - 1 + k) := zpow_le_zpow_right₀ (by norm_num) (by omega)
      _ = 10 ^ ((d : Int) - 1) * 10 ^ k := zpow_add₀ (by norm_num) ..
      _ ≤ n * 10 ^ k := mul_le_mul_of_nonneg_right hleast (by positivity)
    linarith
  have hsmall : ¬k + d < -400 := by
    intro hfirst
    have hle : (n * 10 ^ k : ℚ) ≤ 2 ^ (-1075 : Int) := calc
      (n * 10 ^ k : ℚ) ≤ 10 ^ (d : Int) * 10 ^ k :=
        mul_le_mul_of_nonneg_right hgreatest (by positivity)
      _ = 10 ^ (d + k) := (zpow_add₀ (by norm_num) ..).symm
      _ ≤ 10 ^ (-400 : Int) := zpow_le_zpow_right₀ (by norm_num) (by omega)
      _ ≤ 8 ^ (-400 : Int) := by
        rw [zpow_neg, zpow_neg]
        exact inv_anti₀ (by positivity)
          (zpow_le_zpow_left₀ (by decide) (by norm_num) (by norm_num))
      _ = 2 ^ (3 * -400 : Int) := by rw [zpow_mul]; norm_num
      _ ≤ 2 ^ (-1075 : Int) := zpow_le_zpow_right₀ (by norm_num) (by decide)
    linarith
  rw [ofDecimal, if_neg hn.ne']
  simp only [hd, hgreat, hsmall, if_false]
  refine ofFloat?_ofScientific hn _ _ ?_ hm h he hrounds
  rw [signed_natAbs]

end

end DesignTokens.Decimal
