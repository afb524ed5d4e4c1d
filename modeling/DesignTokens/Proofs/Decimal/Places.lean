import DesignTokens.Decimal.Rounding
import DesignTokens.Proofs.Decimal.Scientific

/-!
Rounding to decimal places. A number that has been rounded to some places stays as it is when it is
rounded to more of them: the decimal that it came from is found again, or one that is as near.
-/
namespace DesignTokens.Decimal

/-! ### The value of a float -/

namespace Binary

/-- The magnitude of a float. -/
def value (b : Binary) : ℚ := b.mantissa * 2 ^ b.exponent

theorem numerator_div_denominator (b : Binary) : (b.numerator : ℚ) / b.denominator = b.value := by
  rw [numerator, denominator, value, zpow_eq_div]
  push_cast [Nat.pow_eq]
  ring

theorem denominator_pos (b : Binary) : 0 < b.denominator := Nat.pow_pos (by decide)

theorem isWhole_iff {b : Binary} : b.isWhole ↔ b.denominator ∣ b.numerator := by
  rw [isWhole, beq_iff_eq, Nat.dvd_iff_mod_eq_zero]

/-- A number with a fraction is small. -/
theorem value_lt {b : Binary} (h : Canonical b.mantissa b.exponent) (hb : ¬b.isWhole) :
    b.value < 2 ^ 53 := by
  have hexponent : b.exponent < 0 := by
    by_contra hpos
    have hone : b.denominator = 1 := by
      have hzero : (-b.exponent).toNat = 0 := by omega
      rw [denominator, hzero, Nat.pow_eq, Nat.pow_zero]
    exact hb (isWhole_iff.mpr (hone ▸ one_dvd _))
  have hm : (b.mantissa : ℚ) < 2 ^ 53 := by exact_mod_cast h.lt
  calc b.value ≤ b.mantissa * 1 :=
        mul_le_mul_of_nonneg_left (zpow_le_one_of_nonpos₀ (by norm_num) hexponent.le)
          (by positivity)
    _ < 2 ^ 53 := by rwa [mul_one]

/-- A power of two that is not too small is whole. -/
theorem isWhole_of_power {b : Binary} (hm : b.mantissa = 2 ^ 52) (he : -52 ≤ b.exponent) :
    b.isWhole := by
  rw [isWhole_iff, denominator, numerator, hm, Nat.pow_eq, Nat.pow_eq]
  exact (Nat.pow_dvd_pow 2 (by omega)).mul_right _

end Binary

/-! ### Rounding -/

section

variable (b : Binary) (places : Nat)

/-- The decimal that a float is rounded to, in units of its last place. -/
def rounded : Nat := roundDiv (b.numerator * Nat.pow 10 places) b.denominator

theorem rounded_close : |(rounded b places : ℚ) - b.value * 10 ^ places| ≤ 1 / 2 := by
  have hpos : (0 : ℚ) < b.denominator := by exact_mod_cast b.denominator_pos
  have hvalue : b.value * 10 ^ places * b.denominator = (b.numerator * 10 ^ places : Nat) := by
    rw [← b.numerator_div_denominator]
    push_cast
    field_simp
  obtain ⟨hlow, hhigh⟩ := roundDiv_close (b.numerator * 10 ^ places) b.denominator_pos
  have hlow' : 2 * ((b.numerator * 10 ^ places : Nat) : ℚ) ≤
      2 * (rounded b places * b.denominator) + b.denominator := by exact_mod_cast hlow
  have hhigh' : 2 * (rounded b places * b.denominator : ℚ) ≤
      2 * ((b.numerator * 10 ^ places : Nat) : ℚ) + b.denominator := by exact_mod_cast hhigh
  rw [← hvalue] at hlow' hhigh'
  rw [abs_le]
  constructor <;> nlinarith

/-- Every other decimal of as many places is at least half a unit away. -/
theorem rounded_closest {N : Nat} (hN : rounded b places ≠ N) :
    1 / 2 ≤ |(N : ℚ) - b.value * 10 ^ places| := by
  have hone : (1 : ℚ) ≤ |(N : ℚ) - rounded b places| := by
    have hint : (1 : Int) ≤ |(N : Int) - rounded b places| := Int.one_le_abs (by omega)
    exact_mod_cast hint
  have hclose := rounded_close b places
  have htriangle := abs_sub_le (N : ℚ) (b.value * 10 ^ places) (rounded b places)
  rw [abs_sub_comm (b.value * 10 ^ places)] at htriangle
  linarith

end

theorem RoundsTo.close {n : Nat} {t : ℚ} (h : RoundsTo n t) : |t - n| ≤ 1 / 2 :=
  abs_le.mpr ⟨by linarith [h.low], by linarith [h.high]⟩

theorem RoundsTo.of_closer {n : Nat} {s t : ℚ} (h : RoundsTo n t) (hs : |s - n| ≤ |t - n|) :
    RoundsTo n s := by
  obtain ⟨hlow, hhigh⟩ := abs_le.mp (hs.trans h.close)
  refine ⟨by linarith, by linarith, fun hodd => ?_⟩
  obtain ⟨hbelow, habove⟩ := h.odd hodd
  have hlt : |t - n| < 1 / 2 := abs_lt.mpr ⟨by linarith, by linarith⟩
  obtain ⟨hlow, hhigh⟩ := abs_lt.mp (hs.trans_lt hlt)
  exact ⟨by linarith, by linarith⟩

/-- What the float nearest to a decimal is rounded to, that float is nearest to. -/
theorem nearest_rounded {b : Binary} (hb : ¬b.isWhole) {N places : Nat} (hplaces : places ≤ 15)
    (hN : Nearest b.mantissa b.exponent (N / 10 ^ places / 2 ^ b.exponent)) :
    Nearest b.mantissa b.exponent (rounded b places / 10 ^ places / 2 ^ b.exponent) := by
  by_cases heq : rounded b places = N
  · rwa [heq]
  -- two decimals are in question only where a unit of the last decimal place is no more than one of
  -- the float's last place, which is not so below a power of two
  have hpos : (0 : ℚ) < 10 ^ places * 2 ^ b.exponent := by positivity
  have hunits : ∀ n : Nat, |(n / 10 ^ places / 2 ^ b.exponent : ℚ) - b.mantissa| *
      (10 ^ places * 2 ^ b.exponent) = |(n : ℚ) - b.value * 10 ^ places| := by
    intro n
    rw [← abs_of_pos hpos, ← abs_mul, Binary.value]
    congr 1
    field_simp
  have hfar := rounded_closest b places heq
  have hclose := rounded_close b places
  rw [← hunits] at hfar hclose
  have hunit : (1 : ℚ) ≤ 10 ^ places * 2 ^ b.exponent := by
    nlinarith [hN.close]
  have hexponent : -52 ≤ b.exponent := by
    by_contra hsmall
    have hpower : (2 : ℚ) ^ b.exponent ≤ 2 ^ (-53 : Int) :=
      zpow_le_zpow_right₀ (by norm_num) (by omega)
    have hten : (10 : ℚ) ^ places ≤ 10 ^ 15 := pow_le_pow_right₀ (by norm_num) hplaces
    have hlt : (10 ^ places * 2 ^ b.exponent : ℚ) ≤ 10 ^ 15 * 2 ^ (-53 : Int) :=
      mul_le_mul hten hpower (by positivity) (by positivity)
    norm_num at hlt
    linarith
  refine ⟨hN.toRoundsTo.of_closer ?_, fun hpower => ?_⟩
  · exact le_of_mul_le_mul_right (hclose.trans hfar) hpos
  · exact absurd (Binary.isWhole_of_power hpower hexponent) hb

/-! ### Floats of decimal places -/

section

variable (negative : Bool) {n places : Nat} (hn : 0 < n)
include hn

theorem ofFloat?_ofPlaces {m : Nat} {e : Int} (hm : 0 < m) (h : Canonical m e) (he : e ≤ 971)
    (hrounds : Nearest m e (n / 10 ^ places / 2 ^ e)) :
    Binary.ofFloat? (ofPlaces negative n places) = some ⟨negative, m, e⟩ := by
  have hfound : Binary.ofFloat? (Float.ofScientific n true places) = some ⟨false, m, e⟩ :=
    ofFloat?_ofScientific hn true places (by simp [div_eq_mul_inv]) hm h he hrounds
  cases negative
  · exact hfound
  · exact ofFloat?_neg hfound

theorem exists_ofFloat?_ofPlaces (hlow : 2 ^ (-1075 : Int) < (n / 10 ^ places : ℚ))
    (hhigh : (n / 10 ^ places : ℚ) < 2 ^ (1023 : Int)) : ∃ m e,
    Binary.ofFloat? (ofPlaces negative n places) = some ⟨negative, m, e⟩ ∧ 0 < m ∧
      Nearest m e (n / 10 ^ places / 2 ^ e) := by
  obtain ⟨m, e, hfound, hm, hrounds⟩ := exists_ofFloat?_ofScientific hn true places
    (by simp [div_eq_mul_inv]) hlow hhigh
  refine ⟨m, e, ?_, hm, hrounds⟩
  cases negative
  · exact hfound
  · exact ofFloat?_neg hfound

end

theorem ofFloat?_ofPlaces_zero : ∀ (negative : Bool) (places : Fin 16),
    Binary.ofFloat? (ofPlaces negative 0 places) = some ⟨negative, 0, -1074⟩ := by
  decide +kernel

theorem roundPlaces_of_isWhole {x : Float} {b : Binary} (hx : Binary.ofFloat? x = some b)
    (hb : b.isWhole) (places : Nat) : roundPlaces x places = x := by
  rw [roundPlaces, hx]
  exact if_pos hb

theorem roundPlaces_of_not_isWhole {x : Float} {b : Binary} (hx : Binary.ofFloat? x = some b)
    (hb : ¬b.isWhole) (places : Nat) :
    roundPlaces x places = ofPlaces b.negative (rounded b places) places := by
  rw [roundPlaces, hx]
  exact if_neg hb

/-- The float nearest to a decimal is rounded to itself. -/
theorem roundPlaces_of_nearest {x : Float} {b : Binary} (hx : Binary.ofFloat? x = some b)
    (hm : 0 < b.mantissa) {N places : Nat} (hplaces : places ≤ 15)
    (hN : Nearest b.mantissa b.exponent (N / 10 ^ places / 2 ^ b.exponent)) :
    roundPlaces x places = x := by
  by_cases hb : b.isWhole
  · exact roundPlaces_of_isWhole hx hb places
  obtain ⟨hcanonical, hgreatest⟩ := canonical_of_ofFloat? hx
  have hrounds := nearest_rounded hb hplaces hN
  have hpos : 0 < rounded b places := by
    by_contra hzero
    have hm' : (1 : ℚ) ≤ b.mantissa := by exact_mod_cast hm
    have hlow := hrounds.low
    rw [Nat.eq_zero_of_not_pos hzero, Nat.cast_zero, zero_div, zero_div] at hlow
    linarith
  rw [roundPlaces_of_not_isWhole hx hb]
  exact eq_of_ofFloat? (ofFloat?_ofPlaces b.negative hpos hm hcanonical hgreatest hrounds) hx

/-- A decimal of few places that a number with a fraction is rounded to is within the range of
floats. -/
theorem rounded_range {b : Binary} (h : Canonical b.mantissa b.exponent) (hb : ¬b.isWhole)
    {places : Nat} (hplaces : places ≤ 15) (hpos : 0 < rounded b places) :
    2 ^ (-1075 : Int) < (rounded b places / 10 ^ places : ℚ) ∧
      (rounded b places / 10 ^ places : ℚ) < 2 ^ (1023 : Int) := by
  have hten : (10 : ℚ) ^ places ≤ 10 ^ 15 := pow_le_pow_right₀ (by norm_num) hplaces
  have hone : (1 : ℚ) ≤ 10 ^ places := one_le_pow₀ (by norm_num)
  have hpos' : (1 : ℚ) ≤ rounded b places := by exact_mod_cast hpos
  obtain ⟨-, hclose⟩ := abs_le.mp (rounded_close b places)
  have hvalue := Binary.value_lt h hb
  constructor
  · rw [lt_div_iff₀ (by positivity)]
    calc (2 : ℚ) ^ (-1075 : Int) * 10 ^ places ≤ 2 ^ (-53 : Int) * 10 ^ 15 :=
          mul_le_mul (zpow_le_zpow_right₀ (by norm_num) (by decide)) hten (by positivity)
            (by positivity)
      _ < 1 := by norm_num
      _ ≤ rounded b places := hpos'
  · rw [div_lt_iff₀ (by positivity)]
    calc (rounded b places : ℚ) ≤ (b.value + 1) * 10 ^ places := by nlinarith
      _ < 2 ^ (54 : Int) * 10 ^ places :=
          mul_lt_mul_of_pos_right (by norm_num at hvalue ⊢; linarith) (by positivity)
      _ ≤ 2 ^ (1023 : Int) * 10 ^ places :=
          mul_le_mul_of_nonneg_right (zpow_le_zpow_right₀ (by norm_num) (by decide))
            (by positivity)

/-- Rounding to more places than a number has been rounded to changes nothing. -/
theorem roundPlaces_roundPlaces (x : Float) {few many : Nat} (h : few ≤ many) (hmany : many ≤ 15) :
    roundPlaces (roundPlaces x few) many = roundPlaces x few := by
  cases hx : Binary.ofFloat? x with
  | none =>
    have hsame : ∀ places, roundPlaces x places = x := by
      intro places
      rw [roundPlaces, hx]
    rw [hsame, hsame]
  | some b =>
    obtain ⟨hcanonical, -⟩ := canonical_of_ofFloat? hx
    by_cases hb : b.isWhole
    · rw [roundPlaces_of_isWhole hx hb, roundPlaces_of_isWhole hx hb]
    rw [roundPlaces_of_not_isWhole hx hb]
    rcases Nat.eq_zero_or_pos (rounded b few) with hzero | hpos
    · rw [hzero]
      exact roundPlaces_of_isWhole (ofFloat?_ofPlaces_zero b.negative ⟨few, by omega⟩)
        (by simp [Binary.isWhole, Binary.numerator]) many
    · obtain ⟨hlow, hhigh⟩ := rounded_range hcanonical hb (h.trans hmany) hpos
      obtain ⟨m, e, hfound, hm, hrounds⟩ := exists_ofFloat?_ofPlaces b.negative hpos hlow hhigh
      have hsame : ((rounded b few * 10 ^ (many - few) : Nat) : ℚ) / 10 ^ many =
          rounded b few / 10 ^ few := by
        have hpow : (10 : ℚ) ^ many = 10 ^ (many - few) * 10 ^ few := by
          rw [← pow_add, Nat.sub_add_cancel h]
        rw [hpow]
        push_cast
        field_simp
      exact roundPlaces_of_nearest hfound hm hmany (hsame ▸ hrounds)

/-- A finite number keeps its sign when it is rounded. -/
theorem exists_ofFloat?_roundPlaces {x : Float} {b : Binary} (hx : Binary.ofFloat? x = some b)
    {places : Nat} (hplaces : places ≤ 15) :
    ∃ m e, Binary.ofFloat? (roundPlaces x places) = some ⟨b.negative, m, e⟩ := by
  by_cases hb : b.isWhole
  · rw [roundPlaces_of_isWhole hx hb]
    exact ⟨b.mantissa, b.exponent, hx⟩
  rw [roundPlaces_of_not_isWhole hx hb]
  rcases Nat.eq_zero_or_pos (rounded b places) with hzero | hpos
  · rw [hzero]
    exact ⟨0, -1074, ofFloat?_ofPlaces_zero b.negative ⟨places, by omega⟩⟩
  · obtain ⟨hlow, hhigh⟩ := rounded_range (canonical_of_ofFloat? hx).1 hb hplaces hpos
    obtain ⟨m, e, hfound, -, -⟩ := exists_ofFloat?_ofPlaces b.negative hpos hlow hhigh
    exact ⟨m, e, hfound⟩

/-- What is finite stays so when it is rounded. -/
theorem isFinite_roundPlaces {x : Float} (h : isFinite x) {places : Nat} (hplaces : places ≤ 15) :
    isFinite (roundPlaces x places) := by
  obtain ⟨b, hx⟩ := Option.isSome_iff_exists.mp h
  obtain ⟨m, e, hrounded⟩ := exists_ofFloat?_roundPlaces hx hplaces
  exact Option.isSome_iff_exists.mpr ⟨_, hrounded⟩

end DesignTokens.Decimal
