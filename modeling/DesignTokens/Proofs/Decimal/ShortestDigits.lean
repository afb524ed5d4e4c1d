import DesignTokens.Decimal.Shortest
import DesignTokens.Proofs.Decimal.Places

/-!
The shortest digits of a float read back as it: they lie in the interval of the decimals that round
to the float, and a grid of seventeen digits always has a point there.
-/
namespace DesignTokens.Decimal

/-- No float is too small for its first digit to be found. -/
theorem Binary.denominator_le {b : Binary} (hm : 0 < b.mantissa)
    (h : Canonical b.mantissa b.exponent) {j : Nat} (hj : 1074 ≤ 3 * j) :
    b.denominator ≤ b.numerator * 10 ^ j := by
  have hpos : 0 < b.numerator := Nat.mul_pos hm (Nat.pow_pos (by decide))
  have hleast := h.least
  calc b.denominator = 2 ^ (-b.exponent).toNat := rfl
    _ ≤ 2 ^ (3 * j) := Nat.pow_le_pow_right (by decide) (by omega)
    _ = 8 ^ j := Nat.pow_mul ..
    _ ≤ 10 ^ j := Nat.pow_le_pow_left (by decide) j
    _ ≤ b.numerator * 10 ^ j := Nat.le_mul_of_pos_left _ hpos

namespace Interval

variable (i : Interval) (k : Int)

theorem step_pos : 0 < i.step k := Nat.mul_pos (Nat.pow_pos (by decide)) (Nat.pow_pos (by decide))

/-- The scale that an interval and a decimal grid share. -/
theorem scale_eq : ∃ s : ℚ, 0 < s ∧ (∀ n, (i.scaled k n : ℚ) = n * 2 ^ i.exponent * s) ∧
    (i.step k : ℚ) = 10 ^ k * s := by
  refine ⟨2 ^ (-i.exponent).toNat * 10 ^ (-k).toNat, by positivity, fun n => ?_, ?_⟩
  · rw [scaled, zpow_eq_div]
    push_cast [Nat.pow_eq]
    field_simp
  · rw [step, zpow_eq_div]
    push_cast [Nat.pow_eq]
    field_simp

theorem scaled_le_iff (n d : Nat) :
    i.scaled k n ≤ d * i.step k ↔ (n : ℚ) * 2 ^ i.exponent ≤ d * 10 ^ k := by
  obtain ⟨s, hs, hscaled, hstep⟩ := i.scale_eq k
  rw [← Nat.cast_le (α := ℚ), Nat.cast_mul, hscaled, hstep, ← mul_assoc,
    mul_le_mul_iff_of_pos_right hs]

theorem le_scaled_iff (n d : Nat) :
    d * i.step k ≤ i.scaled k n ↔ (d : ℚ) * 10 ^ k ≤ n * 2 ^ i.exponent := by
  obtain ⟨s, hs, hscaled, hstep⟩ := i.scale_eq k
  rw [← Nat.cast_le (α := ℚ), Nat.cast_mul, hscaled, hstep, ← mul_assoc,
    mul_le_mul_iff_of_pos_right hs]

end Interval

/-- The interval of a float in units of its last place. -/
theorem ofBinary_bounds {b : Binary} (hm : 0 < b.mantissa) :
    ((Interval.ofBinary b).low : ℚ) / 4 = b.mantissa -
        (if b.mantissa = 2 ^ 52 ∧ b.exponent ≠ -1074 then 1 / 4 else 1 / 2) ∧
      ((Interval.ofBinary b).high : ℚ) / 4 = b.mantissa + 1 / 2 := by
  have hcond : (b.mantissa == Nat.pow 2 52 && b.exponent != -1074) =
      decide (b.mantissa = 2 ^ 52 ∧ b.exponent ≠ -1074) := by
    rw [Bool.eq_iff_iff]
    simp
  refine ⟨?_, by simp only [Interval.ofBinary]; push_cast; ring⟩
  simp only [Interval.ofBinary, hcond, decide_eq_true_eq]
  split
  · rw [Nat.cast_sub (by omega)]
    push_cast
    ring
  · rw [Nat.cast_sub (by omega)]
    push_cast
    ring

/-- The points of a grid that read back are those that round to the float. -/
theorem holds_iff {b : Binary} (hm : 0 < b.mantissa) (k : Int) (d : Nat) :
    (Interval.ofBinary b).holds k d ↔
      Nearest b.mantissa b.exponent (d * 10 ^ k / 2 ^ b.exponent) := by
  generalize ht : (d * 10 ^ k / 2 ^ b.exponent : ℚ) = t
  have hpos : (0 : ℚ) < 2 ^ b.exponent := by positivity
  have hvalue : (d * 10 ^ k : ℚ) = t * 2 ^ b.exponent := by
    rw [← ht]
    field_simp
  have hquarter : ∀ n : Nat, (n * 2 ^ (Interval.ofBinary b).exponent : ℚ) =
      n / 4 * 2 ^ b.exponent := by
    intro n
    rw [Interval.ofBinary, zpow_sub₀ (by norm_num)]
    norm_num
    ring
  have hlow : ∀ n, (Interval.ofBinary b).scaled k n ≤ d * (Interval.ofBinary b).step k ↔
      (n : ℚ) / 4 ≤ t := by
    intro n
    rw [Interval.scaled_le_iff, hvalue, hquarter, mul_le_mul_iff_of_pos_right hpos]
  have hhigh : ∀ n, d * (Interval.ofBinary b).step k ≤ (Interval.ofBinary b).scaled k n ↔
      t ≤ (n : ℚ) / 4 := by
    intro n
    rw [Interval.le_scaled_iff, hvalue, hquarter, mul_le_mul_iff_of_pos_right hpos]
  obtain ⟨hleast, hgreatest⟩ := ofBinary_bounds hm
  simp only [Interval.holds, ← Nat.not_le, hlow, hhigh, hleast, hgreatest]
  have hclosed : (Interval.ofBinary b).closed = decide (b.mantissa % 2 = 0) := rfl
  rcases Nat.mod_two_eq_zero_or_one b.mantissa with heven | hodd
  · rw [hclosed, decide_eq_true heven, if_pos rfl, Bool.and_eq_true, decide_eq_true_eq,
      decide_eq_true_eq]
    constructor
    · rintro ⟨hlow, hhigh⟩
      refine ⟨⟨?_, hhigh, fun hodd => by omega⟩, fun hpower hnormal => ?_⟩
      · split at hlow <;> linarith
      · rwa [if_pos ⟨hpower, hnormal⟩] at hlow
    · rintro ⟨⟨hlow, hhigh, -⟩, hpower⟩
      refine ⟨?_, hhigh⟩
      split
      · rename_i h
        exact hpower h.1 h.2
      · exact hlow
  · have hpower : ¬(b.mantissa = 2 ^ 52 ∧ b.exponent ≠ -1074) := by
      intro h
      omega
    rw [hclosed, decide_eq_false (by omega), if_neg (by decide), if_neg hpower, Bool.and_eq_true,
      decide_eq_true_eq, decide_eq_true_eq, not_le, not_le]
    constructor
    · rintro ⟨hlow, hhigh⟩
      exact ⟨⟨hlow.le, hhigh.le, fun _ => ⟨hlow, hhigh⟩⟩, fun h h' => absurd ⟨h, h'⟩ hpower⟩
    · intro h
      exact h.odd hodd

/-! ### The grids -/

theorem nearest?_holds {i : Interval} {k : Int} {s : Scientific} (h : i.nearest? k = some s) :
    s.exponent = k ∧ i.holds k s.coefficient := by
  rw [Interval.nearest?] at h
  dsimp only at h
  split at h
  · rename_i hbelow habove
    obtain rfl := Option.some.inj h
    refine ⟨rfl, ?_⟩
    dsimp only
    split
    · exact hbelow
    split
    · exact habove
    · rcases Nat.mod_two_eq_zero_or_one (i.scaled k i.value / i.step k) with hmod | hmod
      · rw [hmod]
        exact hbelow
      · rw [hmod]
        exact habove
  · rename_i hbelow habove
    obtain rfl := Option.some.inj h
    exact ⟨rfl, hbelow⟩
  · rename_i hbelow habove
    obtain rfl := Option.some.inj h
    exact ⟨rfl, habove⟩
  · cases h

theorem isSome_nearest? {i : Interval} {k : Int} (h : i.holds k (i.scaled k i.value / i.step k) ∨
    i.holds k (i.scaled k i.value / i.step k + 1)) : (i.nearest? k).isSome := by
  rw [Interval.nearest?]
  dsimp only
  split <;> simp_all

/-- The first digit of a quotient, from the digits of the whole part of a multiple. -/
theorem pow_length_div_le {num den j : Nat} (hden : 0 < den) (h : den ≤ num * 10 ^ j) :
    (10 : ℚ) ^ (((Nat.toDigits 10 (num * 10 ^ j / den)).length : Int) - 1 - j) ≤ num / den := by
  have hden' : (0 : ℚ) < den := by exact_mod_cast hden
  have hpos : 0 < num * 10 ^ j / den := Nat.div_pos h hden
  have hfloor : num * 10 ^ j / den * den ≤ num * 10 ^ j := Nat.div_mul_le_self ..
  have hlength := Nat.length_toDigits_pos (b := 10) (n := num * 10 ^ j / den)
  have hpow := pow_length_le hpos
  generalize num * 10 ^ j / den = q at *
  generalize (Nat.toDigits 10 q).length = d at *
  have hexponent : (d : Int) - 1 - j = (d - 1 : Nat) - (j : Nat) := by omega
  have hpow' : (10 : ℚ) ^ (d - 1) ≤ q := by exact_mod_cast hpow
  have hfloor' : (q : ℚ) * den ≤ num * 10 ^ j := by exact_mod_cast hfloor
  rw [hexponent, zpow_sub₀ (by norm_num), zpow_natCast, zpow_natCast, div_le_iff₀ (by positivity),
    div_mul_eq_mul_div, le_div_iff₀ hden']
  exact (mul_le_mul_of_nonneg_right hpow' hden'.le).trans hfloor'

theorem pow_magnitude_le {num den : Nat} (hden : 0 < den) (h : den ≤ num * 10 ^ 400) :
    (10 : ℚ) ^ magnitude num den ≤ num / den := by
  have hexponent : ∀ n : Int, n - 401 = n - 1 - (400 : Nat) := by
    intro n
    omega
  rw [magnitude, hexponent]
  generalize 400 = j at *
  exact pow_length_div_le hden h

/-- A point of a grid that is fine enough rounds to the float, if it is one of the two points next
to the float. -/
theorem nearest_or_nearest {m : Nat} {e : Int} (hm : m < 2 ^ 53) {c : ℚ} {d : Nat} (hc : 0 < c)
    (hfine : c * 10 ^ 16 ≤ m) (hbelow : d * c ≤ m) (habove : m < (d + 1) * c) :
    Nearest m e (d * c) ∨ Nearest m e ((d + 1) * c) := by
  have hm' : (m : ℚ) < 2 ^ 53 := by exact_mod_cast hm
  by_cases hpower : m = 2 ^ 52
  · have hpower' : (m : ℚ) = 2 ^ 52 := by exact_mod_cast hpower
    by_cases hnear : (m : ℚ) - 1 / 4 ≤ d * c
    · exact .inl ⟨⟨by linarith, by linarith, fun hodd => by omega⟩, fun _ _ => hnear⟩
    · exact .inr ⟨⟨by linarith, by linarith, fun hodd => by omega⟩, fun _ _ => by linarith⟩
  · by_cases hnear : (m : ℚ) - 1 / 2 < d * c
    · exact .inl ⟨⟨by linarith, by linarith, fun _ => ⟨hnear, by linarith⟩⟩,
        fun h => absurd h hpower⟩
    · have hclose : (d + 1) * c < m + 1 / 2 := by linarith
      exact .inr ⟨⟨by linarith, hclose.le, fun _ => ⟨by linarith, hclose⟩⟩,
        fun h => absurd h hpower⟩

/-- A grid of seventeen digits has a point that reads back. -/
theorem exists_nearest? {b : Binary} (hm : 0 < b.mantissa)
    (h : Canonical b.mantissa b.exponent) :
    ((Interval.ofBinary b).nearest? (magnitude b.numerator b.denominator - 16)).isSome := by
  have hmagnitude : (10 : ℚ) ^ magnitude b.numerator b.denominator ≤ b.value := by
    rw [← b.numerator_div_denominator]
    exact pow_magnitude_le b.denominator_pos (b.denominator_le hm h (by decide))
  generalize magnitude b.numerator b.denominator = p at *
  have hfloor := Nat.div_mul_le_self ((Interval.ofBinary b).scaled (p - 16)
    (Interval.ofBinary b).value) ((Interval.ofBinary b).step (p - 16))
  have hsucc := Nat.lt_mul_of_div_lt (Nat.lt_succ_self ((Interval.ofBinary b).scaled (p - 16)
    (Interval.ofBinary b).value / (Interval.ofBinary b).step (p - 16)))
    ((Interval.ofBinary b).step_pos (p - 16))
  generalize hd : (Interval.ofBinary b).scaled (p - 16) (Interval.ofBinary b).value /
    (Interval.ofBinary b).step (p - 16) = d at hfloor hsucc
  have hpos : (0 : ℚ) < 2 ^ b.exponent := by positivity
  have hvalue : (((Interval.ofBinary b).value : ℚ) * 2 ^ (Interval.ofBinary b).exponent) =
      b.value := by
    simp only [Interval.ofBinary, Binary.value]
    rw [zpow_sub₀ (by norm_num)]
    push_cast
    ring
  have hbelow : (d * 10 ^ (p - 16) : ℚ) ≤ b.value := by
    rwa [Interval.le_scaled_iff, hvalue] at hfloor
  have habove : b.value < (d + 1) * 10 ^ (p - 16) := by
    rw [← Nat.not_le, Interval.le_scaled_iff, hvalue, not_le] at hsucc
    exact_mod_cast hsucc
  have hgrid : (10 : ℚ) ^ (p - 16) * 10 ^ 16 = 10 ^ p := by
    rw [← zpow_natCast, ← zpow_add₀ (by norm_num)]
    congr 1
    omega
  have hunit : (0 : ℚ) < 10 ^ (p - 16) / 2 ^ b.exponent :=
    div_pos (zpow_pos (by norm_num) _) hpos
  have hunits := nearest_or_nearest (e := b.exponent) (d := d) h.lt hunit
    (by rw [div_mul_eq_mul_div, div_le_iff₀ hpos, hgrid]; exact hmagnitude)
    (by rw [← mul_div_assoc, div_le_iff₀ hpos]; exact hbelow)
    (by rw [← mul_div_assoc, lt_div_iff₀ hpos]; exact habove)
  apply isSome_nearest?
  rw [hd, holds_iff hm, holds_iff hm]
  push_cast
  simpa only [mul_div_assoc] using hunits

/-- The shortest digits of a float read back as it. -/
theorem nearest_shortest {b : Binary} (hm : 0 < b.mantissa)
    (h : Canonical b.mantissa b.exponent) :
    Nearest b.mantissa b.exponent
      ((shortest b).coefficient * 10 ^ (shortest b).exponent / 2 ^ b.exponent) := by
  rw [← holds_iff hm]
  simp only [shortest]
  split
  · rename_i s hs
    obtain ⟨n, -, hn⟩ := List.exists_of_findSome?_eq_some hs
    obtain ⟨hexponent, hholds⟩ := nearest?_holds hn
    rwa [hexponent]
  · rename_i hnone
    have hall := List.findSome?_eq_none_iff.mp hnone 16 (by decide)
    have hsome := exists_nearest? hm h
    rw [show ((16 : Nat) : Int) = 16 from rfl] at hall
    rw [hall] at hsome
    cases hsome

end DesignTokens.Decimal
