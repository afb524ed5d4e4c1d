import DesignTokens.Proofs.Decimal.Places
import DesignTokens.Number

/-!
Equality of floats and numbers. Floats that are equal are ordered in neither direction, every float
but a NaN equals itself, and the floats of small integers are equal only if the integers are.
-/
namespace DesignTokens

open Float.Model

namespace Decimal

/-- Only zeros are equal without being the same. -/
theorem eq_of_compare {a b : UnpackedFloat} (h : a.compare b = some .eq) :
    (∃ s t, a = .zero s ∧ b = .zero t) ∨ a = b := by
  cases a with
  | notANumber => simp [UnpackedFloat.compare] at h
  | infinity s =>
    cases b with
    | infinity t =>
      right
      cases s <;> cases t <;> first | rfl | simp [UnpackedFloat.compare] at h
    | _ => cases s <;> simp [UnpackedFloat.compare] at h
  | zero s =>
    cases b with
    | zero t => exact .inl ⟨s, t, rfl, rfl⟩
    | finite t => cases t <;> simp [UnpackedFloat.compare] at h
    | infinity t => cases t <;> simp [UnpackedFloat.compare] at h
    | notANumber => simp [UnpackedFloat.compare] at h
  | finite s m e hm =>
    cases b with
    | finite t =>
      cases s <;> cases t <;> simp [UnpackedFloat.compare, Ordering.then_eq_eq] at h
      all_goals
        obtain ⟨rfl, rfl⟩ := h
        exact .inr rfl
    | zero t => cases s <;> simp [UnpackedFloat.compare] at h
    | infinity t => cases t <;> simp [UnpackedFloat.compare] at h
    | notANumber => simp [UnpackedFloat.compare] at h

theorem not_lt_of_beq {x y : Float} (h : x == y) : ¬x < y ∧ ¬y < x := by
  have heq : x.toModel.unpack.compare y.toModel.unpack = some .eq := eq_of_beq h
  have hswap : y.toModel.unpack.compare x.toModel.unpack = some .eq := by
    rcases eq_of_compare heq with ⟨s, t, hx, hy⟩ | hsame
    · rw [hx, hy]
      rfl
    · rwa [hsame] at heq ⊢
  constructor
  · intro hlt
    have hless : x.toModel.unpack.compare y.toModel.unpack = some .lt :=
      eq_of_beq (of_decide_eq_true hlt)
    rw [heq] at hless
    cases hless
  · intro hlt
    have hless : y.toModel.unpack.compare x.toModel.unpack = some .lt :=
      eq_of_beq (of_decide_eq_true hlt)
    rw [hswap] at hless
    cases hless

theorem beq_self_of_not_isNaN {x : Float} (h : x.isNaN = false) : x == x := by
  change (x.toModel.unpack.compare x.toModel.unpack == some .eq) = true
  have hunpack : x.toModel.unpack.isNaN = false := h
  cases hx : x.toModel.unpack with
  | notANumber => simp [hx, UnpackedFloat.isNaN] at hunpack
  | infinity s => cases s <;> rfl
  | zero s => rfl
  | finite s m e hm => cases s <;> simp [UnpackedFloat.compare]

theorem beq_self_of_isFinite {x : Float} (h : isFinite x) : x == x := by
  obtain ⟨b, hb⟩ := Option.isSome_iff_exists.mp h
  exact beq_self_of_not_isNaN (isNaN_eq_false hb)

/-! ### Small integers -/

/-- The float of a small positive integer has its value. -/
theorem exists_ofFloat?_ofInt {n : Int} (hn : 0 < n) (hlt : n < 2 ^ 53) :
    ∃ b, Binary.ofFloat? (Float.ofInt n) = some b ∧ 0 < b.mantissa ∧ b.negative = false ∧
      b.value = n := by
  obtain ⟨k, rfl⟩ := Int.eq_ofNat_of_zero_le hn.le
  have hk : 0 < k := by omega
  obtain ⟨m, e, hm, -, -, hcanonical, hgreatest, hvalue⟩ := exists_round hk (by omega)
  have hnearest : Nearest m e (k / 2 ^ e) := by
    rw [← hvalue, mul_div_assoc, div_self (by positivity), mul_one]
    exact nearest_self m e
  have hx := ofFloat?_ofScientific hk false 0 (q := k) (by simp) hm hcanonical hgreatest hnearest
  exact ⟨⟨false, m, e⟩, hx, hm, rfl, hvalue⟩

/-- The floats of small positive integers are equal only if the integers are. -/
theorem ofInt_beq_ofInt {m n : Int} (hm : 0 < m) (hm' : m < 2 ^ 53) (hn : 0 < n)
    (hn' : n < 2 ^ 53) : (Float.ofInt m == Float.ofInt n) = (m == n) := by
  obtain ⟨a, ha, hapos, -, havalue⟩ := exists_ofFloat?_ofInt hm hm'
  obtain ⟨b, hb, hbpos, -, hbvalue⟩ := exists_ofFloat?_ofInt hn hn'
  refine Bool.eq_iff_iff.mpr ⟨fun heq => beq_iff_eq.mpr ?_, fun heq => ?_⟩
  · have hcompare : (Float.ofInt m).toModel.unpack.compare (Float.ofInt n).toModel.unpack =
        some .eq := eq_of_beq heq
    rw [unpack_of_ofFloat? ha hapos, unpack_of_ofFloat? hb hbpos] at hcompare
    rcases eq_of_compare hcompare with ⟨s, t, hzero, -⟩ | hsame
    · cases hzero
    · obtain ⟨-, hmantissa, hexponent⟩ := UnpackedFloat.finite.inj hsame
      have hvalues : (m : ℚ) = n := by
        rw [← havalue, ← hbvalue, Binary.value, Binary.value, hmantissa, hexponent]
      exact_mod_cast hvalues
  · obtain rfl := eq_of_beq heq
    exact beq_self_of_isFinite (Option.isSome_iff_exists.mpr ⟨a, ha⟩)

theorem roundPlaces_ofInt {n : Int} (hn : 0 < n) (hlt : n < 2 ^ 53) (places : Nat) :
    roundPlaces (Float.ofInt n) places = Float.ofInt n := by
  obtain ⟨b, hb, -, -, hvalue⟩ := exists_ofFloat?_ofInt hn hlt
  obtain ⟨k, rfl⟩ := Int.eq_ofNat_of_zero_le hn.le
  have hpos : (b.denominator : ℚ) ≠ 0 := by exact_mod_cast b.denominator_pos.ne'
  have hnumerator : b.numerator = k * b.denominator := by
    have hquotient := b.numerator_div_denominator
    rw [hvalue, div_eq_iff hpos] at hquotient
    exact_mod_cast hquotient
  exact roundPlaces_of_isWhole hb (Binary.isWhole_iff.mpr ⟨k, by rw [hnumerator, Nat.mul_comm]⟩) _

end Decimal

namespace Number

theorem float_beq (x y : Float) : (Number.float x == Number.float y) = (x == y) := by
  change ((Number.float x).order (.float y) == some .eq) = (x == y)
  rw [order]
  cases heq : x == y with
  | true =>
    obtain ⟨hlt, hgt⟩ := Decimal.not_lt_of_beq heq
    simp [hlt, hgt]
  | false =>
    split
    · rfl
    · split <;> rfl

/-- A number that has a value. -/
def isValue : Number → Bool
  | .int _ => true
  | .float x => !x.isNaN
  | .overflow => false

theorem beq_self {n : Number} (h : n.isValue) : n == n := by
  cases n with
  | int n =>
    change (some (compare n n) == some .eq) = true
    simp
  | float x =>
    exact (float_beq x x).trans (Decimal.beq_self_of_not_isNaN (by simpa [isValue] using h))
  | overflow => cases h

end Number

end DesignTokens
