import DesignTokens.Proofs.Decimal.Compare

/-!
Signs. Arithmetic makes the sign of a result from the signs of its arguments, and neither rounding
nor an overflow changes it; so what is not below zero stays so in sums, products and roundings.
-/
namespace DesignTokens

open Float.Model (UnpackedFloat Format)
open Float.Model.UnpackedFloat (Sign packComponents)

namespace Decimal

/-- A float that is no NaN and has this sign. -/
inductive HasSign (s : Sign) : UnpackedFloat → Prop where
  | infinity : HasSign s (.infinity s)
  | zero : HasSign s (.zero s)
  | finite (m : Nat) (e : Int) (hm : 0 < m) : HasSign s (.finite s m e hm)

variable {u v : UnpackedFloat} {s : Sign}

/-! ### Rounding and packing -/

theorem hasSign_roundWithAccuracy (s : Sign) (m : Nat) (e : Int) (a : UnpackedFloat.Accuracy) :
    HasSign s (UnpackedFloat.roundWithAccuracy Format.binary64 s m e a) := by
  simp only [UnpackedFloat.roundWithAccuracy]
  split
  · exact .zero
  · exact .finite ..

theorem hasSign_normalize {n : Int} (hn : 0 ≤ n) (e : Int) :
    HasSign .positive (UnpackedFloat.normalize Format.binary64 n e .positive) := by
  rw [UnpackedFloat.normalize]
  split
  · rename_i hlt
    rw [Int.compare_eq_lt] at hlt
    omega
  · exact .zero
  · exact hasSign_roundWithAccuracy ..

/-- What is packed from parts has their sign, unless the parts are those of a NaN. -/
theorem hasSign_unpack (s : Sign) {e : BitVec 11} {m : BitVec 52} (h : e = -1#11 → m = 0#52) :
    HasSign s (UnpackedFloat.unpack Format.binary64 (packComponents Format.binary64 s e m)) := by
  simp only [UnpackedFloat.unpack, UnpackedFloat.unpackMantissa_packComponents,
    UnpackedFloat.unpackExponent_packComponents, unpackSign_packComponents]
  split
  · rename_i hlast
    rw [if_pos (h hlast)]
    exact .infinity
  · split
    · split
      · exact .zero
      · exact .finite ..
    · exact .finite ..

theorem HasSign.unpack_pack (h : HasSign s u) : HasSign s (Float.Model.pack u).unpack := by
  cases h with
  | infinity => exact hasSign_unpack s fun _ => rfl
  | zero => exact hasSign_unpack s fun h => absurd h (by decide)
  | finite m e hm =>
    change HasSign s (UnpackedFloat.unpack _ (UnpackedFloat.pack _ (.finite s m e hm)))
    simp only [UnpackedFloat.pack]
    split
    · exact hasSign_unpack s fun _ => rfl
    · rename_i hrange
      split
      · refine hasSign_unpack s fun hlast => absurd (congrArg BitVec.toNat hlast) ?_
        change _ % 2 ^ 11 ≠ 2 ^ 11 - 1
        rw [Nat.mod_eq_of_lt (by omega)]
        omega
      · exact hasSign_unpack s fun h => absurd h (by decide)

/-! ### Arithmetic -/

/-- Positive, or a zero. -/
def AtLeastZero (u : UnpackedFloat) : Prop := HasSign .positive u ∨ u = .zero .negative

theorem AtLeastZero.unpack_pack (h : AtLeastZero u) : AtLeastZero (Float.Model.pack u).unpack := by
  rcases h with h | rfl
  · exact .inl h.unpack_pack
  · exact .inr rfl

theorem atLeastZero_add (hu : AtLeastZero u) (hv : AtLeastZero v) :
    AtLeastZero (UnpackedFloat.add Format.binary64 u v) := by
  rcases hu with (_ | _ | ⟨m, e, hm⟩) | rfl
  · rcases hv with (_ | _ | _) | rfl <;> exact .inl .infinity
  · rcases hv with (_ | _ | _) | rfl
    · exact .inl .infinity
    · exact .inl .zero
    · exact .inl (.finite ..)
    · exact .inl .zero
  · rcases hv with (_ | _ | ⟨m', e', hm'⟩) | rfl
    · exact .inl .infinity
    · exact .inl (.finite ..)
    · refine .inl (hasSign_normalize ?_ _)
      exact Int.add_nonneg (Int.natCast_nonneg _) (Int.natCast_nonneg _)
    · exact .inl (.finite ..)
  · rcases hv with (_ | _ | _) | rfl
    · exact .inl .infinity
    · exact .inl .zero
    · exact .inl (.finite ..)
    · exact .inr rfl

theorem hasSign_mul_finite {m n : Nat} {e f : Int} (hm : 0 < m) (hn : 0 < n) :
    HasSign .positive (UnpackedFloat.mul Format.binary64 (.finite .positive m e hm)
      (.finite .positive n f hn)) :=
  hasSign_roundWithAccuracy ..

/-- Only zero times an infinity is no number. -/
theorem atLeastZero_mul (hu : AtLeastZero u) (hv : AtLeastZero v) :
    AtLeastZero (UnpackedFloat.mul Format.binary64 u v) ∨
      UnpackedFloat.mul Format.binary64 u v = .notANumber := by
  rcases hu with (_ | _ | _) | rfl
  · rcases hv with (_ | _ | _) | rfl
    · exact .inl (.inl .infinity)
    · exact .inr rfl
    · exact .inl (.inl .infinity)
    · exact .inr rfl
  · rcases hv with (_ | _ | _) | rfl
    · exact .inr rfl
    · exact .inl (.inl .zero)
    · exact .inl (.inl .zero)
    · exact .inl (.inr rfl)
  · rcases hv with (_ | _ | _) | rfl
    · exact .inl (.inl .infinity)
    · exact .inl (.inl .zero)
    · exact .inl (.inl (hasSign_mul_finite ..))
    · exact .inl (.inr rfl)
  · rcases hv with (_ | _ | _) | rfl
    · exact .inr rfl
    · exact .inl (.inr rfl)
    · exact .inl (.inr rfl)
    · exact .inl (.inl .zero)

theorem eq_notANumber_of_isNaN (h : u.isNaN) : u = .notANumber := by
  cases u with
  | notANumber => rfl
  | infinity | zero | finite => cases h

theorem isNaN_add (h : u.isNaN ∨ v.isNaN) :
    UnpackedFloat.add Format.binary64 u v = .notANumber := by
  rcases h with h | h
  · rw [eq_notANumber_of_isNaN h]
    rfl
  · rw [eq_notANumber_of_isNaN h]
    cases u <;> rfl

/-- A number is below zero or at least zero. -/
theorem lt_zero_or_atLeastZero (h : u.isNaN = false) :
    u.compare (.zero .positive) = some .lt ∨ AtLeastZero u := by
  cases u with
  | notANumber => cases h
  | infinity s =>
    cases s with
    | positive => exact .inr (.inl .infinity)
    | negative => exact .inl rfl
  | zero s =>
    cases s with
    | positive => exact .inr (.inl .zero)
    | negative => exact .inr (.inr rfl)
  | finite s =>
    cases s with
    | positive => exact .inr (.inl (.finite ..))
    | negative => exact .inl rfl

theorem AtLeastZero.isNaN_eq_false (h : AtLeastZero u) : u.isNaN = false := by
  rcases h with (_ | _ | _) | rfl <;> rfl

theorem atLeastZero_iff :
    AtLeastZero u ↔ ((UnpackedFloat.zero .positive).compare u).any (·.isLE) := by
  constructor
  · rintro ((_ | _ | _) | rfl) <;> rfl
  · intro h
    cases u with
    | notANumber => cases h
    | infinity s =>
      cases s with
      | positive => exact .inl .infinity
      | negative => cases h
    | zero s =>
      cases s with
      | positive => exact .inl .zero
      | negative => exact .inr rfl
    | finite s =>
      cases s with
      | positive => exact .inl (.finite ..)
      | negative => cases h

/-! ### Floats -/

theorem zero_le_iff {x : Float} : 0 ≤ x ↔ AtLeastZero x.toModel.unpack := by
  have hzero : (0 : Float).toModel.unpack = .zero .positive := rfl
  have hle : 0 ≤ x ↔ ((0 : Float).toModel.unpack.compare x.toModel.unpack).any (·.isLE) :=
    ⟨of_decide_eq_true, decide_eq_true⟩
  rw [hle, hzero, atLeastZero_iff]

theorem lt_zero_or_zero_le {x : Float} (h : x.isNaN = false) : x < 0 ∨ 0 ≤ x :=
  (lt_zero_or_atLeastZero h).imp (fun hlt => decide_eq_true (beq_iff_eq.mpr hlt)) zero_le_iff.mpr

theorem isNaN_eq_false_of_zero_le {x : Float} (h : 0 ≤ x) : x.isNaN = false :=
  (zero_le_iff.mp h).isNaN_eq_false

theorem add_nonneg {x y : Float} (hx : 0 ≤ x) (hy : 0 ≤ y) : 0 ≤ x + y :=
  zero_le_iff.mpr (atLeastZero_add (zero_le_iff.mp hx) (zero_le_iff.mp hy)).unpack_pack

theorem mul_nonneg {x y : Float} (hx : 0 ≤ x) (hy : 0 ≤ y) : 0 ≤ x * y ∨ (x * y).isNaN := by
  rcases atLeastZero_mul (zero_le_iff.mp hx) (zero_le_iff.mp hy) with h | h
  · exact .inl (zero_le_iff.mpr h.unpack_pack)
  · right
    change (Float.Model.pack (UnpackedFloat.mul _ _ _)).unpack.isNaN
    rw [h]
    rfl

/-- A sum is a number only if both parts are. -/
theorem isNaN_eq_false_of_add {x y : Float} (h : (x + y).isNaN = false) :
    x.isNaN = false ∧ y.isNaN = false := by
  by_contra hparts
  have hnan : x.isNaN ∨ y.isNaN := by
    cases hx : x.isNaN <;> cases hy : y.isNaN <;> simp_all
  change (Float.Model.pack (UnpackedFloat.add _ x.toModel.unpack y.toModel.unpack)).unpack.isNaN =
    false at h
  rw [isNaN_add hnan] at h
  cases h

theorem zero_le_of_ofFloat? {x : Float} {b : Binary} (h : Binary.ofFloat? x = some b)
    (hb : b.negative = false) : 0 ≤ x := by
  rcases Nat.eq_zero_or_pos b.mantissa with hm | hm
  · rw [eq_zero_of_ofFloat? h hm, hb]
    decide +kernel
  · rw [zero_le_iff, unpack_of_ofFloat? h hm, hb]
    exact .inl (.finite ..)

/-- A finite number that is at least zero is a zero or has no sign. -/
theorem negative_eq_false {x : Float} {b : Binary} (h : Binary.ofFloat? x = some b) (hx : 0 ≤ x)
    (hm : 0 < b.mantissa) : b.negative = false := by
  rw [zero_le_iff, unpack_of_ofFloat? h hm] at hx
  cases hb : b.negative with
  | false => rfl
  | true =>
    rw [hb] at hx
    rcases hx with hx | hx <;> cases hx

theorem roundPlaces_nonneg {x : Float} (hx : 0 ≤ x) {places : Nat} (hplaces : places ≤ 15) :
    0 ≤ roundPlaces x places := by
  cases hfound : Binary.ofFloat? x with
  | none => rwa [roundPlaces, hfound]
  | some b =>
    rcases Nat.eq_zero_or_pos b.mantissa with hm | hm
    · rwa [roundPlaces_of_isWhole hfound (by simp [Binary.isWhole, Binary.numerator, hm])]
    · obtain ⟨m, e, hrounded⟩ := exists_ofFloat?_roundPlaces hfound hplaces
      have hsign := negative_eq_false hfound hx hm
      exact zero_le_of_ofFloat? hrounded hsign

theorem isNaN_roundPlaces {x : Float} {places : Nat} (hplaces : places ≤ 15) :
    (roundPlaces x places).isNaN = x.isNaN := by
  cases hfound : Binary.ofFloat? x with
  | none => rw [roundPlaces, hfound]
  | some b =>
    obtain ⟨m, e, hrounded⟩ := exists_ofFloat?_roundPlaces hfound hplaces
    rw [isNaN_eq_false hrounded, isNaN_eq_false hfound]

theorem ofInt_nonneg {n : Int} (hn : 0 ≤ n) : 0 ≤ Float.ofInt n := by
  obtain ⟨k, rfl⟩ := Int.eq_ofNat_of_zero_le hn
  rcases Nat.eq_zero_or_pos k with rfl | hk
  · decide +kernel
  by_cases hsmall : k < 2 ^ 53
  · obtain ⟨b, hb, -, hsign, -⟩ := exists_ofFloat?_ofInt (n := k) (by omega) (by omega)
    exact zero_le_of_ofFloat? hb hsign
  · have hlarge : Float.ofInt k = .ofModel (.ofScientific k 0) := dif_neg fun h => hsmall h.1
    have hguard : ¬(0 : Int) < -((2 ^ Format.binary64.exponentBits : Int) + k.log2) := by
      change ¬(0 : Int) < -(2048 + k.log2)
      omega
    rw [hlarge, zero_le_iff]
    refine AtLeastZero.unpack_pack (.inl ?_)
    rw [UnpackedFloat.ofScientific, dif_neg hk.ne', if_neg (by decide), if_neg hguard,
      if_pos (by decide)]
    exact hasSign_mul_finite ..

end Decimal

namespace Number

/-- At least zero. -/
def Nonneg : Number → Prop
  | .int n => 0 ≤ n
  | .float x => 0 ≤ x
  | .overflow => False

instance : DecidablePred Nonneg
  | .int n => inferInstanceAs (Decidable (0 ≤ n))
  | .float x => inferInstanceAs (Decidable (0 ≤ x))
  | .overflow => inferInstanceAs (Decidable False)

variable {a b : Number}

theorem nonneg_zero : (Number.float 0).Nonneg := by decide +kernel

theorem Nonneg.isValue (h : a.Nonneg) : a.isValue := by
  cases a with
  | int n => rfl
  | float x => simpa [Number.isValue] using Decimal.isNaN_eq_false_of_zero_le h
  | overflow => cases h

theorem compareExact_eq_lt {n : Int} {b : Decimal.Binary} (hn : n < 0) (hb : b.mantissa = 0) :
    compareExact n b = .lt := by
  have hnumerator : b.numerator = 0 := by rw [Decimal.Binary.numerator, hb, Nat.zero_mul]
  rw [compareExact, hnumerator, Int.natCast_zero, Int.neg_zero, ite_self, Int.compare_eq_lt]
  exact Int.mul_neg_of_neg_of_pos hn (Int.natCast_pos.mpr b.denominator_pos)

theorem int_lt_zero {n : Int} (hn : n < 0) : Number.int n < .float 0 := by
  have hzero : Decimal.Binary.ofFloat? 0 = some ⟨false, 0, -1074⟩ := by decide +kernel
  change compareFloat n 0 = some .lt
  simp only [compareFloat, hzero]
  exact congrArg some (compareExact_eq_lt hn rfl)

theorem lt_zero_or_nonneg (h : a.isValue) : a < .float 0 ∨ a.Nonneg := by
  cases a with
  | int n => exact (lt_or_ge n 0).imp int_lt_zero id
  | float x =>
    have hnumber : x.isNaN = false := by simpa [isValue] using h
    refine (Decimal.lt_zero_or_zero_le hnumber).imp (fun hlt => ?_) id
    change (if x < 0 then _ else _) = _
    rw [if_pos hlt]
  | overflow => cases h

/-- A sum is exact, or one of floats, or lost. -/
theorem add_cases (a b : Number) : (∃ m n, a = .int m ∧ b = .int n ∧ a + b = .int (m + n)) ∨
    (∃ x y, a.toFloat? = some x ∧ b.toFloat? = some y ∧ a + b = .float (x + y)) ∨
      a + b = .overflow := by
  have hsum : a + b = combine (· + ·) (· + ·) a b := rfl
  rw [combine.eq_def] at hsum
  split at hsum
  · exact .inl ⟨_, _, rfl, rfl, hsum⟩
  · right
    split at hsum
    · rename_i hx hy
      exact .inl ⟨_, _, hx, hy, hsum⟩
    · exact .inr hsum

theorem Nonneg.of_toFloat? {x : Float} (h : a.Nonneg) (hx : a.toFloat? = some x) : 0 ≤ x := by
  cases a with
  | int n =>
    simp only [toFloat?, floatOfInt?, Option.ite_none_right_eq_some] at hx
    obtain ⟨-, hx⟩ := hx
    obtain rfl := Option.some.inj hx
    exact Decimal.ofInt_nonneg h
  | float y =>
    obtain rfl := Option.some.inj hx
    exact h
  | overflow => cases h

theorem isValue_of_toFloat? {x : Float} (hx : a.toFloat? = some x) (h : x.isNaN = false) :
    a.isValue := by
  cases a with
  | int n => rfl
  | float y =>
    obtain rfl := Option.some.inj hx
    simpa [isValue] using h
  | overflow => cases hx

theorem Nonneg.add (ha : a.Nonneg) (hb : b.Nonneg) : (a + b).Nonneg ∨ a + b = .overflow := by
  rcases add_cases a b with ⟨m, n, rfl, rfl, h⟩ | ⟨x, y, hx, hy, h⟩ | h
  · exact .inl (h ▸ Int.add_nonneg ha hb)
  · exact .inl (h ▸ Decimal.add_nonneg (ha.of_toFloat? hx) (hb.of_toFloat? hy))
  · exact .inr h

theorem isValue_of_add (h : (a + b).isValue) : a.isValue ∧ b.isValue := by
  rcases add_cases a b with ⟨m, n, rfl, rfl, -⟩ | ⟨x, y, hx, hy, hsum⟩ | hsum
  · exact ⟨rfl, rfl⟩
  · rw [hsum] at h
    obtain ⟨hx', hy'⟩ := Decimal.isNaN_eq_false_of_add (by simpa [isValue] using h)
    exact ⟨isValue_of_toFloat? hx hx', isValue_of_toFloat? hy hy'⟩
  · rw [hsum] at h
    cases h

theorem max_eq (a b : Number) : max a b = if a < b || b.isOverflow then b else a := rfl

theorem max_cases (a b : Number) : max a b = a ∨ max a b = b := by
  rw [max_eq]
  split
  · exact .inr rfl
  · exact .inl rfl

/-- Nothing that has a value is left below zero. -/
theorem nonneg_max_zero (h : (max a (.float 0)).isValue) : (max a (.float 0)).Nonneg := by
  by_cases hbelow : a < .float 0
  · rw [max_eq, if_pos (by simp [hbelow])]
    exact nonneg_zero
  · rw [max_eq, if_neg (by simp [hbelow, isOverflow])] at h ⊢
    exact (lt_zero_or_nonneg h).resolve_left hbelow

theorem isValue_max_zero (h : a.isValue) : (max a (.float 0)).isValue := by
  rcases max_cases a (.float 0) with hmax | hmax <;> rw [hmax]
  · exact h
  · exact nonneg_zero.isValue

theorem isValue_round (places : Nat) (hplaces : places ≤ 15) :
    (a.round places).isValue = a.isValue := by
  cases a with
  | float x => exact congrArg (!·) (Decimal.isNaN_roundPlaces hplaces)
  | _ => rfl

theorem Nonneg.round (h : a.Nonneg) {places : Nat} (hplaces : places ≤ 15) :
    (a.round places).Nonneg := by
  cases a with
  | float x => exact Decimal.roundPlaces_nonneg h hplaces
  | _ => exact h

/-- At least zero, unless it has no value. -/
def NotBelowZero (n : Number) : Prop := n.isValue → n.Nonneg

theorem NotBelowZero.round (h : a.NotBelowZero) {places : Nat} (hplaces : places ≤ 15) :
    (a.round places).NotBelowZero := by
  intro hvalue
  rw [isValue_round places hplaces] at hvalue
  exact (h hvalue).round hplaces

theorem NotBelowZero.add (ha : a.NotBelowZero) (hb : b.NotBelowZero) : (a + b).NotBelowZero := by
  intro h
  obtain ⟨ha', hb'⟩ := isValue_of_add h
  rcases (ha ha').add (hb hb') with hsum | hsum
  · exact hsum
  · rw [hsum] at h
    cases h

/-- At least zero, or lost. -/
def NonnegOrLost (n : Number) : Prop := n.Nonneg ∨ n = .overflow

theorem NonnegOrLost.round (h : a.NonnegOrLost) {places : Nat} (hplaces : places ≤ 15) :
    (a.round places).NonnegOrLost := by
  rcases h with h | rfl
  · exact .inl (h.round hplaces)
  · exact .inr rfl

theorem NonnegOrLost.add (ha : a.NonnegOrLost) (hb : b.NonnegOrLost) : (a + b).NonnegOrLost := by
  rcases ha with ha | rfl
  · rcases hb with hb | rfl
    · exact ha.add hb
    · right
      rcases add_cases a .overflow with ⟨m, n, -, h, -⟩ | ⟨x, y, -, h, -⟩ | h
      · cases h
      · cases h
      · exact h
  · exact .inr rfl

end Number

end DesignTokens
