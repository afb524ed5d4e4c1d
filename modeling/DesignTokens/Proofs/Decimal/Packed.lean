import DesignTokens.Decimal.Binary
import Mathlib

/-!
Floats and their exact values. A finite float has one mantissa and one exponent, and is known by
them and by its sign.
-/
namespace DesignTokens.Decimal

open Float.Model (UnpackedFloat Format)
open Float.Model.UnpackedFloat (Sign packComponents)

/-- The form of a finite float: the mantissa has 53 bits unless the exponent is the least one. -/
structure Canonical (m : Nat) (e : Int) : Prop where
  lt : m < 2 ^ 53
  least : -1074 ≤ e
  normal : 2 ^ 52 ≤ m ∨ e = -1074

/-! ### Bits -/

/-- The exponent field of a finite float. -/
def field (m : Nat) (e : Int) : Nat := if m < 2 ^ 52 then 0 else (e + 1075).toNat

/-- The bits of a sign, an exponent field and a fraction. -/
def joinFields (negative : Bool) (field fraction : Nat) : Nat :=
  negative.toNat * 2 ^ 63 + field * 2 ^ 52 + fraction

theorem ofBits?_joinFields (negative : Bool) {field fraction : Nat} (hfield : field < 2 ^ 11)
    (hfraction : fraction < 2 ^ 52) : Binary.ofBits? (joinFields negative field fraction) =
      if field = 2 ^ 11 - 1 then none
      else if field = 0 then some ⟨negative, fraction, -1074⟩
      else some ⟨negative, 2 ^ 52 + fraction, (field : Int) - 1075⟩ := by
  have hsign : decide (2 ^ 63 ≤ joinFields negative field fraction) = negative := by
    cases negative <;> simp [joinFields] <;> omega
  have hmiddle : joinFields negative field fraction / 2 ^ 52 % 2 ^ 11 = field := by
    cases negative <;> simp [joinFields] <;> omega
  have hlow : joinFields negative field fraction % 2 ^ 52 = fraction := by
    cases negative <;> simp [joinFields] <;> omega
  simp only [Binary.ofBits?, Nat.pow_eq, hsign, hmiddle, hlow]

theorem exists_joinFields {n : Nat} (h : n < 2 ^ 64) : ∃ negative field fraction,
    field < 2 ^ 11 ∧ fraction < 2 ^ 52 ∧ joinFields negative field fraction = n := by
  refine ⟨decide (2 ^ 63 ≤ n), n / 2 ^ 52 % 2 ^ 11, n % 2 ^ 52, by omega, by omega, ?_⟩
  by_cases hs : 2 ^ 63 ≤ n
  · simp only [joinFields, decide_eq_true hs, Bool.toNat_true]
    omega
  · simp only [joinFields, decide_eq_false hs, Bool.toNat_false]
    omega

/-- A finite float has the form of one, and its bits follow from its value. -/
theorem ofBits?_eq_some {n : Nat} {b : Binary} (h : Binary.ofBits? n = some b) (hn : n < 2 ^ 64) :
    Canonical b.mantissa b.exponent ∧ b.exponent ≤ 971 ∧
      n = joinFields b.negative (field b.mantissa b.exponent) (b.mantissa % 2 ^ 52) := by
  obtain ⟨negative, f, fraction, hf, hfraction, rfl⟩ := exists_joinFields hn
  rw [ofBits?_joinFields negative hf hfraction] at h
  split at h
  · cases h
  split at h
  · rename_i hzero
    obtain rfl := Option.some.inj h
    dsimp only
    refine ⟨⟨by omega, by omega, .inr rfl⟩, by omega, ?_⟩
    rw [field, if_pos hfraction, Nat.mod_eq_of_lt hfraction, hzero]
  · rename_i hlast hzero
    obtain rfl := Option.some.inj h
    dsimp only
    refine ⟨⟨by omega, by omega, .inl (by omega)⟩, by omega, ?_⟩
    rw [field, if_neg (by omega), Nat.add_mod_left, Nat.mod_eq_of_lt hfraction,
      Int.sub_add_cancel, Int.toNat_natCast]

/-- The value of a float whose fields are those of a mantissa and an exponent. -/
theorem ofBits?_fields (negative : Bool) {m : Nat} {e : Int} (h : Canonical m e) (he : e ≤ 971) :
    Binary.ofBits? (joinFields negative (field m e) (m % 2 ^ 52)) = some ⟨negative, m, e⟩ := by
  obtain ⟨hlt, hleast, hnormal⟩ := h
  rw [ofBits?_joinFields negative (by rw [field]; split <;> omega) (Nat.mod_lt m (by decide))]
  by_cases hsub : m < 2 ^ 52
  · obtain rfl : e = -1074 := by omega
    rw [field, if_pos hsub, if_neg (by decide), if_pos rfl, Nat.mod_eq_of_lt hsub]
  · have hfraction : 2 ^ 52 + m % 2 ^ 52 = m := by omega
    have hexponent : ((e + 1075).toNat : Int) - 1075 = e := by omega
    rw [field, if_neg hsub, if_neg (by omega), if_neg (by omega), hfraction, hexponent]

/-! ### Floats -/

theorem eq_of_toBits {x y : Float} (h : x.toBits.toNat = y.toBits.toNat) : x = y := by
  obtain ⟨⟨bits, _⟩⟩ := x
  obtain ⟨⟨bits', _⟩⟩ := y
  obtain rfl : bits = bits' := UInt64.toNat_inj.mp h
  rfl

theorem canonical_of_ofFloat? {x : Float} {b : Binary} (h : Binary.ofFloat? x = some b) :
    Canonical b.mantissa b.exponent ∧ b.exponent ≤ 971 :=
  let ⟨hcanonical, hgreatest, _⟩ := ofBits?_eq_some h x.toBits.toNat_lt
  ⟨hcanonical, hgreatest⟩

/-- A finite float is known by its value and its sign. -/
theorem eq_of_ofFloat? {x y : Float} {b : Binary} (hx : Binary.ofFloat? x = some b)
    (hy : Binary.ofFloat? y = some b) : x = y := by
  obtain ⟨-, -, hbits⟩ := ofBits?_eq_some hx x.toBits.toNat_lt
  obtain ⟨-, -, hbits'⟩ := ofBits?_eq_some hy y.toBits.toNat_lt
  exact eq_of_toBits (hbits.trans hbits'.symm)

/-- The infinities and the one NaN. -/
theorem eq_of_ofFloat?_eq_none {x : Float} (h : Binary.ofFloat? x = none) :
    x = Float.ofBits 0x7FF0000000000000 ∨ x = Float.ofBits 0xFFF0000000000000 ∨
      x = Float.ofBits 0x7FF8000000000000 := by
  obtain ⟨negative, f, fraction, hf, hfraction, hbits⟩ := exists_joinFields x.toBits.toNat_lt
  rw [Binary.ofFloat?, ← hbits, ofBits?_joinFields negative hf hfraction] at h
  have hlast : f = 2 ^ 11 - 1 := by
    by_contra hne
    rw [if_neg hne] at h
    split at h <;> cases h
  subst hlast
  by_cases hzero : fraction = 0
  · subst hzero
    cases negative
    · exact .inl (eq_of_toBits (hbits.symm.trans (by decide +kernel)))
    · exact .inr (.inl (eq_of_toBits (hbits.symm.trans (by decide +kernel))))
  · -- of the patterns of a NaN, a float has a single one
    have hexponent : @UnpackedFloat.unpackExponent Format.binary64
        x.toModel.toBits.toBitVec = -1#11 := by
      refine BitVec.eq_of_toNat_eq ?_
      change x.toBits.toNat >>> 52 % 2 ^ 11 = 2 ^ 11 - 1
      rw [← hbits, Nat.shiftRight_eq_div_pow, joinFields]
      cases negative <;> simp <;> omega
    have hmantissa : @UnpackedFloat.unpackMantissa Format.binary64
        x.toModel.toBits.toBitVec ≠ 0#52 := by
      intro hvec
      have hnat : x.toBits.toNat >>> 0 % 2 ^ 52 = 0 := congrArg BitVec.toNat hvec
      rw [← hbits, joinFields] at hnat
      cases negative <;> simp at hnat <;> omega
    have hnan := x.toModel.valid.eq_packedNaN hexponent hmantissa
    refine .inr (.inr (eq_of_toBits ?_))
    change x.toModel.toBits.toBitVec.toNat = _
    rw [hnan]
    decide +kernel

/-! ### Packing -/

def signOf (negative : Bool) : Sign := if negative then .negative else .positive

theorem toNat_packComponents (negative : Bool) (e : BitVec 11) (m : BitVec 52) :
    (packComponents Format.binary64 (signOf negative) e m).toNat =
      joinFields negative e.toNat m.toNat := by
  have hsign : (signOf negative).toBitVec.toNat = negative.toNat := by cases negative <;> rfl
  rw [packComponents, BitVec.toNat_append, BitVec.toNat_append,
    ← Nat.shiftLeft_add_eq_or_of_lt m.isLt, ← Nat.shiftLeft_add_eq_or_of_lt e.isLt, hsign,
    Nat.shiftLeft_eq, Nat.shiftLeft_eq, joinFields]
  omega

section

variable (negative : Bool) {m : Nat} {e : Int}

/-- What is packed from a mantissa and an exponent in the form of a finite float. -/
theorem pack_finite (s : Sign) (hm : 0 < m) (h : Canonical m e) (he : e ≤ 971) :
    UnpackedFloat.pack Format.binary64 (.finite s m e hm) =
      packComponents Format.binary64 s (BitVec.ofNat 11 (field m e)) (BitVec.ofNat 52 m) := by
  obtain ⟨hlt, hleast, hnormal⟩ := h
  have hbias : (e + (Format.binary64.exponentBias : Int) +
      (Format.binary64.mantissaBitsWithoutImplicit : Int)).toNat = (e + 1075).toNat := by
    simp [Format.exponentBias]
    omega
  have hbits : Format.binary64.mantissaBits = 53 := rfl
  simp only [UnpackedFloat.pack, hbias, hbits]
  rw [if_neg (show ¬2 ^ 11 ≤ (e + 1075).toNat + 1 by omega), field]
  by_cases hsub : m < 2 ^ 52
  · have hlog : m.log2 < 52 := (Nat.log2_lt (by omega)).mpr hsub
    rw [if_neg (by omega), if_pos hsub]
  · have hlog : m.log2 = 52 := (Nat.log2_eq_iff (by omega)).mpr ⟨by omega, hlt⟩
    rw [if_pos (by omega), if_neg hsub]

theorem field_lt (h : Canonical m e) (he : e ≤ 971) : field m e < 2047 := by
  obtain ⟨hlt, hleast, hnormal⟩ := h
  rw [field]
  split <;> omega

theorem ofFloat?_pack (hm : 0 < m) (h : Canonical m e) (he : e ≤ 971) :
    Binary.ofFloat? (.ofModel (.pack (.finite (signOf negative) m e hm))) =
      some ⟨negative, m, e⟩ := by
  have hfield := field_lt h he
  have hbits : (UnpackedFloat.pack Format.binary64 (.finite (signOf negative) m e hm)).toNat =
      joinFields negative (field m e) (m % 2 ^ 52) := by
    rw [pack_finite _ hm h he, toNat_packComponents, BitVec.toNat_ofNat, BitVec.toNat_ofNat,
      Nat.mod_eq_of_lt (show field m e < 2 ^ 11 by omega)]
  rw [← ofBits?_fields negative h he, ← hbits]
  rfl

theorem unpackSign_packComponents (s : Sign) (e : BitVec 11) (m : BitVec 52) :
    Sign.ofBitVec (UnpackedFloat.unpackSign (packComponents Format.binary64 s e m)) = s := by
  rw [UnpackedFloat.unpackSign, packComponents, BitVec.extractLsb,
    BitVec.extractLsb'_append_eq_of_le (by decide), BitVec.extractLsb'_append_eq_of_le (by decide)]
  cases s <;> rfl

/-- A float is unpacked into the mantissa and the exponent that it has. -/
theorem unpack_pack (s : Sign) (hm : 0 < m) (h : Canonical m e) (he : e ≤ 971) :
    (Float.Model.pack (.finite s m e hm)).unpack = .finite s m e hm := by
  have hlt := h.lt
  have hfield := field_lt h he
  have hexponent : (BitVec.ofNat 11 (field m e)).toNat = field m e := by
    rw [BitVec.toNat_ofNat, Nat.mod_eq_of_lt (show field m e < 2 ^ 11 by omega)]
  have hlast : BitVec.ofNat 11 (field m e) ≠ -1#11 := by
    intro hall
    rw [hall] at hexponent
    simp at hexponent
    omega
  simp only [Float.Model.unpack, Float.Model.pack, pack_finite s hm h he, UnpackedFloat.unpack,
    UnpackedFloat.unpackMantissa_packComponents, UnpackedFloat.unpackExponent_packComponents,
    unpackSign_packComponents]
  rw [if_neg hlast]
  by_cases hsub : m < 2 ^ 52
  · have hmantissa : (BitVec.ofNat 52 m).toNat = m := by
      rw [BitVec.toNat_ofNat, Nat.mod_eq_of_lt hsub]
    have hnonzero : BitVec.ofNat 52 m ≠ 0#52 := by
      intro hzero
      rw [hzero] at hmantissa
      simp at hmantissa
      omega
    obtain rfl : e = -1074 := h.normal.resolve_left (by omega)
    have hzero : field m (-1074) = 0 := if_pos hsub
    simp only [hzero, hmantissa, dif_neg hnonzero]
    rfl
  · have hnormal : field m e = (e + 1075).toNat := if_neg hsub
    have hnonzero : BitVec.ofNat 11 (field m e) ≠ 0#11 := by
      intro hzero
      rw [hzero] at hexponent
      have hleast := h.least
      simp at hexponent
      omega
    have hmantissa : (1#1 ++ BitVec.ofNat 52 m).toNat = m := by
      rw [BitVec.toNat_append, ← Nat.shiftLeft_add_eq_or_of_lt (BitVec.isLt _)]
      simp
      omega
    have hbias : ((field m e : Nat) : Int) - ((Format.binary64.exponentBias : Int) +
        (Format.binary64.mantissaBitsWithoutImplicit : Int)) = e := by
      have hleast := h.least
      simp [Format.exponentBias]
      omega
    rw [if_neg hnonzero]
    simp only [hmantissa, hexponent, hbias]

end

theorem unpack_of_ofFloat? {x : Float} {b : Binary} (h : Binary.ofFloat? x = some b)
    (hm : 0 < b.mantissa) :
    x.toModel.unpack = .finite (signOf b.negative) b.mantissa b.exponent hm := by
  obtain ⟨hcanonical, hgreatest⟩ := canonical_of_ofFloat? h
  rw [eq_of_ofFloat? h (ofFloat?_pack b.negative hm hcanonical hgreatest)]
  exact unpack_pack _ hm hcanonical hgreatest

/-- The two zeros. -/
theorem eq_zero_of_ofFloat? {x : Float} {b : Binary} (h : Binary.ofFloat? x = some b)
    (hm : b.mantissa = 0) : x = if b.negative then -0 else 0 := by
  obtain ⟨hcanonical, -⟩ := canonical_of_ofFloat? h
  obtain ⟨negative, m, e⟩ := b
  obtain rfl : m = 0 := hm
  obtain rfl : e = -1074 := hcanonical.normal.resolve_left (by simp)
  cases negative <;> exact eq_of_ofFloat? h (by decide +kernel)

theorem isNaN_eq_false {x : Float} {b : Binary} (h : Binary.ofFloat? x = some b) :
    x.isNaN = false := by
  rcases Nat.eq_zero_or_pos b.mantissa with hm | hm
  · rw [eq_zero_of_ofFloat? h hm]
    cases b.negative <;> decide +kernel
  · change x.toModel.unpack.isNaN = false
    rw [unpack_of_ofFloat? h hm]
    rfl

theorem ofFloat?_neg {x : Float} {b : Binary} (h : Binary.ofFloat? x = some b) :
    Binary.ofFloat? (-x) = some { b with negative := !b.negative } := by
  obtain ⟨hcanonical, hgreatest⟩ := canonical_of_ofFloat? h
  rcases Nat.eq_zero_or_pos b.mantissa with hm | hm
  · have hexponent : b.exponent = -1074 := hcanonical.normal.resolve_left (by omega)
    rw [eq_zero_of_ofFloat? h hm, hm, hexponent]
    cases b.negative <;> decide +kernel
  · obtain ⟨negative, m, e⟩ := b
    have hneg : -x = .ofModel (.pack (.finite (signOf !negative) m e hm)) := by
      have hunpack := unpack_of_ofFloat? h hm
      have hsign : -signOf negative = signOf !negative := by cases negative <;> rfl
      change Float.ofModel (.pack x.toModel.unpack.neg) = _
      rw [hunpack, UnpackedFloat.neg, hsign]
    rw [hneg]
    exact ofFloat?_pack (!negative) hm hcanonical hgreatest

end DesignTokens.Decimal
