import DesignTokens.Text.Encoding
import Mathlib.Tactic.Common

/-!
The encoding of texts as bytes, and that every text is read back from its bytes.
-/
namespace DesignTokens.Text

/-! ### The bytes of a text -/

theorem loop_toList (bytes : ByteArray) (i : Nat) (before : Bytes) :
    ByteArray.toList.loop bytes i before = before.reverse ++ bytes.data.toList.drop i := by
  fun_induction ByteArray.toList.loop bytes i before with
  | case1 i before h ih =>
    have hi : i < bytes.data.toList.length := by simpa using h
    have hget : bytes.get! i = bytes.data.toList[i] := by
      simp [ByteArray.get!, getElem!_pos bytes.data i (by simpa using hi)]
    rw [ih, hget, List.reverse_cons, List.append_assoc, List.singleton_append,
      List.getElem_cons_drop]
  | case2 i before h =>
    have hi : bytes.data.toList.length ≤ i := by simpa using h
    rw [List.drop_eq_nil_of_le hi, List.append_nil]

theorem encodeUtf8_eq (s : String) : encodeUtf8 s = s.toList.flatMap String.utf8EncodeChar := by
  have hbytes : s.toUTF8 = s.toList.utf8Encode := by
    rw [String.toUTF8_eq_toByteArray, String.utf8Encode_toList]
  rw [encodeUtf8, hbytes, ByteArray.toList, loop_toList, List.utf8Encode,
    List.toList_data_toByteArray]
  rfl

/-! ### The character of some bytes -/

theorem sequenceLength?_eq (lead : UInt8) : sequenceLength? lead =
    if lead.toNat < 128 then some 1 else if lead.toNat < 194 then none
    else if lead.toNat < 224 then some 2 else if lead.toNat < 240 then some 3
    else if lead.toNat < 245 then some 4 else none := by
  simp [sequenceLength?, UInt8.lt_iff_toNat_lt]

theorem continues_iff {b : UInt8} : continues b ↔ 128 ≤ b.toNat ∧ b.toNat < 192 := by
  simp [continues, UInt8.lt_iff_toNat_lt, UInt8.le_iff_toNat_le]

theorem secondFits_iff {lead second : UInt8} : secondFits lead second ↔
    (128 ≤ second.toNat ∧ second.toNat < 192) ∧ (lead.toNat = 224 → 160 ≤ second.toNat) ∧
      (lead.toNat = 237 → second.toNat < 160) ∧ (lead.toNat = 240 → 144 ≤ second.toNat) ∧
      (lead.toNat = 244 → second.toNat < 144) := by
  rw [← continues_iff]
  simp [secondFits, UInt8.lt_iff_toNat_lt, UInt8.le_iff_toNat_le, ← UInt8.toNat_inj]
  tauto

section

variable {lead second third fourth : UInt8} (offset : Nat) (more : Bytes)

theorem firstChar_one (h : lead.toNat < 128) :
    firstChar offset lead more = .ok (Char.ofNat lead.toNat, 1) := by
  have hlength : sequenceLength? lead = some 1 := by rw [sequenceLength?_eq, if_pos h]
  rw [firstChar, hlength]
  cases more <;> rfl

theorem firstChar_two (h : 194 ≤ lead.toNat ∧ lead.toNat < 224) (hsecond : secondFits lead second) :
    firstChar offset lead (second :: more) =
      .ok (Char.ofNat (lead.toNat % 32 * 64 + second.toNat % 64), 2) := by
  have hlength : sequenceLength? lead = some 2 := by
    rw [sequenceLength?_eq, if_neg (by omega), if_neg (by omega), if_pos h.2]
  simp [firstChar, hlength, fitting, hsecond, joinBits]

theorem firstChar_three (h : 224 ≤ lead.toNat ∧ lead.toNat < 240)
    (hsecond : secondFits lead second) (hthird : continues third) :
    firstChar offset lead (second :: third :: more) =
      .ok (Char.ofNat ((lead.toNat % 16 * 64 + second.toNat % 64) * 64 + third.toNat % 64), 3) := by
  have hlength : sequenceLength? lead = some 3 := by
    rw [sequenceLength?_eq, if_neg (by omega), if_neg (by omega), if_neg (by omega), if_pos h.2]
  simp [firstChar, hlength, fitting, hsecond, hthird, joinBits]

theorem firstChar_four (h : 240 ≤ lead.toNat ∧ lead.toNat < 245)
    (hsecond : secondFits lead second) (hthird : continues third) (hfourth : continues fourth) :
    firstChar offset lead (second :: third :: fourth :: more) =
      .ok (Char.ofNat (((lead.toNat % 8 * 64 + second.toNat % 64) * 64 + third.toNat % 64) * 64 +
        fourth.toNat % 64), 4) := by
  have hlength : sequenceLength? lead = some 4 := by
    rw [sequenceLength?_eq, if_neg (by omega), if_neg (by omega), if_neg (by omega),
      if_neg (by omega), if_pos h.2]
  simp [firstChar, hlength, fitting, hsecond, hthird, hfourth, joinBits]

end

/-- A character is the first one of its bytes, whatever follows them. -/
theorem firstChar_utf8EncodeChar (offset : Nat) (c : Char) (more : Bytes) :
    ∃ lead rest, String.utf8EncodeChar c = lead :: rest ∧
      firstChar offset lead (rest ++ more) = .ok (c, rest.length + 1) := by
  have hvalid : c.toNat < 0xD800 ∨ (0xDFFF < c.toNat ∧ c.toNat < 0x110000) := c.valid
  have hbyte : ∀ n, n < 256 → (UInt8.ofNat n).toNat = n := fun n h => UInt8.toNat_ofNat_of_lt' h
  have htail : ∀ n, (UInt8.ofNat (n % 64 + 128)).toNat = n % 64 + 128 :=
    fun n => hbyte _ (by omega)
  have hchar : ∀ n, n = c.toNat → Char.ofNat n = c := by
    rintro n rfl
    exact Char.ofNat_toNat c
  simp only [String.utf8EncodeChar, show c.val.toNat = c.toNat from rfl]
  split
  · have hlead := hbyte c.toNat (by omega)
    refine ⟨_, [], rfl, (firstChar_one offset more ?_).trans ?_⟩
    · omega
    · rw [hlead, hchar _ rfl]
      rfl
  split
  · have hlead := hbyte (c.toNat / 64 % 32 + 192) (by omega)
    refine ⟨_, [_], rfl, (firstChar_two offset more ?_ ?_).trans ?_⟩
    · omega
    · rw [secondFits_iff, hlead, htail]
      omega
    · rw [hlead, htail, hchar _ (by omega)]
      rfl
  split
  · have hlead := hbyte (c.toNat / 4096 % 16 + 224) (by omega)
    refine ⟨_, [_, _], rfl, (firstChar_three offset more ?_ ?_ ?_).trans ?_⟩
    · omega
    · rw [secondFits_iff, hlead, htail]
      omega
    · rw [continues_iff, htail]
      omega
    · rw [hlead, htail, htail, hchar _ (by omega)]
      rfl
  · have hlead := hbyte (c.toNat / 262144 % 8 + 240) (by omega)
    refine ⟨_, [_, _, _], rfl, (firstChar_four offset more ?_ ?_ ?_ ?_).trans ?_⟩
    · omega
    · rw [secondFits_iff, hlead, htail]
      omega
    · rw [continues_iff, htail]
      omega
    · rw [continues_iff, htail]
      omega
    · rw [hlead, htail, htail, htail, hchar _ (by omega)]
      rfl

theorem decodeUtf8From_flatMap (offset : Nat) (cs : List Char) :
    decodeUtf8From offset (cs.flatMap String.utf8EncodeChar) = .ok cs := by
  induction cs generalizing offset with
  | nil =>
    rw [List.flatMap_nil, decodeUtf8From]
  | cons c cs ih =>
    obtain ⟨lead, rest, hc, hfirst⟩ := firstChar_utf8EncodeChar offset c
      (cs.flatMap String.utf8EncodeChar)
    rw [List.flatMap_cons, hc, List.cons_append, decodeUtf8From, hfirst]
    change (decodeUtf8From (offset + (rest.length + 1))
      ((rest ++ cs.flatMap String.utf8EncodeChar).drop rest.length) >>= fun cs => .ok (c :: cs)) = _
    rw [List.drop_left, ih]
    rfl

/-- A text is read back from its bytes. -/
theorem decodeUtf8_encodeUtf8 (s : String) : decodeUtf8 (encodeUtf8 s) = .ok s := by
  rw [decodeUtf8, encodeUtf8_eq, decodeUtf8From_flatMap]
  exact congrArg Except.ok (String.ofList_toList (s := s))

end DesignTokens.Text
