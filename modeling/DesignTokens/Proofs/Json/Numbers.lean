import DesignTokens.Json.Reader
import DesignTokens.Json.Writer
import DesignTokens.Proofs.Decimal.Written

/-!
Numbers in JSON text. A numeral is taken whole when a comma or a line break follows it, and an
integer and a finite float are read from their texts.
-/
namespace DesignTokens.Json

open Decimal
open Text (isAsciiDigit)

/-- What may follow a value: the next one, the end of its line, or nothing. -/
def Ends (rest : List Char) : Prop := ∀ c ∈ rest.head?, c = ',' ∨ c = '\n'

theorem ends_comma (rest : List Char) : Ends (',' :: rest) := by
  rintro c ⟨⟩
  exact .inl rfl

theorem ends_newline (rest : List Char) : Ends ('\n' :: rest) := by
  rintro c ⟨⟩
  exact .inr rfl

variable {n : Numeral} {rest : List Char}

theorem Ends.stops (h : Ends rest) : Stops rest := by
  intro c hc
  rcases h c hc with rfl | rfl <;> rfl

/-- What follows a part of a numeral stops its digits. -/
theorem stops_append {cs : List Char} (h : Stops cs) (hrest : Stops rest) : Stops (cs ++ rest) := by
  cases cs with
  | nil => exact hrest
  | cons c cs => exact h

theorem takeWhole_numeral (h : n.WellFormed) (rest : List Char) (hrest : Stops rest) :
    takeWhole (n.whole ++ rest) = n.whole := by
  rcases h.leading with hzero | hhead
  · rw [hzero]
    rfl
  · rw [takeWhole.eq_2, takeWhile_digits h.whole hrest]
    intro tail htail
    refine hhead ?_
    rw [← List.head?_append_of_ne_nil n.whole h.ne_nil, htail]
    rfl

theorem takeFraction_numeral (h : n.WellFormed) (hrest : Ends rest) :
    takeFraction (n.fractionChars ++ (n.exponentChars ++ rest)) = n.fractionChars := by
  rw [Numeral.fractionChars]
  split
  · rw [Numeral.exponentChars]
    split
    · refine takeFraction.eq_2 _ fun tail htail => ?_
      subst htail
      rcases hrest '.' rfl with hpoint | hpoint <;> cases hpoint
    · rfl
  · rename_i hfraction
    have hstops := stops_append n.stops_exponentChars hrest.stops
    rw [List.cons_append, takeFraction]
    simp [takeWhile_digits h.fraction hstops, hfraction]

theorem takeExponent_numeral (hrest : Ends rest) :
    takeExponent (n.exponentChars ++ rest) = n.exponentChars := by
  rw [Numeral.exponentChars]
  split
  · cases rest with
    | nil => rfl
    | cons c rest => rcases hrest c rfl with rfl | rfl <;> rfl
  · rename_i e _
    obtain ⟨ds, hds, hdigits, hne, -⟩ := exponentText_eq e
    have htake := takeWhile_digits hdigits hrest.stops
    have hempty : ds.isEmpty = false := List.isEmpty_eq_false_iff.mpr hne
    rw [hds]
    split <;> simp [takeExponent, htake, hempty]

/-- The number that a text denotes, as an integer or as a float. -/
def numberOf? (integer : Bool) (s : String) : Option Number :=
  if integer then (readInt? s).map .int else (readFloat? s).map .float

theorem numberOf?_eq_some {integer : Bool} {s : String} {v : Number}
    (h : numberOf? integer s = some v) :
    (integer = true ∧ ∃ k, readInt? s = some k ∧ v = .int k) ∨
      (integer = false ∧ ∃ x, readFloat? s = some x ∧ v = .float x) := by
  rw [numberOf?] at h
  cases integer
  · obtain ⟨x, hx, rfl⟩ := Option.map_eq_some_iff.mp h
    exact .inr ⟨rfl, x, hx, rfl⟩
  · obtain ⟨k, hk, rfl⟩ := Option.map_eq_some_iff.mp h
    exact .inl ⟨rfl, k, hk, rfl⟩

/-- A numeral is read as an integer if it has neither a point nor an exponent. -/
theorem readNumber_numeral (o : Nat) (h : n.WellFormed) (negative : Bool) (hrest : Ends rest)
    {lexeme : List Char} (hlexeme : lexeme = if negative then '-' :: n.chars else n.chars)
    {v : Number} (hv : numberOf? (n.fractionChars.isEmpty && n.exponentChars.isEmpty)
      (String.ofList lexeme) = some v) :
    readNumber ⟨o, lexeme ++ rest⟩ = .ok (.num v, ⟨o + lexeme.length, rest⟩) := by
  have hbody : n.chars ++ rest = n.whole ++ (n.fractionChars ++ (n.exponentChars ++ rest)) := by
    simp [Numeral.chars]
  have hwhole := takeWhole_numeral h (n.fractionChars ++ (n.exponentChars ++ rest)) (by
    rw [← List.append_assoc]
    exact stops_append Numeral.stops_rest hrest.stops)
  have hempty : n.whole.isEmpty = false := List.isEmpty_eq_false_iff.mpr h.ne_nil
  have hdrop : (lexeme ++ rest).drop lexeme.length = rest := List.drop_left
  have hparts : (if negative then ['-'] else []) ++ n.whole ++ n.fractionChars ++ n.exponentChars =
      lexeme := by
    cases negative <;> simp [hlexeme, Numeral.chars]
  have hminus : ∀ tail, lexeme ++ rest = '-' :: tail →
      negative = true ∧ tail = n.chars ++ rest := by
    intro tail htail
    cases negative
    · obtain ⟨c, cs, hchars, hc, -⟩ := h.exists_cons
      rw [hlexeme, if_neg (by decide), hchars] at htail
      obtain ⟨rfl, -⟩ := List.cons.inj htail
      exact absurd hc (by decide)
    · rw [hlexeme, if_pos rfl] at htail
      exact ⟨rfl, (List.cons.inj htail).2.symm⟩
  rw [readNumber.eq_def]
  dsimp only
  -- The sign is taken off, and the parts of the rest join up with it again.
  split
  · rename_i tail htail
    obtain ⟨rfl, rfl⟩ := hminus tail htail
    rw [if_pos rfl] at hparts
    rw [hbody]
    simp only [hwhole, hempty, List.drop_left, takeFraction_numeral h hrest,
      takeExponent_numeral hrest, hparts, hdrop, Bool.false_eq_true, if_false]
    rcases numberOf?_eq_some hv with ⟨hinteger, k, hk, rfl⟩ | ⟨hinteger, x, hx, rfl⟩
    · simp only [hinteger, hk, if_true]
    · simp only [hinteger, hx, Bool.false_eq_true, if_false]
  · rename_i hplain
    cases negative
    · rw [if_neg (by decide)] at hparts hlexeme
      have hsame : lexeme ++ rest = n.whole ++ (n.fractionChars ++ (n.exponentChars ++ rest)) := by
        rw [hlexeme, hbody]
      rw [hsame] at hdrop ⊢
      simp only [hwhole, hempty, List.drop_left, takeFraction_numeral h hrest,
        takeExponent_numeral hrest, hparts, hdrop, Bool.false_eq_true, if_false]
      rcases numberOf?_eq_some hv with ⟨hinteger, k, hk, rfl⟩ | ⟨hinteger, x, hx, rfl⟩
      · simp only [hinteger, hk, if_true]
      · simp only [hinteger, hx, Bool.false_eq_true, if_false]
    · exact absurd (by rw [hlexeme]; rfl) (hplain (n.chars ++ rest))

/-! ### Texts of numbers -/

/-- A number that keeps its value in a text: no infinity and no NaN, and no integer that is too long
to be read. -/
inductive Plain : Number → Prop where
  | int {k : Int} (h : k.natAbs < 10 ^ integerDigitLimit) : Plain (.int k)
  | float {x : Float} (h : isFinite x) : Plain (.float x)

/-- The text of a number is a numeral with its sign. -/
theorem exists_numeral_numberText {v : Number} (h : Plain v) : ∃ (n : Numeral) (negative : Bool),
    n.WellFormed ∧
    (numberText v).toList = (if negative then '-' :: n.chars else n.chars) ∧
    numberOf? (n.fractionChars.isEmpty && n.exponentChars.isEmpty) (numberText v) = some v := by
  cases h with
  | @int k hk =>
    have hdigits := digits_toDigits k.natAbs
    have hleading : Nat.toDigits 10 k.natAbs = ['0'] ∨
        (Nat.toDigits 10 k.natAbs).head? ≠ some '0' := by
      rcases Nat.eq_zero_or_pos k.natAbs with hzero | hpos
      · exact .inl (by rw [hzero]; rfl)
      · exact .inr (head?_toDigits hpos)
    refine ⟨⟨Nat.toDigits 10 k.natAbs, [], none⟩, decide (k < 0),
      ⟨⟨hdigits, by simp [Digits], Nat.toDigits_ne_nil⟩, hleading⟩, ?_, ?_⟩
    · change (toString k).toList = _
      rw [toString_int, String.toList_ofList]
      simp [Numeral.chars, Numeral.fractionChars, Numeral.exponentChars]
    · change (readInt? (toString k)).map Number.int = _
      rw [readInt?_toString hk]
      rfl
  | @float x hx =>
    obtain ⟨b, hb⟩ := Option.isSome_iff_exists.mp hx
    obtain ⟨n, hn⟩ := exists_shows hb
    have htext : numberText (.float x) = floatText x := by
      rw [numberText, isNaN_eq_false hb, if_neg (by decide), if_pos hx]
    have hinteger : (n.fractionChars.isEmpty && n.exponentChars.isEmpty) = false := by
      rcases hn.notInteger with hfraction | hexponent
      · simp [Numeral.fractionChars, hfraction]
      · obtain ⟨e, he⟩ := Option.isSome_iff_exists.mp hexponent
        simp [Numeral.exponentChars, he]
    refine ⟨n, b.negative, hn.wellFormed, ?_, ?_⟩
    · rw [htext, hn.text, String.toList_ofList]
    · rw [hinteger, htext, numberOf?, if_neg (by decide), hn.readFloat?]
      rfl

/-- Neither a digit nor a minus sign with a digit starts a fixed name. -/
theorem literal?_digit (o : Nat) {c : Char} (hc : isAsciiDigit c) (cs : List Char)
    (negative : Bool) : literal? ⟨o, if negative then '-' :: c :: cs else c :: cs⟩ = none := by
  have hne {d : Char} (hd : ¬isAsciiDigit d) : (d == c) = false := by
    rw [beq_eq_false_iff_ne]
    rintro rfl
    exact hd hc
  have hletters := And.intro (hne (d := 'n') (by decide)) (And.intro (hne (d := 't') (by decide))
    (And.intro (hne (d := 'f') (by decide)) (And.intro (hne (d := 'N') (by decide))
      (And.intro (hne (d := 'I') (by decide)) (hne (d := '-') (by decide))))))
  refine List.findSome?_eq_none_iff.mpr fun p hp => if_neg ?_
  simp only [literals, List.mem_cons, List.not_mem_nil, or_false] at hp
  cases negative <;> rcases hp with rfl | rfl | rfl | rfl | rfl | rfl
  all_goals simp [List.isPrefixOf, hletters]

theorem readValue_eq_readNumber (fuel o : Nat) {c : Char} {cs : List Char} (hstring : c ≠ '"')
    (hobject : c ≠ '\x7b') (hlist : c ≠ '[') (hliteral : literal? ⟨o, c :: cs⟩ = none) :
    readValue (fuel + 1) ⟨o, c :: cs⟩ = readNumber ⟨o, c :: cs⟩ := by
  rw [readValue]
  split
  all_goals simp_all

/-- A number is read from its text. -/
theorem readValue_number (fuel o : Nat) {v : Number} (h : Plain v) (hrest : Ends rest) :
    ∃ o', readValue (fuel + 1) ⟨o, (numberText v).toList ++ rest⟩ =
      .ok (.num v, ⟨o', rest⟩) := by
  obtain ⟨n, negative, hn, htext, hv⟩ := exists_numeral_numberText h
  obtain ⟨c, cs, hchars, hc, -⟩ := hn.exists_cons
  have hread := readNumber_numeral o hn negative hrest htext (v := v) (by
    rwa [String.ofList_toList])
  have hliteral := literal?_digit o hc (cs ++ rest) negative
  have hstart : (numberText v).toList ++ rest =
      if negative then '-' :: c :: (cs ++ rest) else c :: (cs ++ rest) := by
    rw [htext, hchars]
    cases negative <;> rfl
  have hdigit := isAsciiDigit_iff.mp hc
  rw [hstart] at hread ⊢
  refine ⟨_, Eq.trans ?_ hread⟩
  cases negative
  · rw [if_neg (by decide)] at hliteral ⊢
    refine readValue_eq_readNumber _ _ ?_ ?_ ?_ hliteral
    all_goals
      rintro rfl
      simp at hdigit
  · rw [if_pos rfl] at hliteral ⊢
    exact readValue_eq_readNumber _ _ (by decide) (by decide) (by decide) hliteral

end DesignTokens.Json
