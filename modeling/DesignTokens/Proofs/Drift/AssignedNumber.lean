import DesignTokens.Drift.Sync
import DesignTokens.Proofs.Decimal.Grouped
import DesignTokens.Proofs.Drift.Assigned

/-!
Numbers that a source text assigns to a name. A plain decimal is compared as its value. Of a literal
with groups of digits or an exponent only the decimal that it starts with is, and a literal that
starts with a plus is none.
-/
namespace DesignTokens

open Text Decimal Drift

namespace Decimal.WrittenNumber

variable (n : WrittenNumber)

/-- A decimal without a plus, without groups of digits and without an exponent. -/
structure IsPlain : Prop where
  sign : n.sign ≠ .plus
  whole : n.whole.more = []
  fraction : ∀ g ∈ n.fraction, g.more = []
  exponent : n.exponent = none

/-! ### What is read -/

/-- The digits after the point that are read: the first group, if the point follows the first group
of the whole part. -/
def leadingFraction : List Char :=
  if n.whole.more = [] then n.fraction.elim [] Grouped.first else []

theorem digits_leadingFraction : Digits n.leadingFraction := by
  rw [leadingFraction]
  split
  · cases n.fraction with
    | none => exact List.forall_mem_nil _
    | some g => exact g.digits_first
  · exact List.forall_mem_nil _

/-- The decimal that a number starts with. -/
def leading : Literal where
  negative := n.sign = .minus
  whole := n.whole.first
  fraction := n.leadingFraction
  readable := ⟨n.whole.digits_first, n.digits_leadingFraction, n.whole.first_ne_nil⟩

/-- What follows the decimal that a number starts with. -/
def unread : List Char :=
  if n.whole.more = [] then n.fraction.elim [] Grouped.tail ++ n.exponentChars
  else n.whole.tail ++ (n.fractionChars ++ n.exponentChars)

variable {n}

theorem sign_leading (h : n.sign ≠ .plus) : n.leading.sign = n.sign.chars := by
  rw [Literal.sign, leading]
  cases hsign : n.sign with
  | bare => rfl
  | minus => rfl
  | plus => exact absurd hsign h

theorem fractionChars_leading : n.leading.numeral.fractionChars =
    if n.whole.more = [] then n.fraction.elim [] fun g => '.' :: g.first else [] := by
  change (if n.leadingFraction.isEmpty then [] else '.' :: n.leadingFraction) = _
  rw [leadingFraction]
  split
  · cases n.fraction with
    | none => rfl
    | some g => exact if_neg (by simpa using g.first_ne_nil)
  · rfl

theorem chars_eq (h : n.sign ≠ .plus) : n.chars = n.leading.chars ++ n.unread := by
  have hparts : n.whole.tail ++ (n.fractionChars ++ n.exponentChars) =
      n.leading.numeral.fractionChars ++ n.unread := by
    rw [fractionChars_leading, unread]
    split
    · rename_i hmore
      have htail : n.whole.tail = [] := by rw [Grouped.tail, hmore]; rfl
      rw [htail, fractionChars]
      cases n.fraction with
      | none => rfl
      | some g => simp [Grouped.chars]
    · rfl
  rw [chars, Grouped.chars, List.append_assoc, hparts, Literal.chars, sign_leading h]
  simp [leading]

/-- What is not read does not continue a decimal. -/
theorem endsDecimal_unread {after : List Char} (hafter : ∀ c ∈ after.head?, EndsDecimal c) :
    ∀ c ∈ (n.unread ++ after).head?, EndsDecimal c := by
  have htail : ∀ g : Grouped, ∀ c ∈ g.tail.head?, EndsDecimal c := by
    intro g
    rcases g.tail_cases with ⟨-, hnil⟩ | ⟨cs, hcons⟩
    · simp [hnil]
    · rw [hcons]
      exact forall_head?_cons (by decide)
  have hexponent : ∀ c ∈ n.exponentChars.head?, EndsDecimal c := by
    rw [exponentChars]
    cases n.exponent with
    | none => simp
    | some e =>
      refine forall_head?_cons ?_
      rcases e.mark_eq with hmark | hmark <;> rw [hmark] <;> decide
  refine forall_head?_append ?_ hafter
  rw [unread]
  split
  · refine forall_head?_append ?_ hexponent
    cases n.fraction with
    | none => simp
    | some g => exact htail g
  · rename_i hmore
    obtain ⟨hnil, -⟩ | ⟨cs, hcons⟩ := n.whole.tail_cases
    · exact absurd hnil hmore
    · rw [hcons]
      exact forall_head?_cons (by decide)

/-- A plain decimal is read as its value. -/
theorem IsPlain.value_leading (h : n.IsPlain) : n.leading.value = n.value := by
  have hwhole : n.whole.digits = n.whole.first := by
    rw [Grouped.digits, h.whole, List.flatten_nil, List.append_nil]
  have hfraction : n.leadingFraction = n.fractionDigits := by
    rw [leadingFraction, if_pos h.whole, fractionDigits]
    cases hsome : n.fraction with
    | none => rfl
    | some g =>
      change g.first = g.digits
      rw [Grouped.digits, h.fraction g hsome, List.flatten_nil, List.append_nil]
  rw [value, hwhole, ← hfraction, h.exponent]
  simp [Literal.value, Literal.numeral, leading, Numeral.coefficient, Numeral.scale]

theorem chars_ne_nil (n : WrittenNumber) : n.chars ≠ [] :=
  List.append_ne_nil_of_right_ne_nil _ (List.append_ne_nil_of_left_ne_nil
    (List.append_ne_nil_of_left_ne_nil n.whole.first_ne_nil _) _)

/-- A number with a plus is not read. -/
theorem ofChars?_plus (h : n.sign = .plus) (after : List Char) :
    NumberLiteral.ofChars? (n.chars ++ after) = none := by
  rw [chars, h]
  rfl

/-- Any other number is read as the decimal that it starts with. -/
theorem ofChars?_leading (h : n.sign ≠ .plus) {after : List Char}
    (hafter : ∀ c ∈ after.head?, EndsDecimal c) :
    ∃ l, NumberLiteral.ofChars? (n.chars ++ after) = some l ∧ l.value = n.leading.value := by
  have hread := n.leading.ofChars?_append (endsDecimal_unread (n := n) hafter)
  rw [← List.append_assoc, ← chars_eq h] at hread
  refine ⟨_, hread, ?_⟩
  rw [NumberLiteral.value, List.append_assoc]
  exact n.leading.read_chars

/-- A number starts with no blank. -/
theorem isBlank_head (n : WrittenNumber) (after : List Char) :
    ∀ c ∈ (n.chars ++ after).head?, isBlank c = false := by
  intro c hc
  rw [List.head?_append_of_ne_nil _ n.chars_ne_nil] at hc
  by_cases hplus : n.sign = .plus
  · rw [chars, hplus] at hc
    obtain rfl : '+' = c := by simpa [WrittenSign.chars] using hc
    decide
  · rw [chars_eq hplus, List.head?_append_of_ne_nil _ n.leading.chars_ne_nil] at hc
    exact isBlank_of_isKeyChar (n.leading.isKeyChar_of_mem (List.mem_of_mem_head? hc))

end Decimal.WrittenNumber

namespace Drift

/-! ### Assignments -/

/-- A source text that assigns a number to a name: the name starts a line and does not occur before,
and a blank, a comma or a semicolon follows the number unless the text ends there. -/
structure NumberSource (name : String) where
  before : List Char := []
  gap : List Char := [' ']
  gap' : List Char := [' ']
  number : WrittenNumber
  after : List Char := []
  precedes : Precedes name before
  gap_blank : ∀ c ∈ gap, isBlank c
  gap'_blank : ∀ c ∈ gap', isBlank c
  ends : ∀ c ∈ after.head?, isSeparator c ∨ c = ';'

namespace NumberSource

variable {name : String} (s : NumberSource name)

def text : String :=
  String.ofList (s.before ++
    (name.toList ++ (s.gap ++ '=' :: (s.gap' ++ (s.number.chars ++ s.after)))))

/-- The line of the name. -/
def line : Nat := s.before.count '\n' + 1

theorem exists_findAssignment : ∃ start stop, findAssignment s.text name = some (start, stop) ∧
    lineOf s.text start.offset = s.line ∧ stop.rest = s.number.chars ++ s.after := by
  obtain ⟨start, stop, hfind, hoffset, hrest⟩ := s.precedes.exists_findAssignment s.gap_blank
    s.gap'_blank (s.number.isBlank_head s.after)
  refine ⟨start, stop, hfind, ?_, hrest⟩
  rw [lineOf, text, String.toList_ofList, hoffset, List.take_left, line]

theorem endsDecimal_after : ∀ c ∈ s.after.head?, EndsDecimal c := by
  intro c hc
  rcases s.ends c hc with hseparator | rfl
  · exact endsDecimal_of_isSeparator hseparator
  · decide

theorem assignedNumber?_plus (h : s.number.sign = .plus) : assignedNumber? s.text name = none := by
  obtain ⟨start, stop, hfind, -, hrest⟩ := s.exists_findAssignment
  rw [assignedNumber?, hfind]
  simp only [Option.bind_eq_bind, Option.bind_some, hrest, WrittenNumber.ofChars?_plus h,
    Option.bind_none]

theorem assignedNumber?_leading (h : s.number.sign ≠ .plus) :
    assignedNumber? s.text name = some (s.number.leading.value, s.line) := by
  obtain ⟨start, stop, hfind, hline, hrest⟩ := s.exists_findAssignment
  obtain ⟨l, hread, hvalue⟩ := WrittenNumber.ofChars?_leading h s.endsDecimal_after
  rw [assignedNumber?, hfind]
  simp only [Option.bind_eq_bind, Option.bind_some, hrest, hread, hvalue, hline]
  rfl

/-- What is found where another number is expected. -/
def mismatch (path : String) (actual expected : Float) : Finding where
  line := some s.line
  message := name ++ " = " ++ generalText actual ++ " but the theme snapshot " ++ path ++ " is " ++
    generalText expected

theorem compare_leading (path : String) (expected : Float) (h : s.number.sign ≠ .plus) :
    (Expectation.value name path expected).compare s.text =
      .ok (if close s.number.leading.value expected then []
        else [s.mismatch path s.number.leading.value expected]) := by
  rw [Expectation.compare, Expectation.compareValue, s.assignedNumber?_leading h]
  rfl

/-- A plain decimal leaves no finding if its value is close to the expected one, and else one finding
on its line. Of any other number only the decimal that it starts with counts, and a number with a
plus is taken for none. -/
theorem compare_assigned_number (path : String) (expected : Float) :
    (s.number.IsPlain → (Expectation.value name path expected).compare s.text =
      .ok (if close s.number.value expected then []
        else [s.mismatch path s.number.value expected])) ∧
    (s.number.sign ≠ .plus → (Expectation.value name path expected).compare s.text =
      .ok (if close s.number.leading.value expected then []
        else [s.mismatch path s.number.leading.value expected])) ∧
    (s.number.sign = .plus → (Expectation.value name path expected).compare s.text =
      .ok [⟨none, name ++ " is not assigned a numeric literal"⟩]) := by
  refine ⟨fun hplain => ?_, s.compare_leading path expected, fun hplus => ?_⟩
  · rw [← hplain.value_leading]
    exact s.compare_leading path expected hplain.sign
  · rw [Expectation.compare, Expectation.compareValue, s.assignedNumber?_plus hplus]

end NumberSource

/-- A decimal after a minus, with a comment after it. -/
def shiftedUnit : NumberSource "BASE_UNIT" where
  before := "unit = 8\n".toList
  number :=
    { sign := .minus
      whole := ⟨['4'], [], by decide +kernel⟩
      fraction := some ⟨['2', '5'], [], by decide +kernel⟩ }
  after := "  # px\n".toList
  precedes := .lines (by simp) (by decide) (by decide +kernel)
  gap_blank := isBlank_of_mem_space
  gap'_blank := isBlank_of_mem_space
  ends := by simp [isSeparator, isBlank]

/-- A number of two groups of digits. -/
def groupedUnit : NumberSource "BASE_UNIT" where
  number := { whole := ⟨['4'], [['0', '0', '0']], by decide +kernel⟩ }
  after := ['\n']
  precedes := .start
  gap_blank := isBlank_of_mem_space
  gap'_blank := isBlank_of_mem_space
  ends := by simp [isSeparator, isBlank]

/-- A number after a plus. -/
def raisedUnit : NumberSource "BASE_UNIT" where
  number := { sign := .plus, whole := ⟨['4'], [], by decide +kernel⟩ }
  after := ['\n']
  precedes := .start
  gap_blank := isBlank_of_mem_space
  gap'_blank := isBlank_of_mem_space
  ends := by simp [isSeparator, isBlank]

theorem compare_assigned_number_units :
    (Expectation.value "BASE_UNIT" "spacing.baseUnitPx" (-4.25)).compare shiftedUnit.text =
      .ok [] ∧
    (Expectation.value "BASE_UNIT" "spacing.baseUnitPx" 4000).compare groupedUnit.text =
      .ok [groupedUnit.mismatch "spacing.baseUnitPx" 4 4000] ∧
    (Expectation.value "BASE_UNIT" "spacing.baseUnitPx" 4).compare raisedUnit.text =
      .ok [⟨none, "BASE_UNIT is not assigned a numeric literal"⟩] := by
  have hplain : shiftedUnit.number.IsPlain := ⟨by decide, rfl, by decide, rfl⟩
  have hshifted := (shiftedUnit.compare_assigned_number "spacing.baseUnitPx" (-4.25)).1 hplain
  have hgrouped := (groupedUnit.compare_assigned_number "spacing.baseUnitPx" 4000).2.1 (by decide)
  have hraised := (raisedUnit.compare_assigned_number "spacing.baseUnitPx" 4).2.2 rfl
  have hclose : close shiftedUnit.number.value (-4.25) = true := by decide +kernel
  have hread : groupedUnit.number.leading.value = 4 := by decide +kernel
  have hapart : close 4 4000 = false := by decide +kernel
  rw [hclose, if_pos rfl] at hshifted
  rw [hread, hapart, if_neg Bool.false_ne_true] at hgrouped
  exact ⟨hshifted, hgrouped, hraised⟩

/-- Four thousand passes where four is expected, and four with a plus does not. -/
theorem four_misread :
    (Expectation.value "BASE_UNIT" "spacing.baseUnitPx" 4).compare "BASE_UNIT = 4_000\n" = .ok [] ∧
    groupedUnit.text = "BASE_UNIT = 4_000\n" ∧ close groupedUnit.number.value 4 = false ∧
    (Expectation.value "BASE_UNIT" "spacing.baseUnitPx" 4).compare "BASE_UNIT = +4\n" =
      .ok [⟨none, "BASE_UNIT is not assigned a numeric literal"⟩] ∧
    raisedUnit.text = "BASE_UNIT = +4\n" ∧ close raisedUnit.number.value 4 = true := by
  have hgrouped : Expectation.compareValue "BASE_UNIT" "spacing.baseUnitPx" 4
      "BASE_UNIT = 4_000\n" = [] := by decide +kernel
  have hraised : Expectation.compareValue "BASE_UNIT" "spacing.baseUnitPx" 4
      "BASE_UNIT = +4\n" = [⟨none, "BASE_UNIT is not assigned a numeric literal"⟩] := by
    decide +kernel
  exact ⟨congrArg Except.ok hgrouped, by decide +kernel, by decide +kernel,
    congrArg Except.ok hraised, by decide +kernel, by decide +kernel⟩

end Drift

end DesignTokens
