import DesignTokens.Proofs.Decimal.Numeral

/-!
Numbers as source texts write them: a sign, digits in groups, a fraction and an exponent. Read as a
whole, such a number is the float nearest to what it denotes.
-/
namespace DesignTokens.Decimal

open Text (isAsciiDigit)

/-- Digits in groups, with single underscores between them. -/
structure Grouped where
  first : List Char
  more : List (List Char) := []
  group : ∀ ds ∈ first :: more, ds ≠ [] ∧ Digits ds

namespace Grouped

def digits (g : Grouped) : List Char := g.first ++ g.more.flatten

/-- What follows the first group. -/
def tail (g : Grouped) : List Char := g.more.flatMap ('_' :: ·)

def chars (g : Grouped) : List Char := g.first ++ g.tail

theorem first_ne_nil (g : Grouped) : g.first ≠ [] := (g.group _ List.mem_cons_self).1

theorem digits_first (g : Grouped) : Digits g.first := (g.group _ List.mem_cons_self).2

theorem digits_ne_nil (g : Grouped) : g.digits ≠ [] :=
  List.append_ne_nil_of_left_ne_nil g.first_ne_nil _

theorem digits_digits (g : Grouped) : Digits g.digits := by
  refine digits_append g.digits_first fun c hc => ?_
  obtain ⟨ds, hds, hc⟩ := List.mem_flatten.mp hc
  exact (g.group ds (List.mem_cons_of_mem _ hds)).2 c hc

/-- A first group is all there is, or an underscore follows. -/
theorem tail_cases (g : Grouped) : g.more = [] ∧ g.tail = [] ∨ ∃ cs, g.tail = '_' :: cs := by
  rw [tail]
  cases g.more with
  | nil => exact .inl ⟨rfl, rfl⟩
  | cons ds more => exact .inr ⟨ds ++ more.flatMap ('_' :: ·), rfl⟩

end Grouped

inductive WrittenSign where
  | bare | minus | plus
  deriving DecidableEq

def WrittenSign.chars : WrittenSign → List Char
  | .bare => []
  | .minus => ['-']
  | .plus => ['+']

structure WrittenExponent where
  mark : Char := 'e'
  sign : WrittenSign := .bare
  figures : Grouped
  mark_eq : mark = 'e' ∨ mark = 'E'

namespace WrittenExponent

def chars (e : WrittenExponent) : List Char := e.mark :: (e.sign.chars ++ e.figures.chars)

def value (e : WrittenExponent) : Int :=
  let n : Int := digitsFrom 10 0 e.figures.digits
  if e.sign = .minus then -n else n

end WrittenExponent

/-- A number as source texts write it. -/
structure WrittenNumber where
  sign : WrittenSign := .bare
  whole : Grouped
  fraction : Option Grouped := none
  exponent : Option WrittenExponent := none

namespace WrittenNumber

variable (n : WrittenNumber)

def fractionDigits : List Char := n.fraction.elim [] Grouped.digits

def fractionChars : List Char := n.fraction.elim [] fun g => '.' :: g.chars

def exponentChars : List Char := n.exponent.elim [] WrittenExponent.chars

def chars : List Char := n.sign.chars ++ (n.whole.chars ++ (n.fractionChars ++ n.exponentChars))

/-- The float nearest to the number. -/
def value : Float :=
  let x := ofDecimal (digitsFrom 10 0 (n.whole.digits ++ n.fractionDigits))
    (n.exponent.elim 0 WrittenExponent.value - n.fractionDigits.length)
  if n.sign = .minus then -x else x

end WrittenNumber

/-! ### Underscores -/

section

variable {afterDigit : Bool} {rest : List Char}

theorem dropUnderscores_cons {c : Char} (hc : c ≠ '_') (rest : List Char) :
    dropUnderscores isAsciiDigit afterDigit (c :: rest) =
      (dropUnderscores isAsciiDigit (isAsciiDigit c) rest).map (c :: ·) := by
  rw [dropUnderscores.eq_3 _ _ _ _ (by simp_all), if_neg (by simpa using hc)]

theorem ne_underscore_of_isAsciiDigit {c : Char} (hc : isAsciiDigit c) : c ≠ '_' := by
  rintro rfl
  cases hc

theorem dropUnderscores_digits {ds : List Char} (h : Digits ds) (rest : List Char) :
    dropUnderscores isAsciiDigit true (ds ++ rest) =
      (dropUnderscores isAsciiDigit true rest).map (ds ++ ·) := by
  induction ds with
  | nil => simp
  | cons d ds ih =>
    obtain ⟨hd, hds⟩ := List.forall_mem_cons.mp h
    rw [List.cons_append, dropUnderscores_cons (ne_underscore_of_isAsciiDigit hd), hd, ih hds,
      Option.map_map]
    rfl

/-- A group of digits may stand anywhere. -/
theorem dropUnderscores_group {ds : List Char} (h : Digits ds) (hne : ds ≠ []) (rest : List Char) :
    dropUnderscores isAsciiDigit afterDigit (ds ++ rest) =
      (dropUnderscores isAsciiDigit true rest).map (ds ++ ·) := by
  obtain ⟨d, ds, rfl⟩ := List.exists_cons_of_ne_nil hne
  obtain ⟨hd, hds⟩ := List.forall_mem_cons.mp h
  rw [List.cons_append, dropUnderscores_cons (ne_underscore_of_isAsciiDigit hd), hd,
    dropUnderscores_digits hds, Option.map_map]
  rfl

/-- After a digit an underscore may stand before a group. -/
theorem dropUnderscores_underscore {ds : List Char} (h : Digits ds) (hne : ds ≠ [])
    (rest : List Char) : dropUnderscores isAsciiDigit true ('_' :: (ds ++ rest)) =
      (dropUnderscores isAsciiDigit true rest).map (ds ++ ·) := by
  obtain ⟨d, ds, rfl⟩ := List.exists_cons_of_ne_nil hne
  obtain ⟨hd, hds⟩ := List.forall_mem_cons.mp h
  rw [List.cons_append, dropUnderscores, hd, Bool.and_true, if_pos rfl, dropUnderscores_digits hds,
    Option.map_map]
  rfl

/-- Without its underscores a number in groups is its digits. -/
theorem Grouped.dropUnderscores_chars (g : Grouped) (rest : List Char) :
    dropUnderscores isAsciiDigit afterDigit (g.chars ++ rest) =
      (dropUnderscores isAsciiDigit true rest).map (g.digits ++ ·) := by
  have htail : ∀ more : List (List Char), (∀ ds ∈ more, ds ≠ [] ∧ Digits ds) →
      dropUnderscores isAsciiDigit true (more.flatMap ('_' :: ·) ++ rest) =
        (dropUnderscores isAsciiDigit true rest).map (more.flatten ++ ·) := by
    intro more hmore
    induction more with
    | nil => simp
    | cons ds more ih =>
      obtain ⟨⟨hne, hds⟩, hmore⟩ := List.forall_mem_cons.mp hmore
      rw [List.flatMap_cons, List.append_assoc, List.cons_append,
        dropUnderscores_underscore hds hne, ih hmore, Option.map_map]
      simp [Function.comp_def]
  have hmore : ∀ ds ∈ g.more, ds ≠ [] ∧ Digits ds := fun ds hds =>
    g.group ds (List.mem_cons_of_mem _ hds)
  rw [chars, List.append_assoc, dropUnderscores_group g.digits_first g.first_ne_nil, tail,
    htail g.more hmore, Option.map_map, digits]
  simp [Function.comp_def]

theorem WrittenSign.dropUnderscores_chars (s : WrittenSign) (rest : List Char) :
    dropUnderscores isAsciiDigit false (s.chars ++ rest) =
      (dropUnderscores isAsciiDigit false rest).map (s.chars ++ ·) := by
  cases s with
  | bare => simp [chars]
  | minus => exact dropUnderscores_cons (by decide) rest
  | plus => exact dropUnderscores_cons (by decide) rest

end

namespace WrittenNumber

variable (n : WrittenNumber)

/-- The point and the digits after it, without underscores. -/
def plainFraction : List Char := n.fraction.elim [] fun g => '.' :: g.digits

/-- The exponent without underscores. -/
def plainExponent : List Char :=
  n.exponent.elim [] fun e => e.mark :: (e.sign.chars ++ e.figures.digits)

theorem dropUnderscores_exponentChars :
    dropUnderscores isAsciiDigit true n.exponentChars = some n.plainExponent := by
  rw [exponentChars, plainExponent]
  cases n.exponent with
  | none => rfl
  | some e =>
    have hmark : e.mark ≠ '_' ∧ isAsciiDigit e.mark = false := by
      rcases e.mark_eq with hmark | hmark <;> rw [hmark] <;> decide
    have hfigures : dropUnderscores isAsciiDigit false (e.figures.chars ++ []) =
        (dropUnderscores isAsciiDigit true []).map (e.figures.digits ++ ·) :=
      e.figures.dropUnderscores_chars []
    rw [List.append_nil] at hfigures
    simp only [Option.elim_some, WrittenExponent.chars]
    rw [dropUnderscores_cons hmark.1, hmark.2, WrittenSign.dropUnderscores_chars, hfigures]
    simp [dropUnderscores]

theorem dropUnderscores_fractionChars (rest : List Char) :
    dropUnderscores isAsciiDigit true (n.fractionChars ++ rest) =
      (dropUnderscores isAsciiDigit true rest).map (n.plainFraction ++ ·) := by
  rw [fractionChars, plainFraction]
  cases n.fraction with
  | none => simp
  | some g =>
    have hpoint : isAsciiDigit '.' = false := rfl
    simp only [Option.elim_some, List.cons_append]
    rw [dropUnderscores_cons (by decide), hpoint, g.dropUnderscores_chars, Option.map_map]
    rfl

theorem dropUnderscores_chars : dropUnderscores isAsciiDigit false n.chars =
    some (n.sign.chars ++ (n.whole.digits ++ (n.plainFraction ++ n.plainExponent))) := by
  rw [chars, WrittenSign.dropUnderscores_chars, Grouped.dropUnderscores_chars,
    dropUnderscores_fractionChars, dropUnderscores_exponentChars]
  rfl

/-! ### Reading -/

theorem stops_plainExponent : Stops n.plainExponent := by
  rw [plainExponent]
  cases n.exponent with
  | none => exact fun c hc => by cases hc
  | some e =>
    refine Text.forall_head?_cons ?_
    rcases e.mark_eq with hmark | hmark <;> rw [hmark] <;> decide

theorem stops_plainFraction : Stops (n.plainFraction ++ n.plainExponent) := by
  refine Text.forall_head?_append ?_ n.stops_plainExponent
  rw [plainFraction]
  cases n.fraction with
  | none => exact fun c hc => by cases hc
  | some g => exact Text.forall_head?_cons (by decide)

theorem takeSign_chars {s : WrittenSign} {ds : List Char} (h : Digits ds) (hne : ds ≠ [])
    (rest : List Char) :
    takeSign (s.chars ++ (ds ++ rest)) = (decide (s = .minus), ds ++ rest) := by
  cases s with
  | bare =>
    obtain ⟨d, ds, rfl⟩ := List.exists_cons_of_ne_nil hne
    exact takeSign_digit (h d List.mem_cons_self)
  | minus => rfl
  | plus => rfl

theorem readExponent?_plainExponent :
    readExponent? n.plainExponent = some (n.exponent.elim 0 WrittenExponent.value) := by
  rw [plainExponent]
  cases n.exponent with
  | none => rfl
  | some e =>
    have hmark : (e.mark == 'e' || e.mark == 'E') = true := by
      rcases e.mark_eq with hmark | hmark <;> rw [hmark] <;> rfl
    have hsign := takeSign_chars (s := e.sign) e.figures.digits_digits e.figures.digits_ne_nil []
    have hall : e.figures.digits.all isAsciiDigit := List.all_eq_true.mpr e.figures.digits_digits
    rw [List.append_nil] at hsign
    simp only [Option.elim_some]
    rw [readExponent?, if_pos hmark, hsign]
    simp [List.isEmpty_eq_false_iff.mpr e.figures.digits_ne_nil, hall, WrittenExponent.value]

/-- The fraction ends where the exponent starts. -/
theorem split_plainFraction : (match n.plainFraction ++ n.plainExponent with
    | '.' :: cs => (cs.takeWhile isAsciiDigit, cs.dropWhile isAsciiDigit)
    | cs => ([], cs)) = (n.fractionDigits, n.plainExponent) := by
  rw [plainFraction, fractionDigits]
  cases n.fraction with
  | none =>
    simp only [Option.elim_none, List.nil_append]
    rw [plainExponent]
    cases n.exponent with
    | none => rfl
    | some e =>
      have hmark : e.mark ≠ '.' := by
        rcases e.mark_eq with hmark | hmark <;> rw [hmark] <;> decide
      simp only [Option.elim_some]
      split
      · rename_i hpoint
        exact absurd (List.cons.inj hpoint).1 hmark
      · rfl
  | some g =>
    simp only [Option.elim_some, List.cons_append, takeWhile_digits g.digits_digits
      n.stops_plainExponent, dropWhile_digits g.digits_digits n.stops_plainExponent]

theorem readMagnitude?_plain :
    readMagnitude? (n.whole.digits ++ (n.plainFraction ++ n.plainExponent)) =
      some (ofDecimal (digitsFrom 10 0 (n.whole.digits ++ n.fractionDigits))
        (n.exponent.elim 0 WrittenExponent.value - n.fractionDigits.length)) := by
  have hwhole : n.whole.digits.isEmpty = false :=
    List.isEmpty_eq_false_iff.mpr n.whole.digits_ne_nil
  rw [readMagnitude?, takeWhile_digits n.whole.digits_digits n.stops_plainFraction,
    dropWhile_digits n.whole.digits_digits n.stops_plainFraction, digitsFrom_append]
  split
  rename_i fraction rest hsplit
  obtain ⟨rfl, rfl⟩ := Prod.mk.inj (hsplit.symm.trans n.split_plainFraction)
  simp only [hwhole, Bool.false_and, n.readExponent?_plainExponent]
  rfl

/-- A character of a number. -/
def isNumberChar (c : Char) : Bool := isFigure c || c == '_' || c == 'E'

theorem isNumberChar_of_isFigure {c : Char} (h : isFigure c) : isNumberChar c := by
  simp [isNumberChar, h]

theorem isNumberChar_of_mem_grouped {g : Grouped} : ∀ c ∈ g.chars, isNumberChar c := by
  have hdigits : ∀ ds ∈ g.first :: g.more, ∀ c ∈ ds, isNumberChar c := fun ds hds c hc =>
    isNumberChar_of_isFigure (isFigure_of_isAsciiDigit ((g.group ds hds).2 c hc))
  refine List.forall_mem_append.mpr ⟨hdigits _ List.mem_cons_self, fun c hc => ?_⟩
  obtain ⟨ds, hds, hc⟩ := List.mem_flatMap.mp hc
  rcases List.mem_cons.mp hc with rfl | hc
  · rfl
  · exact hdigits ds (List.mem_cons_of_mem _ hds) c hc

theorem isNumberChar_of_mem_sign {s : WrittenSign} : ∀ c ∈ s.chars, isNumberChar c := by
  cases s <;> simp [WrittenSign.chars, isNumberChar, isFigure]

theorem isNumberChar_of_mem : ∀ c ∈ n.chars, isNumberChar c := by
  have hfraction : ∀ c ∈ n.fractionChars, isNumberChar c := by
    rw [fractionChars]
    cases n.fraction with
    | none => exact List.forall_mem_nil _
    | some g => exact List.forall_mem_cons.mpr ⟨rfl, isNumberChar_of_mem_grouped⟩
  have hexponent : ∀ c ∈ n.exponentChars, isNumberChar c := by
    rw [exponentChars]
    cases n.exponent with
    | none => exact List.forall_mem_nil _
    | some e =>
      refine List.forall_mem_cons.mpr ⟨?_, List.forall_mem_append.mpr
        ⟨isNumberChar_of_mem_sign, isNumberChar_of_mem_grouped⟩⟩
      rcases e.mark_eq with hmark | hmark <;> rw [hmark] <;> rfl
  simp only [chars, List.forall_mem_append]
  exact ⟨isNumberChar_of_mem_sign, isNumberChar_of_mem_grouped, hfraction, hexponent⟩

theorem ascii_of_isNumberChar {c : Char} (h : isNumberChar c) :
    c.toNat < 128 ∧ isPad c = false := by
  simp only [isNumberChar, Bool.or_eq_true, beq_iff_eq] at h
  rcases h with (h | rfl) | rfl
  · have hrange := toNat_of_isFigure h
    exact ⟨by omega, isPad_of_isFigure h⟩
  all_goals decide

/-- Read as a whole, a number is its value. -/
theorem readFloat?_chars : readFloat? (String.ofList n.chars) = some n.value := by
  have hplain : plain n.chars = n.chars := plain_of_ascii fun c hc =>
    (ascii_of_isNumberChar (n.isNumberChar_of_mem c hc)).1
  have htrim : trimPad n.chars = n.chars := trimPad_of_solid fun c hc =>
    (ascii_of_isNumberChar (n.isNumberChar_of_mem c hc)).2
  obtain ⟨d, ds, hdigits⟩ := List.exists_cons_of_ne_nil n.whole.digits_ne_nil
  have hd : isAsciiDigit d := n.whole.digits_digits d (hdigits ▸ List.mem_cons_self)
  have hsign := takeSign_chars (s := n.sign) n.whole.digits_digits n.whole.digits_ne_nil
    (n.plainFraction ++ n.plainExponent)
  have hname : readName? (n.whole.digits ++ (n.plainFraction ++ n.plainExponent)) = none := by
    rw [hdigits, List.cons_append]
    exact readName?_digit hd
  rw [readFloat?, String.toList_ofList, hplain, htrim, n.dropUnderscores_chars, Option.bind_eq_bind,
    Option.bind_some, hsign]
  simp only [hname, n.readMagnitude?_plain]
  rw [value]
  by_cases hminus : n.sign = .minus <;> simp [hminus]

end WrittenNumber

end DesignTokens.Decimal
