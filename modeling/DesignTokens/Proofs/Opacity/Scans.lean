import DesignTokens.Opacity
import DesignTokens.Proofs.Text.Words

/-!
Scans for opacity modifiers. No modifier goes over a blank, so that a text is scanned word by word.
-/
namespace DesignTokens.OpacityModifier

open Text

/-- A character at which every modifier ends. -/
structure Stops (c : Char) : Prop where
  part : isPartChar c = false
  decimal : isDecimal c = false
  colon : c ≠ ':'
  mark : c ≠ '!'
  slash : c ≠ '/'
  point : c ≠ '.'

theorem stops_of_isBlank {c : Char} (h : isBlank c) : Stops c := by
  have hall : ∀ n ∈ blankCodes, isPartChar (Char.ofNat n) = false ∧
      isDecimal (Char.ofNat n) = false ∧ Char.ofNat n ≠ ':' ∧ Char.ofNat n ≠ '!' ∧
      Char.ofNat n ≠ '/' ∧ Char.ofNat n ≠ '.' := by
    decide +kernel
  obtain ⟨hpart, hdecimal, hcolon, hmark, hslash, hpoint⟩ :=
    forall_isBlank (P := fun c => isPartChar c = false ∧ isDecimal c = false ∧ c ≠ ':' ∧ c ≠ '!' ∧
      c ≠ '/' ∧ c ≠ '.') hall h
  exact ⟨hpart, hdecimal, hcolon, hmark, hslash, hpoint⟩

/-- What is left of a text after the mark of importance. -/
def dropMark : List Char → List Char
  | '!' :: rest => rest
  | cs => cs

/-- The modifier whose token starts a text, and what follows it. -/
def modifier? (utility : String) (cs : List Char) : Option (OpacityModifier × List Char) :=
  match cs.takeWhile isPartChar, cs.dropWhile isPartChar with
  | c :: token, '/' :: rest =>
    if isAsciiLetter c then
      (percentage? rest).map fun p => (⟨String.ofList (c :: token), p.1, utility⟩, p.2)
    else none
  | _, _ => none

theorem scan?_eq (cs : List Char) :
    scan? cs = (utility? (dropMark (skipVariants cs))).bind fun p => modifier? p.1 p.2 := by
  change (utility? (dropMark (skipVariants cs))).bind _ = _
  congr 1
  funext p
  simp only [modifier?]
  cases p.2.takeWhile isPartChar with
  | nil => rfl
  | cons c token =>
    cases p.2.dropWhile isPartChar with
    | nil => rfl
    | cons d rest =>
      by_cases hd : d = '/'
      · subst hd
        cases hp : percentage? rest <;> simp [hp]
      · simp [hd]

theorem Stops.word {c : Char} (h : Stops c) : isWord c = false :=
  (Bool.or_eq_false_iff.mp h.part).1

/-- What begins a text before a character that it lacks does so without what comes after. -/
theorem isPrefixOf_append {c : Char} {lead : List Char} (hlead : c ∉ lead) (cs ds : List Char) :
    lead.isPrefixOf (cs ++ c :: ds) = lead.isPrefixOf cs := by
  induction cs generalizing lead with
  | nil =>
    cases lead with
    | nil => rfl
    | cons l lead =>
      have hne : l ≠ c := fun e => hlead (e ▸ List.mem_cons_self)
      simp [List.isPrefixOf, hne]
  | cons d cs ih =>
    cases lead with
    | nil => rfl
    | cons l lead =>
      rw [List.cons_append, List.isPrefixOf, List.isPrefixOf, ih (mt (List.mem_cons_of_mem l) hlead)]

theorem isPartChar_of_mem_utilities : ∀ u ∈ utilities, ∀ d ∈ u.toList ++ ['-'], isPartChar d := by
  simp [utilities, isPartChar, isWord, or_imp, forall_and]

section

variable {c : Char} (hc : Stops c) (cs ds : List Char)
include hc

theorem skipVariant?_append :
    skipVariant? (cs ++ c :: ds) = (skipVariant? cs).map (· ++ c :: ds) := by
  rw [skipVariant?, skipVariant?, takeWhile_append_cons hc.part, dropWhile_append_cons hc.part]
  cases cs.takeWhile isPartChar with
  | nil => rfl
  | cons p ps =>
    cases cs.dropWhile isPartChar with
    | nil => simp [hc.colon]
    | cons d rest => by_cases hd : d = ':' <;> simp [hd]

theorem skipVariants_append : skipVariants (cs ++ c :: ds) = skipVariants cs ++ c :: ds := by
  fun_induction skipVariants cs with
  | case1 cs rest hskip hshorter ih =>
    rw [skipVariants, skipVariant?_append hc, hskip]
    simp only [Option.map_some, List.length_append, Nat.add_lt_add_iff_right, hshorter, if_true]
    exact ih
  | case2 cs rest hskip hlonger =>
    rw [skipVariants, skipVariant?_append hc, hskip]
    simp only [Option.map_some, List.length_append, Nat.add_lt_add_iff_right, hlonger, if_false]
  | case3 cs hnone =>
    rw [skipVariants, skipVariant?_append hc, hnone]
    rfl

theorem utility?_append :
    utility? (cs ++ c :: ds) = (utility? cs).map fun p => (p.1, p.2 ++ c :: ds) := by
  have hone : ∀ u ∈ utilities, c ∉ u.toList ++ ['-'] := by
    intro u hu hmem
    have hpart := isPartChar_of_mem_utilities u hu c hmem
    rw [hc.part] at hpart
    cases hpart
  have hall : ∀ us ⊆ utilities, (us.findSome? fun u =>
      let lead := u.toList ++ ['-']
      if lead.isPrefixOf (cs ++ c :: ds) then some (u, (cs ++ c :: ds).drop lead.length) else none) =
      (us.findSome? fun u =>
        let lead := u.toList ++ ['-']
        if lead.isPrefixOf cs then some (u, cs.drop lead.length) else none).map
          fun p => (p.1, p.2 ++ c :: ds) := by
    intro us hus
    induction us with
    | nil => rfl
    | cons u us ih =>
      obtain ⟨hu, hus⟩ := List.cons_subset.mp hus
      simp only [List.findSome?_cons, isPrefixOf_append (hone u hu), ih hus]
      by_cases hlead : (u.toList ++ ['-']).isPrefixOf cs
      · have hlength := (List.isPrefixOf_iff_prefix.mp hlead).length_le
        simp only [hlead, if_true, Option.map_some, List.drop_append_of_le_length hlength]
      · simp [hlead]
  exact hall utilities (List.Subset.refl _)

theorem percentage?_append :
    percentage? (cs ++ c :: ds) = (percentage? cs).map fun p => (p.1, p.2 ++ c :: ds) := by
  have hdigits : ((cs ++ c :: ds).take 3).takeWhile isDecimal = (cs.take 3).takeWhile isDecimal := by
    rw [List.take_append]
    cases hmore : 3 - cs.length with
    | zero => simp
    | succ n => rw [List.take_succ_cons, takeWhile_append_cons hc.decimal]
  have hlength : ((cs.take 3).takeWhile isDecimal).length ≤ cs.length :=
    Nat.le_trans (List.takeWhile_prefix _).length_le (List.length_take_le' 3 cs)
  have hrest : (cs ++ c :: ds).drop ((cs.take 3).takeWhile isDecimal).length =
      cs.drop ((cs.take 3).takeWhile isDecimal).length ++ c :: ds :=
    List.drop_append_of_le_length hlength
  simp only [percentage?, hdigits, hrest]
  generalize cs.drop _ = rest
  generalize (cs.take 3).takeWhile isDecimal = digits
  cases rest with
  | nil => by_cases h : digits.isEmpty <;> simp [h, hc.word, hc.point]
  | cons d rest =>
    by_cases h : digits.isEmpty || (isWord d || d == '.')
    · simp [h]
    · simp [h]

theorem dropMark_append : dropMark (cs ++ c :: ds) = dropMark cs ++ c :: ds := by
  cases cs with
  | nil => simp [dropMark, hc.mark]
  | cons d cs => by_cases hd : d = '!' <;> simp [dropMark, hd]

theorem modifier?_append (u : String) :
    modifier? u (cs ++ c :: ds) = (modifier? u cs).map fun p => (p.1, p.2 ++ c :: ds) := by
  rw [modifier?, modifier?, takeWhile_append_cons hc.part, dropWhile_append_cons hc.part]
  cases cs.takeWhile isPartChar with
  | nil => rfl
  | cons d token =>
    cases cs.dropWhile isPartChar with
    | nil => simp [hc.slash]
    | cons e rest =>
      by_cases he : e = '/'
      · by_cases hletter : isAsciiLetter d <;>
          simp [he, hletter, percentage?_append hc, Function.comp_def]
      · simp [he]

theorem scan?_append : scan? (cs ++ c :: ds) = (scan? cs).map fun p => (p.1, p.2 ++ c :: ds) := by
  rw [scan?_eq, scan?_eq, skipVariants_append hc, dropMark_append hc, utility?_append hc,
    Option.bind_map, Option.map_bind]
  congr 1
  funext p
  exact modifier?_append hc p.2 ds p.1

/-- The text before the character and what comes after it are scanned on their own. -/
theorem scanAll_append (inWord : Bool) :
    scanAll inWord (cs ++ c :: ds) = scanAll inWord cs ++ scanAll false ds := by
  have hstart : ∀ (inWord : Bool) (x : Char) (xs : List Char),
      (if inWord then none else scan? (x :: (xs ++ c :: ds))) =
        (if inWord then none else scan? (x :: xs)).map fun p => (p.1, p.2 ++ c :: ds) := by
    intro inWord x xs
    cases inWord with
    | true => rfl
    | false => exact scan?_append hc (x :: xs) ds
  fun_induction scanAll inWord cs with
  | case1 inWord =>
    have hnil : scan? [] = none := by decide +kernel
    have hnone : scan? (c :: ds) = none := by
      simpa [hnil] using scan?_append hc [] ds
    rw [List.nil_append, scanAll, hnone, ite_self, hc.part]
    rfl
  | case2 inWord x xs m rest hscan hshorter ih =>
    rw [dite_eq_ite] at hscan
    rw [List.cons_append, scanAll, hstart, hscan]
    simp only [Option.map_some, List.length_append, Nat.add_le_add_iff_right, hshorter, if_true, ih,
      List.cons_append]
  | case3 inWord x xs m rest hscan hlonger ih =>
    rw [dite_eq_ite] at hscan
    rw [List.cons_append, scanAll, hstart, hscan]
    simp only [Option.map_some, List.length_append, Nat.add_le_add_iff_right, hlonger, if_false, ih]
  | case4 inWord x xs hscan ih =>
    rw [dite_eq_ite] at hscan
    rw [List.cons_append, scanAll, hstart, hscan]
    exact ih

end

/-- A text is scanned word by word. -/
theorem scanAll_wordsFrom (run cs : List Char) : scanAll false (run.reverse ++ cs) =
    (wordsFrom run cs).flatMap (scanAll false) := by
  induction cs generalizing run with
  | nil =>
    rw [wordsFrom]
    cases run with
    | nil => simp [scanAll]
    | cons d run => simp
  | cons c cs ih =>
    rw [wordsFrom]
    split
    · rename_i hblank
      rw [scanAll_append (stops_of_isBlank hblank)]
      have hrest := ih []
      rw [List.reverse_nil, List.nil_append] at hrest
      rw [hrest]
      cases run with
      | nil => simp [scanAll]
      | cons d run => simp
    · rw [← ih, List.reverse_cons, List.append_assoc, List.singleton_append]

end DesignTokens.OpacityModifier
