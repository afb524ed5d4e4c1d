import DesignTokens.Proofs.Opacity.Scans
import DesignTokens.Proofs.Utility.Grounded
import DesignTokens.Proofs.Utility.Rejoined

/-!
Words with an opacity modifier. A scan passes over the variants and the mark of importance, and finds
the one modifier of the word; whatever a scan finds has a token of word characters and hyphens.
-/
namespace DesignTokens.OpacityModifier

open Text

open Utility (isShortNumber numberOf joinParts)

theorem foldl_digitValue? {cs : List Char} (h : Decimal.Digits cs) (n : Nat) :
    cs.foldl (fun n c => 10 * n + (digitValue? c).getD 0) n = Decimal.digitsFrom 10 n cs := by
  induction cs generalizing n with
  | nil => rfl
  | cons c cs ih =>
    obtain ⟨hc, hcs⟩ := List.forall_mem_cons.mp h
    have hvalue : digitValue? c = some (c.toNat - 48) := by
      have hrange := Decimal.isAsciiDigit_iff.mp hc
      simp [digitValue?, hrange]
    rw [List.foldl_cons, ih hcs, Decimal.digitsFrom, Decimal.digitsFrom, List.foldl_cons, hvalue,
      Decimal.hexValue?_of_isAsciiDigit hc, Nat.mul_comm]

theorem isDecimal_of_isAsciiDigit {c : Char} (h : isAsciiDigit c) : isDecimal c := by
  have hrange := Decimal.isAsciiDigit_iff.mp h
  simp [isDecimal, digitValue?, hrange]

/-- The percentage that a short number writes, where nothing follows it but the mark of importance. -/
theorem percentage?_eq {digits : String} (h : isShortNumber 3 digits) {tail : List Char}
    (htail : tail = [] ∨ tail = ['!']) :
    percentage? (digits.toList ++ tail) = some (numberOf digits, tail) := by
  obtain ⟨hascii, hne, hlength⟩ := Utility.digits_of_isShortNumber h
  have hstop : ∀ c ∈ (tail.take (3 - digits.toList.length)).head?, isDecimal c = false := by
    rcases htail with rfl | rfl
    · simp
    · cases 3 - digits.toList.length <;> simp [isDecimal, digitValue?]
  have htake : ((digits.toList ++ tail).take 3).takeWhile isDecimal = digits.toList := by
    rw [List.take_append, List.take_of_length_le hlength]
    exact takeWhile_append_stop (fun c hc => isDecimal_of_isAsciiDigit (hascii c hc)) hstop
  have hempty : digits.toList.isEmpty = false := List.isEmpty_eq_false_iff.mpr hne
  have hnext : tail.head?.any (fun c => isWord c || c == '.') = false := by
    rcases htail with rfl | rfl <;> decide
  simp only [percentage?, htake, List.drop_left, hempty, hnext]
  simp [foldl_digitValue? hascii, numberOf]

theorem utility?_eq {u : String} (hu : u ∈ utilities) (rest : List Char) :
    utility? (u.toList ++ '-' :: rest) = some (u, rest) := by
  simp only [utilities, List.mem_cons, List.not_mem_nil, or_false] at hu
  rcases hu with rfl | rfl | rfl | rfl <;> rfl

/-- Variants are passed over, one after the other. -/
theorem skipVariants_joinParts {vs : List (List Char)}
    (hvs : ∀ v ∈ vs, v ≠ [] ∧ ∀ c ∈ v, isPartChar c) (base : List Char) :
    skipVariants (joinParts ':' (vs ++ [base])) = skipVariants base := by
  induction vs with
  | nil => rfl
  | cons v vs ih =>
    obtain ⟨⟨hne, hparts⟩, hvs⟩ := List.forall_mem_cons.mp hvs
    have hcolon : ∀ rest : List Char, ∀ c ∈ (':' :: rest).head?, isPartChar c = false := by
      intro rest c hc
      obtain rfl := Option.some.inj hc
      rfl
    have hskip : ∀ rest, skipVariant? (v ++ ':' :: rest) = some rest := by
      intro rest
      rw [skipVariant?, takeWhile_append_stop hparts (hcolon rest),
        dropWhile_append_stop hparts (hcolon rest)]
      cases v with
      | nil => exact absurd rfl hne
      | cons c v => rfl
    rw [List.cons_append, Utility.joinParts_cons v (by simp), skipVariants, hskip, ← ih hvs]
    simp only
    rw [if_pos (by simp; omega)]

/-- No variant ends before a slash or a mark of importance. -/
theorem skipVariants_of_stop {part rest : List Char} {d : Char} (hpart : ∀ c ∈ part, isPartChar c)
    (hd : isPartChar d = false) (hcolon : d ≠ ':') :
    skipVariants (part ++ d :: rest) = part ++ d :: rest := by
  have hstop : ∀ c ∈ (d :: rest).head?, isPartChar c = false := by
    intro c hc
    exact Option.some.inj hc ▸ hd
  rw [skipVariants, skipVariant?, takeWhile_append_stop hpart hstop,
    dropWhile_append_stop hpart hstop]
  cases part with
  | nil => rfl
  | cons c part => simp [hcolon]

theorem modifier?_eq {token digits : String} (u : String) (hparts : ∀ c ∈ token.toList, isPartChar c)
    (hletter : token.toList.head?.any isAsciiLetter) (hshort : isShortNumber 3 digits)
    {tail : List Char} (htail : tail = [] ∨ tail = ['!']) :
    modifier? u (token.toList ++ '/' :: (digits.toList ++ tail)) =
      some (⟨token, numberOf digits, u⟩, tail) := by
  have hslash : ∀ c ∈ ('/' :: (digits.toList ++ tail)).head?, isPartChar c = false := by
    intro c hc
    obtain rfl := Option.some.inj hc
    rfl
  rw [modifier?, takeWhile_append_stop hparts hslash, dropWhile_append_stop hparts hslash]
  cases hchars : token.toList with
  | nil => simp [hchars] at hletter
  | cons c cs =>
    rw [hchars] at hletter
    have hc : isAsciiLetter c := by simpa using hletter
    have htoken : String.ofList (c :: cs) = token := by rw [← hchars, String.ofList_toList]
    simp only [hc, if_true, percentage?_eq hshort htail, Option.map_some, htoken]

/-- What a scan reads of a utility with a percentage after the variants, where the mark of importance
comes first or last or is not there. -/
theorem exists_dropMark {u token digits : String} (hu : u ∈ utilities)
    (hparts : ∀ c ∈ token.toList, isPartChar c) {base : List Char}
    (hbase : let body := (u ++ "-" ++ token).toList ++ '/' :: digits.toList
      base = body ∨ base = '!' :: body ∨ base = body ++ ['!']) :
    ∃ tail, (tail = [] ∨ tail = ['!']) ∧ dropMark (skipVariants base) =
      u.toList ++ '-' :: (token.toList ++ '/' :: (digits.toList ++ tail)) := by
  have hname : ∀ c ∈ (u ++ "-" ++ token).toList, isPartChar c := by
    intro c hc
    rw [String.toList_append, String.toList_append, List.mem_append] at hc
    rcases hc with hc | hc
    · exact isPartChar_of_mem_utilities u hu c hc
    · exact hparts c hc
  have hunmarked : ∀ rest, dropMark (u.toList ++ rest) = u.toList ++ rest := by
    simp only [utilities, List.mem_cons, List.not_mem_nil, or_false] at hu
    rcases hu with rfl | rfl | rfl | rfl <;> exact fun rest => rfl
  have hfirst : ∀ rest, skipVariants ('!' :: rest) = '!' :: rest := fun rest =>
    skipVariants_of_stop (List.forall_mem_nil _) rfl (by decide)
  rcases hbase with rfl | rfl | rfl
  · refine ⟨[], .inl rfl, ?_⟩
    rw [skipVariants_of_stop hname rfl (by decide)]
    simpa using hunmarked _
  · refine ⟨[], .inl rfl, ?_⟩
    rw [hfirst]
    simp [dropMark]
  · refine ⟨['!'], .inr rfl, ?_⟩
    rw [List.append_assoc, List.cons_append, skipVariants_of_stop hname rfl (by decide)]
    simpa using hunmarked _

/-- A word that is a colour utility with a percentage. -/
structure Marked (w : List Char) (u token digits : String) : Prop where
  utility : u ∈ utilities
  parts : ∀ c ∈ token.toList, isPartChar c
  letter : token.toList.head?.any isAsciiLetter
  short : isShortNumber 3 digits
  word : ∃ vs base, w = joinParts ':' (vs ++ [base]) ∧
    (∀ v ∈ vs, v ≠ [] ∧ ∀ c ∈ v, isPartChar c) ∧
    let body := (u ++ "-" ++ token).toList ++ '/' :: digits.toList
    (base = body ∨ base = '!' :: body ∨ base = body ++ ['!'])

/-- Of such a word the scan leaves at most a mark of importance. -/
theorem Marked.exists_scan? {w : List Char} {u token digits : String}
    (h : Marked w u token digits) : ∃ tail,
      scan? w = some (⟨token, numberOf digits, u⟩, tail) ∧ (tail = [] ∨ tail = ['!']) := by
  obtain ⟨vs, base, rfl, hvs, hbase⟩ := h.word
  obtain ⟨tail, htail, hrest⟩ := exists_dropMark h.utility h.parts hbase
  refine ⟨tail, ?_, htail⟩
  rw [scan?_eq, skipVariants_joinParts hvs, hrest, utility?_eq h.utility, Option.bind_some,
    modifier?_eq u h.parts h.letter h.short htail]

theorem Marked.two_le_length {w : List Char} {u token digits : String}
    (h : Marked w u token digits) : 2 ≤ w.length := by
  obtain ⟨vs, base, rfl, -, hbase⟩ := h.word
  have hbody : 2 ≤ base.length := by
    rcases hbase with rfl | rfl | rfl <;> simp <;> omega
  cases vs with
  | nil => exact hbody
  | cons v vs =>
    rw [Utility.joinParts_concat (List.cons_ne_nil v vs)]
    simp
    omega

/-- The scan finds the modifier of such a word, and no other. -/
theorem Marked.scanAll_eq {w : List Char} {u token digits : String} (h : Marked w u token digits) :
    scanAll false w = [⟨token, numberOf digits, u⟩] := by
  obtain ⟨tail, hscan, htail⟩ := h.exists_scan?
  have hrest : scanAll true tail = [] := by
    rcases htail with rfl | rfl <;> simp [scanAll]
  have hlength := h.two_le_length
  cases w with
  | nil => simp at hlength
  | cons c cs =>
    have hshorter : tail.length ≤ cs.length := by
      rcases htail with rfl | rfl
      · exact Nat.zero_le _
      · simpa [Nat.succ_le_iff, Nat.pos_iff_ne_zero] using hlength
    rw [scanAll, if_neg Bool.false_ne_true, hscan]
    simp only [if_pos hshorter, hrest]

theorem isPartChar_of_scan? {cs rest : List Char} {m : OpacityModifier}
    (h : scan? cs = some (m, rest)) : ∀ c ∈ m.token.toList, isPartChar c := by
  rw [scan?_eq] at h
  obtain ⟨p, -, hm⟩ := Option.bind_eq_some_iff.mp h
  rw [modifier?] at hm
  split at hm
  · rename_i c token rest' htoken hrest'
    split at hm
    · obtain ⟨q, -, hpair⟩ := Option.map_eq_some_iff.mp hm
      obtain ⟨rfl, -⟩ := Prod.mk.inj hpair
      intro d hd
      rw [String.toList_ofList, ← htoken] at hd
      exact List.mem_takeWhile_imp hd
    · cases hm
  · cases hm

/-- Tokens that are found have word characters and hyphens only. -/
theorem isPartChar_of_mem_scanAll {inWord : Bool} {cs : List Char} {m : OpacityModifier}
    (h : m ∈ scanAll inWord cs) : ∀ c ∈ m.token.toList, isPartChar c := by
  fun_induction scanAll inWord cs with
  | case1 inWord => cases h
  | case2 inWord x xs m' rest hscan hshorter ih =>
    rcases List.mem_cons.mp h with rfl | h
    · cases inWord with
      | true => cases hscan
      | false => exact isPartChar_of_scan? hscan
    · exact ih h
  | case3 inWord x xs m' rest hscan hlonger ih => exact ih h
  | case4 inWord x xs hscan ih => exact ih h

end DesignTokens.OpacityModifier
