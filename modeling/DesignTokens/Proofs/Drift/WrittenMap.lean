import DesignTokens.Proofs.Decimal.Numeral
import DesignTokens.Proofs.Drift.Blocks
import DesignTokens.Proofs.Tables
import DesignTokens.Proofs.Text.Patterns
import DesignTokens.Proofs.Text.Words

/-!
Maps as source text writes them: keys with or without quotes, colons and decimal literals, with
commas and blanks between the entries. What is written so is read back, entry by entry, and its
braces are balanced.
-/
namespace DesignTokens.Drift

open Text Decimal

/-! ### Characters -/

def isSeparator (c : Char) : Bool := c == ',' || isBlank c

/-- A character between entries is no part of one. -/
structure Outside (c : Char) : Prop extends Plain c where
  keyChar : isKeyChar c = false
  digit : isDecimal c = false

instance (c : Char) : Decidable (Outside c) :=
  decidable_of_iff (Plain c ∧ isKeyChar c = false ∧ isDecimal c = false)
    ⟨fun ⟨h₁, h₂, h₃⟩ => ⟨h₁, h₂, h₃⟩, fun ⟨h₁, h₂, h₃⟩ => ⟨h₁, h₂, h₃⟩⟩

theorem outside_of_isSeparator {c : Char} (h : isSeparator c) : Outside c := by
  have hall : Outside ',' ∧ ∀ n ∈ blankCodes, Outside (Char.ofNat n) := by
    decide +kernel
  simp only [isSeparator, Bool.or_eq_true, beq_iff_eq] at h
  rcases h with rfl | h
  · exact hall.1
  · exact forall_isBlank hall.2 h

/-- A character that does not continue a decimal. -/
def EndsDecimal (c : Char) : Prop := isDecimal c = false ∧ c ≠ '.'

instance (c : Char) : Decidable (EndsDecimal c) := inferInstanceAs (Decidable (_ ∧ _))

theorem endsDecimal_of_isSeparator {c : Char} (h : isSeparator c) : EndsDecimal c := by
  have houtside := outside_of_isSeparator h
  refine ⟨houtside.digit, ?_⟩
  rintro rfl
  have hkey := houtside.keyChar
  simp [isKeyChar] at hkey

theorem isBlank_of_isKeyChar {c : Char} (h : isKeyChar c) : isBlank c = false := by
  by_contra hblank
  have houtside := outside_of_isSeparator (c := c) (by simp_all [isSeparator])
  simp [houtside.keyChar] at h

theorem plain_of_isKeyChar {c : Char} (h : isKeyChar c) : Plain c := by
  refine ⟨?_, ?_, ?_, ?_⟩
  · by_contra hquote
    simp only [isStringQuote, Bool.not_eq_false, Bool.or_eq_true, beq_iff_eq] at hquote
    rcases hquote with (rfl | rfl) | rfl <;> revert h <;> decide
  all_goals
    rintro rfl
    revert h
    decide

theorem isKeyChar_of_isAsciiDigit {c : Char} (h : isAsciiDigit c) : isKeyChar c := by
  have hrange := isAsciiDigit_iff.mp h
  have hall : ∀ n ∈ List.range' 48 10, isKeyChar (Char.ofNat n) := by
    decide
  exact forall_code (P := fun c => isKeyChar c) hall (by rw [List.mem_range'_1]; omega)

theorem isDecimal_of_isAsciiDigit {c : Char} (h : isAsciiDigit c) : isDecimal c := by
  have hrange := isAsciiDigit_iff.mp h
  rw [isDecimal, digitValue?, if_pos (by simpa using hrange)]
  rfl

theorem isStringQuote_of_isQuote {q : Char} (h : isQuote q) : isStringQuote q := by
  have hquote : (q == '"' || q == '\x27') = true := h
  rw [isStringQuote, hquote]
  rfl

theorem not_isQuote_of_plain {c : Char} (h : Plain c) : isQuote c = false := by
  by_contra hquote
  have hstring := isStringQuote_of_isQuote (q := c) (by simpa using hquote)
  simp [h.quote] at hstring

/-! ### Literals -/

/-- A decimal literal: digits, perhaps after a minus, and perhaps a point and more digits. -/
structure Literal where
  negative : Bool := false
  whole : List Char
  fraction : List Char := []
  readable : Numeral.Readable ⟨whole, fraction, none⟩

namespace Literal

variable (l : Literal)

def numeral : Numeral := ⟨l.whole, l.fraction, none⟩

def sign : List Char := if l.negative then ['-'] else []

def chars : List Char := l.sign ++ (l.whole ++ l.numeral.fractionChars)

/-- The float nearest to the decimal. -/
def value : Float :=
  let x := ofDecimal l.numeral.coefficient l.numeral.scale
  if l.negative then -x else x

theorem isKeyChar_of_mem {c : Char} (h : c ∈ l.chars) : isKeyChar c := by
  have hfraction : ∀ c ∈ l.numeral.fractionChars, isKeyChar c := by
    rw [Numeral.fractionChars]
    split
    · simp
    · exact List.forall_mem_cons.mpr
        ⟨by decide, fun c hc => isKeyChar_of_isAsciiDigit (l.readable.fraction c hc)⟩
  rcases List.mem_append.mp h with hsign | hbody
  · rw [sign] at hsign
    split at hsign
    · obtain rfl := List.mem_singleton.mp hsign
      decide
    · cases hsign
  · rcases List.mem_append.mp hbody with hwhole | hc
    · exact isKeyChar_of_isAsciiDigit (l.readable.whole c hwhole)
    · exact hfraction c hc

theorem chars_ne_nil : l.chars ≠ [] := by
  refine List.append_ne_nil_of_right_ne_nil _ (List.append_ne_nil_of_left_ne_nil ?_ _)
  exact l.readable.ne_nil

theorem read_chars : NumberLiteral.read l.chars = l.value := by
  have hread := l.readable.readFloat? l.negative
  have hchars : l.chars = if l.negative then '-' :: l.numeral.chars else l.numeral.chars := by
    have hplain : l.numeral.chars = l.whole ++ l.numeral.fractionChars := by
      simp [Numeral.chars, Numeral.exponentChars, numeral]
    rw [chars, sign, hplain]
    split <;> rfl
  rw [NumberLiteral.read, hchars, numeral, hread]
  rfl

section

variable {rest : List Char} (hrest : ∀ c ∈ rest.head?, EndsDecimal c)
include hrest

theorem not_isDecimal_head :
    ∀ c ∈ (l.numeral.fractionChars ++ rest).head?, isDecimal c = false := by
  rw [Numeral.fractionChars]
  split
  · exact fun c hc => (hrest c hc).1
  · intro c hc
    obtain rfl : '.' = c := by simpa using hc
    decide

/-- The digits after a point end where the decimal does. -/
theorem fractionOf_append : NumberLiteral.fractionOf (l.numeral.fractionChars ++ rest) =
    l.numeral.fractionChars := by
  rw [Numeral.fractionChars]
  split
  · rw [List.nil_append]
    cases rest with
    | nil => rfl
    | cons c rest =>
      rw [NumberLiteral.fractionOf.eq_2]
      intro cs h
      exact (hrest c rfl).2 (List.cons.inj h).1
  · rename_i hfraction
    have htake : (l.numeral.fraction ++ rest).takeWhile isDecimal = l.numeral.fraction :=
      takeWhile_append_stop (fun c hc => isDecimal_of_isAsciiDigit (l.readable.fraction c hc))
        fun c hc => (hrest c hc).1
    rw [List.cons_append, NumberLiteral.fractionOf, htake, if_neg hfraction]

/-- A literal is read up to the character that ends it. -/
theorem ofChars?_append : NumberLiteral.ofChars? (l.chars ++ rest) =
    some ⟨l.sign ++ l.whole, l.numeral.fractionChars, rest⟩ := by
  have hdigits : ∀ c ∈ l.whole, isDecimal c := fun c hc =>
    isDecimal_of_isAsciiDigit (l.readable.whole c hc)
  have hstop := l.not_isDecimal_head hrest
  have htail : l.chars ++ rest = l.sign ++ (l.whole ++ (l.numeral.fractionChars ++ rest)) := by
    simp [chars]
  have hne : l.whole.isEmpty = false := List.isEmpty_eq_false_iff.mpr l.readable.ne_nil
  unfold NumberLiteral.ofChars?
  split
  rename_i sign body hsign
  obtain ⟨rfl, rfl⟩ : l.sign = sign ∧ l.whole ++ (l.numeral.fractionChars ++ rest) = body := by
    rw [htail] at hsign
    cases hnegative : l.negative with
    | true =>
      have hminus : l.sign = ['-'] := by rw [Literal.sign, hnegative]; rfl
      rw [hminus] at hsign ⊢
      exact Prod.mk.inj hsign
    | false =>
      have hplain : l.sign = [] := by rw [Literal.sign, hnegative]; rfl
      rw [hplain, List.nil_append] at hsign
      rw [hplain]
      split at hsign
      · rename_i hminus
        obtain ⟨d, ds, hwhole⟩ : ∃ d ds, l.whole = d :: ds :=
          List.exists_cons_of_ne_nil l.readable.ne_nil
        have hd : isAsciiDigit d := l.readable.whole d (hwhole ▸ List.mem_cons_self)
        rw [hwhole] at hminus
        obtain rfl := (List.cons.inj hminus).1
        cases hd
      · exact Prod.mk.inj hsign
  simp only [takeWhile_append_stop hdigits hstop, dropWhile_append_stop hdigits hstop,
    l.fractionOf_append hrest, hne, List.drop_left]
  rfl

end

theorem bounded?_eq {rest : List Char} (hrest : ∀ c ∈ rest.head?, isSeparator c) :
    NumberLiteral.bounded? ⟨l.sign ++ l.whole, l.numeral.fractionChars,
      rest⟩ = some (l.value, rest) := by
  have hends : (!rest.head?.any isWord) = true := by
    cases hhead : rest.head? with
    | none => rfl
    | some c =>
      have hkey := (outside_of_isSeparator (hrest c hhead)).keyChar
      simp only [isKeyChar, Bool.or_eq_false_iff] at hkey
      simp [hkey]
  rw [NumberLiteral.bounded?]
  dsimp only
  rw [if_pos hends, NumberLiteral.value, List.append_assoc]
  exact congrArg (fun x => some (x, rest)) l.read_chars

end Literal

/-! ### Entries -/

/-- An entry: a key, in quotes or not, a colon and a literal. -/
structure WrittenEntry where
  key : String
  value : Literal
  quote : Option Char := none
  gap : List Char := [' ']
  key_ne : key.toList ≠ []
  key_chars : ∀ c ∈ key.toList, isKeyChar c
  quote_isQuote : ∀ q ∈ quote, isQuote q
  gap_blank : ∀ c ∈ gap, isBlank c

namespace WrittenEntry

variable (e : WrittenEntry) {rest : List Char}

/-- What stands after the key. -/
def tail : List Char := e.quote.toList ++ ':' :: (e.gap ++ e.value.chars)

def chars : List Char := e.quote.toList ++ (e.key.toList ++ e.tail)

theorem chars_ne_nil : e.chars ≠ [] :=
  List.append_ne_nil_of_right_ne_nil _ (List.append_ne_nil_of_left_ne_nil e.key_ne _)

theorem dropQuote_quote {q : Option Char} {c : Char} {cs : List Char} (hq : ∀ q' ∈ q, isQuote q')
    (hc : isQuote c = false) : dropQuote (q.toList ++ c :: cs) = c :: cs := by
  cases q with
  | none => simp [dropQuote, hc]
  | some q => simp [dropQuote, hq q rfl]

theorem not_isKeyChar_tail : ∀ c ∈ (e.tail ++ rest).head?, isKeyChar c = false := by
  intro c hc
  rw [tail] at hc
  cases hquote : e.quote with
  | none =>
    rw [hquote] at hc
    obtain rfl : ':' = c := by simpa using hc
    decide
  | some q =>
    rw [hquote] at hc
    obtain rfl : q = c := by simpa using hc
    have hq := e.quote_isQuote q hquote
    by_contra hkey
    have hplain := plain_of_isKeyChar (c := q) (by simpa using hkey)
    simp [not_isQuote_of_plain hplain] at hq

/-- An entry is read up to the separator after it. -/
theorem entryAt?_append (hrest : ∀ c ∈ rest.head?, isSeparator c) :
    entryAt? (e.chars ++ rest) = some (e.key, e.value.value, rest) := by
  obtain ⟨d, ds, hkey⟩ := List.exists_cons_of_ne_nil e.key_ne
  have hd : isKeyChar d := e.key_chars d (hkey ▸ List.mem_cons_self)
  have hunquoted := not_isQuote_of_plain (plain_of_isKeyChar hd)
  have hstart : dropQuote (e.chars ++ rest) = e.key.toList ++ (e.tail ++ rest) := by
    rw [chars, hkey]
    rw [List.append_assoc, List.append_assoc]
    exact dropQuote_quote e.quote_isQuote hunquoted
  have hstop : ∀ c ∈ (e.tail ++ rest).head?, isKeyChar c = false := e.not_isKeyChar_tail
  have hcolon : dropQuote (e.tail ++ rest) = ':' :: (e.gap ++ (e.value.chars ++ rest)) := by
    rw [tail, List.append_assoc, List.cons_append, List.append_assoc]
    exact dropQuote_quote e.quote_isQuote rfl
  have hblank : (':' :: (e.gap ++ (e.value.chars ++ rest))).dropWhile isBlank =
      ':' :: (e.gap ++ (e.value.chars ++ rest)) := rfl
  have hvalue : ∀ c ∈ (e.value.chars ++ rest).head?, isBlank c = false := by
    intro c hc
    rw [List.head?_append_of_ne_nil _ e.value.chars_ne_nil] at hc
    exact isBlank_of_isKeyChar (e.value.isKeyChar_of_mem (List.mem_of_mem_head? hc))
  have hends : ∀ c ∈ rest.head?, EndsDecimal c := fun c hc =>
    endsDecimal_of_isSeparator (hrest c hc)
  have hne : e.key.toList.isEmpty = false := List.isEmpty_eq_false_iff.mpr e.key_ne
  unfold entryAt?
  simp only [hstart, takeWhile_append_stop e.key_chars hstop,
    dropWhile_append_stop e.key_chars hstop, hne, hcolon, hblank,
    dropWhile_append_stop e.gap_blank hvalue, e.value.ofChars?_append hends,
    e.value.bounded?_eq hrest, Option.bind_eq_bind, Option.bind_some, String.ofList_toList]
  rfl

end WrittenEntry

/-- Entries in braces: commas and blanks may stand before each of them and after the last one, and do
stand between two. -/
inductive Writes : List WrittenEntry → List Char → Prop where
  | done {sep : List Char} (hsep : ∀ c ∈ sep, isSeparator c) : Writes [] sep
  | entry {sep rest : List Char} {es : List WrittenEntry} (hsep : ∀ c ∈ sep, isSeparator c)
      (e : WrittenEntry) (hrest : Writes es rest) (hedge : ∀ c ∈ rest.head?, isSeparator c) :
      Writes (e :: es) (sep ++ (e.chars ++ rest))

/-! ### Reading entries -/

theorem entriesFrom_skip (cs rest : List Char) :
    entriesFrom cs.length (cs ++ rest) = entriesFrom 0 rest := by
  induction cs with
  | nil => rfl
  | cons c cs ih => exact ih

theorem entriesFrom_separators {sep : List Char} (hsep : ∀ c ∈ sep, isSeparator c)
    (rest : List Char) : entriesFrom 0 (sep ++ rest) = entriesFrom 0 rest := by
  induction sep with
  | nil => rfl
  | cons c sep ih =>
    obtain ⟨hc, hsep⟩ := List.forall_mem_cons.mp hsep
    have houtside := outside_of_isSeparator hc
    have hquote := not_isQuote_of_plain houtside.toPlain
    have hnone : entryAt? (c :: (sep ++ rest)) = none := by
      simp [entryAt?, dropQuote, hquote, houtside.keyChar]
    rw [List.cons_append, entriesFrom, hnone]
    exact ih hsep

theorem entriesFrom_entry (e : WrittenEntry) {rest : List Char}
    (hrest : ∀ c ∈ rest.head?, isSeparator c) :
    entriesFrom 0 (e.chars ++ rest) = (e.key, e.value.value) :: entriesFrom 0 rest := by
  have hread := e.entryAt?_append hrest
  obtain ⟨c, cs, hchars⟩ := List.exists_cons_of_ne_nil e.chars_ne_nil
  have hlength : (cs ++ rest).length - rest.length = cs.length := by
    rw [List.length_append, Nat.add_sub_cancel]
  rw [hchars, List.cons_append] at hread ⊢
  rw [entriesFrom, hread]
  simp only [hlength, entriesFrom_skip]

theorem entriesFrom_writes {es : List WrittenEntry} {body : List Char} (h : Writes es body) :
    entriesFrom 0 body = es.map fun e => (e.key, e.value.value) := by
  induction h with
  | done hsep =>
    have hnone := entriesFrom_separators hsep []
    rwa [List.append_nil] at hnone
  | entry hsep e _ hedge ih =>
    rw [entriesFrom_separators hsep, entriesFrom_entry e hedge, ih, List.map_cons]

/-! ### Balanced braces -/

theorem items_entry (e : WrittenEntry) {rest : List Char} (hrest : Items rest) :
    Items (e.chars ++ rest) := by
  have hkey : ∀ c ∈ e.key.toList, Plain c := fun c hc => plain_of_isKeyChar (e.key_chars c hc)
  have hvalue : ∀ c ∈ ':' :: (e.gap ++ e.value.chars), Plain c := by
    refine List.forall_mem_cons.mpr ⟨by decide, fun c hc => ?_⟩
    rcases List.mem_append.mp hc with hgap | hvalue
    · have hseparator : isSeparator c := by simp [isSeparator, e.gap_blank c hgap]
      exact (outside_of_isSeparator hseparator).toPlain
    · exact plain_of_isKeyChar (e.value.isKeyChar_of_mem hvalue)
  cases hquote : e.quote with
  | none =>
    refine Items.plain_append (fun c hc => ?_) hrest
    simp only [WrittenEntry.chars, WrittenEntry.tail, hquote, Option.toList_none,
      List.nil_append] at hc
    rcases List.mem_append.mp hc with hc | hc
    · exact hkey c hc
    · exact hvalue c hc
  | some q =>
    have hq : isStringQuote q := isStringQuote_of_isQuote (e.quote_isQuote q hquote)
    have hchars : e.chars ++ rest =
        q :: (e.key.toList ++ q :: (':' :: (e.gap ++ e.value.chars) ++ rest)) := by
      simp [WrittenEntry.chars, WrittenEntry.tail, hquote]
    rw [hchars]
    refine .quoted hq (fun c hc => ⟨?_, (hkey c hc).backslash⟩) (Items.plain_append hvalue hrest)
    rintro rfl
    simp [(hkey c hc).quote] at hq

theorem items_writes {es : List WrittenEntry} {body : List Char} (h : Writes es body) :
    Items body := by
  have hplain : ∀ {sep : List Char}, (∀ c ∈ sep, isSeparator c) → ∀ c ∈ sep, Plain c :=
    fun hsep c hc => (outside_of_isSeparator (hsep c hc)).toPlain
  induction h with
  | @done sep hsep => simpa using Items.plain_append (hplain hsep) .nil
  | entry hsep e _ _ ih => exact Items.plain_append (hplain hsep) (items_entry e ih)

/-- The block of written entries ends with its own brace, whatever comes after it. -/
theorem block?_writes {es : List WrittenEntry} {body : List Char} (h : Writes es body)
    (after : List Char) :
    block? ('\x7b' :: (body ++ '\x7d' :: after)) = some ('\x7b' :: (body ++ ['\x7d'])) :=
  block?_items (items_writes h) after

/-- Written entries are read back, each one of them once. -/
theorem entriesOf_writes {es : List WrittenEntry} {body : List Char} (h : Writes es body)
    (hkeys : (es.map (·.key)).Nodup) : entriesOf ('\x7b' :: (body ++ ['\x7d'])) =
      es.map fun e => (e.key, e.value.value) := by
  have hbody : (('\x7b' :: (body ++ ['\x7d'])).drop 1).dropLast = body := by
    rw [List.drop_one, List.tail_cons, List.dropLast_concat]
  rw [entriesOf, hbody, entriesFrom_writes h]
  refine Table.ofPairs_of_nodup ?_
  rwa [Table.keys, List.map_map]

end DesignTokens.Drift
