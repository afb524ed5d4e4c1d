import DesignTokens.Text.Pattern
import Mathlib.Data.List.Basic

/-!
What patterns fit. A repetition takes all that it can when the rest fits after that, and a search
passes over the places where the pattern does not fit. A pattern is found in a text just if it fits
a stretch of it, whichever stretch the search tries first.
-/
namespace DesignTokens.Text

/-! ### Runs of a pattern -/

/-- The last character before a place, once one more has been passed over. -/
theorem getLast?_or_cons (c : Char) (cs : List Char) (before : Option Char) :
    (c :: cs).getLast?.or before = cs.getLast?.or (some c) := by
  rw [List.getLast?_cons]
  cases cs.getLast? <;> rfl

/-- The place after a stretch of text. -/
def Place.after (p : Place) (cs rest : List Char) : Place :=
  ⟨p.offset + cs.length, cs.getLast?.or p.before, rest⟩

@[simp] theorem Place.rest_after (p : Place) (cs rest : List Char) : (p.after cs rest).rest = rest :=
  rfl

theorem Place.after_next (p : Place) (c : Char) (cs rest : List Char) :
    (p.next c (cs ++ rest)).after cs rest = p.after (c :: cs) rest := by
  simp only [Place.after, Place.next, getLast?_or_cons, List.length_cons, Nat.add_assoc,
    Nat.add_comm 1]

/-- The longest repetition counts if what comes after it fits. -/
theorem takeMany_append {test : Char → Bool} {k : Place → Option Place} {cs rest : List Char}
    (hcs : ∀ c ∈ cs, test c) (hrest : ∀ c ∈ rest.head?, test c = false) (p : Place) {r : Place}
    (hk : k (p.after cs rest) = some r) :
    takeMany test k p.offset p.before (cs ++ rest) = some r := by
  induction cs generalizing p with
  | nil =>
    have hplace : p.after [] rest = ⟨p.offset, p.before, rest⟩ := rfl
    rw [hplace] at hk
    cases rest with
    | nil => exact hk
    | cons c rest =>
      have hc := hrest c rfl
      rw [List.nil_append, takeMany, hc]
      exact hk
  | cons c cs ih =>
    obtain ⟨hc, hcs⟩ := List.forall_mem_cons.mp hcs
    have hrun := ih hcs (p.next c (cs ++ rest)) (by rwa [Place.after_next])
    have hstep : takeMany test k (p.offset + 1) (some c) (cs ++ rest) = some r := hrun
    rw [List.cons_append, takeMany, if_pos hc, hstep]

namespace Pattern

variable {k : Place → Option Place}

theorem run_all_cons (a : Pattern) (as : List Pattern) (p : Place) :
    (all (a :: as)).run k p = a.run ((all as).run k) p := by
  cases as <;> rfl

/-- A text fits where it stands, and the rest goes on after it. -/
theorem run_chars (cs rest : List Char) (p : Place) (hp : p.rest = cs ++ rest) :
    (all (cs.map char)).run k p = k (p.after cs rest) := by
  induction cs generalizing p with
  | nil =>
    obtain ⟨offset, before, _⟩ := p
    obtain rfl : _ = rest := hp
    rfl
  | cons c cs ih =>
    have hone : (char c).run ((all (cs.map char)).run k) p =
        (all (cs.map char)).run k (p.next c (cs ++ rest)) := by
      simp [char, run, hp]
    rw [List.map_cons, run_all_cons, hone, ih (p.next c (cs ++ rest)) rfl, Place.after_next]

/-- Where a text fits it stands. -/
theorem starts_of_run_chars {cs : List Char} {p r : Place}
    (h : (all (cs.map char)).run k p = some r) : cs <+: p.rest := by
  induction cs generalizing p with
  | nil => exact List.nil_prefix
  | cons c cs ih =>
    rw [List.map_cons, run_all_cons, char, run] at h
    split at h
    · rename_i d ds hrest
      split at h
      · rename_i hsame
        rw [hrest, ← beq_iff_eq.mp hsame]
        exact (List.prefix_cons_inj d).mpr (ih h)
      · cases h
    · cases h

/-- The longest repetition counts if what comes after it fits. -/
theorem run_many {test : Char → Bool} {cs rest : List Char} (hcs : ∀ c ∈ cs, test c)
    (hrest : ∀ c ∈ rest.head?, test c = false) {p r : Place} (hp : p.rest = cs ++ rest)
    (hk : k (p.after cs rest) = some r) : (many test).run k p = some r := by
  rw [run, hp]
  exact takeMany_append hcs hrest p hk

/-- A search passes over a stretch at no place of which the pattern fits. -/
theorem searchFrom_append {a : Pattern} {cs rest : List Char}
    (h : ∀ p : Place, ∀ part, part ≠ [] → part <:+ cs → p.rest = part ++ rest → a.endAt? p = none)
    (offset : Nat) (before : Option Char) : a.searchFrom offset before (cs ++ rest) =
      a.searchFrom (offset + cs.length) (cs.getLast?.or before) rest := by
  induction cs generalizing offset before with
  | nil => rfl
  | cons c cs ih =>
    have hnone := h ⟨offset, before, c :: (cs ++ rest)⟩ (c :: cs) (List.cons_ne_nil _ _)
      List.suffix_rfl rfl
    have hstep := ih (fun p part hne hpart => h p part hne (hpart.trans (List.suffix_cons c cs)))
      (offset + 1) (some c)
    rw [List.cons_append, searchFrom, hnone]
    simp only [hstep, getLast?_or_cons, List.length_cons, Nat.add_assoc, Nat.add_comm 1]

theorem searchFrom_of_endAt? {a : Pattern} {offset : Nat} {before : Option Char} {rest : List Char}
    {e : Place} (h : a.endAt? ⟨offset, before, rest⟩ = some e) :
    a.searchFrom offset before rest = some (⟨offset, before, rest⟩, e) := by
  cases rest with
  | nil => rw [searchFrom, h]; rfl
  | cons c cs => rw [searchFrom, h]

end Pattern

/-! ### Stretches that fit -/

/-- The second place is reached from the first one over characters that satisfy a test. -/
def Place.Passes (test : Char → Bool) (p q : Place) : Prop :=
  ∃ cs rest, p.rest = cs ++ rest ∧ (∀ c ∈ cs, test c) ∧ q = p.after cs rest

theorem Place.Passes.refl (test : Char → Bool) (p : Place) : Passes test p p :=
  ⟨[], p.rest, rfl, List.forall_mem_nil _, rfl⟩

/-- One character more, or none at all. -/
theorem Place.passes_cons (test : Char → Bool) {p q : Place} {c : Char} {cs : List Char}
    (hp : p.rest = c :: cs) :
    Passes test p q ↔ q = p ∨ (test c ∧ Passes test (p.next c cs) q) := by
  constructor
  · rintro ⟨part, rest, hrest, hpart, rfl⟩
    cases part with
    | nil =>
      obtain rfl : p.rest = rest := hrest
      exact .inl rfl
    | cons d part =>
      obtain ⟨rfl, rfl⟩ := List.cons.inj (hp.symm.trans hrest)
      obtain ⟨hd, hpart⟩ := List.forall_mem_cons.mp hpart
      exact .inr ⟨hd, part, rest, rfl, hpart, (Place.after_next ..).symm⟩
  · rintro (rfl | ⟨hc, part, rest, hrest, hpart, rfl⟩)
    · exact .refl test _
    · obtain rfl : cs = part ++ rest := hrest
      exact ⟨c :: part, rest, hp, List.forall_mem_cons.mpr ⟨hc, hpart⟩, Place.after_next ..⟩

theorem Place.passes_nil {test : Char → Bool} {p q : Place} (hp : p.rest = []) :
    Passes test p q ↔ q = p := by
  constructor
  · rintro ⟨part, rest, hrest, -, rfl⟩
    obtain ⟨rfl, rfl⟩ := List.append_eq_nil_iff.mp (hrest.symm.trans hp)
    obtain ⟨offset, before, _⟩ := p
    obtain rfl : _ = [] := hp
    rfl
  · rintro rfl
    exact .refl test _

/-- A place of a text. -/
def Place.IsOf (text : String) (p : Place) : Prop :=
  (Place.start text.toList).Passes (fun _ => true) p

/-- Whether the longest stretch is tried first or the shortest, one of them must suit `k`. -/
theorem isSome_takeMany_iff {test : Char → Bool} {k : Place → Option Place} (p : Place) :
    (takeMany test k p.offset p.before p.rest).isSome ↔
      ∃ q, p.Passes test q ∧ (k q).isSome := by
  obtain ⟨offset, before, cs⟩ := p
  induction cs generalizing offset before with
  | nil => simp [takeMany, Place.passes_nil]
  | cons c cs ih =>
    have hstep := ih (offset + 1) (some c)
    have hcons := fun q => Place.passes_cons test (q := q) (p := ⟨offset, before, c :: cs⟩) rfl
    simp only [hcons, Place.next, or_and_right, exists_or, exists_eq_left]
    rw [takeMany]
    split
    · rename_i hc
      simp only [hc, true_and]
      rw [← hstep]
      cases takeMany test k (offset + 1) (some c) cs <;> simp
    · rename_i hc
      simp [hc]

theorem isSome_takeFew_iff {test : Char → Bool} {k : Place → Option Place} (p : Place) :
    (takeFew test k p.offset p.before p.rest).isSome ↔ ∃ q, p.Passes test q ∧ (k q).isSome := by
  obtain ⟨offset, before, cs⟩ := p
  induction cs generalizing offset before with
  | nil => simp [takeFew, Place.passes_nil]
  | cons c cs ih =>
    have hstep := ih (offset + 1) (some c)
    have hcons := fun q => Place.passes_cons test (q := q) (p := ⟨offset, before, c :: cs⟩) rfl
    simp only [hcons, Place.next, or_and_right, exists_or, exists_eq_left]
    rw [takeFew]
    split
    · rename_i hk
      simp [hk]
    · rename_i hk
      by_cases hc : test c
      · simp [hk, hc, hstep]
      · simp [hk, hc]

namespace Pattern

/-- The stretch from a place to another one fits the pattern. -/
def Fits : Pattern → Place → Place → Prop
  | .empty, p, q => q = p
  | .one test, p, q => ∃ c cs, p.rest = c :: cs ∧ test c ∧ q = p.next c cs
  | .seq a b, p, q => ∃ m, a.Fits p m ∧ b.Fits m q
  | .alt a b, p, q => a.Fits p q ∨ b.Fits p q
  | .many test, p, q => p.Passes test q
  | .few test, p, q => p.Passes test q
  | .notAfter test, p, q => ¬holds test p.before ∧ q = p
  | .notBefore test, p, q => ¬holds test p.rest.head? ∧ q = p
  | .notAhead a, p, q => (∀ m, ¬a.Fits p m) ∧ q = p
  | .lineStart, p, q => p.before.all (· == '\n') ∧ q = p
  | .wordEdge, p, q => holds isWord p.before ≠ holds isWord p.rest.head? ∧ q = p

theorem fits_one_cons {test : Char → Bool} {p q : Place} {c : Char} {cs : List Char}
    (hp : p.rest = c :: cs) : (one test).Fits p q ↔ test c ∧ q = p.next c cs := by
  constructor
  · rintro ⟨d, ds, hrest, hd, rfl⟩
    obtain ⟨rfl, rfl⟩ := List.cons.inj (hp.symm.trans hrest)
    exact ⟨hd, rfl⟩
  · rintro ⟨hc, rfl⟩
    exact ⟨c, cs, hp, hc, rfl⟩

/-- A run goes on after some stretch that fits, unless none suits what comes after it. -/
theorem isSome_run_iff (a : Pattern) (k : Place → Option Place) (p : Place) :
    (a.run k p).isSome ↔ ∃ q, a.Fits p q ∧ (k q).isSome := by
  induction a generalizing k p with
  | empty => simp [run, Fits]
  | one test =>
    rw [run]
    cases hp : p.rest with
    | nil => simp [Fits, hp]
    | cons c cs =>
      simp only [fits_one_cons hp]
      by_cases hc : test c <;> simp [hc]
  | seq a b iha ihb =>
    rw [run, iha]
    simp only [ihb, Fits]
    constructor
    · rintro ⟨m, hm, q, hq, hk⟩
      exact ⟨q, ⟨m, hm, hq⟩, hk⟩
    · rintro ⟨q, ⟨m, hm, hq⟩, hk⟩
      exact ⟨m, hm, q, hq, hk⟩
  | alt a b iha ihb =>
    have hor : ((alt a b).run k p).isSome ↔ (a.run k p).isSome ∨ (b.run k p).isSome := by
      rw [run]
      cases a.run k p <;> simp
    rw [hor, iha, ihb]
    simp only [Fits, or_and_right, exists_or]
  | many test => exact isSome_takeMany_iff p
  | few test => exact isSome_takeFew_iff p
  | notAfter test => rw [run]; split <;> simp_all [Fits]
  | notBefore test => rw [run]; split <;> simp_all [Fits]
  | notAhead a ih =>
    have hahead : (a.run some p).isSome ↔ ∃ m, a.Fits p m := by
      simp [ih]
    have hnone : (∀ m, ¬a.Fits p m) ↔ ¬(a.run some p).isSome := by
      rw [hahead, not_exists]
    simp only [Fits, hnone]
    rw [run]
    split <;> simp_all
  | lineStart => rw [run]; split <;> simp_all [Fits]
  | wordEdge => rw [run]; split <;> simp_all [Fits]

/-- A pattern is found just if it fits from some place of the text on. -/
theorem found_iff {a : Pattern} {text : String} :
    a.found text ↔ ∃ p q, p.IsOf text ∧ a.Fits p q := by
  have hend : ∀ p, (a.endAt? p).isSome ↔ ∃ q, a.Fits p q := by
    intro p
    simp [endAt?, isSome_run_iff]
  have hsearch : ∀ p : Place, (a.searchFrom p.offset p.before p.rest).isSome ↔
      ∃ m q, p.Passes (fun _ => true) m ∧ a.Fits m q := by
    rintro ⟨offset, before, text⟩
    induction text generalizing offset before with
    | nil => simp [searchFrom, Place.passes_nil, hend]
    | cons c text ih =>
      have hstep := ih (offset + 1) (some c)
      have hcons := fun m => Place.passes_cons (fun _ => true) (q := m)
        (p := ⟨offset, before, c :: text⟩) rfl
      simp only [hcons, Place.next, true_and, or_and_right, exists_or, exists_and_left,
        exists_eq_left] at hstep ⊢
      rw [← hend, ← hstep, searchFrom]
      cases a.endAt? ⟨offset, before, c :: text⟩ <;> simp
  exact hsearch (Place.start text.toList)

/-! ### Choices -/

theorem fits_any_iff {as : List Pattern} (has : as ≠ []) {p q : Place} :
    (any as).Fits p q ↔ ∃ a ∈ as, a.Fits p q := by
  induction as with
  | nil => exact absurd rfl has
  | cons a as ih =>
    cases as with
    | nil => simp [any]
    | cons b bs =>
      have hrest := ih (List.cons_ne_nil _ _)
      rw [List.exists_mem_cons_iff, ← hrest]
      rfl

theorem found_any_iff {as : List Pattern} (has : as ≠ []) {text : String} :
    (any as).found text ↔ ∃ a ∈ as, a.found text := by
  simp only [found_iff, fits_any_iff has]
  constructor
  · rintro ⟨p, q, hp, a, ha, hq⟩
    exact ⟨a, ha, p, q, hp, hq⟩
  · rintro ⟨a, ha, p, q, hp, hq⟩
    exact ⟨p, q, hp, a, ha, hq⟩

end Pattern

end DesignTokens.Text
