import DesignTokens.Proofs.Text.Patterns

/-!
What patterns spell. A pattern that asks nothing of its surroundings fits just where a stretch stands
that it spells; the conditions of other patterns are met or not at a place.
-/
namespace DesignTokens.Text

/-! ### Stretches -/

/-- A stretch of text stands between two places. -/
def Place.Spans (p : Place) (cs : List Char) (q : Place) : Prop :=
  ∃ rest, p.rest = cs ++ rest ∧ q = p.after cs rest

namespace Place

variable {p q : Place} {cs ds : List Char}

theorem after_append (p : Place) (cs ds rest : List Char) :
    (p.after cs (ds ++ rest)).after ds rest = p.after (cs ++ ds) rest := by
  simp [Place.after, Nat.add_assoc, Option.or_assoc]

theorem spans_nil : p.Spans [] q ↔ q = p := by
  constructor
  · rintro ⟨rest, hrest, rfl⟩
    obtain ⟨offset, before, _⟩ := p
    obtain rfl : _ = rest := hrest
    rfl
  · rintro rfl
    exact ⟨q.rest, rfl, rfl⟩

theorem spans_append : p.Spans (cs ++ ds) q ↔ ∃ m, p.Spans cs m ∧ m.Spans ds q := by
  constructor
  · rintro ⟨rest, hrest, rfl⟩
    rw [List.append_assoc] at hrest
    exact ⟨_, ⟨ds ++ rest, hrest, rfl⟩, rest, rfl, (after_append ..).symm⟩
  · rintro ⟨_, ⟨_, hrest, rfl⟩, rest, rfl, rfl⟩
    exact ⟨rest, by rw [hrest, List.append_assoc], after_append ..⟩

theorem passes_iff_spans {test : Char → Bool} :
    p.Passes test q ↔ ∃ cs, (∀ c ∈ cs, test c) ∧ p.Spans cs q := by
  constructor
  · rintro ⟨cs, rest, hrest, hcs, rfl⟩
    exact ⟨cs, hcs, rest, hrest, rfl⟩
  · rintro ⟨cs, hcs, rest, hrest, rfl⟩
    exact ⟨cs, rest, hrest, hcs, rfl⟩

/-- A place of a text is reached over what stands before it. -/
theorem isOf_iff {text : String} : p.IsOf text ↔ ∃ cs, (start text.toList).Spans cs p := by
  simp [IsOf, passes_iff_spans]

theorem spans_of_rest {rest : List Char} (h : p.rest = cs ++ rest) :
    p.Spans cs (p.after cs rest) := ⟨rest, h, rfl⟩

/-- The character before the end of a stretch is its last one. -/
theorem Spans.before_eq (h : p.Spans cs q) : q.before = cs.getLast?.or p.before := by
  obtain ⟨rest, -, rfl⟩ := h
  rfl

/-- What stands before the end does not count where the stretch ends in another one. -/
theorem Spans.before_eq_of_append (h : p.Spans (cs ++ ds) q) (hne : ds ≠ []) :
    q.before = ds.getLast? := by
  rw [h.before_eq, List.getLast?_append, List.getLast?_eq_some_getLast hne]
  rfl

theorem Spans.rest_eq (h : p.Spans cs q) : p.rest = cs ++ q.rest := by
  obtain ⟨rest, hrest, rfl⟩ := h
  exact hrest

end Place

namespace Pattern

/-! ### Spelling -/

/-- The stretches that a pattern spells, for a pattern that asks nothing of its surroundings. -/
def Spells : Pattern → List Char → Prop
  | .empty, cs => cs = []
  | .one test, cs => ∃ c, test c ∧ cs = [c]
  | .seq a b, cs => ∃ xs ys, a.Spells xs ∧ b.Spells ys ∧ cs = xs ++ ys
  | .alt a b, cs => a.Spells cs ∨ b.Spells cs
  | .many test, cs | .few test, cs => ∀ c ∈ cs, test c
  | .notAfter _, _ | .notBefore _, _ | .notAhead _, _ | .lineStart, _ | .wordEdge, _ => False

/-- A pattern asks nothing of its surroundings. -/
def IsFree : Pattern → Prop
  | .seq a b | .alt a b => a.IsFree ∧ b.IsFree
  | .empty | .one _ | .many _ | .few _ => True
  | .notAfter _ | .notBefore _ | .notAhead _ | .lineStart | .wordEdge => False

theorem fits_iff_spells {a : Pattern} (ha : a.IsFree) {p q : Place} :
    a.Fits p q ↔ ∃ cs, a.Spells cs ∧ p.Spans cs q := by
  induction a generalizing p q with
  | empty => simp [Fits, Spells, Place.spans_nil]
  | one test =>
    simp only [Fits, Spells]
    constructor
    · rintro ⟨c, cs, hrest, hc, rfl⟩
      exact ⟨[c], ⟨c, hc, rfl⟩, cs, hrest, rfl⟩
    · rintro ⟨_, ⟨c, hc, rfl⟩, cs, hrest, rfl⟩
      exact ⟨c, cs, hrest, hc, rfl⟩
  | seq a b iha ihb =>
    simp only [Fits, Spells, iha ha.1, ihb ha.2]
    constructor
    · rintro ⟨m, ⟨xs, hxs, hm⟩, ys, hys, hq⟩
      exact ⟨_, ⟨xs, ys, hxs, hys, rfl⟩, Place.spans_append.mpr ⟨m, hm, hq⟩⟩
    · rintro ⟨_, ⟨xs, ys, hxs, hys, rfl⟩, hq⟩
      obtain ⟨m, hm, hq⟩ := Place.spans_append.mp hq
      exact ⟨m, ⟨xs, hxs, hm⟩, ys, hys, hq⟩
  | alt a b iha ihb =>
    simp only [Fits, Spells, iha ha.1, ihb ha.2, or_and_right, exists_or]
  | many test | few test => exact Place.passes_iff_spans
  | notAfter | notBefore | notAhead | lineStart | wordEdge => exact ha.elim

section

variable {cs : List Char}

@[simp] theorem spells_char {c : Char} : (char c).Spells cs ↔ cs = [c] := by
  simp [char, Spells]

theorem spells_all_cons {a : Pattern} {as : List Pattern} : (all (a :: as)).Spells cs ↔
    ∃ xs ys, a.Spells xs ∧ (all as).Spells ys ∧ cs = xs ++ ys := by
  cases as with
  | nil => simp [all, Spells]
  | cons b bs => rfl

@[simp] theorem spells_literal {s : String} : (literal s).Spells cs ↔ cs = s.toList := by
  rw [literal]
  generalize s.toList = ds
  induction ds generalizing cs with
  | nil => rfl
  | cons d ds ih => simp [spells_all_cons, ih]

@[simp] theorem spells_optional {a : Pattern} :
    (optional a).Spells cs ↔ cs = [] ∨ a.Spells cs :=
  or_comm

/-- What may be there is spelled by an item that may be there. -/
theorem spells_optional_iff_exists {α : Type} {a : Pattern} {good : α → Prop}
    {f : α → List Char} (h : ∀ cs, a.Spells cs ↔ ∃ x, good x ∧ cs = f x) :
    (optional a).Spells cs ↔ ∃ o : Option α, (∀ x ∈ o, good x) ∧ cs = o.elim [] f := by
  rw [spells_optional, h]
  constructor
  · rintro (rfl | ⟨x, hx, rfl⟩)
    · exact ⟨none, by simp, rfl⟩
    · exact ⟨some x, by simpa using hx, rfl⟩
  · rintro ⟨o, ho, rfl⟩
    cases o with
    | none => exact .inl rfl
    | some x => exact .inr ⟨x, ho x rfl, rfl⟩

@[simp] theorem spells_some' {test : Char → Bool} :
    (some' test).Spells cs ↔ cs ≠ [] ∧ ∀ c ∈ cs, test c := by
  simp only [some', Spells]
  constructor
  · rintro ⟨_, ys, ⟨c, hc, rfl⟩, hys, rfl⟩
    exact ⟨List.cons_ne_nil _ _, List.forall_mem_cons.mpr ⟨hc, hys⟩⟩
  · rintro ⟨hne, hcs⟩
    obtain ⟨c, ys, rfl⟩ := List.exists_cons_of_ne_nil hne
    obtain ⟨hc, hys⟩ := List.forall_mem_cons.mp hcs
    exact ⟨[c], ys, ⟨c, hc, rfl⟩, hys, rfl⟩

@[simp] theorem spells_blanks : blanks.Spells cs ↔ ∀ c ∈ cs, isBlank c := Iff.rfl

@[simp] theorem spells_someBlanks : someBlanks.Spells cs ↔ cs ≠ [] ∧ ∀ c ∈ cs, isBlank c :=
  spells_some'

@[simp] theorem spells_oneOf {names : List String} (hnames : names ≠ []) :
    (oneOf names).Spells cs ↔ ∃ n ∈ names, cs = n.toList := by
  induction names with
  | nil => exact absurd rfl hnames
  | cons n names ih =>
    cases names with
    | nil => simp [oneOf, any]
    | cons m ms =>
      have hrest := ih (List.cons_ne_nil _ _)
      rw [List.exists_mem_cons_iff, ← hrest, ← spells_literal]
      rfl

end

/-! ### Patterns that ask nothing of their surroundings -/

theorem isFree_all {as : List Pattern} (has : ∀ a ∈ as, a.IsFree) : (all as).IsFree := by
  induction as with
  | nil => trivial
  | cons a as ih =>
    obtain ⟨ha, has⟩ := List.forall_mem_cons.mp has
    cases as with
    | nil => exact ha
    | cons b bs => exact ⟨ha, ih has⟩

theorem isFree_any {as : List Pattern} (has : ∀ a ∈ as, a.IsFree) : (any as).IsFree := by
  induction as with
  | nil => trivial
  | cons a as ih =>
    obtain ⟨ha, has⟩ := List.forall_mem_cons.mp has
    cases as with
    | nil => exact ha
    | cons b bs => exact ⟨ha, ih has⟩

@[simp] theorem isFree_char (c : Char) : (char c).IsFree := trivial

@[simp] theorem isFree_literal (s : String) : (literal s).IsFree :=
  isFree_all (by simp)

@[simp] theorem isFree_oneOf (names : List String) : (oneOf names).IsFree :=
  isFree_any (by simp)

@[simp] theorem isFree_optional {a : Pattern} : (optional a).IsFree ↔ a.IsFree :=
  and_iff_left trivial

@[simp] theorem isFree_some' (test : Char → Bool) : (some' test).IsFree := ⟨trivial, trivial⟩

/-! ### Sequences -/

theorem fits_all_cons {a : Pattern} {as : List Pattern} {p q : Place} :
    (all (a :: as)).Fits p q ↔ ∃ m, a.Fits p m ∧ (all as).Fits m q := by
  cases as with
  | nil => simp [all, Fits]
  | cons b bs => rfl

theorem fits_all_append (as bs : List Pattern) {p q : Place} :
    (all (as ++ bs)).Fits p q ↔ ∃ m, (all as).Fits p m ∧ (all bs).Fits m q := by
  induction as generalizing p with
  | nil => simp [all, Fits]
  | cons a as ih =>
    rw [List.cons_append, fits_all_cons]
    simp only [ih, fits_all_cons]
    constructor
    · rintro ⟨m, hm, n, hn, hq⟩
      exact ⟨n, ⟨m, hm, hn⟩, hq⟩
    · rintro ⟨n, ⟨m, hm, hn⟩, hq⟩
      exact ⟨m, hm, n, hn, hq⟩

/-- A pattern is found if it fits wherever the rest of the text stands. -/
theorem found_of_rest {a : Pattern} {rest : List Char}
    (h : ∀ p : Place, p.rest = rest → ∃ q, a.Fits p q) (before : List Char) :
    a.found (String.ofList (before ++ rest)) := by
  let p : Place := (Place.start (before ++ rest)).after before rest
  obtain ⟨q, hq⟩ := h p rfl
  refine found_iff.mpr ⟨p, q, Place.isOf_iff.mpr ⟨before, ?_⟩, hq⟩
  rw [String.toList_ofList]
  exact Place.spans_of_rest rfl

end Pattern

end DesignTokens.Text
