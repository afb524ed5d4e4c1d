import DesignTokens.Drift.Violation
import Mathlib.Data.Prod.Lex
import Mathlib.Data.String.Basic

/-!
Sorted violations. Sorting keeps the order of violations that stand at one place and are of one rule,
so a sorted list is known from what stands at each place, and in which order.
-/
namespace DesignTokens.Drift

/-! ### Sorting by a key -/

section SortedBy

variable {α κ : Type} [LinearOrder κ] {key : α → κ}

/-- Sorted by a key; items with one key stay in their order. -/
def sortedBy (key : α → κ) (xs : List α) : List α :=
  xs.mergeSort fun a b => decide (key a ≤ key b)

theorem keyLe_trans (a b c : α) (hab : decide (key a ≤ key b) = true)
    (hbc : decide (key b ≤ key c) = true) : decide (key a ≤ key c) = true :=
  decide_eq_true ((of_decide_eq_true hab).trans (of_decide_eq_true hbc))

theorem keyLe_total (a b : α) : (decide (key a ≤ key b) || decide (key b ≤ key a)) = true := by
  simpa using le_total (key a) (key b)

theorem sortedBy_perm (xs : List α) : (sortedBy key xs).Perm xs := List.mergeSort_perm xs _

theorem pairwise_sortedBy (xs : List α) : (sortedBy key xs).Pairwise fun a b => key a ≤ key b :=
  (List.pairwise_mergeSort keyLe_trans keyLe_total xs).imp of_decide_eq_true

theorem filter_sortedBy (k : κ) (xs : List α) :
    (sortedBy key xs).filter (fun a => decide (key a = k)) =
      xs.filter fun a => decide (key a = k) := by
  have hclass : (xs.filter fun a => decide (key a = k)).Pairwise fun a b =>
      decide (key a ≤ key b) = true := by
    refine List.pairwise_of_forall_mem_list fun a ha b hb => decide_eq_true (le_of_eq ?_)
    rw [of_decide_eq_true (List.mem_filter.mp ha).2, of_decide_eq_true (List.mem_filter.mp hb).2]
  have hkept : (xs.filter fun a => decide (key a = k)).Sublist (sortedBy key xs) :=
    List.sublist_mergeSort keyLe_trans keyLe_total hclass List.filter_sublist
  have hsub := hkept.filter fun a => decide (key a = k)
  simp only [List.filter_filter, Bool.and_self] at hsub
  exact (hsub.eq_of_length ((sortedBy_perm xs).filter _).length_eq.symm).symm

/-- The first items of two sorted lists have one key, if the same keys occur in both. -/
theorem key_le_of_filter_eq {x y : α} {xs ys : List α}
    (hx : (x :: xs).Pairwise fun a b => key a ≤ key b)
    (h : (x :: xs).filter (fun a => decide (key a = key y)) =
      (y :: ys).filter fun a => decide (key a = key y)) : key x ≤ key y := by
  have hy : y ∈ (x :: xs).filter fun a => decide (key a = key y) :=
    h ▸ List.mem_filter.mpr ⟨List.mem_cons_self, decide_eq_true rfl⟩
  rcases List.mem_cons.mp (List.mem_of_mem_filter hy) with rfl | hy
  · exact le_rfl
  · exact List.rel_of_pairwise_cons hx hy

/-- A sorted list is known from its items of each key. -/
theorem eq_of_filter_eq {xs ys : List α} (hxs : xs.Pairwise fun a b => key a ≤ key b)
    (hys : ys.Pairwise fun a b => key a ≤ key b)
    (h : ∀ k, xs.filter (fun a => decide (key a = k)) = ys.filter fun a => decide (key a = k)) :
    xs = ys := by
  induction xs generalizing ys with
  | nil =>
    cases ys with
    | nil => rfl
    | cons y ys => simpa using h (key y)
  | cons x xs ih =>
    cases ys with
    | nil => simpa using h (key x)
    | cons y ys =>
      have hkey : key x = key y :=
        le_antisymm (key_le_of_filter_eq hxs (h (key y))) (key_le_of_filter_eq hys (h (key x)).symm)
      have hhead := h (key x)
      simp only [List.filter_cons, ← hkey, decide_true, ↓reduceIte, List.cons.injEq] at hhead
      obtain ⟨rfl, -⟩ := hhead
      refine congrArg (x :: ·) (ih hxs.of_cons hys.of_cons fun k => ?_)
      have hk := h k
      rw [List.filter_cons, List.filter_cons] at hk
      split at hk
      · exact (List.cons.inj hk).2
      · exact hk

theorem sortedBy_eq_of_filter_eq {xs ys : List α}
    (h : ∀ k, xs.filter (fun a => decide (key a = k)) = ys.filter fun a => decide (key a = k)) :
    sortedBy key xs = sortedBy key ys := by
  refine eq_of_filter_eq (pairwise_sortedBy xs) (pairwise_sortedBy ys) fun k => ?_
  rw [filter_sortedBy, filter_sortedBy, h k]

end SortedBy

/-- Lists of which at most one has items can be joined in any order. -/
theorem flatMap_eq_of_perm {α β : Type} {f : α → List β} {xs ys : List α} (h : xs.Perm ys)
    (hxs : xs.Pairwise fun x y => f x = [] ∨ f y = []) : xs.flatMap f = ys.flatMap f := by
  induction h with
  | nil => rfl
  | cons x _ ih => rw [List.flatMap_cons, List.flatMap_cons, ih hxs.of_cons]
  | swap x y zs =>
    simp only [List.flatMap_cons]
    rcases List.rel_of_pairwise_cons hxs List.mem_cons_self with hempty | hempty <;> simp [hempty]
  | trans h _ ih ih' =>
    rw [ih hxs, ih' ((h.pairwise_iff Or.symm).mp hxs)]

/-! ### Violations by their places -/

namespace Violation

/-- The place of a violation, and its rule. -/
def key (v : Violation) : String ×ₗ ℤ ×ₗ String := toLex (v.file, toLex (v.line.getD 0, v.ruleId))

theorem le_eq : Violation.le = fun a b => decide (a.key ≤ b.key) := by
  funext a b
  rw [Bool.eq_iff_iff, decide_eq_true_iff, key, key, Prod.Lex.toLex_le_toLex,
    Prod.Lex.toLex_le_toLex, le]
  split
  · rename_i hfile
    simp [hfile, le_iff_lt_or_eq]
  · rename_i hfile
    rw [not_ne_iff] at hfile
    split
    · rename_i hline
      simp [hfile, hline, le_iff_lt_or_eq]
    · rename_i hline
      rw [not_ne_iff] at hline
      simp [hfile, hline]

theorem sorted_eq (vs : List Violation) : sorted vs = sortedBy key vs := by
  rw [sorted, le_eq]
  rfl

end Violation

end DesignTokens.Drift
