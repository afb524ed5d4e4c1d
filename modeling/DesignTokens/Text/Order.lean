/-!
Texts in order: by code points, and each one once.
-/
namespace DesignTokens.Text

/-- The order of code points. -/
def le (a b : String) : Bool := decide (a ≤ b)

def sorted (xs : List String) : List String := xs.mergeSort le

/-- Each text once, in the order of first occurrence. -/
def distinct : List String → List String
  | [] => []
  | x :: xs => x :: (distinct xs).filter (· != x)

theorem mem_distinct {x : String} {xs : List String} : x ∈ distinct xs ↔ x ∈ xs := by
  induction xs with
  | nil => simp [distinct]
  | cons y ys ih =>
    by_cases h : x = y <;> simp [distinct, ih, h]

theorem nodup_distinct (xs : List String) : (distinct xs).Nodup := by
  induction xs with
  | nil => simp [distinct]
  | cons y ys ih =>
    simp only [distinct, List.nodup_cons, List.mem_filter, bne_self_eq_false, Bool.false_eq_true,
      and_false, not_false_eq_true, true_and]
    exact List.Pairwise.filter _ ih

/-- Each text once, in order. -/
def sortedDistinct (xs : List String) : List String := sorted (distinct xs)

/-- Each text that occurs more than once, in order. -/
def repeated (xs : List String) : List String :=
  sortedDistinct (xs.filter fun x => decide (1 < xs.count x))

end DesignTokens.Text
