import DesignTokens.Diagnostic
import DesignTokens.Registry.Component
import DesignTokens.Text.Quoted

/-!
Combinations of axis values, and their places in a grid. Some axes index the rows and the others the
columns; a row or column number is the mixed radix number of the places of its axes' values.
-/
namespace DesignTokens.Matrix

/-- A value for each axis, in the order of declaration. -/
abbrev Combination := Table AxisValue

/-- All ways to take one item from each list; the last list varies fastest. -/
def product {α : Type} : List (List α) → List (List α)
  | [] => [[]]
  | xs :: rest => xs.flatMap fun x => (product rest).map (x :: ·)

@[simp] theorem length_of_mem_product {α : Type} {xss : List (List α)} {ys : List α}
    (h : ys ∈ product xss) : ys.length = xss.length := by
  induction xss generalizing ys with
  | nil => simp [product] at h; simp [h]
  | cons xs xss ih =>
    simp only [product, List.mem_flatMap, List.mem_map] at h
    obtain ⟨x, _, zs, hzs, rfl⟩ := h
    simp [ih hzs]

/-- Every combination of the values of some axes. -/
def combinations (axes : List VariantAxis) : List Combination :=
  (product (axes.map (·.values))).map fun vs => (axes.map (·.name)).zip vs

/-- `axis=value, axis=value` -/
def label (c : Combination) : String :=
  String.intercalate ", " (c.map fun (name, v) => name ++ "=" ++ v.key)

/-- The part of a combination that some axes take. -/
def restrict (axes : List VariantAxis) (c : Combination) : Combination :=
  axes.filterMap fun a => (Table.get? a.name c).map fun v => (a.name, v)

/-- Which axes index rows and which index columns, both in the order of declaration. -/
structure Assignment where
  rowAxes : List VariantAxis
  colAxes : List VariantAxis
  deriving DecidableEq, Repr

/-- Names that a component does not have as axes. -/
structure UnknownAxes where
  component : String
  names : List String
  declared : List String
  deriving DecidableEq, Repr

def UnknownAxes.diagnostic (u : UnknownAxes) : Diagnostic :=
  .configuration
    (u.component ++ ": row axes " ++ Text.quoteList u.names ++ " are not variant axes")
    "matrix.rowAxes" (some ("one of " ++ Text.quoteList u.declared))
    (some ("Use axis names declared by " ++ u.component))

/-- Splits the axes of a component. Without a wish the first axis alone indexes rows; the order in
which axes are wished for does not count. -/
def assign (c : Component) (wished : Option (List String)) : Except UnknownAxes Assignment :=
  let declared := c.axes.map (·.name)
  match wished with
  | none => .ok ⟨c.axes.take 1, c.axes.drop 1⟩
  | some names =>
    let unknown := names.filter fun n => !declared.contains n
    if unknown.isEmpty then
      .ok ⟨c.axes.filter fun a => names.contains a.name,
        c.axes.filter fun a => !names.contains a.name⟩
    else .error ⟨c.name, unknown, declared⟩

/-- The number of tracks that some axes make. -/
def trackCount (axes : List VariantAxis) : Nat :=
  axes.foldl (fun n a => n * a.values.length) 1

/-- The place of a combination among the tracks of some axes. -/
def trackIndex (axes : List VariantAxis) (c : Combination) : Nat :=
  axes.foldl (fun n a => n * a.values.length +
    ((Table.get? a.name c).bind fun v => a.indexOf? v.key).getD 0) 0

/-- The labels of the tracks of some axes, in order. -/
def trackLabels (axes : List VariantAxis) : List String := (combinations axes).map label

end DesignTokens.Matrix
