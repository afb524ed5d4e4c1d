import DesignTokens.Matrix.Combination
import DesignTokens.Proofs.Registry.Accepted
import Mathlib.Data.Set.Card
import Mathlib.Tactic.Ring

/-!
The combinations of some axes, in the order in which they are listed, and the mixed radix number of
a combination. The number of a combination among the tracks of some axes is its place in the list of
the combinations of these axes.
-/
namespace DesignTokens.Matrix

/-- A value of its own for each axis, under the axis' name. -/
def IsCombination (axes : List VariantAxis) (v : Combination) : Prop :=
  List.Forall₂ (fun a p => p.1 = a.name ∧ p.2 ∈ a.values) axes v

/-- A combination is a value of the first axis before a combination of the others. -/
theorem isCombination_cons_iff {a : VariantAxis} {axes : List VariantAxis} {v : Combination} :
    IsCombination (a :: axes) v ↔
      ∃ x ∈ a.values, ∃ w, IsCombination axes w ∧ (a.name, x) :: w = v := by
  constructor
  · intro h
    obtain ⟨⟨_, x⟩, w, ⟨rfl, hx⟩, hw, rfl⟩ := List.forall₂_cons_left_iff.mp h
    exact ⟨x, hx, w, hw, rfl⟩
  · rintro ⟨x, hx, w, hw, rfl⟩
    exact .cons ⟨rfl, hx⟩ hw

/-- Induction over a combination, axis by axis. -/
@[elab_as_elim, induction_eliminator]
theorem IsCombination.rec'
    {motive : (axes : List VariantAxis) → (v : Combination) → IsCombination axes v → Prop}
    (nil : motive [] [] .nil)
    (cons : ∀ {a axes x v} (hx : x ∈ a.values) (hv : IsCombination axes v), motive axes v hv →
      motive (a :: axes) ((a.name, x) :: v) (.cons ⟨rfl, hx⟩ hv))
    {axes : List VariantAxis} {v : Combination} (h : IsCombination axes v) : motive axes v h := by
  induction axes generalizing v with
  | nil =>
    cases h
    exact nil
  | cons a axes ih =>
    obtain ⟨x, hx, w, hw, rfl⟩ := isCombination_cons_iff.mp h
    exact cons hx hw (ih hw)

/-- A combination has a value of each of the axes; it may have others too. -/
def Covers (axes : List VariantAxis) (v : Combination) : Prop :=
  ∀ a ∈ axes, ∃ x ∈ a.values, Table.get? a.name v = some x

/-- The place of an axis' value in a combination. -/
def digit (a : VariantAxis) (v : Combination) : Nat :=
  ((Table.get? a.name v).bind fun x => a.indexOf? x.key).getD 0

/-- The number of combinations of some axes. -/
def size (axes : List VariantAxis) : Nat := (axes.map (·.values.length)).prod

@[simp] theorem size_nil : size [] = 1 := rfl

@[simp] theorem size_cons (a : VariantAxis) (axes : List VariantAxis) :
    size (a :: axes) = a.values.length * size axes := by
  simp [size]

/-- The tuples with a key of each axis are as many as the combinations. -/
theorem ncard_keys {axes : List VariantAxis} (h : ∀ a ∈ axes, a.keys.Nodup) :
    {keys : List String | List.Forall₂ (fun key a => key ∈ a.keys) keys axes}.ncard =
      size axes := by
  induction axes with
  | nil => simp
  | cons a axes ih =>
    obtain ⟨ha, haxes⟩ := List.forall_mem_cons.mp h
    have hfirst : {key | key ∈ a.keys}.ncard = a.values.length := by
      rw [← List.coe_toFinset, Set.ncard_coe_finset, List.toFinset_card_of_nodup ha,
        VariantAxis.keys, List.length_map]
    have hcons : {keys : List String | List.Forall₂ (fun key a => key ∈ a.keys) keys (a :: axes)} =
        (fun p : String × List String => p.1 :: p.2) ''
          ({key | key ∈ a.keys} ×ˢ {keys | List.Forall₂ (fun key a => key ∈ a.keys) keys axes}) := by
      ext keys
      simp only [Set.mem_ofPred_eq, List.forall₂_cons_right_iff, Set.mem_image, Set.mem_prod,
        Prod.exists]
      constructor
      · rintro ⟨key, rest, hkey, hrest, rfl⟩
        exact ⟨key, rest, ⟨hkey, hrest⟩, rfl⟩
      · rintro ⟨key, rest, ⟨hkey, hrest⟩, rfl⟩
        exact ⟨key, rest, hkey, hrest, rfl⟩
    have hinjective : Function.Injective fun p : String × List String => p.1 :: p.2 := by
      rintro ⟨k, ks⟩ ⟨k', ks'⟩ heq
      obtain ⟨rfl, rfl⟩ := List.cons.inj heq
      rfl
    rw [hcons, Set.ncard_image_of_injective _ hinjective, Set.ncard_prod, hfirst, ih haxes, size_cons]

/-! ### The list of combinations -/

@[simp] theorem combinations_nil : combinations [] = [[]] := rfl

@[simp] theorem combinations_cons (a : VariantAxis) (axes : List VariantAxis) :
    combinations (a :: axes) =
      a.values.flatMap fun x => (combinations axes).map ((a.name, x) :: ·) := by
  simp [combinations, product, List.map_flatMap, Function.comp_def]

theorem mem_combinations {axes : List VariantAxis} {v : Combination} :
    v ∈ combinations axes ↔ IsCombination axes v := by
  induction axes generalizing v with
  | nil => simp [IsCombination]
  | cons a axes ih =>
    simp only [combinations_cons, List.mem_flatMap, List.mem_map, ih, isCombination_cons_iff]

theorem length_combinations (axes : List VariantAxis) :
    (combinations axes).length = size axes := by
  induction axes with
  | nil => rfl
  | cons a axes ih => simp [List.length_flatMap, ih]

/-- No combination is listed twice where no axis lists a value twice. -/
theorem nodup_combinations {axes : List VariantAxis} (h : ∀ a ∈ axes, a.values.Nodup) :
    (combinations axes).Nodup := by
  induction axes with
  | nil => simp
  | cons a axes ih =>
    have htail := ih fun b hb => h b (List.mem_cons_of_mem _ hb)
    rw [combinations_cons, List.nodup_flatMap]
    constructor
    · intro x _
      exact htail.map fun v w e => (List.cons.inj e).2
    · -- Two blocks differ in the value of the first axis.
      refine (h a List.mem_cons_self).imp ?_
      intro x y hne v hx hy
      obtain ⟨_, _, rfl⟩ := List.mem_map.mp hx
      obtain ⟨_, _, e⟩ := List.mem_map.mp hy
      exact hne (by simpa using (List.cons.inj e).1.symm)

/-! ### The values of a combination -/

theorem IsCombination.keys_eq {axes : List VariantAxis} {v : Combination}
    (h : IsCombination axes v) : Table.keys v = axes.map (·.name) := by
  induction h with
  | nil => rfl
  | @cons a _ x _ _ _ ih => exact congrArg (a.name :: ·) ih

theorem IsCombination.nodup_keys {axes : List VariantAxis} {v : Combination}
    (hn : (axes.map (·.name)).Nodup) (h : IsCombination axes v) : (Table.keys v).Nodup :=
  h.keys_eq ▸ hn

theorem IsCombination.covers {axes : List VariantAxis} {v : Combination}
    (hn : (axes.map (·.name)).Nodup) (h : IsCombination axes v) : Covers axes v := by
  have hkeys := h.nodup_keys hn
  have hmem : ∀ a ∈ axes, ∃ x ∈ a.values, (a.name, x) ∈ v := by
    clear hn hkeys
    induction h with
    | nil => simp
    | @cons a _ x w hx _ ih =>
      intro b hb
      rcases List.mem_cons.mp hb with rfl | hb
      · exact ⟨x, hx, List.mem_cons_self⟩
      · obtain ⟨x, hx, hm⟩ := ih b hb
        exact ⟨x, hx, List.mem_cons_of_mem _ hm⟩
  intro a ha
  obtain ⟨x, hx, hm⟩ := hmem a ha
  exact ⟨x, hx, Table.get?_of_mem hkeys hm⟩

theorem Covers.of_subset {axes fewer : List VariantAxis} {v : Combination} (h : Covers axes v)
    (hs : fewer ⊆ axes) : Covers fewer v :=
  fun a ha => h a (hs ha)

/-- Axes take from a combination what it holds for them. -/
theorem restrict_of_subset {axes : List VariantAxis} {v w : Combination}
    (hn : (Table.keys v).Nodup) (h : IsCombination axes w) (hs : w ⊆ v) : restrict axes v = w := by
  induction h with
  | nil => rfl
  | @cons a axes x w _ _ ih =>
    obtain ⟨hx, hw⟩ := List.cons_subset.mp hs
    rw [restrict, List.filterMap_cons_some (b := (a.name, x))]
    · rw [← restrict, ih hw]
    · simp [Table.get?_of_mem hn hx]

/-- A combination is told by its values. -/
theorem IsCombination.eq_of_get? {axes : List VariantAxis} {v w : Combination}
    (hn : (axes.map (·.name)).Nodup) (hv : IsCombination axes v) (hw : IsCombination axes w)
    (h : ∀ a ∈ axes, Table.get? a.name v = Table.get? a.name w) : v = w := by
  have hrestrict : restrict axes v = restrict axes w := by
    refine List.filterMap_congr ?_
    intro a ha
    rw [h a ha]
  rwa [restrict_of_subset (hv.nodup_keys hn) hv (List.Subset.refl _),
    restrict_of_subset (hw.nodup_keys hn) hw (List.Subset.refl _)] at hrestrict

/-- Axes that take the same from two combinations find the same values in them. -/
theorem get?_eq_of_restrict_eq {axes : List VariantAxis} {v w : Combination}
    (hv : Covers axes v) (h : restrict axes v = restrict axes w) :
    ∀ a ∈ axes, Table.get? a.name v = Table.get? a.name w := by
  intro a ha
  obtain ⟨x, -, hx⟩ := hv a ha
  have hmem : (a.name, x) ∈ restrict axes v :=
    List.mem_filterMap.mpr ⟨a, ha, by simp [hx]⟩
  rw [h] at hmem
  obtain ⟨b, -, hb⟩ := List.mem_filterMap.mp hmem
  obtain ⟨y, hy, he⟩ := Option.map_eq_some_iff.mp hb
  obtain ⟨hname, rfl⟩ := Prod.mk.inj he
  rw [hx, ← hname, hy]

/-! ### Mixed radix numbers -/

theorem foldl_trackIndex (axes : List VariantAxis) (v : Combination) (n : Nat) :
    axes.foldl (fun n a => n * a.values.length + digit a v) n =
      n * size axes + trackIndex axes v := by
  induction axes generalizing n with
  | nil => simp [trackIndex]
  | cons a axes ih =>
    have hhead : trackIndex (a :: axes) v = digit a v * size axes + trackIndex axes v := by
      rw [← ih]
      simp [trackIndex, digit]
    rw [List.foldl_cons, ih, hhead, size_cons]
    ring

/-- The start of the tracks below the value of the first axis, and the place among them. -/
theorem trackIndex_cons (a : VariantAxis) (axes : List VariantAxis) (v : Combination) :
    trackIndex (a :: axes) v = digit a v * size axes + trackIndex axes v := by
  rw [← foldl_trackIndex]
  simp [trackIndex, digit]

/-- The item at a place in equally long blocks. -/
theorem getElem?_flatMap_block {α β : Type} {f : α → List β} {xs : List α} {n : Nat}
    (hn : ∀ x ∈ xs, (f x).length = n) {i j : Nat} {x : α} {y : β} (hx : xs[i]? = some x)
    (hy : (f x)[j]? = some y) : (xs.flatMap f)[i * n + j]? = some y := by
  induction xs generalizing i with
  | nil => simp at hx
  | cons z xs ih =>
    have hz := hn z List.mem_cons_self
    rw [List.flatMap_cons]
    cases i with
    | zero =>
      obtain rfl : z = x := by simpa using hx
      have hj : j < (f z).length := (List.getElem?_eq_some_iff.mp hy).1
      rw [Nat.zero_mul, Nat.zero_add, List.getElem?_append_left hj, hy]
    | succ i =>
      have hrest := ih (fun x hx => hn x (List.mem_cons_of_mem _ hx)) (i := i) (by simpa using hx)
      have hle : (f z).length ≤ (i + 1) * n + j := by rw [hz, Nat.succ_mul]; omega
      rw [List.getElem?_append_right hle, hz, show (i + 1) * n + j - n = i * n + j by
        rw [Nat.succ_mul]; omega]
      exact hrest

/-- An axis finds its values by their keys. -/
theorem getElem?_digit {a : VariantAxis} {v : Combination} {x : AxisValue} (hk : a.keys.Nodup)
    (hx : x ∈ a.values) (hv : Table.get? a.name v = some x) : a.values[digit a v]? = some x := by
  have hmem : x.key ∈ a.keys := List.mem_map_of_mem hx
  obtain ⟨i, hi⟩ := Option.isSome_iff_exists.mp (List.isSome_idxOf?.mpr hmem)
  have hdigit : digit a v = i := by simp [digit, hv, VariantAxis.indexOf?, hi]
  obtain ⟨hlt, hkey, -⟩ := List.idxOf?_eq_some_iff.mp hi
  rw [hdigit]
  have hlt' : i < a.values.length := by simpa [VariantAxis.keys] using hlt
  have hsame : (a.values[i]).key = x.key := by simpa [VariantAxis.keys] using hkey
  have heq : a.values[i] = x := List.inj_on_of_nodup_map hk (List.getElem_mem hlt') hx hsame
  rw [List.getElem?_eq_getElem hlt', heq]

/-- The number of a combination is the place of what the axes take from it. -/
theorem getElem?_trackIndex {axes : List VariantAxis} {v : Combination}
    (hk : ∀ a ∈ axes, a.keys.Nodup) (hc : Covers axes v) :
    (combinations axes)[trackIndex axes v]? = some (restrict axes v) := by
  induction axes with
  | nil => rfl
  | cons a axes ih =>
    have hrest := ih (fun b hb => hk b (List.mem_cons_of_mem _ hb))
      (hc.of_subset (List.subset_cons_self a axes))
    obtain ⟨x, hx, hv⟩ := hc a List.mem_cons_self
    have hdigit := getElem?_digit (hk a List.mem_cons_self) hx hv
    have hcons : restrict (a :: axes) v = (a.name, x) :: restrict axes v := by
      simp [restrict, hv]
    rw [combinations_cons, trackIndex_cons, hcons]
    refine getElem?_flatMap_block (fun y _ => ?_) hdigit ?_
    · rw [List.length_map, length_combinations]
    · rw [List.getElem?_map, hrest, Option.map_some]

theorem trackIndex_lt {axes : List VariantAxis} {v : Combination}
    (hk : ∀ a ∈ axes, a.keys.Nodup) (hc : Covers axes v) : trackIndex axes v < size axes := by
  have hplace := getElem?_trackIndex hk hc
  rw [← length_combinations]
  exact (List.getElem?_eq_some_iff.mp hplace).1

/-- The label of a combination's track is the label of its part. -/
theorem getElem?_trackLabels {axes : List VariantAxis} {v : Combination}
    (hk : ∀ a ∈ axes, a.keys.Nodup) (hc : Covers axes v) :
    (trackLabels axes)[trackIndex axes v]? = some (label (restrict axes v)) := by
  rw [trackLabels, List.getElem?_map, getElem?_trackIndex hk hc, Option.map_some]

theorem foldl_size (axes : List VariantAxis) (n : Nat) :
    axes.foldl (fun n a => n * a.values.length) n = n * size axes := by
  induction axes generalizing n with
  | nil => simp
  | cons a axes ih => rw [List.foldl_cons, ih, size_cons, Nat.mul_assoc]

theorem trackCount_eq_size (axes : List VariantAxis) : trackCount axes = size axes := by
  rw [trackCount, foldl_size, Nat.one_mul]

theorem variantCount_eq_size (c : Component) : c.variantCount = size c.axes := by
  rw [Component.variantCount, foldl_size, Nat.one_mul]

end DesignTokens.Matrix
