import DesignTokens.Proofs.Decimal.Compare
import DesignTokens.Proofs.Theme.Regular

/-!
Equality of scales. Numbers are equal by value, so the two zeros are, and tables are equal without
regard to order. The data of two builds, with floats for the weights, are equal just as the scales
are.
-/
namespace DesignTokens

variable {α : Type}

/-- The same names in whatever order, and equal values under them. -/
def Table.same (eq : α → α → Bool) (s t : Table α) : Bool :=
  s.length == t.length && s.all fun p => (Table.get? p.1 t).any (eq p.2)

theorem Table.same_self {eq : α → α → Bool} {t : Table α} (hn : (Table.keys t).Nodup)
    (h : ∀ p ∈ t, eq p.2 p.2) : Table.same eq t t := by
  rw [Table.same, Bool.and_eq_true, List.all_eq_true]
  refine ⟨beq_self_eq_true _, fun p hp => ?_⟩
  rw [Table.get?_of_mem hn hp]
  exact h p hp

theorem isEqv_self {eq : α → α → Bool} {xs : List α} (h : ∀ x ∈ xs, eq x x) : xs.isEqv xs eq := by
  induction xs with
  | nil => rfl
  | cons x xs ih =>
    obtain ⟨hx, hxs⟩ := List.forall_mem_cons.mp h
    rw [List.isEqv, hx, ih hxs]
    rfl

/-- Equality of layers. -/
def ShadowLayer.same (a b : ShadowLayer) : Bool :=
  a.offsetX == b.offsetX && a.offsetY == b.offsetY && a.blur == b.blur && a.spread == b.spread &&
    a.opacity == b.opacity && a.color.same b.color && a.inset == b.inset

def ShadowPreset.same (p q : ShadowPreset) : Bool :=
  p.name == q.name && p.layers.isEqv q.layers ShadowLayer.same

namespace Theme

def SpacingScale.same (s t : SpacingScale) : Bool :=
  s.baseUnitPx == t.baseUnitPx && s.baseUnitRem == t.baseUnitRem && s.scale.same (· == ·) t.scale

/-- Equality of scales, family by family. -/
def Scales.same (s t : Scales) : Bool :=
  s.spacing.same t.spacing && s.borderRadius.same (· == ·) t.borderRadius &&
    s.fontSize.same (· == ·) t.fontSize && s.fontWeight.same (· == ·) t.fontWeight &&
    s.shadows.same ShadowPreset.same t.shadows

end Theme

/-! ### Data -/

namespace Json

theorem same_ofFloat (x y : Float) : same (.ofFloat x) (.ofFloat y) = (x == y) :=
  Number.float_beq x y

theorem same_bool (a b : Bool) : same (.bool a) (.bool b) = (a == b) := by
  cases a <;> cases b <;> rfl

theorem same_obj (fs gs : Table Json) :
    same (.obj fs) (.obj gs) = (fs.length == gs.length && sameFields fs gs) := by
  rw [same]

variable {write : α → Json} {eq : α → α → Bool}

theorem sameItems_map {xs ys : List α}
    (h : ∀ x ∈ xs, ∀ y ∈ ys, same (write x) (write y) = eq x y) :
    sameItems (xs.map write) (ys.map write) = xs.isEqv ys eq := by
  induction xs generalizing ys with
  | nil => cases ys <;> simp [sameItems, List.isEqv]
  | cons x xs ih =>
    cases ys with
    | nil => simp [sameItems, List.isEqv]
    | cons y ys =>
      have hhead := h x List.mem_cons_self y List.mem_cons_self
      have htail := ih fun x' hx' y' hy' =>
        h x' (List.mem_cons_of_mem _ hx') y' (List.mem_cons_of_mem _ hy')
      simp only [List.map_cons, sameItems, List.isEqv, hhead, htail]

theorem sameFields_mapValues {s t : Table α}
    (h : ∀ p ∈ s, ∀ q ∈ t, p.1 = q.1 → same (write p.2) (write q.2) = eq p.2 q.2) :
    sameFields (Table.mapValues write s) (Table.mapValues write t) =
      s.all fun p => (Table.get? p.1 t).any (eq p.2) := by
  induction s with
  | nil => simp [Table.mapValues, sameFields]
  | cons p s ih =>
    obtain ⟨hp, hs⟩ := List.forall_mem_cons.mp h
    have htail := ih hs
    rw [Table.mapValues, List.map_cons, sameFields, Table.get?_mapValues, List.all_cons, ← htail]
    cases hget : Table.get? p.1 t with
    | none => rfl
    | some v =>
      rw [Option.any_some, ← hp (p.1, v) (Table.mem_of_get? hget) rfl]
      rfl

theorem same_mapValues {s t : Table α}
    (h : ∀ p ∈ s, ∀ q ∈ t, p.1 = q.1 → same (write p.2) (write q.2) = eq p.2 q.2) :
    same (.obj (Table.mapValues write s)) (.obj (Table.mapValues write t)) = Table.same eq s t := by
  rw [same, sameFields_mapValues h, Table.same, Table.mapValues, Table.mapValues, List.length_map,
    List.length_map]

end Json

theorem ShadowLayer.same_toJson (a b : ShadowLayer) : Json.same a.toJson b.toJson = a.same b := by
  obtain ⟨x, y, blur, spread, opacity, color, inset⟩ := a
  obtain ⟨x', y', blur', spread', opacity', color', inset'⟩ := b
  cases inset <;> cases inset' <;>
    simp [toJson, ShadowLayer.same, Json.same_obj, Json.sameFields, Table.get?_cons,
      Json.same_ofFloat, Json.same_bool, Bool.and_assoc]

namespace Theme

/-- The data of scales with floats for the weights. -/
def Scales.normal (s : Scales) : Json :=
  .obj [("spacing", s.spacing.toJson), ("borderRadius", floatsToJson s.borderRadius),
    ("fontSize", floatsToJson s.fontSize),
    ("fontWeight", .obj (Table.mapValues (fun w => Json.ofFloat (.ofInt w)) s.fontWeight)),
    ("shadows", .obj (Table.mapValues ShadowPreset.toJson s.shadows))]

theorem same_floatsToJson (s t : Table Float) :
    Json.same (floatsToJson s) (floatsToJson t) = s.same (· == ·) t :=
  Json.same_mapValues fun _ _ _ _ _ => Json.same_ofFloat _ _

theorem SpacingScale.same_toJson (s t : SpacingScale) :
    Json.same s.toJson t.toJson = s.same t := by
  simp [toJson, SpacingScale.same, Json.same_obj, Json.sameFields, Table.get?_cons,
    Json.same_ofFloat, same_floatsToJson, Bool.and_assoc, Bool.and_left_comm]

/-- A shadow's name is its key and no part of its data. -/
theorem same_shadows {s t : Scales} (hs : s.NamesShadows) (ht : t.NamesShadows) :
    Json.same (.obj (Table.mapValues ShadowPreset.toJson s.shadows))
      (.obj (Table.mapValues ShadowPreset.toJson t.shadows)) =
        s.shadows.same ShadowPreset.same t.shadows := by
  refine Json.same_mapValues fun p hp q hq hkey => ?_
  have hname : (p.2.name == q.2.name) = true := by
    rw [hs p hp, ht q hq, hkey, beq_self_eq_true]
  have hlayers : Json.sameItems (p.2.layers.map ShadowLayer.toJson)
      (q.2.layers.map ShadowLayer.toJson) = p.2.layers.isEqv q.2.layers ShadowLayer.same :=
    Json.sameItems_map fun a _ b _ => a.same_toJson b
  simp [ShadowPreset.toJson, ShadowPreset.same, Json.same_obj, Json.sameFields, Table.get?_cons,
    Json.same, hname, hlayers]

theorem Scales.Regular.same_normal {s t : Scales} (hs : s.Regular) (ht : t.Regular) :
    Json.same s.normal t.normal = s.same t := by
  have hweights : Json.same
      (.obj (Table.mapValues (fun w => Json.ofFloat (.ofInt w)) s.fontWeight))
      (.obj (Table.mapValues (fun w => Json.ofFloat (.ofInt w)) t.fontWeight)) =
        s.fontWeight.same (· == ·) t.fontWeight := by
    refine Json.same_mapValues fun p hp q hq _ => ?_
    have hp := hs.weights p hp
    have hq := ht.weights q hq
    rw [Json.same_ofFloat]
    exact Decimal.ofInt_beq_ofInt (by omega) (by omega) (by omega) (by omega)
  simp [Scales.normal, Scales.same, Json.same_obj, Json.sameFields, Table.get?_cons,
    SpacingScale.same_toJson, same_floatsToJson, hweights, same_shadows hs.named ht.named,
    Bool.and_assoc]

/-! ### Scales and themselves -/

theorem ShadowLayer.same_self {l : ShadowLayer} (hfloats : ∀ x ∈ l.floats, Decimal.isFinite x)
    (hcolor : ∃ text, l.color = .str text) : l.same l := by
  obtain ⟨text, hcolor⟩ := hcolor
  simp only [ShadowLayer.floats, List.forall_mem_cons] at hfloats
  simp [ShadowLayer.same, Decimal.beq_self_of_isFinite, hfloats, hcolor, Json.same]

/-- Scales without NaNs equal themselves. -/
theorem Scales.Regular.same_self {s : Scales} (h : s.Regular) (hfinite : s.Finite) :
    s.same s := by
  obtain ⟨hspacing, hradii, hsizes, hlayers⟩ := Scales.forall_mem_floats.mp hfinite
  obtain ⟨hpx, hrem, hscale⟩ := SpacingScale.forall_mem_floats.mp hspacing
  have hself {t : Table Float} (hn : (Table.keys t).Nodup) (ht : ∀ p ∈ t, Decimal.isFinite p.2) :
      t.same (· == ·) t :=
    Table.same_self hn fun p hp => Decimal.beq_self_of_isFinite (ht p hp)
  have hweights : s.fontWeight.same (· == ·) s.fontWeight :=
    Table.same_self h.fontWeight fun _ _ => beq_self_eq_true _
  have hshadows : s.shadows.same ShadowPreset.same s.shadows := by
    refine Table.same_self h.shadows fun p hp => ?_
    have hall : ∀ l ∈ p.2.layers, l.same l :=
      fun l hl => ShadowLayer.same_self (hlayers p hp l hl) (h.colors p hp l hl)
    simp [ShadowPreset.same, isEqv_self hall]
  simp [Scales.same, SpacingScale.same, Decimal.beq_self_of_isFinite, hpx, hrem,
    hself h.scale hscale, hself h.borderRadius hradii, hself h.fontSize hsizes, hweights, hshadows]

end Theme

end DesignTokens
