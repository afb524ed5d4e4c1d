import DesignTokens.Proofs.Decimal.Written
import DesignTokens.Proofs.Matrix.Styled
import DesignTokens.Proofs.Registry.Accepted

/-!
Defaults of variant axes. Loading compares a default with the declared values by its key alone. The
keys of two values of one type differ, so the default is one of the values just if the value with its
key has its type; otherwise one of the two is a text that spells the other.
-/
namespace DesignTokens

/-! ### Types and keys of values -/

namespace AxisValue

inductive Kind where
  | text
  | flag
  | int
  | float
  | overflow
  deriving DecidableEq, Repr

/-- The type of a value. -/
def kind : AxisValue → Kind
  | .text _ => .text
  | .flag _ => .flag
  | .number (.int _) => .int
  | .number (.float _) => .float
  | .number .overflow => .overflow

variable {v w : AxisValue}

/-- A value is known by its type and its key. -/
theorem eq_of_key (hkind : v.kind = w.kind) (hkey : v.key = w.key) : v = w := by
  rcases v with s | b | (m | x | _) <;> rcases w with t | c | (n | y | _) <;> try cases hkind
  · exact congrArg text hkey
  · revert hkey
    cases b <;> cases c <;> decide
  · exact congrArg (fun n => number (.int n)) (Int.repr_injective hkey)
  · exact congrArg (fun x => number (.float x)) (Decimal.floatText_injective hkey)
  · rfl

theorem key_flag_ne_int (b : Bool) (n : Int) : (flag b).key ≠ (number (.int n)).key := by
  intro h
  have hmem : 'e' ∈ (number (.int n)).key.toList := by
    rw [← h]
    cases b <;> decide
  rcases Decimal.mem_toString_int hmem with hdigit | hsign
  · cases hdigit
  · cases hsign

theorem key_flag_ne_float (b : Bool) (x : Float) : (flag b).key ≠ (number (.float x)).key := by
  intro h
  have hread : Decimal.readFloat? (flag b).key = some x := h ▸ Decimal.readFloat?_floatText x
  have hnone : Decimal.readFloat? (flag b).key = none := by
    cases b <;> decide +kernel
  rw [hnone] at hread
  cases hread

theorem key_int_ne_float (n : Int) (x : Float) :
    (number (.int n)).key ≠ (number (.float x)).key := by
  intro h
  obtain ⟨c, hc, hdigit, hsign⟩ := Decimal.exists_mark_floatText x
  have hmem : c ∈ (number (.int n)).key.toList := h ▸ hc
  rcases Decimal.mem_toString_int hmem with hdigit' | hsign'
  · rw [hdigit] at hdigit'
    cases hdigit'
  · exact hsign hsign'

/-- Of two values of different types with one key, one is a text. -/
theorem kind_eq_text (hkey : v.key = w.key) (hkind : v.kind ≠ w.kind) (hv : v.kind ≠ .overflow)
    (hw : w.kind ≠ .overflow) : v.kind = .text ↔ w.kind ≠ .text := by
  rcases v with s | b | (m | x | _) <;> rcases w with t | c | (n | y | _) <;>
    simp only [kind, ne_eq, reduceCtorEq, not_true_eq_false, not_false_eq_true] at hkind hv hw ⊢
  · exact (key_flag_ne_int _ _ hkey).elim
  · exact (key_flag_ne_float _ _ hkey).elim
  · exact (key_flag_ne_int _ _ hkey.symm).elim
  · exact (key_int_ne_float _ _ hkey).elim
  · exact (key_flag_ne_float _ _ hkey.symm).elim
  · exact (key_int_ne_float _ _ hkey.symm).elim

end AxisValue

/-! ### Defaults that are accepted -/

namespace Registry

theorem Accepted.default_key_mem {c : Component} (h : Accepted c) {a : VariantAxis}
    (ha : a ∈ c.axes) : a.default.key ∈ a.keys := by
  obtain ⟨name, v, e, hv, he, rfl⟩ := h.exists_entry
  obtain ⟨p, -, haxis, hfits⟩ := fits_of_mem_axes (fault?_of_mem_props he) ha
  obtain ⟨d, hd, hkey⟩ := hfits.default
  rw [(axisOf?_eq_some haxis).2.default] at hd
  exact Option.some.inj hd ▸ hkey

/-- An accepted axis has one value with the key of its default. The default is one of the values
just if it has the type of that value, and else one of the two is a text. -/
theorem Accepted.default_mem_iff {c : Component} (h : Accepted c) {a : VariantAxis}
    (ha : a ∈ c.axes) : c.axis? a.name = some a ∧ ∃ v ∈ a.values,
      (∀ w ∈ a.values, w.key = a.default.key ↔ w = v) ∧
      (a.default ∈ a.values ↔ a.default.kind = v.kind) ∧
      (a.default ∉ a.values → a.default.kind ≠ .overflow → v.kind ≠ .overflow →
        (a.default.kind = .text ↔ v.kind ≠ .text)) := by
  refine ⟨Matrix.axis?_of_mem h.wellFormed.names ha, ?_⟩
  obtain ⟨v, hv, hkey⟩ := List.mem_map.mp (h.default_key_mem ha)
  have hunique : ∀ w ∈ a.values, w.key = a.default.key ↔ w = v := by
    intro w hw
    constructor
    · exact fun hsame => List.inj_on_of_nodup_map (h.wellFormed.keys a ha) hw hv
        (hsame.trans hkey.symm)
    · rintro rfl
      exact hkey
  have hmem : a.default ∈ a.values ↔ a.default.kind = v.kind := by
    constructor
    · exact fun hdefault => congrArg AxisValue.kind ((hunique _ hdefault).mp rfl)
    · exact fun hkind => AxisValue.eq_of_key hkind hkey.symm ▸ hv
  exact ⟨v, hv, hunique, hmem, fun hforeign =>
    AxisValue.kind_eq_text hkey.symm (mt hmem.mpr hforeign)⟩

/-- Two numbers, and a default that is a text. -/
def level : VariantAxis where
  name := "level"
  values := [.number (.int 1), .number (.int 2)]
  classes := [("1", ""), ("2", "")]
  descriptions := [("1", ""), ("2", "")]
  default := .text "1"
  type := "enum"

def headingSource : Json :=
  let texts : Json := .obj [("1", .str ""), ("2", .str "")]
  .obj [("Heading", .obj [("description", .str ""), ("category", .str ""),
    ("props", .obj [("level", .obj [("values", .arr [.ofNat 1, .ofNat 2]), ("classes", texts),
      ("descriptions", texts), ("default", .str "1")])])])]

def heading : Component where
  name := "Heading"
  description := ""
  category := ""
  axes := [level]
  colors := []
  baseClasses := none
  subComponents := []
  styling := []
  otherProps := []

theorem accepted_heading : Accepted heading := by
  have hnames : headingSource.NamesOnce := by
    simp [headingSource, Table.keys, Json.ofNat]
  have hload : ofJson "" headingSource = .ok ⟨[("Heading", heading)], ""⟩ := by
    with_unfolding_all rfl
  exact ⟨_, _, _, "Heading", hnames, hload, List.mem_singleton.mpr rfl⟩

/-- The default is no value of its axis, although it is accepted. -/
theorem default_not_mem_level :
    Accepted heading ∧ level ∈ heading.axes ∧ level.default ∉ level.values :=
  ⟨accepted_heading, List.mem_singleton_self _, by decide⟩

theorem default_mem_iff_level : Accepted heading ∧ level ∈ heading.axes ∧
    heading.axis? "level" = some level ∧ ∃ v ∈ level.values,
      (∀ w ∈ level.values, w.key = "1" ↔ w = v) ∧
      (.text "1" ∈ level.values ↔ .text = v.kind) ∧
      (.text "1" ∉ level.values → AxisValue.Kind.text ≠ .overflow → v.kind ≠ .overflow →
        (AxisValue.Kind.text = .text ↔ v.kind ≠ .text)) :=
  ⟨accepted_heading, List.mem_singleton_self _,
    accepted_heading.default_mem_iff (List.mem_singleton_self level)⟩

end Registry

end DesignTokens
