import DesignTokens.Proofs.Registry.Entries
import DesignTokens.Registry.Load

/-!
Components that loading yields. Each is made of a valid entry, its axes have names of their own, and
no axis has two values with one key. Its sub-components and its styling entries have names of their
own too, and each value of an axis has a class string.
-/
namespace DesignTokens.Registry

/-- The component is one of a registry that loads. -/
def Accepted (c : Component) : Prop :=
  ∃ source v r name, v.NamesOnce ∧ ofJson source v = .ok r ∧ (name, c) ∈ r.components

/-- The axes have names of their own, and the values of an axis keys of their own. -/
structure WellFormed (axes : List VariantAxis) : Prop where
  names : (axes.map (·.name)).Nodup
  keys : ∀ a ∈ axes, a.keys.Nodup

theorem accepted_of_ofText {source text : String} {r : Registry} (h : ofText source text = .ok r)
    {name : String} {c : Component} (hc : (name, c) ∈ r.components) : Accepted c := by
  obtain ⟨v, hv, h⟩ := bind_eq_ok h
  exact ⟨source, v, r, name, Json.namesOnce_of_read (mapError_eq_ok hv), h, hc⟩

theorem accepted_of_ofBytes {source : String} {bytes : Text.Bytes} {r : Registry}
    (h : ofBytes source bytes = .ok r) {name : String} {c : Component}
    (hc : (name, c) ∈ r.components) : Accepted c := by
  rw [ofBytes] at h
  split at h
  · cases h
  · obtain ⟨v, hv, h⟩ := bind_eq_ok h
    exact ⟨source, v, r, name, Json.namesOnce_of_readChars (mapError_eq_ok hv), h, hc⟩

/-! ### Entries -/

theorem named_eq_ok {p : String × ComponentEntry} {q : String × Component}
    (h : named p = .ok q) : q = (p.1, componentOf p.1 p.2) := by
  rw [named] at h
  split at h
  · split at h
    · exact (Except.ok.inj h).symm
    · cases h
  · exact (Except.ok.inj h).symm

/-- The entry loads as the component. -/
def Loads (p : String × Json) (c : String × Component) : Prop :=
  ∃ e, ComponentEntry.ofJson p.2 = .valid e ∧ named (p.1, e) = .ok c

theorem Loads.exists_entry {p : String × Json} {c : String × Component} (h : Loads p c) :
    ∃ e, ComponentEntry.ofJson p.2 = .valid e ∧ c = (p.1, componentOf p.1 e) := by
  obtain ⟨e, he, hnamed⟩ := h
  exact ⟨e, he, named_eq_ok hnamed⟩

theorem Loads.key_eq {p : String × Json} {c : String × Component} (h : Loads p c) : c.1 = p.1 := by
  obtain ⟨e, -, rfl⟩ := h.exists_entry
  rfl

theorem forall₂_loads_iff {entries : Table Json} {components : Table Component} :
    List.Forall₂ Loads entries components ↔ ∃ checked,
      Table.Related (fun v e => ComponentEntry.ofJson v = .valid e) entries checked ∧
        List.Forall₂ (fun p c => named p = .ok c) checked components := by
  constructor
  · intro h
    induction h with
    | nil => exact ⟨[], .nil, .nil⟩
    | @cons p c _ _ hp _ ih =>
      obtain ⟨e, he, hnamed⟩ := hp
      obtain ⟨checked, hchecked, hcomponents⟩ := ih
      exact ⟨(p.1, e) :: checked, .cons ⟨rfl, he⟩ hchecked, .cons hnamed hcomponents⟩
  · rintro ⟨checked, hchecked, hcomponents⟩
    induction hchecked generalizing components with
    | nil =>
      obtain rfl := List.forall₂_nil_left_iff.mp hcomponents
      exact .nil
    | @cons p q _ _ hp _ ih =>
      obtain ⟨c, components, hnamed, hrest, rfl⟩ := List.forall₂_cons_left_iff.mp hcomponents
      obtain ⟨k, e⟩ := q
      obtain ⟨rfl, he⟩ := hp
      exact .cons ⟨e, he, hnamed⟩ (ih hrest)

/-- The components of a registry are those that the entries load as. -/
theorem ofEntries_eq_ok_iff {source : String} {entries : Table Json} {r : Registry} :
    ofEntries source entries = .ok r ↔
      List.Forall₂ Loads entries r.components ∧ r.source = source := by
  rw [forall₂_loads_iff]
  constructor
  · intro h
    rw [ofEntries] at h
    split at h
    · cases h
    · rename_i checked hchecked
      obtain ⟨components, hcomponents, h⟩ := bind_eq_ok h
      obtain rfl := Except.ok.inj h
      obtain ⟨_, hfields, hall⟩ := Checked.tableOf_eq_valid.mp hchecked
      obtain rfl := Json.obj.inj hfields
      exact ⟨⟨checked, hall, mapM_eq_ok hcomponents⟩, rfl⟩
  · rintro ⟨⟨checked, hall, hcomponents⟩, rfl⟩
    have hchecked := Checked.tableOf_eq_valid.mpr ⟨entries, rfl, hall⟩
    rw [ofEntries, hchecked]
    simp only [mapM_of_forall₂ hcomponents]
    rfl

/-- The entries stand under a name of the object or are its members. -/
theorem ofJson_eq_ok {source : String} {v : Json} {r : Registry} (h : ofJson source v = .ok r)
    (hv : v.NamesOnce) : ∃ entries, Json.FieldsOnce entries ∧ ofEntries source entries = .ok r := by
  cases v with
  | obj fields =>
    have hfields := hv.fields
    rw [ofJson] at h
    split at h
    · exact ⟨_, hfields, h⟩
    · rename_i hentries
      exact ⟨_, (hfields.get? hentries).fields, h⟩
    · cases h
  | _ => cases h

/-- An accepted component is made of a valid entry. -/
theorem Accepted.exists_entry {c : Component} (h : Accepted c) :
    ∃ name v e, Json.NamesOnce v ∧ ComponentEntry.ofJson v = .valid e ∧ c = componentOf name e := by
  obtain ⟨source, v, r, name, hv, hr, hc⟩ := h
  obtain ⟨entries, hentries, hr⟩ := ofJson_eq_ok hr hv
  obtain ⟨p, hp, hloads⟩ := exists_left_of_forall₂ (ofEntries_eq_ok_iff.mp hr).1 hc
  obtain ⟨e, he, hpair⟩ := hloads.exists_entry
  obtain ⟨rfl, rfl⟩ := Prod.mk.inj hpair
  exact ⟨p.1, p.2, e, hentries.2 _ hp, he, rfl⟩

/-! ### Axes -/

/-- The parts of an axis are those of a prop. -/
structure MadeFrom (a : VariantAxis) (p : PropEntry) : Prop where
  values : p.values = some a.values
  default : p.default = some a.default
  classes : a.classes = p.classes.getD []
  descriptions : a.descriptions = p.descriptions.getD []

theorem axisOf?_eq_some {name : String} {p : PropEntry} {a : VariantAxis}
    (h : axisOf? name p = some a) : a.name = name ∧ MadeFrom a p := by
  rw [axisOf?] at h
  split at h
  · rename_i hvalues hdefault
    obtain rfl := Option.some.inj h
    exact ⟨rfl, hvalues, hdefault, rfl, rfl⟩
  · cases h

/-- The props of a valid entry have parts that fit. -/
theorem fault?_of_mem_props {v : Json} {e : ComponentEntry}
    (h : ComponentEntry.ofJson v = .valid e) : ∀ p ∈ e.props, p.2.fault? = none := by
  obtain ⟨fields, rfl, hread⟩ := ComponentEntry.ofJson_eq_valid.mp h
  rcases Checked.defaulted_eq_valid hread.props with ⟨-, hnil⟩ | ⟨w, -, hprops⟩
  · simp [hnil]
  · obtain ⟨props, rfl, hall⟩ := Checked.tableOf_eq_valid.mp hprops
    rintro ⟨name, p⟩ hp
    obtain ⟨w, -, hvalid⟩ := hall.exists_of_mem hp
    obtain ⟨_, -, -, hfault⟩ := PropEntry.ofJson_eq_valid.mp hvalid
    exact hfault

/-- The props of a valid entry have names of their own. -/
theorem nodup_keys_props {v : Json} {e : ComponentEntry} (hv : v.NamesOnce)
    (h : ComponentEntry.ofJson v = .valid e) : (Table.keys e.props).Nodup := by
  obtain ⟨fields, rfl, hread⟩ := ComponentEntry.ofJson_eq_valid.mp h
  rcases Checked.defaulted_eq_valid hread.props with ⟨-, hnil⟩ | ⟨w, hw, hprops⟩
  · rw [hnil]
    exact List.nodup_nil
  · obtain ⟨props, rfl, hall⟩ := Checked.tableOf_eq_valid.mp hprops
    exact hall.keys_eq.symm ▸ (hv.fields.get? hw).fields.1

theorem mem_axes {name : String} {e : ComponentEntry} {a : VariantAxis} :
    a ∈ (componentOf name e).axes ↔ ∃ p ∈ e.props, axisOf? p.1 p.2 = some a :=
  List.mem_filterMap

/-- Each axis is a prop whose parts fit. -/
theorem fits_of_mem_axes {name : String} {e : ComponentEntry} {a : VariantAxis}
    (hfault : ∀ p ∈ e.props, p.2.fault? = none) (ha : a ∈ (componentOf name e).axes) :
    ∃ p, (a.name, p) ∈ e.props ∧ axisOf? a.name p = some a ∧ p.Fits a.values := by
  obtain ⟨⟨key, p⟩, hp, haxis⟩ := mem_axes.mp ha
  obtain ⟨rfl, hmade⟩ := axisOf?_eq_some haxis
  have hnone := hfault _ hp
  rw [PropEntry.fault?, hmade.values] at hnone
  exact ⟨p, hp, haxis, PropEntry.axisFault?_eq_none_iff.mp hnone⟩

theorem nodup_names_axes {name : String} {e : ComponentEntry}
    (h : (Table.keys e.props).Nodup) : ((componentOf name e).axes.map (·.name)).Nodup := by
  rw [Table.keys, List.Nodup, List.pairwise_map] at h
  rw [List.Nodup, List.pairwise_map, componentOf, List.pairwise_filterMap]
  refine h.imp ?_
  intro p q hne a ha b hb
  rw [(axisOf?_eq_some ha).1, (axisOf?_eq_some hb).1]
  exact hne

theorem Accepted.wellFormed {c : Component} (h : Accepted c) : WellFormed c.axes := by
  obtain ⟨name, v, e, hv, he, rfl⟩ := h.exists_entry
  refine ⟨nodup_names_axes (nodup_keys_props hv he), ?_⟩
  intro a ha
  obtain ⟨p, -, -, hfits⟩ := fits_of_mem_axes (fault?_of_mem_props he) ha
  exact hfits.keys

/-- No axis of an accepted component lacks values. -/
theorem Accepted.values_ne_nil {c : Component} (h : Accepted c) {a : VariantAxis}
    (ha : a ∈ c.axes) : a.values ≠ [] := by
  obtain ⟨name, v, e, hv, he, rfl⟩ := h.exists_entry
  obtain ⟨p, -, -, hfits⟩ := fits_of_mem_axes (fault?_of_mem_props he) ha
  exact hfits.ne_nil

/-! ### Parts of a component -/

section

/-- A field that holds a value has it under one of its names. -/
theorem Checked.nullable_eq_some {α : Type} {names : List String} {check : Json → Checked α}
    {fields : Table Json} {a : α} (h : nullable names check fields = .valid (some a)) :
    ∃ name v, Table.get? name fields = some v ∧ check v = .valid a := by
  rw [nullable] at h
  split at h
  · cases h
  · cases h
  · rename_i name v _ hfound
    obtain ⟨b, hb, hsome⟩ := map_eq_valid.mp (under_eq_valid.mp h)
    obtain rfl := Option.some.inj hsome
    obtain ⟨key, -, hkey⟩ := List.exists_of_findSome?_eq_some hfound
    obtain ⟨w, hw, hpair⟩ := Option.map_eq_some_iff.mp hkey
    obtain ⟨rfl, rfl⟩ := Prod.mk.inj hpair
    exact ⟨key, w, hw, hb⟩

variable {c : Component}

theorem Accepted.nodup_subComponents (h : Accepted c) : (Table.keys c.subComponents).Nodup := by
  obtain ⟨name, v, e, hv, he, rfl⟩ := h.exists_entry
  obtain ⟨fields, rfl, hread⟩ := ComponentEntry.ofJson_eq_valid.mp he
  have hkeys : Table.keys (componentOf name e).subComponents =
      Table.keys (e.subComponents.getD []) := by
    simp only [componentOf, Table.keys, List.map_map]
    rfl
  rw [hkeys]
  cases hsubs : e.subComponents with
  | none => exact List.nodup_nil
  | some subs =>
    obtain ⟨key, w, hw, hcheck⟩ := Checked.nullable_eq_some (hsubs ▸ hread.subComponents)
    obtain ⟨entries, rfl, hall⟩ := Checked.tableOf_eq_valid.mp hcheck
    exact hall.keys_eq.symm ▸ (hv.fields.get? hw).fields.1

theorem Accepted.nodup_styling (h : Accepted c) : (Table.keys c.styling).Nodup := by
  obtain ⟨name, v, e, hv, he, rfl⟩ := h.exists_entry
  obtain ⟨fields, rfl, hread⟩ := ComponentEntry.ofJson_eq_valid.mp he
  change (Table.keys (e.styling.getD [])).Nodup
  cases hstyling : e.styling with
  | none => exact List.nodup_nil
  | some entries =>
    obtain ⟨key, w, hw, hcheck⟩ := Checked.nullable_eq_some (hstyling ▸ hread.styling)
    cases w with
    | obj members =>
      obtain rfl := Checked.valid.inj hcheck
      exact (hv.fields.get? hw).fields.1
    | _ => cases hcheck

/-- Every value of an axis has a class string. -/
theorem Accepted.exists_class (h : Accepted c) {a : VariantAxis} (ha : a ∈ c.axes) {x : AxisValue}
    (hx : x ∈ a.values) : ∃ classes, a.classFor? x.key = some classes := by
  obtain ⟨name, v, e, hv, he, rfl⟩ := h.exists_entry
  obtain ⟨p, -, haxis, hfits⟩ := fits_of_mem_axes (fault?_of_mem_props he) ha
  have hclasses := (axisOf?_eq_some haxis).2.classes
  have hkey : x.key ∈ Table.keys a.classes :=
    hclasses ▸ (hfits.classes _).mpr (List.mem_map_of_mem hx)
  cases hget : a.classFor? x.key with
  | some classes => exact ⟨classes, rfl⟩
  | none => exact absurd hkey (Table.get?_eq_none_iff.mp hget)

end

/-! ### A component with two axes -/

/-- A prop with some values, the first of them its default. -/
def plainProp (values : List AxisValue) : Json :=
  let texts : Json := .obj (values.map fun v => (v.key, .str ""))
  .obj [("values", .arr (values.map AxisValue.toJson)), ("classes", texts),
    ("descriptions", texts), ("default", (values.map AxisValue.toJson).headD .null)]

def tagSource : Json :=
  .obj [("Tag", .obj [("description", .str ""), ("category", .str ""),
    ("props", .obj [("size", plainProp [.text "s", .text "m"]),
      ("on", plainProp [.flag false, .flag true])])])]

def tag : Component where
  name := "Tag"
  description := ""
  category := ""
  axes := [
    ⟨"size", [.text "s", .text "m"], [("s", ""), ("m", "")], [("s", ""), ("m", "")], .text "s",
      "enum"⟩,
    ⟨"on", [.flag false, .flag true], [("false", ""), ("true", "")], [("false", ""), ("true", "")],
      .flag false, "boolean"⟩]
  colors := []
  baseClasses := none
  subComponents := []
  styling := []
  otherProps := []

theorem accepted_tag : Accepted tag := by
  have hnames : tagSource.NamesOnce := by
    simp [tagSource, plainProp, Table.keys, AxisValue.key, AxisValue.toJson]
  have hload : ofJson "" tagSource = .ok ⟨[("Tag", tag)], ""⟩ := by
    with_unfolding_all rfl
  exact ⟨_, _, _, "Tag", hnames, hload, List.mem_singleton.mpr rfl⟩

end DesignTokens.Registry
