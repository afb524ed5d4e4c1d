import DesignTokens.Proofs.Matrix.Combinations
import DesignTokens.Proofs.Registry.Typed

/-!
Registries as they are declared. With fields of the declared types, a registry loads just if no entry
claims another name and the props with values fit, and then every look-up of a declared value
succeeds.
-/
namespace DesignTokens.Registry

/-! ### Axes of a registry that loads -/

/-- The look-ups of a value that an axis declares. -/
structure Finds (a : VariantAxis) (i : Nat) (v : AxisValue) : Prop where
  classes : (a.classFor? v.key).isSome
  descriptions : (a.descriptionFor? v.key).isSome
  index : a.indexOf? v.key = some i

theorem finds_of_fits {name : String} {p : PropEntry} {a : VariantAxis}
    (haxis : axisOf? name p = some a) (hfits : p.Fits a.values) {i : Nat} (hi : i < a.values.length) :
    Finds a i a.values[i] := by
  have hmade := (axisOf?_eq_some haxis).2
  have hmem : a.values[i].key ∈ a.values.map AxisValue.key :=
    List.mem_map_of_mem (List.getElem_mem hi)
  have hfound : ∀ table : Table String,
      (∀ k, k ∈ Table.keys table ↔ k ∈ a.values.map AxisValue.key) →
        (Table.get? a.values[i].key table).isSome := by
    intro table htable
    rw [Option.isSome_iff_ne_none, ne_eq, Table.get?_eq_none_iff, not_not]
    exact (htable _).mpr hmem
  refine ⟨hfound _ (hmade.classes ▸ hfits.classes), hfound _ (hmade.descriptions ▸ hfits.descriptions), ?_⟩
  have hi' : i < a.keys.length := by simpa [VariantAxis.keys] using hi
  have hkey : a.keys[i] = a.values[i].key := by simp [VariantAxis.keys]
  rw [VariantAxis.indexOf?, List.idxOf?_eq_some_iff]
  refine ⟨hi', hkey, fun j hj hsame => ?_⟩
  have hij : j = i := (List.Nodup.getElem_inj_iff hfits.keys).mp (hsame.trans hkey.symm)
  omega

/-- A prop of an entry that loads makes an axis of the values that it declares. -/
theorem Loads.exists_axis {p : String × Json} {c : String × Component} (h : Loads p c)
    {entry : Table Json} (hentry : p.2 = .obj entry) {name : String} {prop : Table Json}
    {items : List Json} (hdeclares : DeclaresValues entry name prop items) :
    ∃ a ∈ c.2.axes, a.name = name ∧ a.values.map AxisValue.toJson = items := by
  obtain ⟨e, he, hnamed⟩ := h
  obtain ⟨props, hprops, hmem, hitems⟩ := hdeclares
  obtain ⟨_, hobj, hread⟩ := ComponentEntry.ofJson_eq_valid.mp he
  obtain rfl := Json.obj.inj (hentry.symm.trans hobj)
  rcases Checked.defaulted_eq_valid hread.props with ⟨hnone, -⟩ | ⟨w, hw, htable⟩
  · rw [hnone] at hprops
    cases hprops
  obtain rfl := Option.some.inj (hw.symm.trans hprops)
  obtain ⟨_, hobj, hall⟩ := Checked.tableOf_eq_valid.mp htable
  obtain rfl := Json.obj.inj hobj
  obtain ⟨⟨name', q⟩, hq, rfl, hvalid⟩ := exists_right_of_forall₂ hall hmem
  obtain ⟨_, hobj, hfields, -⟩ := PropEntry.ofJson_eq_valid.mp hvalid
  obtain rfl := Json.obj.inj hobj
  have hqread := PropEntry.ofFields_eq_valid.mp hfields
  obtain ⟨values, rfl⟩ : ∃ values : List AxisValue, items = values.map AxisValue.toJson := by
    rcases Checked.nullable_eq_valid.mp hqread.values with ⟨hnone | hnone, -⟩ | ⟨v, vs, hv, -, hvs, -⟩
    · rw [hnone] at hitems
      cases hitems
    · rw [hnone] at hitems
      cases hitems
    · obtain rfl := Option.some.inj (hv.symm.trans hitems)
      exact ⟨vs, Json.arr.inj (listOf_axisValue_eq_valid.mp hvs)⟩
  have hvalues := (hqread.values_eq_some_iff values).mpr hitems
  have hfits : q.Fits values := by
    have hfault := fault?_of_mem_props he _ hq
    rw [PropEntry.fault?, hvalues] at hfault
    exact PropEntry.axisFault?_eq_none_iff.mp hfault
  obtain ⟨d, hd, -⟩ := hfits.default
  have haxis : ∃ a, axisOf? name' q = some a := by
    rw [axisOf?, hvalues, hd]
    exact ⟨_, rfl⟩
  obtain ⟨a, ha⟩ := haxis
  obtain ⟨hname, hmade⟩ := axisOf?_eq_some ha
  obtain rfl : values = a.values := Option.some.inj (hvalues.symm.trans hmade.values)
  rw [named_eq_ok hnamed]
  exact ⟨a, mem_axes.mpr ⟨_, hq, ha⟩, hname, rfl⟩

/-- Where all fields have their types, a registry loads just if no entry claims another name and the
props that declare values declare axes. In a registry that loads, these are axes with the values that
are declared, each value is found, and the variants are the tuples of keys. -/
theorem ofJson_of_typed {source : String} {entries : Table Json}
    (hcomponents : Table.get? "components" entries = none)
    (htyped : ∀ p ∈ entries, IsObjectWith TypedEntry p.2) :
    ((∃ r, ofJson source (.obj entries) = .ok r) ↔
      ∀ p ∈ entries, ∀ entry, p.2 = .obj entry →
        (∀ name, Table.get? "name" entry = some (.str name) → name = p.1) ∧
        ∀ name prop items, DeclaresValues entry name prop items → DeclaresAxis prop items) ∧
    ∀ r, ofJson source (.obj entries) = .ok r →
      (∀ p ∈ entries, ∀ entry, p.2 = .obj entry → ∀ name prop items,
        DeclaresValues entry name prop items → ∃ c, (p.1, c) ∈ r.components ∧
          ∃ a ∈ c.axes, a.name = name ∧ a.values.map AxisValue.toJson = items) ∧
      ∀ c ∈ Table.values r.components,
        (∀ a ∈ c.axes, ∀ (i : Nat) (hi : i < a.values.length), Finds a i a.values[i]) ∧
        c.variantCount =
          {keys : List String | List.Forall₂ (fun key a => key ∈ a.keys) keys c.axes}.ncard := by
  rw [ofJson_eq_ofEntries hcomponents]
  constructor
  · rw [exists_ofEntries_iff]
    refine forall₂_congr fun p hp => ?_
    obtain ⟨entry, hentry, htypes⟩ := htyped p hp
    obtain ⟨key, v⟩ := p
    obtain rfl : v = .obj entry := hentry
    have hname : ¬ Misnamed (key, .obj entry) ↔
        ∀ name, Table.get? "name" entry = some (.str name) → name = key := by
      simp [Misnamed]
    rw [exists_loads_iff, fitsSchema_iff htypes, hname, and_comm]
    simp
  · intro r hr
    obtain ⟨hall, -⟩ := ofEntries_eq_ok_iff.mp hr
    constructor
    · intro p hp entry hentry name prop items hdeclares
      obtain ⟨c, hc, hloads⟩ := exists_right_of_forall₂ hall hp
      obtain ⟨a, ha⟩ := hloads.exists_axis hentry hdeclares
      exact ⟨c.2, hloads.key_eq ▸ hc, a, ha⟩
    · intro c hc
      obtain ⟨⟨key, c⟩, hmem, rfl⟩ := List.mem_map.mp hc
      obtain ⟨p, -, e, he, hnamed⟩ := exists_left_of_forall₂ hall hmem
      obtain ⟨-, rfl⟩ := Prod.mk.inj (named_eq_ok hnamed)
      have hfits : ∀ a ∈ (componentOf p.1 e).axes, ∃ q, axisOf? a.name q = some a ∧ q.Fits a.values := by
        intro a ha
        obtain ⟨q, -, haxis, hfits⟩ := fits_of_mem_axes (fault?_of_mem_props he) ha
        exact ⟨q, haxis, hfits⟩
      refine ⟨fun a ha i hi => ?_, ?_⟩
      · obtain ⟨q, haxis, hfits⟩ := hfits a ha
        exact finds_of_fits haxis hfits hi
      · rw [Matrix.variantCount_eq_size, Matrix.ncard_keys fun a ha => ?_]
        obtain ⟨q, -, hfits⟩ := hfits a ha
        exact hfits.keys

/-- Values that are equal as numbers, and a text. -/
def mixedValues : List AxisValue := [.number (.int 1), .flag true, .number (.float 1), .text "x"]

def mixedTexts : Table Json := mixedValues.map fun v => (v.key, .str "")

def mixedProp : Table Json :=
  [("values", .arr (mixedValues.map AxisValue.toJson)), ("default", .num (.float 1)),
    ("classes", .obj mixedTexts), ("descriptions", .obj mixedTexts)]

def mixedEntry : Table Json :=
  [("name", .str "Tag"), ("description", .str ""), ("category", .str ""),
    ("props", .obj [("mixed", .obj mixedProp)])]

theorem typed_mixedEntry : TypedEntry mixedEntry := by
  have htexts : IsObjectOf IsText (.obj mixedTexts) :=
    ⟨_, rfl, List.forall_mem_map.mpr fun _ _ => ⟨"", rfl⟩⟩
  have hvalues : IsListOf IsAxisValue (.arr (mixedValues.map AxisValue.toJson)) :=
    ⟨_, rfl, List.forall_mem_map.mpr fun a _ => ⟨a, rfl⟩⟩
  have hprop : TypedProp mixedProp :=
    { type := .of_absent rfl
      values := .of_present rfl (.inr hvalues)
      classes := .of_present rfl (.inr htexts)
      descriptions := .of_present rfl (.inr htexts)
      default := .of_present rfl (.inr ⟨.number (.float 1), rfl⟩)
      description := .of_absent rfl
      isOptional := .of_absent rfl }
  exact
    { name := .of_present rfl (.inr ⟨_, rfl⟩)
      description := ⟨_, rfl⟩
      category := ⟨_, rfl⟩
      props := .of_present rfl ⟨_, rfl, List.forall_mem_singleton.mpr ⟨_, rfl, hprop⟩⟩
      colors := .of_absent rfl
      baseClasses := fun name hname => .of_absent (by revert name; decide)
      subComponents := fun name hname => .of_absent (by revert name; decide)
      styling := .of_absent rfl }

theorem declaresAxis_mixedProp : DeclaresAxis mixedProp (mixedValues.map AxisValue.toJson) := by
  have htable : ∀ k, k ∈ Table.keys mixedTexts ↔ k ∈ mixedValues.map AxisValue.key := by
    simp [mixedTexts, Table.keys]
  refine ⟨by simp [mixedValues], ?_, ⟨.number (.float 1), rfl, ?_⟩, ⟨mixedTexts, rfl, ?_⟩,
    ⟨mixedTexts, rfl, ?_⟩⟩ <;> rw [keysOf_map_toJson]
  · decide +kernel
  · exact List.mem_map_of_mem (by simp [mixedValues])
  · exact htable
  · exact htable

/-- The three values that are equal as numbers are found, each in its own place. -/
theorem ofJson_mixedEntry : ∃ r c a, ofJson "" (.obj [("Tag", .obj mixedEntry)]) = .ok r ∧
    ("Tag", c) ∈ r.components ∧ a ∈ c.axes ∧
    a.values.map AxisValue.toJson = mixedValues.map AxisValue.toJson ∧
    ∀ (i : Nat) (hi : i < a.values.length), Finds a i a.values[i] := by
  have hdeclares : ∀ name prop items, DeclaresValues mixedEntry name prop items →
      DeclaresAxis prop items := by
    rintro name prop items ⟨props, hprops, hmem, hitems⟩
    obtain rfl : [("mixed", .obj mixedProp)] = props := Json.obj.inj (Option.some.inj hprops)
    obtain ⟨rfl, rfl⟩ : name = "mixed" ∧ prop = mixedProp := by simpa using hmem
    obtain rfl : mixedValues.map AxisValue.toJson = items := Json.arr.inj (Option.some.inj hitems)
    exact declaresAxis_mixedProp
  have hnamed : ∀ name, Table.get? "name" mixedEntry = some (.str name) → name = "Tag" := by
    simp [mixedEntry, Table.get?, eq_comm]
  obtain ⟨hiff, hloaded⟩ := @ofJson_of_typed "" [("Tag", .obj mixedEntry)] (by decide)
    (List.forall_mem_singleton.mpr ⟨_, rfl, typed_mixedEntry⟩)
  obtain ⟨r, hr⟩ := hiff.mpr (List.forall_mem_singleton.mpr fun entry hentry =>
    Json.obj.inj hentry ▸ ⟨hnamed, hdeclares⟩)
  obtain ⟨haxes, hfinds⟩ := hloaded r hr
  obtain ⟨c, hc, a, ha, -, hvalues⟩ := haxes _ (List.mem_singleton_self _) mixedEntry rfl "mixed"
    mixedProp _ ⟨_, rfl, List.mem_singleton_self _, rfl⟩
  exact ⟨r, c, a, hr, hc, ha, hvalues, (hfinds c (List.mem_map_of_mem hc)).1 a ha⟩

end DesignTokens.Registry
