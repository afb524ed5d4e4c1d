import DesignTokens.Proofs.Registry.Loading

/-!
Entries whose fields have their declared types. What is left of the check then is that the props with
values fit: a key for each value, a default among them, and tables with just these keys.
-/
namespace DesignTokens.Registry

/-! ### Declared types -/

def IsText (v : Json) : Prop := ∃ s, v = .str s

def IsFlag (v : Json) : Prop := ∃ b, v = .bool b

/-- A text, a truth value or a number. -/
def IsAxisValue (v : Json) : Prop := ∃ a : AxisValue, v = a.toJson

def IsListOf (kind : Json → Prop) (v : Json) : Prop := ∃ items, v = .arr items ∧ ∀ x ∈ items, kind x

def IsObjectOf (kind : Json → Prop) (v : Json) : Prop :=
  ∃ fields, v = .obj fields ∧ ∀ p ∈ fields, kind p.2

def OrNull (kind : Json → Prop) (v : Json) : Prop := v = .null ∨ kind v

/-- If a field is there, it is of a kind. -/
def FieldIs (kind : Json → Prop) (fields : Table Json) (name : String) : Prop :=
  ∀ v, Table.get? name fields = some v → kind v

theorem FieldIs.of_absent {kind : Json → Prop} {fields : Table Json} {name : String}
    (h : Table.get? name fields = none) : FieldIs kind fields name := by
  intro v hv
  rw [h] at hv
  cases hv

theorem FieldIs.of_present {kind : Json → Prop} {fields : Table Json} {name : String} {v : Json}
    (h : Table.get? name fields = some v) (hv : kind v) : FieldIs kind fields name := by
  intro w hw
  rw [h] at hw
  exact Option.some.inj hw ▸ hv

/-- The fields of a prop have their types. -/
structure TypedProp (fields : Table Json) : Prop where
  type : FieldIs (OrNull IsText) fields "type"
  values : FieldIs (OrNull (IsListOf IsAxisValue)) fields "values"
  classes : FieldIs (OrNull (IsObjectOf IsText)) fields "classes"
  descriptions : FieldIs (OrNull (IsObjectOf IsText)) fields "descriptions"
  default : FieldIs (OrNull IsAxisValue) fields "default"
  description : FieldIs (OrNull IsText) fields "description"
  isOptional : FieldIs IsFlag fields "optional"

/-- The fields of a sub-component have their types. -/
structure TypedSubComponent (fields : Table Json) : Prop where
  name : FieldIs (OrNull IsText) fields "name"
  description : FieldIs IsText fields "description"
  baseClasses : ∀ name ∈ baseClassNames, FieldIs (OrNull IsText) fields name

/-- An object with fields of some types. -/
def IsObjectWith (typed : Table Json → Prop) (v : Json) : Prop := ∃ fields, v = .obj fields ∧ typed fields

/-- The fields of an entry have their types, and those without a default are there. -/
structure TypedEntry (fields : Table Json) : Prop where
  name : FieldIs (OrNull IsText) fields "name"
  description : ∃ s, Table.get? "description" fields = some (.str s)
  category : ∃ s, Table.get? "category" fields = some (.str s)
  props : FieldIs (IsObjectOf (IsObjectWith TypedProp)) fields "props"
  colors : FieldIs (IsListOf IsText) fields "colors"
  baseClasses : ∀ name ∈ baseClassNames, FieldIs (OrNull IsText) fields name
  subComponents : ∀ name ∈ ["subComponents", "sub_components"],
    FieldIs (OrNull (IsObjectOf (IsObjectWith TypedSubComponent))) fields name
  styling : FieldIs (OrNull (IsObjectOf fun _ => True)) fields "styling"

/-! ### Axes as they are declared -/

/-- The keys of the values in a list. -/
def keysOf (items : List Json) : List String := (items.filterMap AxisValue.ofJson?).map AxisValue.key

/-- A field holds a table with just these names. -/
def HasTable (fields : Table Json) (name : String) (keys : List String) : Prop :=
  ∃ table, Table.get? name fields = some (.obj table) ∧ ∀ k, k ∈ Table.keys table ↔ k ∈ keys

/-- The parts of a prop fit the values that it declares. -/
structure DeclaresAxis (prop : Table Json) (items : List Json) : Prop where
  ne_nil : items ≠ []
  keys : (keysOf items).Nodup
  default : ∃ d : AxisValue, Table.get? "default" prop = some d.toJson ∧ d.key ∈ keysOf items
  classes : HasTable prop "classes" (keysOf items)
  descriptions : HasTable prop "descriptions" (keysOf items)

/-- An entry has a prop of some name that declares values. -/
def DeclaresValues (entry : Table Json) (name : String) (prop : Table Json) (items : List Json) :
    Prop :=
  ∃ props, Table.get? "props" entry = some (.obj props) ∧ (name, .obj prop) ∈ props ∧
    Table.get? "values" prop = some (.arr items)

/-! ### Checks that pass -/

namespace Checked

variable {α : Type} {check : Json → Checked α} {v : Json} {fields : Table Json} {name : String}

/-- The check ends with a value. -/
def Passes (check : Json → Checked α) (v : Json) : Prop := ∃ a, check v = .valid a

theorem passes_text : Passes text = IsText := by
  funext v
  simp [Passes, text_eq_valid, IsText]

theorem passes_axisValue : Passes axisValue = IsAxisValue := by
  funext v
  simp [Passes, axisValue_eq_valid, IsAxisValue]

theorem passes_listOf : Passes (listOf check) = IsListOf (Passes check) := by
  funext v
  simp only [Passes, listOf_eq_valid, IsListOf, ← exists_forall₂_iff, eq_iff_iff]
  constructor
  · rintro ⟨xs, items, hv, hall⟩
    exact ⟨items, hv, xs, hall⟩
  · rintro ⟨items, hv, xs, hall⟩
    exact ⟨xs, items, hv, hall⟩

theorem passes_tableOf : Passes (tableOf check) = IsObjectOf (Passes check) := by
  funext v
  have hpair : ∀ p : String × Json, (∃ q : String × α, q.1 = p.1 ∧ check p.2 = .valid q.2) ↔
      Passes check p.2 := fun p => ⟨fun ⟨q, _, h⟩ => ⟨q.2, h⟩, fun ⟨a, h⟩ => ⟨(p.1, a), rfl, h⟩⟩
  simp only [IsObjectOf, ← hpair, ← exists_forall₂_iff, eq_iff_iff]
  constructor
  · rintro ⟨t, ht⟩
    obtain ⟨fields, hv, hall⟩ := tableOf_eq_valid.mp ht
    exact ⟨fields, hv, t, hall⟩
  · rintro ⟨fields, hv, t, hall⟩
    exact ⟨t, tableOf_eq_valid.mpr ⟨fields, hv, hall⟩⟩

theorem exists_nullable {names : List String}
    (h : ∀ name ∈ names, FieldIs (OrNull (Passes check)) fields name) :
    ∃ o, nullable names check fields = .valid o := by
  rw [nullable]
  split
  · exact ⟨none, rfl⟩
  · exact ⟨none, rfl⟩
  · rename_i name v hnull hfirst
    obtain ⟨name', hname, hget⟩ := List.exists_of_findSome?_eq_some hfirst
    obtain ⟨v', hv, hpair⟩ := Option.map_eq_some_iff.mp hget
    obtain ⟨rfl, rfl⟩ := Prod.mk.inj hpair
    rcases h name' hname v' hv with rfl | ⟨a, ha⟩
    · exact absurd rfl hnull
    · exact ⟨some a, under_eq_valid.mpr (map_eq_valid.mpr ⟨a, ha, rfl⟩)⟩

theorem exists_nullable_singleton (h : FieldIs (OrNull (Passes check)) fields name) :
    ∃ o, nullable [name] check fields = .valid o :=
  exists_nullable (List.forall_mem_singleton.mpr h)

theorem exists_defaulted (default : α) (h : FieldIs (Passes check) fields name) :
    ∃ a, defaulted name default check fields = .valid a := by
  rw [defaulted]
  split
  · rename_i v hv
    obtain ⟨a, ha⟩ := h v hv
    exact ⟨a, under_eq_valid.mpr ha⟩
  · exact ⟨default, rfl⟩

end Checked

/-! ### Props -/

@[simp] theorem keysOf_map_toJson (values : List AxisValue) :
    keysOf (values.map AxisValue.toJson) = values.map AxisValue.key := by
  simp [keysOf, List.filterMap_map]

theorem toJson_ne_null (a : AxisValue) : a.toJson ≠ .null := by
  cases a <;> simp [AxisValue.toJson]

theorem listOf_axisValue_eq_valid {v : Json} {values : List AxisValue} :
    Checked.listOf Checked.axisValue v = .valid values ↔
      v = .arr (values.map AxisValue.toJson) := by
  have hitems : ∀ items : List Json,
      List.Forall₂ (fun x a => Checked.axisValue x = .valid a) items values ↔
        items = values.map AxisValue.toJson := by
    intro items
    rw [← List.forall₂_eq_eq_eq, List.forall₂_map_right_iff]
    simp only [Checked.axisValue_eq_valid]
  rw [Checked.listOf_eq_valid]
  simp [hitems]

theorem exists_toJson_of_isAxisValue {items : List Json} (h : ∀ x ∈ items, IsAxisValue x) :
    ∃ values : List AxisValue, items = values.map AxisValue.toJson := by
  obtain ⟨values, hvalues⟩ := exists_forall₂_iff.mpr h
  rw [← List.forall₂_map_right_iff, List.forall₂_eq_eq_eq] at hvalues
  exact ⟨values, hvalues⟩

section PropFields

variable {fields : Table Json} {p : PropEntry}

theorem TypedProp.exists_readFrom (h : TypedProp fields) : ∃ p : PropEntry, p.ReadFrom fields := by
  obtain ⟨type, htype⟩ := Checked.exists_nullable_singleton (Checked.passes_text ▸ h.type)
  obtain ⟨values, hvalues⟩ : ∃ values, Checked.nullable ["values"]
      (Checked.listOf Checked.axisValue) fields = .valid values := by
    refine Checked.exists_nullable_singleton ?_
    rw [Checked.passes_listOf, Checked.passes_axisValue]
    exact h.values
  have htable : ∀ name, FieldIs (OrNull (IsObjectOf IsText)) fields name →
      ∃ table, Checked.nullable [name] (Checked.tableOf Checked.text) fields = .valid table := by
    intro name hname
    refine Checked.exists_nullable_singleton ?_
    rw [Checked.passes_tableOf, Checked.passes_text]
    exact hname
  obtain ⟨classes, hclasses⟩ := htable "classes" h.classes
  obtain ⟨descriptions, hdescriptions⟩ := htable "descriptions" h.descriptions
  obtain ⟨default, hdefault⟩ :=
    Checked.exists_nullable_singleton (Checked.passes_axisValue ▸ h.default)
  obtain ⟨description, hdescription⟩ :=
    Checked.exists_nullable_singleton (Checked.passes_text ▸ h.description)
  have hflag : FieldIs (Checked.Passes Checked.flag) fields "optional" := by
    intro v hv
    obtain ⟨b, rfl⟩ := h.isOptional v hv
    exact ⟨b, rfl⟩
  obtain ⟨isOptional, hoptional⟩ := Checked.exists_defaulted false hflag
  exact ⟨⟨type, values, classes, descriptions, default, description, isOptional, _⟩, htype, hvalues,
    hclasses, hdescriptions, hdefault, hdescription, hoptional, rfl⟩

/-- A table that is read is one that is declared, if it is to have any names. -/
theorem hasTable_iff {name : String} {table : Option (Table String)}
    (h : Checked.nullable [name] (Checked.tableOf Checked.text) fields = .valid table)
    {keys : List String} (hkeys : keys ≠ []) :
    HasTable fields name keys ↔ ∀ k, k ∈ Table.keys (table.getD []) ↔ k ∈ keys := by
  rcases Checked.nullable_eq_valid.mp h with ⟨hnone, rfl⟩ | ⟨v, t, hv, -, ht, rfl⟩
  · constructor
    · rintro ⟨t, ht, -⟩
      rcases hnone with hnone | hnone <;> simp [hnone] at ht
    · intro hempty
      obtain ⟨k, hk⟩ := List.exists_mem_of_ne_nil keys hkeys
      simpa [Table.keys] using (hempty k).mpr hk
  · obtain ⟨declared, rfl, hall⟩ := Checked.tableOf_eq_valid.mp ht
    rw [Option.getD_some, hall.keys_eq, HasTable, hv]
    constructor
    · rintro ⟨t, ht, hsame⟩
      obtain rfl := Json.obj.inj (Option.some.inj ht)
      exact hsame
    · exact fun hsame => ⟨declared, rfl, hsame⟩

theorem PropEntry.ReadFrom.values_eq_some_iff (h : p.ReadFrom fields) (values : List AxisValue) :
    p.values = some values ↔
      Table.get? "values" fields = some (.arr (values.map AxisValue.toJson)) :=
  Checked.eq_some_iff_of_nullable (fun _ _ => listOf_axisValue_eq_valid) (fun _ => by simp) h.values _

theorem PropEntry.ReadFrom.fits_iff (h : p.ReadFrom fields) (values : List AxisValue) :
    p.Fits values ↔ DeclaresAxis fields (values.map AxisValue.toJson) := by
  have hdefault : ∀ d, p.default = some d ↔ Table.get? "default" fields = some d.toJson :=
    Checked.eq_some_iff_of_nullable (fun _ _ => Checked.axisValue_eq_valid) toJson_ne_null h.default
  by_cases hne : values = []
  · subst hne
    exact ⟨fun hfits => absurd rfl hfits.ne_nil, fun hdeclares => absurd rfl hdeclares.ne_nil⟩
  · have hkeys : values.map AxisValue.key ≠ [] := by simpa using hne
    have hclasses := hasTable_iff h.classes hkeys
    have hdescriptions := hasTable_iff h.descriptions hkeys
    constructor
    · rintro ⟨-, hnodup, ⟨d, hd, hmem⟩, hc, hdesc⟩
      refine ⟨by simpa using hne, ?_, ⟨d, (hdefault d).mp hd, ?_⟩, ?_, ?_⟩ <;>
        simp only [keysOf_map_toJson]
      · exact hnodup
      · exact hmem
      · exact hclasses.mpr hc
      · exact hdescriptions.mpr hdesc
    · rintro ⟨-, hnodup, ⟨d, hd, hmem⟩, hc, hdesc⟩
      simp only [keysOf_map_toJson] at hnodup hmem hc hdesc
      exact ⟨hne, hnodup, ⟨d, (hdefault d).mpr hd, hmem⟩, hclasses.mp hc, hdescriptions.mp hdesc⟩

/-- A prop whose fields have their types passes if its parts fit the values that it declares. -/
theorem passes_prop_iff (h : TypedProp fields) :
    Checked.Passes PropEntry.ofJson (.obj fields) ↔
      ∀ items, Table.get? "values" fields = some (.arr items) → DeclaresAxis fields items := by
  obtain ⟨p, hp⟩ := h.exists_readFrom
  have hpasses : Checked.Passes PropEntry.ofJson (.obj fields) ↔ p.fault? = none := by
    constructor
    · rintro ⟨p', hp'⟩
      obtain ⟨_, hfields, hread, hfault⟩ := PropEntry.ofJson_eq_valid.mp hp'
      obtain rfl := Json.obj.inj hfields
      rw [PropEntry.ofFields_eq_valid.mpr hp, Checked.valid.injEq] at hread
      rw [hread, hfault]
    · exact fun hfault =>
        ⟨p, PropEntry.ofJson_eq_valid.mpr ⟨_, rfl, PropEntry.ofFields_eq_valid.mpr hp, hfault⟩⟩
  have hfault : p.fault? = none ↔ ∀ values, p.values = some values → p.Fits values := by
    rw [PropEntry.fault?]
    cases p.values with
    | none => simp
    | some values => simp [PropEntry.axisFault?_eq_none_iff]
  rw [hpasses, hfault]
  constructor
  · intro hfits items hitems
    obtain ⟨values, rfl⟩ : ∃ values : List AxisValue, items = values.map AxisValue.toJson := by
      rcases h.values _ hitems with hnull | ⟨_, harr, hall⟩
      · cases hnull
      · obtain rfl := Json.arr.inj harr
        exact exists_toJson_of_isAxisValue hall
    exact (hp.fits_iff values).mp (hfits values ((hp.values_eq_some_iff values).mpr hitems))
  · intro hdeclares values hvalues
    exact (hp.fits_iff values).mpr (hdeclares _ ((hp.values_eq_some_iff values).mp hvalues))

end PropFields

/-! ### Entries -/

theorem passes_subComponent {v : Json} (h : IsObjectWith TypedSubComponent v) :
    Checked.Passes SubComponentEntry.ofJson v := by
  obtain ⟨fields, rfl, htyped⟩ := h
  obtain ⟨name, hname⟩ := Checked.exists_nullable_singleton (Checked.passes_text ▸ htyped.name)
  obtain ⟨description, hdescription⟩ :=
    Checked.exists_defaulted "" (Checked.passes_text ▸ htyped.description)
  obtain ⟨baseClasses, hbase⟩ := Checked.exists_nullable (Checked.passes_text ▸ htyped.baseClasses)
  refine ⟨⟨name, description, baseClasses⟩, ?_⟩
  rw [SubComponentEntry.ofJson, hname, hdescription, hbase]
  rfl

/-- An entry whose fields have their types passes if its props do. -/
theorem fitsSchema_iff_passes {key : String} {entry : Table Json} (h : TypedEntry entry) :
    FitsSchema (key, .obj entry) ↔
      FieldIs (IsObjectOf (Checked.Passes PropEntry.ofJson)) entry "props" := by
  rw [← Checked.passes_tableOf]
  constructor
  · rintro ⟨e, he⟩ v hv
    obtain ⟨_, hentry, hread⟩ := ComponentEntry.ofJson_eq_valid.mp he
    obtain rfl := Json.obj.inj hentry
    rcases Checked.defaulted_eq_valid hread.props with ⟨hnone, -⟩ | ⟨w, hw, hprops⟩
    · rw [hnone] at hv
      cases hv
    · obtain rfl := Option.some.inj (hw.symm.trans hv)
      exact ⟨_, hprops⟩
  · intro hpasses
    have hrequired : ∀ name s, Table.get? name entry = some (.str s) →
        Checked.required name Checked.text entry = .valid s := by
      intro name s hs
      rw [Checked.required, hs]
      rfl
    obtain ⟨name, hname⟩ := Checked.exists_nullable_singleton (Checked.passes_text ▸ h.name)
    obtain ⟨description, hdescription⟩ := h.description
    obtain ⟨category, hcategory⟩ := h.category
    obtain ⟨props, hprops⟩ := Checked.exists_defaulted [] hpasses
    obtain ⟨colors, hcolors⟩ : ∃ colors, Checked.defaulted "colors" []
        (Checked.listOf Checked.text) entry = .valid colors := by
      refine Checked.exists_defaulted [] ?_
      rw [Checked.passes_listOf, Checked.passes_text]
      exact h.colors
    obtain ⟨baseClasses, hbase⟩ := Checked.exists_nullable (Checked.passes_text ▸ h.baseClasses)
    obtain ⟨subComponents, hsub⟩ : ∃ subComponents, Checked.nullable
        ["subComponents", "sub_components"] (Checked.tableOf SubComponentEntry.ofJson) entry =
          .valid subComponents := by
      refine Checked.exists_nullable fun name hname v hv => ?_
      rw [Checked.passes_tableOf]
      exact (h.subComponents name hname v hv).imp_right fun ⟨fields, hfields, hall⟩ =>
        ⟨fields, hfields, fun p hp => passes_subComponent (hall p hp)⟩
    obtain ⟨styling, hstyling⟩ : ∃ styling,
        Checked.nullable ["styling"] Checked.object entry = .valid styling := by
      refine Checked.exists_nullable_singleton fun v hv => ?_
      exact (h.styling v hv).imp_right fun ⟨fields, hfields, _⟩ => ⟨fields, hfields ▸ rfl⟩
    exact ⟨⟨name, description, category, props, colors, baseClasses, subComponents, styling⟩,
      ComponentEntry.ofJson_eq_valid.mpr ⟨entry, rfl, hname, hrequired _ _ hdescription,
        hrequired _ _ hcategory, hprops, hcolors, hbase, hsub, hstyling⟩⟩

theorem fitsSchema_iff {key : String} {entry : Table Json} (h : TypedEntry entry) :
    FitsSchema (key, .obj entry) ↔
      ∀ name prop items, DeclaresValues entry name prop items → DeclaresAxis prop items := by
  rw [fitsSchema_iff_passes h]
  constructor
  · rintro hpasses name prop items ⟨props, hprops, hmem, hitems⟩
    obtain ⟨_, hobj, hall⟩ := hpasses _ hprops
    obtain rfl := Json.obj.inj hobj
    obtain ⟨_, htypes, htyped⟩ := h.props _ hprops
    obtain rfl := Json.obj.inj htypes
    obtain ⟨_, hprop, htyped⟩ := htyped _ hmem
    obtain rfl := Json.obj.inj hprop
    exact (passes_prop_iff htyped).mp (hall _ hmem) items hitems
  · intro hdeclares v hv
    obtain ⟨props, rfl, htyped⟩ := h.props v hv
    refine ⟨props, rfl, ?_⟩
    rintro ⟨name, w⟩ hmem
    obtain ⟨prop, rfl, htyped⟩ := htyped _ hmem
    exact (passes_prop_iff htyped).mpr fun items hitems =>
      hdeclares name prop items ⟨props, hv, hmem, hitems⟩

end DesignTokens.Registry
