import DesignTokens.Proofs.Json.Same
import DesignTokens.Proofs.Style.Fields
import DesignTokens.Proofs.Theme.Same
import DesignTokens.Proofs.Utility.Updates
import DesignTokens.Style.Data

/-!
Styles and their data. Every field that is set stands in the data under a name of its own, whatever
it is set to, and nothing else does; so the data of two class strings are equal just if the styles
are, field by field and state by state.
-/
namespace DesignTokens

/-! ### Tables with gaps -/

namespace Table

variable {α β : Type}

theorem get?_append (key : String) (s t : Table α) :
    get? key (s ++ t) = (get? key s).or (get? key t) := by
  induction s with
  | nil => rfl
  | cons p s ih =>
    rw [List.cons_append, get?_cons, get?_cons, ih]
    split <;> rfl

/-- The names that have a value. -/
def present (t : Table (Option α)) : Table α := t.filterMap fun p => p.2.map (Prod.mk p.1)

theorem mem_present {key : String} {v : α} {t : Table (Option α)} :
    (key, v) ∈ present t ↔ (key, some v) ∈ t := by
  simp only [present, List.mem_filterMap, Option.map_eq_some_iff, Prod.mk.injEq]
  constructor
  · rintro ⟨⟨_, _⟩, hp, _, rfl, rfl, rfl⟩
    exact hp
  · exact fun h => ⟨_, h, v, rfl, rfl, rfl⟩

theorem keys_present_sublist (t : Table (Option α)) : (keys (present t)).Sublist (keys t) := by
  induction t with
  | nil => exact .slnil
  | cons p t ih =>
    obtain ⟨k, v⟩ := p
    cases v with
    | none => exact ih.cons k
    | some v => exact ih.cons_cons k

theorem get?_present {key : String} {v : Option α} {t : Table (Option α)} (hn : (keys t).Nodup)
    (h : (key, v) ∈ t) : get? key (present t) = v := by
  cases v with
  | some v => exact get?_of_mem (hn.sublist (keys_present_sublist t)) (mem_present.mpr h)
  | none =>
    rw [get?_eq_none_iff]
    intro hkey
    obtain ⟨⟨_, w⟩, hw, rfl⟩ := List.mem_map.mp hkey
    have hboth := (get?_of_mem hn h).symm.trans (get?_of_mem hn (mem_present.mp hw))
    cases hboth

end Table

/-! ### Fields and their data -/

namespace Style

/-- The parts of a box, in the order of the data. -/
def boxParts : List BoxPart :=
  [.whole, .axis .x, .axis .y, .side .top, .side .right, .side .bottom, .side .left]

def radiusParts : List RadiusPart :=
  [.whole, .side .top, .side .right, .side .bottom, .side .left, .corner .topLeft,
    .corner .topRight, .corner .bottomRight, .corner .bottomLeft]

namespace Field

/-- What is added to the name of a box for a part of it. -/
def boxSuffix : BoxPart → String
  | .whole => ""
  | .axis .x => "_x"
  | .axis .y => "_y"
  | .side .top => "_top"
  | .side .right => "_right"
  | .side .bottom => "_bottom"
  | .side .left => "_left"

/-- The name of a field, its words joined by underscores. -/
def name : Field → String
  | fillVariable => "fill_variable"
  | fillOpacity => "fill_opacity"
  | noFill => "no_fill"
  | strokeVariable => "stroke_variable"
  | strokeOpacity => "stroke_opacity"
  | hasBorder => "has_border"
  | strokeWeight => "stroke_weight"
  | borderSides => "border_sides"
  | borderStyle => "border_style"
  | dashPattern => "dash_pattern"
  | textVariable => "text_variable"
  | textOpacity => "text_opacity"
  | isWhiteText => "is_white_text"
  | fontSize => "font_size"
  | fontWeight => "font_weight"
  | lineHeight => "line_height"
  | textAlign => "text_align"
  | radius .whole => "border_radius"
  | radius (.side .top) => "radius_top"
  | radius (.side .right) => "radius_right"
  | radius (.side .bottom) => "radius_bottom"
  | radius (.side .left) => "radius_left"
  | radius (.corner .topLeft) => "radius_top_left"
  | radius (.corner .topRight) => "radius_top_right"
  | radius (.corner .bottomRight) => "radius_bottom_right"
  | radius (.corner .bottomLeft) => "radius_bottom_left"
  | padding part => "padding" ++ boxSuffix part
  | margin part => "margin" ++ boxSuffix part
  | gap .whole => "gap"
  | gap (.axis .x) => "gap_x"
  | gap (.axis .y) => "gap_y"
  | size .width => "width"
  | size .height => "height"
  | size .minWidth => "min_width"
  | size .minHeight => "min_height"
  | size .maxWidth => "max_width"
  | size .maxHeight => "max_height"
  | opacity => "opacity"
  | shadow => "shadow"
  | shadowLayers => "shadow_layers"
  | layoutMode => "layout_mode"
  | alignItems => "align_items"
  | justifyContent => "justify_content"
  | wrap => "wrap"
  | grow => "grow"

/-- The data of a content, unless the field is not set; a flag that is down is not set. -/
def data? : (f : Field) → f.Content Number → Option Json
  | fillVariable, v | strokeVariable, v | textVariable, v | shadow, v => v.map .str
  | noFill, b | hasBorder, b | isWhiteText, b | wrap, b | grow, b => flag b
  | borderSides, v => v.map fun sides => Json.ofStrings (sides.map Side.name)
  | borderStyle, v => v.map fun style => .str style.name
  | dashPattern, v => v.map fun ns => .arr (ns.map Json.ofNat)
  | fontWeight, v => (v.map .int).map .num
  | textAlign, v => v.map fun align => .str align.name
  | shadowLayers, v => v.map fun layers => .arr (layers.map ShadowLayer.toJson)
  | layoutMode, v => v.map fun mode => .str mode.name
  | alignItems, v => v.map fun align => .str align.name
  | justifyContent, v => v.map fun justify => .str justify.name
  | fillOpacity, v | strokeOpacity, v | strokeWeight, v | textOpacity, v | fontSize, v
    | lineHeight, v | radius _, v | padding _, v | margin _, v | gap _, v | size _, v
    | opacity, v => v.map .num

/-- All fields, in the order of the data. -/
def all : List Field :=
  [fillOpacity, strokeOpacity, strokeWeight, textOpacity, fontSize, fontWeight, lineHeight] ++
    radiusParts.map radius ++ boxParts.map padding ++ boxParts.map margin ++
    [gap .whole, gap (.axis .x), gap (.axis .y), size .width, size .height, size .minWidth,
      size .minHeight, size .maxWidth, size .maxHeight, opacity, fillVariable, noFill,
      strokeVariable, hasBorder, borderSides, borderStyle, dashPattern, textVariable, isWhiteText,
      textAlign, shadow, shadowLayers, layoutMode, alignItems, justifyContent, wrap, grow]

theorem mem_all (f : Field) : f ∈ all := by
  cases f with
  | radius part =>
    rcases part with _ | s | c
    · decide
    · cases s <;> decide
    · cases c <;> decide
  | padding part | margin part =>
    rcases part with _ | a | s
    · decide
    · cases a <;> decide
    · cases s <;> decide
  | gap part =>
    rcases part with _ | a
    · decide
    · cases a <;> decide
  | size part => cases part <;> decide
  | _ => decide

/-- The names of the fields in the data. -/
def key (f : Field) : String := Text.camelCase f.name

theorem nodup_states_keys : ("states" :: all.map key).Nodup := by
  decide +kernel

theorem nodup_keys : (all.map key).Nodup := (List.nodup_cons.mp nodup_states_keys).2

/-- No field has the name of the states. -/
theorem key_ne_states (f : Field) : f.key ≠ "states" := fun h =>
  (List.nodup_cons.mp nodup_states_keys).1 (h ▸ List.mem_map_of_mem f.mem_all)

end Field

/-- The fields of a style, set or not. -/
def rows (s : Style Number) : Table (Option Json) :=
  Field.all.map fun f => (f.key, f.data? (f.value s))

theorem fields_eq (s : Style Number) : s.fields = Table.present s.rows := by
  have hrows : s.numbers.map (fun p => (p.1, p.2.map Json.num)) ++ s.others =
      Field.all.map fun f => (f.name, f.data? (f.value s)) := rfl
  rw [fields, hrows, rows, Table.present, List.filterMap_map, List.filterMap_map]
  rfl

variable (s t : Style Number)

theorem keys_rows : Table.keys s.rows = Field.all.map Field.key := by
  rw [Table.keys, rows, List.map_map]
  rfl

theorem nodup_keys_rows : (Table.keys s.rows).Nodup := s.keys_rows ▸ Field.nodup_keys

theorem keys_fields_sublist : (Table.keys s.fields).Sublist (Field.all.map Field.key) := by
  rw [fields_eq, ← s.keys_rows]
  exact Table.keys_present_sublist _

theorem nodup_keys_fields : (Table.keys s.fields).Nodup :=
  Field.nodup_keys.sublist s.keys_fields_sublist

/-- A field that is set stands under its name. -/
theorem get?_fields (f : Field) : Table.get? f.key s.fields = f.data? (f.value s) := by
  rw [fields_eq]
  exact Table.get?_present s.nodup_keys_rows (List.mem_map_of_mem f.mem_all)

theorem get?_fields_eq_none {key : String} (h : ∀ f : Field, f.key ≠ key) :
    Table.get? key s.fields = none := by
  rw [Table.get?_eq_none_iff]
  intro hkey
  obtain ⟨f, -, rfl⟩ := List.mem_map.mp (s.keys_fields_sublist.subset hkey)
  exact h f rfl

end Style

/-! ### Equality -/

section

variable {α β : Type} {R : β → β → Prop} {v w : Option α}

theorem optionRel_map_iff {f g : α → β} :
    Option.Rel R (v.map f) (w.map g) ↔ Option.Rel (fun a b => R (f a) (g b)) v w := by
  cases v <;> cases w <;> simp

theorem optionRel_iff_eq {R : α → α → Prop} (h : ∀ a b, R a b ↔ a = b) : Option.Rel R v w ↔ v = w := by
  cases v <;> cases w <;> simp [h]

end

theorem Box.eq_of_get {α : Type} {b c : Box α} (h : ∀ part, b.get part = c.get part) : b = c := by
  cases b
  cases c
  rw [Box.mk.injEq]
  exact ⟨h .whole, h (.axis .x), h (.axis .y), h (.side .top), h (.side .right), h (.side .bottom),
    h (.side .left)⟩

theorem Radii.eq_of_get {α : Type} {r s : Radii α} (h : ∀ part, r.get part = s.get part) :
    r = s := by
  cases r
  cases s
  rw [Radii.mk.injEq]
  exact ⟨h .whole, h (.side .top), h (.side .right), h (.side .bottom), h (.side .left),
    h (.corner .topLeft), h (.corner .topRight), h (.corner .bottomRight),
    h (.corner .bottomLeft)⟩

theorem Gaps.eq_of_get {α : Type} {g k : Gaps α} (h : ∀ part, g.get part = k.get part) :
    g = k := by
  cases g
  cases k
  rw [Gaps.mk.injEq]
  exact ⟨h .whole, h (.axis .x), h (.axis .y)⟩

theorem Sizes.eq_of_get {α : Type} {s t : Sizes α} (h : ∀ part, s.get part = t.get part) :
    s = t := by
  cases s
  cases t
  rw [Sizes.mk.injEq]
  exact ⟨h .width, h .height, h .minWidth, h .minHeight, h .maxWidth, h .maxHeight⟩

namespace Style

/-- A style has nothing but its fields. -/
theorem eq_of_value {α : Type} {s t : Style α} (h : ∀ f : Field, f.value s = f.value t) :
    s = t := by
  have hradii := Radii.eq_of_get fun part => h (.radius part)
  have hpadding := Box.eq_of_get fun part => h (.padding part)
  have hmargin := Box.eq_of_get fun part => h (.margin part)
  have hgaps := Gaps.eq_of_get fun part => h (.gap part)
  have hsizes := Sizes.eq_of_get fun part => h (.size part)
  cases s
  cases t
  rw [Style.mk.injEq]
  exact ⟨h .fillVariable, h .fillOpacity, h .noFill, h .strokeVariable, h .strokeOpacity,
    h .hasBorder, h .strokeWeight, h .borderSides, h .borderStyle, h .dashPattern,
    h .textVariable, h .textOpacity, h .isWhiteText, h .fontSize, h .fontWeight, h .lineHeight,
    h .textAlign, hradii, hpadding, hmargin, hgaps, hsizes, h .opacity, h .shadow,
    h .shadowLayers, h .layoutMode, h .alignItems, h .justifyContent, h .wrap, h .grow⟩

namespace Field

/-- Equality of contents: numbers and shadow layers are compared by value. -/
def Alike : (f : Field) → f.Content Number → f.Content Number → Prop
  | fillVariable, v, w | strokeVariable, v, w | textVariable, v, w | shadow, v, w
    | noFill, v, w | hasBorder, v, w | isWhiteText, v, w | wrap, v, w | grow, v, w
    | borderSides, v, w | borderStyle, v, w | dashPattern, v, w | fontWeight, v, w
    | textAlign, v, w | layoutMode, v, w | alignItems, v, w | justifyContent, v, w => v = w
  | shadowLayers, v, w => Option.Rel (fun ls ms => ls.isEqv ms ShadowLayer.same) v w
  | fillOpacity, v, w | strokeOpacity, v, w | strokeWeight, v, w | textOpacity, v, w
    | fontSize, v, w | lineHeight, v, w | radius _, v, w | padding _, v, w | margin _, v, w
    | gap _, v, w | size _, v, w | opacity, v, w => Option.Rel (fun m n => m == n) v w

theorem rel_num (v w : Option Number) :
    Option.Rel (fun x y => Json.same x y) (v.map .num) (w.map .num) ↔
      Option.Rel (fun m n => m == n) v w :=
  optionRel_map_iff

theorem rel_flag (a b : Bool) :
    Option.Rel (fun x y => Json.same x y) (flag a) (flag b) ↔ a = b := by
  cases a <;> cases b <;> simp [flag, Json.same_bool]

/-- The data of two contents are equal just if the contents are. -/
theorem rel_data?_iff (f : Field) (v w : f.Content Number) :
    Option.Rel (fun x y => Json.same x y) (f.data? v) (f.data? w) ↔ f.Alike v w := by
  cases f with
  | fillVariable | strokeVariable | textVariable | shadow =>
    exact optionRel_map_iff.trans (optionRel_iff_eq Json.same_str_iff)
  | noFill | hasBorder | isWhiteText | wrap | grow => exact rel_flag v w
  | borderSides =>
    refine optionRel_map_iff.trans (optionRel_iff_eq fun xs ys => ?_)
    rw [Json.ofStrings, Json.ofStrings, Json.same, Json.sameItems_map_iff Json.same_str_iff]
    refine ⟨fun h => List.map_injective_iff.mpr ?_ h, congrArg _⟩
    intro a b
    cases a <;> cases b <;> decide
  | borderStyle | textAlign | layoutMode | alignItems | justifyContent =>
    refine optionRel_map_iff.trans (optionRel_iff_eq fun a b => (Json.same_str_iff _ _).trans ?_)
    cases a <;> cases b <;> decide
  | dashPattern =>
    refine optionRel_map_iff.trans (optionRel_iff_eq fun xs ys => ?_)
    have hnat : ∀ m n : Nat, Json.same (.ofNat m) (.ofNat n) ↔ m = n := fun m n =>
      (Json.same_int_iff (m : Int) (n : Int)).trans Int.ofNat_inj
    rw [Json.same]
    exact Json.sameItems_map_iff hnat xs ys
  | fontWeight =>
    exact optionRel_map_iff.trans (optionRel_map_iff.trans (optionRel_iff_eq Json.same_int_iff))
  | shadowLayers =>
    have hlayers : ∀ ls ms : List ShadowLayer,
        Json.same (.arr (ls.map ShadowLayer.toJson)) (.arr (ms.map ShadowLayer.toJson)) =
          ls.isEqv ms ShadowLayer.same := by
      intro ls ms
      rw [Json.same]
      exact Json.sameItems_map fun l _ m _ => l.same_toJson m
    refine optionRel_map_iff.trans ?_
    simp only [hlayers]
    rfl
  | _ => exact rel_num v w

end Field

/-- Equality of styles, field by field. -/
def Same (s t : Style Number) : Prop := ∀ f : Field, f.Alike (f.value s) (f.value t)

/-- The data of two styles are equal just if the styles are. -/
theorem same_toJson_iff (s t : Style Number) : Json.same s.toJson t.toJson ↔ s.Same t := by
  rw [toJson, toJson, Json.same_obj_iff s.nodup_keys_fields t.nodup_keys_fields]
  constructor
  · intro h f
    rw [← f.rel_data?_iff, ← s.get?_fields, ← t.get?_fields]
    exact h f.key
  · intro h key
    by_cases hkey : ∃ f : Field, f.key = key
    · obtain ⟨f, rfl⟩ := hkey
      rw [s.get?_fields, t.get?_fields, f.rel_data?_iff]
      exact h f
    · have hnone := not_exists.mp hkey
      rw [s.get?_fields_eq_none hnone, t.get?_fields_eq_none hnone]
      exact .none

end Style

/-! ### States -/

namespace Appearance

/-- The data of the states, if there are any. -/
def statesData? (a : Appearance Number) : Option Json :=
  if a.states.isEmpty then none else some (.obj (Table.mapValues Style.toJson a.states))

/-- Equality of appearances: of the base styles, and of the styles under the name of each state. -/
structure Same (a b : Appearance Number) : Prop where
  base : a.base.Same b.base
  states : ∀ name, Option.Rel Style.Same (Table.get? name a.states) (Table.get? name b.states)

variable (a b : Appearance Number)

theorem fields_eq : a.fields = a.base.fields ++ Table.present [("states", a.statesData?)] := by
  rw [fields, statesData?]
  split <;> rfl

theorem get?_fields (f : Style.Field) :
    Table.get? f.key a.fields = f.data? (f.value a.base) := by
  rw [fields_eq, Table.get?_append, Style.get?_fields]
  cases f.data? (f.value a.base) with
  | some v => rfl
  | none =>
    rw [Option.none_or, Table.get?_eq_none_iff]
    exact fun hkey => f.key_ne_states
      (List.mem_singleton.mp ((Table.keys_present_sublist _).subset hkey))

theorem get?_fields_states : Table.get? "states" a.fields = a.statesData? := by
  rw [fields_eq, Table.get?_append, a.base.get?_fields_eq_none Style.Field.key_ne_states, Option.none_or]
  exact Table.get?_present (List.nodup_singleton "states") (List.mem_singleton_self _)

theorem get?_fields_eq_none {key : String} (h : ∀ f : Style.Field, f.key ≠ key)
    (hstates : key ≠ "states") : Table.get? key a.fields = none := by
  rw [fields_eq, Table.get?_append, a.base.get?_fields_eq_none h, Option.none_or,
    Table.get?_eq_none_iff]
  exact fun hkey => hstates (List.mem_singleton.mp ((Table.keys_present_sublist _).subset hkey))

theorem nodup_keys_fields : (Table.keys a.fields).Nodup := by
  rw [fields_eq, Table.keys, List.map_append]
  refine List.nodup_append.mpr ⟨a.base.nodup_keys_fields,
    (List.nodup_singleton "states").sublist (Table.keys_present_sublist _), ?_⟩
  intro key hkey key' hkey' heq
  obtain rfl := List.mem_singleton.mp ((Table.keys_present_sublist _).subset hkey')
  obtain ⟨f, -, hf⟩ := List.mem_map.mp (a.base.keys_fields_sublist.subset hkey)
  exact f.key_ne_states (hf.trans heq)

/-- The state styles of an appearance are found in its data. -/
theorem field?_states (name : String) :
    (a.statesData?).bind (Json.field? name) = (Table.get? name a.states).map Style.toJson := by
  rw [statesData?]
  split
  · rename_i hempty
    rw [List.isEmpty_iff.mp hempty]
    rfl
  · exact Table.get?_mapValues _ _ _

variable {a b}

theorem rel_statesData?_iff (ha : (Table.keys a.states).Nodup) (hb : (Table.keys b.states).Nodup) :
    Option.Rel (fun x y => Json.same x y) a.statesData? b.statesData? ↔
      ∀ name, Option.Rel Style.Same (Table.get? name a.states) (Table.get? name b.states) := by
  have hkeys : ∀ t : Table (Style Number), Table.keys (Table.mapValues Style.toJson t) =
      Table.keys t := by
    intro t
    rw [Table.keys, Table.mapValues, List.map_map]
    rfl
  have hobj : Json.same (.obj (Table.mapValues Style.toJson a.states))
      (.obj (Table.mapValues Style.toJson b.states)) ↔
        ∀ name, Option.Rel Style.Same (Table.get? name a.states) (Table.get? name b.states) := by
    rw [Json.same_obj_iff (hkeys _ ▸ ha) (hkeys _ ▸ hb)]
    simp only [Table.get?_mapValues, optionRel_map_iff, Style.same_toJson_iff]
  rw [← hobj, statesData?, statesData?]
  cases a.states <;> cases b.states <;>
    simp [Table.mapValues, Json.same_obj, Json.sameFields]

/-- The data of two appearances are equal just if the appearances are. -/
theorem same_toJson_iff (ha : (Table.keys a.states).Nodup) (hb : (Table.keys b.states).Nodup) :
    Json.same a.toJson b.toJson ↔ a.Same b := by
  rw [toJson, toJson, Json.same_obj_iff a.nodup_keys_fields b.nodup_keys_fields]
  constructor
  · intro h
    refine ⟨fun f => ?_, (rel_statesData?_iff ha hb).mp ?_⟩
    · rw [← f.rel_data?_iff, ← a.get?_fields, ← b.get?_fields]
      exact h f.key
    · rw [← a.get?_fields_states, ← b.get?_fields_states]
      exact h "states"
  · rintro ⟨hbase, hstates⟩ key
    by_cases hkey : ∃ f : Style.Field, f.key = key
    · obtain ⟨f, rfl⟩ := hkey
      rw [a.get?_fields, b.get?_fields, f.rel_data?_iff]
      exact hbase f
    · by_cases hword : key = "states"
      · subst hword
        rw [a.get?_fields_states, b.get?_fields_states]
        exact (rel_statesData?_iff ha hb).mpr hstates
      · have hnone := not_exists.mp hkey
        rw [a.get?_fields_eq_none hnone hword, b.get?_fields_eq_none hnone hword]
        exact .none

end Appearance

namespace Utility

variable (scales : Theme.Scales) (settings : Settings)

/-- No state of a class string has two styles. -/
theorem nodup_states_appearanceOf (ts : List Token) {a : Appearance Number}
    (h : (Table.keys a.states).Nodup) :
    (Table.keys (appearanceOf scales settings ts a).states).Nodup := by
  induction ts generalizing a with
  | nil => exact h
  | cons t ts ih =>
    rw [appearanceOf_cons]
    refine ih ?_
    cases outcome scales settings t with
    | dropped reason => exact h
    | base u => exact h
    | state name u => exact Table.nodup_keys_put _ _ h

/-- The data of two class strings are equal just if what they are parsed to is, and empty just if
nothing is set. Each field stands in the data as it is set, and so does each state. -/
theorem same_toJson_parse (classes others : String) :
    let a := (parse scales settings classes).appearance
    let b := (parse scales settings others).appearance
    (Json.same a.toJson b.toJson ↔ a.Same b) ∧ (a.isEmpty ↔ a.Same {}) ∧
      (∀ f : Style.Field, Table.get? f.key a.fields = f.data? (f.value a.base)) ∧
      ∀ name, (Table.get? "states" a.fields).bind (Json.field? name) =
        (Table.get? name a.states).map Style.toJson := by
  intro a b
  have hnodup : ∀ ts, (Table.keys (appearanceOf scales settings ts {}).states).Nodup :=
    fun ts => nodup_states_appearanceOf scales settings ts List.nodup_nil
  refine ⟨Appearance.same_toJson_iff (hnodup _) (hnodup _), ?_, a.get?_fields, fun name => ?_⟩
  · have hfresh : Json.same a.toJson ({} : Appearance Number).toJson ↔ a.Same {} :=
      Appearance.same_toJson_iff (hnodup _) List.nodup_nil
    rw [← hfresh]
    change a.fields.isEmpty ↔ Json.same (.obj a.fields) (.obj [])
    cases a.fields <;> simp [Json.same_obj, Json.sameFields]
  · rw [a.get?_fields_states, a.field?_states]

end Utility

end DesignTokens
