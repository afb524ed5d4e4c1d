import DesignTokens.Proofs.Matrix.Complete
import DesignTokens.Proofs.Registry.Accepted
import DesignTokens.Proofs.Style.Filling
import DesignTokens.Proofs.Utility.Updates

/-!
The styles of cells. The root has what the base classes and the classes of the cell's values say,
filled up from the styling entries, and every sub-component with classes has what they say. All of
them stand in one table, so that a sub-component may take the place of the root.
-/
namespace DesignTokens

namespace Utility

variable (scales : Theme.Scales) (settings : Settings)

/-- What a text is parsed to depends on its words alone. -/
theorem parse_congr {s t : String} (h : Text.words s = Text.words t) :
    parse scales settings s = parse scales settings t := by
  rw [parse, parse, tokens, tokens, h]

/-- Empty texts do not count where texts are joined. -/
theorem words_join_nonempty (ts : List String) :
    Text.words (String.intercalate " " (ts.filter (· != ""))) =
      Text.words (String.intercalate " " ts) := by
  rw [Text.words_intercalate, Text.words_intercalate]
  induction ts with
  | nil => rfl
  | cons t ts ih =>
    by_cases h : t = ""
    · simp [h, ih]
    · simp [h, ih]

end Utility

namespace Matrix

open Utility (Settings parse)

/-- A value of each axis, in the order of the axes, and the class strings of these values. -/
inductive ClassesOf : List VariantAxis → Combination → List String → Prop where
  | nil : ClassesOf [] [] []
  | cons {a : VariantAxis} {x : AxisValue} {classes : String} {axes : List VariantAxis}
      {v : Combination} {rest : List String} (hx : x ∈ a.values)
      (hclasses : a.classFor? x.key = some classes) (h : ClassesOf axes v rest) :
      ClassesOf (a :: axes) ((a.name, x) :: v) (classes :: rest)

/-- The sub-components with base classes, by their keys. -/
def styledParts (c : Component) : List (String × String) :=
  c.subComponents.filterMap fun p => (p.2.baseClasses.filter (· != "")).map fun s => (p.1, s)

/-- The styles of the elements of a cell. A sub-component with base classes has the style that these
say, and the root has that of the base classes and the values' classes, filled from the styling; but
if a sub-component with base classes stands under the root's name, it takes the root's place. -/
structure StylesOf (scales : Theme.Scales) (settings : Settings) (c : Component) (v : Combination)
    (styles : Styles) : Prop where
  root : rootElement ∉ Table.keys (styledParts c) → ∃ classes root, ClassesOf c.axes v classes ∧
    Table.get? rootElement styles = some root ∧
    let parsed := parse scales settings
      (String.intercalate " " (c.baseClasses.getD "" :: classes))
    root.states = parsed.appearance.states ∧
      Style.Filled c.styling parsed.appearance.base root.base
  parts : ∀ key sub classes, (key, sub) ∈ c.subComponents → sub.baseClasses = some classes →
    classes ≠ "" → Table.get? key styles = some (parse scales settings classes).appearance
  count : styles.length =
    if rootElement ∈ Table.keys (styledParts c) then (styledParts c).length
    else 1 + (styledParts c).length

/-! ### Classes -/

theorem axis?_of_mem {c : Component} (hn : (c.axes.map (·.name)).Nodup) {a : VariantAxis}
    (ha : a ∈ c.axes) : c.axis? a.name = some a := by
  rw [Component.axis?]
  cases hfind : c.axes.find? (·.name == a.name) with
  | none => simpa using List.find?_eq_none.mp hfind a ha
  | some b =>
    have hname : b.name = a.name := by simpa using List.find?_some hfind
    rw [List.inj_on_of_nodup_map hn (List.mem_of_find?_eq_some hfind) ha hname]

theorem exists_classesOf {axes : List VariantAxis} {v : Combination} (h : IsCombination axes v)
    (hclass : ∀ a ∈ axes, ∀ x ∈ a.values, ∃ classes, a.classFor? x.key = some classes) :
    ∃ classes, ClassesOf axes v classes := by
  induction h with
  | nil => exact ⟨[], .nil⟩
  | @cons a axes x v hx _ ih =>
    obtain ⟨ha, haxes⟩ := List.forall_mem_cons.mp hclass
    obtain ⟨s, hs⟩ := ha x hx
    obtain ⟨rest, hrest⟩ := ih haxes
    exact ⟨s :: rest, .cons hx hs hrest⟩

/-- The classes of the values, found by the names of their axes. -/
theorem ClassesOf.map_eq {c : Component} (hn : (c.axes.map (·.name)).Nodup)
    {axes : List VariantAxis} {v : Combination} {classes : List String}
    (h : ClassesOf axes v classes) (hsub : axes ⊆ c.axes) :
    (v.map fun p => ((c.axis? p.1).bind fun a => a.classFor? p.2.key).getD "") = classes := by
  induction h with
  | nil => rfl
  | @cons a x s axes v rest _ hs _ ih =>
    obtain ⟨ha, haxes⟩ := List.cons_subset.mp hsub
    rw [List.map_cons, axis?_of_mem hn ha, Option.bind_some, hs, Option.getD_some, ih haxes]

/-! ### Styles -/

variable {scales : Theme.Scales} {settings : Settings} {c : Component} {v : Combination}

theorem mem_styledParts {key classes : String} : (key, classes) ∈ styledParts c ↔
    ∃ sub, (key, sub) ∈ c.subComponents ∧ sub.baseClasses = some classes ∧ classes ≠ "" := by
  simp only [styledParts, List.mem_filterMap, Option.map_eq_some_iff, Option.filter_eq_some_iff,
    Prod.exists, Prod.mk.injEq]
  constructor
  · rintro ⟨k, sub, hmem, s, ⟨hs, hne⟩, rfl, rfl⟩
    exact ⟨sub, hmem, hs, by simpa using hne⟩
  · rintro ⟨sub, hmem, hs, hne⟩
    exact ⟨key, sub, hmem, classes, ⟨hs, by simpa using hne⟩, rfl, rfl⟩

theorem keys_styledParts_sublist (c : Component) :
    (Table.keys (styledParts c)).Sublist (Table.keys c.subComponents) := by
  rw [styledParts]
  induction c.subComponents with
  | nil => exact .slnil
  | cons p subs ih =>
    rw [List.filterMap_cons]
    cases p.2.baseClasses.filter (· != "") with
    | none => exact ih.cons _
    | some s => exact ih.cons_cons _

/-- What a fold writes into a table beside its other result. -/
theorem foldl_fst {f : Styles × List String → String × SubComponent → Styles × List String}
    {part? : String × SubComponent → Option (String × Appearance Number)}
    (hf : ∀ acc p, (f acc p).1 = (part? p).elim acc.1 fun q => Table.put q.1 q.2 acc.1)
    (subs : Table SubComponent) (acc : Styles × List String) :
    (subs.foldl f acc).1 =
      (subs.filterMap part?).foldl (fun t q => Table.put q.1 q.2 t) acc.1 := by
  induction subs generalizing acc with
  | nil => rfl
  | cons p subs ih =>
    rw [List.foldl_cons, ih, hf, List.filterMap_cons]
    cases part? p <;> rfl

/-- The table of a cell: the root first, and then the sub-components are written into it. -/
theorem resolveStyles_fst (scales : Theme.Scales) (settings : Settings) (c : Component)
    (v : Combination) : ∃ root, (resolveStyles scales settings c v).1 =
      ((styledParts c).map fun p => (p.1, (parse scales settings p.2).appearance)).foldl
        (fun t p => Table.put p.1 p.2 t) [(rootElement, root)] ∧
      let parsed := parse scales settings (String.intercalate " " (c.baseClasses.getD "" ::
        v.map fun p => ((c.axis? p.1).bind fun a => a.classFor? p.2.key).getD ""))
      root = { parsed.appearance with base := parsed.appearance.base.fillFrom c.styling } := by
  rw [styledParts, List.map_filterMap]
  refine ⟨_, foldl_fst (fun acc p => ?_) _ _, ?_⟩
  · cases hclasses : p.2.baseClasses.filter (· != "") <;> simp [hclasses]
  · rw [Utility.parse_congr scales settings (Utility.words_join_nonempty _)]

/-- The styles that a combination gets, where names are not repeated. -/
theorem stylesOf_resolveStyles (hc : Registry.Accepted c) (hv : IsCombination c.axes v) :
    StylesOf scales settings c v (resolveStyles scales settings c v).1 := by
  obtain ⟨root, htable, hroot⟩ := resolveStyles_fst scales settings c v
  obtain ⟨classes, hclasses⟩ := exists_classesOf hv fun a ha x hx => hc.exists_class ha hx
  rw [hclasses.map_eq hc.wellFormed.names (List.Subset.refl _)] at hroot
  rw [htable]
  have hkeys : Table.keys ((styledParts c).map
      fun p => (p.1, (parse scales settings p.2).appearance)) = Table.keys (styledParts c) := by
    simp [Table.keys, Function.comp_def]
  have hn : (Table.keys (styledParts c)).Nodup :=
    hc.nodup_subComponents.sublist (keys_styledParts_sublist c)
  generalize hpairs : ((styledParts c).map
    fun p => (p.1, (parse scales settings p.2).appearance)) = pairs at hkeys ⊢
  have hlength : pairs.length = (styledParts c).length := by
    rw [← hpairs, List.length_map]
  constructor
  · intro hfree
    refine ⟨classes, root, hclasses, ?_, ?_⟩
    · rw [Table.foldl_put_of_nodup]
      · exact Table.get?_cons rootElement rootElement root pairs ▸ if_pos (beq_self_eq_true _)
      · have hjoin : Table.keys ([(rootElement, root)] ++ pairs) =
            rootElement :: Table.keys (styledParts c) := congrArg _ hkeys
        exact hjoin ▸ List.nodup_cons.mpr ⟨hfree, hn⟩
    · rw [hroot]
      exact ⟨rfl, Style.filled_fillFrom hc.nodup_styling _⟩
  · intro key sub s hsub hs hne
    have hmem : (key, (parse scales settings s).appearance) ∈ pairs :=
      hpairs ▸ List.mem_map.mpr ⟨(key, s), mem_styledParts.mpr ⟨sub, hsub, hs, hne⟩, rfl⟩
    exact Table.get?_foldl_put_of_mem (hkeys ▸ hn) hmem _
  · rw [Table.length_foldl_put_singleton _ (hkeys ▸ hn), hkeys, hlength]

/-- Every cell of an accepted component has the styles of its combination. -/
theorem stylesOf_of_expand (hc : Registry.Accepted c) {k : Constants Number} {modes : List String}
    {rowAxes : Table (List String)} {m : Matrix Number}
    (h : (Generator.ofTheme scales settings k modes rowAxes).expand c = .ok m)
    {x : PlacedCell Number} (hx : x ∈ m.grid.cells) :
    StylesOf scales settings c x.values x.styles := by
  obtain ⟨v, hv, e⟩ := (expands_of_expand h).exists_combination hx
  have hvalues : x.values = v := congrArg Cell.values e
  have hstyles : x.styles = (resolveStyles scales settings c v).1 := congrArg Cell.styles e
  rw [hvalues, hstyles]
  exact stylesOf_resolveStyles hc hv

/-- An entry with a switch, a width of its own and a sub-component under some name. -/
def panelSource (part : String) : Json :=
  .obj [("Panel", .obj [("description", .str ""), ("category", .str ""),
    ("props", .obj [("on", Registry.plainProp [.flag false, .flag true])]),
    ("baseStyles", .str "flex"), ("styling", .obj [("width", .num (.int 120))]),
    ("subComponents", .obj [(part, .obj [("baseStyles", .str "grow")])])])]

def panel (part : String) : Component where
  name := "Panel"
  description := ""
  category := ""
  axes := [⟨"on", [.flag false, .flag true], [("false", ""), ("true", "")],
    [("false", ""), ("true", "")], .flag false, "boolean"⟩]
  colors := []
  baseClasses := some "flex"
  subComponents := [(part, ⟨part, "", some "grow"⟩)]
  styling := [("width", .num (.int 120))]
  otherProps := []

theorem accepted_panel (part : String) : Registry.Accepted (panel part) := by
  have hnames : (panelSource part).NamesOnce := by
    simp [panelSource, Registry.plainProp, Table.keys, AxisValue.key, AxisValue.toJson]
  have hload : Registry.ofJson "" (panelSource part) = .ok ⟨[("Panel", panel part)], ""⟩ := by
    with_unfolding_all rfl
  exact ⟨_, _, _, "Panel", hnames, hload, List.mem_singleton.mpr rfl⟩

def panelGenerator : Generator Number := .ofTheme .plain {} .default defaultModes []

theorem exists_expand_panel {part : String} (hpart : part = "icon" ∨ part = rootElement) :
    ∃ m, panelGenerator.expand (panel part) = .ok m ∧ m.grid.cells ≠ [] := by
  let a : Assignment := ⟨(panel part).axes, []⟩
  have hassign : assign (panel part) none = .ok a := rfl
  have hexpand : panelGenerator.expand (panel part) =
      panelGenerator.layOut "Panel" a (panelGenerator.cells (panel part) a) :=
    congrArg (fun x => x.mapError Fault.unknownAxes >>= fun a =>
      panelGenerator.layOut "Panel" a (panelGenerator.cells (panel part) a)) hassign
  -- The combinations come in the order of the rows already.
  have hcells : panelGenerator.cells (panel part) a =
      (combinations (panel part).axes).map (panelGenerator.cell (panel part) a) := by
    apply List.mergeSort_of_pairwise
    rcases hpart with rfl | rfl <;> decide +kernel
  have hlayOut : (panelGenerator.layOut "Panel" a
      ((combinations (panel part).axes).map (panelGenerator.cell (panel part) a))).isOk := by
    rcases hpart with rfl | rfl <;> decide +kernel
  rw [← hcells, ← hexpand] at hlayOut
  obtain ⟨m, hm⟩ := exists_eq_ok hlayOut
  refine ⟨m, hm, ?_⟩
  intro hnil
  have hlength := (expands_of_expand hm).values_perm.length_eq
  rw [hnil] at hlength
  cases hlength

/-- An entry without props, of which the root and an icon have classes. -/
def plateSource (classes part : String) : Json :=
  .obj [("Plate", .obj [("description", .str ""), ("category", .str ""),
    ("baseStyles", .str classes),
    ("subComponents", .obj [("icon", .obj [("baseStyles", .str part)])])])]

def plate (classes part : String) : Component where
  name := "Plate"
  description := ""
  category := ""
  axes := []
  colors := []
  baseClasses := some classes
  subComponents := [("icon", ⟨"icon", "", some part⟩)]
  styling := []
  otherProps := []

theorem accepted_plate (classes part : String) : Registry.Accepted (plate classes part) := by
  have hnames : (plateSource classes part).NamesOnce := by
    simp [plateSource, Table.keys]
  have hload : Registry.ofJson "" (plateSource classes part) =
      .ok ⟨[("Plate", plate classes part)], ""⟩ := by
    with_unfolding_all rfl
  exact ⟨_, _, _, "Plate", hnames, hload, List.mem_singleton.mpr rfl⟩

/-- A plate has one cell. -/
theorem cells_plate (g : Generator Number) (classes part : String) (a : Assignment) :
    g.cells (plate classes part) a = [g.cell (plate classes part) a []] :=
  List.mergeSort_singleton _

/-- Both cells have the width, and an icon of their own. -/
theorem stylesOf_of_expand_icon : Registry.Accepted (panel "icon") ∧
    ∃ m, panelGenerator.expand (panel "icon") = .ok m ∧ m.grid.cells ≠ [] ∧
      ∀ x ∈ m.grid.cells, StylesOf .plain {} (panel "icon") x.values x.styles := by
  obtain ⟨m, hm, hcells⟩ := exists_expand_panel (.inl rfl)
  have hc := accepted_panel "icon"
  exact ⟨hc, m, hm, hcells, fun x hx => stylesOf_of_expand hc hm hx⟩

/-- A sub-component that has the root's name takes the root's place: no cell keeps what the base
classes and the styling say of its root. -/
theorem root_replaced_panel : Registry.Accepted (panel rootElement) ∧
    ∃ m, panelGenerator.expand (panel rootElement) = .ok m ∧ m.grid.cells ≠ [] ∧
      ∀ x ∈ m.grid.cells, ¬∃ classes root, ClassesOf (panel rootElement).axes x.values classes ∧
        Table.get? rootElement x.styles = some root ∧
        Style.Filled (panel rootElement).styling (parse .plain {} (String.intercalate " "
          ((panel rootElement).baseClasses.getD "" :: classes))).appearance.base root.base := by
  obtain ⟨m, hm, hcells⟩ := exists_expand_panel (.inr rfl)
  refine ⟨accepted_panel _, m, hm, hcells, ?_⟩
  rintro x hx ⟨classes, root, -, hroot, hfilled⟩
  obtain ⟨v, -, e⟩ := (expands_of_expand hm).exists_combination hx
  have hstyles : x.styles = (resolveStyles .plain {} (panel rootElement) v).1 :=
    congrArg Cell.styles e
  have hgrow : Table.get? rootElement x.styles = some (parse .plain {} "grow").appearance := by
    rw [hstyles]
    rfl
  obtain rfl := Option.some.inj (hgrow.symm.trans hroot)
  have hnone : (parse .plain {} "grow").appearance.base.get (.size .width) = none := rfl
  have hnumber : Style.numberUnder (panel rootElement).styling "width" = some (.int 120) := rfl
  have hwidth := hfilled.filled "width" (.size .width) rfl
  rw [hnone, hnumber] at hwidth
  simp at hwidth

end Matrix

end DesignTokens
