import DesignTokens.Proofs.Matrix.Styled
import DesignTokens.Proofs.Scene.Sections
import DesignTokens.Proofs.Utility.Borders

/-!
Strokes of emitted nodes. The node of an element has the stroke that its classes call for: the
border shows or not as the last token says that shows or hides it, in the last colour and with the
last width. But a width of zero is drawn as a width of one, unless its token hides the border.
-/
namespace DesignTokens.Scene

open DesignTokens.Matrix (ClassesOf Generator ModeSection PlacedCell StylesOf rootElement
  styledParts)
open Utility (baseUpdates parse strokeOf stroke?_of_filled tokens)

variable {α : Type}

/-- The stroke that is bound to a node. -/
def Node.stroke? (x : Node α) : Option (String × Quantity α) :=
  match Table.get? "stroke" x.attributes, Table.get? "strokeWeight" x.attributes with
  | some (.text name), some (.quantity weight) => some (name, weight)
  | _, _ => none

/-- A node has a stroke of this colour and weight, or none. -/
def Node.HasStroke (x : Node α) (stroke : Option (String × Number)) : Prop :=
  x.stroke? = stroke.map fun p => (p.1, .given p.2)

/-- The marks of a style bind its stroke, between a fill and a radius. -/
theorem styleMarks_eq (s : Style Number) : ∃ (fill : Option String) (radius : Option Number),
    (styleMarks s : List (Mark α)) = (fill.map Mark.fill).toList ++
      (s.stroke?.map fun p => Mark.stroke p.1 (.given p.2)).toList ++
      (radius.map fun r => Mark.cornerRadius (.given r)).toList := by
  have hstroke : (s.stroke?.map fun p => (Mark.stroke p.1 (.given p.2) : Mark α)) =
      (if s.hasBorder then s.strokeVariable.filter (· != "") else none).map fun name =>
        Mark.stroke name (.given ((Matrix.nonzero s.strokeWeight).getD 1)) := by
    rw [Style.stroke?]
    split <;> simp [Function.comp_def]
  rw [hstroke]
  exact ⟨_, _, rfl⟩

/-- A node that is marked with a style has the style's stroke. -/
theorem hasStroke_drawn {shape : Shape α} (hshape : shape.kind ≠ .text) (id : NodeId)
    (s : Style Number) (ids : List NodeId) :
    (drawn id shape (styleMarks s) ids).HasStroke s.stroke? := by
  have hattributes : Table.get? "stroke" shape.attributes = none ∧
      Table.get? "strokeWeight" shape.attributes = none := by
    cases shape with
    | text => exact absurd rfl hshape
    | frame | component => exact ⟨rfl, rfl⟩
  obtain ⟨fill, radius, hmarks⟩ := styleMarks_eq (α := α) s
  rw [Node.HasStroke, Node.stroke?, drawn, hmarks, Table.get?_foldl_put, Table.get?_foldl_put,
    hattributes.1, hattributes.2]
  cases fill <;> cases s.stroke? <;> cases radius <;> simp [Mark.attributes, List.lookup_cons]

/-! ### Nodes of cells -/

/-- The frames among the children of a node. -/
def framesBelow (s : Scene α) (x : Node α) : List (Node α) :=
  (x.children.filterMap s.node?).filter (·.kind = .frame)

/-- The strokes of a cell: its node has that of the root, and the frames below it have those of the
other elements. -/
structure ShowsStrokes (s : Scene α) (c : PlacedCell α) (x : Node α) : Prop where
  root : x.HasStroke c.rootStyle.stroke?
  elements : List.Forall₂ (fun p f => f.name = p.1 ∧ f.HasStroke p.2.base.stroke?)
    (Table.erase rootElement c.styles) (s.framesBelow x)

theorem showsStrokes_of_shows [Add α] {s : Scene α} {component : String} {m : ModeSection α}
    {c : PlacedCell α} {id : NodeId} {x : Node α} (hx : s.node? id = some x)
    (h : Shows s id (cellDrawing component m c)) : ShowsStrokes s c x := by
  obtain ⟨found, below⟩ := h
  obtain rfl := Option.some.inj (found.symm.trans hx)
  change List.Forall₂ (Shows s) _ (cellText component c.rootStyle ::
    (Table.erase rootElement c.styles).map fun p => elementFrame p.1 p.2.base) at below
  have helements : ∀ d ∈ (Table.erase rootElement c.styles).map
      fun p => elementFrame (α := α) p.1 p.2.base, d.shape.kind = .frame := by
    intro d hd
    obtain ⟨p, -, rfl⟩ := List.mem_map.mp hd
    rfl
  refine ⟨hasStroke_drawn (by simp [Shape.kind]) _ _ _, ?_⟩
  have hframes := forall₂_shown_of_kind .frame below
  rw [List.filter_cons_of_neg (by simp [cellText, Shape.kind]),
    List.filter_eq_self.mpr (by simpa using helements), List.forall₂_map_left_iff] at hframes
  refine hframes.imp ?_
  rintro p f ⟨id, hf, hshows⟩
  obtain ⟨found, -⟩ := hshows
  obtain rfl := Option.some.inj (found.symm.trans hf)
  exact ⟨rfl, hasStroke_drawn (by simp [Shape.kind]) _ _ _⟩

/-- The cells of a section have their strokes. -/
theorem showsStrokes_of_section [Add α] {s : Scene α} {id : NodeId} {titleY y : α} {r : Matrix α}
    {m : ModeSection α} (h : Shows s id (sectionDrawing titleY r y m)) :
    ∃ x, s.node? id = some x ∧
      List.Forall₂ (ShowsStrokes s) r.grid.cells (s.componentsBelow x) := by
  obtain ⟨found, below⟩ := h
  refine ⟨_, found, ?_⟩
  have hcells := forall₂_shown_of_kind .component below
  rw [filter_sectionContent, List.forall₂_map_left_iff] at hcells
  refine hcells.imp ?_
  rintro c x ⟨id, hx, hshows⟩
  exact showsStrokes_of_shows hx hshows

/-! ### Class strings -/

/-- The strokes that the class strings of a component call for. The root has that of the base
classes and the classes of its values, where the styling may give a weight, and every sub-component
with classes has that of its own; under the root's name it takes the root's place. -/
structure StrokesOf (scales : Theme.Scales) (settings : Utility.Settings) (c : Component)
    (s : Scene α) (cell : PlacedCell α) (x : Node α) : Prop where
  root : rootElement ∉ Table.keys (styledParts c) → ∃ classes,
    ClassesOf c.axes cell.values classes ∧
      x.HasStroke (strokeOf (baseUpdates scales settings
          (tokens (String.intercalate " " (c.baseClasses.getD "" :: classes))))
        (Style.numberUnder c.styling "strokeWeight"))
  parts : ∀ p ∈ styledParts c, p.1 ≠ rootElement → ∃ f ∈ s.framesBelow x, f.name = p.1 ∧
    f.HasStroke (strokeOf (baseUpdates scales settings (tokens p.2)) none)
  replaced : ∀ p ∈ styledParts c, p.1 = rootElement →
    x.HasStroke (strokeOf (baseUpdates scales settings (tokens p.2)) none)

variable {scales : Theme.Scales} {settings : Utility.Settings}

theorem stroke?_parse (scales : Theme.Scales) (settings : Utility.Settings) (classes : String) :
    (parse scales settings classes).appearance.base.stroke? =
      strokeOf (baseUpdates scales settings (tokens classes)) none := by
  have hnumber : Style.numberUnder [] "strokeWeight" = none := rfl
  rw [Utility.base_parse, stroke?_of_filled (Style.filled_nil _), hnumber]

theorem ShowsStrokes.strokesOf {c : Component} {s : Scene α} {cell : PlacedCell α} {x : Node α}
    (h : ShowsStrokes s cell x) (hstyles : StylesOf scales settings c cell.values cell.styles) :
    StrokesOf scales settings c s cell x where
  root := by
    intro hfree
    obtain ⟨classes, root, hclasses, hroot, -, hfilled⟩ := hstyles.root hfree
    have hstyle : cell.rootStyle = root.base := by rw [Matrix.Cell.rootStyle, hroot]; rfl
    rw [Utility.base_parse] at hfilled
    exact ⟨classes, hclasses, stroke?_of_filled hfilled ▸ hstyle ▸ h.root⟩
  parts := by
    rintro ⟨key, classes⟩ hp hkey
    obtain ⟨sub, hsub, hclasses, hne⟩ := Matrix.mem_styledParts.mp hp
    have hget := Table.mem_of_get? (hstyles.parts key sub classes hsub hclasses hne)
    have helement : (key, (parse scales settings classes).appearance) ∈
        Table.erase rootElement cell.styles :=
      List.mem_filter.mpr ⟨hget, by simpa using hkey⟩
    obtain ⟨f, hf, hname, hstroke⟩ := exists_right_of_forall₂ h.elements helement
    exact ⟨f, hf, hname, stroke?_parse scales settings classes ▸ hstroke⟩
  replaced := by
    rintro ⟨key, classes⟩ hp rfl
    obtain ⟨sub, hsub, hclasses, hne⟩ := Matrix.mem_styledParts.mp hp
    have hroot := hstyles.parts rootElement sub classes hsub hclasses hne
    have hstyle : cell.rootStyle = (parse scales settings classes).appearance.base := by
      rw [Matrix.Cell.rootStyle, hroot]
      rfl
    exact stroke?_parse scales settings classes ▸ hstyle ▸ h.root

/-- The strokes below the frame of a section, for any accepted component that its matrix shows. -/
theorem exists_strokesOf {s : Scene Number} {id : NodeId} {titleY y : Number} {r : Matrix Number}
    {m : ModeSection Number} (h : Shows s id (sectionDrawing titleY r y m)) :
    ∃ x, s.node? id = some x ∧ List.Forall₂ (ShowsStrokes s) r.grid.cells (s.componentsBelow x) ∧
      ∀ c, Registry.Accepted c → ∀ k modes rowAxes,
        (Generator.ofTheme scales settings k modes rowAxes).expand c = .ok r →
        List.Forall₂ (StrokesOf scales settings c s) r.grid.cells (s.componentsBelow x) := by
  obtain ⟨x, hx, hcells⟩ := showsStrokes_of_section h
  refine ⟨x, hx, hcells, fun c hc k modes rowAxes hr => ?_⟩
  refine List.forall₂_iff_get.mpr ⟨hcells.length_eq, fun i h h' => ?_⟩
  exact (hcells.get h h').strokesOf (Matrix.stylesOf_of_expand hc hr (List.get_mem _ _))

/-- No emission fails, and the node of each element of a cell has the stroke that the classes of the
element call for. -/
theorem strokes_emitted (scales : Theme.Scales) (settings : Utility.Settings)
    (k : Matrix.Constants Number) (rs : List (Matrix Number)) :
    ∃ e, Emission.ofMatrices k rs = .ok e ∧
      List.Forall₂ (fun id p => ∃ x, e.scene.node? id = some x ∧
        ∀ c, Registry.Accepted c → ∀ k' modes rowAxes,
          (Generator.ofTheme scales settings k' modes rowAxes).expand c = .ok p.1 →
          List.Forall₂ (StrokesOf scales settings c e.scene) p.1.grid.cells
            (e.scene.componentsBelow x)) e.scene.roots (placedSections k rs) := by
  obtain ⟨e, he, hholds, -⟩ := exists_ofMatrices k rs
  have hshows := hholds.shows
  rw [drawings_eq, List.forall₂_map_right_iff] at hshows
  refine ⟨e, he, hshows.imp ?_⟩
  intro id p h
  obtain ⟨x, hx, -, hstrokes⟩ := exists_strokesOf h
  exact ⟨x, hx, hstrokes⟩

/-! ### A plate with a line -/

/-- A plate with a line of no width, and an icon without a border. -/
def linedPlate : Component := Matrix.plate "border-kumo-line border-[0px]" "border-none"

theorem exists_expand_linedPlate : ∃ m, Matrix.panelGenerator.expand linedPlate = .ok m := by
  have hok : (Matrix.panelGenerator.expand linedPlate).isOk := by decide +kernel
  exact exists_eq_ok hok

theorem strokes_emitted_linedPlate :
    Registry.Accepted linedPlate ∧ ∃ m, Matrix.panelGenerator.expand linedPlate = .ok m ∧
      ∃ e, Emission.ofMatrices .default [m] = .ok e ∧
        List.Forall₂ (fun id _ => ∃ x, e.scene.node? id = some x ∧
          List.Forall₂ (StrokesOf .plain {} linedPlate e.scene) m.grid.cells
            (e.scene.componentsBelow x)) e.scene.roots m.sections := by
  have hc : Registry.Accepted linedPlate := Matrix.accepted_plate _ _
  obtain ⟨m, hm⟩ := exists_expand_linedPlate
  obtain ⟨e, he, hstrokes⟩ := strokes_emitted .plain {} .default [m]
  have hplaced : placedSections .default [m] = m.sections.map fun s => (m, 100, s) := by
    simp [placedSections, placed, Matrix.Constants.default]
  rw [hplaced, List.forall₂_map_right_iff] at hstrokes
  refine ⟨hc, m, hm, e, he, hstrokes.imp ?_⟩
  rintro id s ⟨x, hx, hcells⟩
  exact ⟨x, hx, hcells linedPlate hc _ _ _ hm⟩

/-- A node has the stroke of a style as it was parsed: it has one just if the style has a border, a
colour and a width that is not zero, and then in this width. -/
def Node.DrawsParsed (x : Node Number) (s : Style Number) : Prop :=
  ∀ name w, x.stroke? = some (name, .given w) ↔
    s.hasBorder ∧ s.strokeVariable = some name ∧ s.strokeWeight.getD 1 = w ∧ ¬w.isZero

/-- The line of no width is drawn. -/
theorem line_drawn :
    Registry.Accepted linedPlate ∧ ∃ m, Matrix.panelGenerator.expand linedPlate = .ok m ∧
      ∃ e, Emission.ofMatrices .default [m] = .ok e ∧
        ∃ id ∈ e.scene.roots, ∃ x, e.scene.node? id = some x ∧
          ∃ cell ∈ m.grid.cells, ∃ n ∈ e.scene.componentsBelow x,
            cell.rootStyle = (parse .plain {} "border-kumo-line border-[0px]").appearance.base ∧
              ShowsStrokes e.scene cell n ∧ ¬n.DrawsParsed cell.rootStyle := by
  obtain ⟨m, hm⟩ := exists_expand_linedPlate
  obtain ⟨e, he, hholds, -⟩ := exists_ofMatrices .default [m]
  have hexpands := Matrix.expands_of_expand hm
  obtain ⟨id, hid, frame, hsection⟩ : ∃ id ∈ e.scene.roots, ∃ frame,
      Shows e.scene id (sectionDrawing 24 m 100 frame) := by
    have hmodes : m.sections.map (·.mode) = ["light", "dark"] := hexpands.modes
    obtain ⟨frame, hframe, -⟩ := List.mem_map.mp (hmodes ▸ List.mem_cons_self)
    have hdrawing : sectionDrawing 24 m 100 frame ∈ drawings .default [m] := by
      rw [drawings_eq]
      refine List.mem_map.mpr ⟨(m, 100, frame), ?_, rfl⟩
      simpa [placedSections, placed, Matrix.Constants.default] using hframe
    obtain ⟨id, hid, hshows⟩ := exists_left_of_forall₂ hholds.shows hdrawing
    exact ⟨id, hid, frame, hshows⟩
  obtain ⟨cell, hcells, hstyles⟩ : ∃ cell, m.grid.cells = [cell] ∧
      cell.styles = (Matrix.resolveStyles .plain {} linedPlate []).1 := by
    have htoCell := hexpands.toCell_eq
    rw [linedPlate, Matrix.cells_plate, List.map_eq_singleton_iff] at htoCell
    obtain ⟨cell, hcells, htoCell⟩ := htoCell
    exact ⟨cell, hcells, congrArg Matrix.Cell.styles htoCell⟩
  obtain ⟨x, hx, hstrokes⟩ := showsStrokes_of_section hsection
  have hcell : cell ∈ m.grid.cells := hcells ▸ List.mem_cons_self
  obtain ⟨n, hn, hshows⟩ := exists_right_of_forall₂ hstrokes hcell
  have hroot : cell.rootStyle =
      (parse .plain {} "border-kumo-line border-[0px]").appearance.base := by
    rw [Matrix.Cell.rootStyle, hstyles]
    rfl
  refine ⟨Matrix.accepted_plate _ _, m, hm, e, he, id, hid, x, hx, cell, hcell, n, hn, hroot,
    hshows, ?_⟩
  intro hparsed
  have hstroke : cell.rootStyle.stroke? = some ("color-kumo-line", 1) := by
    rw [hroot]
    decide +kernel
  have hweight : (cell.rootStyle.strokeWeight.getD 1).isZero := by
    rw [hroot]
    decide +kernel
  have hdrawn : n.stroke? = some ("color-kumo-line", .given 1) := by
    rw [hshows.root, hstroke]
    rfl
  obtain ⟨-, -, hone, hnonzero⟩ := (hparsed _ _).mp hdrawn
  exact hnonzero (hone ▸ hweight)

end DesignTokens.Scene
