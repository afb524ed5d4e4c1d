import DesignTokens.Proofs.Scene.Shown
import DesignTokens.Proofs.Tables
import DesignTokens.Scene.Data
import DesignTokens.Scene.Emission

/-!
What an emission draws. Each section becomes a root, in the order of the matrices and of their modes,
and stands where its layout has put it, with a component node in the place of each of its cells.
-/
namespace DesignTokens.Scene

open DesignTokens.Matrix (ModeSection PlacedCell Track)

variable {α : Type}

/-! ### Nodes in their places -/

/-- A node takes up a box of lengths that a layout computed. -/
structure Node.Occupies (n : Node α) (x y width height : α) : Prop where
  x : n.x = .laid x
  y : n.y = .laid y
  width : Table.get? "width" n.attributes = some (.quantity (.laid width))
  height : Table.get? "height" n.attributes = some (.quantity (.laid height))

/-- Marks leave the attributes that they do not set. -/
theorem get?_attributes_drawn {key : String} {marks : List (Mark α)}
    (h : ∀ m ∈ marks, key ∉ Table.keys m.attributes) (id : NodeId) (shape : Shape α)
    (children : List NodeId) :
    Table.get? key (drawn id shape marks children).attributes =
      Table.get? key shape.attributes := by
  have hnone : (marks.flatMap Mark.attributes).reverse.lookup key = none := by
    rw [List.lookup_eq_none_iff]
    intro p hp
    obtain ⟨m, hm, hp⟩ := List.mem_flatMap.mp (List.mem_reverse.mp hp)
    have hne : key ≠ p.1 := fun e => h m hm (e ▸ List.mem_map_of_mem hp)
    simpa using hne
  rw [drawn, Table.get?_foldl_put, hnone, Option.none_or]

/-- A style gives its node no size. -/
theorem not_mem_keys_styleMarks {key : String} (hkey : key = "width" ∨ key = "height")
    {s : Style Number} {m : Mark α} (hm : m ∈ styleMarks s) : key ∉ Table.keys m.attributes := by
  simp only [styleMarks, List.mem_append, Option.mem_toList, Option.map_eq_some_iff] at hm
  rcases hm with (⟨_, -, rfl⟩ | ⟨_, -, rfl⟩) | ⟨_, -, rfl⟩ <;>
    rcases hkey with rfl | rfl <;> simp [Mark.attributes, Table.keys]

/-! ### Sections -/

/-- Each section with its matrix and its height, in the order in which they are drawn. -/
def placedSections [Add α] [Zero α] [Max α] (k : Matrix.Constants α) (rs : List (Matrix α)) :
    List (Matrix α × α × ModeSection α) :=
  (placed k k.startY rs).flatMap fun p => p.1.sections.map fun m => (p.1, p.2, m)

def Drawing.shape : Drawing α → Shape α
  | .node shape _ _ => shape

def Drawing.marks : Drawing α → List (Mark α)
  | .node _ marks _ => marks

@[simp] theorem shape_node (shape : Shape α) (marks : List (Mark α)) (children : List (Drawing α)) :
    (Drawing.node shape marks children).shape = shape := rfl

@[simp] theorem drawn_kind (id : NodeId) (shape : Shape α) (marks : List (Mark α))
    (children : List NodeId) : (drawn id shape marks children).kind = shape.kind := rfl

/-- Among the nodes of some drawings, those of a kind. -/
theorem forall₂_shown_of_kind {s : Scene α} {ids : List NodeId} {ds : List (Drawing α)}
    (kind : NodeKind) (h : List.Forall₂ (Shows s) ids ds) :
    List.Forall₂ (fun d x => ∃ id, s.node? id = some x ∧ Shows s id d)
      (ds.filter (·.shape.kind = kind)) ((ids.filterMap s.node?).filter (·.kind = kind)) := by
  induction h with
  | nil => exact .nil
  | cons hshows _ ih =>
    obtain ⟨found, below⟩ := hshows
    rw [List.filterMap_cons_some found, List.filter_cons, List.filter_cons, shape_node, drawn_kind]
    split
    · exact .cons ⟨_, found, .node found below⟩ ih
    · exact ih

/-- Among the nodes of some drawings, those of the components. -/
theorem forall₂_components {s : Scene α} {ids : List NodeId} {ds : List (Drawing α)}
    (h : List.Forall₂ (Shows s) ids ds) :
    List.Forall₂ (fun d x => ∃ id ids, x = drawn id d.shape d.marks ids)
      (ds.filter (·.shape.kind = .component))
      ((ids.filterMap s.node?).filter (·.kind = .component)) := by
  refine (forall₂_shown_of_kind .component h).imp ?_
  rintro d x ⟨id, hx, found, below⟩
  exact ⟨_, _, Option.some.inj (hx.symm.trans found)⟩

/-- The component nodes among the children of a node. -/
def componentsBelow (s : Scene α) (x : Node α) : List (Node α) :=
  (x.children.filterMap s.node?).filter (·.kind = .component)

variable [Add α]

/-- A node is that of a cell in a section. -/
structure Node.ShowsCell (x : Node α) (component : String) (m : ModeSection α)
    (c : PlacedCell α) : Prop where
  kind : x.kind = .component
  name : x.name = if c.name == "" then component else c.name
  place : x.Occupies (m.contentX + c.x) (m.contentY + c.y) c.extent.width c.extent.height

/-- A node is the frame of a section. -/
structure ShowsSection (s : Scene α) (x : Node α) (r : Matrix α) (y : α) (m : ModeSection α) :
    Prop where
  kind : x.kind = .frame
  name : x.name = r.component ++ " (" ++ m.mode ++ ")"
  place : x.Occupies m.x y m.width m.height
  cells : List.Forall₂ (fun c n => Node.ShowsCell n r.component m c) r.grid.cells
    (s.componentsBelow x)

theorem showsCell_drawn (component : String) (m : ModeSection α) (c : PlacedCell α) (id : NodeId)
    (ids : List NodeId) :
    Node.ShowsCell (drawn id (cellDrawing component m c).shape (cellDrawing component m c).marks ids)
      component m c where
  kind := rfl
  name := rfl
  place := by
    refine ⟨rfl, rfl, ?_, ?_⟩
    · exact get?_attributes_drawn (fun _ hm => not_mem_keys_styleMarks (.inl rfl) hm) _ _ _
    · exact get?_attributes_drawn (fun _ hm => not_mem_keys_styleMarks (.inr rfl) hm) _ _ _

/-- The content of a section has one component for each cell. -/
theorem filter_sectionContent (titleY : α) (r : Matrix α) (m : ModeSection α) :
    (sectionContent titleY r m).filter (·.shape.kind = .component) =
      r.grid.cells.map (cellDrawing r.component m) := by
  have hcells : (r.grid.cells.map (cellDrawing r.component m)).filter
      (·.shape.kind = .component) = r.grid.cells.map (cellDrawing r.component m) := by
    rw [List.filter_eq_self]
    intro d hd
    obtain ⟨c, -, rfl⟩ := List.mem_map.mp hd
    rfl
  have hlabels : ∀ {ts : List (Track α)} {f : Track α → Drawing α},
      (∀ t, (f t).shape.kind = .text) → (ts.map f).filter (·.shape.kind = .component) = [] := by
    intro ts f hf
    rw [List.filter_eq_nil_iff]
    intro d hd
    obtain ⟨t, -, rfl⟩ := List.mem_map.mp hd
    simp [hf t]
  rw [sectionContent, List.filter_append, hcells, List.cons_append, List.filter_cons,
    List.filter_append, hlabels fun _ => rfl, hlabels fun _ => rfl]
  rfl

theorem showsSection_of_shows {s : Scene α} {id : NodeId} {titleY : α} {r : Matrix α} {y : α}
    {m : ModeSection α} (h : Shows s id (sectionDrawing titleY r y m)) :
    ∃ x, s.node? id = some x ∧ ShowsSection s x r y m := by
  cases h with
  | node found below =>
    refine ⟨_, found, rfl, rfl, ⟨rfl, rfl, rfl, rfl⟩, ?_⟩
    have hcells := forall₂_components below
    rw [filter_sectionContent, List.forall₂_map_left_iff] at hcells
    refine hcells.imp ?_
    rintro c _ ⟨id, ids, rfl⟩
    exact showsCell_drawn r.component m c id ids

variable [Zero α] [Max α] {k : Matrix.Constants α} {rs : List (Matrix α)}

theorem map_fst_placed (k : Matrix.Constants α) (y : α) (rs : List (Matrix α)) :
    (placed k y rs).map (·.1) = rs := by
  induction rs generalizing y with
  | nil => rfl
  | cons r rs ih => rw [placed, List.map_cons, ih]

theorem mem_of_mem_placed {y : α} {p : Matrix α × α} (h : p ∈ placed k y rs) : p.1 ∈ rs := by
  rw [← map_fst_placed k y rs]
  exact List.mem_map_of_mem h

/-- Each section comes from one of the matrices. -/
theorem mem_of_mem_placedSections {p : Matrix α × α × ModeSection α}
    (h : p ∈ placedSections k rs) : p.1 ∈ rs ∧ p.2.2 ∈ p.1.sections := by
  obtain ⟨q, hq, hp⟩ := List.mem_flatMap.mp h
  obtain ⟨m, hm, rfl⟩ := List.mem_map.mp hp
  exact ⟨mem_of_mem_placed hq, hm⟩

theorem drawings_eq (k : Matrix.Constants α) (rs : List (Matrix α)) :
    drawings k rs = (placedSections k rs).map fun p =>
      sectionDrawing k.sectionPadding p.1 p.2.1 p.2.2 := by
  rw [drawings, placedSections, List.map_flatMap]
  simp only [List.map_map]
  rfl

/-- The roots are the frames of the sections, in order. -/
theorem Holds.forall₂_showsSection {s : Scene α} (h : Holds s (drawings k rs)) :
    List.Forall₂ (fun id p => ∃ x, s.node? id = some x ∧ ShowsSection s x p.1 p.2.1 p.2.2) s.roots
      (placedSections k rs) := by
  have hshows := h.shows
  rw [drawings_eq, List.forall₂_map_right_iff] at hshows
  exact hshows.imp fun _ _ h => showsSection_of_shows h

/-- No emission fails. -/
theorem exists_ofMatrices (k : Matrix.Constants α) (rs : List (Matrix α)) :
    ∃ e, Emission.ofMatrices k rs = .ok e ∧ Holds e.scene (drawings k rs) ∧
      e.nodeCount = Drawing.sizeAll (drawings k rs) := by
  obtain ⟨s, hs, hholds⟩ := exists_drawAll (drawings k rs)
  exact ⟨_, by rw [Emission.ofMatrices, Emission.into, hs]; rfl, hholds, rfl⟩

end DesignTokens.Scene
