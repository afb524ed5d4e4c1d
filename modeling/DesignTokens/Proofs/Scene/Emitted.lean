import DesignTokens.Proofs.Matrix.Complete
import DesignTokens.Proofs.Scene.Document
import DesignTokens.Proofs.Scene.Sections

/-!
Emissions of matrices as a whole. None fails; its roots are the section frames; all other nodes have
one parent each; its document has each node once; and the number of its nodes can be told from the
matrices.
-/
namespace DesignTokens

namespace Matrix

variable {α : Type}

/-- The styles of a cell have one for its root, and just one for each of its elements. -/
def Cell.Styled (c : Cell α) : Prop :=
  (Table.keys c.styles).Nodup ∧ rootElement ∈ Table.keys c.styles

theorem styled_resolveStyles (scales : Theme.Scales) (settings : Utility.Settings) (c : Component)
    (values : Combination) :
    (Table.keys (resolveStyles scales settings c values).1).Nodup ∧
      rootElement ∈ Table.keys (resolveStyles scales settings c values).1 := by
  rw [resolveStyles]
  refine List.foldlRecOn (motive := fun p : Styles × List String =>
    (Table.keys p.1).Nodup ∧ rootElement ∈ Table.keys p.1) c.subComponents _ ?_ ?_
  · simp [Table.keys]
  · rintro ⟨styles, warnings⟩ ⟨hn, hroot⟩ ⟨name, sub⟩ -
    dsimp only
    split
    · exact ⟨hn, hroot⟩
    · refine ⟨Table.nodup_keys_put _ _ hn, ?_⟩
      rw [Table.keys_put]
      split
      · exact hroot
      · exact List.mem_append_left _ hroot

/-- All cells that are made under a theme are styled. -/
theorem styled_of_expand {scales : Theme.Scales} {settings : Utility.Settings}
    {k : Constants Number} {modes : List String} {rowAxes : Table (List String)} {c : Component}
    {m : Matrix Number} (h : (Generator.ofTheme scales settings k modes rowAxes).expand c = .ok m) :
    ∀ x ∈ m.grid.cells, x.Styled := by
  intro x hx
  obtain ⟨v, -, e⟩ := (expands_of_expand h).exists_combination hx
  rw [Cell.Styled, e]
  exact styled_resolveStyles scales settings c v

end Matrix

/-- The number of nodes that each section of a matrix takes: the frame with its title, a label for
each track that has one, and for each cell a component, its text and the elements below its root. -/
def Matrix.nodesPerSection {α : Type} (r : Matrix α) : Nat :=
  2 + (r.grid.cols.filter (·.label != "")).length + (r.grid.rows.filter (·.label != "")).length +
    (r.grid.cells.map fun c => 1 + c.styles.length).sum

namespace Scene

open DesignTokens.Matrix (ModeSection PlacedCell rootElement)

variable {α : Type}

/-! ### Kinds of nodes -/

mutual

/-- The kinds of the nodes of a drawing, in the order in which they are made. -/
def Drawing.kinds : Drawing α → List NodeKind
  | .node shape _ children => shape.kind :: kindsAll children

def Drawing.kindsAll : List (Drawing α) → List NodeKind
  | [] => []
  | d :: ds => d.kinds ++ kindsAll ds

end

mutual

theorem kinds_nodesAfter (n : Nat) : (d : Drawing α) → (d.nodesAfter n).map (·.kind) = d.kinds
  | .node shape marks children => by
    rw [Drawing.nodesAfter, List.map_cons, drawn_kind, kinds_nodesAllAfter (n + 1) children,
      Drawing.kinds]

theorem kinds_nodesAllAfter (n : Nat) : (ds : List (Drawing α)) →
    (nodesAllAfter n ds).map (·.kind) = Drawing.kindsAll ds
  | [] => rfl
  | d :: ds => by
    rw [nodesAllAfter, List.map_append, kinds_nodesAfter n d, kinds_nodesAllAfter (n + d.size) ds,
      Drawing.kindsAll]

end

theorem kindsAll_eq (ds : List (Drawing α)) : Drawing.kindsAll ds = ds.flatMap Drawing.kinds := by
  induction ds with
  | nil => rfl
  | cons d ds ih => rw [Drawing.kindsAll, ih, List.flatMap_cons]

/-- Drawings of one node each. -/
theorem kindsAll_map {β : Type} {kind : NodeKind} {f : β → Drawing α}
    (hf : ∀ b, (f b).kinds = [kind]) (bs : List β) :
    Drawing.kindsAll (bs.map f) = List.replicate bs.length kind := by
  induction bs with
  | nil => rfl
  | cons b bs ih =>
    rw [List.map_cons, Drawing.kindsAll, hf, ih]
    rfl

theorem kindsAll_append (ds es : List (Drawing α)) :
    Drawing.kindsAll (ds ++ es) = Drawing.kindsAll ds ++ Drawing.kindsAll es := by
  rw [kindsAll_eq, kindsAll_eq, kindsAll_eq, List.flatMap_append]

/-- A cell takes a component, its text and a frame for each style but that of its root. -/
theorem kinds_cellDrawing [Add α] (component : String) (m : ModeSection α) (c : PlacedCell α) :
    (cellDrawing component m c).kinds =
      .component :: .text :: List.replicate (Table.erase rootElement c.styles).length .frame := by
  rw [cellDrawing, Drawing.kinds, Drawing.kindsAll, kindsAll_map fun _ => rfl]
  rfl

theorem kinds_sectionDrawing [Add α] (titleY : α) (r : Matrix α) (y : α) (m : ModeSection α) :
    (sectionDrawing titleY r y m).kinds =
      .frame :: .text :: (List.replicate (r.grid.cols.filter (·.label != "")).length .text ++
        List.replicate (r.grid.rows.filter (·.label != "")).length .text ++
        r.grid.cells.flatMap fun c => (cellDrawing r.component m c).kinds) := by
  rw [sectionDrawing, Drawing.kinds, sectionContent, List.cons_append, List.cons_append,
    Drawing.kindsAll, kindsAll_append, kindsAll_append, kindsAll_map fun _ => rfl,
    kindsAll_map fun _ => rfl, kindsAll_eq, List.flatMap_map]
  rfl

/-! ### Numbers of nodes -/

section

variable [Add α] {r : Matrix α}

theorem length_kinds_sectionDrawing (titleY y : α) (m : ModeSection α)
    (h : ∀ c ∈ r.grid.cells, c.Styled) :
    (sectionDrawing titleY r y m).kinds.length = r.nodesPerSection := by
  have hcells : (r.grid.cells.flatMap fun c => (cellDrawing r.component m c).kinds).length =
      (r.grid.cells.map fun c => 1 + c.styles.length).sum := by
    rw [List.length_flatMap]
    refine congrArg List.sum (List.map_congr_left fun c hc => ?_)
    have hstyles := Table.length_erase (h c hc).1 (h c hc).2
    rw [kinds_cellDrawing, List.length_cons, List.length_cons, List.length_replicate]
    omega
  rw [kinds_sectionDrawing, Matrix.nodesPerSection, List.length_cons, List.length_cons,
    List.length_append, List.length_append, hcells, List.length_replicate, List.length_replicate]
  omega

/-- The components of a section are its cells. -/
theorem count_component_sectionDrawing (titleY y : α) (m : ModeSection α) :
    (sectionDrawing titleY r y m).kinds.count .component = r.grid.cells.length := by
  have hcell : ∀ c : PlacedCell α,
      (cellDrawing r.component m c).kinds.count .component = 1 := by
    intro c
    rw [kinds_cellDrawing]
    simp [List.count_replicate]
  rw [kinds_sectionDrawing]
  simp [List.count_replicate, List.count_flatMap, Function.comp_def, hcell]

variable [Zero α] [Max α]

/-- A number that each section of a matrix has in common, added up over all sections. -/
theorem sum_placedSections (k : Matrix.Constants α) (rs : List (Matrix α)) (f : Matrix α → Nat) :
    ((placedSections k rs).map fun p => f p.1).sum =
      (rs.map fun r => r.sections.length * f r).sum := by
  have hplaced : ∀ y, (((placed k y rs).flatMap fun p => p.1.sections.map fun m =>
      (p.1, p.2, m)).map fun p => f p.1).sum = (rs.map fun r => r.sections.length * f r).sum := by
    induction rs with
    | nil => exact fun _ => rfl
    | cons r rs ih =>
      intro y
      rw [placed, List.flatMap_cons, List.map_append, List.sum_append, ih, List.map_cons,
        List.sum_cons, List.map_map]
      simp [Function.comp_def]
  exact hplaced k.startY

end

/-! ### Emissions -/

/-- What an emission of matrices makes. -/
structure Emitted (k : Matrix.Constants Number) (rs : List (Matrix Number))
    (e : Emission Number) : Prop where
  /-- The roots are the frames of the sections, matrix by matrix and mode by mode. -/
  roots : List.Forall₂ (fun id p => ∃ x, e.scene.node? id = some x ∧
    ShowsSection e.scene x p.1 p.2.1 p.2.2) e.scene.roots (placedSections k rs)
  /-- All other nodes are the child of just one node. -/
  parents : ∀ x ∈ e.scene.nodes, (e.scene.nodes.flatMap (·.children)).count x.id =
    if x.id ∈ e.scene.roots then 0 else 1
  /-- The document has one object for each node. -/
  document : List.Forall₂ Node.WrittenAs e.scene.nodes.reverse e.scene.toJson.objects.tail
  /-- No two nodes have the same identity in the document. -/
  identities : (e.scene.nodes.map (·.id.text)).Nodup
  nodeCount : e.nodeCount = e.scene.nodes.length
  length_nodes :
    e.scene.nodes.length = (rs.map fun r => r.sections.length * r.nodesPerSection).sum
  count_components : (e.scene.nodes.map (·.kind)).count .component =
    (rs.map fun r => r.sections.length * r.grid.cells.length).sum

/-- Whatever matrices are emitted into an empty scene, no call fails, and the scene has for each
section of each matrix a root with all that the section shows below it. -/
theorem ofMatrices_emitted (k : Matrix.Constants Number) (rs : List (Matrix Number))
    (h : ∀ r ∈ rs, ∀ c ∈ r.grid.cells, c.Styled) :
    ∃ e, Emission.ofMatrices k rs = .ok e ∧ Emitted k rs e := by
  obtain ⟨e, he, hholds, hcount⟩ := exists_ofMatrices k rs
  have hkinds : e.scene.nodes.map (·.kind) = ((placedSections k rs).flatMap fun p =>
      (sectionDrawing k.sectionPadding p.1 p.2.1 p.2.2).kinds).reverse := by
    rw [hholds.nodes, List.map_reverse, kinds_nodesAllAfter, kindsAll_eq, drawings_eq,
      List.flatMap_map]
  refine ⟨e, he, hholds.forall₂_showsSection, fun x hx => hholds.count_children hx,
    hholds.forall₂_objects_toJson, hholds.nodup_texts, hcount.trans hholds.size_eq.symm, ?_, ?_⟩
  · rw [← List.length_map (·.kind), hkinds, List.length_reverse, List.length_flatMap,
      ← sum_placedSections k rs]
    refine congrArg List.sum (List.map_congr_left fun p hp => ?_)
    exact length_kinds_sectionDrawing _ _ _ (h _ (mem_of_mem_placedSections hp).1)
  · rw [hkinds, List.count_reverse, List.count_flatMap, ← sum_placedSections k rs]
    exact congrArg List.sum (List.map_congr_left fun p _ => count_component_sectionDrawing _ _ _)

/-- Two cells side by side, the second one with an icon, in two modes. -/
def twoCells : Matrix Number where
  component := "Tag"
  assignment := ⟨[], []⟩
  grid := {
    rows := [⟨0, 64, 20, ""⟩]
    cols := [⟨0, 144, 30, "Icon=off"⟩, ⟨1, 198, 36, "Icon=on"⟩]
    cells := [
      ⟨⟨[], [(rootElement, {})], 0, 0, "", "Icon=off", ⟨30, 20⟩, []⟩, 20, 30, 144, 64⟩,
      ⟨⟨[], [(rootElement, {}), ("icon", {})], 0, 1, "", "Icon=on", ⟨36, 18⟩, []⟩, 20, 36, 198,
        64⟩] }
  sections := [⟨"light", 100, 282, 164, 24, 56⟩, ⟨"dark", 432, 282, 164, 24, 56⟩]

/-- Each section of the two cells takes nine nodes. -/
theorem ofMatrices_emitted_twoCells :
    (∀ r ∈ [twoCells], ∀ c ∈ r.grid.cells, c.Styled) ∧
      ∃ e, Emission.ofMatrices .default [twoCells] = .ok e ∧ Emitted .default [twoCells] e ∧
        e.nodeCount = 18 := by
  have hstyled : ∀ r ∈ [twoCells], ∀ c ∈ r.grid.cells, c.Styled := by
    simp [twoCells, Matrix.Cell.Styled, Table.keys, rootElement]
  obtain ⟨e, he, hemitted⟩ := ofMatrices_emitted .default [twoCells] hstyled
  refine ⟨hstyled, e, he, hemitted, ?_⟩
  rw [hemitted.nodeCount, hemitted.length_nodes]
  rfl

end Scene

end DesignTokens
