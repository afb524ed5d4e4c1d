import DesignTokens.Proofs.Matrix.Checked
import DesignTokens.Proofs.Registry.Accepted
import DesignTokens.Proofs.Scene.Document
import DesignTokens.Proofs.Scene.Reached
import DesignTokens.Proofs.Scene.Sections

/-!
Sections as copies of each other. What is written of a drawing depends on the drawing alone, but for
the identities of its nodes. So the frames of two sections of a component hold the same, whatever else
the scene holds.
-/
namespace DesignTokens

namespace Json

mutual

/-- A value without the members of one name, at any depth. -/
def without (name : String) : Json → Json
  | .obj fields => .obj (withoutInFields name fields)
  | .arr items => .arr (withoutInItems name items)
  | .null => .null
  | .bool b => .bool b
  | .num n => .num n
  | .str s => .str s

def withoutInItems (name : String) : List Json → List Json
  | [] => []
  | v :: vs => without name v :: withoutInItems name vs

def withoutInFields (name : String) : Table Json → Table Json
  | [] => []
  | (k, v) :: fields =>
    if k == name then withoutInFields name fields
    else (k, without name v) :: withoutInFields name fields

end

theorem withoutInFields_append (name : String) (fs gs : Table Json) :
    withoutInFields name (fs ++ gs) = withoutInFields name fs ++ withoutInFields name gs := by
  induction fs with
  | nil => rfl
  | cons p fs ih =>
    obtain ⟨k, v⟩ := p
    rw [List.cons_append, withoutInFields, withoutInFields, ih]
    split <;> rfl

end Json

namespace Scene

open DesignTokens.Matrix (Constants Generator ModeSection expands_of_expand rootElement)

/-! ### What is written of a drawing -/

mutual

/-- The tree of a drawing without the identities of its nodes. -/
def Drawing.written : Drawing Number → Json
  | .node shape marks children =>
    .obj ([("type", .str shape.kind.name), ("name", .str shape.name), ("x", shape.x.toJson),
      ("y", shape.y.toJson), ("children", .arr (writtenAll children))] ++
      Json.withoutInFields "id"
        (Table.mapValues Attribute.toJson (drawn (.foreign "") shape marks []).attributes))

def Drawing.writtenAll : List (Drawing Number) → List Json
  | [] => []
  | d :: ds => d.written :: writtenAll ds

end

/-- The members of a node that are left without its identity. -/
theorem withoutInFields_members (x : Node Number) (children : List Json) :
    Json.withoutInFields "id" (x.members children) =
      [("type", .str x.kind.name), ("name", .str x.name), ("x", x.x.toJson), ("y", x.y.toJson),
        ("children", .arr (Json.withoutInItems "id" children))] ++
        Json.withoutInFields "id" (Table.mapValues Attribute.toJson x.attributes) := by
  have hquantity : ∀ q : Quantity Number, q.toJson.without "id" = q.toJson := by
    rintro (q | q) <;> rw [Quantity.toJson, Json.without]
  rw [Node.members, Json.withoutInFields_append]
  simp [Json.withoutInFields, Json.without, hquantity]

mutual

/-- Under whatever identities a drawing stands in a scene, the same is written of it. -/
theorem Shows.exists_tree {s : Scene Number} : (d : Drawing Number) → {id : NodeId} →
    Shows s id d → {depth : Nat} → d.size ≤ depth →
    ∃ x, s.node? id = some x ∧ (s.tree depth x).without "id" = d.written
  | .node shape marks children, _, _, 0, hsize => absurd hsize (Nat.not_succ_le_zero _)
  | .node shape marks children, _, .node found below, depth + 1, hsize => by
    refine ⟨_, found, ?_⟩
    rw [tree_succ, Json.without, withoutInFields_members, drawn_children, Drawing.written,
      withoutInItems_trees children below (Nat.le_of_succ_le_succ hsize)]
    rfl

theorem withoutInItems_trees {s : Scene Number} : (ds : List (Drawing Number)) →
    {ids : List NodeId} → List.Forall₂ (Shows s) ids ds → {depth : Nat} →
    Drawing.sizeAll ds ≤ depth →
    Json.withoutInItems "id" ((ids.filterMap s.node?).map (s.tree depth)) = Drawing.writtenAll ds
  | [], _, .nil, _, _ => rfl
  | d :: ds, _, .cons hd hds, depth, hsize => by
    rw [Drawing.sizeAll] at hsize
    have hhead : d.size ≤ depth := by omega
    have htail : Drawing.sizeAll ds ≤ depth := by omega
    obtain ⟨x, hx, htree⟩ := Shows.exists_tree d hd hhead
    rw [List.filterMap_cons_some hx, List.map_cons, Json.withoutInItems, htree,
      withoutInItems_trees ds hds htail, Drawing.writtenAll]

end

theorem size_le_sizeAll {α : Type} {d : Drawing α} {ds : List (Drawing α)} (h : d ∈ ds) :
    d.size ≤ Drawing.sizeAll ds := by
  induction ds with
  | nil => cases h
  | cons e ds ih =>
    rw [Drawing.sizeAll]
    rcases List.mem_cons.mp h with rfl | h
    · exact Nat.le_add_right _ _
    · exact Nat.le_add_left_of_le (ih h)

/-! ### Frames -/

/-- What the tree of a frame holds apart from identities, the name of the frame and its place
across. -/
def frameContent (tree : Json) : Json :=
  match tree.without "id" with
  | .obj fields => .obj (Table.erase "x" (Table.erase "name" fields))
  | v => v

/-- Sections of one size that place their content alike are drawn alike. -/
theorem frameContent_eq {titleY y : Number} {r : Matrix Number}
    {m m' : ModeSection Number} (hwidth : m.width = m'.width) (hheight : m.height = m'.height)
    (hx : m.contentX = m'.contentX) (hy : m.contentY = m'.contentY) {t t' : Json}
    (ht : t.without "id" = (sectionDrawing titleY r y m).written)
    (ht' : t'.without "id" = (sectionDrawing titleY r y m').written) :
    frameContent t = frameContent t' := by
  obtain ⟨mode, x, width, height, contentX, contentY⟩ := m
  obtain ⟨mode', x', width', height', contentX', contentY'⟩ := m'
  dsimp only at hwidth hheight hx hy
  subst hwidth hheight hx hy
  rw [frameContent, frameContent, ht, ht']
  simp only [sectionDrawing, Drawing.written]
  rfl

/-! ### Emissions -/

theorem placed_append {α : Type} [Add α] [Zero α] [Max α] (k : Constants α) (y : α)
    (rs rs' : List (Matrix α)) :
    placed k y (rs ++ rs') = placed k y rs ++ placed k (rs.foldl (nextY k) y) rs' := by
  induction rs generalizing y with
  | nil => rfl
  | cons r rs ih => rw [List.cons_append, placed, placed, ih, List.foldl_cons, List.cons_append]

/-- The sections of one matrix are drawn one after the other, at one height. -/
theorem drawings_append {α : Type} [Add α] [Zero α] [Max α] (k : Constants α)
    (rs : List (Matrix α)) (r : Matrix α) (rs' : List (Matrix α)) :
    ∃ y earlier later, drawings k (rs ++ r :: rs') =
      earlier ++ r.sections.map (sectionDrawing k.sectionPadding r y) ++ later := by
  have hplaced := placed_append k k.startY rs (r :: rs')
  rw [placed] at hplaced
  exact ⟨_, _, _, by
    rw [drawings, hplaced, List.flatMap_append, List.flatMap_cons, ← List.append_assoc]⟩

/-- Whatever else is emitted, and into whatever scene, the sections of an expanded component become
roots with the frames of the sections, and any two of these frames hold the same: the same nodes in
the same order, with all their members but their identities. -/
theorem into_copies {g : Generator Number} {c : Component} {r : Matrix Number}
    (hr : g.expand c = .ok r) {s : Scene Number} (hs : s.Reached) (k : Constants Number)
    (rs rs' : List (Matrix Number)) :
    ∃ e earlier ids later, Emission.into k (rs ++ r :: rs') s = .ok e ∧
      e.scene.roots = earlier ++ ids ++ later ∧
      (∃ y, List.Forall₂ (fun id m => ∃ x, e.scene.node? id = some x ∧
        ShowsSection e.scene x r y m) ids r.sections) ∧
      ∀ id ∈ ids, ∀ id' ∈ ids, ∃ t t', e.scene.treeOf? id = .ok t ∧
        e.scene.treeOf? id' = .ok t' ∧ frameContent t = frameContent t' := by
  obtain ⟨e, new, he, hroots, hshows, hsize⟩ := hs.exists_into k (rs ++ r :: rs')
  obtain ⟨y, earlier, later, hdrawings⟩ := drawings_append k rs r rs'
  rw [hdrawings] at hshows
  obtain ⟨front, last, rfl, hfront, -⟩ := forall₂_append_right hshows
  obtain ⟨first, ids, rfl, -, hids⟩ := forall₂_append_right hfront
  have hsections := List.forall₂_map_right_iff.mp hids
  refine ⟨e, s.roots ++ first, ids, last, he, by simp [hroots],
    ⟨y, hsections.imp fun _ _ h => showsSection_of_shows h⟩, ?_⟩
  have htree : ∀ id ∈ ids, ∃ m ∈ r.sections, ∃ t, e.scene.treeOf? id = .ok t ∧
      t.without "id" = (sectionDrawing k.sectionPadding r y m).written := by
    intro id hid
    obtain ⟨m, hm, hshown⟩ := exists_right_of_forall₂ hsections hid
    have hmem : sectionDrawing k.sectionPadding r y m ∈ drawings k (rs ++ r :: rs') := by
      rw [hdrawings]
      exact List.mem_append_left _ (List.mem_append_right _ (List.mem_map_of_mem hm))
    obtain ⟨x, hx, htree⟩ := Shows.exists_tree _ hshown ((size_le_sizeAll hmem).trans hsize)
    exact ⟨m, hm, _, by rw [treeOf?, hx], htree⟩
  intro id hid id' hid'
  obtain ⟨m, hm, t, ht, hwritten⟩ := htree id hid
  obtain ⟨m', hm', t', ht', hwritten'⟩ := htree id' hid'
  rw [(expands_of_expand hr).sections] at hm hm'
  obtain ⟨hwidth, hheight, hx, hy⟩ := Matrix.mem_series hm
  obtain ⟨hwidth', hheight', hx', hy'⟩ := Matrix.mem_series hm'
  exact ⟨t, t', ht, ht', frameContent_eq (hwidth.trans hwidth'.symm) (hheight.trans hheight'.symm)
    (hx.trans hx'.symm) (hy.trans hy'.symm) hwritten hwritten'⟩

/-- Cells of one size with a filled root and an icon, in two modes. -/
def filledGenerator : Generator Number where
  constants := .default
  modes := Matrix.defaultModes
  rowAxes := []
  styles _ _ :=
    ([(rootElement, { base := { fillVariable := some "color-brand" } }), ("icon", {})], [])
  extent _ _ := ⟨30, 20⟩
  isLost := Number.isOverflow

theorem exists_expand_tag : ∃ r, filledGenerator.expand Registry.tag = .ok r := by
  let a : Matrix.Assignment := ⟨Registry.tag.axes.take 1, Registry.tag.axes.drop 1⟩
  have hassign : Matrix.assign Registry.tag none = .ok a := rfl
  -- The combinations come in the order of the rows already.
  have hcells : filledGenerator.cells Registry.tag a =
      (Matrix.combinations Registry.tag.axes).map (filledGenerator.cell Registry.tag a) :=
    List.mergeSort_of_pairwise (by decide +kernel)
  have hlayOut : (filledGenerator.layOut "Tag" a
      ((Matrix.combinations Registry.tag.axes).map
        (filledGenerator.cell Registry.tag a))).isOk = true := by
    decide +kernel
  rw [← hcells] at hlayOut
  have hexpand : filledGenerator.expand Registry.tag =
      filledGenerator.layOut "Tag" a (filledGenerator.cells Registry.tag a) :=
    congrArg (fun x => x.mapError Matrix.Fault.unknownAxes >>= fun a =>
      filledGenerator.layOut "Tag" a (filledGenerator.cells Registry.tag a)) hassign
  rw [← hexpand] at hlayOut
  exact exists_eq_ok hlayOut

/-- A scene that holds a frame, and in which a call has failed. -/
def coverScene : Scene Number :=
  (((Scene.create (.frame "Cover" (.given 0) (.given 0) (.given 1) (.given 1)) {}).2).mark
    (.foreign "none") (.fill "color-brand")).scene

/-- Four cells in two modes, emitted twice below a cover: the second time too, both frames hold the
same. -/
theorem into_copies_tag :
    coverScene.Reached ∧ ∃ r, filledGenerator.expand Registry.tag = .ok r ∧
      ∃ e earlier ids later, Emission.into .default [r, r] coverScene = .ok e ∧
        e.scene.roots = earlier ++ ids ++ later ∧ ids.length = 2 ∧
        ∀ id ∈ ids, ∀ id' ∈ ids, ∃ t t', e.scene.treeOf? id = .ok t ∧
          e.scene.treeOf? id' = .ok t' ∧ frameContent t = frameContent t' := by
  have hs : coverScene.Reached := .mark _ _ (.create _ .empty)
  obtain ⟨r, hr⟩ := exists_expand_tag
  obtain ⟨e, earlier, ids, later, he, hroots, ⟨y, hids⟩, hcopies⟩ :=
    into_copies hr hs .default [r] []
  have hlength := hids.length_eq
  rw [(expands_of_expand hr).sections] at hlength
  exact ⟨hs, r, hr, e, earlier, ids, later, he, hroots, hlength, hcopies⟩

end Scene

end DesignTokens
