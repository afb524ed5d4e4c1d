import DesignTokens.Proofs.Results
import DesignTokens.Scene.Drawing
import Mathlib.Data.List.Nodup
import Mathlib.Data.List.Range

/-!
What drawing leaves in a scene. The nodes of a drawing are numbered on from those that are there, each
before those below it, and only the topmost one is a root in the end. No call on the way fails.
-/
namespace DesignTokens.Scene

variable {α : Type}

/-! ### The nodes of a drawing -/

def NodeId.number : NodeId → Nat
  | .made _ number => number
  | .foreign _ => 0

/-- A node that has got its marks and its children. -/
def drawn (id : NodeId) (shape : Shape α) (marks : List (Mark α)) (children : List NodeId) :
    Node α where
  id
  kind := shape.kind
  name := shape.name
  x := shape.x
  y := shape.y
  children
  attributes := (marks.flatMap Mark.attributes).foldl (fun t p => Table.put p.1 p.2 t)
    shape.attributes

/-- The identity of the topmost node, when `n` nodes are there already. -/
def Drawing.idAfter (n : Nat) : Drawing α → NodeId
  | .node shape _ _ => .made shape.kind (n + 1)

def idsAfter (n : Nat) : List (Drawing α) → List NodeId
  | [] => []
  | d :: ds => d.idAfter n :: idsAfter (n + d.size) ds

mutual

/-- The nodes of a drawing in the order in which they are made. -/
def Drawing.nodesAfter (n : Nat) : Drawing α → List (Node α)
  | .node shape marks children =>
    drawn (.made shape.kind (n + 1)) shape marks (idsAfter (n + 1) children) ::
      nodesAllAfter (n + 1) children

def nodesAllAfter (n : Nat) : List (Drawing α) → List (Node α)
  | [] => []
  | d :: ds => d.nodesAfter n ++ nodesAllAfter (n + d.size) ds

end

@[simp] theorem number_made (kind : NodeKind) (n : Nat) : (NodeId.made kind n).number = n := rfl

/-- Marks change nothing but the attributes. -/
theorem foldl_mark (marks : List (Mark α)) (n : Node α) :
    marks.foldl (fun n m => Node.mark m n) n =
      { n with
        attributes := (marks.flatMap Mark.attributes).foldl (fun t p => Table.put p.1 p.2 t)
          n.attributes } := by
  induction marks generalizing n with
  | nil => rfl
  | cons m marks ih =>
    rw [List.foldl_cons, ih, List.flatMap_cons, List.foldl_append]
    rfl

@[simp] theorem drawn_id (id : NodeId) (shape : Shape α) (marks : List (Mark α))
    (children : List NodeId) : (drawn id shape marks children).id = id := rfl

@[simp] theorem drawn_children (id : NodeId) (shape : Shape α) (marks : List (Mark α))
    (children : List NodeId) : (drawn id shape marks children).children = children := rfl

@[simp] theorem number_idAfter (n : Nat) (d : Drawing α) : (d.idAfter n).number = n + 1 := by
  cases d
  rfl

theorem size_pos (d : Drawing α) : 0 < d.size := by
  cases d
  exact Nat.succ_pos _

mutual

/-- The nodes are numbered on. -/
theorem numbers_nodesAfter (n : Nat) : (d : Drawing α) →
    (d.nodesAfter n).map (·.id.number) = List.range' (n + 1) d.size
  | .node shape marks children => by
    rw [Drawing.nodesAfter, List.map_cons, numbers_nodesAllAfter (n + 1) children, Drawing.size,
      List.range'_succ, drawn_id, number_made]

theorem numbers_nodesAllAfter (n : Nat) : (ds : List (Drawing α)) →
    (nodesAllAfter n ds).map (·.id.number) = List.range' (n + 1) (Drawing.sizeAll ds)
  | [] => rfl
  | d :: ds => by
    rw [nodesAllAfter, List.map_append, numbers_nodesAfter n d,
      numbers_nodesAllAfter (n + d.size) ds, Drawing.sizeAll, ← List.range'_append_1,
      Nat.add_right_comm]

end

theorem length_nodesAfter (n : Nat) (d : Drawing α) : (d.nodesAfter n).length = d.size := by
  simpa using congrArg List.length (numbers_nodesAfter n d)

theorem length_nodesAllAfter (n : Nat) (ds : List (Drawing α)) :
    (nodesAllAfter n ds).length = Drawing.sizeAll ds := by
  simpa using congrArg List.length (numbers_nodesAllAfter n ds)

theorem number_of_mem_nodesAfter {n : Nat} {d : Drawing α} {x : Node α}
    (h : x ∈ d.nodesAfter n) : n < x.id.number ∧ x.id.number ≤ n + d.size := by
  have hmem := List.mem_map_of_mem (f := (·.id.number)) h
  rw [numbers_nodesAfter, List.mem_range'_1] at hmem
  omega

/-- No identity is given twice. -/
theorem nodup_ids_nodesAllAfter (n : Nat) (ds : List (Drawing α)) :
    ((nodesAllAfter n ds).map (·.id)).Nodup := by
  refine List.Nodup.of_map NodeId.number ?_
  rw [List.map_map]
  exact (numbers_nodesAllAfter n ds).symm ▸ List.nodup_range'

/-! ### Changing one node -/

@[simp] theorem map_id_change {f : Node α → Node α} (hf : ∀ x, (f x).id = x.id) (id : NodeId)
    (ns : List (Node α)) : (change id f ns).map (·.id) = ns.map (·.id) := by
  induction ns with
  | nil => rfl
  | cons x ns ih =>
    rw [change]
    split
    · simp [hf]
    · simp [ih]

theorem change_append {f : Node α → Node α} {id : NodeId} {xs : List (Node α)}
    (h : ∀ x ∈ xs, x.id ≠ id) (ys : List (Node α)) :
    change id f (xs ++ ys) = xs ++ change id f ys := by
  induction xs with
  | nil => rfl
  | cons x xs ih =>
    obtain ⟨hx, hxs⟩ := List.forall_mem_cons.mp h
    rw [List.cons_append, change, if_neg hx, ih hxs, List.cons_append]

theorem change_change {f g : Node α → Node α} (hf : ∀ x, (f x).id = x.id) (id : NodeId)
    (ns : List (Node α)) :
    change id g (change id f ns) = change id (fun x => g (f x)) ns := by
  induction ns with
  | nil => rfl
  | cons x ns ih =>
    by_cases hx : x.id = id
    · simp [change, hx, hf]
    · simp [change, hx, ih]

theorem change_self (id : NodeId) {f : Node α → Node α} (hf : ∀ x, f x = x) (ns : List (Node α)) :
    change id f ns = ns := by
  induction ns with
  | nil => rfl
  | cons x ns ih =>
    rw [change]
    split
    · rw [hf]
    · rw [ih]

theorem exists_node? {s : Scene α} {id : NodeId} (h : id ∈ s.nodes.map (·.id)) :
    ∃ x, s.node? id = some x := by
  obtain ⟨x, hx, e⟩ := List.mem_map.mp h
  exact Option.isSome_iff_exists.mp (List.find?_isSome.mpr ⟨x, hx, by simpa using e⟩)

/-- Children put below a node, after those that it has. -/
def adopt (ids : List NodeId) (x : Node α) : Node α := { x with children := x.children ++ ids }

@[simp] theorem adopt_id (ids : List NodeId) (x : Node α) : (adopt ids x).id = x.id := rfl

theorem adopt_adopt (ids ids' : List NodeId) (x : Node α) :
    adopt ids' (adopt ids x) = adopt (ids ++ ids') x := by
  simp [adopt]

theorem adopt_nil (x : Node α) : adopt [] x = x := by
  simp [adopt]

/-- A marked node without children gets its first ones. -/
theorem adopt_marked (ids : List NodeId) (id : NodeId) (shape : Shape α) (marks : List (Mark α)) :
    adopt ids (marks.foldl (fun n m => Node.mark m n) (.ofShape id shape)) =
      drawn id shape marks ids := by
  rw [adopt, foldl_mark]
  rfl

/-! ### Drawing -/

/-- All numbers that are given are at most the number of nodes. -/
structure Numbered (s : Scene α) : Prop where
  nodes : ∀ id ∈ s.nodes.map (·.id), id.number ≤ s.size
  roots : ∀ id ∈ s.roots, id.number ≤ s.size

theorem numbered_empty : Numbered ({} : Scene α) := ⟨by simp, by simp⟩

theorem create_nodes (shape : Shape α) (s : Scene α) :
    (s.create shape).2.nodes = .ofShape (.made shape.kind (s.size + 1)) shape :: s.nodes := rfl

theorem create_roots (shape : Shape α) (s : Scene α) :
    (s.create shape).2.roots = s.roots ++ [.made shape.kind (s.size + 1)] := rfl

/-- Marking the latest node finds it. -/
theorem markAll_eq_ok {s : Scene α} {x : Node α} {rest : List (Node α)}
    (hs : s.nodes = x :: rest) (marks : List (Mark α)) :
    ∃ t, markAll x.id marks s = .ok t ∧
      t.nodes = marks.foldl (fun n m => Node.mark m n) x :: rest ∧ t.roots = s.roots := by
  induction marks generalizing s x with
  | nil => exact ⟨s, rfl, hs, rfl⟩
  | cons m marks ih =>
    have hfound : (s.record (.ofMark m)).node? x.id = some x := by
      simp [node?, record, hs]
    have hmark : s.mark x.id m =
        ⟨{ s.record (.ofMark m) with nodes := x.mark m :: rest }, none⟩ := by
      simp only [mark, hfound]
      simp [record, hs, change]
    obtain ⟨t, ht, hnodes, hroots⟩ := ih (s := { s.record (.ofMark m) with
      nodes := x.mark m :: rest }) (x := x.mark m) rfl
    refine ⟨t, ?_, hnodes, hroots⟩
    rw [markAll, hmark]
    exact ht

/-- Putting a node that is a root below another takes it out of the roots. -/
theorem appendChild_eq_ok {s : Scene α} {parent child : NodeId}
    (hparent : parent ∈ s.nodes.map (·.id)) (hchild : child ∈ s.nodes.map (·.id)) :
    ∃ t, (s.appendChild parent child).result = .ok t ∧
      t.nodes = change parent (adopt [child]) s.nodes ∧ t.roots = s.roots.erase child := by
  obtain ⟨x, hx⟩ := exists_node? hparent
  obtain ⟨y, hy⟩ := exists_node? hchild
  have hx' : (s.record .appendChild).node? parent = some x := hx
  have hy' : (s.record .appendChild).node? child = some y := hy
  refine ⟨{ s.record .appendChild with
    nodes := change parent (adopt [child]) s.nodes, roots := s.roots.erase child }, ?_, rfl, rfl⟩
  simp only [appendChild, hx', hy', Outcome.result]
  rfl

/-- The numbers go on after those of the nodes of a drawing. -/
theorem Numbered.add {s t : Scene α} (h : Numbered s) {d : Drawing α}
    (hids : t.nodes.map (·.id) = ((d.nodesAfter s.size).map (·.id)).reverse ++ s.nodes.map (·.id))
    (hroots : ∀ id ∈ t.roots, id ∈ s.roots ∨ id = d.idAfter s.size) :
    Numbered t ∧ t.size = s.size + d.size := by
  have hsize : t.size = s.size + d.size := by
    have hlen := congrArg List.length hids
    simp only [List.length_append, List.length_reverse, List.length_map, length_nodesAfter] at hlen
    simp only [size]
    omega
  refine ⟨⟨?_, ?_⟩, hsize⟩
  · intro id hid
    rw [hids, List.mem_append, List.mem_reverse] at hid
    rcases hid with hid | hid
    · obtain ⟨x, hx, rfl⟩ := List.mem_map.mp hid
      have hnumber := number_of_mem_nodesAfter hx
      omega
    · have hnumber := h.nodes id hid
      omega
  · intro id hid
    rcases hroots id hid with hid | rfl
    · have hnumber := h.roots id hid
      omega
    · have hpos := size_pos d
      rw [number_idAfter]
      omega

/-- The nodes of a drawing have greater numbers than those that are there. -/
theorem Numbered.id_ne {s : Scene α} (h : Numbered s) {id : NodeId}
    (hid : id ∈ s.nodes.map (·.id)) (d : Drawing α) :
    ∀ x ∈ (d.nodesAfter s.size).reverse, x.id ≠ id := by
  intro x hx e
  have hnew := number_of_mem_nodesAfter (List.mem_reverse.mp hx)
  have hold := h.nodes id hid
  rw [e] at hnew
  omega

/-- A drawing that stands in a scene as its last root is put below a node. -/
theorem attach_eq_ok {s t : Scene α} (hs : Numbered s) {d : Drawing α}
    (hnodes : t.nodes = (d.nodesAfter s.size).reverse ++ s.nodes)
    (hroots : t.roots = s.roots ++ [d.idAfter s.size]) {parent : NodeId}
    (hparent : parent ∈ s.nodes.map (·.id)) :
    ∃ u, (t.appendChild parent (d.idAfter s.size)).result = .ok u ∧
      u.nodes = (d.nodesAfter s.size).reverse ++
        change parent (adopt [d.idAfter s.size]) s.nodes ∧
      u.roots = s.roots := by
  have hchild : d.idAfter s.size ∈ t.nodes.map (·.id) := by
    rw [hnodes, List.map_append, List.map_reverse]
    refine List.mem_append_left _ (List.mem_reverse.mpr ?_)
    cases d
    exact List.mem_map.mpr ⟨_, List.mem_cons_self, drawn_id ..⟩
  have hparent' : parent ∈ t.nodes.map (·.id) := by
    rw [hnodes, List.map_append]
    exact List.mem_append_right _ hparent
  obtain ⟨u, hu, hunodes, huroots⟩ := appendChild_eq_ok hparent' hchild
  refine ⟨u, hu, ?_, ?_⟩
  · rw [hunodes, hnodes, change_append (hs.id_ne hparent d)]
  · have hfresh : d.idAfter s.size ∉ s.roots := by
      intro hmem
      have hold := hs.roots _ hmem
      rw [number_idAfter] at hold
      omega
    rw [huroots, hroots, List.erase_append_right _ hfresh, List.erase_cons_head, List.append_nil]

mutual

/-- Drawing adds the nodes of the drawing, and its topmost one as a root. -/
theorem draw_eq_ok : (d : Drawing α) → {s : Scene α} → Numbered s →
    ∃ t, draw d s = .ok (d.idAfter s.size, t) ∧
      t.nodes = (d.nodesAfter s.size).reverse ++ s.nodes ∧
      t.roots = s.roots ++ [d.idAfter s.size]
  | .node shape marks children, s, hs => by
    obtain ⟨t, ht, hnodes, hroots⟩ := markAll_eq_ok (create_nodes shape s) marks
    rw [create_roots] at hroots
    have hid : (marks.foldl (fun n m => Node.mark m n)
        (.ofShape (.made shape.kind (s.size + 1)) shape)).id = .made shape.kind (s.size + 1) := by
      rw [foldl_mark]
      rfl
    have hids : t.nodes.map (·.id) = .made shape.kind (s.size + 1) :: s.nodes.map (·.id) := by
      rw [hnodes, List.map_cons, hid]
    -- So far the scene is what a drawing without children would leave.
    obtain ⟨hnumbered, hsize⟩ := hs.add (d := .node shape [] []) hids fun id hid => by
      simpa [hroots, Drawing.idAfter] using hid
    obtain ⟨u, hu, hunodes, huroots⟩ := drawBelow_eq_ok children hnumbered
      (hids ▸ List.mem_cons_self)
    refine ⟨u, ?_, ?_, huroots.trans hroots⟩
    · have hcreate : s.create shape = (.made shape.kind (s.size + 1), (s.create shape).2) := rfl
      have hmarked : markAll (.made shape.kind (s.size + 1)) marks (s.create shape).2 = .ok t := ht
      rw [draw, hcreate]
      simp only [hmarked]
      exact congrArg (· >>= fun v => pure (_, v)) hu
    · rw [hunodes, hsize, hnodes, change, if_pos hid, adopt_marked, Drawing.nodesAfter,
        List.reverse_cons, List.append_assoc]
      rfl

/-- Drawing below a node adds the nodes of the drawings and makes the topmost ones its children. -/
theorem drawBelow_eq_ok : (ds : List (Drawing α)) → {s : Scene α} → Numbered s →
    {parent : NodeId} → parent ∈ s.nodes.map (·.id) →
    ∃ t, drawBelow parent ds s = .ok t ∧
      t.nodes = (nodesAllAfter s.size ds).reverse ++
        change parent (adopt (idsAfter s.size ds)) s.nodes ∧
      t.roots = s.roots
  | [], s, _, parent, _ => by
    refine ⟨s, rfl, ?_, rfl⟩
    rw [nodesAllAfter, idsAfter, change_self parent adopt_nil]
    rfl
  | d :: ds, s, hs, parent, hparent => by
    obtain ⟨t, ht, hnodes, hroots⟩ := draw_eq_ok d hs
    obtain ⟨u, hu, hunodes, huroots⟩ := attach_eq_ok hs hnodes hroots hparent
    have hids : u.nodes.map (·.id) =
        ((d.nodesAfter s.size).map (·.id)).reverse ++ s.nodes.map (·.id) := by
      rw [hunodes, List.map_append, List.map_reverse, map_id_change (adopt_id _)]
    obtain ⟨hnumbered, hsize⟩ := hs.add hids fun id hid => .inl (huroots ▸ hid)
    have hparent' : parent ∈ u.nodes.map (·.id) := hids ▸ List.mem_append_right _ hparent
    obtain ⟨v, hv, hvnodes, hvroots⟩ := drawBelow_eq_ok ds hnumbered hparent'
    refine ⟨v, ?_, ?_, hvroots.trans huroots⟩
    · rw [drawBelow, ht]
      exact (congrArg (· >>= drawBelow parent ds) hu).trans hv
    · rw [hvnodes, hsize, hunodes, change_append (hs.id_ne hparent d), change_change (adopt_id _),
        nodesAllAfter, idsAfter, List.reverse_append, List.append_assoc]
      simp only [adopt_adopt, List.singleton_append]

end

/-- Drawings one after the other leave their topmost nodes as roots. -/
theorem drawAll_eq_ok (ds : List (Drawing α)) {s : Scene α} (hs : Numbered s) :
    ∃ t, drawAll ds s = .ok t ∧ t.nodes = (nodesAllAfter s.size ds).reverse ++ s.nodes ∧
      t.roots = s.roots ++ idsAfter s.size ds := by
  induction ds generalizing s with
  | nil => exact ⟨s, rfl, rfl, (List.append_nil _).symm⟩
  | cons d ds ih =>
    obtain ⟨t, ht, hnodes, hroots⟩ := draw_eq_ok d hs
    have hids : t.nodes.map (·.id) =
        ((d.nodesAfter s.size).map (·.id)).reverse ++ s.nodes.map (·.id) := by
      rw [hnodes, List.map_append, List.map_reverse]
    obtain ⟨hnumbered, hsize⟩ := hs.add hids fun id hid => by simpa [hroots] using hid
    obtain ⟨u, hu, hunodes, huroots⟩ := ih hnumbered
    refine ⟨u, ?_, ?_, ?_⟩
    · rw [drawAll, ht]
      exact hu
    · rw [hunodes, hsize, hnodes, nodesAllAfter, List.reverse_append, List.append_assoc]
    · rw [huroots, hsize, hroots, idsAfter, List.append_assoc, List.singleton_append]

end DesignTokens.Scene
