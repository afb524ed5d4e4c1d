import DesignTokens.Proofs.Scene.Drawn

/-!
Scenes that consist of drawings. Every node is found under its own identity, each is either a root or
the child of just one node, and below each root stands the tree that was drawn.
-/
namespace DesignTokens.Scene

variable {α : Type}

/-- The nodes are those of some drawings, with the latest first, and the roots their topmost ones. -/
structure Holds (s : Scene α) (ds : List (Drawing α)) : Prop where
  nodes : s.nodes = (nodesAllAfter 0 ds).reverse
  roots : s.roots = idsAfter 0 ds

theorem exists_drawAll (ds : List (Drawing α)) :
    ∃ s, drawAll ds {} = .ok s ∧ Holds s ds := by
  obtain ⟨s, hs, hnodes, hroots⟩ := drawAll_eq_ok ds numbered_empty
  exact ⟨s, hs, hnodes.trans (List.append_nil _), hroots⟩

mutual

/-- The topmost node of a drawing and the children of all nodes are all nodes, each one once. -/
theorem perm_idAfter (n : Nat) : (d : Drawing α) →
    (d.idAfter n :: (d.nodesAfter n).flatMap (·.children)).Perm ((d.nodesAfter n).map (·.id))
  | .node shape marks children => by
    rw [Drawing.nodesAfter, List.flatMap_cons, List.map_cons, drawn_id, drawn_children]
    exact (perm_idsAfter (n + 1) children).cons _

theorem perm_idsAfter (n : Nat) : (ds : List (Drawing α)) →
    (idsAfter n ds ++ (nodesAllAfter n ds).flatMap (·.children)).Perm
      ((nodesAllAfter n ds).map (·.id))
  | [] => .refl _
  | d :: ds => by
    rw [idsAfter, nodesAllAfter, List.flatMap_append, List.map_append]
    refine .trans ?_ ((perm_idAfter n d).append (perm_idsAfter (n + d.size) ds))
    rw [List.cons_append, List.cons_append]
    refine .cons _ ?_
    rw [← List.append_assoc, ← List.append_assoc]
    exact List.perm_append_comm.append_right _

end

/-- Under an identity stands the tree of a drawing. -/
inductive Shows (s : Scene α) : NodeId → Drawing α → Prop
  | node {id : NodeId} {shape : Shape α} {marks : List (Mark α)} {children : List (Drawing α)}
      {ids : List NodeId} (found : s.node? id = some (drawn id shape marks ids))
      (below : List.Forall₂ (Shows s) ids children) : Shows s id (.node shape marks children)

mutual

theorem shows_of_found {s : Scene α} {n : Nat} : (d : Drawing α) →
    (∀ x ∈ d.nodesAfter n, s.node? x.id = some x) → Shows s (d.idAfter n) d
  | .node shape marks children, h => by
    obtain ⟨htop, hbelow⟩ := List.forall_mem_cons.mp h
    rw [drawn_id] at htop
    exact .node htop (forall₂_shows_of_found children hbelow)

theorem forall₂_shows_of_found {s : Scene α} {n : Nat} : (ds : List (Drawing α)) →
    (∀ x ∈ nodesAllAfter n ds, s.node? x.id = some x) →
    List.Forall₂ (Shows s) (idsAfter n ds) ds
  | [], _ => .nil
  | d :: ds, h => by
    obtain ⟨hd, hds⟩ := List.forall_mem_append.mp h
    exact .cons (shows_of_found d hd) (forall₂_shows_of_found ds hds)

end

/-- The latest nodes are found under their own identities, whatever is there before them. -/
theorem node?_of_mem_nodesAllAfter {s : Scene α} {n : Nat} {ds : List (Drawing α)}
    {rest : List (Node α)} (hnodes : s.nodes = (nodesAllAfter n ds).reverse ++ rest) {x : Node α}
    (hx : x ∈ nodesAllAfter n ds) : s.node? x.id = some x := by
  have hmem : x ∈ (nodesAllAfter n ds).reverse := List.mem_reverse.mpr hx
  obtain ⟨y, hy⟩ := exists_node? (s := { nodes := (nodesAllAfter n ds).reverse })
    (List.mem_map_of_mem hmem)
  have hid : y.id = x.id := by simpa using List.find?_some hy
  have hyx : y = x := List.inj_on_of_nodup_map (nodup_ids_nodesAllAfter n ds)
    (List.mem_reverse.mp (List.mem_of_find?_eq_some hy)) hx hid
  rw [node?] at hy
  rw [node?, hnodes, List.find?_append, hy, hyx, Option.some_or]

namespace Holds

variable {s : Scene α} {ds : List (Drawing α)} (h : Holds s ds)
include h

theorem size_eq : s.size = Drawing.sizeAll ds := by
  rw [size, h.nodes, List.length_reverse, length_nodesAllAfter]

theorem nodup_ids : (s.nodes.map (·.id)).Nodup := by
  rw [h.nodes, List.map_reverse, List.nodup_reverse]
  exact nodup_ids_nodesAllAfter 0 ds

/-- Each node is found under its own identity. -/
theorem node?_eq_some {x : Node α} (hx : x ∈ nodesAllAfter 0 ds) : s.node? x.id = some x :=
  node?_of_mem_nodesAllAfter (h.nodes.trans (List.append_nil _).symm) hx

theorem shows : List.Forall₂ (Shows s) s.roots ds := by
  rw [h.roots]
  exact forall₂_shows_of_found ds fun x hx => h.node?_eq_some hx

/-- The roots and the children of all nodes are all nodes, each one once. -/
theorem perm_roots : (s.roots ++ s.nodes.flatMap (·.children)).Perm (s.nodes.map (·.id)) := by
  rw [h.roots, h.nodes, List.map_reverse]
  refine .trans (.append_left _ ?_) ((perm_idsAfter 0 ds).trans (List.reverse_perm _).symm)
  exact (List.reverse_perm _).flatMap_right _

/-- Each node is the child of just one node, but for the roots, which are children of none. -/
theorem count_children {x : Node α} (hx : x ∈ s.nodes) :
    (s.nodes.flatMap (·.children)).count x.id = if x.id ∈ s.roots then 0 else 1 := by
  have hcount := h.perm_roots.count_eq x.id
  rw [List.count_append, List.count_eq_one_of_mem h.nodup_ids (List.mem_map_of_mem hx)] at hcount
  split
  · rename_i hroot
    have hpos := List.count_pos_iff.mpr hroot
    omega
  · rename_i hroot
    rw [List.count_eq_zero_of_not_mem hroot] at hcount
    omega

end Holds

end DesignTokens.Scene
