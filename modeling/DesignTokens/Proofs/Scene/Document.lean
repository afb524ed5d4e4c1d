import DesignTokens.Proofs.Decimal.Digits
import DesignTokens.Proofs.Scene.Shown
import DesignTokens.Scene.Data

/-!
The document of a scene. Inside it stands one object for each node, in the order in which the nodes
were made, and no two of them carry the same identity.
-/
namespace DesignTokens

namespace Json

mutual

/-- The objects of a value, each before those inside it. -/
def objects : Json → List (Table Json)
  | .obj fields => fields :: objectsOfFields fields
  | .arr items => objectsOfItems items
  | .null | .bool _ | .num _ | .str _ => []

def objectsOfItems : List Json → List (Table Json)
  | [] => []
  | v :: vs => objects v ++ objectsOfItems vs

def objectsOfFields : Table Json → List (Table Json)
  | [] => []
  | (_, v) :: fields => objects v ++ objectsOfFields fields

end

theorem objectsOfFields_append (fs gs : Table Json) :
    objectsOfFields (fs ++ gs) = objectsOfFields fs ++ objectsOfFields gs := by
  induction fs with
  | nil => rfl
  | cons p fs ih => rw [List.cons_append, objectsOfFields, objectsOfFields, ih, List.append_assoc]

end Json

namespace Scene

open Json (objectsOfItems objectsOfFields)

/-! ### The object of a node -/

/-- The members of a node's object when these are its children. -/
def Node.members (x : Node Number) (children : List Json) : Table Json :=
  [("id", .str x.id.text), ("type", .str x.kind.name), ("name", .str x.name), ("x", x.x.toJson),
    ("y", x.y.toJson), ("children", .arr children)] ++ Table.mapValues Attribute.toJson x.attributes

/-- An object is that of a node. -/
def Node.WrittenAs (x : Node Number) (fields : Table Json) : Prop :=
  ∃ children, fields = x.members children

theorem tree_succ (s : Scene Number) (depth : Nat) (x : Node Number) :
    s.tree (depth + 1) x =
      .obj (x.members ((x.children.filterMap s.node?).map (s.tree depth))) := rfl

theorem objectsOfFields_attributes (t : Table (Attribute Number)) :
    objectsOfFields (Table.mapValues Attribute.toJson t) = [] := by
  induction t with
  | nil => rfl
  | cons p t ih =>
    obtain ⟨key, a⟩ := p
    have hvalue : a.toJson.objects = [] := by
      rcases a with (q | q) | s <;> rfl
    rw [Table.mapValues, List.map_cons, objectsOfFields, hvalue, List.nil_append]
    exact ih

/-- Only the children of a node have objects. -/
theorem objectsOfFields_members (x : Node Number) (children : List Json) :
    objectsOfFields (x.members children) = objectsOfItems children := by
  rw [Node.members, Json.objectsOfFields_append, objectsOfFields_attributes, List.append_nil]
  have hquantity : ∀ q : Quantity Number, q.toJson.objects = [] := by rintro (q | q) <;> rfl
  simp [objectsOfFields, Json.objects, hquantity]

/-! ### The objects below a node -/

mutual

/-- The tree of a drawing's topmost node holds the objects of the nodes of the drawing. -/
theorem forall₂_objects_tree {s : Scene Number} {n : Nat} : (d : Drawing Number) → {depth : Nat} →
    d.size ≤ depth → (∀ x ∈ d.nodesAfter n, s.node? x.id = some x) →
    ∃ x, s.node? (d.idAfter n) = some x ∧
      List.Forall₂ Node.WrittenAs (d.nodesAfter n) (s.tree depth x).objects
  | .node shape marks children, 0, hsize, _ => absurd hsize (Nat.not_succ_le_zero _)
  | .node shape marks children, depth + 1, hsize, hfound => by
    obtain ⟨htop, hbelow⟩ := List.forall_mem_cons.mp hfound
    rw [drawn_id] at htop
    have hchildren := forall₂_objects_trees children (Nat.le_of_succ_le_succ hsize) hbelow
    refine ⟨_, htop, ?_⟩
    rw [Drawing.nodesAfter, tree_succ, Json.objects, objectsOfFields_members, drawn_children]
    exact .cons ⟨_, rfl⟩ hchildren

theorem forall₂_objects_trees {s : Scene Number} {n : Nat} : (ds : List (Drawing Number)) →
    {depth : Nat} → Drawing.sizeAll ds ≤ depth →
    (∀ x ∈ nodesAllAfter n ds, s.node? x.id = some x) →
    List.Forall₂ Node.WrittenAs (nodesAllAfter n ds)
      (objectsOfItems (((idsAfter n ds).filterMap s.node?).map (s.tree depth)))
  | [], _, _, _ => .nil
  | d :: ds, depth, hsize, hfound => by
    obtain ⟨hd, hds⟩ := List.forall_mem_append.mp hfound
    rw [Drawing.sizeAll] at hsize
    have hhead : d.size ≤ depth := by omega
    have htail : Drawing.sizeAll ds ≤ depth := by omega
    obtain ⟨x, hx, hobjects⟩ := forall₂_objects_tree d hhead hd
    have hrest := forall₂_objects_trees ds htail hds
    rw [nodesAllAfter, idsAfter, List.filterMap_cons_some hx, List.map_cons, objectsOfItems]
    exact List.rel_append hobjects hrest

end

/-! ### Texts of identities -/

theorem NodeId.text_made_inj {kind kind' : NodeKind} {n n' : Nat}
    (h : (NodeId.made kind n).text = (NodeId.made kind' n').text) : n = n' := by
  have hdigits : Nat.toDigits 10 n = Nat.toDigits 10 n' := by
    have hchars := congrArg String.toList h
    -- The names of different kinds differ in their first characters.
    cases kind <;> cases kind' <;> simp [NodeId.text, NodeKind.name] at hchars <;> exact hchars
  rw [← Decimal.digitsFrom_toDigits n, hdigits, Decimal.digitsFrom_toDigits]

namespace Holds

variable {s : Scene Number} {ds : List (Drawing Number)} (h : Holds s ds)
include h

/-- Inside the document stand the objects of all nodes, each one once. -/
theorem forall₂_objects_toJson :
    List.Forall₂ Node.WrittenAs s.nodes.reverse s.toJson.objects.tail := by
  have hobjects := forall₂_objects_trees ds (Nat.le_of_eq h.size_eq.symm)
    fun x hx => h.node?_eq_some hx
  rw [h.nodes, List.reverse_reverse, toJson, rootNodes, h.roots]
  simpa [Json.objects, objectsOfFields] using hobjects

/-- Every identity is a kind with a number. -/
theorem exists_made {x : Node Number} (hx : x ∈ s.nodes) : ∃ kind n, x.id = .made kind n := by
  rw [h.nodes] at hx
  have hnumber := List.mem_map_of_mem (f := (·.id.number)) (List.mem_reverse.mp hx)
  rw [numbers_nodesAllAfter, List.mem_range'_1] at hnumber
  rcases hid : x.id with ⟨kind, n⟩ | text
  · exact ⟨kind, n, rfl⟩
  · rw [hid, NodeId.number] at hnumber
    omega

/-- No two nodes have the same identity in the document. -/
theorem nodup_texts : (s.nodes.map (·.id.text)).Nodup := by
  have hnumbers : (s.nodes.map (·.id.number)).Nodup := by
    rw [h.nodes, List.map_reverse, List.nodup_reverse, numbers_nodesAllAfter]
    exact List.nodup_range'
  refine List.Nodup.map_on ?_ (.of_map _ hnumbers)
  intro x hx y hy htext
  obtain ⟨kind, n, hid⟩ := h.exists_made hx
  obtain ⟨kind', n', hid'⟩ := h.exists_made hy
  have hnumber : n = n' := NodeId.text_made_inj (hid ▸ hid' ▸ htext)
  exact List.inj_on_of_nodup_map hnumbers hx hy (by rw [hid, hid', hnumber]; rfl)

end Holds

end Scene

end DesignTokens
