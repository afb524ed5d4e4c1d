import DesignTokens.Proofs.Scene.Document
import DesignTokens.Proofs.Scene.Histories
import Mathlib.Data.List.Chain
import Mathlib.Logic.Relation
import Mathlib.Order.WellFoundedSet

/-!
How often a node stands in the document of a scene. A root stands there once, and any other node as
often as the nodes below which it was put, since a node that has a parent keeps it when it is put
below another one. So every node stands there once just if none was put below others twice.
-/
namespace DesignTokens.Scene

open Json (objectsOfItems)

variable {α : Type}

/-! ### Nodes below others -/

/-- The children of the node with an identity. -/
def childrenOf (s : Scene α) (id : NodeId) : List NodeId :=
  ((s.node? id).map (·.children)).getD []

def IsParent (s : Scene α) (parent child : NodeId) : Prop := child ∈ s.childrenOf parent

/-- No node stands below itself. -/
def Acyclic (s : Scene α) : Prop := ∀ id, ¬Relation.TransGen s.IsParent id id

/-- The children are nodes of the scene. -/
def Closed (s : Scene α) : Prop :=
  ∀ parent child, s.IsParent parent child → child ∈ s.nodes.map (·.id)

/-- The nodes that stand below some others, down to a depth, with these themselves, and each before
those below it. -/
def listed (s : Scene α) : Nat → List NodeId → List NodeId
  | 0, _ => []
  | depth + 1, ids => ids.flatMap fun id => id :: listed s depth (s.childrenOf id)

/-- The nodes that stand a number of steps below some others. -/
def stepsBelow (s : Scene α) : Nat → List NodeId → List NodeId
  | 0, ids => ids
  | n + 1, ids => stepsBelow s n (ids.flatMap s.childrenOf)

variable {s : Scene α}

theorem childrenOf_of_node? {id : NodeId} {x : Node α} (h : s.node? id = some x) :
    s.childrenOf id = x.children := by
  rw [childrenOf, h]
  rfl

theorem listed_append (s : Scene α) (depth : Nat) (ids ids' : List NodeId) :
    listed s depth (ids ++ ids') = listed s depth ids ++ listed s depth ids' := by
  cases depth with
  | zero => rfl
  | succ depth => exact List.flatMap_append

/-- First the nodes themselves, and then what stands below their children. -/
theorem perm_listed_succ (s : Scene α) (depth : Nat) (ids : List NodeId) :
    (listed s (depth + 1) ids).Perm (ids ++ listed s depth (ids.flatMap s.childrenOf)) := by
  induction ids with
  | nil =>
    cases depth with
    | zero => exact .refl _
    | succ depth => exact .refl _
  | cons id ids ih =>
    rw [List.flatMap_cons, listed_append, List.cons_append]
    refine .cons id ?_
    refine (ih.append_left _).trans ?_
    rw [← List.append_assoc, ← List.append_assoc]
    exact List.perm_append_comm.append_right _

/-- What is listed are the nodes themselves and the children of what is listed, but for the children
that stand too deep. -/
theorem perm_listed (s : Scene α) (depth : Nat) (ids : List NodeId) :
    (listed s depth ids ++ stepsBelow s depth ids).Perm
      (ids ++ (listed s depth ids).flatMap s.childrenOf) := by
  induction depth generalizing ids with
  | zero => simp [listed, stepsBelow]
  | succ depth ih =>
    have hsucc := perm_listed_succ s depth ids
    refine (hsucc.append_right _).trans ?_
    rw [stepsBelow, List.append_assoc]
    refine (.append_left ids ((ih _).trans ?_))
    rw [← List.flatMap_append]
    exact (hsucc.symm.flatMap_right _)

/-! ### Depth -/

/-- To what stands some steps below others leads a path of so many children. -/
theorem exists_path {n : Nat} {ids : List NodeId} {id : NodeId} (h : id ∈ stepsBelow s n ids) :
    ∃ top ∈ ids, ∃ path : List NodeId, path.length = n ∧ (top :: path).IsChain s.IsParent ∧
      ∀ x ∈ path, ∃ parent, s.IsParent parent x := by
  induction n generalizing ids with
  | zero => exact ⟨id, h, [], rfl, .singleton id, List.forall_mem_nil _⟩
  | succ n ih =>
    obtain ⟨child, hchild, path, hlength, hpath, hparents⟩ := ih h
    obtain ⟨top, htop, hparent⟩ := List.mem_flatMap.mp hchild
    exact ⟨top, htop, child :: path, by rw [List.length_cons, hlength],
      List.isChain_cons_cons.mpr ⟨hparent, hpath⟩,
      List.forall_mem_cons.mpr ⟨⟨top, hparent⟩, hparents⟩⟩

/-- Where no node stands below itself, a path has each node once. -/
theorem Acyclic.nodup_path (h : s.Acyclic) {path : List NodeId} (hpath : path.IsChain s.IsParent) :
    path.Nodup := by
  have hbelow : path.Pairwise (Relation.TransGen s.IsParent) :=
    (hpath.imp fun _ _ => Relation.TransGen.single).pairwise
  refine hbelow.imp ?_
  rintro a b hlt rfl
  exact h a hlt

/-- No node stands deeper than the number of nodes. -/
theorem Acyclic.stepsBelow_size (h : s.Acyclic) (hclosed : s.Closed) {ids : List NodeId}
    (hids : ∀ id ∈ ids, id ∈ s.nodes.map (·.id)) : stepsBelow s s.size ids = [] := by
  refine List.eq_nil_iff_forall_not_mem.mpr fun id hid => ?_
  obtain ⟨top, htop, path, hlength, hpath, hparents⟩ := exists_path hid
  have hknown : ∀ x ∈ top :: path, x ∈ s.nodes.map (·.id) := by
    refine List.forall_mem_cons.mpr ⟨hids top htop, fun x hx => ?_⟩
    obtain ⟨parent, hparent⟩ := hparents x hx
    exact hclosed parent x hparent
  have hle := (List.subperm_of_subset (h.nodup_path hpath) hknown).length_le
  rw [List.length_cons, hlength, List.length_map, size] at hle
  omega

/-- What holds of a node if it holds of its parents holds of all nodes. -/
theorem Acyclic.induction (h : s.Acyclic) {P : NodeId → Prop}
    (hstep : ∀ id ∈ s.nodes.map (·.id), (∀ parent ∈ s.nodes.map (·.id), s.IsParent parent id →
      P parent) → P id) : ∀ id ∈ s.nodes.map (·.id), P id := by
  have : IsStrictOrder NodeId (Relation.TransGen s.IsParent) :=
    { irrefl := h, trans := fun _ _ _ => Relation.TransGen.trans }
  have hwf := (List.finite_toSet (s.nodes.map (·.id))).wellFoundedOn
    (r := Relation.TransGen s.IsParent)
  intro id hid
  refine hwf.induction hid fun child hchild hparents => hstep child hchild fun parent hp hparent => ?_
  exact hparents parent hp (.single hparent)

/-! ### The document -/

/-- The identity that an object carries. -/
def idText? (fields : Table Json) : Option String :=
  match Table.get? "id" fields with
  | some (.str text) => some text
  | _ => none

/-- The identities that stand in the document, in order. -/
def writtenIds (s : Scene Number) : List String := s.toJson.objects.filterMap idText?

/-- How often a node stands in the document. -/
def occurrences (s : Scene Number) (id : NodeId) : Nat := s.writtenIds.count id.text

theorem id_of_node? {id : NodeId} {x : Node α} (h : s.node? id = some x) : x.id = id := by
  simpa using List.find?_some h

/-- The objects of trees carry the identities of what stands below their nodes. -/
theorem filterMap_idText?_trees {s : Scene Number} (hclosed : s.Closed) (depth : Nat)
    {ids : List NodeId} (hids : ∀ id ∈ ids, id ∈ s.nodes.map (·.id)) :
    (objectsOfItems ((ids.filterMap s.node?).map (s.tree depth))).filterMap idText? =
      (listed s depth ids).map NodeId.text := by
  induction depth generalizing ids with
  | zero =>
    have hnone : ∀ xs : List (Node Number), objectsOfItems (xs.map (s.tree 0)) = [] := by
      intro xs
      induction xs with
      | nil => rfl
      | cons x xs ih => exact ih
    rw [hnone]
    rfl
  | succ depth ih =>
    induction ids with
    | nil => rfl
    | cons id ids ihids =>
      obtain ⟨hid, hids⟩ := List.forall_mem_cons.mp hids
      obtain ⟨x, hx⟩ := exists_node? hid
      have hchildren := childrenOf_of_node? hx
      have hin : ∀ c ∈ x.children, c ∈ s.nodes.map (·.id) := fun c hc =>
        hclosed id c (by rw [IsParent, hchildren]; exact hc)
      have hbelow := ih hin
      rw [List.filterMap_cons_some hx, List.map_cons, objectsOfItems, List.filterMap_append,
        ihids hids, tree_succ, Json.objects, objectsOfFields_members, List.filterMap_cons_some
          (show idText? (x.members _) = some x.id.text from rfl), hbelow, id_of_node? hx]
      rw [← hchildren, ← List.map_cons, ← List.map_append]
      rfl

theorem mem_of_mem_listed (hclosed : s.Closed) {depth : Nat} {ids : List NodeId}
    (hids : ∀ id ∈ ids, id ∈ s.nodes.map (·.id)) {x : NodeId} (hx : x ∈ listed s depth ids) :
    x ∈ s.nodes.map (·.id) := by
  induction depth generalizing ids with
  | zero => cases hx
  | succ depth ih =>
    obtain ⟨id, hid, hx⟩ := List.mem_flatMap.mp hx
    rcases List.mem_cons.mp hx with rfl | hx
    · exact hids x hid
    · exact ih (fun c hc => hclosed id c hc) hx

theorem NodeId.made_inj_of_text {kind kind' : NodeKind} {n n' : Nat}
    (h : (NodeId.made kind n).text = (NodeId.made kind' n').text) :
    NodeId.made kind n = NodeId.made kind' n' := by
  obtain rfl := NodeId.text_made_inj h
  cases kind <;> cases kind' <;> simp_all [NodeId.text, NodeKind.name]

/-! ### Counting -/

theorem count_joinedTo (js : List (NodeId × NodeId)) (p id : NodeId) :
    (joinedTo js p).count id = ((parentsOf js id).map fun q => if p == q then 1 else 0).sum := by
  induction js with
  | nil => rfl
  | cons j js ih =>
    obtain ⟨a, b⟩ := j
    rw [joinedTo, parentsOf] at ih ⊢
    by_cases ha : a = p <;> by_cases hb : b = id <;>
      simp [ha, hb, ih, Nat.add_comm, Ne.symm]

/-- The children of some nodes, counted by their parents. -/
theorem count_flatMap_joinedTo (ids : List NodeId) (js : List (NodeId × NodeId)) (id : NodeId) :
    (ids.flatMap (joinedTo js)).count id = ((parentsOf js id).map (ids.count ·)).sum := by
  induction ids with
  | nil => simp
  | cons p ids ih =>
    simp only [List.flatMap_cons, List.count_append, List.count_cons, List.sum_map_add, ih,
      count_joinedTo]
    exact Nat.add_comm _ _

/-- A child that is joined once has one parent. -/
theorem eq_singleton_parentsOf {js : List (NodeId × NodeId)} (hnodup : (js.map (·.2)).Nodup)
    {p id : NodeId} (hj : (p, id) ∈ js) : parentsOf js id = [p] := by
  have hmem := mem_parentsOf_iff.mpr hj
  have hlength : (parentsOf js id).length ≤ 1 := by
    rw [length_parentsOf]
    exact List.nodup_iff_count_le_one.mp hnodup id
  match hparents : parentsOf js id, hmem, hlength with
  | [q], hmem, _ => rw [List.mem_singleton.mp hmem]

/-- The node is a root and the child of none, or else it is the child of just one node, once. -/
def HasOnePlace (s : Scene α) (id : NodeId) : Prop :=
  (id ∈ s.roots ∧ ∀ y ∈ s.nodes, id ∉ y.children) ∨
    (id ∉ s.roots ∧ ∃ y ∈ s.nodes, y.children.count id = 1 ∧
      ∀ z ∈ s.nodes, id ∈ z.children → z = y)

namespace Records

variable {js : List (NodeId × NodeId)}

theorem childrenOf_eq (h : Records s js) (id : NodeId) : s.childrenOf id = joinedTo js id := by
  cases hx : s.node? id with
  | some x =>
    rw [childrenOf_of_node? hx, h.children x (List.mem_of_find?_eq_some hx), id_of_node? hx]
  | none =>
    have hnone : joinedTo js id = [] := by
      refine List.eq_nil_iff_forall_not_mem.mpr fun child hchild => ?_
      exact node?_eq_none_iff.mp hx (h.known _ (mem_joinedTo_iff.mp hchild)).1
    rw [childrenOf, hx, hnone]
    rfl

theorem closed (h : Records s js) : s.Closed := by
  intro parent child hchild
  rw [IsParent, h.childrenOf_eq, mem_joinedTo_iff] at hchild
  exact (h.known _ hchild).2

/-- No call takes a child away, so a node that comes to stand below itself stays there. -/
theorem acyclic_of_after (h : Records s js) (hs : s.Reached) {rs : List (Request α)}
    (hacyclic : (after s rs).Acyclic) : s.Acyclic := by
  have hkeeps : ∀ parent child, s.IsParent parent child → (after s rs).IsParent parent child := by
    intro parent child hchild
    rw [IsParent, h.childrenOf_eq, mem_joinedTo_iff] at hchild
    rw [IsParent, (records_after h hs rs).childrenOf_eq, mem_joinedTo_iff]
    exact List.mem_append_left _ hchild
  exact fun id hid => hacyclic id (Relation.TransGen.mono hkeeps _ _ hid)

variable {s : Scene Number} (h : Records s js)
include h

/-- How often a node is written is how often it is listed. -/
theorem occurrences_eq_count {id : NodeId} (hid : id ∈ s.nodes.map (·.id)) :
    s.occurrences id = (listed s s.size s.roots).count id := by
  have hroots : ∀ x ∈ s.roots, x ∈ s.nodes.map (·.id) := fun x hx => (h.mem_roots_iff.mp hx).1
  have hwritten : s.writtenIds = (listed s s.size s.roots).map NodeId.text := by
    rw [← filterMap_idText?_trees h.closed s.size hroots]
    simp [writtenIds, toJson, rootNodes, Json.objects, Json.objectsOfFields, idText?, Table.get?]
  rw [occurrences, hwritten, List.count_eq_countP, List.countP_map, List.count_eq_countP]
  refine List.countP_congr fun x hx => ?_
  obtain ⟨kind, n, rfl⟩ := h.made id hid
  obtain ⟨kind', n', rfl⟩ := h.made x (mem_of_mem_listed h.closed hroots hx)
  simp only [Function.comp_apply, beq_iff_eq]
  exact ⟨NodeId.made_inj_of_text, congrArg NodeId.text⟩

/-- A root stands in the document once, and any other node as often as the nodes below which it was
put. -/
theorem occurrences_eq (hacyclic : s.Acyclic) {id : NodeId} (hid : id ∈ s.nodes.map (·.id)) :
    s.occurrences id =
      if id ∈ s.roots then 1 else ((parentsOf js id).map s.occurrences).sum := by
  have hroots : ∀ x ∈ s.roots, x ∈ s.nodes.map (·.id) := fun x hx => (h.mem_roots_iff.mp hx).1
  have hperm := perm_listed s s.size s.roots
  rw [hacyclic.stepsBelow_size h.closed hroots, List.append_nil, funext h.childrenOf_eq] at hperm
  have hparents : (parentsOf js id).map s.occurrences =
      (parentsOf js id).map ((listed s s.size s.roots).count ·) :=
    List.map_congr_left fun p hp =>
      h.occurrences_eq_count (h.known _ (mem_parentsOf_iff.mp hp)).1
  rw [hparents, h.occurrences_eq_count hid, hperm.count_eq, List.count_append,
    count_flatMap_joinedTo]
  split
  · rename_i hroot
    have hnone : parentsOf js id = [] := by
      refine List.eq_nil_iff_forall_not_mem.mpr fun p hp => (h.mem_roots_iff.mp hroot).2 ?_
      exact List.mem_map.mpr ⟨_, mem_parentsOf_iff.mp hp, rfl⟩
    rw [List.count_eq_one_of_mem h.nodup_roots hroot, hnone]
    rfl
  · rename_i hroot
    rw [List.count_eq_zero_of_not_mem hroot, Nat.zero_add]

/-- A node that is no root has been put below another. -/
theorem exists_parent {id : NodeId} (hid : id ∈ s.nodes.map (·.id)) (hroot : id ∉ s.roots) :
    ∃ p, p ∈ parentsOf js id := by
  have hjoined : id ∈ js.map (·.2) := by
    by_contra hnone
    exact hroot (h.mem_roots_iff.mpr ⟨hid, hnone⟩)
  obtain ⟨⟨p, child⟩, hj, rfl⟩ := List.mem_map.mp hjoined
  exact ⟨p, mem_parentsOf_iff.mpr hj⟩

/-- Every node stands in the document. -/
theorem occurrences_pos (hacyclic : s.Acyclic) :
    ∀ id ∈ s.nodes.map (·.id), 0 < s.occurrences id := by
  refine hacyclic.induction fun id hid hparents => ?_
  rw [h.occurrences_eq hacyclic hid]
  split
  · exact Nat.one_pos
  · rename_i hroot
    obtain ⟨p, hp⟩ := h.exists_parent hid hroot
    have hj := mem_parentsOf_iff.mp hp
    have hpos := hparents p (h.known _ hj).1
      (by rw [IsParent, h.childrenOf_eq]; exact mem_joinedTo_iff.mpr hj)
    exact List.sum_pos_iff_exists_pos_nat.mpr ⟨_, List.mem_map_of_mem hp, hpos⟩

/-- Every node stands in the document once just if none was put below others twice. -/
theorem occurrences_eq_one_iff (hacyclic : s.Acyclic) :
    (∀ id ∈ s.nodes.map (·.id), s.occurrences id = 1) ↔ (js.map (·.2)).Nodup := by
  constructor
  · intro hone
    refine List.nodup_iff_count_le_one.mpr fun id => ?_
    by_cases hjoined : id ∈ js.map (·.2)
    · obtain ⟨j, hj, rfl⟩ := List.mem_map.mp hjoined
      have hroot : j.2 ∉ s.roots := fun hroot => (h.mem_roots_iff.mp hroot).2 hjoined
      have hparents : (parentsOf js j.2).map s.occurrences = (parentsOf js j.2).map fun _ => 1 :=
        List.map_congr_left fun p hp => hone p (h.known _ (mem_parentsOf_iff.mp hp)).1
      have hcount := h.occurrences_eq hacyclic (h.known j hj).2
      rw [hone _ (h.known j hj).2, if_neg hroot, hparents, List.map_const', List.sum_replicate_nat,
        Nat.mul_one, length_parentsOf] at hcount
      exact Nat.le_of_eq hcount.symm
    · exact Nat.le_of_eq (List.count_eq_zero_of_not_mem hjoined) |>.trans (Nat.zero_le 1)
  · intro hnodup
    refine hacyclic.induction fun id hid hparents => ?_
    rw [h.occurrences_eq hacyclic hid]
    split
    · rfl
    · rename_i hroot
      obtain ⟨p, hp⟩ := h.exists_parent hid hroot
      obtain ⟨hj, hparent⟩ : (p, id) ∈ js ∧ s.IsParent p id := by
        rw [IsParent, h.childrenOf_eq, mem_joinedTo_iff]
        exact ⟨mem_parentsOf_iff.mp hp, mem_parentsOf_iff.mp hp⟩
      rw [eq_singleton_parentsOf hnodup hj, List.map_singleton, List.sum_singleton]
      exact hparents p (h.known _ hj).1 hparent

/-- Then each node has just one place. -/
theorem hasOnePlace (hnodup : (js.map (·.2)).Nodup) {x : Node Number} (hx : x ∈ s.nodes) :
    s.HasOnePlace x.id := by
  have hid := List.mem_map_of_mem (f := (·.id)) hx
  by_cases hroot : x.id ∈ s.roots
  · refine .inl ⟨hroot, fun y hy hmem => (h.mem_roots_iff.mp hroot).2 ?_⟩
    rw [h.children y hy] at hmem
    exact List.mem_map.mpr ⟨_, mem_joinedTo_iff.mp hmem, rfl⟩
  · obtain ⟨p, hp⟩ := h.exists_parent hid hroot
    have hj := mem_parentsOf_iff.mp hp
    have hone := eq_singleton_parentsOf hnodup hj
    obtain ⟨y, hy, rfl⟩ := List.mem_map.mp (h.known _ hj).1
    refine .inr ⟨hroot, y, hy, ?_, fun z hz hmem => ?_⟩
    · rw [h.children y hy, count_joinedTo, hone]
      simp
    · rw [h.children z hz, mem_joinedTo_iff, ← mem_parentsOf_iff, hone, List.mem_singleton] at hmem
      exact List.inj_on_of_nodup_map h.distinct hz hy hmem

end Records

/-! ### Histories -/

/-- Whatever calls are made, where no node comes to stand below itself: each node that was made stands
in the document, a root once, and any other one as often as the nodes below which it was put, for it
stays below each of them. So every node stands there just once if and only if none was put below
others twice, and then each has just one place. A call that names a node that is not there fails and
changes neither nodes nor roots. -/
theorem occurrences_of_history {rs : List (Request Number)} (hacyclic : (after {} rs).Acyclic) :
    let s := after {} rs
    let js := joins {} rs
    (∀ x ∈ s.nodes, x.children = joinedTo js x.id) ∧
    (∀ id ∈ created {} rs, 0 < s.occurrences id ∧ s.occurrences id =
      if id ∈ s.roots then 1 else ((parentsOf js id).map s.occurrences).sum) ∧
    ((∀ id ∈ created {} rs, s.occurrences id = 1) ↔ (js.map (·.2)).Nodup) ∧
    ((js.map (·.2)).Nodup → ∀ id ∈ created {} rs, s.HasOnePlace id) ∧
    ∀ (t : Scene Number) (r : Request Number), (∃ id ∈ r.ids, t.node? id = none) →
      (r.perform t).unknown ≠ none ∧ (r.perform t).scene.nodes = t.nodes ∧
        (r.perform t).scene.roots = t.roots := by
  intro s js
  have h : Records s js := records_after records_empty .empty rs
  have hcreated : ∀ id, id ∈ created {} rs ↔ id ∈ s.nodes.map (·.id) := by
    intro id
    rw [ids_after, List.mem_append, List.mem_reverse]
    simp
  simp only [hcreated]
  refine ⟨h.children, fun id hid => ?_, h.occurrences_eq_one_iff hacyclic, fun hnodup id hid => ?_,
    fun t r hunknown => ?_⟩
  · exact ⟨h.occurrences_pos hacyclic id hid, h.occurrences_eq hacyclic hid⟩
  · obtain ⟨x, hx, rfl⟩ := List.mem_map.mp hid
    exact h.hasOnePlace hnodup hx
  · have hfails : (r.perform t).unknown ≠ none := by
      obtain ⟨id, hid, hnone⟩ := hunknown
      rw [unknown_perform, Ne, Option.map_eq_none_iff, List.find?_eq_none]
      exact fun hall => hall id hid (Option.isNone_iff_eq_none.mpr hnone)
    exact ⟨hfails, kept_of_unknown hfails⟩

/-- Where each child has a greater number than its parent, no node stands below itself. -/
theorem acyclic_of_number_lt (h : ∀ x ∈ s.nodes, ∀ child ∈ x.children, x.id.number < child.number) :
    s.Acyclic := by
  have hlt : ∀ parent child, s.IsParent parent child → parent.number < child.number := by
    intro parent child hchild
    rw [IsParent] at hchild
    cases hx : s.node? parent with
    | none => simp [childrenOf, hx] at hchild
    | some x =>
      rw [childrenOf_of_node? hx] at hchild
      exact id_of_node? hx ▸ h x (List.mem_of_find?_eq_some hx) child hchild
  intro id hid
  have hbelow : ∀ top bottom, Relation.TransGen s.IsParent top bottom → top.number < bottom.number := by
    intro top bottom hpath
    induction hpath with
    | single hchild => exact hlt _ _ hchild
    | tail _ hchild ih => exact ih.trans (hlt _ _ hchild)
  exact Nat.lt_irrefl _ (hbelow id id hid)

/-- A card with a title, which gets a colour between calls that fail. -/
def titledCard : List (Request Number) :=
  [.create (.frame "Card" (.given 0) (.given 0) (.given 9) (.given 9)),
    .create (.component "Cell" (.given 0) (.given 0) (.given 4) (.given 4)),
    .create (.text "Title" (.given 0) (.given 0) (.given 12)),
    .append (.made .component 2) (.made .text 3), .append (.made .frame 1) (.made .text 4),
    .mark (.foreign "TEXT") (.fill "color-ink"), .mark (.made .text 3) (.textColor "color-ink"),
    .append (.made .frame 1) (.made .component 2)]

theorem occurrences_of_history_titledCard : (after {} titledCard).Acyclic ∧
    NodeId.made .text 3 ∈ created {} titledCard ∧
    (after {} titledCard).occurrences (.made .text 3) = 1 ∧
    (after {} titledCard).HasOnePlace (.made .text 3) := by
  have hacyclic : (after {} titledCard).Acyclic := acyclic_of_number_lt (by decide)
  have hcreated : NodeId.made .text 3 ∈ created {} titledCard := by decide
  have hnodup : ((joins {} titledCard).map (·.2)).Nodup := by decide
  obtain ⟨-, -, hone, hplace, -⟩ := occurrences_of_history hacyclic
  exact ⟨hacyclic, hcreated, hone.mpr hnodup _ hcreated, hplace hnodup _ hcreated⟩

/-- A text that is put below one frame and then below another one. -/
def sharedText : List (Request Number) :=
  [.create (.frame "A" (.given 0) (.given 0) (.given 1) (.given 1)),
    .create (.frame "B" (.given 0) (.given 0) (.given 1) (.given 1)),
    .create (.text "t" (.given 0) (.given 0) (.given 12)),
    .append (.made .frame 1) (.made .text 3), .append (.made .frame 2) (.made .text 3)]

/-- The text stays below the first frame and stands in the document twice. -/
theorem sharedText_written_twice : (after {} sharedText).Acyclic ∧
    NodeId.made .text 3 ∈ created {} sharedText ∧
    joins {} sharedText = [(.made .frame 1, .made .text 3), (.made .frame 2, .made .text 3)] ∧
    (after {} sharedText).childrenOf (.made .frame 1) = [.made .text 3] ∧
    (after {} sharedText).childrenOf (.made .frame 2) = [.made .text 3] ∧
    (after {} sharedText).occurrences (.made .text 3) = 2 := by
  refine ⟨acyclic_of_number_lt (by decide), by decide, by decide, by decide, by decide, ?_⟩
  decide +kernel

end DesignTokens.Scene
