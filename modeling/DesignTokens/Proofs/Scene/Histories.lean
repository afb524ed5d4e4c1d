import DesignTokens.Proofs.Scene.Reached

/-!
Histories of scenes. A scene is told by the calls that made it: a node has the children that were put
below it, in the order of the calls, and the roots are the nodes that were never put below another.
Calls that name a node that is not there leave no trace.
-/
namespace DesignTokens.Scene

variable {α : Type} {s : Scene α}

/-! ### Calls -/

/-- A call with what it asks for. -/
inductive Request (α : Type) where
  | create (shape : Shape α)
  | mark (id : NodeId) (m : Mark α)
  | append (parent child : NodeId)
  deriving DecidableEq, Repr

namespace Request

/-- The nodes that a call names. -/
def ids : Request α → List NodeId
  | .create _ => []
  | .mark id _ => [id]
  | .append parent child => [parent, child]

def perform (s : Scene α) : Request α → Outcome α
  | .create shape => ⟨(s.create shape).2, none⟩
  | .mark id m => s.mark id m
  | .append parent child => s.appendChild parent child

/-- The identity that a call gives to a new node. -/
def made? (s : Scene α) : Request α → Option NodeId
  | .create shape => some (s.create shape).1
  | .mark .. | .append .. => none

/-- The parent and the child of an append that succeeds. -/
def join? (s : Scene α) : Request α → Option (NodeId × NodeId)
  | .create _ | .mark .. => none
  | .append parent child =>
    if (s.appendChild parent child).unknown = none then some (parent, child) else none

end Request

/-- The scene after some calls, one after the other. -/
def after (s : Scene α) : List (Request α) → Scene α
  | [] => s
  | r :: rs => after (r.perform s).scene rs

/-- The identities that some calls give to new nodes, in order. -/
def created (s : Scene α) : List (Request α) → List NodeId
  | [] => []
  | r :: rs => (r.made? s).toList ++ created (r.perform s).scene rs

/-- The parents and children that some calls join, in order. -/
def joins (s : Scene α) : List (Request α) → List (NodeId × NodeId)
  | [] => []
  | r :: rs => (r.join? s).toList ++ joins (r.perform s).scene rs

theorem Reached.perform (h : Reached s) (r : Request α) : Reached (r.perform s).scene := by
  cases r with
  | create shape => exact h.create shape
  | mark id m => exact h.mark id m
  | append parent child => exact h.append parent child

theorem ids_perform (s : Scene α) (r : Request α) :
    (r.perform s).scene.nodes.map (·.id) = (r.made? s).toList ++ s.nodes.map (·.id) := by
  cases r with
  | create shape => rfl
  | mark id m =>
    rw [Request.perform, mark]
    split
    · exact map_id_change (f := Node.mark m) (fun _ => rfl) id s.nodes
    · rfl
  | append parent child =>
    rw [Request.perform, appendChild]
    split
    · rfl
    · rfl
    · exact map_id_change (adopt_id [child]) parent s.nodes

/-- Every node that is made stays, and there are no others. -/
theorem ids_after (s : Scene α) (rs : List (Request α)) :
    (after s rs).nodes.map (·.id) = (created s rs).reverse ++ s.nodes.map (·.id) := by
  induction rs generalizing s with
  | nil => rfl
  | cons r rs ih =>
    rw [after, created, ih, ids_perform, List.reverse_append, List.append_assoc]
    cases r.made? s <;> rfl

theorem node?_eq_none_iff {id : NodeId} : s.node? id = none ↔ id ∉ s.nodes.map (·.id) := by
  constructor
  · intro h hmem
    obtain ⟨x, hx⟩ := exists_node? hmem
    rw [hx] at h
    cases h
  · intro h
    refine List.find?_eq_none.mpr fun x hx => ?_
    have hne : x.id ≠ id := fun e => h (List.mem_map.mpr ⟨x, hx, e⟩)
    simpa using hne

/-- A call fails on the first node that it names and that is not there. -/
theorem unknown_perform (s : Scene α) (r : Request α) :
    (r.perform s).unknown =
      (r.ids.find? fun id => (s.node? id).isNone).map UnknownNode.mk := by
  cases r with
  | create shape => rfl
  | mark id m =>
    change (s.mark id m).unknown = _
    have hnode : (s.record (.ofMark m)).node? id = s.node? id := rfl
    simp only [mark, hnode, Request.ids, List.find?]
    cases s.node? id <;> rfl
  | append parent child =>
    change (s.appendChild parent child).unknown = _
    have hnode : ∀ id, (s.record .appendChild).node? id = s.node? id := fun _ => rfl
    simp only [appendChild, hnode, Request.ids, List.find?]
    cases s.node? parent <;> cases s.node? child <;> rfl

/-- A call that fails changes neither the nodes nor the roots. -/
theorem kept_of_unknown {r : Request α} (h : (r.perform s).unknown ≠ none) :
    (r.perform s).scene.nodes = s.nodes ∧ (r.perform s).scene.roots = s.roots := by
  cases r with
  | create shape => exact absurd rfl h
  | mark id m =>
    simp only [Request.perform, mark] at h ⊢
    split at h
    · exact absurd rfl h
    · exact ⟨rfl, rfl⟩
  | append parent child =>
    simp only [Request.perform, appendChild] at h ⊢
    split at h
    · exact ⟨rfl, rfl⟩
    · exact ⟨rfl, rfl⟩
    · exact absurd rfl h

/-- Where no two nodes have the same identity, the change of one is a change at its place. -/
theorem change_eq_map {f : Node α → Node α} {id : NodeId} {ns : List (Node α)}
    (h : (ns.map (·.id)).Nodup) : change id f ns = ns.map fun x => if x.id = id then f x else x := by
  induction ns with
  | nil => rfl
  | cons x ns ih =>
    obtain ⟨hx, hns⟩ := List.nodup_cons.mp h
    by_cases hid : x.id = id
    · have hothers : ∀ y ∈ ns, (if y.id = id then f y else y) = y := fun y hy =>
        if_neg fun e => hx (List.mem_map.mpr ⟨y, hy, e.trans hid.symm⟩)
      rw [change, if_pos hid, List.map_cons, if_pos hid, List.map_congr_left hothers, List.map_id']
    · rw [change, if_neg hid, List.map_cons, if_neg hid, ih hns]

/-! ### What a history tells -/

/-- The children that are joined to a parent, in order. -/
def joinedTo (js : List (NodeId × NodeId)) (parent : NodeId) : List NodeId :=
  (js.filter (·.1 = parent)).map (·.2)

/-- The parents that a child is joined to, in order. -/
def parentsOf (js : List (NodeId × NodeId)) (child : NodeId) : List NodeId :=
  (js.filter (·.2 = child)).map (·.1)

theorem mem_joinedTo_iff {js : List (NodeId × NodeId)} {parent child : NodeId} :
    child ∈ joinedTo js parent ↔ (parent, child) ∈ js := by
  simp [joinedTo]

theorem mem_parentsOf_iff {js : List (NodeId × NodeId)} {parent child : NodeId} :
    parent ∈ parentsOf js child ↔ (parent, child) ∈ js := by
  simp [parentsOf]

theorem length_parentsOf (js : List (NodeId × NodeId)) (child : NodeId) :
    (parentsOf js child).length = (js.map (·.2)).count child := by
  rw [parentsOf, List.length_map, List.count_eq_countP, List.countP_map, List.countP_eq_length_filter]
  rfl

theorem joinedTo_concat (js : List (NodeId × NodeId)) (parent child id : NodeId) :
    joinedTo (js ++ [(parent, child)]) id =
      if id = parent then joinedTo js id ++ [child] else joinedTo js id := by
  rw [joinedTo, List.filter_append, List.map_append, ← joinedTo]
  split
  · rename_i h
    simp [h]
  · rename_i h
    simp [Ne.symm h]

/-- The scene is the one in which these pairs were joined, one after the other. -/
structure Records (s : Scene α) (js : List (NodeId × NodeId)) : Prop where
  made : ∀ id ∈ s.nodes.map (·.id), ∃ kind n, id = .made kind n
  distinct : (s.nodes.map (·.id)).Nodup
  known : ∀ j ∈ js, j.1 ∈ s.nodes.map (·.id) ∧ j.2 ∈ s.nodes.map (·.id)
  children : ∀ x ∈ s.nodes, x.children = joinedTo js x.id
  roots : s.roots = (s.nodes.map (·.id)).reverse.filter (· ∉ js.map (·.2))

theorem records_empty : Records ({} : Scene α) [] :=
  ⟨by simp, List.nodup_nil, by simp, by simp, rfl⟩

namespace Records

variable {js : List (NodeId × NodeId)} (h : Records s js)
include h

theorem nodup_roots : s.roots.Nodup := by
  rw [h.roots]
  exact (List.nodup_reverse.mpr h.distinct).filter _

theorem mem_roots_iff {id : NodeId} :
    id ∈ s.roots ↔ id ∈ s.nodes.map (·.id) ∧ id ∉ js.map (·.2) := by
  rw [h.roots, List.mem_filter, List.mem_reverse, decide_eq_true_iff]

/-- The same holds of a scene with the same nodes, but for their attributes, and the same roots. -/
theorem congr {t : Scene α} (hids : t.nodes.map (·.id) = s.nodes.map (·.id))
    (hchildren : ∀ x ∈ t.nodes, ∃ y ∈ s.nodes, y.id = x.id ∧ y.children = x.children)
    (hroots : t.roots = s.roots) : Records t js := by
  refine ⟨hids ▸ h.made, hids ▸ h.distinct, hids ▸ h.known, fun x hx => ?_, ?_⟩
  · obtain ⟨y, hy, hid, hsame⟩ := hchildren x hx
    rw [← hsame, h.children y hy, hid]
  · rw [hroots, hids, h.roots]

theorem create (hs : s.Numbered) (shape : Shape α) : Records (s.create shape).2 js := by
  have hids : (s.create shape).2.nodes.map (·.id) =
      .made shape.kind (s.size + 1) :: s.nodes.map (·.id) := rfl
  have hfresh : NodeId.made shape.kind (s.size + 1) ∉ s.nodes.map (·.id) :=
    fun hmem => Nat.not_succ_le_self _ (hs.nodes _ hmem)
  have hparent : ∀ j ∈ js, j.1 ≠ .made shape.kind (s.size + 1) :=
    fun j hj e => hfresh (e ▸ (h.known j hj).1)
  have hchild : NodeId.made shape.kind (s.size + 1) ∉ js.map (·.2) := by
    rintro hmem
    obtain ⟨j, hj, e⟩ := List.mem_map.mp hmem
    exact hfresh (e ▸ (h.known j hj).2)
  constructor
  · rw [hids]
    exact List.forall_mem_cons.mpr ⟨⟨_, _, rfl⟩, h.made⟩
  · rw [hids]
    exact List.nodup_cons.mpr ⟨hfresh, h.distinct⟩
  · intro j hj
    rw [hids]
    exact (h.known j hj).imp (List.mem_cons_of_mem _) (List.mem_cons_of_mem _)
  · intro x hx
    rw [create_nodes] at hx
    rcases List.mem_cons.mp hx with rfl | hx
    · have hnone : js.filter (fun j => decide (j.1 = .made shape.kind (s.size + 1))) = [] :=
        List.filter_eq_nil_iff.mpr fun j hj => by simpa using hparent j hj
      change [] = joinedTo js (.made shape.kind (s.size + 1))
      rw [joinedTo, hnone, List.map_nil]
    · exact h.children x hx
  · rw [create_roots, hids, List.reverse_cons, List.filter_append, ← h.roots]
    simp only [List.filter_cons, hchild, not_false_eq_true, decide_true, if_true, List.filter_nil]

theorem mark (id : NodeId) (m : Mark α) : Records (s.mark id m).scene js := by
  rw [Scene.mark]
  split
  · refine h.congr (map_id_change (f := Node.mark m) (fun _ => rfl) id s.nodes) ?_ rfl
    intro x hx
    obtain ⟨y, hy, rfl⟩ := List.mem_map.mp (change_eq_map h.distinct ▸ hx)
    refine ⟨y, hy, ?_⟩
    split
    · exact ⟨rfl, rfl⟩
    · exact ⟨rfl, rfl⟩
  · exact h.congr rfl (fun x hx => ⟨x, hx, rfl, rfl⟩) rfl

/-- The child is put after the other children of its parent, and is no root any more. -/
theorem join {parent child : NodeId} (hparent : parent ∈ s.nodes.map (·.id))
    (hchild : child ∈ s.nodes.map (·.id)) {t : Scene α}
    (hnodes : t.nodes = change parent (adopt [child]) s.nodes)
    (hroots : t.roots = s.roots.erase child) : Records t (js ++ [(parent, child)]) := by
  have hids : t.nodes.map (·.id) = s.nodes.map (·.id) := by
    rw [hnodes, map_id_change (adopt_id [child])]
  constructor
  · exact hids.symm ▸ h.made
  · exact hids.symm ▸ h.distinct
  · rw [hids]
    exact List.forall_mem_append.mpr ⟨h.known, List.forall_mem_singleton.mpr ⟨hparent, hchild⟩⟩
  · intro x hx
    rw [hnodes, change_eq_map h.distinct] at hx
    obtain ⟨y, hy, rfl⟩ := List.mem_map.mp hx
    have hjoined := h.children y hy
    split
    · rename_i hid
      rw [adopt_id, joinedTo_concat, if_pos hid, ← hjoined]
      rfl
    · rename_i hid
      rw [joinedTo_concat, if_neg hid, hjoined]
  · rw [hroots, hids, h.nodup_roots.erase_eq_filter, h.roots, List.filter_filter]
    refine List.filter_congr fun id _ => ?_
    have hmem : id ∈ (js ++ [(parent, child)]).map (·.2) ↔ id ∈ js.map (·.2) ∨ id = child := by
      rw [List.map_append, List.mem_append, List.map_singleton, List.mem_singleton]
    rw [decide_not, decide_not, decide_eq_decide.mpr hmem, Bool.decide_or, Bool.not_or,
      Bool.and_comm, bne, beq_eq_decide]

/-- One call: what it joins is joined after what was joined before. -/
theorem perform (hs : s.Numbered) (r : Request α) :
    Records (r.perform s).scene (js ++ (r.join? s).toList) := by
  cases r with
  | create shape =>
    rw [Request.join?, Option.toList_none, List.append_nil]
    exact h.create hs shape
  | mark id m =>
    rw [Request.join?, Option.toList_none, List.append_nil]
    exact h.mark id m
  | append parent child =>
    cases hunknown : (s.appendChild parent child).unknown with
    | none =>
      have hfound := unknown_perform s (.append parent child)
      rw [Request.perform, hunknown, eq_comm, Option.map_eq_none_iff, List.find?_eq_none] at hfound
      have hknown : ∀ id ∈ [parent, child], id ∈ s.nodes.map (·.id) := by
        intro id hid
        by_contra hnone
        exact hfound id hid (Option.isNone_iff_eq_none.mpr (node?_eq_none_iff.mpr hnone))
      have hparent := hknown parent List.mem_cons_self
      have hchild := hknown child (List.mem_cons_of_mem _ List.mem_cons_self)
      obtain ⟨t, ht, hnodes, hroots⟩ := appendChild_eq_ok hparent hchild
      rw [Outcome.result, hunknown] at ht
      obtain rfl := Except.ok.inj ht
      rw [Request.join?, if_pos hunknown]
      exact h.join hparent hchild hnodes hroots
    | some u =>
      have hfails : ((Request.append parent child).perform s).unknown ≠ none := by
        rw [Request.perform, hunknown]
        exact Option.some_ne_none u
      obtain ⟨hnodes, hroots⟩ := kept_of_unknown hfails
      have hnone : (Request.append parent child).join? s = none := if_neg hfails
      rw [hnone, Option.toList_none, List.append_nil]
      refine h.congr (by rw [hnodes]) (fun x hx => ⟨x, hnodes ▸ hx, rfl, rfl⟩) hroots

end Records

/-- A scene is told by its history. -/
theorem records_after {js : List (NodeId × NodeId)} (h : Records s js) (hs : s.Reached)
    (rs : List (Request α)) : Records (after s rs) (js ++ joins s rs) := by
  induction rs generalizing s js with
  | nil => simpa [after, joins] using h
  | cons r rs ih =>
    rw [after, joins, ← List.append_assoc]
    exact ih (h.perform hs.numbered r) (hs.perform r)

end DesignTokens.Scene
