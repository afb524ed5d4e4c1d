import DesignTokens.Proofs.Scene.Shown
import DesignTokens.Scene.Emission

/-!
Scenes that calls have made, also calls that failed. In all of them the numbers that are given go on
after those of the nodes, so that drawings and emissions succeed in them and leave what is there.
-/
namespace DesignTokens.Scene

variable {α : Type} {s : Scene α}

/-- The scenes that calls make out of an empty one. -/
inductive Reached : Scene α → Prop
  | empty : Reached {}
  | create {s : Scene α} (shape : Shape α) : Reached s → Reached (s.create shape).2
  | mark {s : Scene α} (id : NodeId) (m : Mark α) : Reached s → Reached (s.mark id m).scene
  | append {s : Scene α} (parent child : NodeId) :
    Reached s → Reached (s.appendChild parent child).scene

/-! ### Numbers -/

/-- A call that makes no node and no root keeps the numbers. -/
theorem Numbered.of_ids {t : Scene α} (h : Numbered s)
    (hids : t.nodes.map (·.id) = s.nodes.map (·.id)) (hroots : ∀ id ∈ t.roots, id ∈ s.roots) :
    Numbered t := by
  have hsize : t.size = s.size := by simpa [size] using congrArg List.length hids
  constructor
  · intro id hid
    rw [hsize]
    exact h.nodes id (hids ▸ hid)
  · intro id hid
    rw [hsize]
    exact h.roots id (hroots id hid)

theorem Numbered.create (h : Numbered s) (shape : Shape α) : Numbered (s.create shape).2 := by
  have hids : (s.create shape).2.nodes.map (·.id) =
      .made shape.kind (s.size + 1) :: s.nodes.map (·.id) := rfl
  have hsize : (s.create shape).2.size = s.size + 1 := rfl
  constructor
  · intro id hid
    rw [hids] at hid
    rcases List.mem_cons.mp hid with rfl | hid
    · exact Nat.le_refl _
    · exact Nat.le_succ_of_le (h.nodes id hid)
  · intro id hid
    rw [create_roots] at hid
    rcases List.mem_append.mp hid with hid | hid
    · exact Nat.le_succ_of_le (h.roots id hid)
    · obtain rfl := List.mem_singleton.mp hid
      exact Nat.le_refl _

theorem Numbered.mark (h : Numbered s) (id : NodeId) (m : Mark α) :
    Numbered (s.mark id m).scene := by
  rw [Scene.mark]
  split
  · exact h.of_ids (map_id_change (f := Node.mark m) (fun _ => rfl) id s.nodes) fun _ hid => hid
  · exact h.of_ids rfl fun _ hid => hid

theorem Numbered.appendChild (h : Numbered s) (parent child : NodeId) :
    Numbered (s.appendChild parent child).scene := by
  rw [Scene.appendChild]
  split
  · exact h.of_ids rfl fun _ hid => hid
  · exact h.of_ids rfl fun _ hid => hid
  · exact h.of_ids (map_id_change (f := adopt [child]) (fun _ => rfl) parent s.nodes)
      fun _ hid => List.mem_of_mem_erase hid

theorem Reached.numbered (h : Reached s) : Numbered s := by
  induction h with
  | empty => exact numbered_empty
  | create shape _ ih => exact ih.create shape
  | mark id m _ ih => exact ih.mark id m
  | append parent child _ ih => exact ih.appendChild parent child

/-! ### Emissions -/

/-- Whatever calls were made before, an emission succeeds and shows its drawings below new roots. -/
theorem Reached.exists_into [Add α] [Zero α] [Max α] (h : Reached s) (k : Matrix.Constants α)
    (rs : List (Matrix α)) :
    ∃ e ids, Emission.into k rs s = .ok e ∧ e.scene.roots = s.roots ++ ids ∧
      List.Forall₂ (Shows e.scene) ids (drawings k rs) ∧
      Drawing.sizeAll (drawings k rs) ≤ e.scene.size := by
  obtain ⟨t, ht, hnodes, hroots⟩ := drawAll_eq_ok (drawings k rs) h.numbered
  refine ⟨_, _, by rw [Emission.into, ht]; rfl, hroots, ?_, ?_⟩
  · exact forall₂_shows_of_found _ fun x hx => node?_of_mem_nodesAllAfter hnodes hx
  · simp [size, hnodes, length_nodesAllAfter]

end DesignTokens.Scene
