import DesignTokens.Proofs.Matrix.Inside
import DesignTokens.Proofs.Scene.Sections
import Mathlib

/-!
Emissions in exact lengths. In the frame of each section the cells lie below the title and apart from
each other; the frames of one component stand side by side, and those of the next component below.
-/
namespace DesignTokens

open DesignTokens.Matrix (Constants Generator ModeSection exists_expand expands_of_expand)
open Registry (accepted_tag tag)

/-- The matrix of an accepted component, with cells of no extent below zero. -/
structure Matrix.Regular (k : Constants ℚ) (r : Matrix ℚ) : Prop where
  expanded : ∃ (g : Generator ℚ) (c : Component), g.constants = k ∧ Registry.Accepted c ∧
    g.expand c = .ok r
  extent : ∀ x ∈ r.grid.cells, 0 ≤ x.extent.width ∧ 0 ≤ x.extent.height

namespace Scene

/-! ### Heights of components -/

section

variable {k : Constants ℚ} {rs : List (Matrix ℚ)} (hgap : 0 ≤ k.sectionGap)
  (hheight : ∀ r ∈ rs, 0 ≤ r.height)
include hgap hheight

theorem le_placed {y : ℚ} {p : Matrix ℚ × ℚ} (hp : p ∈ placed k y rs) : y ≤ p.2 := by
  induction rs generalizing y with
  | nil => cases hp
  | cons r rs ih =>
    obtain ⟨hr, hrs⟩ := List.forall_mem_cons.mp hheight
    rcases List.mem_cons.mp hp with rfl | hp
    · exact le_refl y
    · have hnext := ih hrs hp
      rw [nextY] at hnext
      linarith

/-- Each component ends above those that follow. -/
theorem pairwise_placed (y : ℚ) :
    (placed k y rs).Pairwise fun p q => p.2 + p.1.height ≤ q.2 := by
  induction rs generalizing y with
  | nil => exact .nil
  | cons r rs ih =>
    obtain ⟨-, hrs⟩ := List.forall_mem_cons.mp hheight
    refine .cons ?_ (ih hrs _)
    intro q hq
    have hnext := le_placed hgap hrs hq
    rw [nextY] at hnext
    linarith

end

/-- The box of a section's frame. -/
def frameBox (p : Matrix ℚ × ℚ × ModeSection ℚ) : Matrix.Box :=
  ⟨p.2.2.x, p.2.1, p.2.2.width, p.2.2.height⟩

theorem pairwise_placedSections {k : Constants ℚ} (hk : k.Nonneg) {rs : List (Matrix ℚ)}
    (h : ∀ r ∈ rs, r.Regular k) :
    (placedSections k rs).Pairwise fun p q => (frameBox p).Apart (frameBox q) := by
  have hheight : ∀ r ∈ rs, 0 ≤ r.height := by
    intro r hr
    obtain ⟨g, c, rfl, -, he⟩ := (h r hr).expanded
    exact Matrix.height_nonneg_of_sections fun s => (expands_of_expand he).section_height_nonneg hk
  rw [placedSections, List.pairwise_flatMap]
  constructor
  · -- The modes of one component stand side by side.
    intro p hp
    obtain ⟨g, c, rfl, -, he⟩ := (h p.1 (mem_of_mem_placed hp)).expanded
    rw [List.pairwise_map]
    exact ((expands_of_expand he).pairwise_sections hk).imp fun hab => .inl (.inl hab)
  · refine (pairwise_placed hk.sectionGap hheight k.startY).imp ?_
    intro p q hpq a ha b hb
    obtain ⟨m, hm, rfl⟩ := List.mem_map.mp ha
    obtain ⟨m', -, rfl⟩ := List.mem_map.mp hb
    have hle := Matrix.le_height hm
    refine .inr (.inl ?_)
    simp only [frameBox]
    linarith

/-! ### Nodes in their places -/

def Node.HasBox (n : Node ℚ) (b : Matrix.Box) : Prop := n.Occupies b.x b.y b.width b.height

/-- Two nodes take up boxes that do not overlap. -/
def Node.Apart (a b : Node ℚ) : Prop := ∃ p q : Matrix.Box, a.HasBox p ∧ b.HasBox q ∧ p.Apart q

/-- The components in a frame lie inside it, below its title, and do not overlap. -/
structure Arranged (k : Constants ℚ) (s : Scene ℚ) (frame : Node ℚ) : Prop where
  inside : ∀ n ∈ s.componentsBelow frame, ∃ p q : Matrix.Box, frame.HasBox p ∧ n.HasBox q ∧
    q.Inside (k.sectionPadding + k.titleHeight) p.width p.height
  apart : (s.componentsBelow frame).Pairwise Node.Apart

theorem arranged_of_showsSection {k : Constants ℚ} (hk : k.Nonneg) {r : Matrix ℚ}
    (h : r.Regular k) {s : Scene ℚ} {frame : Node ℚ} {y : ℚ} {m : ModeSection ℚ}
    (hm : m ∈ r.sections) (hframe : ShowsSection s frame r y m) : Arranged k s frame := by
  obtain ⟨g, c, rfl, hc, he⟩ := h.expanded
  have hexpands := expands_of_expand he
  constructor
  · intro n hn
    obtain ⟨x, hx, hcell⟩ := exists_left_of_forall₂ hframe.cells hn
    exact ⟨frameBox (r, y, m), x.box.shift m.contentX m.contentY, hframe.place, hcell.place,
      hexpands.inside_section hk hm hx⟩
  · refine pairwise_of_forall₂ hframe.cells (hexpands.pairwise_apart hc.wellFormed hk) ?_
    intro a b n n' hn hn' hab
    exact ⟨a.box.shift m.contentX m.contentY, b.box.shift m.contentX m.contentY, hn.place, hn'.place,
      hab.shift m.contentX m.contentY⟩

/-- Whatever components are emitted, each track is as great as its greatest cell, the cells of every
section stand inside its frame and apart from each other, and no two frames overlap. -/
theorem ofMatrices_arranged {k : Constants ℚ} (hk : k.Nonneg) {rs : List (Matrix ℚ)}
    (h : ∀ r ∈ rs, r.Regular k) :
    (∀ r ∈ rs, r.grid.Tight) ∧ ∃ e, Emission.ofMatrices k rs = .ok e ∧
      List.Forall₂ (fun p id => ∃ frame, e.scene.node? id = some frame ∧
        ShowsSection e.scene frame p.1 p.2.1 p.2.2 ∧ Arranged k e.scene frame)
        (placedSections k rs) e.scene.roots ∧
      e.scene.roots.Pairwise fun i j => ∃ a b, e.scene.node? i = some a ∧
        e.scene.node? j = some b ∧ a.Apart b := by
  obtain ⟨e, he, hholds, -⟩ := exists_ofMatrices k rs
  have hsections := hholds.forall₂_showsSection.flip
  refine ⟨?_, e, he, ?_, ?_⟩
  · intro r hr
    obtain ⟨g, c, -, hc, hr'⟩ := (h r hr).expanded
    exact (expands_of_expand hr').tight hc.wellFormed (fun a ha => hc.values_ne_nil ha)
      (h r hr).extent
  · have hmem : ∀ p ∈ placedSections k rs, p.1 ∈ rs ∧ p.2.2 ∈ p.1.sections :=
      fun p hp => mem_of_mem_placedSections hp
    refine ((List.forall₂_and_left _ _).mpr ⟨hmem, hsections⟩).imp ?_
    rintro p id ⟨⟨hr, hm⟩, frame, hframe, hshows⟩
    exact ⟨frame, hframe, hshows, arranged_of_showsSection hk (h p.1 hr) hm hshows⟩
  · refine pairwise_of_forall₂ hsections (pairwise_placedSections hk h) ?_
    rintro p q i j ⟨a, ha, hp⟩ ⟨b, hb, hq⟩ hpq
    exact ⟨a, b, ha, hb, frameBox p, frameBox q, hp.place, hq.place, hpq⟩

/-- The components of two emissions of one matrix. -/
theorem ofMatrices_arranged_tag :
    (Constants.exact 24 40).Nonneg ∧ ∃ r, (Generator.exact (.exact 24 40)).expand tag = .ok r ∧
      r.Regular (.exact 24 40) ∧ r.grid.Tight ∧
      ∃ e, Emission.ofMatrices (.exact 24 40) [r, r] = .ok e ∧
        e.scene.roots.Pairwise fun i j => ∃ a b, e.scene.node? i = some a ∧
          e.scene.node? j = some b ∧ a.Apart b := by
  have hk : (Constants.exact 24 40).Nonneg := by
    constructor <;> norm_num [Constants.exact]
  have hassign : Matrix.assign tag none = .ok ⟨tag.axes.take 1, tag.axes.drop 1⟩ := rfl
  obtain ⟨r, hr⟩ := exists_expand (g := .exact (.exact 24 40)) (fun _ => rfl) hk.gapX hk.gapY
    accepted_tag.wellFormed hassign
  have hregular : r.Regular (.exact 24 40) := by
    refine ⟨⟨_, tag, rfl, accepted_tag, hr⟩, ?_⟩
    intro x hx
    obtain ⟨v, -, e⟩ := (expands_of_expand hr).exists_combination hx
    rw [e]
    refine ⟨List.sum_nonneg ?_, zero_le_one⟩
    intro l hl
    obtain ⟨p, -, rfl⟩ := List.mem_map.mp hl
    exact Nat.cast_nonneg _
  have hall : ∀ r' ∈ [r, r], r'.Regular (.exact 24 40) := by simpa using hregular
  obtain ⟨htight, e, he, -, hapart⟩ := ofMatrices_arranged hk hall
  exact ⟨hk, r, hr, hregular, htight r List.mem_cons_self, e, he, hapart⟩

end Scene

end DesignTokens
