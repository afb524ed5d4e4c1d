import DesignTokens.Proofs.Matrix.Complete

/-!
Names of cells and labels of tracks. The keys of a cell's values tell it from all other cells. Its
name writes them one after the other without marking where one ends, and tells as much only where no
key of an axis can be taken for the start of another.
-/
namespace DesignTokens.Matrix

open Registry (tag)

variable {α : Type}

/-! ### Labels -/

theorem label_singleton (name : String) (x : AxisValue) : label [(name, x)] = name ++ "=" ++ x.key :=
  String.intercalate_singleton

theorem label_cons_cons (p q : String × AxisValue) (v : Combination) :
    label (p :: q :: v) = p.1 ++ "=" ++ p.2.key ++ ", " ++ label (q :: v) :=
  String.intercalate_cons_cons

/-- A label starts with the name of the first axis. -/
theorem IsCombination.exists_label {a : VariantAxis} {axes : List VariantAxis} {v : Combination}
    (h : IsCombination (a :: axes) v) : ∃ rest, label v = a.name ++ "=" ++ rest := by
  obtain ⟨x, -, w, -, rfl⟩ := isCombination_cons_iff.mp h
  cases w with
  | nil => exact ⟨x.key, label_singleton a.name x⟩
  | cons q w =>
    refine ⟨x.key ++ (", " ++ label (q :: w)), ?_⟩
    simp only [label_cons_cons, String.append_assoc]

/-- What a label has between the key of a value and that of a value of the next axis. -/
def separator (next : VariantAxis) : List Char := (", " ++ next.name ++ "=").toList

/-- Before the next axis, no key is taken for the start of another key. -/
def Delimited (a next : VariantAxis) : Prop :=
  ∀ x ∈ a.keys, ∀ y ∈ a.keys,
    x.toList ++ separator next <+: y.toList ++ separator next → x = y

/-- All keys but those of the last axis end where they seem to. -/
def Separated (axes : List VariantAxis) : Prop := axes.IsChain Delimited

theorem Delimited.eq_of_append {a next : VariantAxis} (h : Delimited a next) {x y : AxisValue}
    (hx : x ∈ a.values) (hy : y ∈ a.values) {r s : List Char}
    (heq : x.key.toList ++ separator next ++ r = y.key.toList ++ separator next ++ s) :
    x.key = y.key ∧ r = s := by
  have hkey : x.key = y.key := by
    have hpre : x.key.toList ++ separator next <+: y.key.toList ++ separator next ++ s := ⟨r, heq⟩
    rcases List.prefix_or_prefix_of_prefix hpre (List.prefix_append _ s) with hxy | hyx
    · exact h _ (List.mem_map_of_mem hx) _ (List.mem_map_of_mem hy) hxy
    · exact (h _ (List.mem_map_of_mem hy) _ (List.mem_map_of_mem hx) hyx).symm
  rw [hkey] at heq
  exact ⟨hkey, List.append_cancel_left heq⟩

theorem label_cons_of_isCombination {a next : VariantAxis} {axes : List VariantAxis} (x : AxisValue)
    {v : Combination} (h : IsCombination (next :: axes) v) : ∃ rest,
      label v = next.name ++ "=" ++ rest ∧ (label ((a.name, x) :: v)).toList =
        (a.name ++ "=").toList ++ (x.key.toList ++ separator next ++ rest.toList) := by
  obtain ⟨rest, hrest⟩ := h.exists_label
  obtain ⟨y, -, w, -, rfl⟩ := isCombination_cons_iff.mp h
  refine ⟨rest, hrest, ?_⟩
  simp [label_cons_cons, hrest, separator]

/-- A label tells its combination. -/
theorem eq_of_label {axes : List VariantAxis} (hs : Separated axes)
    (hk : ∀ a ∈ axes, a.keys.Nodup) {v w : Combination} (hv : IsCombination axes v)
    (hw : IsCombination axes w) (h : label v = label w) : v = w := by
  induction axes generalizing v w with
  | nil =>
    cases hv
    cases hw
    rfl
  | cons a axes ih =>
    obtain ⟨ha, haxes⟩ := List.forall_mem_cons.mp hk
    obtain ⟨x, hx, v, hv', rfl⟩ := isCombination_cons_iff.mp hv
    obtain ⟨y, hy, w, hw', rfl⟩ := isCombination_cons_iff.mp hw
    have hvalue : x.key = y.key → x = y := List.inj_on_of_nodup_map ha hx hy
    cases axes with
    | nil =>
      cases hv'
      cases hw'
      rw [label_singleton, label_singleton, String.append_right_inj] at h
      rw [hvalue h]
    | cons next axes =>
      obtain ⟨hdelimited, hrest⟩ := List.isChain_cons_cons.mp hs
      obtain ⟨r, hr, hvr⟩ := label_cons_of_isCombination (a := a) x hv'
      obtain ⟨s, hs, hws⟩ := label_cons_of_isCombination (a := a) y hw'
      rw [h, hws, List.append_cancel_left_eq] at hvr
      obtain ⟨hkey, hsame⟩ := hdelimited.eq_of_append hx hy hvr.symm
      rw [hvalue hkey, ih hrest haxes hv' hw' (by rw [hr, hs, String.toList_inj.mp hsame])]

theorem delimited_of_not_infix {a next : VariantAxis}
    (h : ∀ key ∈ a.keys, ¬ [',', ' '] <:+: key.toList) : Delimited a next := by
  intro x _ y hy hpre
  obtain ⟨t, ht⟩ : ∃ t, separator next = ',' :: ' ' :: t :=
    ⟨(next.name ++ "=").toList, by simp [separator]⟩
  rw [ht] at hpre
  have hle : x.toList.length ≤ y.toList.length := by
    have hlength := hpre.length_le
    simp only [List.length_append] at hlength
    omega
  obtain ⟨z, hz⟩ := List.prefix_of_prefix_length_le ((List.prefix_append _ _).trans hpre)
    (List.prefix_append _ _) hle
  rw [← hz, List.append_assoc, List.prefix_append_right_inj] at hpre
  match z with
  | [] => exact String.toList_inj.mp (by simpa using hz)
  | [c] => simp at hpre
  | c :: d :: z =>
    obtain ⟨rfl, hrest⟩ := List.cons_prefix_cons.mp hpre
    obtain ⟨rfl, -⟩ := List.cons_prefix_cons.mp hrest
    exact absurd ⟨x.toList, z, by simpa using hz⟩ (h y hy)

/-- Where no key has a comma before a blank, all keys end where they seem to. -/
theorem separated_of_not_infix {axes : List VariantAxis}
    (h : ∀ a ∈ axes, ∀ key ∈ a.keys, ¬ [',', ' '] <:+: key.toList) : Separated axes :=
  (List.pairwise_of_forall_mem_list fun a ha _ _ => delimited_of_not_infix (h a ha)).isChain

theorem separated_of_length_le_one {axes : List VariantAxis} (h : axes.length ≤ 1) :
    Separated axes := by
  match axes with
  | [] => exact .nil
  | [a] => exact .singleton a

/-! ### Cells and tracks -/

theorem nodup_trackLabels {axes : List VariantAxis} (hs : Separated axes)
    (hk : ∀ a ∈ axes, a.keys.Nodup) : (trackLabels axes).Nodup := by
  refine (nodup_combinations fun a ha => List.Nodup.of_map _ (hk a ha)).map_on ?_
  intro v hv w hw
  exact eq_of_label hs hk (mem_combinations.mp hv) (mem_combinations.mp hw)

/-- The keys of its values tell a combination. -/
theorem eq_of_keys {axes : List VariantAxis} (hk : ∀ a ∈ axes, a.keys.Nodup) {v w : Combination}
    (hv : IsCombination axes v) (hw : IsCombination axes w)
    (h : v.map (fun p => p.2.key) = w.map fun p => p.2.key) : v = w := by
  induction hv generalizing w with
  | nil =>
    cases hw
    rfl
  | @cons a axes x v hx _ ih =>
    obtain ⟨ha, haxes⟩ := List.forall_mem_cons.mp hk
    obtain ⟨y, hy, w, hw', rfl⟩ := isCombination_cons_iff.mp hw
    obtain ⟨hkey, hkeys⟩ := List.cons.inj h
    have hvalue : x = y := List.inj_on_of_nodup_map ha hx hy hkey
    rw [hvalue, ih haxes hw' hkeys]

section

variable [Add α] [Zero α] [Max α] [LT α] [DecidableLT α] [BEq α] [DecidableEq α]
  {g : Generator α} {c : Component} {m : Matrix α}

/-- What is made of the values of the cells is made of the combinations. -/
theorem Expands.nodup_map_values (h : Expands g c m) {β : Type} (f : Combination → β) :
    (m.grid.cells.map fun x => f x.values).Nodup ↔ ((combinations c.axes).map f).Nodup := by
  rw [← (h.values_perm.map f).nodup_iff, List.map_map]
  rfl

/-- The cells of an accepted component have keys of their own. They have names of their own where the
keys of its axes end where they seem to, and so do the tracks of one direction have labels. -/
theorem names_of_expand (hc : Registry.Accepted c) (h : g.expand c = .ok m) :
    (m.grid.cells.map fun x => x.key).Nodup ∧
      (Separated c.axes → (m.grid.cells.map fun x => x.name).Nodup) ∧
      (Separated m.assignment.rowAxes → (m.grid.rows.map (·.label)).Nodup) ∧
      (Separated m.assignment.colAxes → (m.grid.cols.map (·.label)).Nodup) := by
  have hexpands := expands_of_expand h
  have hw := hc.wellFormed
  have hsplits := hexpands.splits hw
  have hnodup := nodup_combinations fun a ha => List.Nodup.of_map _ (hw.keys a ha)
  refine ⟨?_, fun hs => ?_, fun hs => ?_, fun hs => ?_⟩
  · refine (hexpands.nodup_map_values fun v => v.map fun p => p.2.key).mpr (hnodup.map_on ?_)
    intro v hv w hw'
    exact eq_of_keys hw.keys (mem_combinations.mp hv) (mem_combinations.mp hw')
  · exact (hexpands.nodup_map_values label).mpr (nodup_trackLabels hs hw.keys)
  · rw [hexpands.rowLabels]
    exact nodup_trackLabels hs fun a ha => hw.keys a (hsplits.row_subset ha)
  · rw [hexpands.colLabels]
    exact nodup_trackLabels hs fun a ha => hw.keys a (hsplits.col_subset ha)

end

/-- Both axes of the tag index rows, so that its four rows have labels of two values. -/
theorem names_of_expand_tag : Registry.Accepted tag ∧ Separated tag.axes ∧
    ∃ m, (Generator.plain [("Tag", ["size", "on"])]).expand tag = .ok m ∧
      (m.grid.cells.map fun x => x.key).Nodup ∧ (m.grid.cells.map fun x => x.name).Nodup ∧
      (m.grid.rows.map (·.label)).Nodup ∧ (m.grid.cols.map (·.label)).Nodup := by
  have hs : Separated tag.axes := separated_of_not_infix (by decide)
  have hok : ((Generator.plain [("Tag", ["size", "on"])]).expand tag).isOk = true := by cbv
  obtain ⟨m, hm⟩ := exists_eq_ok hok
  obtain ⟨hkeys, hnames, hrows, hcols⟩ := names_of_expand Registry.accepted_tag hm
  have hassignment : m.assignment = ⟨tag.axes, []⟩ :=
    (Except.ok.inj (expands_of_expand hm).assignment).symm
  rw [hassignment] at hrows hcols
  exact ⟨Registry.accepted_tag, hs, m, hm, hkeys, hnames hs, hrows hs,
    hcols (separated_of_length_le_one (Nat.zero_le 1))⟩

/-- A text that reads as two values, each in its axis. -/
def toneSource : Json :=
  .obj [("Card", .obj [("description", .str ""), ("category", .str ""),
    ("props", .obj [("tone", Registry.plainProp [.text "warm", .text "warm, size=s"]),
      ("size", Registry.plainProp [.text "m", .text "s, size=m"])])])]

def card : Component where
  name := "Card"
  description := ""
  category := ""
  axes := [
    ⟨"tone", [.text "warm", .text "warm, size=s"], [("warm", ""), ("warm, size=s", "")],
      [("warm", ""), ("warm, size=s", "")], .text "warm", "enum"⟩,
    ⟨"size", [.text "m", .text "s, size=m"], [("m", ""), ("s, size=m", "")],
      [("m", ""), ("s, size=m", "")], .text "m", "enum"⟩]
  colors := []
  baseClasses := none
  subComponents := []
  styling := []
  otherProps := []

theorem accepted_card : Registry.Accepted card := by
  have hnames : toneSource.NamesOnce := by
    simp [toneSource, Registry.plainProp, Table.keys, AxisValue.key, AxisValue.toJson]
  have hload : Registry.ofJson "" toneSource = .ok ⟨[("Card", card)], ""⟩ := by
    with_unfolding_all rfl
  exact ⟨_, _, _, "Card", hnames, hload, List.mem_singleton.mpr rfl⟩

/-- Two cells of the card, and two of its rows, are named `tone=warm, size=s, size=m`. -/
theorem names_repeated_card : Registry.Accepted card ∧
    ∃ m, (Generator.plain [("Card", ["tone", "size"])]).expand card = .ok m ∧
      ¬ (m.grid.cells.map fun x => x.name).Nodup ∧ ¬ (m.grid.rows.map (·.label)).Nodup := by
  have hrepeated : ¬ (trackLabels card.axes).Nodup := by decide
  have hok : ((Generator.plain [("Card", ["tone", "size"])]).expand card).isOk = true := by cbv
  obtain ⟨m, hm⟩ := exists_eq_ok hok
  have hexpands := expands_of_expand hm
  have hassignment : m.assignment = ⟨card.axes, []⟩ := (Except.ok.inj hexpands.assignment).symm
  refine ⟨accepted_card, m, hm, (hexpands.nodup_map_values label).not.mpr hrepeated, ?_⟩
  rw [hexpands.rowLabels, hassignment]
  exact hrepeated

end DesignTokens.Matrix
