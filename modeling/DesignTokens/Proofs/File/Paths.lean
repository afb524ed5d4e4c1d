import DesignTokens.File.Workspace
import DesignTokens.Proofs.Results
import DesignTokens.Proofs.Text.Words

/-!
Paths and what they lead to. A path that has been read is the path of its text. Where a path leads
somewhere, that place is the resolved path, and the file that stands there is found under the
resolved path too: two spellings of one path are one file.
-/
namespace DesignTokens

namespace Path

/-! ### Paths and their texts -/

/-- No part is empty or a dot, and none has a separator in it. -/
def Proper (p : Path) : Prop := ∀ part ∈ p.parts, part ≠ "" ∧ part ≠ "." ∧ '/' ∉ part.toList

instance (p : Path) : Decidable p.Proper :=
  inferInstanceAs (Decidable (∀ part ∈ p.parts, part ≠ "" ∧ part ≠ "." ∧ '/' ∉ part.toList))

variable {p q : Path}

theorem proper_ofString (s : String) : (ofString s).Proper := by
  intro part hpart
  obtain ⟨hmem, hkept⟩ := List.mem_filter.mp hpart
  simp only [Bool.and_eq_true, bne_iff_ne] at hkept
  exact ⟨hkept.1, hkept.2, Text.not_mem_of_mem_splitOn hmem⟩

/-- A proper text between separators starts with no separator. -/
theorem Proper.head?_intercalate {part : String} {parts : List String} {a : Anchor}
    (h : Proper ⟨a, part :: parts⟩) :
    ∃ c cs, (String.intercalate "/" (part :: parts)).toList = c :: cs ∧ c ≠ '/' := by
  obtain ⟨hne, -, hsep⟩ := h part List.mem_cons_self
  obtain ⟨c, cs, hpart⟩ := List.exists_cons_of_ne_nil (mt String.toList_eq_nil_iff.mp hne)
  have hc : c ≠ '/' := by
    rintro rfl
    exact hsep (hpart ▸ List.mem_cons_self)
  cases parts with
  | nil => exact ⟨c, cs, by rw [String.intercalate_singleton, hpart], hc⟩
  | cons next parts =>
    refine ⟨c, cs ++ ("/" ++ String.intercalate "/" (next :: parts)).toList, ?_, hc⟩
    rw [String.intercalate_cons_cons, String.append_assoc, String.toList_append, hpart,
      List.cons_append]

/-- A path is read back from its text. -/
theorem Proper.ofString_text (h : p.Proper) : ofString p.text = p := by
  obtain ⟨anchor, parts⟩ := p
  cases parts with
  | nil => cases anchor <;> decide
  | cons part parts =>
    obtain ⟨c, cs, htext, hc⟩ := h.head?_intercalate
    have hsplit : Text.splitOn (String.intercalate "/" (part :: parts)) '/' = part :: parts :=
      Text.splitOn_intercalate part parts fun q hq => (h q hq).2.2
    have hkept : (part :: parts).filter (fun p => p != "" && p != ".") = part :: parts := by
      refine List.filter_eq_self.mpr fun q hq => ?_
      simp [(h q hq).1, (h q hq).2.1]
    rw [Text.splitOn, htext] at hsplit
    cases anchor <;>
      simp [text, ofString, anchorOf, Text.splitOn, Anchor.text, htext, hc,
        Text.splitAtChar_cons_self, hsplit, hkept]

theorem Proper.eq_of_text (hp : p.Proper) (hq : q.Proper) (h : p.text = q.text) : p = q := by
  rw [← hp.ofString_text, h, hq.ofString_text]

/-! ### Resolved paths -/

/-- The parts that have been passed, last one first, after one more. -/
def climbStep (up : List String) (part : String) : List String :=
  if part == ".." then up.tail else part :: up

theorem climb_eq (parts : List String) : climb parts = (parts.foldl climbStep []).reverse := rfl

theorem mem_foldl_climbStep {up parts : List String} {part : String}
    (h : part ∈ parts.foldl climbStep up) : part ∈ up ∨ part ∈ parts ∧ part ≠ ".." := by
  induction parts generalizing up with
  | nil => exact .inl h
  | cons next parts ih =>
    rcases ih h with hup | ⟨hmem, hne⟩
    · rw [climbStep] at hup
      split at hup
      · exact .inl (List.mem_of_mem_tail hup)
      · rename_i hdots
        rcases List.mem_cons.mp hup with rfl | hup
        · exact .inr ⟨List.mem_cons_self, fun heq => hdots (beq_iff_eq.mpr heq)⟩
        · exact .inl hup
    · exact .inr ⟨List.mem_cons_of_mem _ hmem, hne⟩

theorem mem_climb {parts : List String} {part : String} (h : part ∈ climb parts) :
    part ∈ parts ∧ part ≠ ".." := by
  rcases mem_foldl_climbStep (List.mem_reverse.mp h) with hnil | h
  · cases hnil
  · exact h

theorem foldl_climbStep_of_not_mem {up parts : List String} (h : ".." ∉ parts) :
    parts.foldl climbStep up = parts.reverse ++ up := by
  induction parts generalizing up with
  | nil => rfl
  | cons part parts ih =>
    obtain ⟨hne, hparts⟩ := not_or.mp (mt List.mem_cons.mpr h)
    have hdots : (part == "..") = false := beq_eq_false_iff_ne.mpr (Ne.symm hne)
    rw [List.foldl_cons, ih hparts, climbStep, hdots]
    simp

theorem climb_of_not_mem {parts : List String} (h : ".." ∉ parts) : climb parts = parts := by
  rw [climb_eq, foldl_climbStep_of_not_mem h, List.append_nil, List.reverse_reverse]

variable {here : Path}

theorem not_mem_parts_resolve : ".." ∉ (p.resolve here).parts := fun h => (mem_climb h).2 rfl

@[simp] theorem join_resolve (base : Path) : base.join (p.resolve here) = p.resolve here := rfl

@[simp] theorem resolve_resolve : (p.resolve here).resolve here = p.resolve here := by
  have hparts : climb (p.resolve here).parts = (p.resolve here).parts :=
    climb_of_not_mem not_mem_parts_resolve
  rw [resolve, join_resolve, hparts]
  rfl

theorem Proper.resolve (hp : p.Proper) (hhere : here.Proper) : (p.resolve here).Proper := by
  intro part hpart
  have hmem : part ∈ (here.join p).parts := (mem_climb hpart).1
  rw [join] at hmem
  split at hmem
  · exact hp part hmem
  · rcases List.mem_append.mp hmem with hmem | hmem
    · exact hhere part hmem
    · exact hp part hmem

/-- The path below a folder is proper if the whole path is. -/
theorem Proper.relativeTo {base rest : Path} (hp : p.Proper) (h : base.relativeTo? p = some rest) :
    rest.Proper := by
  rw [relativeTo?] at h
  split at h
  · obtain rfl := Option.some.inj h
    exact fun part hpart => hp part (List.mem_of_mem_drop hpart)
  · cases h

/-- Below one folder, paths that look alike from there are equal. -/
theorem eq_of_relativeTo {base rest : Path} (hp : base.relativeTo? p = some rest)
    (hq : base.relativeTo? q = some rest) : p = q := by
  rw [relativeTo?] at hp hq
  split at hp
  · rename_i hbelow
    split at hq
    · rename_i hbelow'
      simp only [Bool.and_eq_true, decide_eq_true_eq, List.isPrefixOf_iff_prefix] at hbelow hbelow'
      obtain ⟨hanchor, tail, htail⟩ := hbelow
      obtain ⟨hanchor', tail', htail'⟩ := hbelow'
      obtain ⟨anchor, parts⟩ := p
      obtain ⟨anchor', parts'⟩ := q
      obtain rfl : anchor = base.anchor := hanchor
      obtain rfl : anchor' = base.anchor := hanchor'
      obtain rfl : base.parts ++ tail = parts := htail
      obtain rfl : base.parts ++ tail' = parts' := htail'
      have hsame := hp.trans hq.symm
      simp only [List.drop_left, Option.some.injEq, mk.injEq, true_and] at hsame
      rw [hsame]
    · cases hq
  · cases hp

end Path

namespace Workspace

/-! ### Files under their resolved paths -/

variable {w : Workspace} {p q : Path}

/-- The folders above a path are there. -/
def Reaches (w : Workspace) (parts : List String) : Prop :=
  ∀ above, above <+: parts → above ≠ parts → w.hasFolder ⟨.root, above⟩ = true

theorem Reaches.of_prefix {parts parts' : List String} (h : w.Reaches parts')
    (hstart : parts <+: parts') : w.Reaches parts := by
  intro above habove hne
  refine h above (habove.trans hstart) fun heq => hne ?_
  exact habove.eq_of_length_le (heq ▸ hstart.length_le)

theorem Reaches.concat {parts : List String} (h : w.Reaches parts)
    (hfolder : w.hasFolder ⟨.root, parts⟩ = true) (part : String) : w.Reaches (parts ++ [part]) := by
  intro above habove hne
  rcases List.prefix_concat_iff.mp habove with heq | habove
  · exact absurd heq hne
  · by_cases heq : above = parts
    · exact heq ▸ hfolder
    · exact h above habove heq

/-- Where a walk ends, and that the folders above are there. `up` holds the parts that have been
passed, last one first. -/
theorem walk_climbs {up parts : List String} (hreaches : w.Reaches up.reverse)
    (h : w.walk ⟨.root, up.reverse⟩ parts = .ok q) :
    q = ⟨.root, (parts.foldl Path.climbStep up).reverse⟩ ∧ w.Reaches q.parts := by
  induction parts generalizing up with
  | nil =>
    obtain rfl := Except.ok.inj h
    exact ⟨rfl, hreaches⟩
  | cons part parts ih =>
    rw [walk] at h
    split at h
    · rename_i hfolder
      have hnext : (if part == ".." then Path.parent ⟨.root, up.reverse⟩
            else Path.child ⟨.root, up.reverse⟩ part) = ⟨.root, (Path.climbStep up part).reverse⟩ ∧
          w.Reaches (Path.climbStep up part).reverse := by
        rw [Path.climbStep]
        split
        · refine ⟨by simp [Path.parent], hreaches.of_prefix ?_⟩
          rw [← List.dropLast_reverse]
          exact List.dropLast_prefix _
        · refine ⟨by simp [Path.child], ?_⟩
          rw [List.reverse_cons]
          exact hreaches.concat hfolder part
      rw [hnext.1] at h
      exact ih hnext.2 h
    · cases h

/-- Without two dots a walk goes down from folder to folder. -/
theorem walk_of_reaches {passed parts : List String} (hdots : ".." ∉ parts)
    (h : w.Reaches (passed ++ parts)) :
    w.walk ⟨.root, passed⟩ parts = .ok ⟨.root, passed ++ parts⟩ := by
  induction parts generalizing passed with
  | nil => rw [walk, List.append_nil]
  | cons part parts ih =>
    obtain ⟨hne, hparts⟩ := not_or.mp (mt List.mem_cons.mpr hdots)
    have hfolder : w.hasFolder ⟨.root, passed⟩ = true :=
      h passed (List.prefix_append passed _) (by simp)
    have hdown : (part == "..") = false := beq_eq_false_iff_ne.mpr (Ne.symm hne)
    have happend : passed ++ part :: parts = (passed ++ [part]) ++ parts := by simp
    rw [walk, if_pos hfolder, hdown, if_neg Bool.false_ne_true, Path.child, happend]
    exact ih hparts (happend ▸ h)

/-- Whatever stands under a path stands under the resolved path. -/
theorem locate_resolve (h : w.locate p = .ok q) : w.locate (p.resolve w.here) = .ok q := by
  have hempty : w.Reaches (List.reverse []) :=
    fun above habove hne => absurd (List.prefix_nil.mp habove) hne
  obtain ⟨rfl, hreaches⟩ := walk_climbs hempty h
  exact walk_of_reaches Path.not_mem_parts_resolve hreaches

theorem text_resolve {s : String} (h : w.text p = .ok s) : w.text (p.resolve w.here) = .ok s := by
  obtain ⟨bytes, hbytes, hs⟩ := bind_eq_ok h
  obtain ⟨q, hq, hcontents⟩ := bind_eq_ok hbytes
  have hbytes' : w.bytes (p.resolve w.here) = .ok bytes := by
    rw [Workspace.bytes, locate_resolve hq]
    exact hcontents
  rw [text, hbytes']
  exact hs

end Workspace

end DesignTokens
