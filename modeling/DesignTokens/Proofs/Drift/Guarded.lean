import DesignTokens.Project.Guard
import DesignTokens.Proofs.Drift.Comparisons
import DesignTokens.Proofs.File.Paths
import Mathlib.Data.Finset.Dedup

/-!
Files that are checked for drift. Each is checked once, and has a name of its own in a report. Its
violations are those of its pattern rules and of the sync rules that have it as their target; they
depend on the file alone, not on the path under which it was asked for.
-/
namespace DesignTokens

namespace Drift

theorem flatMap_filter_eq {α β : Type} (test : α → Bool) (f : α → List β) (xs : List α) :
    (xs.filter test).flatMap f = (xs.map fun x => if test x then f x else []).flatten := by
  induction xs with
  | nil => rfl
  | cons x xs ih =>
    rw [List.filter_cons, List.map_cons, List.flatten_cons, ← ih]
    split <;> simp

theorem Rule.file_of_mem_evaluate {r : Rule} {path text : String} {v : Violation}
    (h : v ∈ r.evaluate path text) : v.file = path := by
  rw [Rule.evaluate] at h
  grind [Rule.violation]

/-- What a rule finds in a text; a comparison that breaks off finds nothing. -/
def SyncRule.findings (r : SyncRule) (text : String) : List Finding :=
  match r.expectation.compare text with
  | .ok found => found
  | .error _ => []

namespace Guard

variable (g : Guard) (w : Workspace)

/-- The paths of a check: those that are asked for and the targets that are there. -/
def sources (paths : List Path) : List Path := paths ++ (g.syncRules.map (·.target)).filter w.has

/-- The files of a check, each under its resolved path. -/
def files (paths : List Path) : Finset Path :=
  ((g.sources w paths).map (·.resolve w.here)).toFinset

/-- The sync rules that have a file as their target. -/
def rulesOf (q : Path) : List SyncRule :=
  g.syncRules.filter fun r => decide (r.target.resolve w.here = q)

/-- The violations of a file: those of every pattern rule and of every sync rule that has it as its
target. -/
def found (q : Path) : List Violation :=
  match w.text q with
  | .ok text => evaluateAll g.rules (g.display w q) text ++
      (g.rulesOf w q).flatMap fun r => (r.findings text).map (r.violation (g.display w q))
  | .error _ => []

/-- A path that can be checked: it leads to a text below the root. -/
structure Checkable (p : Path) : Prop where
  proper : p.Proper
  below : ∃ root rest, g.root = some root ∧
    (root.resolve w.here).relativeTo? (p.resolve w.here) = some rest
  text : ∃ s, w.text p = .ok s

/-- A file whose text can be compared with theme data, if it is to be compared with them. -/
def Comparable (q : Path) : Prop :=
  ∀ text, w.text q = .ok text → ∀ r ∈ g.rulesOf w q, ∀ layers, r.expectation = .themeData layers →
    ComparesWith text layers

variable {g w} {p q : Path} {paths order : List Path}

/-! ### Each file once -/

theorem foldl_distinctFiles {kept : List Path} (h : (kept.map (·.resolve w.here)).Nodup)
    (paths : List Path) :
    let all := paths.foldl (fun kept p =>
      if kept.any fun q => q.resolve w.here == p.resolve w.here then kept else kept ++ [p]) kept
    (all.map (·.resolve w.here)).Nodup ∧ (∀ p ∈ all, p ∈ kept ++ paths) ∧
      ∀ p ∈ kept ++ paths, p.resolve w.here ∈ all.map (·.resolve w.here) := by
  induction paths generalizing kept with
  | nil => simpa using ⟨h, fun p hp => ⟨p, hp, rfl⟩⟩
  | cons p paths ih =>
    simp only [List.foldl_cons]
    split
    · rename_i hold
      obtain ⟨q, hq, hsame⟩ := List.any_eq_true.mp hold
      obtain ⟨hnodup, hfrom, hinto⟩ := ih h
      refine ⟨hnodup, fun r hr => ?_, fun r hr => ?_⟩
      · have hr := hfrom r hr
        simp only [List.mem_append, List.mem_cons] at hr ⊢
        tauto
      · simp only [List.mem_append, List.mem_cons] at hr
        rcases hr with hr | rfl | hr
        · exact hinto r (List.mem_append_left _ hr)
        · exact beq_iff_eq.mp hsame ▸ hinto q (List.mem_append_left _ hq)
        · exact hinto r (List.mem_append_right _ hr)
    · rename_i hnew
      have hnodup : ((kept ++ [p]).map (·.resolve w.here)).Nodup := by
        rw [List.map_append, List.map_singleton, ← List.concat_eq_append]
        refine h.concat fun hmem => hnew ?_
        obtain ⟨q, hq, hsame⟩ := List.mem_map.mp hmem
        exact List.any_eq_true.mpr ⟨q, hq, beq_iff_eq.mpr hsame⟩
      simpa only [List.append_assoc, List.singleton_append] using ih hnodup

/-- In whatever order the files of a check are taken, each is taken once, under one of its paths. -/
theorem once_of_perm (h : order.Perm (g.filesToCheck w paths)) :
    (order.map (·.resolve w.here)).Nodup ∧
      (order.map (·.resolve w.here)).toFinset = g.files w paths ∧ ∀ p ∈ order, p ∈ g.sources w paths := by
  have hperm := h.trans (List.mergeSort_perm _ _)
  obtain ⟨hnodup, hfrom, hinto⟩ :=
    @foldl_distinctFiles w [] List.nodup_nil (g.sources w paths)
  refine ⟨(hperm.map _).nodup_iff.mpr hnodup, ?_, fun p hp => hfrom p (hperm.mem_iff.mp hp)⟩
  ext q
  rw [List.mem_toFinset, files, List.mem_toFinset, (hperm.map _).mem_iff]
  constructor
  · intro hq
    obtain ⟨p, hp, rfl⟩ := List.mem_map.mp hq
    exact List.mem_map_of_mem (hfrom p hp)
  · intro hq
    obtain ⟨p, hp, rfl⟩ := List.mem_map.mp hq
    exact hinto p hp

/-! ### Names of files -/

theorem Checkable.display (h : g.Checkable w p) : ∃ root rest, g.root = some root ∧
    (root.resolve w.here).relativeTo? (p.resolve w.here) = some rest ∧
      g.display w p = rest.text ∧ g.display w (p.resolve w.here) = rest.text := by
  obtain ⟨root, rest, hroot, hrest⟩ := h.below
  refine ⟨root, rest, hroot, hrest, ?_, ?_⟩
  · rw [Guard.display, hroot, Option.bind_some, hrest]
  · rw [Guard.display, hroot, Option.bind_some, Path.resolve_resolve, hrest]

theorem Checkable.display_resolve (h : g.Checkable w p) :
    g.display w (p.resolve w.here) = g.display w p := by
  obtain ⟨root, rest, -, -, hp, hresolved⟩ := h.display
  rw [hp, hresolved]

/-- Two files have two names. -/
theorem Checkable.resolve_eq (hhere : w.here.Proper) (hp : g.Checkable w p) (hq : g.Checkable w q)
    (h : g.display w p = g.display w q) : p.resolve w.here = q.resolve w.here := by
  obtain ⟨root, rest, hroot, hrest, hptext, -⟩ := hp.display
  obtain ⟨root', rest', hroot', hrest', hqtext, -⟩ := hq.display
  obtain rfl := Option.some.inj (hroot.symm.trans hroot')
  have hsame : rest = rest' := by
    refine Path.Proper.eq_of_text ((hp.proper.resolve hhere).relativeTo hrest)
      ((hq.proper.resolve hhere).relativeTo hrest') ?_
    rw [← hptext, h, hqtext]
  exact Path.eq_of_relativeTo hrest (hsame ▸ hrest')

/-! ### The violations of a file -/

theorem file_of_mem_found {v : Violation} (h : v ∈ g.found w q) : v.file = g.display w q := by
  rw [found] at h
  split at h
  · rcases List.mem_append.mp h with h | h
    · obtain ⟨r, -, hv⟩ := List.mem_flatMap.mp h
      exact Rule.file_of_mem_evaluate hv
    · obtain ⟨r, -, hv⟩ := List.mem_flatMap.mp h
      obtain ⟨f, -, rfl⟩ := List.mem_map.mp hv
      rfl
  · cases h

/-- A file's rules are those that apply to any of its paths. -/
theorem appliesTo_eq (hp : p.Proper) (r : SyncRule) :
    r.appliesTo w.here (.ofString p.text) = decide (r.target.resolve w.here = p.resolve w.here) := by
  rw [hp.ofString_text, SyncRule.appliesTo, Bool.eq_iff_iff, beq_iff_eq, decide_eq_true_iff,
    eq_comm]

theorem mem_rulesOf {r : SyncRule} :
    r ∈ g.rulesOf w q ↔ r ∈ g.syncRules ∧ r.target.resolve w.here = q := by
  simp [rulesOf]

/-- Nothing but a comparison with theme data can break off. -/
theorem Comparable.exists_compare {text : String} {r : SyncRule} (h : g.Comparable w q)
    (htext : w.text q = .ok text) (hr : r ∈ g.rulesOf w q) :
    ∃ findings, r.expectation.compare text = .ok findings := by
  cases hexpected : r.expectation with
  | value name path expected => exact ⟨_, rfl⟩
  | map name expected origin => exact ⟨_, rfl⟩
  | themeData layers => exact exists_compareThemeData_iff.mpr (h text htext r hr layers hexpected)

theorem checkText_eq {text : String} (h : g.Checkable w p) (htext : w.text p = .ok text)
    (hends : g.Comparable w (p.resolve w.here)) :
    g.checkText w p text = .ok (g.found w (p.resolve w.here)) := by
  have hresolved := Workspace.text_resolve htext
  have hsynced : g.syncRules.mapM (fun r => r.evaluate w.here p.text text) =
      .ok (g.syncRules.map fun r => if decide (r.target.resolve w.here = p.resolve w.here) then
        (r.findings text).map (r.violation p.text) else []) := by
    refine mapM_eq_pure fun r hr => ?_
    rw [SyncRule.evaluate, appliesTo_eq h.proper]
    split
    · rename_i htarget
      obtain ⟨fs, hfs⟩ := hends.exists_compare hresolved
        (mem_rulesOf.mpr ⟨hr, of_decide_eq_true htarget⟩)
      rw [SyncRule.findings, hfs]
      rfl
    · rfl
  rw [checkText, hsynced, bind_ok, ← flatMap_filter_eq, List.map_flatMap, found, hresolved,
    h.display_resolve]
  simp only [List.map_map]
  rfl

theorem exists_checkText_eq_error {text : String} (h : g.Checkable w p)
    (htext : w.text p = .ok text) (hends : ¬ g.Comparable w (p.resolve w.here)) :
    ∃ m, g.checkText w p text = .error m := by
  by_contra hok
  have hok : ∃ vs, g.checkText w p text = .ok vs := by
    cases hcheck : g.checkText w p text with
    | ok vs => exact ⟨vs, rfl⟩
    | error m => exact absurd ⟨m, hcheck⟩ hok
  obtain ⟨vs, hvs⟩ := hok
  obtain ⟨synced, hsynced, -⟩ := bind_eq_ok hvs
  refine hends fun text' htext' r hr layers hlayers => ?_
  obtain rfl : text = text' := Except.ok.inj ((Workspace.text_resolve htext).symm.trans htext')
  obtain ⟨hr, htarget⟩ := mem_rulesOf.mp hr
  obtain ⟨vs, -, heval⟩ := exists_right_of_forall₂ (mapM_eq_ok hsynced) hr
  rw [SyncRule.evaluate, appliesTo_eq h.proper, if_pos (decide_eq_true htarget)] at heval
  obtain ⟨fs, hfs, -⟩ := bind_eq_ok heval
  rw [hlayers] at hfs
  exact exists_compareThemeData_iff.mp ⟨fs, hfs⟩

end Guard

end Drift

end DesignTokens
