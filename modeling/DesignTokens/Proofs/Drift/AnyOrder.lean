import DesignTokens.Proofs.Drift.Guarded
import DesignTokens.Proofs.Drift.Sorted
import DesignTokens.Proofs.File.Saved
import DesignTokens.Proofs.Json.Characters
import DesignTokens.Proofs.Json.RoundTrip
import Mathlib.Algebra.BigOperators.Group.Finset.Basic
import Mathlib.Algebra.Order.Group.Multiset

/-!
Drift checks in any order. Files have names of their own in a report, and what one file has at one
place stays in its order, so that the sorted report is the same in whatever order the checks of the
files end.
-/
namespace DesignTokens

namespace Logged

variable {α β : Type}

/-- A step that fails ends the computation, with its own failure. -/
theorem exists_mapM_eq_throw {f : α → Logged β} {P : Failure → Prop} {xs : List α}
    (h : ∀ x ∈ xs, (∃ b, f x = pure b) ∨ ∃ e, P e ∧ f x = throw e)
    (hfails : ∃ x ∈ xs, ∃ e, P e ∧ f x = throw e) : ∃ e, P e ∧ xs.mapM f = throw e := by
  induction xs with
  | nil => simp at hfails
  | cons x xs ih =>
    obtain ⟨hx, hxs⟩ := List.forall_mem_cons.mp h
    have hfirst : (∃ e, P e ∧ f x = throw e) → ∃ e, P e ∧ (x :: xs).mapM f = throw e := by
      rintro ⟨e, he, hthrow⟩
      refine ⟨e, he, ?_⟩
      rw [List.mapM_cons, hthrow]
      rfl
    obtain ⟨y, hy, hthrow⟩ := hfails
    rcases List.mem_cons.mp hy with rfl | hy
    · exact hfirst hthrow
    · rcases hx with ⟨b, hb⟩ | hx
      · obtain ⟨e, he, hrest⟩ := ih hxs ⟨y, hy, hthrow⟩
        refine ⟨e, he, ?_⟩
        rw [List.mapM_cons, hb, hrest]
        rfl
      · exact hfirst hx

end Logged

namespace Drift

namespace Guard

variable {g : Guard} {w : Workspace} {p q : Path} {paths order : List Path}

/-! ### The report -/

/-- The report on files, each of which is given by its resolved path. -/
def reportOf (g : Guard) (w : Workspace) (files : List Path) : Report where
  violations := Violation.sorted (g.missingTargets w ++ files.flatMap (g.found w))
  filesChecked := files.length
  rulesExecuted := g.rules.length + g.syncRules.length

theorem checkFile_eq {text : String} (htext : w.text p = .ok text) :
    g.checkFile w p = Logged.ofExcept .mismatch (g.checkText w p text) := by
  rw [checkFile, htext]

theorem Checkable.checkFile_eq (h : g.Checkable w p) (hends : g.Comparable w (p.resolve w.here)) :
    g.checkFile w p = pure (g.found w (p.resolve w.here)) := by
  obtain ⟨text, htext⟩ := h.text
  rw [Guard.checkFile_eq htext, checkText_eq h htext hends]
  rfl

theorem Checkable.exists_checkFile_eq_throw (h : g.Checkable w p)
    (hbreaks : ¬ g.Comparable w (p.resolve w.here)) :
    ∃ e, (∃ m, e = Failure.mismatch m) ∧ g.checkFile w p = throw e := by
  obtain ⟨text, htext⟩ := h.text
  obtain ⟨m, hm⟩ := exists_checkText_eq_error h htext hbreaks
  refine ⟨.mismatch m, ⟨m, rfl⟩, ?_⟩
  rw [Guard.checkFile_eq htext, hm]
  rfl

theorem outcome_reportInOrder (hfiles : ∀ p ∈ order, g.Checkable w p)
    (hends : ∀ p ∈ order, g.Comparable w (p.resolve w.here)) :
    (g.reportInOrder w order).outcome.1 = .ok (g.reportOf w (order.map (·.resolve w.here))) := by
  have hfound : order.mapM (g.checkFile w) =
      pure (order.map fun p => g.found w (p.resolve w.here)) :=
    mapM_eq_pure fun p hp => (hfiles p hp).checkFile_eq (hends p hp)
  have hreport : g.reportOf w (order.map (·.resolve w.here)) =
      { violations := Violation.sorted (g.missingTargets w ++
          (order.map fun p => g.found w (p.resolve w.here)).flatten)
        filesChecked := order.length
        rulesExecuted := g.rules.length + g.syncRules.length } := by
    rw [reportOf, List.length_map, List.flatMap_map, List.flatMap_def]
  rw [hreport, reportInOrder, hfound]
  rfl

theorem exists_outcome_reportInOrder (hfiles : ∀ p ∈ order, g.Checkable w p)
    (hbreaks : ∃ p ∈ order, ¬ g.Comparable w (p.resolve w.here)) :
    ∃ m, (g.reportInOrder w order).outcome.1 = .error (.mismatch m) := by
  obtain ⟨e, ⟨m, rfl⟩, hfails⟩ : ∃ e, (∃ m, e = Failure.mismatch m) ∧
      order.mapM (g.checkFile w) = throw e := by
    refine Logged.exists_mapM_eq_throw (fun p hp => ?_) ?_
    · by_cases hends : g.Comparable w (p.resolve w.here)
      · exact .inl ⟨_, (hfiles p hp).checkFile_eq hends⟩
      · exact .inr ((hfiles p hp).exists_checkFile_eq_throw hends)
    · obtain ⟨p, hp, hends⟩ := hbreaks
      exact ⟨p, hp, (hfiles p hp).exists_checkFile_eq_throw hends⟩
  refine ⟨m, ?_⟩
  rw [reportInOrder, hfails]
  rfl

/-- Violations of one place and one rule are of one file, or of a target that is not there. -/
theorem sorted_found_eq {qs qs' : List Path} (h : qs.Perm qs')
    (hnames : qs.Pairwise fun q q' => g.display w q ≠ g.display w q') :
    Violation.sorted (g.missingTargets w ++ qs.flatMap (g.found w)) =
      Violation.sorted (g.missingTargets w ++ qs'.flatMap (g.found w)) := by
  rw [Violation.sorted_eq, Violation.sorted_eq]
  refine sortedBy_eq_of_filter_eq fun k => ?_
  rw [List.filter_append, List.filter_append, List.filter_flatMap, List.filter_flatMap]
  refine congrArg _ (flatMap_eq_of_perm h (hnames.imp fun {q q'} hne => ?_))
  by_contra hboth
  obtain ⟨hq, hq'⟩ := not_or.mp hboth
  obtain ⟨v, hv⟩ := List.exists_mem_of_ne_nil _ hq
  obtain ⟨v', hv'⟩ := List.exists_mem_of_ne_nil _ hq'
  obtain ⟨hv, hkey⟩ := List.mem_filter.mp hv
  obtain ⟨hv', hkey'⟩ := List.mem_filter.mp hv'
  have hfile : v.file = v'.file :=
    congrArg (fun k => (ofLex k).1) ((of_decide_eq_true hkey).trans (of_decide_eq_true hkey').symm)
  exact hne (by rw [← file_of_mem_found hv, hfile, file_of_mem_found hv'])

theorem pairwise_display (hhere : w.here.Proper) (hfiles : ∀ p ∈ order, g.Checkable w p)
    (hnodup : (order.map (·.resolve w.here)).Nodup) :
    (order.map (·.resolve w.here)).Pairwise fun q q' => g.display w q ≠ g.display w q' := by
  refine List.pairwise_map.mpr ((List.pairwise_map.mp hnodup).imp_of_mem ?_)
  intro p q hp hq hne hsame
  refine hne ((hfiles p hp).resolve_eq hhere (hfiles q hq) ?_)
  rw [← (hfiles p hp).display_resolve, hsame, (hfiles q hq).display_resolve]

/-- The report depends on the files alone, not on their order. -/
theorem outcome_of_perm (hhere : w.here.Proper) (hfiles : ∀ p ∈ order, g.Checkable w p)
    (hends : ∀ p ∈ order, g.Comparable w (p.resolve w.here))
    (hnodup : (order.map (·.resolve w.here)).Nodup) {qs : List Path}
    (hqs : (order.map (·.resolve w.here)).Perm qs) :
    (g.reportInOrder w order).outcome.1 = .ok (g.reportOf w qs) := by
  rw [outcome_reportInOrder hfiles hends, reportOf, reportOf, hqs.length_eq,
    sorted_found_eq hqs (pairwise_display hhere hfiles hnodup)]

theorem coe_sorted (qs : List Path) (h : qs.Nodup) :
    (Violation.sorted (g.missingTargets w ++ qs.flatMap (g.found w)) : Multiset Violation) =
      g.missingTargets w + ∑ q ∈ qs.toFinset, (g.found w q : Multiset Violation) := by
  rw [Violation.sorted_eq, Multiset.coe_eq_coe.mpr (sortedBy_perm _), ← Multiset.coe_add,
    ← Multiset.coe_bind, Multiset.bind, Multiset.join, List.sum_toFinset _ h]
  rfl

/-- A check whose paths lead to texts below the root gives one sorted report, whatever the order in
which the checks of its files end and however its files are asked for, unless theme data have an
integer beyond the floats or one too long to be read; then the check breaks off. -/
theorem check_in_any_order (hhere : w.here.Proper)
    (hfiles : ∀ p ∈ g.sources w paths, g.Checkable w p) :
    ((∀ q ∈ g.files w paths, g.Comparable w q) → ∃ report : Report,
      (g.check w paths).outcome.1 = .ok report ∧
      (∀ paths' order, (∀ p ∈ g.sources w paths', g.Checkable w p) →
        g.files w paths' = g.files w paths → order.Perm (g.filesToCheck w paths') →
          (g.reportInOrder w order).outcome.1 = .ok report) ∧
      (report.violations.Pairwise fun a b => a.key ≤ b.key) ∧
      (report.violations : Multiset Violation) =
        g.missingTargets w + ∑ q ∈ g.files w paths, (g.found w q : Multiset Violation) ∧
      report.filesChecked = (g.files w paths).card) ∧
    ((∃ q ∈ g.files w paths, ¬ g.Comparable w q) → ∀ order, order.Perm (g.filesToCheck w paths) →
      ∃ m, (g.reportInOrder w order).outcome.1 = .error (.mismatch m)) := by
  constructor
  · intro hends
    obtain ⟨hnodup, hset, -⟩ := once_of_perm (List.Perm.refl (g.filesToCheck w paths))
    let qs := (g.filesToCheck w paths).map (·.resolve w.here)
    have hsame : ∀ paths' order, (∀ p ∈ g.sources w paths', g.Checkable w p) →
        g.files w paths' = g.files w paths → order.Perm (g.filesToCheck w paths') →
          (g.reportInOrder w order).outcome.1 = .ok (g.reportOf w qs) := by
      intro paths' order hfiles' hfilesEq horder
      obtain ⟨hnodup', hset', hfrom'⟩ := once_of_perm horder
      refine outcome_of_perm hhere (fun p hp => hfiles' p (hfrom' p hp)) (fun p hp => ?_) hnodup'
        (List.perm_of_nodup_nodup_toFinset_eq hnodup' hnodup ?_)
      · refine hends _ (hfilesEq ▸ hset' ▸ ?_)
        exact List.mem_toFinset.mpr (List.mem_map_of_mem hp)
      · exact hset'.trans (hfilesEq.trans hset.symm)
    refine ⟨g.reportOf w qs, hsame paths _ hfiles rfl (List.Perm.refl _), hsame, ?_, ?_, ?_⟩
    · rw [reportOf, Violation.sorted_eq]
      exact pairwise_sortedBy _
    · rw [← hset]
      exact coe_sorted qs hnodup
    · rw [← hset, List.toFinset_card_of_nodup hnodup]
      rfl
  · rintro ⟨q, hq, hbreaks⟩ order horder
    obtain ⟨-, hset, hfrom⟩ := once_of_perm horder
    rw [← hset, List.mem_toFinset] at hq
    obtain ⟨p, hp, rfl⟩ := List.mem_map.mp hq
    exact exists_outcome_reportInOrder (fun p hp => hfiles p (hfrom p hp)) ⟨p, hp, hbreaks⟩

/-- A file with an assignment, in a folder that is also reached through a folder inside it. -/
def assigningWorkspace : Workspace where
  here := "/work"
  files := [("/work/sizes.py", Text.encodeUtf8 "BASE = 4\n")]
  folders := ["/work/notes"]

/-- A guard of the name that is assigned, and of a file that is not there. -/
def assignmentGuard : Guard where
  rules := [{ ruleId := "BASE", detect := Text.Pattern.char 'B', message := "", remediation := "" }]
  syncRules := [⟨"sizes.py", .value "BASE" "spacing.baseUnitPx" 4⟩, ⟨"gone.py", .map "SIZES" [] ""⟩]
  root := some "/work"

/-- Paths of the file. -/
def spellings : List Path := ["sizes.py", "notes/../sizes.py", "/work/sizes.py"]

theorem checkable_spellings : ∀ p ∈ spellings, assignmentGuard.Checkable assigningWorkspace p := by
  intro p hp
  have hfile : p.Proper ∧ Path.relativeTo? (Path.resolve "/work" "/work") (p.resolve "/work") =
      some ("sizes.py" : Path) ∧ assigningWorkspace.text p = .ok "BASE = 4\n" := by
    revert p
    decide +kernel
  exact ⟨hfile.1, ⟨"/work", "sizes.py", rfl, hfile.2.1⟩, _, hfile.2.2⟩

/-- Under all its paths the file is checked once. -/
theorem check_spellings : ∃ report : Report,
    (assignmentGuard.check assigningWorkspace spellings).outcome.1 = .ok report ∧
    (assignmentGuard.check assigningWorkspace ["sizes.py"]).outcome.1 = .ok report ∧
    report.filesChecked = 1 := by
  have hcheckable : ∀ paths ∈ [spellings, ["sizes.py"]],
      ∀ p ∈ assignmentGuard.sources assigningWorkspace paths,
        assignmentGuard.Checkable assigningWorkspace p := by
    intro paths hpaths p hp
    have hsources : ∀ paths ∈ [spellings, ["sizes.py"]],
        ∀ p ∈ assignmentGuard.sources assigningWorkspace paths, p ∈ spellings := by decide +kernel
    exact checkable_spellings p (hsources paths hpaths p hp)
  have hfiles : ∀ paths ∈ [spellings, ["sizes.py"]],
      assignmentGuard.files assigningWorkspace paths = {("/work/sizes.py" : Path)} := by
    decide +kernel
  have hcomparable : ∀ q, assignmentGuard.Comparable assigningWorkspace q := by
    intro q text _ r hr layers hlayers
    have hrule := (mem_rulesOf.mp hr).1
    simp only [assignmentGuard, List.mem_cons, List.not_mem_nil, or_false] at hrule
    rcases hrule with rfl | rfl <;> cases hlayers
  obtain ⟨report, hreport, horder, -, -, hcount⟩ :=
    (check_in_any_order (Path.proper_ofString _) (hcheckable spellings (by simp))).1
      fun q _ => hcomparable q
  refine ⟨report, hreport, ?_, ?_⟩
  · exact horder _ _ (hcheckable _ (by simp))
      ((hfiles _ (by simp)).trans (hfiles spellings (by simp)).symm) (List.Perm.refl _)
  · rw [hcount, hfiles spellings (by simp)]
    rfl

/-! ### A check that breaks off -/

/-- An integer that no float comes near. -/
def hugeInteger : Int := 10 ^ 400

def hugeData : Json := .obj [("tailwind", .ofInt hugeInteger)]

def hugeWorkspace : Workspace where
  here := "/work"
  files := [("/work/theme.json", Text.encodeUtf8 (hugeData.pretty ++ "\n"))]

def themeDataGuard : Guard where
  rules := []
  syncRules := [⟨"theme.json", .themeData [("tailwind", .obj [])]⟩]
  root := some "/work"

theorem text_hugeWorkspace : hugeWorkspace.text "theme.json" = .ok (hugeData.pretty ++ "\n") := by
  refine Workspace.text_of_bytes ?_ (Json.not_mem_pretty (by decide) _)
  have hplace : hugeWorkspace.locate "theme.json" = .ok "/work/theme.json" := by decide +kernel
  have hcontents : hugeWorkspace.contents? "/work/theme.json" =
      some (Text.encodeUtf8 (hugeData.pretty ++ "\n")) := by
    rw [Workspace.contents?, hugeWorkspace, List.lookup_cons, beq_self_eq_true]
  rw [Workspace.bytes, hplace, bind_ok, hcontents]
  rfl

theorem not_comparesWith_hugeData :
    ¬ ComparesWith (hugeData.pretty ++ "\n") [("tailwind", .obj [])] := by
  intro h
  have hwritable : hugeInteger.natAbs < 10 ^ Decimal.integerDigitLimit := by decide +kernel
  have hread : Json.read (hugeData.pretty ++ "\n") = .ok hugeData :=
    Json.read_pretty (by simpa [hugeData, Table.keys] using hwritable)
  have hfloat : Number.toFloat? (.int hugeInteger) = none := by decide +kernel
  have hrange : InRange (.ofInt hugeInteger) :=
    (h.inRange _ hread _ (List.mem_singleton_self _)).1
  rw [Json.ofInt, InRange, hfloat] at hrange
  cases hrange

/-- A check can break off on a target that is a text below the root. -/
theorem check_hugeData : hugeWorkspace.here.Proper ∧
    (∀ p ∈ themeDataGuard.sources hugeWorkspace [], themeDataGuard.Checkable hugeWorkspace p) ∧
    ¬ ∃ report, (themeDataGuard.check hugeWorkspace []).outcome.1 = .ok report := by
  have hsources : themeDataGuard.sources hugeWorkspace [] = [Path.ofString "theme.json"] := by
    decide +kernel
  have hcheckable : themeDataGuard.Checkable hugeWorkspace "theme.json" := by
    refine ⟨Path.proper_ofString _, ⟨"/work", "theme.json", rfl, ?_⟩, _, text_hugeWorkspace⟩
    decide +kernel
  have horder : themeDataGuard.filesToCheck hugeWorkspace [] = [Path.ofString "theme.json"] := by
    decide +kernel
  have hbreaks : ¬ themeDataGuard.Comparable hugeWorkspace
      (Path.resolve "theme.json" hugeWorkspace.here) := by
    intro hcomparable
    exact not_comparesWith_hugeData (hcomparable _ (Workspace.text_resolve text_hugeWorkspace)
      ⟨"theme.json", .themeData [("tailwind", .obj [])]⟩
      (mem_rulesOf.mpr ⟨List.mem_singleton_self _, rfl⟩) _ rfl)
  obtain ⟨m, hm⟩ := exists_outcome_reportInOrder (List.forall_mem_singleton.mpr hcheckable)
    ⟨_, List.mem_singleton_self _, hbreaks⟩
  refine ⟨Path.proper_ofString _, hsources ▸ List.forall_mem_singleton.mpr hcheckable, ?_⟩
  rintro ⟨report, hreport⟩
  rw [check, horder, hm] at hreport
  cases hreport

end Guard

end Drift

end DesignTokens
