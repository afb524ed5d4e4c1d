import DesignTokens.Project.Guard
import DesignTokens.Proofs.Drift.Rules
import DesignTokens.Proofs.Drift.Sorted
import DesignTokens.Proofs.Project.Logged
import DesignTokens.Proofs.Results
import DesignTokens.Proofs.Utility.Updates

/-!
How a configuration governs a check. Every violation of a report comes from a pattern rule, from a
sync rule or from a file that cannot be read. Rules that are disabled are gone, and pattern rules have
the severities that they are given; but no rule stands behind a file that cannot be read.
-/
namespace DesignTokens.Drift

/-- Where a violation comes from. -/
inductive Guard.Origin (g : Guard) : Violation → Prop where
  | pattern {r : Rule} (hr : r ∈ g.rules) (file : String) (line : Option Nat) :
    Origin g (r.violation file line)
  | sync {r : SyncRule} (hr : r ∈ g.syncRules) (file : String) (f : Finding) :
    Origin g (r.violation file f)
  | unreadable (file message : String) : Origin g (Guard.unreadable file message)

/-- A configuration that names disabled rules and the severities of rules. -/
structure Governs (d : Config.Drift) (module : String) (disabled : List String)
    (severities : Table Severity) : Prop where
  module : d.constantsModule = .str module
  disabled : d.disabledRules = .arr (disabled.map .str)
  severities : d.severityOverrides = .obj (Table.mapValues (fun s => .str s.name) severities)

/-- A rule with the severity that it is given, if it is given one. -/
def Rule.withSeverityOf (severities : Table Severity) (r : Rule) : Rule :=
  { r with severity := (Table.get? r.ruleId severities).getD r.severity }

namespace Guard

variable {g : Guard} {w : Workspace} {p : Path} {v : Violation}

/-! ### Origins -/

theorem origin_of_mem_missingTargets (h : v ∈ g.missingTargets w) : g.Origin v := by
  obtain ⟨r, hr, rfl⟩ := List.mem_map.mp h
  exact .sync (List.mem_of_mem_filter hr) _ _

theorem origin_of_mem_checkText {text : String} {vs : List Violation}
    (h : g.checkText w p text = .ok vs) (hv : v ∈ vs) : g.Origin v := by
  obtain ⟨synced, hsynced, h⟩ := bind_eq_ok h
  obtain rfl := Except.ok.inj h
  rcases List.mem_append.mp hv with hv | hv
  · obtain ⟨r, hr, line, rfl⟩ := exists_rule_of_mem hv
    exact .pattern hr _ line
  · obtain ⟨u, hu, rfl⟩ := List.mem_map.mp hv
    obtain ⟨us, hus, hu⟩ := List.mem_flatten.mp hu
    obtain ⟨r, hr, hevaluate⟩ := exists_left_of_forall₂ (mapM_eq_ok hsynced) hus
    rw [SyncRule.evaluate] at hevaluate
    split at hevaluate
    · obtain ⟨findings, -, h⟩ := bind_eq_ok hevaluate
      obtain rfl := Except.ok.inj h
      obtain ⟨f, -, rfl⟩ := List.mem_map.mp hu
      exact .sync hr _ f
    · obtain rfl := Except.ok.inj hevaluate
      cases hu

theorem ensures_checkFile (g : Guard) (w : Workspace) (p : Path) :
    (g.checkFile w p).Ensures fun vs => ∀ v ∈ vs, g.Origin v := by
  rw [checkFile]
  split
  · exact Logged.ensures_ofExcept _ fun vs hvs v hv => origin_of_mem_checkText hvs hv
  · refine Logged.Ensures.bind (P := fun _ => True) (fun _ _ _ _ => trivial) fun _ _ => ?_
    refine Logged.ensures_pure (List.forall_mem_singleton.mpr ?_)
    exact .unreadable _ _

/-- Whatever files are checked, nothing else can be reported. -/
theorem origin_of_mem_check {paths : List Path} {report : Report}
    (h : (g.check w paths).outcome.1 = .ok report) (hv : v ∈ report.violations) : g.Origin v := by
  have hreport : (g.check w paths).Ensures fun report => ∀ v ∈ report.violations, g.Origin v := by
    refine (Logged.ensures_mapM fun p _ => g.ensures_checkFile w p).bind fun found hfound => ?_
    refine Logged.Ensures.bind (P := fun _ => True) (fun _ _ _ _ => trivial) fun _ _ => ?_
    refine Logged.ensures_pure fun v hv => ?_
    rcases List.mem_append.mp ((List.mergeSort_perm _ _).mem_iff.mp hv) with hv | hv
    · exact origin_of_mem_missingTargets hv
    · obtain ⟨vs, hvs, hv⟩ := List.mem_flatten.mp hv
      exact hfound vs hvs v hv
  exact hreport.outcome h v hv

end Guard

/-! ### Configured rules -/

variable {d : Config.Drift} {module : String} {disabled : List String} {severities : Table Severity}

theorem Severity.ofName?_name (s : Severity) : Severity.ofName? s.name = some s := by
  cases s <;> rfl

theorem configure_eq (rules : List Rule) (disabled : List String) (severities : Table Severity) :
    configure rules disabled (Table.mapValues (fun s => .str s.name) severities) =
      .ok ((rules.filter fun r => !disabled.contains r.ruleId).map
        (Rule.withSeverityOf severities)) := by
  rw [configure]
  refine mapM_eq_pure fun r _ => ?_
  rw [Table.get?_mapValues, Rule.withSeverityOf]
  cases Table.get? r.ruleId severities with
  | none => rfl
  | some s =>
    simp only [Option.map_some, Severity.ofName?_name]
    rfl

theorem mentions_texts (names : List String) (name : String) :
    (Json.arr (names.map .str)).mentions name = .ok (names.contains name) := by
  have hsame : ((Json.str name).same ∘ Json.str) = fun n => name == n := by
    funext n
    rw [Function.comp_apply, Json.same]
  rw [Json.mentions, List.any_map, hsame, List.contains_eq_any_beq]

/-- The guard of a configuration: it can fail to be built only where the sync rules do. -/
theorem Guard.ofConfig_eq {c : Config} (hc : Governs c.drift module disabled severities)
    (snapshot : Option Theme.Snapshot) (registry : Option Registry) :
    Guard.ofConfig c snapshot registry =
      ((Drift.syncRules c snapshot registry).mapError Failure.sync).map fun rs =>
        { rules := ((defaultRules module).filter fun r => !disabled.contains r.ruleId).map
            (Rule.withSeverityOf severities)
          syncRules := rs.filter fun r => !disabled.contains r.ruleId
          root := c.root } := by
  have hids : (disabled.map Json.str).filterMap Guard.text? = disabled := by
    rw [List.filterMap_map]
    exact List.filterMap_some
  have hkept : ∀ rs : List SyncRule, rs.filterM (fun r =>
      ((Json.arr (disabled.map .str)).mentions r.ruleId).map not) =
        .ok (rs.filter fun r => !disabled.contains r.ruleId) :=
    fun rs => filterM_eq_pure fun r _ => by
      rw [mentions_texts]
      rfl
  simp only [Guard.ofConfig, hc.module, hc.disabled, hc.severities, Json.items, Guard.overridesOf,
    Except.mapError, bind_ok, hids, configure_eq, hkept]
  cases Drift.syncRules c snapshot registry <;> rfl

/-! ### Names of rules -/

theorem head_ruleId_default {r : Rule} (hr : r ∈ defaultRules module) :
    r.ruleId.toList.head? = some 'D' :=
  forall_ruleId (P := fun id => id.toList.head? = some 'D') (by decide) hr

theorem head_ruleId_sync (r : SyncRule) : r.ruleId.toList.head? = some 'S' := by
  rw [SyncRule.ruleId]
  cases r.expectation <;> simp [Expectation.ruleId]

theorem ruleId_ne_sync {r : Rule} (hr : r ∈ defaultRules module) (s : SyncRule) :
    r.ruleId ≠ s.ruleId := by
  intro e
  have hhead := head_ruleId_default hr
  rw [e, head_ruleId_sync] at hhead
  cases hhead

theorem ruleId_ne_unreadable {r : Rule} (hr : r ∈ defaultRules module) (file message : String) :
    r.ruleId ≠ (Guard.unreadable file message).ruleId :=
  forall_ruleId (P := (· ≠ "DRIFT.UNREADABLE_FILE")) (by decide) hr

/-- The guard of a configuration can fail to be built only where the sync rules do. It reports no
violation of a disabled rule, unless it is a file that cannot be read; and each violation of a default
rule has the severity that the configuration gives to that rule, or else the rule's own. -/
theorem violations_governed {c : Config} (hc : Governs c.drift module disabled severities)
    (snapshot : Option Theme.Snapshot) (registry : Option Registry) :
    (∀ f, Guard.ofConfig c snapshot registry = .error f →
      ∃ e, Drift.syncRules c snapshot registry = .error e ∧ f = .sync e) ∧
    ∀ g, Guard.ofConfig c snapshot registry = .ok g → ∀ w paths report,
      (g.check w paths).outcome.1 = .ok report → ∀ v ∈ report.violations,
        (v.ruleId ∈ disabled → ∃ file message, v = Guard.unreadable file message) ∧
        ∀ r ∈ defaultRules module, r.ruleId = v.ruleId →
          v.severity = (Table.get? v.ruleId severities).getD r.severity := by
  rw [Guard.ofConfig_eq hc]
  cases hsync : Drift.syncRules c snapshot registry with
  | error e =>
    refine ⟨fun f hf => ⟨e, rfl, (Except.error.inj hf).symm⟩, fun g hg => ?_⟩
    cases hg
  | ok rs =>
    refine ⟨fun f hf => ?_, fun g hg w paths report hreport v hv => ?_⟩
    · cases hf
    obtain rfl := Except.ok.inj hg
    cases Guard.origin_of_mem_check hreport hv with
    | pattern hr file line =>
      obtain ⟨r, hmem, rfl⟩ := List.mem_map.mp hr
      obtain ⟨hdefault, hkept⟩ := List.mem_filter.mp hmem
      have hfree : r.ruleId ∉ disabled := by simpa using hkept
      refine ⟨fun hdisabled => absurd hdisabled hfree, fun r' hr' hid => ?_⟩
      obtain rfl := eq_of_ruleId_eq hr' hdefault hid
      rfl
    | @sync r hr file f =>
      obtain ⟨-, hkept⟩ := List.mem_filter.mp hr
      have hfree : r.ruleId ∉ disabled := by simpa using hkept
      exact ⟨fun hdisabled => absurd hdisabled hfree,
        fun r' hr' hid => absurd hid (ruleId_ne_sync hr' r)⟩
    | unreadable file message =>
      exact ⟨fun _ => ⟨file, message, rfl⟩,
        fun r hr hid => absurd hid (ruleId_ne_unreadable hr file message)⟩

/-- A configuration that disables one name and makes two others soft. -/
def lenientConfig : Config where
  root := "/work"
  drift := {
    disabledRules := .arr [.str "DRIFT.UNREADABLE_FILE"]
    severityOverrides :=
      .obj [("DRIFT.MISSING_CONSTANT_IMPORT", "soft"), ("SYNC.THEME_DATA", "soft")] }

def lenientDisabled : List String := ["DRIFT.UNREADABLE_FILE"]

def lenientSeverities : Table Severity :=
  [("DRIFT.MISSING_CONSTANT_IMPORT", .soft), ("SYNC.THEME_DATA", .soft)]

theorem governs_lenient : Governs lenientConfig.drift defaultConstantsModule
    lenientDisabled lenientSeverities :=
  ⟨rfl, rfl, rfl⟩

/-- A file that uses a constant, and one that is no text. -/
def padWorkspace : Workspace where
  here := "/work"
  files := [("/work/pad.py", Text.encodeUtf8 "frame.padding = SECTION_PADDING\n"),
    ("/work/raw.py", [255])]

def lenientGuard (syncRules : List SyncRule) : Guard where
  rules := ((defaultRules defaultConstantsModule).filter fun r =>
    !lenientDisabled.contains r.ruleId).map (Rule.withSeverityOf lenientSeverities)
  syncRules
  root := some "/work"

theorem ofConfig_lenient (snapshot : Option Theme.Snapshot) {rs : List SyncRule}
    (h : Drift.syncRules lenientConfig snapshot none = .ok rs) :
    Guard.ofConfig lenientConfig snapshot none =
      .ok (lenientGuard (rs.filter fun r => !lenientDisabled.contains r.ruleId)) := by
  rw [Guard.ofConfig_eq governs_lenient, h]
  rfl

/-- The use of the constant is soft now. -/
theorem violations_governed_pad : Governs lenientConfig.drift defaultConstantsModule
      lenientDisabled lenientSeverities ∧
    ∃ g, Guard.ofConfig lenientConfig none none = .ok g ∧ ∃ report : Report,
      (g.check padWorkspace ["pad.py"]).outcome.1 = .ok report ∧ ∃ v ∈ report.violations,
        v.ruleId = "DRIFT.MISSING_CONSTANT_IMPORT" ∧ v.severity = .soft := by
  have hg := ofConfig_lenient none rfl
  obtain ⟨report, hreport, htest⟩ := exists_of_any_toOption
    (((lenientGuard []).check padWorkspace ["pad.py"]).outcome.1)
    (fun r => r.violations.any (·.ruleId == "DRIFT.MISSING_CONSTANT_IMPORT"))
    (by decide +kernel)
  obtain ⟨v, hv, hid⟩ := List.any_eq_true.mp htest
  have hgoverned :=
    ((violations_governed governs_lenient none none).2 _ hg _ _ _ hreport v hv).2
      (missingImport defaultConstantsModule) (by simp [defaultRules]) (beq_iff_eq.mp hid).symm
  refine ⟨governs_lenient, _, hg, report, hreport, v, hv, beq_iff_eq.mp hid, hgoverned.trans ?_⟩
  rw [beq_iff_eq.mp hid]
  rfl

/-- A file that cannot be read is reported though its name is disabled, and a sync rule is hard though
its name is made soft. -/
theorem not_governed_raw : Governs lenientConfig.drift defaultConstantsModule
      lenientDisabled lenientSeverities ∧
    (∃ g, Guard.ofConfig lenientConfig none none = .ok g ∧ ∃ report : Report,
      (g.check padWorkspace ["raw.py"]).outcome.1 = .ok report ∧
        ∃ v ∈ report.violations, v.ruleId = "DRIFT.UNREADABLE_FILE") ∧
    ∃ snapshot g, Guard.ofConfig lenientConfig (some snapshot) none = .ok g ∧ ∃ report : Report,
      (g.check padWorkspace []).outcome.1 = .ok report ∧ ∃ v ∈ report.violations,
        v.ruleId = "SYNC.THEME_DATA" ∧ Table.get? v.ruleId lenientSeverities = some .soft ∧
          v.severity = .hard := by
  refine ⟨governs_lenient, ⟨_, ofConfig_lenient _ rfl, ?_⟩,
    ⟨⟨.plain, .plain, []⟩, _, ofConfig_lenient _ rfl, ?_⟩⟩
  · obtain ⟨report, hreport, htest⟩ := exists_of_any_toOption
      (((lenientGuard []).check padWorkspace ["raw.py"]).outcome.1)
      (fun r => r.violations.any (·.ruleId == "DRIFT.UNREADABLE_FILE"))
      (by decide +kernel)
    obtain ⟨v, hv, hid⟩ := List.any_eq_true.mp htest
    exact ⟨report, hreport, v, hv, beq_iff_eq.mp hid⟩
  · obtain ⟨report, hreport, htest⟩ := exists_of_any_toOption
      (((lenientGuard [⟨"/work/generated/theme-data.json",
        .themeData (Theme.Snapshot.layers ⟨.plain, .plain, []⟩)⟩]).check padWorkspace []).outcome.1)
      (fun r => r.violations.any fun v =>
        v.ruleId == "SYNC.THEME_DATA" && v.severity == .hard)
      (by decide +kernel)
    obtain ⟨v, hv, htest⟩ := List.any_eq_true.mp htest
    obtain ⟨hid, hhard⟩ := Bool.and_eq_true_iff.mp htest
    refine ⟨report, hreport, v, hv, beq_iff_eq.mp hid, ?_, beq_iff_eq.mp hhard⟩
    rw [beq_iff_eq.mp hid]
    rfl

end DesignTokens.Drift
