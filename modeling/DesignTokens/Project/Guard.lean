import DesignTokens.Drift.DefaultRules
import DesignTokens.Drift.Report
import DesignTokens.Project.Inputs

/-!
Drift checks of a workspace. Every file counts once, under whatever paths it is asked for; the
targets of sync rules are checked too, and a target that is not there is a violation. The report is
sorted, so that it does not depend on the order in which files are checked.
-/
namespace DesignTokens.Drift

/-- The rules of a check, and the folder from which reports name files. -/
structure Guard where
  rules : List Rule
  syncRules : List SyncRule := []
  root : Option Path := none

namespace Guard

/-- The severities that a configuration gives to rules. -/
def overridesOf (v : Json) : Except Json.Mismatch (Table Json) :=
  match v with
  | .obj fields => .ok fields
  | .arr _ | .str _ => .ok []
  | v => if v.truthy then .error (.notContainer v.typeName) else .ok []

def text? : Json → Option String
  | .str s => some s
  | _ => none

/-- The guard of a configuration. Sync rules need a snapshot, and those for maps a registry. -/
def ofConfig (c : Config) (snapshot : Option Theme.Snapshot) (registry : Option Registry) :
    Except Failure Guard := do
  let module ← match c.drift.constantsModule with
    | .str module => pure module
    | v => throw (.mismatch (.notObject v.typeName "replace"))
  let disabled ← c.drift.disabledRules.items.mapError .mismatch
  let overrides ← (overridesOf c.drift.severityOverrides).mapError .mismatch
  let rules ← (configure (defaultRules module) (disabled.filterMap text?) overrides).mapError
    fun v => .mismatch (.notMember v "Severity")
  let syncRules ← (Drift.syncRules c snapshot registry).mapError .sync
  let isKept (r : SyncRule) : Except Json.Mismatch Bool :=
    (c.drift.disabledRules.mentions r.ruleId).map not
  let kept ← (syncRules.filterM isKept).mapError .mismatch
  return ⟨rules, kept, c.root⟩

variable (g : Guard) (w : Workspace)

/-- A path as reports show it: from the root, if it lies below. -/
def display (p : Path) : String :=
  match g.root.bind fun root => (root.resolve w.here).relativeTo? (p.resolve w.here) with
  | some q => q.text
  | none => p.text

/-- Each file once, under the first path that leads to it. -/
def distinctFiles (paths : List Path) : List Path :=
  paths.foldl (fun kept p =>
    if kept.any fun q => q.resolve w.here == p.resolve w.here then kept else kept ++ [p]) []

/-- The files to check: those that are asked for and the targets that are there. -/
def filesToCheck (paths : List Path) : List Path :=
  (distinctFiles w (paths ++ (g.syncRules.map (·.target)).filter w.has)).mergeSort Path.le

/-- The violations of targets that are not there. -/
def missingTargets : List Violation :=
  (g.syncRules.filter fun r => !w.has r.target).map fun r => r.missing (g.display w r.target)

/-- The violation of a file that cannot be read. -/
def unreadable (file : String) (message : String) : Violation where
  ruleId := "DRIFT.UNREADABLE_FILE"
  file
  severity := .hard
  message := "Cannot read file: " ++ message
  remediation := "Fix the file's permissions or encoding (UTF-8 expected)"
  line := none

/-- The violations of all rules in the text of a file. -/
def checkText (p : Path) (text : String) : Except Json.Mismatch (List Violation) := do
  let file := g.display w p
  let synced ← g.syncRules.mapM fun r => r.evaluate w.here p.text text
  return evaluateAll g.rules file text ++ synced.flatten.map fun v => { v with file }

/-- The violations of a file. -/
def checkFile (p : Path) : Logged (List Violation) := do
  match w.text p with
  | .ok text => Logged.ofExcept .mismatch (g.checkText w p text)
  | .error f =>
    let file := g.display w p
    Logged.note .warning "design_sync.drift"
      ("Cannot read " ++ file ++ ": " ++ f.message p) [("file_path", .str file)]
    return [unreadable file (f.message p)]

/-- The report on files whose checks end one after the other. -/
def reportInOrder (files : List Path) : Logged Report := do
  let found ← files.mapM (g.checkFile w)
  let report : Report :=
    { violations := Violation.sorted (g.missingTargets w ++ found.flatten)
      filesChecked := files.length
      rulesExecuted := g.rules.length + g.syncRules.length }
  Logged.info "design_sync.drift"
    ("Drift check: " ++ toString files.length ++ " files, " ++ toString report.hard.length ++
      " hard, " ++ toString report.soft.length ++ " soft violations")
  return report

/-- Checks files. They may be checked at the same time and end in any order; here they end in the
order of their paths. -/
def check (paths : List Path) : Logged Report := g.reportInOrder w (g.filesToCheck w paths)

end Guard

end DesignTokens.Drift
