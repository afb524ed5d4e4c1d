import DesignTokens.Drift.Violation
import DesignTokens.Text.Order

/-!
Reports of drift checks, for readers and for machines.
-/
namespace DesignTokens.Drift

structure Report where
  violations : List Violation := []
  filesChecked : Int := 0
  rulesExecuted : Int := 0
  deriving Repr

namespace Report

def hard (r : Report) : List Violation := r.violations.filter (·.severity = .hard)

def soft (r : Report) : List Violation := r.violations.filter (·.severity = .soft)

def byRule (r : Report) (ruleId : String) : List Violation :=
  r.violations.filter (·.ruleId == ruleId)

/-- The report as data. The time that a check took is not recorded. -/
def toJson (r : Report) : Json :=
  .obj [("violations", .arr (r.violations.map Violation.toJson)),
    ("files_checked", Json.ofInt r.filesChecked), ("rules_executed", Json.ofInt r.rulesExecuted),
    ("execution_time_ms", Json.ofNat 0),
    ("summary", .obj [("total", Json.ofNat r.violations.length),
      ("hard", Json.ofNat r.hard.length), ("soft", Json.ofNat r.soft.length)])]

/-- The decision in one line, which names at most three rules. -/
def reason (r : Report) : String :=
  if r.hard.isEmpty then
    if r.soft.isEmpty then "No drift" else "No hard drift (" ++ toString r.soft.length ++ " soft)"
  else
    let rules := Text.distinct (r.hard.map (·.ruleId))
    match rules with
    | [rule] => "Drift: " ++ rule ++ " violation"
    | _ =>
      let more := if rules.length ≤ 3 then "" else "..."
      "Drift: " ++ toString rules.length ++ " rule violations (" ++
        String.intercalate ", " (rules.take 3) ++ more ++ ")"

/-- The report for machines. -/
def decision (r : Report) : Json :=
  .obj [("decision", if r.hard.isEmpty then "pass" else "fail"), ("reason", r.reason),
    ("violations", .arr (r.violations.map Violation.toJson)),
    ("files_checked", Json.ofInt r.filesChecked), ("execution_time_ms", Json.ofNat 0),
    ("counts", .obj [("hard", Json.ofNat r.hard.length), ("soft", Json.ofNat r.soft.length)])]

/-- The escape that starts a severity's color. -/
def colorOf : Severity → String
  | .hard => "\x1b[0;31m"
  | .soft => "\x1b[1;33m"

/-- The two lines of a violation. -/
def violationText (colored : Bool) (v : Violation) : String :=
  let place := match v.line with
    | some n => v.file ++ ":" ++ toString n
    | none => v.file
  let (color, dim, reset) := if colored then (colorOf v.severity, "\x1b[2m", "\x1b[0m")
    else ("", "", "")
  color ++ place ++ " " ++ v.ruleId ++ reset ++ " " ++ v.message ++ "\n  " ++ dim ++ "-> " ++
    v.remediation ++ reset ++ "\n"

def summary (r : Report) : String :=
  let files := " in " ++ toString r.filesChecked ++ " file(s)"
  if r.violations.isEmpty then "\nNo drift found" ++ files ++ "\n"
  else "\n" ++ toString r.violations.length ++ " violation(s)" ++ files ++
    (if r.hard.isEmpty then "" else " (" ++ toString r.hard.length ++ " hard)") ++ "\n"

/-- The report for readers. -/
def text (r : Report) (colored : Bool) : String :=
  String.join (r.violations.map (violationText colored)) ++ r.summary

end Report

end DesignTokens.Drift
