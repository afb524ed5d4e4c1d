import DesignTokens.Json.Value

/-!
Drift violations: one rule firing on one file.
-/
namespace DesignTokens.Drift

inductive Severity where
  /-- Fails the check. -/
  | hard
  /-- Is reported only. -/
  | soft
  deriving DecidableEq, Repr

def Severity.name : Severity → String
  | .hard => "hard"
  | .soft => "soft"

def Severity.ofName? (name : String) : Option Severity :=
  [Severity.hard, .soft].find? fun s => s.name == name

/-- Soft comes before hard. -/
def Severity.le : Severity → Severity → Bool
  | .hard, .soft => false
  | _, _ => true

structure Violation where
  ruleId : String
  file : String
  severity : Severity
  message : String
  remediation : String
  line : Option Int
  deriving DecidableEq, Repr

namespace Violation

/-- By file, then by line, then by rule; a violation without a line stands at line zero. -/
def le (a b : Violation) : Bool :=
  if a.file ≠ b.file then decide (a.file ≤ b.file)
  else if a.line.getD 0 ≠ b.line.getD 0 then decide (a.line.getD 0 ≤ b.line.getD 0)
  else decide (a.ruleId ≤ b.ruleId)

def sorted (vs : List Violation) : List Violation := vs.mergeSort le

def toJson (v : Violation) : Json :=
  .obj [("rule_id", v.ruleId), ("file", v.file),
    ("line", Json.ofOption (v.line.map Json.ofInt)), ("severity", v.severity.name),
    ("message", v.message), ("remediation", v.remediation)]

end Violation

end DesignTokens.Drift
